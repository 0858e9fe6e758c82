import ClusterNet.Address
import ClusterNet.Proofs.IpText
import Mathlib.Data.List.DropRight

/-!
# Addresses in texts

How the text of an address is taken apart: what is trimmed, where it is split, and what an IP literal
is made of. The text that an address is written as is read as that address again exactly if its host
can do without brackets where none are written, and does not close them where they are.
-/

namespace ClusterNet

namespace Text

variable {cs : List Char}

/-! ## Trimming -/

theorem trimChars_eq (cs : List Char) : trimChars cs = (cs.dropWhile isBlank).rdropWhile isBlank := rfl

theorem trimChars_of_last (hlast : ∀ c ∈ cs.getLast?, isBlank c = false) :
    trimChars cs = cs.dropWhile isBlank := by
  rw [trimChars_eq, List.rdropWhile_eq_self_iff]
  intro hne
  have hsuffix := List.dropWhile_suffix (l := cs) isBlank
  have hlast' := hsuffix.getLast hne
  rw [hlast', hlast _ (List.getLast?_eq_some_getLast (List.ne_nil_of_length_pos
    (Nat.lt_of_lt_of_le (List.length_pos_iff.mpr hne) hsuffix.length_le)))]
  decide

theorem dropWhile_of_head (hhead : ∀ c ∈ cs.head?, isBlank c = false) : cs.dropWhile isBlank = cs := by
  cases cs with
  | nil => rfl
  | cons c cs => rw [List.dropWhile_cons_of_neg (by simp [hhead c rfl])]

theorem trimChars_of_ends (hhead : ∀ c ∈ cs.head?, isBlank c = false)
    (hlast : ∀ c ∈ cs.getLast?, isBlank c = false) : trimChars cs = cs := by
  rw [trimChars_of_last hlast, dropWhile_of_head hhead]

theorem isBlank_of_head?_trimChars : ∀ c ∈ (trimChars cs).head?, isBlank c = false := by
  intro c hc
  have hprefix := List.rdropWhile_prefix isBlank (l := cs.dropWhile isBlank)
  rw [← trimChars_eq] at hprefix
  have hhead : (cs.dropWhile isBlank).head? = some c := by
    obtain ⟨t, ht⟩ := hprefix
    rw [← ht, List.head?_append, hc]
    rfl
  have hnot := List.head?_dropWhile_not isBlank cs
  rw [hhead] at hnot
  simpa using hnot

/-! ## Ports -/

theorem isDigit_of_mem_decimal {n : Nat} {c : Char} (h : c ∈ decimal n) : c.isDigit = true :=
  Nat.isDigit_of_mem_toDigits (by decide) (by decide) h

theorem decimal_ne_nil (n : Nat) : decimal n ≠ [] := List.ne_nil_of_length_pos Nat.length_toDigits_pos

theorem numberUpTo?_of_isDigit (bound : Nat) (h : ∀ c ∈ cs, c.isDigit = true) :
    numberUpTo? bound cs = (digitsValue? cs).filter (· ≤ bound) := by
  unfold numberUpTo?
  split
  · exact absurd (h '+' List.mem_cons_self) (by decide)
  · rfl

theorem digitsValue?_decimal (n : Nat) : digitsValue? (decimal n) = some n := by
  unfold digitsValue?
  rw [if_neg, decimal, Nat.ofDigitChars_ten_toDigits]
  simpa [decimal_ne_nil] using fun c hc => isDigit_of_mem_decimal hc

theorem uint16?_decimal (port : UInt16) : uint16? (decimal port.toNat) = some port := by
  have hlt := port.toNat_lt
  rw [uint16?, numberUpTo?_of_isDigit _ fun c => isDigit_of_mem_decimal, digitsValue?_decimal,
    Option.filter_some, if_pos (by simpa using by omega)]
  simp

theorem isBlank_of_toNat {c : Char} (hlow : 46 ≤ c.toNat) (hhigh : c.toNat ≤ 102) : isBlank c = false := by
  simp [isBlank, blankRanges]
  omega

theorem isBlank_of_isDigit {c : Char} (h : c.isDigit = true) : isBlank c = false := by
  simp only [Char.isDigit, Bool.and_eq_true, decide_eq_true_eq, ge_iff_le, UInt32.le_iff_toNat_le] at h
  change 48 ≤ c.toNat ∧ c.toNat ≤ 57 at h
  exact isBlank_of_toNat (by omega) (by omega)

theorem eq_of_whole {α : Type} {r : Reader α} {x : α} (h : whole r cs = some x) : r cs = some (x, []) := by
  unfold whole at h
  split at h
  · rename_i hr
    rw [hr, Option.some.inj h]
  · cases h

end Text

namespace Ip

open Text

/-! ## What IP literals are made of -/

/-- A digit, a letter of a hexadecimal number, a point or a colon. -/
def isIpChar (c : Char) : Bool := (hexValue? c).isSome || c == '.' || c == ':'

/-- The front of a text is characters of IP literals, among them so many colons. -/
def Takes (colons : Nat) (cs rest : List Char) : Prop :=
  ∃ front, cs = front ++ rest ∧ (∀ c ∈ front, isIpChar c = true) ∧ colons ≤ front.count ':'

variable {cs rest : List Char} {j k : Nat}

theorem takes_nothing (cs : List Char) : Takes 0 cs cs := ⟨[], rfl, by simp, Nat.zero_le _⟩

theorem Takes.trans {mid : List Char} (h : Takes j cs mid) (h' : Takes k mid rest) : Takes (j + k) cs rest := by
  obtain ⟨front, rfl, hchars, hcolons⟩ := h
  obtain ⟨more, rfl, hchars', hcolons'⟩ := h'
  refine ⟨front ++ more, (List.append_assoc ..).symm, fun c hc => ?_, ?_⟩
  · rcases List.mem_append.mp hc with hc | hc
    · exact hchars c hc
    · exact hchars' c hc
  · rw [List.count_append]
    exact Nat.add_le_add hcolons hcolons'

theorem takes_spanDigits {digit : Char → Option Nat} (hdigit : ∀ c, (digit c).isSome → isIpChar c = true)
    (cs : List Char) : Takes 0 cs (spanDigits digit cs).2 := by
  induction cs with
  | nil => exact takes_nothing []
  | cons c cs ih =>
    rw [spanDigits]
    split
    · rename_i d hd
      have hfront : Takes 0 (c :: cs) cs :=
        ⟨[c], rfl, by simpa using hdigit c (by rw [hd]; rfl), Nat.zero_le _⟩
      exact hfront.trans ih
    · exact takes_nothing _

theorem takes_digits {digit : Char → Option Nat} (hdigit : ∀ c, (digit c).isSome → isIpChar c = true)
    {most : Nat} {ds : List Nat} (h : digits digit most cs = some (ds, rest)) : Takes 0 cs rest := by
  unfold digits at h
  dsimp only at h
  split at h
  · cases h
  · rw [← (Prod.mk.inj (Option.some.inj h)).2]
    exact takes_spanDigits hdigit cs

theorem isIpChar_of_hexValue? {c : Char} (h : (hexValue? c).isSome) : isIpChar c = true := by
  simp [isIpChar, h]

theorem isIpChar_of_digitValue? {c : Char} (h : (digitValue? c).isSome) : isIpChar c = true := by
  apply isIpChar_of_hexValue?
  unfold digitValue? at h
  split at h
  · rename_i hc
    rw [hexValue?, if_pos hc]
    rfl
  · cases h

theorem takes_char {d : Char} (hd : isIpChar d = true) (h : char d cs = some ((), rest)) :
    Takes (if d = ':' then 1 else 0) cs rest := by
  cases cs with
  | nil => cases h
  | cons c cs =>
    rw [char] at h
    split at h
    · rename_i hc
      subst hc
      rw [← (Prod.mk.inj (Option.some.inj h)).2]
      refine ⟨[c], rfl, by simpa using hd, ?_⟩
      split <;> simp [*]
    · cases h

theorem takes_octet {a : UInt8} (h : octet cs = some (a, rest)) : Takes 0 cs rest := by
  rw [octet_rest h]
  exact takes_spanDigits (fun _ => isIpChar_of_digitValue?) cs

theorem takes_group {g : UInt16} (h : group cs = some (g, rest)) : Takes 0 cs rest := by
  obtain ⟨⟨ds, mid⟩, hds, h⟩ := Option.bind_eq_some_iff.mp h
  obtain ⟨-, rfl⟩ := Prod.mk.inj (Option.some.inj h)
  exact takes_digits (fun _ => isIpChar_of_hexValue?) hds

theorem takes_ipv4 {q : Ipv4} (h : ipv4 cs = some (q, rest)) : Takes 0 cs rest := by
  simp only [ipv4, Option.bind_eq_bind, Option.bind_eq_some_iff, Prod.exists, Option.some.injEq,
    Prod.mk.injEq] at h
  obtain ⟨a, cs₁, ha, _, cs₂, hp, b, cs₃, hb, _, cs₄, hq, c, cs₅, hc, _, cs₆, hr, d, cs₇, hd, -, rfl⟩ := h
  exact (takes_octet ha).trans <| (takes_char rfl hp).trans <| (takes_octet hb).trans <|
    (takes_char rfl hq).trans <| (takes_octet hc).trans <| (takes_char rfl hr).trans (takes_octet hd)

theorem takes_separator {first : Bool} (h : separator first cs = some ((), rest)) :
    Takes (!first).toNat cs rest := by
  unfold separator at h
  cases first with
  | true =>
    rw [if_pos rfl] at h
    obtain ⟨-, rfl⟩ := Prod.mk.inj (Option.some.inj h)
    exact takes_nothing cs
  | false => exact takes_char rfl h

/-- Groups stand apart by colons. The two groups that four bytes stand for need none between them. -/
theorem takes_groups (first : Bool) (room : Nat) (cs : List Char) : ∃ colons,
    Takes colons cs (groups first room cs).2.2 ∧
      (groups first room cs).1.length ≤ colons + first.toNat + (groups first room cs).2.1.toNat := by
  induction room generalizing first cs with
  | zero => exact ⟨0, takes_nothing cs, Nat.zero_le _⟩
  | succ room ih =>
    rw [groups]
    split
    · rename_i q rest hquad
      split at hquad
      · simp only [Option.bind_eq_some_iff, Prod.exists] at hquad
        obtain ⟨_, mid, hsep, hq⟩ := hquad
        refine ⟨_, (takes_separator hsep).trans (takes_ipv4 hq), ?_⟩
        cases first <;> simp
      · cases hquad
    · split
      · rename_i g rest hgroup
        simp only [Option.bind_eq_some_iff, Prod.exists] at hgroup
        obtain ⟨_, mid, hsep, hg⟩ := hgroup
        obtain ⟨colons, htakes, hle⟩ := ih false rest
        generalize groups false room rest = found at htakes hle ⊢
        obtain ⟨gs, quad, more⟩ := found
        refine ⟨_, (takes_separator hsep).trans ((takes_group hg).trans htakes), ?_⟩
        dsimp only at hle ⊢
        rw [List.length_cons]
        cases first <;> simp at hle ⊢ <;> omega
      · exact ⟨0, takes_nothing cs, Nat.zero_le _⟩

theorem Takes.mono (h : Takes k cs rest) (hle : j ≤ k) : Takes j cs rest := by
  obtain ⟨front, hcs, hchars, hcolons⟩ := h
  exact ⟨front, hcs, hchars, Nat.le_trans hle hcolons⟩

theorem takes_ipv6 {g : Ipv6} (h : ipv6 cs = some (g, rest)) : Takes 2 cs rest := by
  obtain ⟨colons, htakes, hle⟩ := takes_groups true 8 cs
  unfold ipv6 at h
  dsimp only at h
  split at h
  · rename_i height
    simp only [Option.map_eq_some_iff, Prod.mk.injEq] at h
    obtain ⟨_, -, -, rfl⟩ := h
    have hquad := Bool.toNat_le (groups true 8 cs).2.1
    rw [height, Bool.toNat_true] at hle
    exact htakes.mono (by omega)
  · split at h
    · cases h
    · simp only [Option.bind_eq_bind, Option.bind_eq_some_iff, Prod.exists, Option.map_eq_some_iff,
        Prod.mk.injEq] at h
      obtain ⟨_, mid, hone, _, mid', htwo, _, -, -, rfl⟩ := h
      obtain ⟨more, htail, -⟩ := takes_groups true (7 - (groups true 8 cs).1.length) mid'
      refine (htakes.trans ((takes_char rfl hone).trans ((takes_char rfl htwo).trans htail))).mono ?_
      simp
      omega

theorem isIpChar_of_ofChars? {ip : Ip} (h : ofChars? cs = some ip) :
    cs ≠ [] ∧ ∀ c ∈ cs, isIpChar c = true := by
  constructor
  · rintro rfl
    cases h
  · have hall {k : Nat} (htakes : Takes k cs []) : ∀ c ∈ cs, isIpChar c = true := by
      obtain ⟨front, rfl, hchars, -⟩ := htakes
      rwa [List.append_nil]
    unfold ofChars? at h
    split at h
    · rename_i q hq
      exact hall (takes_ipv4 (eq_of_whole hq))
    · obtain ⟨g, hg, -⟩ := Option.map_eq_some_iff.mp h
      exact hall (takes_ipv6 (eq_of_whole hg))

theorem toNat_of_hexValue? {c : Char} (h : (hexValue? c).isSome) : 48 ≤ c.toNat ∧ c.toNat ≤ 102 := by
  have hle (d : Char) : d ≤ c ↔ d.toNat ≤ c.toNat := Iff.rfl
  have hge (d : Char) : c ≤ d ↔ c.toNat ≤ d.toNat := Iff.rfl
  unfold hexValue? at h
  simp only [hle, hge] at h
  split at h
  · rename_i hc
    exact ⟨hc.1, Nat.le_trans hc.2 (by decide)⟩
  split at h
  · rename_i hc
    exact ⟨Nat.le_trans (by decide) hc.1, hc.2⟩
  split at h
  · rename_i hc
    exact ⟨Nat.le_trans (by decide) hc.1, Nat.le_trans hc.2 (by decide)⟩
  · cases h

theorem isBlank_of_isIpChar {c : Char} (h : isIpChar c = true) : isBlank c = false := by
  simp only [isIpChar, Bool.or_eq_true, beq_iff_eq] at h
  obtain (h | rfl) | rfl := h
  · have hc := toNat_of_hexValue? h
    exact isBlank_of_toNat (by omega) (by omega)
  · decide
  · decide

end Ip

namespace Address

open Text

variable {a : Address} {c : Char} {cs host pre post : List Char} {port : UInt16}

/-! ## Splitting -/

theorem splitAt?_eq_some : splitAt? c cs = some (pre, post) ↔ cs = pre ++ c :: post ∧ c ∉ pre := by
  induction cs generalizing pre with
  | nil => simp [splitAt?]
  | cons x cs ih =>
    rw [splitAt?]
    split
    · rename_i hx
      subst hx
      constructor
      · intro h
        obtain ⟨rfl, rfl⟩ := Prod.mk.inj (Option.some.inj h)
        simp
      · rintro ⟨h, hpre⟩
        cases pre with
        | nil => simpa using h
        | cons y pre => exact absurd (by simp [(List.cons.inj h).1]) hpre
    · rename_i hx
      simp only [Option.map_eq_some_iff, Prod.exists, Prod.mk.injEq]
      constructor
      · rintro ⟨front, _, h, rfl, rfl⟩
        obtain ⟨rfl, hfront⟩ := ih.mp h
        exact ⟨rfl, by simpa [Ne.symm hx] using hfront⟩
      · rintro ⟨h, hpre⟩
        cases pre with
        | nil => exact absurd (List.cons.inj h).1 hx
        | cons y pre =>
          obtain ⟨rfl, rfl⟩ := List.cons.inj h
          exact ⟨pre, post, ih.mpr ⟨rfl, fun hc => hpre (List.mem_cons_of_mem x hc)⟩, rfl, rfl⟩

theorem splitAt?_append (h : c ∉ pre) (post : List Char) : splitAt? c (pre ++ c :: post) = some (pre, post) :=
  splitAt?_eq_some.mpr ⟨rfl, h⟩

theorem splitAt?_eq_none (h : splitAt? c cs = none) : c ∉ cs := by
  intro hc
  obtain ⟨pre, post, rfl, hpre⟩ := List.eq_append_cons_of_mem hc
  rw [splitAt?_append hpre] at h
  cases h

/-! ## Hosts -/

theorem ofHost_of_not_mem (h : ']' ∉ host) (port : UInt16) :
    ofHost (String.ofList host) port = ⟨String.ofList host, port⟩ := by
  unfold ofHost unbracket
  rw [String.toList_ofList]
  split
  · rw [if_neg]
    intro hlast
    exact h (List.mem_cons_of_mem _ (List.mem_of_getLast? hlast))
  · rfl

theorem ofHost_of_head (h : host.head? ≠ some '[') (port : UInt16) :
    ofHost (String.ofList host) port = ⟨String.ofList host, port⟩ := by
  unfold ofHost unbracket
  rw [String.toList_ofList]
  split
  · exact absurd rfl h
  · rfl

/-- A host that can stand at the front of a text without brackets. -/
def Opens (host : List Char) : Prop := ∃ c ∈ host.head?, isBlank c = false ∧ c ≠ '['

/-- A host that is read out of the display form as it went in. -/
def Readable (host : List Char) : Prop := if ':' ∈ host then ']' ∉ host else Opens host

/-! ## What a text spells -/

/-- The three ways in which a text without blanks around it spells an address. -/
inductive Spells : List Char → Address → Prop where
  | bracketed (host tail : List Char) (port : UInt16) (inside : ']' ∉ host) :
      Spells ('[' :: (host ++ ']' :: tail)) ⟨String.ofList host, port⟩
  | literal (cs : List Char) (ip : Ip) (bare : cs.head? ≠ some '[') (spelled : Ip.ofChars? cs = some ip) :
      Spells cs (ofIp ip defaultPort)
  | named (host tail : List Char) (port : UInt16) (something : host ≠ []) (bare : host.head? ≠ some '[')
      (plain : ':' ∉ host) : Spells (host ++ tail) ⟨String.ofList host, port⟩

theorem spells_of_ofBracketed (h : ofBracketed cs = .ok a) : Spells ('[' :: cs) a := by
  unfold ofBracketed at h
  split at h
  · cases h
  · rename_i hsplit
    obtain ⟨rfl, hinside⟩ := splitAt?_eq_some.mp hsplit
    rw [ofHost_of_not_mem hinside] at h
    exact Except.ok.inj h ▸ .bracketed _ [] _ hinside
  · rename_i hsplit
    obtain ⟨rfl, hinside⟩ := splitAt?_eq_some.mp hsplit
    split at h
    · rw [ofHost_of_not_mem hinside] at h
      exact Except.ok.inj h ▸ .bracketed _ _ _ hinside
    · cases h
  · cases h

theorem spells_of_ofTrimmed (h : ofTrimmed cs = .ok a) : Spells cs a := by
  unfold ofTrimmed at h
  split at h
  · cases h
  · exact spells_of_ofBracketed h
  · rename_i hne hbracket
    have hbare : cs.head? ≠ some '[' := by
      intro hhead
      cases cs with
      | nil => cases hhead
      | cons c cs => exact hbracket cs (by rw [Option.some.inj hhead])
    split at h
    · split at h
      · rename_i ip hip
        exact Except.ok.inj h ▸ .literal cs ip hbare hip
      · cases h
    · split at h
      · rename_i hsplit
        rw [ofHost_of_head hbare] at h
        have hspells := Spells.named cs [] defaultPort (fun hnil => hne hnil) hbare (splitAt?_eq_none hsplit)
        rw [List.append_nil] at hspells
        exact Except.ok.inj h ▸ hspells
      · cases h
      · rename_i host port hsome hsplit
        obtain ⟨rfl, hplain⟩ := splitAt?_eq_some.mp hsplit
        split at h
        · have hhost : host ≠ [] := fun hnil => hsome hnil
          rw [List.head?_append_of_ne_nil _ hhost] at hbare
          rw [ofHost_of_head hbare] at h
          exact Except.ok.inj h ▸ .named host _ _ hhost hbare hplain
        · cases h

/-! ## Written and read back -/

theorem chars_of_mem (h : ':' ∈ a.host.toList) :
    a.chars = '[' :: (a.host.toList ++ ']' :: ':' :: decimal a.port.toNat) := by
  unfold chars
  rw [if_pos (by simpa using h), List.cons_append]

theorem chars_of_not_mem (h : ':' ∉ a.host.toList) : a.chars = a.host.toList ++ ':' :: decimal a.port.toNat := by
  unfold chars
  rw [if_neg (by simpa using h)]

theorem isBlank_of_getLast?_decimal (cs : List Char) (n : Nat) :
    ∀ c ∈ (cs ++ decimal n).getLast?, isBlank c = false := by
  intro c hc
  rw [List.getLast?_append_of_ne_nil _ (decimal_ne_nil n)] at hc
  exact isBlank_of_isDigit (isDigit_of_mem_decimal (List.mem_of_getLast? hc))

theorem parse_text (a : Address) : parse a.text = ofTrimmed (a.chars.dropWhile isBlank) := by
  have hlast : ∀ c ∈ a.chars.getLast?, isBlank c = false := by
    by_cases h : ':' ∈ a.host.toList
    · have hchars : a.chars = ('[' :: (a.host.toList ++ [']', ':'])) ++ decimal a.port.toNat := by
        rw [chars_of_mem h]
        simp
      rw [hchars]
      exact isBlank_of_getLast?_decimal _ _
    · have hchars : a.chars = (a.host.toList ++ [':']) ++ decimal a.port.toNat := by
        rw [chars_of_not_mem h]
        simp
      rw [hchars]
      exact isBlank_of_getLast?_decimal _ _
  rw [parse, text, String.toList_ofList, trimChars_of_last hlast]

theorem mk_ofList_toList (a : Address) : (⟨String.ofList a.host.toList, a.port⟩ : Address) = a := by
  rw [String.ofList_toList]

theorem parse_text_of_readable (h : Readable a.host.toList) : parse a.text = .ok a := by
  rw [parse_text]
  unfold Readable at h
  split at h
  · rename_i hcolon
    rw [chars_of_mem hcolon, dropWhile_of_head (by simp; decide), ofTrimmed, ofBracketed,
      splitAt?_append h]
    simp only [uint16?_decimal, ofHost_of_not_mem h, mk_ofList_toList]
  · rename_i hcolon
    obtain ⟨c, hc, hblank, hbracket⟩ := h
    obtain ⟨rest, hhost⟩ := List.head?_eq_some_iff.mp hc
    have hcount : (a.host.toList ++ ':' :: decimal a.port.toNat).count ':' = 1 := by
      rw [List.count_append, List.count_cons_self, List.count_eq_zero.mpr hcolon, List.count_eq_zero.mpr]
      intro hmem
      exact absurd (isDigit_of_mem_decimal hmem) (by decide)
    have hsplit := splitAt?_append hcolon (decimal a.port.toNat)
    have hhead : a.host.toList.head? ≠ some '[' := by
      rw [hhost]
      simpa using hbracket
    have hof := ofHost_of_head hhead a.port
    rw [mk_ofList_toList] at hof
    rw [chars_of_not_mem hcolon, dropWhile_of_head (by rw [hhost]; simpa using hblank)]
    rw [hhost, List.cons_append] at hcount hsplit ⊢
    rw [hhost] at hof
    unfold ofTrimmed
    split
    · rename_i heq
      cases heq
    · rename_i heq
      exact absurd (List.cons.inj heq).1 hbracket
    · rw [if_neg (by omega), hsplit]
      simp only [uint16?_decimal, hof]

theorem readable_of_ip (ip : Ip) : Readable ip.text.toList := by
  obtain ⟨hsome, hchars⟩ := Ip.isIpChar_of_ofChars? (Ip.ofText?_text ip)
  unfold Readable
  split
  · intro hmem
    exact absurd (hchars _ hmem) (by decide)
  · obtain ⟨c, rest, htext⟩ := List.exists_cons_of_ne_nil hsome
    have hc := hchars c (by rw [htext]; exact List.mem_cons_self)
    refine ⟨c, by rw [htext]; rfl, Ip.isBlank_of_isIpChar hc, ?_⟩
    rintro rfl
    exact absurd hc (by decide)

theorem colon_of_bracketed {tail : List Char}
    (h : (⟨String.ofList host, port⟩ : Address).chars.dropWhile isBlank = '[' :: (host ++ ']' :: tail)) :
    ':' ∈ host := by
  by_contra hcolon
  have hport : (':' :: decimal port.toNat).dropWhile isBlank = ':' :: decimal port.toNat :=
    dropWhile_of_head (by simp; decide)
  have hdropped : (host ++ ':' :: decimal port.toNat).dropWhile isBlank =
      host.dropWhile isBlank ++ ':' :: decimal port.toNat := by
    rw [List.dropWhile_append, hport]
    split
    · rename_i hnil
      rw [List.isEmpty_iff.mp hnil, List.nil_append]
    · rfl
  rw [chars_of_not_mem (by simpa using hcolon), String.toList_ofList, hdropped, ← List.cons_append,
    List.append_eq_append_iff] at h
  rcases h with ⟨more, hhost, hrest⟩ | ⟨more, hhost, -⟩
  · -- the colon before the port is not in the host
    cases more with
    | nil => exact absurd (List.cons.inj hrest).1 (by decide)
    | cons d more =>
      have hd : d = ':' := (List.cons.inj hrest).1.symm
      have hmem : ':' ∈ '[' :: host := by
        rw [hhost, hd]
        simp
      exact hcolon ((List.mem_cons.mp hmem).resolve_left (by decide))
  · have hle := (List.dropWhile_suffix (l := host) isBlank).length_le
    rw [hhost, List.length_append, List.length_cons] at hle
    omega

theorem readable_of_parse_text (h : parse a.text = .ok a) : Readable a.host.toList := by
  rw [parse_text] at h
  have hspells := spells_of_ofTrimmed h
  have hblank := List.head?_dropWhile_not isBlank a.chars
  generalize htext : a.chars.dropWhile isBlank = text at hspells hblank
  cases hspells with
  | bracketed host tail port inside =>
    rwa [String.toList_ofList, Readable, if_pos (colon_of_bracketed htext)]
  | literal _ ip bare spelled => exact readable_of_ip ip
  | named host tail port something bare plain =>
    rw [String.toList_ofList, Readable, if_neg plain]
    obtain ⟨c, rest, rfl⟩ := List.exists_cons_of_ne_nil something
    exact ⟨c, rfl, by simpa using hblank, by simpa using bare⟩

/-- The display form of an address is read as the address exactly if its host is readable. -/
theorem parse_text_iff : parse a.text = .ok a ↔ Readable a.host.toList :=
  ⟨readable_of_parse_text, parse_text_of_readable⟩

end Address

end ClusterNet
