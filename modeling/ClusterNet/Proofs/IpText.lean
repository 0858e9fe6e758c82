import ClusterNet.Ip.Reader
import ClusterNet.Ip.Writer
import ClusterNet.Proofs.BigEndian
import Mathlib.Tactic.IntervalCases

/-!
# IP addresses in texts

The canonical text of an address is read back as that address. The groups of a long address
are read up to the double colon or the end, and a text with a colon in it is no short address.
-/

namespace ClusterNet

namespace Text

/-! ## Digits -/

/-- No digit stands at the front. -/
def Stops (digit : Char → Option Nat) (cs : List Char) : Prop := ∀ c ∈ cs.head?, digit c = none

theorem stops_nil (digit : Char → Option Nat) : Stops digit [] := by
  simp [Stops]

theorem stops_cons {digit : Char → Option Nat} {c : Char} (h : digit c = none) (cs : List Char) :
    Stops digit (c :: cs) := by
  simpa [Stops] using h

theorem valueOf_append_one (b : Nat) (ds : List Nat) (d : Nat) :
    valueOf b (ds ++ [d]) = b * valueOf b ds + d := by
  simp [valueOf, List.foldl_append]

theorem exists_digits (b : Nat) (hb : 1 < b) (n : Nat) :
    ∃ ds : List Nat, Nat.toDigits b n = ds.map Nat.digitChar ∧ (∀ d ∈ ds, d < b) ∧
      valueOf b ds = n ∧ (n ≠ 0 → ds.head? ≠ some 0) := by
  induction n using Nat.strongRecOn with
  | ind n ih =>
    rw [Nat.toDigits_eq_if hb]
    split
    · rename_i h
      exact ⟨[n], by simp, by simpa using h, by simp [valueOf], by simp⟩
    · rename_i h
      obtain ⟨ds, hds, hlt, hval, hhead⟩ := ih (n / b) (Nat.div_lt_self (by omega) hb)
      have hpos : n / b ≠ 0 := by
        have := Nat.div_pos (by omega : b ≤ n) (by omega)
        omega
      refine ⟨ds ++ [n % b], by simp [hds], ?_, ?_, fun _ => ?_⟩
      · intro d hd
        rcases List.mem_append.mp hd with hd | hd
        · exact hlt d hd
        · obtain rfl := List.mem_singleton.mp hd
          exact Nat.mod_lt _ (by omega)
      · rw [valueOf_append_one, hval, Nat.div_add_mod]
      · cases ds with
        | nil => simp [valueOf] at hval; omega
        | cons d ds => simpa using hhead hpos

theorem spanDigits_stops {digit : Char → Option Nat} {rest : List Char} (h : Stops digit rest) :
    spanDigits digit rest = ([], rest) := by
  cases rest with
  | nil => rfl
  | cons c cs => simp [spanDigits, show digit c = none from h c (by simp)]

theorem spanDigits_map {digit : Char → Option Nat} {ds : List Nat} {rest : List Char}
    (hds : ∀ d ∈ ds, digit d.digitChar = some d) (hrest : Stops digit rest) :
    spanDigits digit (ds.map Nat.digitChar ++ rest) = (ds, rest) := by
  induction ds with
  | nil => exact spanDigits_stops hrest
  | cons d ds ih =>
    rw [List.map_cons, List.cons_append, spanDigits, hds d (by simp), ih fun e he => hds e (by simp [he])]

theorem digitValue?_digitChar {d : Nat} (h : d < 10) : digitValue? d.digitChar = some d := by
  interval_cases d <;> rfl

theorem hexValue?_digitChar {d : Nat} (h : d < 16) : hexValue? d.digitChar = some d := by
  interval_cases d <;> rfl

theorem digits_toDigits (digit : Char → Option Nat) (b most : Nat) {n : Nat} {rest : List Char}
    (hb : 1 < b) (hdigit : ∀ d < b, digit d.digitChar = some d) (hmost : 0 < most) (hn : n < b ^ most)
    (hrest : Stops digit rest) :
    ∃ ds, digits digit most (Nat.toDigits b n ++ rest) = some (ds, rest) ∧ valueOf b ds = n ∧
      ¬ (ds.head? = some 0 ∧ 1 < ds.length) := by
  obtain ⟨ds, hds, hlt, hval, hhead⟩ := exists_digits b hb n
  have hlen : ds.length = (Nat.toDigits b n).length := by simp [hds]
  have hle : ds.length ≤ most := by
    rw [hlen]
    exact (Nat.length_toDigits_le_iff hb hmost).mpr hn
  have hpos : 0 < ds.length := by
    rw [hlen]
    exact Nat.length_toDigits_pos
  refine ⟨ds, ?_, hval, ?_⟩
  · have hne : ds ≠ [] := List.ne_nil_of_length_pos hpos
    rw [digits, hds, spanDigits_map (fun d hd => hdigit d (hlt d hd)) hrest]
    simp [hne, Nat.not_lt.mpr hle]
  · rintro ⟨h0, h1⟩
    by_cases hz : n = 0
    · subst hz
      simp [hlen] at h1
    · exact hhead hz h0

end Text

namespace Ip

open Text

/-! ## Bytes and groups -/

theorem octet_toDigits (a : UInt8) {rest : List Char} (h : Stops digitValue? rest) :
    octet (Nat.toDigits 10 a.toNat ++ rest) = some (a, rest) := by
  have ha := a.toNat_lt
  obtain ⟨ds, hds, hval, hlead⟩ := digits_toDigits digitValue? 10 3
    (by omega) (fun d hd => digitValue?_digitChar hd) (by omega) (by omega : a.toNat < 10 ^ 3) h
  simp only [octet, hds, Option.bind_eq_bind, Option.bind_some, if_neg hlead, hval]
  rw [if_neg (by omega)]
  simp

theorem group_groupChars (g : UInt16) {rest : List Char} (h : Stops hexValue? rest) :
    group (Ipv6.groupChars g ++ rest) = some (g, rest) := by
  have hg := g.toNat_lt
  obtain ⟨ds, hds, hval, -⟩ := digits_toDigits hexValue? 16 4
    (by omega) (fun d hd => hexValue?_digitChar hd) (by omega) (by omega : g.toNat < 16 ^ 4) h
  simp [group, Ipv6.groupChars, hds, hval]

theorem char_cons (c : Char) (cs : List Char) : char c (c :: cs) = some ((), cs) := by
  simp [char]

theorem ipv4_chars_append (q : Ipv4) {rest : List Char} (h : Stops digitValue? rest) :
    ipv4 (q.chars ++ rest) = some (q, rest) := by
  have hdot (cs : List Char) : Stops digitValue? ('.' :: cs) := stops_cons rfl cs
  simp only [Ipv4.chars, List.append_assoc, List.cons_append]
  simp only [ipv4, octet_toDigits _ (hdot _), octet_toDigits _ h, char_cons, Option.bind_eq_bind,
    Option.bind_some]

theorem ipv4_chars (q : Ipv4) : ipv4 q.chars = some (q, []) := by
  have h := ipv4_chars_append q (stops_nil digitValue?)
  rwa [List.append_nil] at h

/-! ## Groups -/

/-- Where the groups of an address end: at the end of the text or at the double colon. -/
def Ends (cs : List Char) : Prop := cs = [] ∨ ∃ rest, cs = ':' :: ':' :: rest

theorem octet_rest {cs rest : List Char} {a : UInt8} (h : octet cs = some (a, rest)) :
    rest = (spanDigits digitValue? cs).2 := by
  simp only [octet, digits, Option.bind_eq_bind] at h
  split at h
  · simp at h
  · simp only [Option.bind_some] at h
    split_ifs at h
    exact (Prod.mk.inj (Option.some.inj h)).2.symm

theorem ipv4_eq_none {cs : List Char} (h : (spanDigits digitValue? cs).2.head? ≠ some '.') :
    ipv4 cs = none := by
  simp only [ipv4, Option.bind_eq_bind]
  cases hcs : octet cs with
  | none => rfl
  | some p =>
    obtain ⟨a, rest⟩ := p
    rw [← octet_rest hcs] at h
    cases rest with
    | nil => rfl
    | cons c rest => simp [char, show c ≠ '.' by simpa using h]

theorem spanDigits_head_ne_dot {ds : List Nat} {rest : List Char} (hrest : Stops digitValue? rest)
    (hdot : rest.head? ≠ some '.') :
    (spanDigits digitValue? (ds.map Nat.digitChar ++ rest)).2.head? ≠ some '.' := by
  induction ds with
  | nil =>
    rw [List.map_nil, List.nil_append, spanDigits_stops hrest]
    exact hdot
  | cons d ds ih =>
    rw [List.map_cons, List.cons_append, spanDigits]
    split
    · exact ih
    · simp

/-- Groups, each with a colon in front. -/
def followed (gs : List UInt16) : List Char := gs.flatMap fun g => ':' :: Ipv6.groupChars g

theorem joined_cons (g : UInt16) (gs : List UInt16) :
    Ipv6.joined (g :: gs) = Ipv6.groupChars g ++ followed gs := by
  induction gs generalizing g with
  | nil => simp [Ipv6.joined, followed, List.intercalate]
  | cons h gs ih =>
    have hj : Ipv6.joined (g :: h :: gs) = Ipv6.groupChars g ++ ':' :: Ipv6.joined (h :: gs) := by
      simp [Ipv6.joined, List.intercalate]
    rw [hj, ih]
    simp [followed]

theorem followed_head {gs : List UInt16} {rest : List Char} (h : Ends rest) :
    followed gs ++ rest = [] ∨ ∃ cs, followed gs ++ rest = ':' :: cs := by
  cases gs with
  | nil =>
    rcases h with rfl | ⟨cs, rfl⟩
    · exact .inl rfl
    · exact .inr ⟨_, rfl⟩
  | cons g gs => exact .inr ⟨_, rfl⟩

theorem ipv4_groupChars (g : UInt16) {rest : List Char} (h : rest = [] ∨ ∃ cs, rest = ':' :: cs) :
    ipv4 (Ipv6.groupChars g ++ rest) = none := by
  obtain ⟨ds, hds, -⟩ := exists_digits 16 (by omega) g.toNat
  apply ipv4_eq_none
  rw [Ipv6.groupChars, hds]
  rcases h with rfl | ⟨cs, rfl⟩
  · exact spanDigits_head_ne_dot (stops_nil _) (by simp)
  · exact spanDigits_head_ne_dot (stops_cons rfl _) (by simp)

theorem group_groupChars_of_colon (g : UInt16) {rest : List Char}
    (h : rest = [] ∨ ∃ cs, rest = ':' :: cs) : group (Ipv6.groupChars g ++ rest) = some (g, rest) := by
  rcases h with rfl | ⟨cs, rfl⟩
  · exact group_groupChars g (stops_nil _)
  · exact group_groupChars g (stops_cons rfl _)

theorem ipv4_nil : ipv4 [] = none := rfl

theorem group_nil : group [] = none := rfl

theorem ipv4_colon (cs : List Char) : ipv4 (':' :: cs) = none := rfl

theorem group_colon (cs : List Char) : group (':' :: cs) = none := rfl

theorem groups_ends (first : Bool) (room : Nat) {rest : List Char} (h : Ends rest) :
    groups first room rest = ([], false, rest) := by
  cases room with
  | zero => rfl
  | succ room =>
    rw [groups]
    rcases h with rfl | ⟨cs, rfl⟩
    · cases first <;> simp [separator, char, ipv4_nil, group_nil]
    · cases first <;> simp [separator, char_cons, ipv4_colon, group_colon]

theorem groups_step {first : Bool} {room : Nat} {cs : List Char} (g : UInt16) (rest : List Char)
    (hsep : separator first cs = some ((), Ipv6.groupChars g ++ rest))
    (h : rest = [] ∨ ∃ cs, rest = ':' :: cs) :
    groups first (room + 1) cs =
      (g :: (groups false room rest).1, (groups false room rest).2.1, (groups false room rest).2.2) := by
  rw [groups, hsep]
  simp only [Option.bind_some, ipv4_groupChars g h, group_groupChars_of_colon g h, ite_self]

theorem groups_followed {gs : List UInt16} {room : Nat} {rest : List Char} (h : Ends rest)
    (hroom : gs.length ≤ room) : groups false room (followed gs ++ rest) = (gs, false, rest) := by
  induction gs generalizing room with
  | nil => exact groups_ends false room h
  | cons g gs ih =>
    obtain ⟨room, rfl⟩ : ∃ r, room = r + 1 := ⟨room - 1, by simp at hroom; omega⟩
    rw [groups_step g (followed gs ++ rest) (by simp [separator, followed, char])
      (followed_head h), ih (by simpa using hroom)]

theorem groups_joined (gs : List UInt16) {room : Nat} {rest : List Char} (h : Ends rest)
    (hroom : gs.length ≤ room) : groups true room (Ipv6.joined gs ++ rest) = (gs, false, rest) := by
  cases gs with
  | nil => exact groups_ends true room h
  | cons g gs =>
    obtain ⟨room, rfl⟩ : ∃ r, room = r + 1 := ⟨room - 1, by simp at hroom; omega⟩
    rw [joined_cons, List.append_assoc,
      groups_step g (followed gs ++ rest) rfl (followed_head h),
      groups_followed h (by simpa using hroom)]

/-! ## The double colon -/

theorem take_zeroRun (gs : List UInt16) :
    gs = List.replicate (Ipv6.zeroRun gs) 0 ++ gs.drop (Ipv6.zeroRun gs) := by
  induction gs with
  | nil => rfl
  | cons g gs ih =>
    by_cases hg : g = 0
    · subst hg
      simpa [Ipv6.zeroRun, List.replicate_succ] using ih
    · simp [Ipv6.zeroRun, hg]

theorem longestRun_split (i : Nat) (gs : List UInt16) :
    ∃ front back, gs = front ++ List.replicate (Ipv6.longestRun i gs).2 0 ++ back ∧
      (Ipv6.longestRun i gs).1 = i + front.length := by
  induction gs generalizing i with
  | nil => exact ⟨[], [], rfl, rfl⟩
  | cons g gs ih =>
    rw [Ipv6.longestRun]
    split
    · exact ⟨[], _, by simpa using take_zeroRun (g :: gs), rfl⟩
    · obtain ⟨front, back, hgs, hi⟩ := ih (i + 1)
      refine ⟨g :: front, back, by simpa using hgs, ?_⟩
      simp [hi]
      omega

theorem ipv6_joined (ip : Ipv6) : ipv6 (Ipv6.joined ip.groups) = some (ip, []) := by
  have h := groups_joined ip.groups (.inl rfl) (le_refl 8)
  rw [List.append_nil] at h
  simp [ipv6, h, Ipv6.ofGroups?_groups, show ip.groups.length = 8 from rfl]

theorem ipv6_compressed {ip : Ipv6} {front back : List UInt16} {zeros : Nat} (hz : 1 < zeros)
    (h : ip.groups = front ++ List.replicate zeros 0 ++ back) :
    ipv6 (Ipv6.joined front ++ ':' :: ':' :: Ipv6.joined back) = some (ip, []) := by
  have hlen : front.length + zeros + back.length = 8 := by
    have := congrArg List.length h
    simp only [List.length_append, List.length_replicate] at this
    exact this.symm
  have hfront := groups_joined front (.inr ⟨Ipv6.joined back, rfl⟩) (by omega : front.length ≤ 8)
  have hback := groups_joined back (.inl rfl) (by omega : back.length ≤ 7 - front.length)
  rw [List.append_nil] at hback
  simp only [ipv6, hfront, hback, char_cons, Option.bind_eq_bind, Option.bind_some]
  rw [if_neg (by omega), if_neg (by simp), show 8 - front.length - back.length = zeros by omega, ← h,
    Ipv6.ofGroups?_groups]
  rfl

/-- The two groups that four bytes stand for. -/
def quadGroups (q : Ipv4) : List UInt16 :=
  [q.a.toUInt16 <<< 8 ||| q.b.toUInt16, q.c.toUInt16 <<< 8 ||| q.d.toUInt16]

theorem groups_quad (q : Ipv4) : groups false 6 (':' :: q.chars) = (quadGroups q, true, []) := by
  simp [groups, separator, char_cons, ipv4_chars, quadGroups]

theorem groups_mapped {ip : Ipv6} {q : Ipv4} (h : ip.mapped? = some q) :
    List.replicate 5 0 ++ 0xFFFF :: quadGroups q = ip.groups := by
  simp only [Ipv6.mapped?] at h
  split at h
  · rename_i hz
    obtain ⟨h0, h1, h2, h3, h4, h5⟩ := hz
    obtain rfl := Option.some.inj h
    have h6 := Bytes.toUInt16_ofUInt16 ip.g6
    have h7 := Bytes.toUInt16_ofUInt16 ip.g7
    rw [Bytes.toUInt16] at h6 h7
    rw [Ipv6.groups, quadGroups, h6, h7, h0, h1, h2, h3, h4, h5]
    rfl
  · exact absurd h (by simp)

theorem ipv6_mapped {ip : Ipv6} {q : Ipv4} (h : ip.mapped? = some q) :
    ipv6 ("::ffff:".toList ++ q.chars) = some (ip, []) := by
  have hffff : "::ffff:".toList ++ q.chars =
      ':' :: ':' :: (Ipv6.groupChars 0xFFFF ++ ':' :: q.chars) := rfl
  have hhead := groups_ends true 8 (.inr ⟨Ipv6.groupChars 0xFFFF ++ ':' :: q.chars, rfl⟩)
  have htail : groups true 7 (Ipv6.groupChars 0xFFFF ++ ':' :: q.chars) =
      (0xFFFF :: quadGroups q, true, []) := by
    rw [groups_step 0xFFFF (':' :: q.chars) rfl (.inr ⟨_, rfl⟩), groups_quad]
  simp only [hffff, ipv6, hhead, List.length_nil, Nat.sub_zero, htail, char_cons, Option.bind_eq_bind,
    Option.bind_some]
  rw [if_neg (by omega), if_neg (by simp), List.nil_append,
    show 8 - (0xFFFF :: quadGroups q).length = 5 from rfl, groups_mapped h, Ipv6.ofGroups?_groups]
  rfl

/-! ## Whole addresses -/

theorem chars_cases (ip : Ipv6) :
    (∃ q, ip.mapped? = some q ∧ ip.chars = "::ffff:".toList ++ q.chars) ∨
    (∃ front back zeros, 1 < zeros ∧ ip.groups = front ++ List.replicate zeros 0 ++ back ∧
      ip.chars = Ipv6.joined front ++ ':' :: ':' :: Ipv6.joined back) ∨
    ip.chars = Ipv6.joined ip.groups := by
  rw [Ipv6.chars]
  cases hm : ip.mapped? with
  | some q => exact .inl ⟨q, rfl, rfl⟩
  | none =>
    obtain ⟨front, back, hgs, hstart⟩ := longestRun_split 0 ip.groups
    rw [Nat.zero_add] at hstart
    simp only
    split
    · rename_i hz
      refine .inr (.inl ⟨front, back, _, hz, hgs, ?_⟩)
      have htake : ip.groups.take (Ipv6.longestRun 0 ip.groups).1 = front := by
        rw [hstart]
        conv_lhs => rw [hgs]
        rw [List.append_assoc, List.take_left]
      have hdrop : ip.groups.drop ((Ipv6.longestRun 0 ip.groups).1 + (Ipv6.longestRun 0 ip.groups).2) =
          back := by
        conv_lhs => arg 2; rw [hgs]
        apply List.drop_left'
        simp [hstart]
      rw [htake, hdrop]
    · exact .inr (.inr rfl)

theorem ipv6_chars (ip : Ipv6) : ipv6 ip.chars = some (ip, []) := by
  rcases chars_cases ip with ⟨q, hq, h⟩ | ⟨front, back, zeros, hz, hgs, h⟩ | h
  · rw [h]
    exact ipv6_mapped hq
  · rw [h]
    exact ipv6_compressed hz hgs
  · rw [h]
    exact ipv6_joined ip

theorem ipv4_joined {g : UInt16} {gs : List UInt16} {rest : List Char} (h : Ends rest) :
    ipv4 (Ipv6.joined (g :: gs) ++ rest) = none := by
  rw [joined_cons, List.append_assoc]
  exact ipv4_groupChars g (followed_head h)

theorem ipv4_ipv6_chars (ip : Ipv6) : ipv4 ip.chars = none := by
  rcases chars_cases ip with ⟨q, hq, h⟩ | ⟨front, back, zeros, hz, hgs, h⟩ | h
  · rw [h]
    exact ipv4_colon _
  · rw [h]
    cases front with
    | nil => exact ipv4_colon _
    | cons g gs => exact ipv4_joined (.inr ⟨_, rfl⟩)
  · rw [h, ← List.append_nil (Ipv6.joined _)]
    exact ipv4_joined (.inl rfl)

/-- The canonical text of an address is read as that address. -/
theorem ofText?_text (ip : Ip) : ofText? ip.text = some ip := by
  rw [ofText?, text, String.toList_ofList, ofChars?]
  cases ip with
  | v4 q => simp [whole, chars, ipv4_chars]
  | v6 ip => simp [whole, chars, ipv4_ipv6_chars, ipv6_chars]

end Ip
end ClusterNet
