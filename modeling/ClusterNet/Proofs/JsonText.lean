import ClusterNet.Json.Record
import ClusterNet.Proofs.IpText
import ClusterNet.Proofs.Lossy
import Mathlib.Data.List.TakeDrop

/-!
# Values survive their text

The text of a value is read back as that value. A value is whole when it holds no number written
in another way than as an integer, and no string that denotes no text.
-/

namespace ClusterNet.Json

/-! ## Bytes of characters -/

/-- The bytes of some characters. -/
def spelled (cs : List Char) : Bytes := cs.flatMap String.utf8EncodeChar

theorem spelled_append (cs ds : List Char) : spelled (cs ++ ds) = spelled cs ++ spelled ds :=
  List.flatMap_append

theorem spelled_cons (c : Char) (cs : List Char) : spelled (c :: cs) = String.utf8EncodeChar c ++ spelled cs :=
  List.flatMap_cons

theorem bytes_eq_spelled (v : Value) : v.bytes = spelled v.chars := by
  rw [Value.bytes, Utf8.ofText_eq, Value.text, String.toList_ofList, spelled]

/-- A byte that means nothing inside a string but itself. -/
def Plain (b : UInt8) : Prop := ¬ b < 0x20 ∧ b ≠ 0x22 ∧ b ≠ 0x5C

theorem plain_ofNat {n : Nat} (h : n < 256) (hlow : 0x20 ≤ n) (hquote : n ≠ 0x22) (hslash : n ≠ 0x5C) :
    Plain (UInt8.ofNat n) := by
  refine ⟨?_, ?_, ?_⟩
  · rw [Utf8.ofNat_lt h]
    exact Nat.not_lt.mpr hlow
  · rw [ne_eq, Utf8.ofNat_eq h]
    exact hquote
  · rw [ne_eq, Utf8.ofNat_eq h]
    exact hslash

theorem plain_utf8EncodeChar {c : Char} (hlow : 0x20 ≤ c.toNat) (hquote : c ≠ '"') (hslash : c ≠ '\\') :
    ∀ b ∈ String.utf8EncodeChar c, Plain b := by
  have hquote' : c.toNat ≠ 0x22 := by
    intro h
    exact hquote (Char.ext (UInt32.toNat_inj.mp h))
  have hslash' : c.toNat ≠ 0x5C := by
    intro h
    exact hslash (Char.ext (UInt32.toNat_inj.mp h))
  have hc : c.val.toNat = c.toNat := rfl
  have hchar := Utf8.char_valid c
  intro b hb
  unfold String.utf8EncodeChar at hb
  simp only [hc] at hb hchar
  generalize c.toNat = n at *
  split at hb
  · rw [List.mem_singleton.mp hb]
    exact plain_ofNat (by omega) hlow hquote' hslash'
  split at hb
  · simp only [List.mem_cons, List.not_mem_nil, or_false] at hb
    rcases hb with rfl | rfl
    all_goals exact plain_ofNat (by omega) (by omega) (by omega) (by omega)
  split at hb
  · simp only [List.mem_cons, List.not_mem_nil, or_false] at hb
    rcases hb with rfl | rfl | rfl
    all_goals exact plain_ofNat (by omega) (by omega) (by omega) (by omega)
  · simp only [List.mem_cons, List.not_mem_nil, or_false] at hb
    rcases hb with rfl | rfl | rfl | rfl
    all_goals exact plain_ofNat (by omega) (by omega) (by omega) (by omega)

/-! ## Strings -/

theorem pieces_byte {b : UInt8} (h : Plain b) (done : List Piece) (rest : Bytes) :
    pieces done (b :: rest) = pieces (.byte b :: done) rest := by
  obtain ⟨hlow, hquote, hslash⟩ := h
  rw [pieces.eq_def]
  split
  · rename_i heq
    cases heq
  · rename_i heq
    cases heq
    exact absurd rfl hquote
  · rename_i heq
    cases heq
    exact absurd rfl hslash
  · rename_i heq
    cases heq
    exact absurd rfl hslash
  · rename_i heq
    cases heq
    rw [if_neg]
    simp [hlow, hslash]

theorem pieces_escape {b e : UInt8} (hu : b ≠ 0x75) (he : shortEscape? b = some e)
    (done : List Piece) (rest : Bytes) :
    pieces done (0x5C :: b :: rest) = pieces (.byte e :: done) rest := by
  rw [pieces.eq_def]
  split
  · rename_i heq
    cases heq
  · rename_i heq
    cases heq
  · rename_i heq
    cases heq
    exact absurd rfl hu
  · rename_i heq
    cases heq
    rw [he]
  · rename_i hshort heq
    cases heq
    exact absurd rfl (hshort b rest rfl)

theorem pieces_unit {a b c d : UInt8} {u : Nat} (h : unit? a b c d = some u) (done : List Piece)
    (rest : Bytes) :
    pieces done (0x5C :: 0x75 :: a :: b :: c :: d :: rest) = pieces (.unit u :: done) rest := by
  rw [pieces, h]

theorem pieces_bytes {bs : Bytes} (hbs : ∀ b ∈ bs, Plain b) (done : List Piece) (rest : Bytes) :
    pieces done (bs ++ rest) = pieces ((bs.map Piece.byte).reverse ++ done) rest := by
  induction bs generalizing done with
  | nil => rfl
  | cons b bs ih =>
    have htail : ∀ x ∈ bs, Plain x := fun x hx => hbs x (List.mem_cons_of_mem b hx)
    rw [List.cons_append, pieces_byte (hbs b List.mem_cons_self), ih htail]
    simp

theorem denoted_bytes (bs done : Bytes) (more : List Piece) :
    denoted done (bs.map Piece.byte ++ more) = denoted (bs.reverse ++ done) more := by
  induction bs generalizing done with
  | nil => rfl
  | cons b bs ih =>
    rw [List.map_cons, List.cons_append, denoted, ih]
    simp

theorem denoted_unit {u : Nat} (hhigh : isHigh u = false) (hlow : isLow u = false) (done : Bytes)
    (more : List Piece) :
    denoted done (.unit u :: more) =
      denoted ((String.utf8EncodeChar (Char.ofNat u)).reverse ++ done) more := by
  cases more with
  | nil => simp [denoted, hhigh, hlow]
  | cons p more =>
    cases p with
    | byte b => simp [denoted, hhigh, hlow]
    | unit v => simp [denoted, hhigh, hlow]

/-- Some characters are read as pieces that denote another one. -/
def Denotes (cs : List Char) (c : Char) : Prop :=
  ∃ ps, (∀ done rest, pieces done (spelled cs ++ rest) = pieces (ps.reverse ++ done) rest) ∧
    ∀ done more, denoted done (ps ++ more) = denoted ((String.utf8EncodeChar c).reverse ++ done) more

theorem denotes_self {c : Char} (h : ∀ b ∈ String.utf8EncodeChar c, Plain b) : Denotes [c] c := by
  refine ⟨(String.utf8EncodeChar c).map .byte, ?_, ?_⟩
  · intro done rest
    rw [spelled, List.flatMap_singleton]
    exact pieces_bytes h done rest
  · intro done more
    exact denoted_bytes _ done more

theorem denotes_short {c d : Char} {b e : UInt8} (hd : String.utf8EncodeChar d = [b]) (hb : b ≠ 0x75)
    (he : shortEscape? b = some e) (hc : String.utf8EncodeChar c = [e]) : Denotes ['\\', d] c := by
  refine ⟨[.byte e], ?_, ?_⟩
  · intro done rest
    rw [spelled_cons, spelled, List.flatMap_singleton, hd]
    exact pieces_escape hb he done rest
  · intro done more
    rw [hc]
    exact denoted_bytes [e] done more

theorem map_hexValue?_hexDigit :
    ∀ n < 16, (String.utf8EncodeChar (hexDigit n)).map hexValue? = [some n] := by
  decide

theorem exists_hexDigit {n : Nat} (h : n < 16) :
    ∃ b, String.utf8EncodeChar (hexDigit n) = [b] ∧ hexValue? b = some n :=
  List.map_eq_singleton_iff.mp (map_hexValue?_hexDigit n h)

theorem denotes_unit {c : Char} (hc : c.toNat < 0x20) :
    Denotes ['\\', 'u', '0', '0', hexDigit (c.toNat / 16), hexDigit (c.toNat % 16)] c := by
  have hhigh : c.toNat / 16 < 16 := by omega
  have hlow : c.toNat % 16 < 16 := by omega
  obtain ⟨a, ha, hva⟩ := exists_hexDigit hhigh
  obtain ⟨b, hb, hvb⟩ := exists_hexDigit hlow
  have hunit : unit? 0x30 0x30 a b = some c.toNat := by
    have hzero : hexValue? 0x30 = some 0 := by decide
    simp only [unit?, hzero, hva, hvb, Option.bind_eq_bind, Option.bind_some]
    congr 1
    omega
  refine ⟨[.unit c.toNat], ?_, ?_⟩
  · intro done rest
    rw [spelled_cons, spelled_cons, spelled_cons, spelled_cons, spelled_cons, spelled_cons, ha, hb]
    exact pieces_unit hunit done rest
  · intro done more
    have hhigh : isHigh c.toNat = false := by
      simp only [isHigh, Bool.and_eq_false_iff, decide_eq_false_iff_not]
      omega
    have hlow : isLow c.toNat = false := by
      simp only [isLow, Bool.and_eq_false_iff, decide_eq_false_iff_not]
      omega
    rw [List.singleton_append, denoted_unit hhigh hlow, Char.ofNat_toNat]

theorem denotes_escapedChar (c : Char) : Denotes (escapedChar c) c := by
  unfold escapedChar
  split
  · subst_vars
    exact denotes_short rfl (by decide) rfl rfl
  split
  · subst_vars
    exact denotes_short rfl (by decide) rfl rfl
  split
  · subst_vars
    exact denotes_short rfl (by decide) rfl rfl
  split
  · subst_vars
    exact denotes_short rfl (by decide) rfl rfl
  split
  · subst_vars
    exact denotes_short rfl (by decide) rfl rfl
  split
  · subst_vars
    exact denotes_short rfl (by decide) rfl rfl
  split
  · subst_vars
    exact denotes_short rfl (by decide) rfl rfl
  split
  · rename_i hc
    exact denotes_unit hc
  · rename_i hquote hslash _ _ _ _ _ hlow
    exact denotes_self (plain_utf8EncodeChar (Nat.not_lt.mp hlow) hquote hslash)

theorem denotes_chars (cs : List Char) : ∃ ps,
    (∀ done rest, pieces done (spelled (cs.flatMap escapedChar) ++ rest) = pieces (ps.reverse ++ done) rest) ∧
    ∀ done more, denoted done (ps ++ more) = denoted ((spelled cs).reverse ++ done) more := by
  induction cs with
  | nil => exact ⟨[], fun _ _ => rfl, fun _ _ => rfl⟩
  | cons c cs ih =>
    obtain ⟨ps, hps, hdenoted⟩ := denotes_escapedChar c
    obtain ⟨qs, hqs, hmore⟩ := ih
    refine ⟨ps ++ qs, ?_, ?_⟩
    · intro done rest
      rw [List.flatMap_cons, spelled_append, List.append_assoc, hps, hqs, List.reverse_append,
        List.append_assoc]
    · intro done more
      rw [List.append_assoc, hdenoted, hmore, spelled_cons, List.reverse_append, List.append_assoc]

theorem token_quote (rest : Bytes) :
    token (0x22 :: rest) = (pieces [] rest).map fun (ps, rest) => (.string (textOf ps), rest) := rfl

theorem token_stringChars (s : String) (rest : Bytes) :
    token (spelled (stringChars s) ++ rest) = some (.string (some s), rest) := by
  obtain ⟨ps, hps, hdenoted⟩ := denotes_chars s.toList
  -- The quote that closes the text is the first one that is not escaped.
  have hpieces : pieces [] (spelled (s.toList.flatMap escapedChar) ++ (0x22 :: rest)) = some (ps, rest) := by
    rw [hps, pieces, List.append_nil, List.reverse_reverse]
  have htext : textOf ps = some s := by
    have hall := hdenoted [] []
    rw [List.append_nil, List.append_nil, denoted, List.reverse_reverse] at hall
    rw [textOf, hall, Option.bind_some, spelled, ← Utf8.ofText_eq, Bytes.text?_ofText]
  have hspelled : spelled (stringChars s) ++ rest =
      0x22 :: (spelled (s.toList.flatMap escapedChar) ++ (0x22 :: rest)) := by
    rw [stringChars, spelled_cons, spelled_append, List.append_assoc, List.append_assoc]
    rfl
  rw [hspelled, token_quote, hpieces]
  simp only [Option.map_some, htext]

/-! ## Numbers -/

/-- What comes after a value: nothing, or a byte that goes on with the array or object around it. -/
def Ends (rest : Bytes) : Prop :=
  rest = [] ∨ ∃ b more, rest = b :: more ∧ (b = 0x2C ∨ b = 0x5D ∨ b = 0x7D)

theorem spanDigits_append {ds rest : Bytes} (hds : ∀ b ∈ ds, isDigit b = true) (hrest : Ends rest) :
    spanDigits (ds ++ rest) = (ds, rest) := by
  have hstop : rest.span isDigit = ([], rest) := by
    rcases hrest with rfl | ⟨b, more, rfl, rfl | rfl | rfl⟩
    all_goals rfl
  unfold spanDigits
  rw [List.span_eq_takeWhile_dropWhile] at hstop ⊢
  obtain ⟨htake, hdrop⟩ := Prod.mk.inj hstop
  rw [List.takeWhile_append_of_pos hds, List.dropWhile_append_of_pos hds, htake, hdrop, List.append_nil]

theorem fraction_of_ends {rest : Bytes} (h : Ends rest) : fraction rest = some ([], rest) := by
  rcases h with rfl | ⟨b, more, rfl, rfl | rfl | rfl⟩
  all_goals rfl

theorem exponent_of_ends {rest : Bytes} (h : Ends rest) : exponent rest = some ([], rest) := by
  rcases h with rfl | ⟨b, more, rfl, rfl | rfl | rfl⟩
  all_goals rfl

/-- The bytes of digits. -/
def digitBytes (ds : List Nat) : Bytes := ds.map fun d => UInt8.ofNat (d + 0x30)

theorem spelled_digits {ds : List Nat} (hds : ∀ d ∈ ds, d < 10) :
    spelled (ds.map Nat.digitChar) = digitBytes ds := by
  have hone : ∀ d < 10, String.utf8EncodeChar (Nat.digitChar d) = [UInt8.ofNat (d + 0x30)] := by
    decide
  induction ds with
  | nil => rfl
  | cons d ds ih =>
    rw [List.map_cons, spelled_cons, hone d (hds d List.mem_cons_self),
      ih fun x hx => hds x (List.mem_cons_of_mem d hx)]
    rfl

theorem isDigit_digitBytes {ds : List Nat} (hds : ∀ d ∈ ds, d < 10) :
    ∀ b ∈ digitBytes ds, isDigit b = true := by
  have hone : ∀ d < 10, isDigit (UInt8.ofNat (d + 0x30)) = true := by
    decide
  intro b hb
  obtain ⟨d, hd, rfl⟩ := List.mem_map.mp hb
  exact hone d (hds d hd)

theorem asChars_digitBytes {ds : List Nat} (hds : ∀ d ∈ ds, d < 10) :
    asChars (digitBytes ds) = ds.map Nat.digitChar := by
  have hone : ∀ d < 10, Char.ofNat (UInt8.ofNat (d + 0x30)).toNat = Nat.digitChar d := by
    decide
  rw [asChars, digitBytes, List.map_map]
  apply List.map_congr_left
  intro d hd
  exact hone d (hds d hd)

theorem wholePart_digit {b : UInt8} {ds rest : Bytes} (hb : isDigit b = true) (hzero : b ≠ 0x30)
    (hds : ∀ d ∈ ds, isDigit d = true) (hrest : Ends rest) :
    wholePart (b :: (ds ++ rest)) = some (b :: ds, rest) := by
  rw [wholePart.eq_def]
  split
  · rename_i heq
    exact absurd (List.cons.inj heq).1 hzero
  · rename_i heq
    obtain ⟨rfl, rfl⟩ := List.cons.inj heq
    rw [if_pos hb, spanDigits_append hds hrest]
  · rename_i heq
    cases heq

theorem wholePart_toDigits (n : Nat) {rest : Bytes} (hrest : Ends rest) :
    ∃ b ds, spelled (Nat.toDigits 10 n) = b :: ds ∧ isDigit b = true ∧
      wholePart (b :: (ds ++ rest)) = some (b :: ds, rest) ∧ asChars (b :: ds) = Nat.toDigits 10 n := by
  obtain ⟨ds, hds, hlt, hval, hhead⟩ := Text.exists_digits 10 (by omega) n
  have hdigits := isDigit_digitBytes hlt
  have hchars := asChars_digitBytes hlt
  rw [← hds] at hchars
  rw [hds, spelled_digits hlt]
  rw [hds] at hchars
  cases ds with
  | nil =>
    have hpos := Nat.length_toDigits_pos (b := 10) (n := n)
    rw [hds] at hpos
    exact absurd hpos (Nat.lt_irrefl 0)
  | cons d ds =>
    refine ⟨_, digitBytes ds, rfl, hdigits _ List.mem_cons_self, ?_, hchars⟩
    have hmore : ∀ b ∈ digitBytes ds, isDigit b = true := fun b hb => hdigits b (List.mem_cons_of_mem _ hb)
    by_cases hd : d = 0
    · -- a zero stands alone
      have hn : n = 0 := by
        by_contra hn
        exact hhead hn (by rw [hd]; rfl)
      subst hn hd
      have hlen := congrArg List.length hds
      rw [List.length_map, List.length_cons] at hlen
      have hnil : ds = [] := List.eq_nil_of_length_eq_zero (Nat.succ_injective hlen.symm)
      subst hnil
      rfl
    · apply wholePart_digit (hdigits _ List.mem_cons_self) ?_ hmore hrest
      have hd10 := hlt d List.mem_cons_self
      rw [ne_eq, Utf8.ofNat_eq (by omega)]
      intro heq
      simp only [UInt8.reduceToNat] at heq
      omega

theorem token_number {b : UInt8} (h : isDigit b = true ∨ b = 0x2D) (rest : Bytes) :
    token (b :: rest) = number (b :: rest) := by
  rw [token.eq_def]
  split
  case h_11 => rfl
  all_goals
    rename_i heq
    obtain ⟨rfl, -⟩ := List.cons.inj heq
    exact absurd h (by decide)

theorem number_natural {b : UInt8} {ds rest : Bytes} {n : Nat} (hb : isDigit b = true)
    (hwhole : wholePart (b :: (ds ++ rest)) = some (b :: ds, rest))
    (hchars : asChars (b :: ds) = Nat.toDigits 10 n) (hrest : Ends rest) :
    number (b :: (ds ++ rest)) = some (.int n, rest) := by
  have hval : Nat.ofDigitChars 10 (asChars (b :: ds)) 0 = n := by
    rw [hchars, Nat.ofDigitChars_ten_toDigits]
  unfold number
  split
  · rename_i heq
    split at heq
    · rename_i hminus
      obtain ⟨rfl, -⟩ := List.cons.inj hminus
      exact absurd hb (by decide)
    · obtain ⟨rfl, rfl⟩ := Prod.mk.inj heq
      simp [hwhole, fraction_of_ends hrest, exponent_of_ends hrest, hval]

theorem number_negative {b : UInt8} {ds rest : Bytes} {n : Nat}
    (hwhole : wholePart (b :: (ds ++ rest)) = some (b :: ds, rest))
    (hchars : asChars (b :: ds) = Nat.toDigits 10 n) (hn : n ≠ 0) (hrest : Ends rest) :
    number (0x2D :: b :: (ds ++ rest)) = some (.int (-n), rest) := by
  have hval : Nat.ofDigitChars 10 (asChars (b :: ds)) 0 = n := by
    rw [hchars, Nat.ofDigitChars_ten_toDigits]
  simp [number, hwhole, fraction_of_ends hrest, exponent_of_ends hrest, hval, hn]

theorem token_intChars (n : Int) {rest : Bytes} (hrest : Ends rest) :
    token (spelled (intChars n) ++ rest) = some (.int n, rest) := by
  cases n with
  | ofNat n =>
    obtain ⟨b, ds, hspelled, hb, hwhole, hchars⟩ := wholePart_toDigits n hrest
    rw [intChars, hspelled, List.cons_append, token_number (.inl hb)]
    exact number_natural hb hwhole hchars hrest
  | negSucc n =>
    obtain ⟨b, ds, hspelled, -, hwhole, hchars⟩ := wholePart_toDigits (n + 1) hrest
    have hminus : String.utf8EncodeChar '-' = [0x2D] := rfl
    rw [intChars, spelled_cons, hminus, hspelled, List.singleton_append, List.cons_append,
      List.cons_append, token_number (.inr rfl)]
    exact number_negative hwhole hchars (Nat.succ_ne_zero n) hrest

/-! ## Documents -/

/-- From the front of a document some tokens are taken, and the rest remains. -/
def Reads (b : Bytes) (ts : List Token) (rest : Bytes) : Prop :=
  ∀ done rounds, b.length ≤ rounds →
    ∃ left, rest.length ≤ left ∧ scan done rounds b = scan (ts.reverse ++ done) left rest

theorem Reads.append {b c d : Bytes} {ts us : List Token} (h : Reads b ts c) (h' : Reads c us d) :
    Reads b (ts ++ us) d := by
  intro done rounds hrounds
  obtain ⟨left, hleft, hscan⟩ := h done rounds hrounds
  obtain ⟨left', hleft', hscan'⟩ := h' (ts.reverse ++ done) left hleft
  refine ⟨left', hleft', ?_⟩
  rw [hscan, hscan', List.reverse_append, List.append_assoc]

theorem reads_token {b : UInt8} {bs rest : Bytes} {t : Token} (hb : isBlank b = false)
    (ht : token (b :: (bs ++ rest)) = some (t, rest)) : Reads (b :: (bs ++ rest)) [t] rest := by
  intro done rounds hrounds
  cases rounds with
  | zero => simp at hrounds
  | succ rounds =>
    refine ⟨rounds, ?_, ?_⟩
    · simp only [List.length_cons, List.length_append] at hrounds
      omega
    · rw [scan, hb, ht]
      rfl

theorem reads_sign {b : UInt8} {rest : Bytes} {t : Token} (hb : isBlank b = false)
    (ht : token (b :: rest) = some (t, rest)) : Reads (b :: rest) [t] rest :=
  @reads_token b [] rest t hb ht

theorem isBlank_of_isDigit {b : UInt8} (h : isDigit b = true) : isBlank b = false := by
  rw [Bool.eq_false_iff]
  intro hblank
  simp only [isBlank, Bool.or_eq_true, decide_eq_true_iff] at hblank
  rcases hblank with ((rfl | rfl) | rfl) | rfl
  all_goals exact absurd h (by decide)

theorem reads_intChars (n : Int) {rest : Bytes} (hrest : Ends rest) :
    Reads (spelled (intChars n) ++ rest) [.int n] rest := by
  have htoken := token_intChars n hrest
  cases n with
  | ofNat n =>
    obtain ⟨b, ds, hspelled, hb, -, -⟩ := wholePart_toDigits n hrest
    rw [intChars, hspelled] at htoken ⊢
    exact reads_token (isBlank_of_isDigit hb) htoken
  | negSucc n =>
    rw [intChars, spelled_cons] at htoken ⊢
    exact reads_token (by decide) htoken

theorem reads_stringChars (s : String) (rest : Bytes) :
    Reads (spelled (stringChars s) ++ rest) [.string (some s)] rest := by
  have htoken := token_stringChars s rest
  rw [stringChars, spelled_cons] at htoken ⊢
  exact reads_token (by decide) htoken

/-! ## Values -/

namespace Value

theorem chars_int (n : Int) : chars (.int n) = intChars n := rfl

theorem chars_string (s : String) : chars (.string s) = stringChars s := rfl

theorem chars_array_nil : chars (.array []) = ['[', ']'] := rfl

theorem chars_array_cons (v : Value) (vs : List Value) :
    chars (.array (v :: vs)) = '[' :: v.chars ++ moreItems vs := rfl

theorem chars_object_nil : chars (.object []) = ['{', '}'] := rfl

theorem chars_object_cons (k : Option String) (v : Value) (ms : List (Option String × Value)) :
    chars (.object ((k, v) :: ms)) = '{' :: stringChars (k.getD "") ++ ':' :: v.chars ++ moreMembers ms := rfl

theorem moreItems_nil : moreItems [] = [']'] := rfl

theorem moreItems_cons (v : Value) (vs : List Value) :
    moreItems (v :: vs) = ',' :: v.chars ++ moreItems vs := rfl

theorem moreMembers_nil : moreMembers [] = ['}'] := rfl

theorem moreMembers_cons (k : Option String) (v : Value) (ms : List (Option String × Value)) :
    moreMembers ((k, v) :: ms) = ',' :: stringChars (k.getD "") ++ ':' :: v.chars ++ moreMembers ms := rfl

end Value

/-- Tokens that the machine takes for a value, wherever one may stand. -/
structure Spelling (v : Value) (ts : List Token) : Prop where
  run : ∀ stack more, run ⟨stack, .value⟩ (ts ++ more) = run ⟨stack, .done v⟩ more
  first : ∀ stack more,
    Json.run ⟨stack, .firstItem⟩ (ts ++ more) = Json.run ⟨.array [] :: stack, .value⟩ (ts ++ more)

/-- The text of a value is read as that value, whatever goes on after it. -/
def Readable (v : Value) : Prop :=
  ∃ ts, Spelling v ts ∧ ∀ rest, Ends rest → Reads (spelled v.chars ++ rest) ts rest

theorem readable_null : Readable .null :=
  ⟨[.null], ⟨fun _ _ => rfl, fun _ _ => rfl⟩, fun _ _ => reads_token (by decide) rfl⟩

theorem readable_bool (b : Bool) : Readable (.bool b) := by
  cases b with
  | true => exact ⟨[.bool true], ⟨fun _ _ => rfl, fun _ _ => rfl⟩, fun _ _ => reads_token (by decide) rfl⟩
  | false => exact ⟨[.bool false], ⟨fun _ _ => rfl, fun _ _ => rfl⟩, fun _ _ => reads_token (by decide) rfl⟩

theorem readable_int (n : Int) : Readable (.int n) := by
  refine ⟨[.int n], ⟨fun _ _ => rfl, fun _ _ => rfl⟩, ?_⟩
  intro rest hrest
  rw [Value.chars_int]
  exact reads_intChars n hrest

theorem readable_string (s : String) : Readable (.string s) := by
  refine ⟨[.string (some s)], ⟨fun _ _ => rfl, fun _ _ => rfl⟩, ?_⟩
  intro rest _
  rw [Value.chars_string]
  exact reads_stringChars s rest

theorem ends_moreItems (vs : List Value) (rest : Bytes) :
    Ends (spelled (Value.moreItems vs) ++ rest) := by
  cases vs with
  | nil =>
    rw [Value.moreItems_nil]
    exact .inr ⟨0x5D, rest, rfl, .inr (.inl rfl)⟩
  | cons v vs =>
    rw [Value.moreItems_cons, List.cons_append, spelled_cons]
    exact .inr ⟨0x2C, _, rfl, .inl rfl⟩

theorem readable_moreItems {vs : List Value} (h : ∀ v ∈ vs, Readable v) :
    ∃ ts, (∀ rest, Reads (spelled (Value.moreItems vs) ++ rest) ts rest) ∧
      ∀ before v stack more, run ⟨.array before :: stack, .done v⟩ (ts ++ more) =
        run ⟨stack, .done (.array ((v :: before).reverse ++ vs))⟩ more := by
  induction vs with
  | nil =>
    refine ⟨[.closeBracket], ?_, ?_⟩
    · intro rest
      rw [Value.moreItems_nil]
      exact reads_token (by decide) rfl
    · intro before v stack more
      rw [List.append_nil]
      rfl
  | cons w vs ih =>
    obtain ⟨ts, hts, hreads⟩ := h w List.mem_cons_self
    obtain ⟨us, hus, hrun⟩ := ih fun v hv => h v (List.mem_cons_of_mem w hv)
    refine ⟨[.comma] ++ (ts ++ us), ?_, ?_⟩
    · intro rest
      have hcomma : Reads (0x2C :: (spelled w.chars ++ (spelled (Value.moreItems vs) ++ rest))) [.comma]
          (spelled w.chars ++ (spelled (Value.moreItems vs) ++ rest)) := reads_sign rfl rfl
      have hspelled : spelled (Value.moreItems (w :: vs)) ++ rest =
          0x2C :: (spelled w.chars ++ (spelled (Value.moreItems vs) ++ rest)) := by
        rw [Value.moreItems_cons, List.cons_append, spelled_cons, spelled_append, List.append_assoc,
          List.append_assoc]
        rfl
      rw [hspelled]
      exact hcomma.append ((hreads _ (ends_moreItems vs rest)).append (hus rest))
    · intro before v stack more
      have hcomma : run ⟨.array before :: stack, .done v⟩ ([.comma] ++ (ts ++ (us ++ more))) =
          run ⟨.array (v :: before) :: stack, .value⟩ (ts ++ (us ++ more)) := rfl
      rw [List.append_assoc, List.append_assoc, hcomma, hts.run, hrun]
      simp

theorem readable_array {vs : List Value} (h : ∀ v ∈ vs, Readable v) : Readable (.array vs) := by
  cases vs with
  | nil =>
    refine ⟨[.openBracket, .closeBracket], ⟨fun _ _ => rfl, fun _ _ => rfl⟩, ?_⟩
    intro rest _
    rw [Value.chars_array_nil]
    have hopen : Reads (0x5B :: 0x5D :: rest) [.openBracket] (0x5D :: rest) := reads_sign rfl rfl
    have hclose : Reads (0x5D :: rest) [.closeBracket] rest := reads_sign rfl rfl
    exact hopen.append hclose
  | cons v vs =>
    obtain ⟨ts, hts, hreads⟩ := h v List.mem_cons_self
    obtain ⟨us, hus, hrun⟩ := readable_moreItems fun w hw => h w (List.mem_cons_of_mem v hw)
    refine ⟨[.openBracket] ++ (ts ++ us), ⟨?_, fun _ _ => rfl⟩, ?_⟩
    · intro stack more
      have hopen : run ⟨stack, .value⟩ ([.openBracket] ++ (ts ++ (us ++ more))) =
          run ⟨stack, .firstItem⟩ (ts ++ (us ++ more)) := rfl
      rw [List.append_assoc, List.append_assoc, hopen, hts.first, hts.run, hrun]
      rfl
    · intro rest _
      have hopen : Reads (0x5B :: (spelled v.chars ++ (spelled (Value.moreItems vs) ++ rest)))
          [.openBracket] (spelled v.chars ++ (spelled (Value.moreItems vs) ++ rest)) := reads_sign rfl rfl
      have hspelled : spelled (Value.chars (.array (v :: vs))) ++ rest =
          0x5B :: (spelled v.chars ++ (spelled (Value.moreItems vs) ++ rest)) := by
        rw [Value.chars_array_cons, List.cons_append, spelled_cons, spelled_append, List.append_assoc,
          List.append_assoc]
        rfl
      rw [hspelled]
      exact hopen.append ((hreads _ (ends_moreItems vs rest)).append (hus rest))

/-- A key and its value, as they stand in an object. -/
def memberChars (k : String) (v : Value) : List Char := stringChars k ++ ':' :: v.chars

theorem readable_member {v : Value} (h : Readable v) (k : String) : ∃ ts,
    (∀ rest, Ends rest → Reads (spelled (memberChars k v) ++ rest) ts rest) ∧
    (∀ before stack more, run ⟨stack, .key before⟩ (ts ++ more) =
      run ⟨.object before (some k) :: stack, .done v⟩ more) ∧
    ∀ stack more, run ⟨stack, .firstKey⟩ (ts ++ more) = run ⟨stack, .key []⟩ (ts ++ more) := by
  obtain ⟨ts, hts, hreads⟩ := h
  refine ⟨[.string (some k)] ++ ([.colon] ++ ts), ?_, ?_, fun _ _ => rfl⟩
  · intro rest hrest
    have hcolon : Reads (0x3A :: (spelled v.chars ++ rest)) [.colon] (spelled v.chars ++ rest) :=
      reads_sign rfl rfl
    have hspelled : spelled (memberChars k v) ++ rest =
        spelled (stringChars k) ++ (0x3A :: (spelled v.chars ++ rest)) := by
      rw [memberChars, spelled_append, spelled_cons, List.append_assoc, List.append_assoc]
      rfl
    rw [hspelled]
    exact (reads_stringChars k _).append (hcolon.append (hreads rest hrest))
  · intro before stack more
    have hkey : run ⟨stack, .key before⟩ ([.string (some k)] ++ ([.colon] ++ (ts ++ more))) =
        run ⟨.object before (some k) :: stack, .value⟩ (ts ++ more) := rfl
    rw [List.append_assoc, List.append_assoc, hkey, hts.run]

/-- Members whose keys are all texts. -/
def named (ms : List (String × Value)) : List (Option String × Value) :=
  ms.map fun (k, v) => (some k, v)

theorem moreMembers_named (m : String × Value) (ms : List (String × Value)) (rest : Bytes) :
    spelled (Value.moreMembers (named (m :: ms))) ++ rest =
      0x2C :: (spelled (memberChars m.1 m.2) ++ (spelled (Value.moreMembers (named ms)) ++ rest)) := by
  have hchars : Value.moreMembers (named (m :: ms)) =
      ',' :: (memberChars m.1 m.2 ++ Value.moreMembers (named ms)) := by
    rw [named, List.map_cons, Value.moreMembers_cons, memberChars]
    simp [named]
  rw [hchars, spelled_cons, spelled_append, List.append_assoc, List.append_assoc]
  rfl

theorem ends_moreMembers (ms : List (String × Value)) (rest : Bytes) :
    Ends (spelled (Value.moreMembers (named ms)) ++ rest) := by
  cases ms with
  | nil =>
    rw [named, List.map_nil, Value.moreMembers_nil]
    exact .inr ⟨0x7D, rest, rfl, .inr (.inr rfl)⟩
  | cons m ms =>
    rw [moreMembers_named]
    exact .inr ⟨0x2C, _, rfl, .inl rfl⟩

theorem readable_moreMembers {ms : List (String × Value)} (h : ∀ m ∈ ms, Readable m.2) :
    ∃ ts, (∀ rest, Reads (spelled (Value.moreMembers (named ms)) ++ rest) ts rest) ∧
      ∀ before key v stack more, run ⟨.object before key :: stack, .done v⟩ (ts ++ more) =
        run ⟨stack, .done (.object (((key, v) :: before).reverse ++ named ms))⟩ more := by
  induction ms with
  | nil =>
    refine ⟨[.closeBrace], ?_, ?_⟩
    · intro rest
      rw [named, List.map_nil, Value.moreMembers_nil]
      exact reads_sign rfl rfl
    · intro before key v stack more
      rw [named, List.map_nil, List.append_nil]
      rfl
  | cons m ms ih =>
    obtain ⟨ts, hreads, hkey, -⟩ := readable_member (h m List.mem_cons_self) m.1
    obtain ⟨us, hus, hrun⟩ := ih fun x hx => h x (List.mem_cons_of_mem m hx)
    refine ⟨[.comma] ++ (ts ++ us), ?_, ?_⟩
    · intro rest
      rw [moreMembers_named]
      have hcomma : Reads (0x2C :: (spelled (memberChars m.1 m.2) ++
          (spelled (Value.moreMembers (named ms)) ++ rest))) [.comma]
          (spelled (memberChars m.1 m.2) ++ (spelled (Value.moreMembers (named ms)) ++ rest)) :=
        reads_sign rfl rfl
      exact hcomma.append ((hreads _ (ends_moreMembers ms rest)).append (hus rest))
    · intro before key v stack more
      have hcomma : run ⟨.object before key :: stack, .done v⟩ ([.comma] ++ (ts ++ (us ++ more))) =
          run ⟨stack, .key ((key, v) :: before)⟩ (ts ++ (us ++ more)) := rfl
      rw [List.append_assoc, List.append_assoc, hcomma, hkey, hrun]
      simp [named]

theorem readable_record {ms : List (String × Value)} (h : ∀ m ∈ ms, Readable m.2) :
    Readable (.record ms) := by
  cases ms with
  | nil =>
    refine ⟨[.openBrace, .closeBrace], ⟨fun _ _ => rfl, fun _ _ => rfl⟩, ?_⟩
    intro rest _
    rw [Value.record, List.map_nil, Value.chars_object_nil]
    have hopen : Reads (0x7B :: 0x7D :: rest) [.openBrace] (0x7D :: rest) := reads_sign rfl rfl
    have hclose : Reads (0x7D :: rest) [.closeBrace] rest := reads_sign rfl rfl
    exact hopen.append hclose
  | cons m ms =>
    obtain ⟨ts, hreads, hkey, hfirst⟩ := readable_member (h m List.mem_cons_self) m.1
    obtain ⟨us, hus, hrun⟩ := readable_moreMembers fun x hx => h x (List.mem_cons_of_mem m hx)
    refine ⟨[.openBrace] ++ (ts ++ us), ⟨?_, fun _ _ => rfl⟩, ?_⟩
    · intro stack more
      have hopen : run ⟨stack, .value⟩ ([.openBrace] ++ (ts ++ (us ++ more))) =
          run ⟨stack, .firstKey⟩ (ts ++ (us ++ more)) := rfl
      rw [List.append_assoc, List.append_assoc, hopen, hfirst, hkey, hrun]
      rfl
    · intro rest _
      have hchars : Value.chars (.record (m :: ms)) =
          '{' :: (memberChars m.1 m.2 ++ Value.moreMembers (named ms)) := by
        rw [Value.record, List.map_cons, Value.chars_object_cons, memberChars]
        simp [named]
      have hspelled : spelled (Value.chars (.record (m :: ms))) ++ rest =
          0x7B :: (spelled (memberChars m.1 m.2) ++ (spelled (Value.moreMembers (named ms)) ++ rest)) := by
        rw [hchars, spelled_cons, spelled_append, List.append_assoc, List.append_assoc]
        rfl
      have hopen : Reads (0x7B :: (spelled (memberChars m.1 m.2) ++
          (spelled (Value.moreMembers (named ms)) ++ rest))) [.openBrace]
          (spelled (memberChars m.1 m.2) ++ (spelled (Value.moreMembers (named ms)) ++ rest)) :=
        reads_sign rfl rfl
      rw [hspelled]
      exact hopen.append ((hreads _ (ends_moreMembers ms rest)).append (hus rest))

/-- A value without other numbers than integers and without strings that denote no text. -/
inductive Whole : Value → Prop where
  | null : Whole .null
  | bool (b : Bool) : Whole (.bool b)
  | int (n : Int) : Whole (.int n)
  | string (s : String) : Whole (.string s)
  | array {vs : List Value} (items : ∀ v ∈ vs, Whole v) : Whole (.array vs)
  | record {ms : List (String × Value)} (members : ∀ m ∈ ms, Whole m.2) : Whole (.record ms)

theorem Whole.readable {v : Value} (h : Whole v) : Readable v := by
  induction h with
  | null => exact readable_null
  | bool b => exact readable_bool b
  | int n => exact readable_int n
  | string s => exact readable_string s
  | array _ ih => exact readable_array ih
  | record _ ih => exact readable_record ih

theorem Whole.parse?_bytes {v : Value} (h : Whole v) : parse? v.bytes = some v := by
  obtain ⟨ts, hts, hreads⟩ := h.readable
  have hscan := hreads [] (.inl rfl)
  rw [List.append_nil, ← bytes_eq_spelled] at hscan
  obtain ⟨left, -, hall⟩ := hscan [] v.bytes.length (Nat.le_refl _)
  have htokens : tokens? v.bytes = some ts := by
    rw [tokens?, hall, List.append_nil]
    cases left with
    | zero => rw [scan, List.reverse_reverse]
    | succ left => rw [scan, List.reverse_reverse]
  have hrun := hts.run [] []
  rw [List.append_nil] at hrun
  simp only [parse?, htokens, Machine.start, hrun, Option.bind_eq_bind, Option.bind_some]
  rfl

/-! ## Forms -/

open Form

/-- What is written is whole, and is read as what it was. -/
structure Faithful (A : Type) [Form A] : Prop where
  whole : ∀ a : A, Whole (write a)
  read : ∀ a : A, read? (write a) = some a

theorem Faithful.ofBytes?_bytes {A : Type} [Form A] (h : Faithful A) (a : A) :
    Form.ofBytes? (Form.bytes a) = some a := by
  rw [Form.ofBytes?, Form.bytes, (h.whole a).parse?_bytes, Option.bind_some, h.read]

theorem Faithful.required_write {A : Type} [Form A] (h : Faithful A) (a : A) :
    required (some (write a)) = some a := h.read a

theorem faithful_string : Faithful String := ⟨fun s => .string s, fun _ => rfl⟩

theorem faithful_uint64 : Faithful UInt64 where
  whole n := .int n.toNat
  read n := by
    have hlt : n.toNat < UInt64.size := n.toNat_lt
    have hrange : (0 : Int) ≤ n.toNat ∧ (n.toNat : Int) < UInt64.size := by omega
    simp only [write, read?]
    rw [if_pos hrange, Int.toNat_natCast]
    simp

theorem faithful_list {A : Type} [Form A] (h : Faithful A) : Faithful (List A) where
  whole as := by
    apply Whole.array
    intro v hv
    obtain ⟨a, -, rfl⟩ := List.mem_map.mp hv
    exact h.whole a
  read as := by
    simp only [write, read?]
    induction as with
    | nil => rfl
    | cons a as ih => rw [List.map_cons, List.mapM_cons, h.read, ih]; rfl

end ClusterNet.Json
