import ClusterNet.Text.Utf8

/-!
# Texts survive lossy reading

The bytes of a text have no fault, so reading them in spite of faults gives the same text.
-/

namespace ClusterNet.Utf8

theorem char_valid (c : Char) :
    c.val.toNat < 0xD800 ∨ (0xDFFF < c.val.toNat ∧ c.val.toNat < 0x110000) := c.valid

theorem toNat_ofNat {n : Nat} (h : n < 256) : (UInt8.ofNat n).toNat = n := by
  rw [UInt8.toNat_ofNat', Nat.mod_eq_of_lt h]

theorem ofNat_lt {n : Nat} (h : n < 256) (b : UInt8) : UInt8.ofNat n < b ↔ n < b.toNat := by
  rw [UInt8.lt_iff_toNat_lt, toNat_ofNat h]

theorem ofNat_le {n : Nat} (h : n < 256) (b : UInt8) : UInt8.ofNat n ≤ b ↔ n ≤ b.toNat := by
  rw [UInt8.le_iff_toNat_le, toNat_ofNat h]

theorem le_ofNat {n : Nat} (h : n < 256) (b : UInt8) : b ≤ UInt8.ofNat n ↔ b.toNat ≤ n := by
  rw [UInt8.le_iff_toNat_le, toNat_ofNat h]

theorem ofNat_eq {n : Nat} (h : n < 256) (b : UInt8) : UInt8.ofNat n = b ↔ n = b.toNat := by
  rw [← UInt8.toNat_inj, toNat_ofNat h]

theorem isTail_ofNat (n : Nat) : isTail (UInt8.ofNat (n % 0x40 + 0x80)) = true := by
  have h : n % 0x40 + 0x80 < 256 := by omega
  simp only [isTail, Bool.and_eq_true, decide_eq_true_eq, le_ofNat h, ofNat_le h, UInt8.reduceToNat]
  omega

/-! ## Characters by their width -/

variable {v : Nat} (rest : Bytes)

theorem front_two (hle : 0x80 ≤ v) (hlt : v < 0x800) :
    front (UInt8.ofNat (v / 64 % 0x20 + 0xc0)) (UInt8.ofNat (v % 0x40 + 0x80) :: rest) = .char 2 := by
  have h : v / 64 % 0x20 + 0xc0 < 256 := by omega
  have hfirst : ¬ v / 64 % 0x20 + 0xc0 < 128 := by omega
  have hrange : 194 ≤ v / 64 % 0x20 + 0xc0 ∧ v / 64 % 0x20 + 0xc0 ≤ 223 := by omega
  simp only [front, ofNat_lt h, le_ofNat h, ofNat_le h, UInt8.reduceToNat, hfirst, hrange, if_false,
    decide_true, Bool.and_self, if_true, tails, isTail_ofNat]

theorem secondOfThree_ofNat (hle : 0x800 ≤ v) (hlt : v < 0x10000)
    (hchar : v < 0xD800 ∨ (0xDFFF < v ∧ v < 0x110000)) :
    secondOfThree (UInt8.ofNat (v / 4096 % 0x10 + 0xe0)) (UInt8.ofNat (v / 64 % 0x40 + 0x80)) = true := by
  have h : v / 4096 % 0x10 + 0xe0 < 256 := by omega
  have h' : v / 64 % 0x40 + 0x80 < 256 := by omega
  simp only [secondOfThree, beq_iff_eq, ofNat_eq h, UInt8.reduceToNat, isTail_ofNat]
  split
  · simp only [Bool.and_eq_true, decide_eq_true_eq, le_ofNat h', ofNat_le h', UInt8.reduceToNat]
    omega
  · split
    · simp only [Bool.and_eq_true, decide_eq_true_eq, le_ofNat h', ofNat_le h', UInt8.reduceToNat]
      omega
    · rfl

theorem front_three (hle : 0x800 ≤ v) (hlt : v < 0x10000)
    (hchar : v < 0xD800 ∨ (0xDFFF < v ∧ v < 0x110000)) :
    front (UInt8.ofNat (v / 4096 % 0x10 + 0xe0)) (UInt8.ofNat (v / 64 % 0x40 + 0x80) ::
      UInt8.ofNat (v % 0x40 + 0x80) :: rest) = .char 3 := by
  have h : v / 4096 % 0x10 + 0xe0 < 256 := by omega
  have hfirst : ¬ v / 4096 % 0x10 + 0xe0 < 128 := by omega
  have hsecond : ¬ v / 4096 % 0x10 + 0xe0 ≤ 223 := by omega
  have hrange : 224 ≤ v / 4096 % 0x10 + 0xe0 ∧ v / 4096 % 0x10 + 0xe0 ≤ 239 := by omega
  simp only [front, ofNat_lt h, le_ofNat h, ofNat_le h, UInt8.reduceToNat, hfirst, hsecond, hrange,
    if_false, decide_true, decide_false, Bool.and_self, Bool.and_false, Bool.false_eq_true, if_true, tails,
    isTail_ofNat, secondOfThree_ofNat hle hlt hchar]

theorem secondOfFour_ofNat (hle : 0x10000 ≤ v) (hlt : v < 0x110000) :
    secondOfFour (UInt8.ofNat (v / 262144 % 0x08 + 0xf0)) (UInt8.ofNat (v / 4096 % 0x40 + 0x80)) = true := by
  have h : v / 262144 % 0x08 + 0xf0 < 256 := by omega
  have h' : v / 4096 % 0x40 + 0x80 < 256 := by omega
  simp only [secondOfFour, beq_iff_eq, ofNat_eq h, UInt8.reduceToNat, isTail_ofNat]
  split
  · simp only [Bool.and_eq_true, decide_eq_true_eq, le_ofNat h', ofNat_le h', UInt8.reduceToNat]
    omega
  · split
    · simp only [Bool.and_eq_true, decide_eq_true_eq, le_ofNat h', ofNat_le h', UInt8.reduceToNat]
      omega
    · rfl

theorem front_four (hle : 0x10000 ≤ v) (hlt : v < 0x110000) :
    front (UInt8.ofNat (v / 262144 % 0x08 + 0xf0)) (UInt8.ofNat (v / 4096 % 0x40 + 0x80) ::
      UInt8.ofNat (v / 64 % 0x40 + 0x80) :: UInt8.ofNat (v % 0x40 + 0x80) :: rest) = .char 4 := by
  have h : v / 262144 % 0x08 + 0xf0 < 256 := by omega
  have hfirst : ¬ v / 262144 % 0x08 + 0xf0 < 128 := by omega
  have hsecond : ¬ v / 262144 % 0x08 + 0xf0 ≤ 223 := by omega
  have hthird : ¬ v / 262144 % 0x08 + 0xf0 ≤ 239 := by omega
  have hrange : 240 ≤ v / 262144 % 0x08 + 0xf0 ∧ v / 262144 % 0x08 + 0xf0 ≤ 244 := by omega
  simp only [front, ofNat_lt h, le_ofNat h, ofNat_le h, UInt8.reduceToNat, hfirst, hsecond, hthird, hrange,
    if_false, decide_true, decide_false, Bool.and_self, Bool.and_false, Bool.false_eq_true, if_true, tails,
    isTail_ofNat, secondOfFour_ofNat hle hlt]

theorem front_utf8EncodeChar (c : Char) : ∃ b more, String.utf8EncodeChar c = b :: more ∧
    front b (more ++ rest) = .char (more.length + 1) ∧ assemble (b :: more) = c := by
  have hchar := char_valid c
  have hofNat : Char.ofNat c.val.toNat = c := Char.ofNat_toNat c
  unfold String.utf8EncodeChar
  simp only
  generalize c.val.toNat = v at hchar hofNat
  subst hofNat
  split
  · have h : v < 256 := by omega
    refine ⟨_, [], rfl, ?_, by rw [assemble, toNat_ofNat h]⟩
    simp only [front, ofNat_lt h, UInt8.reduceToNat]
    rw [if_pos (by omega)]
    rfl
  split
  · refine ⟨_, _, rfl, front_two rest (by omega) (by omega), ?_⟩
    rw [assemble, toNat_ofNat (by omega), toNat_ofNat (by omega)]
    congr 1
    omega
  split
  · refine ⟨_, _, rfl, front_three rest (by omega) (by omega) hchar, ?_⟩
    rw [assemble, toNat_ofNat (by omega), toNat_ofNat (by omega), toNat_ofNat (by omega)]
    congr 1
    omega
  · refine ⟨_, _, rfl, front_four rest (by omega) (by omega), ?_⟩
    rw [assemble, toNat_ofNat (by omega), toNat_ofNat (by omega), toNat_ofNat (by omega),
      toNat_ofNat (by omega)]
    congr 1
    omega

/-! ## Texts -/

theorem lossyFrom_skip (done : List Char) (more : Bytes) :
    lossyFrom done more.length (more ++ rest) = lossyFrom done 0 rest := by
  induction more with
  | nil => rfl
  | cons b more ih => exact ih

theorem lossyFrom_utf8EncodeChar (done : List Char) (c : Char) :
    lossyFrom done 0 (String.utf8EncodeChar c ++ rest) = lossyFrom (c :: done) 0 rest := by
  obtain ⟨b, more, hc, hfront, hassemble⟩ := front_utf8EncodeChar rest c
  rw [hc, List.cons_append, lossyFrom, hfront]
  simp only [Nat.add_sub_cancel, List.take_left, hassemble]
  exact lossyFrom_skip rest _ more

theorem lossyFrom_flatMap (cs : List Char) (done : List Char) :
    lossyFrom done 0 (cs.flatMap String.utf8EncodeChar) = cs.reverse ++ done := by
  induction cs generalizing done with
  | nil => rfl
  | cons c cs ih => rw [List.flatMap_cons, lossyFrom_utf8EncodeChar, ih, List.reverse_cons,
      List.append_assoc, List.singleton_append]

theorem ofText_eq (s : String) : Bytes.ofText s = s.toList.flatMap String.utf8EncodeChar := by
  rw [Bytes.ofText, ← String.utf8Encode_toList, List.utf8Encode, List.data_toByteArray]

theorem lossy_ofText (s : String) : lossy (Bytes.ofText s) = s := by
  rw [lossy, ofText_eq, lossyFrom_flatMap, List.append_nil, List.reverse_reverse, String.ofList_toList]

end ClusterNet.Utf8
