import ClusterNet.Checksum.Crc32c
import Mathlib.Algebra.Group.Nat.Defs
import Mathlib.Logic.Function.Iterate

/-!
# What a checksum sees

A step of the register is linear and loses nothing. So two registers that differ go on differing
over the same bytes, and registers that come together over some bytes were apart in no more places
than these bytes have. Within four bytes every difference finds room in the register: byte strings
that differ there have different checksums, however long they are.
-/

namespace ClusterNet.Crc32c

-- The check value that goes with the polynomial.
example : checksum [0x31, 0x32, 0x33, 0x34, 0x35, 0x36, 0x37, 0x38, 0x39] = 0xE3069283 := by
  decide +kernel

variable {r r' x y : UInt32} {b b' : UInt8} {w w' : Bytes}

/-! ## One bit -/

theorem toNat_and_one (x : UInt32) : (x &&& 1).toNat = x.toNat % 2 := by
  rw [UInt32.toNat_and, UInt32.toNat_one, Nat.and_one_is_mod]

theorem toNat_shiftRight_one (x : UInt32) : (x >>> 1).toNat = x.toNat / 2 := by
  rw [UInt32.toNat_shiftRight, UInt32.toNat_one, Nat.shiftRight_eq_div_pow]

theorem and_one_cases (x : UInt32) : x &&& 1 = 0 ∨ x &&& 1 = 1 := by
  simp only [← UInt32.toNat_inj, toNat_and_one, UInt32.toNat_zero, UInt32.toNat_one]
  exact Nat.mod_two_eq_zero_or_one _

theorem bitStep_even (h : x &&& 1 = 0) : bitStep x = x >>> 1 := if_pos (beq_iff_eq.mpr h)

theorem bitStep_odd (h : x &&& 1 = 1) : bitStep x = (x >>> 1) ^^^ polynomial :=
  if_neg (by rw [h]; decide)

theorem xor_and_one (x y : UInt32) : (x ^^^ y) &&& 1 = (x &&& 1) ^^^ (y &&& 1) := by
  apply UInt32.toNat_inj.mp
  simp only [UInt32.toNat_and, UInt32.toNat_xor, Nat.and_xor_distrib_right]

theorem bitStep_xor (x y : UInt32) : bitStep (x ^^^ y) = bitStep x ^^^ bitStep y := by
  have hlow := xor_and_one x y
  rcases and_one_cases x with hx | hx <;> rcases and_one_cases y with hy | hy <;> rw [hx, hy] at hlow
  · rw [bitStep_even hx, bitStep_even hy, bitStep_even hlow, UInt32.shiftRight_xor]
  · rw [bitStep_even hx, bitStep_odd hy, bitStep_odd hlow, UInt32.shiftRight_xor, UInt32.xor_assoc]
  · rw [bitStep_odd hx, bitStep_even hy, bitStep_odd hlow, UInt32.shiftRight_xor]
    ac_rfl
  · rw [bitStep_odd hx, bitStep_odd hy, bitStep_even hlow, UInt32.shiftRight_xor]
    calc (x >>> 1) ^^^ (y >>> 1) = (x >>> 1) ^^^ (y >>> 1) ^^^ (polynomial ^^^ polynomial) := by
          rw [UInt32.xor_self, UInt32.xor_zero]
      _ = (x >>> 1) ^^^ polynomial ^^^ ((y >>> 1) ^^^ polynomial) := by ac_rfl

/-- The highest bit tells whether the polynomial was taken away, so a step can be undone. -/
theorem eq_zero_of_bitStep (h : bitStep x = 0) : x = 0 := by
  rcases and_one_cases x with hx | hx
  · rw [bitStep_even hx] at h
    have hhigh := toNat_shiftRight_one x
    have hlow := toNat_and_one x
    rw [h, UInt32.toNat_zero] at hhigh
    rw [hx, UInt32.toNat_zero] at hlow
    exact UInt32.toNat_inj.mp (by rw [UInt32.toNat_zero]; omega)
  · rw [bitStep_odd hx, UInt32.xor_eq_zero_iff] at h
    have hhigh := toNat_shiftRight_one x
    rw [h] at hhigh
    have hbound := x.toNat_lt
    have htop : 2 ^ 31 ≤ polynomial.toNat := by decide
    omega

theorem bitStep_injective : Function.Injective bitStep := by
  intro x y h
  rw [← UInt32.xor_eq_zero_iff] at h ⊢
  rw [← bitStep_xor] at h
  exact eq_zero_of_bitStep h

/-! ## One byte -/

theorem iterate_bitStep_xor (n : Nat) (x y : UInt32) :
    bitStep^[n] (x ^^^ y) = bitStep^[n] x ^^^ bitStep^[n] y := by
  induction n generalizing x y with
  | zero => rfl
  | succ n ih => rw [Function.iterate_succ_apply, bitStep_xor, ih]; rfl

/-- As long as the bits that go out are zeros, the register only moves down. -/
theorem toNat_iterate_bitStep (n : Nat) (h : 2 ^ n ∣ x.toNat) :
    (bitStep^[n] x).toNat = x.toNat / 2 ^ n := by
  induction n generalizing x with
  | zero => exact (Nat.div_one _).symm
  | succ n ih =>
    have heven : x &&& 1 = 0 := by
      rw [← UInt32.toNat_inj, toNat_and_one, UInt32.toNat_zero]
      exact Nat.mod_eq_zero_of_dvd (Nat.dvd_trans (Nat.dvd_mul_left 2 (2 ^ n)) h)
    have hhalf : (bitStep x).toNat = x.toNat / 2 := by rw [bitStep_even heven, toNat_shiftRight_one]
    have hdvd : 2 ^ n ∣ (bitStep x).toNat := by
      rw [hhalf]
      exact Nat.dvd_div_of_mul_dvd (by rwa [Nat.mul_comm, ← Nat.pow_succ])
    rw [Function.iterate_succ_apply, ih hdvd, hhalf, Nat.div_div_eq_div_mul, Nat.mul_comm, ← Nat.pow_succ]

theorem toNat_shiftLeft_eight (h : x.toNat < 2 ^ 24) : (x <<< 8).toNat = x.toNat * 2 ^ 8 := by
  rw [UInt32.toNat_shiftLeft, show (8 : UInt32).toNat % 32 = 8 from rfl, Nat.shiftLeft_eq,
    Nat.mod_eq_of_lt (by omega)]

theorem iterate_bitStep_shiftLeft (h : x.toNat < 2 ^ 24) : bitStep^[8] (x <<< 8) = x := by
  apply UInt32.toNat_inj.mp
  rw [toNat_iterate_bitStep 8 (by rw [toNat_shiftLeft_eight h]; exact Nat.dvd_mul_left ..),
    toNat_shiftLeft_eight h, Nat.mul_div_cancel _ (by decide)]

theorem byteStep_eq (r : UInt32) (b : UInt8) : byteStep r b = bitStep^[8] (r ^^^ b.toUInt32) := rfl

theorem byteStep_injective (b : UInt8) : Function.Injective fun r => byteStep r b := by
  intro r r' h
  exact (UInt32.xor_left_inj _).mp (bitStep_injective.iterate 8 h)

theorem xor_eq_of_byteStep (h : (byteStep r b ^^^ byteStep r' b').toNat < 2 ^ 24) :
    r ^^^ r' = ((byteStep r b ^^^ byteStep r' b') <<< 8) ^^^ (b ^^^ b').toUInt32 := by
  have hback : (r ^^^ b.toUInt32) ^^^ (r' ^^^ b'.toUInt32) = (byteStep r b ^^^ byteStep r' b') <<< 8 := by
    apply bitStep_injective.iterate 8
    rw [iterate_bitStep_xor, iterate_bitStep_shiftLeft h, byteStep_eq, byteStep_eq]
  calc r ^^^ r' = (r ^^^ r') ^^^ ((b ^^^ b').toUInt32 ^^^ (b ^^^ b').toUInt32) := by
        rw [UInt32.xor_self, UInt32.xor_zero]
    _ = ((r ^^^ b.toUInt32) ^^^ (r' ^^^ b'.toUInt32)) ^^^ (b ^^^ b').toUInt32 := by
        rw [UInt8.toUInt32_xor]
        ac_rfl
    _ = _ := by rw [hback]

/-! ## Byte strings -/

theorem register_append (r : UInt32) (a b : Bytes) : register r (a ++ b) = register (register r a) b :=
  List.foldl_append

theorem register_injective (b : Bytes) : Function.Injective fun r => register r b := by
  induction b with
  | nil => exact fun _ _ h => h
  | cons x b ih => exact fun r r' h => byteStep_injective x (ih h)

/-- Over `n` bytes only registers can come together that differ in their last `8 * n` bits. -/
theorem xor_lt_of_register_eq (hlength : w'.length = w.length) (hshort : w.length ≤ 4)
    (h : register r w = register r' w') : (r ^^^ r').toNat < 2 ^ (8 * w.length) := by
  induction w generalizing r r' w' with
  | nil =>
    obtain rfl := List.eq_nil_of_length_eq_zero hlength
    have hsame : r = r' := h
    rw [hsame, UInt32.xor_self]
    decide
  | cons b w ih =>
    obtain ⟨b', w', rfl⟩ := List.exists_cons_of_length_eq_add_one hlength
    rw [List.length_cons, List.length_cons, Nat.add_right_cancel_iff] at hlength
    rw [List.length_cons] at hshort ⊢
    have hlater : (byteStep r b ^^^ byteStep r' b').toNat < 2 ^ (8 * w.length) :=
      ih hlength (by omega) h
    have hroom : (byteStep r b ^^^ byteStep r' b').toNat < 2 ^ 24 :=
      Nat.lt_of_lt_of_le hlater (Nat.pow_le_pow_right (by decide) (by omega))
    have hpow : 2 ^ (8 * (w.length + 1)) = 2 ^ (8 * w.length) * 2 ^ 8 := by
      rw [Nat.mul_succ, Nat.pow_add]
    have hbyte : (b ^^^ b').toUInt32.toNat < 2 ^ (8 * (w.length + 1)) := by
      rw [UInt8.toNat_toUInt32]
      exact Nat.lt_of_lt_of_le (b ^^^ b').toNat_lt (Nat.pow_le_pow_right (by decide) (by omega))
    rw [xor_eq_of_byteStep hroom, UInt32.toNat_xor]
    refine Nat.xor_lt_two_pow ?_ hbyte
    rw [toNat_shiftLeft_eight hroom, hpow]
    exact Nat.mul_lt_mul_of_pos_right hlater (by decide)

/-- Up to four bytes can be told from the register behind them. -/
theorem eq_of_register_eq (hlength : w'.length = w.length) (hshort : w.length ≤ 4)
    (h : register r w = register r w') : w = w' := by
  induction w generalizing r w' with
  | nil => exact (List.eq_nil_of_length_eq_zero hlength).symm
  | cons b w ih =>
    obtain ⟨b', w', rfl⟩ := List.exists_cons_of_length_eq_add_one hlength
    rw [List.length_cons, List.length_cons, Nat.add_right_cancel_iff] at hlength
    rw [List.length_cons] at hshort
    have hlater : (byteStep r b ^^^ byteStep r b').toNat < 2 ^ (8 * w.length) :=
      xor_lt_of_register_eq hlength (by omega) h
    have hroom : (byteStep r b ^^^ byteStep r b').toNat < 2 ^ 24 :=
      Nat.lt_of_lt_of_le hlater (Nat.pow_le_pow_right (by decide) (by omega))
    -- The bytes differ below the eighth bit, and what is behind them only from there on.
    have hbytes := xor_eq_of_byteStep hroom
    rw [UInt32.xor_self, eq_comm, UInt32.xor_eq_zero_iff, ← UInt32.toNat_inj,
      toNat_shiftLeft_eight hroom, UInt8.toNat_toUInt32] at hbytes
    have hlt := (b ^^^ b').toNat_lt
    have hbyte : b ^^^ b' = 0 := UInt8.toNat_inj.mp (by rw [UInt8.toNat_zero]; omega)
    obtain rfl := UInt8.xor_eq_zero_iff.mp hbyte
    rw [ih hlength (by omega) h]

/-- The strings differ, and only within a window of at most four bytes. -/
structure Burst (a b : Bytes) : Prop where
  ne : a ≠ b
  window : ∃ before w w' after, a = before ++ w ++ after ∧ b = before ++ w' ++ after ∧
    w'.length = w.length ∧ w.length ≤ 4

theorem Burst.length_eq {a b : Bytes} (h : Burst a b) : b.length = a.length := by
  obtain ⟨before, w, w', after, rfl, rfl, hlength, -⟩ := h.window
  simp [hlength]

theorem Burst.checksum_ne {a b : Bytes} (h : Burst a b) : checksum a ≠ checksum b := by
  intro hsame
  obtain ⟨hne, before, w, w', after, rfl, rfl, hlength, hshort⟩ := h
  have hregister := UInt32.not_inj.mp hsame
  rw [register_append, register_append, register_append, register_append] at hregister
  have hwindow := eq_of_register_eq hlength hshort (register_injective after hregister)
  exact hne (by rw [hwindow])

end ClusterNet.Crc32c
