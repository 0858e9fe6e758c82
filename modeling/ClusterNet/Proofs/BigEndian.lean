import ClusterNet.Ip.Octets
import Mathlib.Algebra.Group.Nat.Defs

/-!
# Big-endian numbers

Bytes make up a number with the first byte in the highest place. Writing a number and reading
it back gives the same number, and each spelling in bytes is the one that writing gives.
-/

namespace ClusterNet

namespace Bytes

@[simp] theorem length_ofUInt16 (n : UInt16) : (ofUInt16 n).length = 2 := rfl

@[simp] theorem length_ofUInt32 (n : UInt32) : (ofUInt32 n).length = 4 := rfl

@[simp] theorem length_ofUInt64 (n : UInt64) : (ofUInt64 n).length = 8 := rfl

/-! ## Values -/

theorem shiftLeft_or_eq (a : Nat) {b i : Nat} (h : b < 2 ^ i) : a <<< i ||| b = a * 2 ^ i + b := by
  rw [← Nat.shiftLeft_add_eq_or_of_lt h, Nat.shiftLeft_eq]

theorem byte_shiftLeft_mod (a : UInt8) {i w : Nat} (h : i + 8 ≤ w) :
    a.toNat <<< i % 2 ^ w = a.toNat <<< i := by
  apply Nat.mod_eq_of_lt
  rw [Nat.shiftLeft_eq]
  calc a.toNat * 2 ^ i < 2 ^ 8 * 2 ^ i := Nat.mul_lt_mul_of_pos_right a.toNat_lt (Nat.two_pow_pos i)
    _ = 2 ^ (i + 8) := by rw [← Nat.pow_add, Nat.add_comm]
    _ ≤ 2 ^ w := Nat.pow_le_pow_right (by decide) h

theorem toNat_toUInt16 (a b : UInt8) : (toUInt16 a b).toNat = a.toNat * 2 ^ 8 + b.toNat := by
  have hb := b.toNat_lt
  simp only [toUInt16, UInt16.toNat_or, UInt16.toNat_shiftLeft, UInt8.toNat_toUInt16,
    UInt16.reduceToNat, Nat.reduceMod]
  rw [byte_shiftLeft_mod a (by decide), shiftLeft_or_eq _ hb]

theorem toNat_toUInt32 (a b c d : UInt8) :
    (toUInt32 a b c d).toNat =
      a.toNat * 2 ^ 24 + (b.toNat * 2 ^ 16 + (c.toNat * 2 ^ 8 + d.toNat)) := by
  have hb := b.toNat_lt
  have hc := c.toNat_lt
  have hd := d.toNat_lt
  simp only [toUInt32, UInt32.toNat_or, UInt32.toNat_shiftLeft, UInt8.toNat_toUInt32, Nat.or_assoc,
    UInt32.reduceToNat, Nat.reduceMod]
  rw [byte_shiftLeft_mod a (by decide), byte_shiftLeft_mod b (by decide), byte_shiftLeft_mod c (by decide),
    shiftLeft_or_eq _ hd, shiftLeft_or_eq b.toNat (by omega), shiftLeft_or_eq a.toNat (by omega)]

theorem toNat_toUInt64 (a b c d e f g h : UInt8) :
    (toUInt64 a b c d e f g h).toNat =
      a.toNat * 2 ^ 56 + (b.toNat * 2 ^ 48 + (c.toNat * 2 ^ 40 + (d.toNat * 2 ^ 32 +
        (e.toNat * 2 ^ 24 + (f.toNat * 2 ^ 16 + (g.toNat * 2 ^ 8 + h.toNat)))))) := by
  have hb := b.toNat_lt
  have hc := c.toNat_lt
  have hd := d.toNat_lt
  have he := e.toNat_lt
  have hf := f.toNat_lt
  have hg := g.toNat_lt
  have hh := h.toNat_lt
  simp only [toUInt64, UInt64.toNat_or, UInt64.toNat_shiftLeft, UInt8.toNat_toUInt64, Nat.or_assoc,
    UInt64.reduceToNat, Nat.reduceMod]
  rw [byte_shiftLeft_mod a (by decide), byte_shiftLeft_mod b (by decide), byte_shiftLeft_mod c (by decide),
    byte_shiftLeft_mod d (by decide), byte_shiftLeft_mod e (by decide), byte_shiftLeft_mod f (by decide),
    byte_shiftLeft_mod g (by decide),
    shiftLeft_or_eq _ hh, shiftLeft_or_eq f.toNat (by omega), shiftLeft_or_eq e.toNat (by omega),
    shiftLeft_or_eq d.toNat (by omega), shiftLeft_or_eq c.toNat (by omega), shiftLeft_or_eq b.toNat (by omega),
    shiftLeft_or_eq a.toNat (by omega)]

theorem toUInt16_ofUInt16 (n : UInt16) : toUInt16 (n >>> 8).toUInt8 n.toUInt8 = n := by
  apply UInt16.toNat_inj.mp
  have hn := n.toNat_lt
  rw [toNat_toUInt16]
  simp [Nat.shiftRight_eq_div_pow]
  omega

theorem toUInt32_ofUInt32 (n : UInt32) :
    toUInt32 (n >>> 24).toUInt8 (n >>> 16).toUInt8 (n >>> 8).toUInt8 n.toUInt8 = n := by
  apply UInt32.toNat_inj.mp
  have hn := n.toNat_lt
  rw [toNat_toUInt32]
  simp [Nat.shiftRight_eq_div_pow]
  omega

theorem toUInt64_ofUInt64 (n : UInt64) :
    toUInt64 (n >>> 56).toUInt8 (n >>> 48).toUInt8 (n >>> 40).toUInt8 (n >>> 32).toUInt8
      (n >>> 24).toUInt8 (n >>> 16).toUInt8 (n >>> 8).toUInt8 n.toUInt8 = n := by
  apply UInt64.toNat_inj.mp
  have hn := n.toNat_lt
  rw [toNat_toUInt64]
  simp [Nat.shiftRight_eq_div_pow]
  omega

theorem ofUInt16_toUInt16 (a b : UInt8) : ofUInt16 (toUInt16 a b) = [a, b] := by
  have ha := a.toNat_lt
  have hb := b.toNat_lt
  simp only [ofUInt16, List.cons.injEq, and_true, ← UInt8.toNat_inj]
  simp [toNat_toUInt16, Nat.shiftRight_eq_div_pow]
  omega

theorem ofUInt32_toUInt32 (a b c d : UInt8) : ofUInt32 (toUInt32 a b c d) = [a, b, c, d] := by
  have ha := a.toNat_lt
  have hb := b.toNat_lt
  have hc := c.toNat_lt
  have hd := d.toNat_lt
  simp only [ofUInt32, List.cons.injEq, and_true, ← UInt8.toNat_inj]
  simp [toNat_toUInt32, Nat.shiftRight_eq_div_pow]
  omega

theorem ofUInt32_inj {n m : UInt32} (h : ofUInt32 n = ofUInt32 m) : n = m := by
  simp only [ofUInt32, List.cons.injEq, and_true] at h
  rw [← toUInt32_ofUInt32 n, ← toUInt32_ofUInt32 m, h.1, h.2.1, h.2.2.1, h.2.2.2]

theorem ofUInt64_toUInt64 (a b c d e f g h : UInt8) :
    ofUInt64 (toUInt64 a b c d e f g h) = [a, b, c, d, e, f, g, h] := by
  have ha := a.toNat_lt
  have hb := b.toNat_lt
  have hc := c.toNat_lt
  have hd := d.toNat_lt
  have he := e.toNat_lt
  have hf := f.toNat_lt
  have hg := g.toNat_lt
  have hh := h.toNat_lt
  simp only [ofUInt64, List.cons.injEq, and_true, ← UInt8.toNat_inj]
  simp [toNat_toUInt64, Nat.shiftRight_eq_div_pow]
  omega

end Bytes

end ClusterNet
