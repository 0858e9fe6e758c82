import ClusterNet.Bytes
import Mathlib.Algebra.Group.Nat.Defs

/-!
# Words that do not run over

Sums and differences of numbers of 64 bits that have a value only where it fits. A calculation
that is carried through in them is the one with unbounded numbers.
-/

namespace ClusterNet.Words

variable {a b c : UInt64}

def add? (a b : UInt64) : Option UInt64 := if a.toNat + b.toNat < 2 ^ 64 then some (a + b) else none

def sub? (a b : UInt64) : Option UInt64 := if b ≤ a then some (a - b) else none

theorem add?_eq_none_iff : add? a b = none ↔ 2 ^ 64 ≤ a.toNat + b.toNat := by
  unfold add?
  split <;> simp <;> omega

theorem add?_eq_some_iff : add? a b = some c ↔ c.toNat = a.toNat + b.toNat := by
  have hc := c.toNat_lt
  unfold add?
  split
  · rename_i hfits
    rw [Option.some.injEq, ← UInt64.toNat_inj, UInt64.toNat_add, Nat.mod_eq_of_lt hfits]
    exact eq_comm
  · simp
    omega

theorem sub?_eq_some_iff : sub? a b = some c ↔ c.toNat + b.toNat = a.toNat := by
  have hb := b.toNat_lt
  unfold sub?
  split
  · rename_i hle
    have hnat := UInt64.le_iff_toNat_le.mp hle
    rw [Option.some.injEq, ← UInt64.toNat_inj, UInt64.toNat_sub_of_le _ _ hle]
    omega
  · rename_i hle
    have hnat := mt UInt64.le_iff_toNat_le.mpr hle
    simp
    omega

theorem exists_add? (h : a.toNat + b.toNat < 2 ^ 64) :
    ∃ c, add? a b = some c ∧ c.toNat = a.toNat + b.toNat := by
  have hsome : add? a b = some (a + b) := if_pos h
  exact ⟨a + b, hsome, add?_eq_some_iff.mp hsome⟩

theorem exists_sub? (h : b.toNat ≤ a.toNat) :
    ∃ c, sub? a b = some c ∧ c.toNat = a.toNat - b.toNat := by
  have hsome : sub? a b = some (a - b) := if_pos (UInt64.le_iff_toNat_le.mpr h)
  have hsum := sub?_eq_some_iff.mp hsome
  exact ⟨a - b, hsome, by omega⟩

end ClusterNet.Words
