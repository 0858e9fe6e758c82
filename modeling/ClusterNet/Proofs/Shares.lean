import ClusterNet.Proofs.HostActs
import Mathlib.Data.Int.CardIntervalMod

/-!
# Turns and shares

A balancer goes round among its candidates. It may stand anywhere when a round begins: as long as
the candidates stay the same, each of them gets its share of the turns.
-/

namespace ClusterNet.PubSub

/-! ## Going round -/

/-- Out of `k` turns one of `n` candidates gets `k / n`, rounded one way or the other. -/
def IsShare (n k c : Nat) : Prop := c = k / n ∨ c = (k + n - 1) / n

/-- Each time one of the candidates is chosen, and each of them gets its share. -/
structure Fair {A : Type} [DecidableEq A] (among : List A) (chosen : List (Option A)) : Prop where
  apart : among.Nodup
  drawn : ∀ c ∈ chosen, ∃ a ∈ among, c = some a
  share : ∀ a ∈ among, IsShare among.length chosen.length (chosen.count (some a))

theorem Fair.perm {A : Type} [DecidableEq A] {among among' : List A} {chosen : List (Option A)}
    (h : Fair among chosen) (hperm : among.Perm among') : Fair among' chosen where
  apart := hperm.nodup_iff.mp h.apart
  drawn c hc := by
    obtain ⟨a, ha, rfl⟩ := h.drawn c hc
    exact ⟨a, hperm.mem_iff.mp ha, rfl⟩
  share a ha := by
    rw [← hperm.length_eq]
    exact h.share a (hperm.mem_iff.mpr ha)

theorem countP_range (p : Nat → Bool) (k : Nat) : (List.range k).countP p = Nat.count (fun i => p i) k := by
  induction k with
  | zero => rfl
  | succ k ih =>
    rw [List.range_succ, List.countP_append, ih, Nat.count_succ]
    simp [List.countP_cons]

/-- From wherever a round begins, each place comes up as often as its share of the turns. -/
theorem isShare_round {n j : Nat} (hj : j < n) (c k : Nat) :
    IsShare n k ((List.range k).countP fun i => decide ((c + i) % n = j)) := by
  have hn : 0 < n := by omega
  have hc := Nat.mod_lt c hn
  -- The place comes up at the turns that are congruent to the first one at which it does.
  have hturn (i : Nat) : (c + i) % n = j ↔ i ≡ j + (n - c % n) [MOD n] := by
    have hj' : (c + i) % n = j ↔ c + i ≡ j [MOD n] := by
      rw [Nat.ModEq, Nat.mod_eq_of_lt hj]
    have hfirst : c + (j + (n - c % n)) ≡ j [MOD n] := by
      have hsum : c + (j + (n - c % n)) = j + n * (c / n + 1) := by
        have hdiv := Nat.div_add_mod c n
        rw [Nat.mul_add, Nat.mul_one]
        omega
      rw [hsum, Nat.ModEq, Nat.add_mul_mod_self_left]
    rw [hj']
    constructor
    · intro h
      exact Nat.ModEq.add_left_cancel' c (h.trans hfirst.symm)
    · intro h
      exact (Nat.ModEq.add_left c h).trans hfirst
  have hcount : (List.range k).countP (fun i => decide ((c + i) % n = j)) =
      k / n + if (j + (n - c % n)) % n < k % n then 1 else 0 := by
    rw [countP_range, ← Nat.count_modEq_card k hn]
    simp only [decide_eq_true_eq, hturn]
  rw [hcount, IsShare]
  split
  · right
    rename_i hlt
    have hk := Nat.div_add_mod k n
    have hround : k + n - 1 = n * (k / n + 1) + (k % n - 1) := by
      rw [Nat.mul_add, Nat.mul_one]
      omega
    have hrest : k % n - 1 < n := by
      have := Nat.mod_lt k hn
      omega
    rw [hround, Nat.mul_add_div hn, Nat.div_eq_of_lt hrest]
  · exact .inl rfl

namespace Balancer

variable {A B : Type}

/-- Who is chosen in so many turns with the same candidates. -/
def turns (b : Balancer) (as : List A) : Nat → List (Option A)
  | 0 => []
  | k + 1 => (b.pick as).1 :: (b.pick as).2.turns as k

theorem snd_pick (b : Balancer) {as : List A} (h : as ≠ []) : (b.pick as).2 = ⟨b.count + 1⟩ := by
  have hlen : as.length ≠ 0 := by
    intro h0
    exact h (List.eq_nil_of_length_eq_zero h0)
  unfold pick next
  rw [if_neg hlen]

theorem fst_pick (b : Balancer) {as : List A} (h : as ≠ []) :
    (b.pick as).1 = as[b.count.toNat % as.length]? := by
  have hlen : as.length ≠ 0 := by
    intro h0
    exact h (List.eq_nil_of_length_eq_zero h0)
  unfold pick next
  rw [if_neg hlen]
  rfl

theorem fst_pick_map (b : Balancer) (f : A → B) (as : List A) :
    (b.pick (as.map f)).1 = (b.pick as).1.map f := by
  by_cases h : as = []
  · rw [h]
    rfl
  · have hmap : as.map f ≠ [] := by simpa using h
    rw [fst_pick b h, fst_pick b hmap, List.length_map, List.getElem?_map]

theorem snd_pick_map (b : Balancer) (f : A → B) (as : List A) : (b.pick (as.map f)).2 = (b.pick as).2 := by
  by_cases h : as = []
  · rw [h]
    rfl
  · have hmap : as.map f ≠ [] := by simpa using h
    rw [snd_pick b h, snd_pick b hmap]

theorem count_pick_le (b : Balancer) (as : List A) :
    (b.pick as).2.count.toNat ≤ b.count.toNat + 1 := by
  by_cases h : as = []
  · rw [h]
    exact Nat.le_succ _
  · rw [snd_pick b h, UInt64.toNat_add]
    exact Nat.mod_le _ _

theorem length_turns (b : Balancer) (as : List A) (k : Nat) : (b.turns as k).length = k := by
  induction k generalizing b with
  | zero => rfl
  | succ k ih => rw [turns, List.length_cons, ih]

theorem turns_eq {b : Balancer} {as : List A} (has : as ≠ []) {k : Nat} (h : b.count.toNat + k < 2 ^ 64) :
    b.turns as k = (List.range k).map fun i => as[(b.count.toNat + i) % as.length]? := by
  induction k generalizing b with
  | zero => rfl
  | succ k ih =>
    have hcount : (b.pick as).2.count.toNat = b.count.toNat + 1 := by
      rw [snd_pick b has, UInt64.toNat_add, UInt64.toNat_one]
      exact Nat.mod_eq_of_lt (by omega)
    rw [turns, ih (by omega), hcount, fst_pick b has, List.range_succ_eq_map, List.map_cons, List.map_map]
    congr 1
    apply List.map_congr_left
    intro i _
    rw [Function.comp_apply, Nat.add_right_comm, Nat.add_assoc]

/-- As long as a balancer does not run out of numbers, its turns are shared evenly. -/
theorem fair_turns [DecidableEq A] {b : Balancer} {as : List A} (has : as ≠ []) (hapart : as.Nodup)
    {k : Nat} (h : b.count.toNat + k < 2 ^ 64) : Fair as (b.turns as k) := by
  have hlen : 0 < as.length := List.length_pos_iff.mpr has
  refine ⟨hapart, ?_, ?_⟩
  · rw [turns_eq has h]
    intro c hc
    obtain ⟨i, -, rfl⟩ := List.mem_map.mp hc
    have hlt := Nat.mod_lt (b.count.toNat + i) hlen
    exact ⟨_, List.getElem_mem hlt, List.getElem?_eq_getElem hlt⟩
  · intro a ha
    obtain ⟨j, hj, rfl⟩ := List.getElem_of_mem ha
    have hat (i : Nat) : as[(b.count.toNat + i) % as.length]? = some as[j] ↔
        (b.count.toNat + i) % as.length = j := by
      rw [List.getElem?_eq_getElem (Nat.mod_lt _ hlen), Option.some_inj]
      exact hapart.getElem_inj_iff
    have hcount : (b.turns as k).count (some as[j]) =
        (List.range k).countP fun i => decide ((b.count.toNat + i) % as.length = j) := by
      rw [turns_eq has h, List.count, List.countP_map]
      apply List.countP_congr
      intro i _
      rw [Function.comp_apply, beq_iff_eq, decide_eq_true_iff]
      exact hat i
    rw [hcount, length_turns]
    exact isShare_round hj _ k

end Balancer

end ClusterNet.PubSub
