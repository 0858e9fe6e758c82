import ClusterNet.Table
import Mathlib.Algebra.GroupWithZero.Nat
import Mathlib.Data.List.Nodup

/-!
# What a table holds after a change

A change to one key is seen at that key and nowhere else. A table made by insertion and erasure
has each key once, so its entries are what can be looked up.
-/

namespace ClusterNet.Table

variable {K V : Type} [DecidableEq K]

/-! ## Looking up -/

theorem get?_insert (t : Table K V) (k l : K) (v : V) :
    (t.insert k v).get? l = if l = k then some v else t.get? l := by
  split
  · rename_i h
    rw [h, get?_insert_self]
  · rename_i h
    rw [get?_insert_of_ne t h]

theorem get?_insert_comm (t : Table K V) {k l : K} (h : k ≠ l) (v w : V) (j : K) :
    ((t.insert k v).insert l w).get? j = ((t.insert l w).insert k v).get? j := by
  rw [get?_insert, get?_insert, get?_insert, get?_insert]
  by_cases hk : j = k
  · subst hk
    rw [if_neg h, if_pos rfl, if_pos rfl]
  · rw [if_neg hk, if_neg hk]

theorem get?_erase (t : Table K V) (k l : K) :
    (t.erase k).get? l = if l = k then none else t.get? l := by
  split
  · rename_i h
    rw [h, get?_erase_self]
  · rename_i h
    rw [get?_erase_of_ne t h]

theorem lookup_map (k l : K) (f : V → V) (es : List (K × V)) :
    lookup l (es.map fun e => if e.1 = k then (e.1, f e.2) else e) =
      if l = k then (lookup l es).map f else lookup l es := by
  induction es with
  | nil => simp [lookup]
  | cons e es ih =>
    rw [List.map_cons, lookup, ih, lookup]
    by_cases hk : e.1 = k
    · simp only [hk, if_true]
      by_cases hl : k = l
      · simp [hl]
      · simp [hl, Ne.symm hl]
    · simp only [hk, if_false]
      by_cases hl : e.1 = l
      · simp [hl, show l ≠ k from hl ▸ hk]
      · simp [hl]

theorem get?_modify (t : Table K V) (k l : K) (f : V → V) :
    (t.modify k f).get? l = if l = k then (t.get? l).map f else t.get? l := lookup_map k l f t.entries

theorem get?_foldl_modify {f : V → V} (hf : ∀ v, f (f v) = f v) (ks : List K) (t : Table K V) (l : K) :
    (ks.foldl (fun t k => t.modify k f) t).get? l = if l ∈ ks then (t.get? l).map f else t.get? l := by
  induction ks generalizing t with
  | nil => simp
  | cons k ks ih =>
    rw [List.foldl_cons, ih, get?_modify]
    by_cases hk : l = k
    · subst hk
      cases t.get? l <;> simp [hf]
    · simp [hk]

theorem foldl_modify_eq {f : V → V} (hf : ∀ v, f (f v) = f v) (ks : List K) (t : Table K V) :
    ks.foldl (fun t k => t.modify k f) t = ⟨t.entries.map fun e => if e.1 ∈ ks then (e.1, f e.2) else e⟩ := by
  induction ks generalizing t with
  | nil => simp
  | cons k ks ih =>
    rw [List.foldl_cons, ih, modify, List.map_map]
    refine congrArg Table.mk (List.map_congr_left fun e _ => ?_)
    by_cases hk : e.1 = k
    · by_cases hks : k ∈ ks <;> simp [hk, hks, hf]
    · by_cases hks : e.1 ∈ ks <;> simp [hk, hks]

theorem put_put (k : K) (v w : V) (es : List (K × V)) : put k w (put k v es) = put k w es := by
  induction es with
  | nil => simp [put]
  | cons e es ih => by_cases h : e.1 = k <;> simp [put, h, ih]

theorem insert_insert (t : Table K V) (k : K) (v w : V) : (t.insert k v).insert k w = t.insert k w :=
  congrArg Table.mk (put_put k v w t.entries)

theorem erase_of_get?_eq_none {t : Table K V} {k : K} (h : t.get? k = none) : t.erase k = t := by
  have hwithout : ∀ es : List (K × V), lookup k es = none → without k es = es := by
    intro es
    induction es with
    | nil => exact fun _ => rfl
    | cons e es ih =>
      intro hes
      rw [lookup] at hes
      split at hes
      · cases hes
      · rename_i hne
        rw [without, if_neg hne, ih hes]
  exact congrArg Table.mk (hwithout t.entries h)

theorem eq_empty {t : Table K V} (h : ∀ k, t.get? k = none) : t = empty := by
  obtain ⟨es⟩ := t
  cases es with
  | nil => rfl
  | cons e es =>
    have hfirst := h e.1
    simp [get?, lookup] at hfirst

/-! ## Keys -/

theorem mem_keys_put {k l : K} {v : V} {es : List (K × V)} :
    l ∈ (put k v es).map (·.1) ↔ l = k ∨ l ∈ es.map (·.1) := by
  induction es with
  | nil => simp [put]
  | cons e es ih =>
    rw [put]
    split
    · rename_i h
      subst h
      simp
    · simp only [List.map_cons, List.mem_cons, ih]
      tauto

theorem nodup_keys_put {k : K} {v : V} {es : List (K × V)} (h : (es.map (·.1)).Nodup) :
    ((put k v es).map (·.1)).Nodup := by
  induction es with
  | nil => simp [put]
  | cons e es ih =>
    obtain ⟨hmem, htail⟩ := List.nodup_cons.mp h
    rw [put]
    split
    · rename_i hk
      subst hk
      exact List.nodup_cons.mpr ⟨hmem, htail⟩
    · rename_i hk
      refine List.nodup_cons.mpr ⟨?_, ih htail⟩
      rw [mem_keys_put]
      exact fun hor => hor.elim hk hmem

theorem mem_without {k : K} {e : K × V} {es : List (K × V)} :
    e ∈ without k es ↔ e ∈ es ∧ e.1 ≠ k := by
  induction es with
  | nil => simp [without]
  | cons a es ih =>
    rw [without]
    split
    · rename_i h
      rw [ih, List.mem_cons]
      constructor
      · rintro ⟨he, hk⟩
        exact ⟨.inr he, hk⟩
      · rintro ⟨rfl | he, hk⟩
        · exact absurd h hk
        · exact ⟨he, hk⟩
    · rename_i h
      rw [List.mem_cons, ih, List.mem_cons]
      constructor
      · rintro (rfl | ⟨he, hk⟩)
        · exact ⟨.inl rfl, h⟩
        · exact ⟨.inr he, hk⟩
      · rintro ⟨rfl | he, hk⟩
        · exact .inl rfl
        · exact .inr ⟨he, hk⟩

theorem nodup_keys_without {k : K} {es : List (K × V)} (h : (es.map (·.1)).Nodup) :
    ((without k es).map (·.1)).Nodup := by
  induction es with
  | nil => exact h
  | cons e es ih =>
    obtain ⟨hmem, htail⟩ := List.nodup_cons.mp h
    rw [without]
    split
    · exact ih htail
    · refine List.nodup_cons.mpr ⟨?_, ih htail⟩
      intro hin
      obtain ⟨a, ha, hea⟩ := List.mem_map.mp hin
      exact hmem (List.mem_map.mpr ⟨a, (mem_without.mp ha).1, hea⟩)

/-- Each key has one entry. -/
def Distinct (t : Table K V) : Prop := t.keys.Nodup

omit [DecidableEq K] in
theorem distinct_empty : (empty : Table K V).Distinct := List.nodup_nil

theorem Distinct.insert {t : Table K V} (h : t.Distinct) (k : K) (v : V) : (t.insert k v).Distinct :=
  nodup_keys_put h

theorem Distinct.erase {t : Table K V} (h : t.Distinct) (k : K) : (t.erase k).Distinct :=
  nodup_keys_without h

theorem mem_of_lookup {k : K} {v : V} {es : List (K × V)} (h : lookup k es = some v) : (k, v) ∈ es := by
  induction es with
  | nil => simp [lookup] at h
  | cons e es ih =>
    rw [lookup] at h
    split at h
    · rename_i hk
      obtain rfl := Option.some.inj h
      subst hk
      exact List.mem_cons_self
    · exact List.mem_cons_of_mem _ (ih h)

theorem lookup_of_mem {k : K} {v : V} {es : List (K × V)} (hes : (es.map (·.1)).Nodup)
    (h : (k, v) ∈ es) : lookup k es = some v := by
  induction es with
  | nil => simp at h
  | cons e es ih =>
    obtain ⟨hmem, htail⟩ := List.nodup_cons.mp hes
    rw [lookup]
    rcases List.mem_cons.mp h with rfl | h
    · simp
    · rw [if_neg, ih htail h]
      rintro rfl
      exact hmem (List.mem_map.mpr ⟨_, h, rfl⟩)

theorem isSome_lookup {k : K} {es : List (K × V)} : (lookup k es).isSome ↔ k ∈ es.map (·.1) := by
  induction es with
  | nil => simp [lookup]
  | cons e es ih =>
    rw [lookup, List.map_cons, List.mem_cons]
    split
    · rename_i hk
      simp [hk]
    · rename_i hk
      rw [ih]
      simp [Ne.symm hk]

theorem contains_iff_mem_keys {t : Table K V} {k : K} : t.contains k = true ↔ k ∈ t.keys :=
  isSome_lookup

theorem map_put_of_eq {A : Type} (f : K × V → A) {k : K} {v w : V} {es : List (K × V)}
    (h : lookup k es = some w) (hf : f (k, v) = f (k, w)) : (put k v es).map f = es.map f := by
  induction es with
  | nil => simp [lookup] at h
  | cons e es ih =>
    obtain ⟨l, u⟩ := e
    rw [lookup] at h
    rw [put]
    split
    · rename_i hk
      rw [if_pos hk] at h
      obtain rfl := Option.some.inj h
      subst hk
      simp [hf]
    · rename_i hk
      rw [if_neg hk] at h
      rw [List.map_cons, List.map_cons, ih h]

theorem keys_insert {t : Table K V} {k : K} (h : t.contains k = true) (v : V) :
    (t.insert k v).keys = t.keys := by
  obtain ⟨w, hw⟩ := Option.isSome_iff_exists.mp h
  exact map_put_of_eq (·.1) hw rfl

theorem mem_values {t : Table K V} (ht : t.Distinct) {v : V} :
    v ∈ t.values ↔ ∃ k, t.get? k = some v := by
  rw [values, List.mem_map]
  constructor
  · rintro ⟨e, he, rfl⟩
    exact ⟨e.1, lookup_of_mem ht he⟩
  · rintro ⟨k, hk⟩
    exact ⟨(k, v), mem_of_lookup hk, rfl⟩

theorem keys_modify (t : Table K V) (k : K) (f : V → V) : (t.modify k f).keys = t.keys := by
  unfold modify keys
  rw [List.map_map]
  apply List.map_congr_left
  intro e _
  dsimp only [Function.comp_apply]
  split
  · rfl
  · rfl

theorem Distinct.modify {t : Table K V} (h : t.Distinct) (k : K) (f : V → V) : (t.modify k f).Distinct := by
  unfold Distinct
  rw [keys_modify]
  exact h

/-! ## Sums -/

section

variable {t : Table K V} {f : V → Nat} {k : K} {v w : V}

omit [DecidableEq K] in
/-- A sum over all values. -/
def total (f : V → Nat) (t : Table K V) : Nat := (t.entries.map fun e => f e.2).sum

theorem sum_put {es : List (K × V)} (h : lookup k es = some w) (f : V → Nat) (v : V) :
    ((put k v es).map fun e => f e.2).sum + f w = (es.map fun e => f e.2).sum + f v := by
  induction es with
  | nil => cases h
  | cons e es ih =>
    obtain ⟨k', v'⟩ := e
    rw [lookup] at h
    rw [put]
    split
    · rename_i hk
      rw [if_pos hk] at h
      obtain rfl := Option.some.inj h
      simp only [List.map_cons, List.sum_cons]
      omega
    · rename_i hk
      rw [if_neg hk] at h
      simp only [List.map_cons, List.sum_cons]
      have := ih h
      omega

theorem sum_put_new {es : List (K × V)} (h : lookup k es = none) (f : V → Nat) (v : V) :
    ((put k v es).map fun e => f e.2).sum = (es.map fun e => f e.2).sum + f v := by
  induction es with
  | nil => simp [put]
  | cons e es ih =>
    obtain ⟨k', v'⟩ := e
    rw [lookup] at h
    rw [put]
    split
    · rename_i hk
      rw [if_pos hk] at h
      cases h
    · rename_i hk
      rw [if_neg hk] at h
      simp only [List.map_cons, List.sum_cons]
      have := ih h
      omega

theorem total_insert (h : t.get? k = some w) (f : V → Nat) (v : V) :
    (t.insert k v).total f + f w = t.total f + f v := sum_put h f v

theorem total_insert_le (t : Table K V) (f : V → Nat) (k : K) (v : V) :
    (t.insert k v).total f ≤ t.total f + f v := by
  cases h : t.get? k with
  | none => exact Nat.le_of_eq (sum_put_new h f v)
  | some w =>
    have := total_insert h f v
    omega

theorem map_of_not_mem {es : List (K × V)} (h : k ∉ es.map (·.1)) (g : V → V) :
    (es.map fun e => if e.1 = k then (e.1, g e.2) else e) = es := by
  conv_rhs => rw [← List.map_id es]
  apply List.map_congr_left
  intro e he
  rw [if_neg]
  · rfl
  · rintro rfl
    exact h (List.mem_map_of_mem he)

theorem map_eq_put {es : List (K × V)} (hes : (es.map (·.1)).Nodup) (h : lookup k es = some v) (g : V → V) :
    (es.map fun e => if e.1 = k then (e.1, g e.2) else e) = put k (g v) es := by
  induction es with
  | nil => cases h
  | cons e es ih =>
    obtain ⟨k', v'⟩ := e
    obtain ⟨hnot, hrest⟩ := List.nodup_cons.mp hes
    rw [lookup] at h
    rw [List.map_cons, put]
    by_cases hk : k' = k
    · subst hk
      rw [if_pos rfl] at h
      obtain rfl := Option.some.inj h
      rw [if_pos rfl, if_pos rfl, map_of_not_mem hnot]
    · rw [if_neg hk] at h
      rw [if_neg hk, if_neg hk, ih hrest h]

theorem modify_eq_insert (ht : t.Distinct) (h : t.get? k = some v) (g : V → V) :
    t.modify k g = t.insert k (g v) := congrArg mk (map_eq_put ht h g)

theorem total_modify_of_eq {g : V → V} (hg : ∀ v, f (g v) = f v) (t : Table K V) (k : K) :
    (t.modify k g).total f = t.total f := by
  unfold total modify
  rw [List.map_map]
  congr 1
  apply List.map_congr_left
  intro e _
  dsimp only [Function.comp_apply]
  split
  · exact hg e.2
  · rfl

end

/-! ## Sizes -/

omit [DecidableEq K] in
theorem size_eq_total (t : Table K V) : t.size = t.total fun _ => 1 := by
  simp [size, total]

theorem size_insert_new {t : Table K V} {k : K} (h : t.get? k = none) (v : V) :
    (t.insert k v).size = t.size + 1 := by
  rw [size_eq_total, size_eq_total]
  exact sum_put_new h (fun _ => 1) v

theorem length_without {k : K} {es : List (K × V)} (hes : (es.map (·.1)).Nodup) (hk : k ∈ es.map (·.1)) :
    (without k es).length + 1 = es.length := by
  induction es with
  | nil => cases hk
  | cons e es ih =>
    obtain ⟨hnot, hrest⟩ := List.nodup_cons.mp hes
    rw [without]
    split
    · rename_i he
      have hlookup : (mk es).get? k = none := by
        rw [← Option.not_isSome_iff_eq_none, get?, isSome_lookup]
        exact he ▸ hnot
      have hsame : without k es = es := congrArg entries (erase_of_get?_eq_none hlookup)
      rw [hsame, List.length_cons]
    · rename_i he
      have htail := (List.mem_cons.mp hk).resolve_left (Ne.symm he)
      rw [List.length_cons, List.length_cons, ih hrest htail]

theorem size_erase {t : Table K V} (ht : t.Distinct) {k : K} (h : t.contains k = true) :
    (t.erase k).size + 1 = t.size := length_without ht (contains_iff_mem_keys.mp h)

end ClusterNet.Table
