/-!
# Sets of texts

A set is the strictly increasing list of its members, so equal sets are equal lists.
-/

namespace ClusterNet

structure TextSet where
  items : List String
  increasing : items.Pairwise (· < ·)

namespace TextSet

instance : DecidableEq TextSet := fun a b =>
  if h : a.items = b.items then
    isTrue (by cases a; cases b; simp_all)
  else isFalse (fun e => h (e ▸ rfl))

def empty : TextSet := ⟨[], .nil⟩

instance : Inhabited TextSet := ⟨empty⟩

/-- Puts a text where it belongs. -/
def put (s : String) : List String → List String
  | [] => [s]
  | t :: rest => if s < t then s :: t :: rest else if s = t then t :: rest else t :: put s rest

theorem mem_put {x s : String} {l : List String} : x ∈ put s l ↔ x = s ∨ x ∈ l := by
  induction l with
  | nil => simp [put]
  | cons t rest ih =>
    simp only [put]
    split
    · simp
    · split
      · rename_i h
        simp [h]
      · simp only [List.mem_cons, ih]
        constructor
        · rintro (h | h | h) <;> simp [h]
        · rintro (h | h | h) <;> simp [h]

theorem lt_of_not_lt_of_ne {s t : String} (h : ¬ s < t) (h' : s ≠ t) : t < s := by
  rcases Decidable.em (t < s) with h2 | h2
  · exact h2
  · exact absurd (String.le_antisymm (String.not_lt.1 h2) (String.not_lt.1 h)) h'

theorem increasing_put (s : String) {l : List String} (h : l.Pairwise (· < ·)) :
    (put s l).Pairwise (· < ·) := by
  induction l with
  | nil => simp [put]
  | cons t rest ih =>
    rw [List.pairwise_cons] at h
    simp only [put]
    split
    · rename_i hs
      refine List.pairwise_cons.2 ⟨fun x hx => ?_, List.pairwise_cons.2 h⟩
      rcases List.mem_cons.1 hx with rfl | hx
      · exact hs
      · exact String.lt_trans hs (h.1 x hx)
    · rename_i hs
      split
      · exact List.pairwise_cons.2 h
      · rename_i hne
        refine List.pairwise_cons.2 ⟨fun x hx => ?_, ih h.2⟩
        rcases mem_put.1 hx with rfl | hx
        · exact lt_of_not_lt_of_ne hs hne
        · exact h.1 x hx

def insert (t : TextSet) (s : String) : TextSet := ⟨put s t.items, increasing_put s t.increasing⟩

def ofList (l : List String) : TextSet := l.foldl insert empty

def contains (t : TextSet) (s : String) : Bool := t.items.contains s

theorem contains_iff {t : TextSet} {s : String} : t.contains s = true ↔ s ∈ t.items := by
  rw [contains, List.contains_iff_mem]

theorem mem_foldl_insert {x : String} {l : List String} {t : TextSet} :
    x ∈ (l.foldl insert t).items ↔ x ∈ t.items ∨ x ∈ l := by
  induction l generalizing t with
  | nil => simp
  | cons s l ih =>
    rw [List.foldl_cons, ih, insert, mem_put, List.mem_cons]
    constructor
    · rintro ((h | h) | h) <;> simp [h]
    · rintro (h | h | h) <;> simp [h]

theorem mem_ofList {x : String} {l : List String} : x ∈ (ofList l).items ↔ x ∈ l := by
  have h := mem_foldl_insert (x := x) (l := l) (t := empty)
  simpa [ofList, empty] using h

theorem put_of_forall_lt {s : String} {l : List String} (h : ∀ x ∈ l, x < s) : put s l = l ++ [s] := by
  induction l with
  | nil => rfl
  | cons t l ih =>
    have ht : t < s := h t List.mem_cons_self
    have hlt : ¬ s < t := fun h' => String.lt_irrefl s (String.lt_trans h' ht)
    have hne : s ≠ t := fun h' => String.lt_irrefl s (h' ▸ ht)
    rw [put, if_neg hlt, if_neg hne, ih fun x hx => h x (List.mem_cons_of_mem t hx), List.cons_append]

theorem ext {t u : TextSet} (h : t.items = u.items) : t = u := by
  cases t
  cases u
  obtain rfl := h
  rfl

theorem items_foldl_insert {l : List String} {t : TextSet} (h : (t.items ++ l).Pairwise (· < ·)) :
    (l.foldl insert t).items = t.items ++ l := by
  induction l generalizing t with
  | nil => simp
  | cons s l ih =>
    have hput : (t.insert s).items = t.items ++ [s] := by
      apply put_of_forall_lt
      intro x hx
      exact (List.pairwise_append.mp h).2.2 x hx s List.mem_cons_self
    rw [List.foldl_cons, ih, hput, List.append_assoc, List.singleton_append]
    rwa [hput, List.append_assoc, List.singleton_append]

/-- A set is made up of its members again. -/
theorem ofList_items (t : TextSet) : ofList t.items = t := by
  apply ext
  exact items_foldl_insert t.increasing

end TextSet

end ClusterNet
