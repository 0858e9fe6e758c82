/-!
# Tables

Finite maps as lists of entries. A key has at most one entry; a new key goes to the end, and
a value that replaces another takes its place.
-/

namespace ClusterNet

structure Table (K V : Type) where
  entries : List (K × V)
  deriving Repr

namespace Table

variable {K V : Type}

instance [BEq K] [BEq V] : BEq (Table K V) := ⟨fun a b => a.entries == b.entries⟩

def empty : Table K V := ⟨[]⟩

instance : Inhabited (Table K V) := ⟨empty⟩

def keys (t : Table K V) : List K := t.entries.map (·.1)

def values (t : Table K V) : List V := t.entries.map (·.2)

def size (t : Table K V) : Nat := t.entries.length

variable [DecidableEq K]

def lookup (k : K) : List (K × V) → Option V
  | [] => none
  | (k', v) :: rest => if k' = k then some v else lookup k rest

def get? (t : Table K V) (k : K) : Option V := lookup k t.entries

def contains (t : Table K V) (k : K) : Bool := (t.get? k).isSome

def put (k : K) (v : V) : List (K × V) → List (K × V)
  | [] => [(k, v)]
  | (k', v') :: rest => if k' = k then (k, v) :: rest else (k', v') :: put k v rest

def insert (t : Table K V) (k : K) (v : V) : Table K V := ⟨put k v t.entries⟩

def without (k : K) : List (K × V) → List (K × V)
  | [] => []
  | e :: rest => if e.1 = k then without k rest else e :: without k rest

def erase (t : Table K V) (k : K) : Table K V := ⟨without k t.entries⟩

/-- Changes the value of a key, if it has one. -/
def modify (t : Table K V) (k : K) (f : V → V) : Table K V :=
  ⟨t.entries.map fun e => if e.1 = k then (e.1, f e.2) else e⟩

def insertAll (t : Table K V) (es : List (K × V)) : Table K V :=
  es.foldl (fun t e => t.insert e.1 e.2) t

@[simp] theorem get?_empty (k : K) : (empty : Table K V).get? k = none := rfl

theorem lookup_put_self (k : K) (v : V) (es : List (K × V)) : lookup k (put k v es) = some v := by
  induction es with
  | nil => simp [put, lookup]
  | cons e es ih =>
    by_cases h : e.1 = k <;> simp [put, lookup, h, ih]

theorem lookup_put_of_ne {k l : K} (h : l ≠ k) (v : V) (es : List (K × V)) :
    lookup l (put k v es) = lookup l es := by
  induction es with
  | nil => simp [put, lookup, Ne.symm h]
  | cons e es ih =>
    by_cases he : e.1 = k
    · simp [put, lookup, he, Ne.symm h]
    · simp [put, lookup, he, ih]

@[simp] theorem get?_insert_self (t : Table K V) (k : K) (v : V) :
    (t.insert k v).get? k = some v := lookup_put_self k v t.entries

theorem get?_insert_of_ne (t : Table K V) {k l : K} (h : l ≠ k) (v : V) :
    (t.insert k v).get? l = t.get? l := lookup_put_of_ne h v t.entries

theorem lookup_without_self (k : K) (es : List (K × V)) : lookup k (without k es) = none := by
  induction es with
  | nil => rfl
  | cons e es ih => by_cases h : e.1 = k <;> simp [without, lookup, h, ih]

theorem lookup_without_of_ne {k l : K} (h : l ≠ k) (es : List (K × V)) :
    lookup l (without k es) = lookup l es := by
  induction es with
  | nil => rfl
  | cons e es ih =>
    by_cases he : e.1 = k
    · simp [without, lookup, he, Ne.symm h, ih]
    · simp [without, lookup, he, ih]

@[simp] theorem get?_erase_self (t : Table K V) (k : K) : (t.erase k).get? k = none :=
  lookup_without_self k t.entries

theorem get?_erase_of_ne (t : Table K V) {k l : K} (h : l ≠ k) :
    (t.erase k).get? l = t.get? l := lookup_without_of_ne h t.entries

end Table

end ClusterNet
