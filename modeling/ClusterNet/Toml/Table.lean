import ClusterNet.Toml.Value

/-!
# Tables under construction

While a document is read, each table remembers how it came about. A table that a header
opened is complete and cannot be opened again; one that a longer header only passed through
can still be opened once; one that a dotted key made can be extended by dotted keys.
-/

namespace ClusterNet.Toml

inductive Origin where
  | opened
  | passed
  | dotted
  deriving DecidableEq, Repr

inductive Item where
  /-- A value. Inline tables and arrays are values and cannot be extended. -/
  | value (v : Value)
  | table (origin : Origin) (entries : List (String × Item))
  /-- An array of tables: those that are complete, and the last one. -/
  | tables (before : List (List (String × Item))) (last : List (String × Item))

abbrev Entries := List (String × Item)

namespace Entries

def get? (k : String) : Entries → Option Item
  | [] => none
  | (k', i) :: rest => if k' = k then some i else get? k rest

/-- Replaces what a key has. -/
def set (k : String) (i : Item) (es : Entries) : Entries :=
  es.map fun e => if e.1 = k then (k, i) else e

def remove (k : String) (es : Entries) : Entries := es.filter fun e => e.1 ≠ k

end Entries

/-! ## Assignments -/

/-- Assigns a value to a key that has none. Tables on the way are made, or were made by dotted
keys; one that a header opened is not extended from outside. -/
def assign : (path : List String) → String → Value → Entries → Option Entries
  | [], k, v, es => if (es.get? k).isSome then none else some (es ++ [(k, .value v)])
  | p :: path, k, v, es =>
    match es.get? p with
    | none => do some (es ++ [(p, .table .dotted (← assign path k v []))])
    | some (.table origin sub) =>
      if origin = .opened ∨ (path = [] ∧ origin ≠ .dotted) then none
      else do some (es.set p (.table origin (← assign path k v sub)))
    | some (.tables before last) =>
      if path = [] then none
      else do some (es.set p (.tables before (← assign path k v last)))
    | some (.value _) => none

/-- Makes assignments one after the other. -/
def fill (es : Entries) : List (List String × String × Value) → Option Entries
  | [] => some es
  | (path, k, v) :: rest => (assign path k v es).bind fun es => fill es rest

/-! ## Headers -/

/-- Changes the table that a path leads to. Tables on the way are made if need be, and of an
array of tables the last one is taken. -/
def under : (path : List String) → (Entries → Option Entries) → Entries → Option Entries
  | [], f, es => f es
  | p :: path, f, es =>
    match es.get? p with
    | none => do some (es ++ [(p, .table .passed (← under path f []))])
    | some (.table origin sub) => do some (es.set p (.table origin (← under path f sub)))
    | some (.tables before last) => do some (es.set p (.tables before (← under path f last)))
    | some (.value _) => none

/-- Opens a table and fills it. It comes to stand at the end, even if a longer header passed
through it before. -/
def openTable (k : String) (body : List (List String × String × Value)) (es : Entries) :
    Option Entries :=
  match es.get? k with
  | none => do some (es ++ [(k, .table .opened (← fill [] body))])
  | some (.table .passed sub) => do some (es.remove k ++ [(k, .table .opened (← fill sub body))])
  | some _ => none

/-- Adds one more table to an array of tables. -/
def addTable (k : String) (body : List (List String × String × Value)) (es : Entries) :
    Option Entries :=
  match es.get? k with
  | none => do some (es ++ [(k, .tables [] (← fill [] body))])
  | some (.tables before last) => do some (es.set k (.tables (before ++ [last]) (← fill [] body)))
  | some _ => none

/-! ## The finished document -/

mutual

/-- The value that an item stands for. -/
def Item.finished : Item → Value
  | .value v => v
  | .table _ es => .table (values es)
  | .tables before last => .array (tableValues before ++ [.table (values last)])

def values : Entries → List (String × Value)
  | [] => []
  | (k, i) :: rest => (k, i.finished) :: values rest

def tableValues : List Entries → List Value
  | [] => []
  | es :: rest => .table (values es) :: tableValues rest

end

end ClusterNet.Toml
