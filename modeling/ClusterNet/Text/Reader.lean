/-!
# Readers

A reader takes what it wants from the front of a text and returns the rest.
-/

namespace ClusterNet.Text

abbrev Reader (α : Type) := List Char → Option (α × List Char)

/-! ## Digits -/

def digitValue? (c : Char) : Option Nat :=
  if '0' ≤ c ∧ c ≤ '9' then some (c.toNat - 48) else none

def octalValue? (c : Char) : Option Nat :=
  if '0' ≤ c ∧ c ≤ '7' then some (c.toNat - 48) else none

def bitValue? (c : Char) : Option Nat :=
  if c = '0' then some 0 else if c = '1' then some 1 else none

def hexValue? (c : Char) : Option Nat :=
  if '0' ≤ c ∧ c ≤ '9' then some (c.toNat - 48)
  else if 'a' ≤ c ∧ c ≤ 'f' then some (c.toNat - 87)
  else if 'A' ≤ c ∧ c ≤ 'F' then some (c.toNat - 55)
  else none

/-- All the digits at the front, as numbers, and the rest. -/
def spanDigits (digit : Char → Option Nat) : List Char → List Nat × List Char
  | [] => ([], [])
  | c :: cs =>
    match digit c with
    | some d => let (ds, rest) := spanDigits digit cs; (d :: ds, rest)
    | none => ([], c :: cs)

def valueOf (radix : Nat) (ds : List Nat) : Nat := ds.foldl (fun v d => radix * v + d) 0

/-- One to `most` digits. More digits are no number, and neither is an empty run. -/
def digits (digit : Char → Option Nat) (most : Nat) : Reader (List Nat) := fun cs =>
  let (ds, rest) := spanDigits digit cs
  if ds.isEmpty || most < ds.length then none else some (ds, rest)

/-- A number of exactly `width` decimal digits; others may follow. -/
def fixedDigits (width : Nat) : Reader Nat := fun cs =>
  match (cs.take width).mapM digitValue? with
  | some ds => if ds.length = width then some (valueOf 10 ds, cs.drop width) else none
  | none => none

/-! ## Combining readers -/

def char (c : Char) : Reader Unit
  | [] => none
  | x :: rest => if x = c then some ((), rest) else none

/-- One of some characters. -/
def oneOf (allowed : List Char) : Reader Char
  | [] => none
  | x :: rest => if allowed.contains x then some (x, rest) else none

/-- A fixed text. -/
def word (expected : List Char) : Reader Unit := fun cs =>
  if expected.isPrefixOf cs then some ((), cs.drop expected.length) else none

/-- What the reader takes, or nothing at all. -/
def optional {α : Type} (r : Reader α) : Reader (Option α) := fun cs =>
  match r cs with
  | some (a, rest) => some (some a, rest)
  | none => some (none, cs)

/-- The first reader that takes something. -/
def either {α : Type} (r s : Reader α) : Reader α := fun cs => (r cs).or (s cs)

/-- What a reader makes of a text when it takes all of it. -/
def whole {α : Type} (r : Reader α) (cs : List Char) : Option α :=
  match r cs with
  | some (x, []) => some x
  | _ => none

end ClusterNet.Text
