/-!
# Identifiers

An identifier is a text. What it names is part of its type, so that the id of a node is not
taken for the id of a member by accident.
-/

namespace ClusterNet

/-- What an identifier names. -/
inductive Named where
  | node
  | member

structure Identifier (named : Named) where
  text : String
  deriving DecidableEq, Repr, Inhabited

abbrev NodeId := Identifier .node

abbrev MemberId := Identifier .member

namespace Identifier

variable {named : Named}

/-- The identifier with the same text that names something else. -/
def retag {other : Named} (i : Identifier named) : Identifier other := ⟨i.text⟩

instance : LT (Identifier named) := ⟨fun a b => a.text < b.text⟩

instance : LE (Identifier named) := ⟨fun a b => a.text ≤ b.text⟩

instance (a b : Identifier named) : Decidable (a < b) :=
  inferInstanceAs (Decidable (a.text < b.text))

instance (a b : Identifier named) : Decidable (a ≤ b) :=
  inferInstanceAs (Decidable (a.text ≤ b.text))

/-- Identifiers are ordered by their texts, character by character. -/
def compare (a b : Identifier named) : Ordering := Ord.compare a.text b.text

/-- The greater of two identifiers. -/
def max (a b : Identifier named) : Identifier named := if a.compare b = .gt then a else b

def sort (is : List (Identifier named)) : List (Identifier named) :=
  is.mergeSort fun a b => a.compare b != .gt

@[simp] theorem retag_retag {other : Named} (i : Identifier named) :
    ((i.retag : Identifier other).retag : Identifier named) = i := rfl

end Identifier

end ClusterNet
