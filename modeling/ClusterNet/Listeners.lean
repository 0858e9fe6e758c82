/-!
# Listener registries

A registry keeps its listeners in the order in which they came. Each gets an id, and no id
is given twice.
-/

namespace ClusterNet

/-- The id of a registered listener. Ids are counted without an end, as they can be in words for the
first 2 ^ 64 of them. -/
abbrev ListenerId := Nat

structure Listeners (L : Type) where
  entries : List (ListenerId × L)
  nextId : ListenerId

namespace Listeners

variable {L : Type}

def empty : Listeners L := ⟨[], 1⟩

instance : Inhabited (Listeners L) := ⟨empty⟩

def ids (r : Listeners L) : List ListenerId := r.entries.map (·.1)

def size (r : Listeners L) : Nat := r.entries.length

def isEmpty (r : Listeners L) : Bool := r.entries.isEmpty

/-- Registers a listener at the end and gives its id. -/
def add (r : Listeners L) (l : L) : ListenerId × Listeners L :=
  (r.nextId, ⟨r.entries ++ [(r.nextId, l)], r.nextId + 1⟩)

/-- Removes a listener, and says whether it was there. -/
def remove (r : Listeners L) (id : ListenerId) : Bool × Listeners L :=
  (r.ids.contains id, ⟨r.entries.filter fun e => e.1 != id, r.nextId⟩)

/-- Removes a listener if there is one. -/
def removeSome (r : Listeners L) : Option ListenerId → Listeners L
  | some id => (r.remove id).2
  | none => r

/-- The listeners that an event posted now is delivered to. -/
def snapshot (r : Listeners L) : List L := r.entries.map (·.2)

end Listeners

end ClusterNet
