import ClusterNet.Listeners.Posting
import ClusterNet.Table

/-!
# Named listeners

Listeners of numbers that know each other by name, and note down what they see.
-/

namespace ClusterNet.Posting

inductive Note where
  | told (name : String) (event : Int)
  | removed (name target : String) (found : Bool)
  deriving DecidableEq, Repr

/-- What named listeners share. -/
structure Notebook where
  /-- The latest id that was given out under each name. -/
  latest : Table String ListenerId
  /-- The last first. -/
  notes : List Note

/-- Whoever handles a number posts only smaller ones, and nothing below zero leads to another. -/
abbrev NamedScript (bound : Nat) := Script Notebook Int.toNat bound

structure NamedListener where
  name : String
  listener : Listener Notebook Int.toNat

namespace Script

variable {bound : Nat}

def note (n : Note) (next : NamedScript bound) : NamedScript bound :=
  .look fun book => .remember { book with notes := n :: book.notes } next

def addNamed (l : NamedListener) (next : NamedScript bound) : NamedScript bound :=
  .add l.listener.asked l.listener.told fun id =>
    .look fun book => .remember { book with latest := book.latest.insert l.name id } next

/-- Removes the listener that was added last under a name, if there ever was one. -/
def removeNamed (name : String) (next : Option Bool → NamedScript bound) : NamedScript bound :=
  .look fun book => match book.latest.get? name with
    | none => next none
    | some id => .remove id fun found => next (some found)

end Script

/-- A registry of named listeners. -/
structure State where
  listeners : Listeners (Listener Notebook Int.toNat)
  latest : Table String ListenerId
  /-- What the listeners noted, the last first. -/
  log : List Note
  /-- What happened, the last first. -/
  past : List (Act (Listener Notebook Int.toNat) Int)

namespace State

def start : State := ⟨.empty, .empty, [], []⟩

def exec {bound : Nat} (s : State) (p : NamedScript bound) : Option Bool × State :=
  let (answer, scene) := p.exec ⟨s.listeners, ⟨s.latest, s.log⟩, s.past⟩
  (answer, ⟨scene.listeners, scene.memory.latest, scene.memory.notes, scene.log⟩)

def add (s : State) (l : NamedListener) : State := (s.exec (.addNamed l (.done true) : NamedScript 0)).2

/-- Removes the latest listener of a name, and says whether it was there. -/
def remove (s : State) (name : String) : Option Bool × State :=
  s.exec (.removeNamed name fun found => found.elim .breakOff .done : NamedScript 0)

def post (e : Int) (s : State) : State :=
  (s.exec (.post e (Nat.lt_succ_self _) (.done true) : NamedScript (e.toNat + 1))).2

end State

end ClusterNet.Posting
