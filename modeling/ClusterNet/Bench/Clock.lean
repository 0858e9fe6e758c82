/-!
# Virtual time

A machine that runs by itself: it makes one move after the other until every part of it
waits, and only then does the time go on, to the next moment that something waits for.
-/

namespace ClusterNet.Bench

structure Machine (S : Type) where
  /-- The next move at a given time, if there is one. -/
  move? : (now : Nat) → S → Option S
  /-- The moments that something waits for. -/
  dues : S → List Nat

/-- A machine at a moment, in milliseconds. -/
structure Timed (S : Type) where
  now : Nat
  state : S

namespace Machine

variable {S : Type}

/-- Makes moves until there are none, or until enough of them were made. -/
def run (m : Machine S) (now : Nat) : (moves : Nat) → S → S
  | 0, s => s
  | moves + 1, s =>
    match m.move? now s with
    | some s' => m.run now moves s'
    | none => s

/-- More moves than a script ever needs between two moments. -/
def patience : Nat := 10000000

def settle (m : Machine S) (t : Timed S) : Timed S :=
  { t with state := m.run t.now patience t.state }

/-- The next moment that something waits for. -/
def next? (m : Machine S) (t : Timed S) : Option Nat := ((m.dues t.state).filter (t.now < ·)).min?

/-- Lets the time go on up to a moment. What waits for that very moment has its turn later. -/
def sleepUntil (m : Machine S) (target : Nat) : (rounds : Nat) → Timed S → Timed S
  | 0, t => { t with now := target }
  | rounds + 1, t =>
    let t := m.settle t
    match m.next? t with
    | some due =>
      if due < target then m.sleepUntil target rounds { t with now := due }
      else { t with now := target }
    | none => { t with now := target }

/-- Lets some time go by. -/
def sleep (m : Machine S) (ms : Nat) (t : Timed S) : Timed S := m.sleepUntil (t.now + ms) patience t

/-- Goes on until something can be seen, or until nothing waits for the clock any more. -/
def await {A : Type} (m : Machine S) (look : S → Option A) :
    (rounds : Nat) → Timed S → Option A × Timed S
  | 0, t => (none, t)
  | rounds + 1, t =>
    let t := m.settle t
    match look t.state with
    | some a => (some a, t)
    | none =>
      match m.next? t with
      | some due => m.await look rounds { t with now := due }
      | none => (none, t)

end Machine

end ClusterNet.Bench
