import ClusterNet.Listeners

/-!
# Posting events

Listeners are programs. While one is asked about an event or told of it, it may add and remove listeners,
post a smaller event on the same registry, look at what the listeners share and change it, and break off
anywhere. An event goes to the listeners that were registered when it was posted, and one that breaks off
is skipped.
-/

namespace ClusterNet.Posting

/-- A program that uses a registry and a memory. It posts only events whose rank is below its bound, and
the listeners that it adds only events of a rank below the one that they handle. -/
inductive Script (M : Type) {E : Type} (rank : E → Nat) : Nat → Type where
  | done {bound : Nat} (answer : Bool) : Script M rank bound
  | breakOff {bound : Nat} : Script M rank bound
  | look {bound : Nat} (next : M → Script M rank bound) : Script M rank bound
  | remember {bound : Nat} (m : M) (next : Script M rank bound) : Script M rank bound
  /-- Adds a listener that does so when it is asked about an event, and when it is told of one. -/
  | add {bound : Nat} (asked told : (e : E) → Script M rank (rank e))
      (next : ListenerId → Script M rank bound) : Script M rank bound
  | remove {bound : Nat} (id : ListenerId) (next : Bool → Script M rank bound) : Script M rank bound
  | post {bound : Nat} (e : E) (smaller : rank e < bound) (next : Script M rank bound) :
      Script M rank bound

structure Listener (M : Type) {E : Type} (rank : E → Nat) where
  /-- Answers whether the listener wants the event. -/
  asked : (e : E) → Script M rank (rank e)
  /-- The answer is of no interest. -/
  told : (e : E) → Script M rank (rank e)

/-- What can happen to a registry and its listeners. -/
inductive Act (L E : Type) where
  | added (id : ListenerId) (l : L)
  | removed (id : ListenerId) (found : Bool)
  | posting (e : E)
  | asked (entry : ListenerId × L) (e : E)
  | answered (id : ListenerId) (e : E) (wanted : Bool)
  | told (entry : ListenerId × L) (e : E)
  /-- A listener broke off, which is reported. -/
  | skipped (id : ListenerId) (e : E)
  /-- The event has gone to everyone. -/
  | posted (e : E)

structure Scene (M : Type) {E : Type} (rank : E → Nat) where
  listeners : Listeners (Listener M rank)
  memory : M
  /-- What happened, the last first. -/
  log : List (Act (Listener M rank) E)

variable {M E : Type} {rank : E → Nat}

namespace Scene

def start (m : M) : Scene M rank := ⟨.empty, m, []⟩

/-- What happened, in order. -/
def acts (s : Scene M rank) : List (Act (Listener M rank) E) := s.log.reverse

def record (s : Scene M rank) (a : Act (Listener M rank) E) : Scene M rank := { s with log := a :: s.log }

def add (s : Scene M rank) (l : Listener M rank) : ListenerId × Scene M rank :=
  let (id, listeners) := s.listeners.add l
  (id, { s with listeners }.record (.added id l))

def remove (s : Scene M rank) (id : ListenerId) : Bool × Scene M rank :=
  let (found, listeners) := s.listeners.remove id
  (found, { s with listeners }.record (.removed id found))

end Scene

/-- Runs a program up to its answer, if it gives one. -/
def Script.run : {bound : Nat} → ((e : E) → rank e < bound → Scene M rank → Scene M rank) →
    Script M rank bound → Scene M rank → Option Bool × Scene M rank
  | _, _, .done answer, s => (some answer, s)
  | _, _, .breakOff, s => (none, s)
  | _, nested, .look next, s => (next s.memory).run nested s
  | _, nested, .remember m next, s => next.run nested { s with memory := m }
  | _, nested, .add asked told next, s =>
    let (id, s) := s.add ⟨asked, told⟩
    (next id).run nested s
  | _, nested, .remove id next, s =>
    let (found, s) := s.remove id
    (next found).run nested s
  | _, nested, .post e smaller next, s => next.run nested (nested e smaller s)

namespace Scene

section

variable (e : E) (nested : (e' : E) → rank e' < rank e → Scene M rank → Scene M rank)

def ask (entry : ListenerId × Listener M rank) (s : Scene M rank) : Option Bool × Scene M rank :=
  (entry.2.asked e).run nested (s.record (.asked entry e))

def tell (entry : ListenerId × Listener M rank) (s : Scene M rank) : Option Bool × Scene M rank :=
  (entry.2.told e).run nested (s.record (.told entry e))

/-- Asks a listener, and tells it if it wants the event. -/
def deliver (s : Scene M rank) (entry : ListenerId × Listener M rank) : Scene M rank :=
  match s.ask e nested entry with
  | (none, s) => s.record (.skipped entry.1 e)
  | (some false, s) => s.record (.answered entry.1 e false)
  | (some true, s) =>
    match (s.record (.answered entry.1 e true)).tell e nested entry with
    | (none, s) => s.record (.skipped entry.1 e)
    | (some _, s) => s

/-- Delivers to everyone who is registered now. -/
def deliverAll (s : Scene M rank) : Scene M rank := s.listeners.entries.foldl (deliver e nested) s

end

def post (e : E) (s : Scene M rank) : Scene M rank :=
  ((s.record (.posting e)).deliverAll e fun e' _ => post e').record (.posted e)
termination_by rank e

end Scene

/-- Runs a program that is nobody's listener. -/
def Script.exec {bound : Nat} (p : Script M rank bound) (s : Scene M rank) : Option Bool × Scene M rank :=
  p.run (fun e _ => Scene.post e) s

/-- Runs one program after another. -/
def Scene.execAll (s : Scene M rank) (ps : List (Sigma (Script M rank))) : Scene M rank :=
  ps.foldl (fun s p => (p.2.exec s).2) s

end ClusterNet.Posting
