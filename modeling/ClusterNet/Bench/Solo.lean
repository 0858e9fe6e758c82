import ClusterNet.Bench.Network
import ClusterNet.Messaging.Service

/-!
# Solitary nodes on the bench

Nodes with messaging services on one host. They share its ports, and each can reach itself;
whatever else a message is for, nobody is there.
-/

namespace ClusterNet.Bench

open Messaging

/-- A node with a messaging service. -/
class Solitary (N : Type) extends Receiver N where
  service : N → Service
  setService : N → Service → N

structure Lone (N : Type) where
  node : N
  /-- What the node wants to have sent as soon as there is time. -/
  outbox : List Outgoing
  nextCall : CallKey

structure Solo (N : Type) where
  nodes : Table String (Lone N)
  ports : Ports

variable {N : Type} [Solitary N]

namespace Lone

def ofNode (n : N) : Lone N := ⟨n, [], 0⟩

def service (l : Lone N) : Service := Solitary.service l.node

def setService (l : Lone N) (s : Service) : Lone N :=
  { l with node := Solitary.setService l.node s }

/-- A message sets out: the request, if it goes to the node itself. -/
def depart (l : Lone N) (m : Outgoing) : Except Failure Wire.Request × Lone N :=
  let (r, s) := l.service.request m
  (match r, s.wayTo m.goal with
    | .ok r, .inside => .ok r
    | .ok _, .outside => .error (.connect m.goal .unreachable)
    | .error f, _ => .error f, l.setService s)

/-- The node takes in a request. -/
def receive (l : Lone N) (r : Wire.Request) : Handlers × Lone N :=
  let (reaction, node) := Receiver.receive l.node r
  (Receiver.handlers r reaction, { l with node })

/-- Sends a message for which no reply is expected. -/
def send (now : Nat) (m : Outgoing) (l : Lone N) : Except Failure Unit × Lone N :=
  match l.depart m with
  | (.error f, l) => (.error f, l)
  | (.ok r, l) =>
    let (handlers, l) := l.receive r
    let (result, s) := l.service.sendInside handlers now r
    (result, l.setService s)

/-- Starts a call. -/
def begin (now : Nat) (m : Outgoing) (ms : Nat) (l : Lone N) : Except Failure CallKey × Lone N :=
  match l.depart m with
  | (.error f, l) => (.error f, l)
  | (.ok r, l) =>
    let (handlers, l) := l.receive r
    (.ok l.nextCall,
      { l.setService (l.service.callInside handlers now l.nextCall r ms) with
        nextCall := l.nextCall + 1 })

/-- A step of the node: a message goes out, a job or a call goes on, or the node does what its
time has come for. -/
def move? (now : Nat) (l : Lone N) : Option (Lone N) :=
  match l.outbox with
  | m :: rest => some ({ l with outbox := rest }.send now m).2
  | [] =>
    let link := l.service.link
    let job := link.jobs.keys.findSome? fun k => link.work? k now
    match job.orElse fun _ => link.calls.keys.findSome? fun k => link.proceed? k now with
    | some link => some (l.setService { l.service with link })
    | none => (Receiver.stir? l.node now).map fun (node, outbox) => { l with node, outbox }

def dues (l : Lone N) : List Nat :=
  l.service.link.jobs.values.filterMap LocalLink.due? ++
    l.service.link.calls.values.filterMap Call.due? ++ Receiver.dues l.node

end Lone

namespace Solo

def empty : Solo N := ⟨.empty, .start⟩

def put (name : String) (n : N) (s : Solo N) : Solo N :=
  { s with nodes := s.nodes.insert name (.ofNode n) }

/-- The first node that can take a step takes one. -/
def move? (now : Nat) (s : Solo N) : Option (Solo N) :=
  s.nodes.entries.findSome? fun (name, l) =>
    (l.move? now).map fun l => { s with nodes := s.nodes.insert name l }

def machine : Machine (Solo N) where
  move? := move?
  dues s := s.nodes.values.flatMap Lone.dues

abbrev Run (N : Type) := Timed (Solo N)

def node? (t : Run N) (name : String) : Option N := (t.state.nodes.get? name).map (·.node)

def change (name : String) (f : Lone N → Lone N) (t : Run N) : Run N :=
  { t with state := { t.state with nodes := t.state.nodes.modify name f } }

/-- Something happens at a node, which may want to have something sent then. -/
def act {A : Type} (name : String) (r : A × N × List Outgoing) (t : Run N) : A × Run N :=
  (r.1, change name (fun l => { l with node := r.2.1, outbox := l.outbox ++ r.2.2 }) t)

/-- Sends a message for which no reply is expected. -/
def send (name : String) (m : Outgoing) (t : Run N) : Except Failure Unit × Run N :=
  match t.state.nodes.get? name with
  | none => (.error .notRunning, t)
  | some l =>
    let (r, l) := l.send t.now m
    (r, change name (fun _ => l) t)

/-- Starts a call. -/
def begin (name : String) (m : Outgoing) (ms : Nat) (t : Run N) : Except Failure CallKey × Run N :=
  match t.state.nodes.get? name with
  | none => (.error .notRunning, t)
  | some l =>
    let (r, l) := l.begin t.now m ms
    (r, change name (fun _ => l) t)

/-- Waits for what a call comes to. -/
def finish (name : String) (r : Except Failure CallKey) (t : Run N) : Outcome × Run N :=
  match r with
  | .error f => (.error f, t)
  | .ok k =>
    let outcome? (s : Solo N) : Option Outcome :=
      (s.nodes.get? name).bind fun l => (l.service.link.calls.get? k).bind Call.outcome?
    let (o, t) := machine.await outcome? Machine.patience t
    (o.getD (.error .connectionClosed), t)

/-- Sends a request and waits for what it comes to. -/
def call (name : String) (m : Outgoing) (ms : Nat) (t : Run N) : Outcome × Run N :=
  let (r, t) := begin name m ms t
  finish name r t

/-- Some node has started or stopped to listen. -/
def setPorts (p : Ports) (t : Run N) : Run N := { t with state := { t.state with ports := p } }

/-- A node that may have listened does so no longer. -/
def vacate (name : String) (t : Run N) : Run N :=
  match node? t name with
  | some n => setPorts ((Solitary.service n).vacate t.state.ports) t
  | none => t

end Solo

end ClusterNet.Bench
