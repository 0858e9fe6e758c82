import ClusterNet.Bench.Handler
import ClusterNet.Bench.Solo

/-!
# Messaging services on the bench

Nodes that have nothing but a messaging service and the handlers that a script registers.
-/

namespace ClusterNet.Bench

open Messaging

structure Clerk where
  service : Service
  handlers : Handlers
  /-- The messages that were consumed, the last first. -/
  consumed : List Wire.Request

namespace Clerk

/-- A node that will listen at a port of a host. -/
def ofHost (host : String) (port : UInt16) (settings : MessagingSettings) : Clerk :=
  ⟨.ofAddress (Address.ofHost host port) settings, .empty, []⟩

instance : Inhabited Clerk := ⟨.ofHost "" 0 {}⟩

def receive (c : Clerk) (r : Wire.Request) : Option Reaction × Clerk :=
  match c.handlers.get? r.subject with
  | none => (none, c)
  | some h =>
    (some (h.react r), if h.label = "consume" then { c with consumed := r :: c.consumed } else c)

instance : Solitary Clerk where
  receive := receive
  dues _ := []
  stir? _ _ := none
  service c := c.service
  setService c service := { c with service }

abbrev Run := Solo.Run Clerk

def ofNodes (nodes : List (String × Clerk)) : Run :=
  ⟨0, nodes.foldl (fun s (name, c) => s.put name c) .empty⟩

def at_ (t : Run) (name : String) : Clerk := (Solo.node? t name).getD default

def change (name : String) (f : Clerk → Clerk) : Run → Run :=
  Solo.change name fun l => { l with node := f l.node }

def start (name : String) (t : Run) : Except Failure Unit × Run :=
  let (r, service, ports) := (at_ t name).service.start t.state.ports
  (r, Solo.setPorts ports (change name (fun c => { c with service }) t))

def stop (name : String) (t : Run) : Run :=
  change name (fun c => { c with service := c.service.stop }) (Solo.vacate name t)

/-- A new service takes the place of the one that was there, at the port that it had. The one
that was there stays as it is. -/
def restart (name : String) (ofPort : UInt16 → Clerk) (t : Run) : Except Failure Unit × Run :=
  start name (change name (fun c => ofPort c.service.address.port) t)

/-- Sends a message so many times, and tells what became of the last one. -/
def sendMany (name : String) (m : Outgoing) (count : Nat) (t : Run) :
    Option (Except Failure Unit) × Run :=
  (List.range count).foldl (fun (_, t) _ =>
    let (r, t) := Solo.send name m t
    (some r, t)) (none, t)

/-- Calls all at the same time, and waits for one after the other. -/
def callAll (name : String) (ms : List Outgoing) (t : Run) : List Outcome × Run :=
  let patience := (at_ t name).service.patience
  let (begun, t) := ms.foldl (fun (ks, t) m =>
    let (k, t) := Solo.begin name m patience t
    (ks ++ [k], t)) ([], t)
  begun.foldl (fun (os, t) k =>
    let (o, t) := Solo.finish name k t
    (os ++ [o], t)) ([], t)

/-- Calls until that succeeds, so many times at most. -/
def callOften (name : String) (m : Outgoing) (ms : Nat) : (times : Nat) → Run → Outcome × Run
  | 0, t => Solo.call name m ms t
  | times + 1, t =>
    match Solo.call name m ms t with
    | (.ok b, t) => (.ok b, t)
    | (.error _, t) => callOften name m ms times t

/-- What was consumed since the last time. -/
def collect (name : String) (t : Run) : List Wire.Request × Run :=
  ((at_ t name).consumed.reverse, change name (fun c => { c with consumed := [] }) t)

/-- The nodes that listen or have listened, by their addresses. -/
def names (t : Run) : List (String × String) :=
  t.state.nodes.entries.filterMap fun (name, l) =>
    if l.node.service.address.port = 0 then none else some (l.node.service.address.text, name)

end Clerk

end ClusterNet.Bench
