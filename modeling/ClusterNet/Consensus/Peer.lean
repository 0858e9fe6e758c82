import ClusterNet.Cluster.Failure
import ClusterNet.Consensus.Engine
import ClusterNet.Messaging.Handler
import ClusterNet.Messaging.Outgoing
import ClusterNet.TextSet

/-!
# Peers

A peer serves the verbs under their subjects until it is closed, and calls the verbs of other
peers. What it calls and how it is answered is typed; on the way both are JSON.
-/

namespace ClusterNet.Consensus

open Json Messaging

/-- What a node does with messages of a subject. -/
inductive Duty where
  | verb (v : Verb)
  /-- A handler of the application. -/
  | handler (h : Handler)

structure Peer (S : Type) where
  engine : Engine
  files : FileService S
  storage : S
  /-- What the node does, by subject. -/
  duties : Table String Duty
  closed : Bool

/-- Serves a verb: the request is read, and the answer is written. -/
def Verb.serve (v : Verb) (f : v.Request → Answer v.Reply) (b : Bytes) : Nat × Effort :=
  match (Form.ofBytes? b : Option v.Request) with
  | none => (0, .failed "malformed request")
  | some r =>
    match f r with
    | ⟨ms, some reply⟩ => (ms, .returned (Form.bytes reply))
    | ⟨ms, none⟩ => (ms, .brokeOff)

namespace Peer

variable {S : Type}

/-- A peer that serves all verbs. -/
def start (engine : Engine) (files : FileService S) (storage : S) : Peer S :=
  let duties := Table.empty.insertAll (Verb.all.map fun v => (v.subject, .verb v))
  ⟨engine, files, storage, duties, false⟩

/-- Stops serving. What is closed already stays as it is. -/
def close (p : Peer S) : Peer S :=
  if p.closed then p
  else { p with
    closed := true
    duties := Verb.all.foldl (fun t v => t.erase v.subject) p.duties }

/-- The subjects that the node serves, in order. -/
def subjects (p : Peer S) : List String := (TextSet.ofList p.duties.keys).items

/-- The handler of a verb, as the peer is now. -/
def handler (p : Peer S) (v : Verb) : Handler :=
  .ofWork v.subject fun _ b => some (v.serve (p.engine.answer p.files p.storage v) b)

/-- All handlers, as the peer is now. -/
def handlers (p : Peer S) : Handlers :=
  ⟨p.duties.entries.map fun (subject, d) =>
    (subject, match d with
      | .verb v => p.handler v
      | .handler h => h)⟩

end Peer

namespace Verb

/-- A call of a verb. -/
def outgoing (v : Verb) (goal : Address) (r : v.Request) : Outgoing :=
  ⟨goal, v.subject, Form.bytes r⟩

/-- What a call comes to. -/
def result (v : Verb) : Outcome → Except Cluster.Failure v.Reply
  | .error f => .error (.messaging f)
  | .ok b =>
    match (Form.ofBytes? b : Option v.Reply) with
    | some r => .ok r
    | none => .error .serialization

end Verb

end ClusterNet.Consensus
