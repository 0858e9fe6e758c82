import ClusterNet.Messaging.Call
import ClusterNet.Messaging.Server

/-!
# Calls within a node

A node that sends to itself needs no channel: its requests go straight to its own handlers,
and a reply goes straight to the call. Only the first reply to a request counts. Closing the
connection stops new calls and leaves the ones that wait as they are.
-/

namespace ClusterNet.Messaging

open Wire

/-- Who a reply is for: a call, or nobody. -/
inductive Sink where
  | call (k : CallKey)
  | nobody
  deriving DecidableEq

structure LocalJob where
  request : Request
  sink : Sink
  /-- A reply was given. -/
  used : Bool
  stage : Stage
  deriving DecidableEq

structure LocalLink where
  closed : Bool
  calls : Table CallKey Call
  jobs : Table JobKey LocalJob
  nextJob : JobKey
  /-- What happened, the last first. -/
  log : List Event

namespace LocalLink

def start : LocalLink := ⟨false, .empty, .empty, 0, []⟩

def isActive (l : LocalLink) : Bool := !l.closed

def close (l : LocalLink) : LocalLink := { l with closed := true }

def record (l : LocalLink) (e : Event) : LocalLink := { l with log := e :: l.log }

def change (l : LocalLink) (k : CallKey) (f : Call → Call) : LocalLink :=
  { l with calls := l.calls.modify k f }

/-- Whoever could have replied to a request is gone. -/
def letGo (l : LocalLink) : Sink → LocalLink
  | .call k => l.change k Call.lose
  | .nobody => l

/-- Gives a reply. -/
def reply (l : LocalLink) (request : Request) (sink : Sink) (used : Bool) (r : Status × Bytes) :
    Except Failure Unit × LocalLink :=
  match sink with
  | .nobody => (.ok (), l)
  | .call k =>
    if used then (.error (.protocol s!"duplicate reply for request {request.id.toNat}"), l)
    else if ((l.calls.get? k).map Call.isOpen).getD false then
      (.ok (), l.change k (·.fill (outcomeOf request.subject ⟨request.id, r.1, r.2⟩)))
    else (.error .connectionClosed, l)

def addJob (l : LocalLink) (request : Request) (sink : Sink) (stage : Stage) : LocalLink :=
  { l with
    jobs := l.jobs.insert l.nextJob ⟨request, sink, false, stage⟩
    nextJob := l.nextJob + 1 }

/-- Hands a request to its handler. -/
def dispatch (l : LocalLink) (handlers : Handlers) (now : Nat) (r : Request) (sink : Sink) :
    LocalLink :=
  match handlers.get? r.subject with
  | none => (l.reply r sink false (refusal r)).2
  | some h =>
    let l := l.record (.invoked h.label r)
    match h.react r with
    | .works ms effort => l.addJob r sink (.working (now + ms) effort)
    | .replies rs => l.addJob r sink (.turning rs)
    | .keeps => l
    | .releases => l.letGo sink
    | .breaksOff =>
      match sink with
      | .call k => l.change k fun c => { c with progress := .gone }
      | .nobody => l

/-- Starts a call. -/
def begin (l : LocalLink) (handlers : Handlers) (now : Nat) (k : CallKey) (r : Request)
    (patience : Nat) : LocalLink :=
  let call (p : Progress) : LocalLink :=
    { l with calls := l.calls.insert k ⟨r, patience, .empty, p⟩ }
  if l.closed then call (.over (.error .connectionClosed))
  else (call (.waiting (now + patience))).dispatch handlers now r (.call k)

/-- Sends a request for which no reply is expected. -/
def send (l : LocalLink) (handlers : Handlers) (now : Nat) (r : Request) :
    Except Failure Unit × LocalLink :=
  if l.closed then (.error .connectionClosed, l) else (.ok (), l.dispatch handlers now r .nobody)

/-- Takes a step of a call. -/
def proceed? (l : LocalLink) (k : CallKey) (now : Nat) : Option LocalLink := do
  let call ← l.calls.get? k
  let o ← call.look? now
  some (l.change k fun c => { c with progress := .over o })

/-- The sender of a call gives up. -/
def abandon (l : LocalLink) (k : CallKey) : LocalLink :=
  l.change k fun c => if c.isOpen then { c with progress := .gone } else c

def setJob (l : LocalLink) (k : JobKey) (f : LocalJob → LocalJob) : LocalLink :=
  { l with jobs := l.jobs.modify k f }

/-- Takes a step of a job. -/
def work? (l : LocalLink) (k : JobKey) (now : Nat) : Option LocalLink :=
  match l.jobs.get? k with
  | none => none
  | some j =>
    match j.stage with
    | .working due effort =>
      if due ≤ now then
        some (((l.reply j.request j.sink j.used effort.reply).2).setJob k fun j =>
          { j with used := true, stage := .done })
      else none
    | .turning [] => some ((l.letGo j.sink).setJob k fun j => { j with stage := .done })
    | .turning (r :: rest) =>
      let (o, l) := l.reply j.request j.sink j.used r
      some ((l.record (.replied r.1 o)).setJob k fun j =>
        { j with used := true, stage := .turning rest })
    | _ => none

/-- When a job goes on, if it waits for the clock. -/
def due? (j : LocalJob) : Option Nat :=
  match j.stage with
  | .working due _ => some due
  | _ => none

end LocalLink

end ClusterNet.Messaging
