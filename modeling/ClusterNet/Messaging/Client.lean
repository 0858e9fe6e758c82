import ClusterNet.Messaging.Call

/-!
# Clients

A client sends requests over a channel and gives each reply to the call that waits under its
id. An id stands for one call at a time: a call that takes over an id leaves the earlier call
without a reply. A call that is over takes its id off the list, whoever holds it by then.
-/

namespace ClusterNet.Messaging

open Wire

structure Client where
  channel : Channel
  /-- Which call waits under an id. -/
  pending : Table UInt64 CallKey
  calls : Table CallKey Call
  /-- Replies are still taken from the channel. -/
  receiving : Bool

namespace Client

def ofChannel (channel : Channel) : Client := ⟨channel, .empty, .empty, true⟩

def call? (c : Client) (k : CallKey) : Option Call := c.calls.get? k

/-- Takes an id off the list. The call under it will get no reply. -/
def forget (c : Client) (id : UInt64) : Client :=
  match c.pending.get? id with
  | some k => { c with pending := c.pending.erase id, calls := c.calls.modify k Call.lose }
  | none => c

/-- Ends a call. -/
def finish (c : Client) (k : CallKey) (progress : Progress) : Client :=
  match c.call? k with
  | some call =>
    { c.forget call.request.id with
      calls := ((c.forget call.request.id).calls).modify k fun x => { x with progress } }
  | none => c

/-- Starts a call. It is listed before anything is written, so that no reply comes too
early. -/
def begin (c : Client) (k : CallKey) (request : Request) (patience : Nat) : Client :=
  let d := c.forget request.id
  let d := { d with pending := d.pending.insert request.id k }
  let call (p : Progress) : Call := ⟨request, patience, .empty, p⟩
  if !c.channel.isActive then
    { d with calls := d.calls.insert k (call .gone) }.finish k (.over (.error .connectionClosed))
  else
    let (t, channel) := d.channel.submit (.request request)
    { d with channel, calls := d.calls.insert k (call (.sending t)) }

/-- Takes a step of a call. It starts to wait when its request has been flushed. -/
def proceed? (c : Client) (k : CallKey) (now : Nat) : Option Client :=
  match c.call? k with
  | none => none
  | some call =>
    match call.progress with
    | .sending t =>
      match c.channel.outcome? t with
      | none => none
      | some (.error e) => some (c.finish k (.over (.error e)))
      | some (.ok _) =>
        let waiting := { call with progress := .waiting (now + call.patience) }
        some { c with calls := c.calls.insert k waiting }
    | .waiting _ => (call.look? now).map fun o => c.finish k (.over o)
    | _ => none

/-- The sender of a call gives up. -/
def abandon (c : Client) (k : CallKey) : Client :=
  match c.call? k with
  | some call =>
    match call.progress with
    | .sending t => { c with channel := c.channel.withdraw t }.finish k .gone
    | .waiting _ => c.finish k .gone
    | _ => c
  | none => c

/-- A reply goes to the call under its id. -/
def deliver (c : Client) (r : Reply) : Client :=
  match c.pending.get? r.id with
  | some k =>
    { c with
      pending := c.pending.erase r.id
      calls := c.calls.modify k fun call => call.fill (outcomeOf call.request.subject r) }
  | none => c

/-- Takes the next message. Requests are ignored here. When no more will come, every call that
is listed learns that the connection is closed. -/
def receive? (c : Client) : Option Client :=
  if !c.receiving then none
  else
    match c.channel.receive? with
    | some (.reply r, channel) => some ({ c with channel }.deliver r)
    | some (.request _, channel) => some { c with channel }
    | none =>
      if c.channel.ended then
        some { c with
          receiving := false
          pending := .empty
          calls := c.pending.values.foldl
            (fun calls k => calls.modify k (·.fill (.error .connectionClosed))) c.calls }
      else none

end Client

end ClusterNet.Messaging
