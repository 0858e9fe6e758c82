import ClusterNet.Messaging.Failure
import ClusterNet.Table

/-!
# Channels

A channel sends and receives messages over a stream of bytes. Its writer takes messages from
the outbound queue and writes their frames one after the other. Its reader takes messages out
of the bytes that arrive and passes them on to the inbound queue. Both queues are bounded.
When one of the two stops, the channel is closed, and then the other one stops too.

Each function here is one step, and gives `none` if the step cannot be taken now. Steps of
different parts may come in any order.
-/

namespace ClusterNet.Messaging

/-- Under a ticket one learns what became of a message. -/
abbrev Ticket := Nat

structure Parcel where
  ticket : Ticket
  message : Wire.Message
  deriving DecidableEq, Repr

inductive Writer where
  | idle
  /-- In the middle of a frame, or, if nothing is left, before the flush. -/
  | writing (ticket : Ticket) (left : Bytes)
  | stopped
  deriving DecidableEq, Repr

inductive Reader where
  | waiting
  /-- Looking for another message in what was read. -/
  | decoding
  /-- Has a message that goes to the inbound queue next. -/
  | holding (m : Wire.Message)
  | stopped
  deriving DecidableEq, Repr

structure Channel where
  /-- The longest frame. -/
  limit : Nat
  /-- How many messages a queue holds. -/
  capacity : Nat
  /-- The outbound queue. -/
  outbound : List Parcel
  /-- What is sent when the queue has room for it, the first first. -/
  blocked : List Parcel
  writer : Writer
  /-- What was read and not decoded yet. -/
  buffer : Bytes
  reader : Reader
  /-- The inbound queue. -/
  inbound : List Wire.Message
  /-- Someone may still take messages from the inbound queue. -/
  attended : Bool
  /-- Someone may still send. -/
  held : Bool
  closed : Bool
  nextTicket : Ticket
  settled : Table Ticket (Except Failure Unit)

namespace Channel

def start (limit capacity : Nat) : Channel :=
  { limit, capacity, outbound := [], blocked := [], writer := .idle, buffer := [],
    reader := .waiting, inbound := [], attended := true, held := true, closed := false,
    nextTicket := 0, settled := .empty }

def isActive (c : Channel) : Bool := !c.closed

def outcome? (c : Channel) (t : Ticket) : Option (Except Failure Unit) := c.settled.get? t

def settle (c : Channel) (t : Ticket) (r : Except Failure Unit) : Channel :=
  { c with settled := c.settled.insert t r }

def close (c : Channel) : Channel := { c with closed := true }

/-! ## Sending -/

/-- Hands a message over to be sent. A channel that is closed refuses it at once. -/
def submit (c : Channel) (m : Wire.Message) : Ticket × Channel :=
  let t := c.nextTicket
  let d := { c with nextTicket := t + 1 }
  (t,
    if c.closed then d.settle t (.error .connectionClosed)
    else if c.blocked.isEmpty && c.outbound.length < c.capacity then
      { d with outbound := c.outbound ++ [⟨t, m⟩] }
    else { d with blocked := c.blocked ++ [⟨t, m⟩] })

/-- The sender gives up. What is in the queue by then is sent all the same. -/
def withdraw (c : Channel) (t : Ticket) : Channel :=
  { c with blocked := c.blocked.filter fun p => p.ticket != t }

/-- Nobody will send any more. -/
def release (c : Channel) : Channel := { c with held := false }

/-! ## The writer -/

/-- The writer stops: the channel is closed, and what was not taken is not sent. -/
def endWriting (c : Channel) : Channel :=
  (c.outbound ++ c.blocked).foldl (fun c p => c.settle p.ticket (.error .connectionClosed))
    { c with outbound := [], blocked := [], writer := .stopped, closed := true }

/-- Between two frames the writer sees that there is nothing more to do. -/
def stopWriting? (c : Channel) : Option Channel :=
  if c.writer = .idle ∧ (c.closed ∨ (¬ c.held ∧ c.outbound = [] ∧ c.blocked = []))
  then some c.endWriting else none

/-- The writer takes the next message, and the first one that waits comes into the queue. A
message that has no frame is refused, and the writer is ready for another one. -/
def next? (c : Channel) : Option Channel :=
  match c.writer, c.closed, c.outbound with
  | .idle, false, p :: rest =>
    let d := { c with outbound := rest ++ c.blocked.take 1, blocked := c.blocked.drop 1 }
    match Wire.encode c.limit p.message with
    | .ok frame => some { d with writer := .writing p.ticket frame }
    | .error e => some (d.settle p.ticket (.error (.codec e)))
  | _, _, _ => none

/-- The stream takes up to `n` bytes of the frame. -/
def write? (c : Channel) (n : Nat) : Option (Bytes × Channel) :=
  match c.writer with
  | .writing t (b :: left) =>
    if n = 0 then none
    else some ((b :: left).take n, { c with writer := .writing t ((b :: left).drop n) })
  | _ => none

/-- The frame is complete, and the stream has let go of it. -/
def flush? (c : Channel) : Option Channel :=
  match c.writer with
  | .writing t [] => some ({ c with writer := .idle }.settle t (.ok ()))
  | _ => none

/-- The stream fails in a frame or at its flush. -/
def writeFails? (c : Channel) : Option Channel :=
  match c.writer with
  | .writing t _ => some (c.endWriting.settle t (.error .io))
  | _ => none

/-! ## The reader -/

/-- The reader stops: the channel is closed. -/
def endReading (c : Channel) : Channel := { c with reader := .stopped, closed := true }

/-- While it waits for bytes, the reader sees that the channel is closed. -/
def stopReading? (c : Channel) : Option Channel :=
  if c.reader = .waiting ∧ c.closed then some c.endReading else none

/-- Bytes arrive. No bytes mean that there will be no more. -/
def read? (c : Channel) (chunk : Bytes) : Option Channel :=
  if c.reader = .waiting then
    if chunk.isEmpty then some c.endReading
    else some { c with reader := .decoding, buffer := c.buffer ++ chunk }
  else none

def readFails? (c : Channel) : Option Channel :=
  if c.reader = .waiting then some c.endReading else none

/-- Takes the next message out of the bytes. If they are too few, more have to come; if they
can be no message, the reader stops. -/
def decode? (c : Channel) : Option Channel :=
  if c.reader = .decoding then
    some (match Wire.decode c.limit c.buffer with
      | .ok (m, n) => { c with reader := .holding m, buffer := c.buffer.drop n }
      | .error (.insufficient _ _) => { c with reader := .waiting }
      | .error _ => c.endReading)
  else none

/-- Passes a message on, if the inbound queue has room for it. If nobody takes messages any
more, the reader stops. -/
def forward? (c : Channel) : Option Channel :=
  match c.reader with
  | .holding m =>
    if !c.attended then some c.endReading
    else if c.inbound.length < c.capacity then
      some { c with reader := .decoding, inbound := c.inbound ++ [m] }
    else none
  | _ => none

/-! ## Receiving -/

def receive? (c : Channel) : Option (Wire.Message × Channel) :=
  match c.inbound with
  | m :: rest => some (m, { c with inbound := rest })
  | [] => none

/-- No message will come any more. -/
def ended (c : Channel) : Bool := c.reader = .stopped && c.inbound.isEmpty

/-- Nobody will take messages any more. -/
def neglect (c : Channel) : Channel := { c with attended := false, inbound := [] }

/-- Neither part will use the stream any more. -/
def isDone (c : Channel) : Bool := c.writer = .stopped && c.reader = .stopped

end Channel

end ClusterNet.Messaging
