import ClusterNet.Messaging.Channel
import ClusterNet.Messaging.Handler

/-!
# Calls

A call is a request whose sender waits for the reply. It is over when the reply is there,
when nobody can reply any more, or when its time is up, and it is over only once.
-/

namespace ClusterNet.Messaging

/-- Where the outcome of a call is put for the one who waits. -/
inductive Slot where
  | empty
  | filled (o : Outcome)
  /-- Nobody is left who could fill it. -/
  | lost

inductive Progress where
  /-- The request is not flushed yet. -/
  | sending (t : Ticket)
  /-- The request is out, and the call waits until the given time. -/
  | waiting (due : Nat)
  | over (o : Outcome)
  /-- The sender went down with the handler or gave up. -/
  | gone

abbrev CallKey := Nat

structure Call where
  request : Wire.Request
  /-- How long the sender waits, in milliseconds. -/
  patience : Nat
  slot : Slot
  progress : Progress

namespace Call

def outcome? (c : Call) : Option Outcome :=
  match c.progress with
  | .over o => some o
  | _ => none

def isOpen (c : Call) : Bool :=
  match c.progress with
  | .sending _ => true
  | .waiting _ => true
  | _ => false

/-- Puts an outcome into the slot, if it is still empty. -/
def fill (c : Call) (o : Outcome) : Call :=
  match c.slot with
  | .empty => { c with slot := .filled o }
  | _ => c

def lose (c : Call) : Call :=
  match c.slot with
  | .empty => { c with slot := .lost }
  | _ => c

/-- A call that waits looks at its slot first and at the clock second. -/
def look? (c : Call) (now : Nat) : Option Outcome :=
  match c.progress with
  | .waiting due =>
    match c.slot with
    | .filled o => some o
    | .lost => some (.error .connectionClosed)
    | .empty =>
      if due ≤ now then some (.error (.timeout c.request.subject c.patience)) else none
  | _ => none

/-- When a call that waits gives up. -/
def due? (c : Call) : Option Nat :=
  match c.progress with
  | .waiting due => some due
  | _ => none

end Call

end ClusterNet.Messaging
