import ClusterNet.Messaging.Failure
import ClusterNet.Table

/-!
# Handlers

A handler is what an application has registered for a subject. What it does with a request
is a value: work that takes a while and ends with a result, or replies of its own making.
Work is answered with exactly one reply.
-/

namespace ClusterNet.Messaging

open Wire

/-- How the work on a request ends. -/
inductive Effort where
  | returned (payload : Bytes)
  | failed (text : String)
  | brokeOff
  deriving DecidableEq, Repr

/-- The reply to a request on which the work has ended. -/
def Effort.reply : Effort → Status × Bytes
  | .returned payload => (.ok, payload)
  | .failed text => (.handlerFailed, Bytes.ofText text)
  | .brokeOff => (.handlerFailed, Bytes.ofText "handler panicked")

/-- What is replied instead of a reply whose frame is too long. -/
def tooLong (size limit : Nat) : Status × Bytes :=
  (.handlerFailed, Bytes.ofText s!"reply of {size} bytes exceeds the {limit} byte frame limit")

/-- What a handler does with a request. -/
inductive Reaction where
  /-- Works on it for a while. The reply tells how the work ended. -/
  | works (ms : Nat) (effort : Effort)
  /-- Replies as it likes, with one reply after the other. -/
  | replies (rs : List (Status × Bytes))
  /-- Keeps the request for good. -/
  | keeps
  /-- Lets go of the request without a reply. -/
  | releases
  /-- Breaks off before there is any work to wait for. -/
  | breaksOff
  deriving DecidableEq, Repr

structure Handler where
  /-- Tells handlers apart in a log. -/
  label : String
  react : Request → Reaction

namespace Handler

/-- Answers with what a function returns. -/
def ofFunction (label : String) (f : Address → Bytes → Nat × Effort) : Handler :=
  ⟨label, fun r => let (ms, e) := f r.sender r.payload; .works ms e⟩

/-- Answers with what some work returns. The function that sets up the work may break off. -/
def ofWork (label : String) (f : Address → Bytes → Option (Nat × Effort)) : Handler :=
  ⟨label, fun r =>
    match f r.sender r.payload with
    | some (ms, e) => .works ms e
    | none => .breaksOff⟩

/-- Takes messages, and never replies. -/
def ofConsumer (label : String) : Handler := ⟨label, fun _ => .releases⟩

end Handler

/-- The handlers of a node by their subjects. -/
abbrev Handlers := Table String Handler

/-- The reply to a request for a subject that has no handler. -/
def refusal (r : Request) : Status × Bytes := (.noHandler, Bytes.ofText r.subject)

end ClusterNet.Messaging
