import ClusterNet.Bench.Subscriber
import ClusterNet.Messaging.Handler

/-!
# Handlers on the bench

Handlers that a script names by their kinds: how a handler is made, what it does, and with
what.
-/

namespace ClusterNet.Bench

open Messaging Wire

namespace Handler

def upper (b : UInt8) : UInt8 := if 97 ≤ b ∧ b ≤ 122 then b - 32 else b

/-- The work on a message. -/
def effort (action arg : String) (sender : Address) (b : Bytes) : Nat × Effort :=
  let n := arg.toNat?.getD 0
  match action with
  | "upper" => (0, .returned (b.map upper))
  | "fail" => (0, .failed arg)
  | "panic" => (0, .brokeOff)
  | "sender" => (0, .returned (Bytes.ofText sender.text))
  | "size" => (0, .returned (List.replicate n 7))
  | "delay" => (n, .returned b)
  | _ => (0, .returned b)

/-- Replies with one status after the other. -/
def chatty (codes : String) (r : Request) : Reaction :=
  .replies (((codes.splitOn ",").filterMap fun n =>
    Status.ofCode? (n.toNat?.getD 0).toUInt8).map (·, r.payload))

def ofKind (kind : String) : Handler :=
  let (name, arg) := cut kind ':'
  let (shape, action) := cut name '_'
  match shape, action with
  | "sync", action => .ofFunction "" (effort action arg)
  | "async", action => .ofWork "" fun sender b => some (effort action arg sender b)
  | "raw", "silent" => ⟨"silent", fun _ => .keeps⟩
  | "raw", "drop" => ⟨"", fun _ => .releases⟩
  | "raw", _ => ⟨"", chatty arg⟩
  | _, _ => .ofConsumer "consume"

end Handler

end ClusterNet.Bench
