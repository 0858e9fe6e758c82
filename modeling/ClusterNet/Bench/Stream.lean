import ClusterNet.Bench.Clock
import ClusterNet.Messaging.Channel.Stream

/-!
# A script at the other end of a stream

The script has one end of a stream, and a machine has the other. The script may write bytes,
take what the machine has written, and let go of its end.
-/

namespace ClusterNet.Bench

open Messaging

/-- How a script reaches the pipes of a machine: the one that it writes to and the one that
it reads from. -/
structure Tap (S : Type) where
  pipes : S → Pipe × Pipe
  setPipes : S → Pipe × Pipe → S

namespace Tap

variable {S : Type}

/-- Writes bytes as they fit. It fails when the machine has let go of the stream. -/
def feed (tap : Tap S) (m : Machine S) : (rounds : Nat) → Bytes → Timed S → Bool × Timed S
  | 0, _, t => (false, t)
  | rounds + 1, b, t =>
    let (into, out) := tap.pipes t.state
    if into.abandoned || into.shut then (false, t)
    else
      let n := min into.room b.length
      let t := { t with state := tap.setPipes t.state (into.put (b.take n), out) }
      if b.length ≤ n || n = 0 then (true, t) else tap.feed m rounds (b.drop n) (m.settle t)

/-- Takes what the machine has written, until it writes no more. -/
def drain (tap : Tap S) (m : Machine S) : (rounds : Nat) → Timed S → Bytes × Timed S
  | 0, t => ([], t)
  | rounds + 1, t =>
    let t := m.settle t
    let (into, out) := tap.pipes t.state
    if out.held.isEmpty then ([], t)
    else
      let (b, out) := out.take out.held.length
      let (rest, t) := tap.drain m rounds { t with state := tap.setPipes t.state (into, out) }
      (b ++ rest, t)

/-- Whether the machine has ended what it writes. -/
def ended (tap : Tap S) (s : S) : Bool := (tap.pipes s).2.ended

/-- Whether the script has let go of its end. -/
def isGone (tap : Tap S) (s : S) : Bool := (tap.pipes s).2.abandoned

/-- Lets go of the script's end. -/
def hangUp (tap : Tap S) (s : S) : S :=
  let (into, out) := tap.pipes s
  tap.setPipes s (into.finish, out.leave)

end Tap

end ClusterNet.Bench
