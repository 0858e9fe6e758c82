import ClusterNet.Messaging.Channel
import ClusterNet.Messaging.Pipe

/-!
# Channels on pipes

How the writer and the reader of a channel use the two pipes of a stream. When both have
stopped, the stream is gone: nothing more is written, and nobody reads.
-/

namespace ClusterNet.Messaging

/-- What of a stream is out of order. -/
structure Faults where
  read : Bool
  write : Bool
  flush : Bool
  deriving Repr

def Faults.none : Faults := ⟨false, false, false⟩

/-- A channel with the pipe it writes to and the pipe it reads from. -/
structure Station where
  channel : Channel
  out : Pipe
  into : Pipe
  faults : Faults

namespace Station

/-- Lets go of what the channel has no more use for. -/
def tidy (s : Station) : Station :=
  let out := if s.channel.writer = .stopped then s.out.finish else s.out
  let into := if s.channel.isDone then s.into.leave else s.into
  { s with out, into }

/-- A step of the writer. The stream takes at most `n` bytes at a time. -/
def write? (s : Station) (n : Nat) : Option Station :=
  let after (c : Channel) : Station := { s with channel := c }.tidy
  match s.channel.writer with
  | .stopped => none
  | .idle => ((s.channel.stopWriting?).orElse fun _ => s.channel.next?).map after
  | .writing _ left =>
    if left.isEmpty then
      (if s.faults.flush then s.channel.writeFails? else s.channel.flush?).map after
    else if s.faults.write || s.out.abandoned then (s.channel.writeFails?).map after
    else (s.channel.write? (min n s.out.room)).map fun (b, c) =>
      { s with channel := c, out := s.out.put b }

/-- A step of the reader. The stream gives at most `n` bytes at a time. -/
def read? (s : Station) (n : Nat) : Option Station :=
  let after (c : Channel) : Station := { s with channel := c }.tidy
  match s.channel.reader with
  | .stopped => none
  | .decoding => (s.channel.decode?).map after
  | .holding _ => (s.channel.forward?).map after
  | .waiting =>
    if s.faults.read then (s.channel.readFails?).map after
    else if s.into.ended then (s.channel.read? []).map after
    else if s.into.held.isEmpty || n = 0 then none
    else
      let (b, into) := s.into.take n
      (s.channel.read? b).map fun c => { s with channel := c, into }

/-- The reader sees that the channel is closed. -/
def notice? (s : Station) : Option Station :=
  (s.channel.stopReading?).map fun c => { s with channel := c }.tidy

end Station

end ClusterNet.Messaging
