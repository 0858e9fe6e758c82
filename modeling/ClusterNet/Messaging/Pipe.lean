import ClusterNet.Bytes

/-!
# Pipes

One direction of a stream of bytes. What is written at one end comes out at the other end in
the same order, and only so many bytes may be on their way.
-/

namespace ClusterNet.Messaging

structure Pipe where
  capacity : Nat
  /-- What was written and not read yet. -/
  held : Bytes
  /-- Nothing more will be written. -/
  shut : Bool
  /-- Nobody will read any more. -/
  abandoned : Bool
  deriving Repr

namespace Pipe

def ofCapacity (n : Nat) : Pipe := ⟨n, [], false, false⟩

def room (p : Pipe) : Nat := p.capacity - p.held.length

def put (p : Pipe) (b : Bytes) : Pipe := { p with held := p.held ++ b }

def take (p : Pipe) (n : Nat) : Bytes × Pipe := (p.held.take n, { p with held := p.held.drop n })

/-- All that was written has been read, and no more will come. -/
def ended (p : Pipe) : Bool := p.shut && p.held.isEmpty

def finish (p : Pipe) : Pipe := { p with shut := true }

def leave (p : Pipe) : Pipe := { p with abandoned := true }

end Pipe

end ClusterNet.Messaging
