/-!
# Taking turns

A balancer counts its picks and takes the candidate whose turn it is. The count goes on when
the number of candidates changes. It is kept modulo 2 ^ 64.
-/

namespace ClusterNet.PubSub

structure Balancer where
  count : UInt64
  deriving DecidableEq, Repr

namespace Balancer

def start : Balancer := ⟨0⟩

/-- The next of so many candidates. Without candidates nothing is counted. -/
def next (b : Balancer) (n : Nat) : Option Nat × Balancer :=
  if n = 0 then (none, b) else (some (b.count.toNat % n), ⟨b.count + 1⟩)

def pick {A : Type} (b : Balancer) (candidates : List A) : Option A × Balancer :=
  let (i, b) := b.next candidates.length
  (i.bind (candidates[·]?), b)

end Balancer

end ClusterNet.PubSub
