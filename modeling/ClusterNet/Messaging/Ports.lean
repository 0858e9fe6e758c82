import ClusterNet.Messaging.Failure

/-!
# Ports

One can listen at the addresses of the own host only, and at each of them once. A port may be
left open; then one is chosen that nobody uses.
-/

namespace ClusterNet

namespace Ip

/-- The IP stands for every interface of the host. -/
def isUnspecified : Ip → Bool
  | .v4 q => q = ⟨0, 0, 0, 0⟩
  | .v6 g => g = ⟨0, 0, 0, 0, 0, 0, 0, 0⟩

/-- The IP leads back to the host. -/
def isLoopback : Ip → Bool
  | .v4 q => q.a = 127
  | .v6 g => g = ⟨0, 0, 0, 0, 0, 0, 0, 1⟩ || g.mapped?.any (·.a = 127)

end Ip

namespace Messaging

/-- Where somebody listens. -/
structure Socket where
  ip : Ip
  port : UInt16
  deriving DecidableEq, Repr

namespace Socket

/-- Two cannot listen at the same time. -/
def clashes (a b : Socket) : Bool :=
  a.port = b.port && (a.ip = b.ip || a.ip.isUnspecified || b.ip.isUnspecified)

def address (s : Socket) : Address := Address.ofIp s.ip s.port

end Socket

structure Ports where
  taken : List Socket
  /-- The port that is chosen next. -/
  next : UInt16

namespace Ports

def start : Ports := ⟨[], 49152⟩

def isFree (p : Ports) (s : Socket) : Bool := p.taken.all fun t => !t.clashes s

def take (p : Ports) (s : Socket) : Ports := { p with taken := s :: p.taken }

/-- Nobody listens there any longer. -/
def release (p : Ports) (s : Socket) : Ports := { p with taken := p.taken.filter (· != s) }

/-- Starts to listen at an address. Port 0 leaves the port open. -/
def bind (p : Ports) (a : Address) : Except Failure Socket × Ports :=
  match a.resolve? with
  | none => (.error .io, p)
  | some ip =>
    let s : Socket := ⟨ip, if a.port = 0 then p.next else a.port⟩
    let p := if a.port = 0 then { p with next := p.next + 1 } else p
    if (ip.isLoopback || ip.isUnspecified) && p.isFree s then (.ok s, p.take s)
    else (.error .io, p)

end Ports

end Messaging

end ClusterNet
