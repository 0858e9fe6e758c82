import ClusterNet.Bytes
import ClusterNet.Checksum.Fnv

/-!
# The handshake

The side that connects says which cluster it belongs to and the newest version it speaks. The
other side refuses a stranger, and otherwise answers with the newest version that both speak.
Each side takes the bytes of the stream one by one and stops after the last one it needs.
-/

namespace ClusterNet.Wire

/-- The versions of the frame format, oldest first. -/
inductive Version where
  | v1
  deriving DecidableEq, Repr, Inhabited

namespace Version

def number : Version → UInt16
  | .v1 => 1

def supported : List Version := [.v1]

def latest : Version := .v1

def ofNumber? (n : UInt16) : Option Version := supported.find? fun v => v.number == n

/-- The newest version that is not newer than the one offered. -/
def negotiate? (offered : UInt16) : Option Version :=
  (supported.filter fun v => v.number ≤ offered).getLast?

end Version

/-- What tells the members of one cluster from strangers. -/
def clusterPreamble (clusterId : String) : Int32 :=
  (Fnv.hash (Bytes.ofText clusterId)).toUInt32.toInt32

inductive HandshakeFault where
  | strangers (expected got : Int32)
  | noCommonVersion (offered : UInt16)
  | unsupported (selected : UInt16)
  /-- The stream ended too early. -/
  | ended
  /-- The other side is gone and cannot be written to. -/
  | brokenPipe
  deriving DecidableEq, Repr

def HandshakeFault.message : HandshakeFault → String
  | .strangers expected got =>
    s!"cluster preamble mismatch: expected {expected.toInt}, got {got.toInt}"
  | .noCommonVersion offered => s!"no common protocol version (peer offered {offered.toNat})"
  | .unsupported selected => s!"peer selected unsupported version {selected.toNat}"
  | .ended => "unexpected end of file"
  | .brokenPipe => "broken pipe"

def preambleBytes (p : Int32) : Bytes := Bytes.ofUInt32 p.toUInt32

/-- What the side that connects writes. -/
def hello (p : Int32) : Bytes := preambleBytes p ++ Bytes.ofUInt16 Version.latest.number

/-- One side of a handshake: it collects bytes until it knows the result. -/
inductive Handshake where
  | collecting (got : Bytes)
  | finished (result : Except HandshakeFault Version)

namespace Handshake

def start : Handshake := .collecting []

/-- What the accepting side makes of the bytes it has: a stranger is known by the first four. -/
def serverView (p : Int32) : Bytes → Handshake
  | [a, b, c, d] =>
    let got := (Bytes.toUInt32 a b c d).toInt32
    if got = p then .collecting [a, b, c, d] else .finished (.error (.strangers p got))
  | [_, _, _, _, e, f] =>
    let offered := Bytes.toUInt16 e f
    match Version.negotiate? offered with
    | some v => .finished (.ok v)
    | none => .finished (.error (.noCommonVersion offered))
  | b => .collecting b

/-- What the connecting side makes of the bytes it has. -/
def clientView : Bytes → Handshake
  | [a, b] =>
    let selected := Bytes.toUInt16 a b
    match Version.ofNumber? selected with
    | some v => .finished (.ok v)
    | none => .finished (.error (.unsupported selected))
  | b => .collecting b

/-- Takes bytes from the front of the stream until the result is known. Returns what is left. -/
def feed (view : Bytes → Handshake) : Handshake → Bytes → Handshake × Bytes
  | .collecting got, b :: rest => feed view (view (got ++ [b])) rest
  | h, rest => (h, rest)

/-- The result once the stream has ended. -/
def result : Handshake → Except HandshakeFault Version
  | .collecting _ => .error .ended
  | .finished r => r

/-- The connecting side, against all that the other side will ever send: the result, and what
it writes. Nothing can be written once the other side is gone. -/
def client (p : Int32) (writable : Bool) (incoming : Bytes) :
    Except HandshakeFault Version × Bytes :=
  if writable then ((feed clientView start incoming).1.result, hello p)
  else (.error .brokenPipe, [])

/-- The accepting side. It writes only if it accepts. -/
def server (p : Int32) (writable : Bool) (incoming : Bytes) :
    Except HandshakeFault Version × Bytes :=
  match (feed (serverView p) start incoming).1.result with
  | .ok v => if writable then (.ok v, Bytes.ofUInt16 v.number) else (.error .brokenPipe, [])
  | .error e => (.error e, [])

end Handshake

end ClusterNet.Wire
