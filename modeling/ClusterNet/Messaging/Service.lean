import ClusterNet.Config.Basic
import ClusterNet.Messaging.Client
import ClusterNet.Messaging.Local
import ClusterNet.Messaging.Outgoing
import ClusterNet.Messaging.Pool
import ClusterNet.Messaging.Ports
import ClusterNet.Messaging.Server

/-!
# Messaging services

The messaging service of a node listens where others can reach it, and sends what the node has
to say. What a node sends to itself takes the inside way, and everything else goes out through a
client. A service that was stopped does not run again.

Listening starts at the end of a wait, so starting comes in two halves, and anything may happen
between them.
-/

namespace ClusterNet.Messaging

structure Service where
  settings : MessagingSettings
  /-- Where others reach the node. -/
  address : Address
  /-- The address in the requests of the node: the same with an IP for its host. -/
  sender : Address
  /-- The way from the node to itself. -/
  link : LocalLink
  /-- The ways to other nodes. -/
  clients : Table ConnectionId Client
  /-- The ways on which other nodes reach this one. -/
  servers : Table ConnectionId Server
  /-- The id of the next request. -/
  nextId : UInt64
  running : Bool
  stopped : Bool

/-- Which way a message takes. -/
inductive Way where
  | inside
  | outside
  deriving DecidableEq, Repr

namespace Service

/-- A service that will listen at an address. -/
def ofAddress (a : Address) (settings : MessagingSettings) : Service :=
  ⟨settings, a, a, .start, .empty, .empty, 1, false, false⟩

/-! ## Starting and stopping -/

/-- What a start comes to at once, if there is nothing to do. -/
def settled? (s : Service) : Option (Except Failure Unit) :=
  if s.stopped then some (.error .shutdown)
  else if s.running then some (.ok ())
  else none

/-- From the start up to where the service listens. -/
def beginStart (s : Service) : Service := { s with running := true }

/-- From where the service listens, or cannot. -/
def finishStart (s : Service) : Except Failure Socket → Except Failure Unit × Service
  | .ok socket =>
    let address := Address.ofHost s.address.host socket.port
    (.ok (), { s with address, sender := socket.address })
  | .error f => (.error f, { s with running := false })

/-- Starts the service. If it runs, nothing is done. -/
def start (s : Service) (ports : Ports) : Except Failure Unit × Service × Ports :=
  match s.settled? with
  | some r => (r, s, ports)
  | none =>
    let (bound, ports) := ports.bind s.address
    let (r, s) := s.beginStart.finishStart bound
    (r, s, ports)

/-- Stops the service for good, and closes every way. If it does not run, nothing is done. -/
def stop (s : Service) : Service :=
  if s.running then
    { s with
      running := false
      stopped := true
      link := s.link.close
      clients := ⟨s.clients.entries.map fun (k, c) => (k, { c with channel := c.channel.close })⟩
      servers := ⟨s.servers.entries.map fun (k, c) => (k, { c with channel := c.channel.close })⟩ }
  else s

/-- The ports, when a service that listened does so no longer. -/
def vacate (s : Service) (ports : Ports) : Ports :=
  match s.running, s.sender.ip? with
  | true, some ip => ports.release ⟨ip, s.sender.port⟩
  | _, _ => ports

/-! ## Sending -/

/-- Whether an address is the node's own. -/
def isOwn (s : Service) (a : Address) : Bool := a = s.address || a = s.sender

def wayTo (s : Service) (a : Address) : Way := if s.isOwn a then .inside else .outside

/-- A message becomes a request. -/
def request (s : Service) (m : Outgoing) : Except Failure Wire.Request × Service :=
  if s.running then
    (.ok ⟨s.nextId, s.sender, m.subject, m.payload⟩, { s with nextId := s.nextId + 1 })
  else (.error .notRunning, s)

/-- Starts a call on the inside way. -/
def callInside (s : Service) (handlers : Handlers) (now : Nat) (k : CallKey) (r : Wire.Request)
    (ms : Nat) : Service :=
  { s with link := s.link.begin handlers now k r ms }

/-- Starts a call through a client. -/
def callOutside (s : Service) (c : ConnectionId) (k : CallKey) (r : Wire.Request) (ms : Nat) :
    Service :=
  { s with clients := s.clients.modify c (·.begin k r ms) }

/-- Sends a request on the inside way for which no reply is expected. -/
def sendInside (s : Service) (handlers : Handlers) (now : Nat) (r : Wire.Request) :
    Except Failure Unit × Service :=
  let (result, link) := s.link.send handlers now r
  (result, { s with link })

/-- How long a call waits if nothing else is said. -/
def patience (s : Service) : Nat := s.settings.requestTimeout.toNat

end Service

end ClusterNet.Messaging
