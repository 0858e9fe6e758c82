import ClusterNet.Messaging.Service
import ClusterNet.PubSub.Host

/-!
# The services of a node

A node of a cluster has a stack of services: messaging, membership and events. It starts them in
this order and stops them the other way round. If one of them cannot be started, those that were
are stopped again. A node that was stopped, or whose start has failed, does not run again.

Two things take their time in a start: listening, and joining the provider. The start goes on
from there when they have come to an end, and anything may happen while they last.
-/

namespace ClusterNet.Cluster

open ClusterNet.Membership Messaging PubSub

structure Stack where
  config : Config
  messaging : Messaging.Service
  host : Host
  running : Bool
  stopped : Bool

/-- How far a start has come. -/
inductive Progress where
  /-- The node is about to listen. -/
  | binding
  /-- The node is about to join its provider. -/
  | joining
  | ended (r : Done)

namespace Stack

/-- A node that finds the others through a provider, with an id and a clock in case it needs
them. -/
def ofProvider (config : Config) (generated : MemberId) (clock : UInt64)
    (provider : Provider ServiceKey) : Except Failure Stack :=
  match config.flaw? with
  | some flaw => .error (.config flaw)
  | none =>
    let address := config.node.address
    .ok ⟨config, .ofAddress address config.messaging,
      .ofRoster address (.ofLocal (config.node.member generated) provider) clock
        config.syncInterval.toNat, false, false⟩

/-- A node that knows the others from its configuration. -/
def ofConfig (config : Config) (generated : MemberId) (clock : UInt64) : Except Failure Stack :=
  ofProvider config generated clock (.ofNodes config.nodes)

def roster (n : Stack) : Roster ServiceKey := n.host.roster

def setRoster (n : Stack) (roster : Roster ServiceKey) : Stack :=
  { n with host := { n.host with roster } }

/-- The messaging service has changed, and with it perhaps where the node can be reached. -/
def setMessaging (n : Stack) (s : Messaging.Service) : Stack :=
  { n with messaging := s, host := { n.host with address := s.address } }

/-- Something has happened to the group, of which the event service hears. -/
def withRoster {A : Type} (n : Stack) (r : A × Roster ServiceKey) : A × Stack × List Outgoing :=
  let (a, host, mail) := n.host.withRoster r
  (a, { n with host }, mail)

/-! ## Starting -/

/-- The start has failed, and the node will not run any more. -/
def fail (n : Stack) (f : Failure) : Progress × Stack :=
  (.ended (.error f), { n with running := false, stopped := true })

/-- From the start up to where the node listens. A node starts its services at most once. -/
def beginStart (n : Stack) : Progress × Stack :=
  if n.stopped then (.ended (.error .stopped), n)
  else if n.running then (.ended (.ok ()), n)
  else (.binding, { n with running := true }.setMessaging n.messaging.beginStart)

/-- From where the node listens, or cannot, up to where it joins its provider. -/
def bound (n : Stack) (r : Except Messaging.Failure Socket) : Progress × Stack :=
  let (r, messaging) := n.messaging.finishStart r
  let n := n.setMessaging messaging
  match r with
  | .error f => n.fail (.messaging f)
  | .ok _ =>
    let roster := n.roster.beginStart
    (.joining, n.setRoster (roster.setDiscovery roster.discovery.beginStart))

/-- From where the provider was joined, or could not be. -/
def joined (n : Stack) (now : Nat) (r : Done) : Progress × Stack × List Outgoing :=
  let discovery := n.roster.discovery.finishStart r
  let (r, n, mail) := n.withRoster ((n.roster.setDiscovery discovery).finishStart r)
  match r with
  | .error f =>
    let (p, n) := (n.setMessaging n.messaging.stop).fail f
    (p, n, mail)
  | .ok _ =>
    let (host, more) := n.host.start now
    (.ended (.ok ()), { n with host }, mail ++ more)

/-- Goes on from where a start has come, when what takes its time comes to an end at once. -/
def proceed (now : Nat) (ports : Ports) :
    Progress × Stack → Progress × Stack × List Outgoing × Ports
  | (.binding, n) =>
    let (r, ports) := ports.bind n.messaging.address
    let (p, n) := n.bound r
    (p, n, [], ports)
  | (.joining, n) =>
    let (p, m, mail) := n.joined now n.roster.discovery.provider.join
    (p, m, mail, if m.messaging.running then ports else n.messaging.vacate ports)
  | (p, n) => (p, n, [], ports)

/-- Starts the node, with nothing in between. If it runs, nothing is done. -/
def start (n : Stack) (now : Nat) (ports : Ports) : Done × Stack × List Outgoing × Ports :=
  let (p, n, early, ports) := proceed now ports n.beginStart
  let (p, n, late, ports) := proceed now ports (p, n)
  (match p with
    | .ended r => r
    | _ => .ok (), n, early ++ late, ports)

/-! ## Stopping -/

/-- Stops the node for good, if it runs. A failure on the way keeps nothing from being
stopped. -/
def stop (n : Stack) : Stack :=
  if n.running then
    let (_, n, _) := { n with host := n.host.stop, running := false, stopped := true }.withRoster
      n.host.stop.roster.stop
    n.setMessaging n.messaging.stop
  else { n with stopped := true }

/-! ## Looking -/

def localMember (n : Stack) : Member := n.roster.localMember

def members (n : Stack) : List Member := n.roster.members

end Stack

end ClusterNet.Cluster
