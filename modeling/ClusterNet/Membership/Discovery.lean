import ClusterNet.Cluster.Failure
import ClusterNet.Listeners
import ClusterNet.Member

/-!
# Discovery

A provider knows which nodes there are, and tells its listeners when that changes. The
discovery service of a node joins its provider when it starts and listens to it while it runs;
whatever it hears it passes on to its own listeners.

Joining and leaving take time. So starting and stopping come in two halves each, and anything
may happen between them.
-/

namespace ClusterNet.Membership

open Cluster

/-- Whether a node has come or gone. -/
inductive Presence where
  | joined
  | left
  deriving DecidableEq, Repr

structure DiscoveryEvent where
  presence : Presence
  node : Node
  deriving DecidableEq, Repr

/-- Who listens to a provider: a guest, or the discovery service. -/
inductive ProviderListener (L : Type) where
  | guest (l : L)
  | service

structure Provider (L : Type) where
  nodes : List Node
  listeners : Listeners (ProviderListener L)
  /-- Why joining fails, if it does. -/
  joinRefusal : Option String
  /-- Why leaving fails, if it does. -/
  leaveRefusal : Option String

namespace Provider

variable {L : Type}

def ofNodes (nodes : List Node) : Provider L := ⟨nodes, .empty, none, none⟩

def answer : Option String → Done
  | some text => .error (.discovery text)
  | none => .ok ()

def join (p : Provider L) : Done := answer p.joinRefusal

def leave (p : Provider L) : Done := answer p.leaveRefusal

/-- The node set as an event leaves it. All nodes of an id go at once. -/
def after (p : Provider L) (e : DiscoveryEvent) : Provider L :=
  match e.presence with
  | .joined => { p with nodes := p.nodes ++ [e.node] }
  | .left => { p with nodes := p.nodes.filter fun n => n.id != e.node.id }

end Provider

/-- Who listens to a discovery service: a guest, or the membership protocol. -/
inductive DiscoveryListener (L : Type) where
  | guest (l : L)
  | protocol

structure Discovery (L : Type) where
  provider : Provider L
  listeners : Listeners (DiscoveryListener L)
  /-- Under which id the service listens to the provider. -/
  attached : Option ListenerId
  running : Bool

namespace Discovery

variable {L : Type}

def ofProvider (provider : Provider L) : Discovery L := ⟨provider, .empty, none, false⟩

/-- The first node that has an id. -/
def node? (d : Discovery L) (id : NodeId) : Option Node :=
  d.provider.nodes.find? fun n => n.id == id

/-- The service listens to the provider no longer. -/
def detach (d : Discovery L) : Discovery L :=
  { d with
    provider := { d.provider with listeners := d.provider.listeners.removeSome d.attached }
    attached := none }

/-- From the start up to where the provider is joined. -/
def beginStart (d : Discovery L) : Discovery L :=
  let (id, listeners) := d.provider.listeners.add .service
  { d with provider := { d.provider with listeners }, attached := some id, running := true }

/-- From where joining has ended. -/
def finishStart (d : Discovery L) : Done → Discovery L
  | .ok _ => d
  | .error _ => { d.detach with running := false }

/-- Starts the service. If it runs, nothing is done. -/
def start (d : Discovery L) : Done × Discovery L :=
  if d.running then (.ok (), d)
  else
    let d := d.beginStart
    (d.provider.join, d.finishStart d.provider.join)

/-- From the stop up to where the provider is left. -/
def beginStop (d : Discovery L) : Discovery L := { d with running := false }

/-- Stops the service, also if leaving fails. If it does not run, nothing is done. -/
def stop (d : Discovery L) : Done × Discovery L :=
  if d.running then (d.provider.leave, d.beginStop.detach) else (.ok (), d)

end Discovery

end ClusterNet.Membership
