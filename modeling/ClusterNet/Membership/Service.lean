import ClusterNet.Membership.Protocol

/-!
# Membership of a node

The membership service starts discovery, lets the protocol join the group, and passes on what
the protocol tells. Each of the three listens to the one below it, and each has guests that
listen too. Whoever is told of an event is noted in the log, in the order of the telling.

The protocol stands behind a gate, which may refuse to let it join or leave.
-/

namespace ClusterNet.Membership

open Cluster

/-- What a guest is told. -/
inductive News where
  | discovery (e : DiscoveryEvent)
  /-- What has changed, and the member as it was then. -/
  | member (change : Change) (m : Member)

structure Delivery (L : Type) where
  listener : L
  news : News

/-- How the gate answers instead of the protocol, if it does. -/
structure Gate where
  joinRefusal : Option Failure
  leaveRefusal : Option Failure

structure Roster (L : Type) where
  discovery : Discovery L
  protocol : Protocol L
  gate : Gate
  /-- The listeners of the membership service. -/
  listeners : Listeners L
  /-- Under which id the service listens to the protocol. -/
  attached : Option ListenerId
  running : Bool
  /-- Who was told of what, the last first. -/
  log : List (Delivery L)

namespace Roster

variable {L : Type}

def ofLocal (m : Member) (provider : Provider L) : Roster L :=
  ⟨.ofProvider provider, .ofLocal m, ⟨none, none⟩, .empty, none, false, []⟩

def tell (g : Roster L) (news : News) (l : L) : Roster L := { g with log := ⟨l, news⟩ :: g.log }

/-! ## Passing on -/

/-- The protocol tells its listeners, and the service passes it on to its own. -/
def announce (g : Roster L) (e : MemberEvent) : Roster L :=
  g.protocol.listeners.snapshot.foldl (fun g l =>
    let news := News.member e.change (g.protocol.object e.member)
    match l with
    | .guest l => g.tell news l
    | .service => g.listeners.snapshot.foldl (·.tell news) g) g

/-- The protocol hears of an event of discovery. -/
def hear (g : Roster L) (e : DiscoveryEvent) : Roster L :=
  let (event, protocol) := g.protocol.follow e
  match event with
  | some event => { g with protocol }.announce event
  | none => { g with protocol }

/-- Discovery tells its listeners. -/
def spread (g : Roster L) (e : DiscoveryEvent) : Roster L :=
  g.discovery.listeners.snapshot.foldl (fun g l =>
    match l with
    | .guest l => g.tell (.discovery e) l
    | .protocol => g.hear e) g

/-- The provider tells its listeners, and the discovery service passes it on. -/
def post (g : Roster L) (e : DiscoveryEvent) : Roster L :=
  g.discovery.provider.listeners.snapshot.foldl (fun g l =>
    match l with
    | .guest l => g.tell (.discovery e) l
    | .service => g.spread e) g

def setProvider (g : Roster L) (f : Provider L → Provider L) : Roster L :=
  { g with discovery := { g.discovery with provider := f g.discovery.provider } }

/-- The nodes of the provider change, and the provider tells so. -/
def occur (g : Roster L) (e : DiscoveryEvent) : Roster L := (g.setProvider (·.after e)).post e

/-! ## Joining and leaving the group -/

/-- The protocol takes in the nodes it was given. -/
def enrol (g : Roster L) (nodes : List Node) : Roster L :=
  { g with protocol := { g.protocol.enrol nodes with joined := true } }

/-- The protocol tells that the local member has been added. -/
def introduce (g : Roster L) : Roster L := g.announce ⟨.added, Protocol.localKey⟩

/-- The protocol starts to listen to discovery. -/
def subscribe (g : Roster L) : Roster L :=
  let (id, listeners) := g.discovery.listeners.add .protocol
  { g with
    discovery := { g.discovery with listeners }
    protocol := { g.protocol with subscription := some id } }

/-- The protocol joins, unless it has joined. -/
def joinProtocol (g : Roster L) : Roster L :=
  if g.protocol.joined then g else ((g.enrol g.discovery.provider.nodes).introduce).subscribe

/-- The protocol listens to discovery no longer. -/
def unsubscribe (g : Roster L) : Roster L :=
  { g with
    discovery := { g.discovery with
      listeners := g.discovery.listeners.removeSome g.protocol.subscription }
    protocol := { g.protocol with joined := false, subscription := none } }

/-- The protocol forgets who is a member. -/
def disband (g : Roster L) : Roster L :=
  { g with protocol := { g.protocol with members := .empty } }

/-- The protocol leaves, if it has joined. -/
def leaveProtocol (g : Roster L) : Roster L :=
  if g.protocol.joined then g.unsubscribe.disband else g

def joinGroup (g : Roster L) : Done × Roster L :=
  match g.gate.joinRefusal with
  | some f => (.error f, g)
  | none => (.ok (), g.joinProtocol)

def leaveGroup (g : Roster L) : Done × Roster L :=
  match g.gate.leaveRefusal with
  | some f => (.error f, g)
  | none => (.ok (), g.leaveProtocol)

/-! ## The service -/

def markLocal (g : Roster L) (alive : Bool) : Roster L :=
  { g with protocol := g.protocol.change Protocol.localKey (·.marked alive) }

/-- The service listens to the protocol no longer. -/
def detach (g : Roster L) : Roster L :=
  { g with
    protocol := { g.protocol with listeners := g.protocol.listeners.removeSome g.attached }
    attached := none }

/-- From the start up to where discovery is started. -/
def beginStart (g : Roster L) : Roster L :=
  let (id, listeners) := g.protocol.listeners.add .service
  { g with protocol := { g.protocol with listeners }, attached := some id, running := true }

/-- Takes a start back. Discovery stays as it is. -/
def undoStart (g : Roster L) : Roster L := { (g.markLocal false).detach with running := false }

/-- From where discovery was started. -/
def finishStart (g : Roster L) : Done → Done × Roster L
  | .error f => (.error f, g.undoStart)
  | .ok _ =>
    match (g.markLocal true).joinGroup with
    | (.ok _, g) => (.ok (), g)
    | (.error f, g) => (.error f, g.undoStart)

def setDiscovery (g : Roster L) (d : Discovery L) : Roster L := { g with discovery := d }

/-- Starts discovery and joins the group. If the service runs, nothing is done. -/
def start (g : Roster L) : Done × Roster L :=
  if g.running then (.ok (), g)
  else
    let g := g.beginStart
    let (r, d) := g.discovery.start
    (g.setDiscovery d).finishStart r

/-- From the stop up to where discovery is stopped. -/
def beginStop (g : Roster L) : Done × Roster L := { g with running := false }.leaveGroup

/-- From where discovery was stopped. -/
def finishStop (g : Roster L) : Roster L := (g.markLocal false).detach

/-- The first failure of two. -/
def both : Done → Done → Done
  | .ok _, r => r
  | .error f, _ => .error f

/-- Leaves the group and stops discovery, both in any case. If the service does not run,
nothing is done. -/
def stop (g : Roster L) : Done × Roster L :=
  if g.running then
    let (left, g) := g.beginStop
    let (stopped, d) := g.discovery.stop
    (both left stopped, (g.setDiscovery d).finishStop)
  else (.ok (), g)

/-! ## Looking -/

def localMember (g : Roster L) : Member := g.protocol.localMember

def member? (g : Roster L) (id : MemberId) : Option Member :=
  (g.protocol.member? id).map g.protocol.object

def members (g : Roster L) : List Member := g.protocol.members.values.map g.protocol.object

def byAddress? (g : Roster L) (a : Address) : Option Member :=
  g.members.find? fun m => m.address == a

end Roster

end ClusterNet.Membership
