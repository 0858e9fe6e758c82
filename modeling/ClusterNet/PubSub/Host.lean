import ClusterNet.Membership.Service
import ClusterNet.PubSub.Service

/-!
# Event services on their nodes

A host is a node with a membership and an event service. A service may be replaced by a new
one. What the old one had registered stays: its subscriptions go on to answer through the
routes that lead to them. But it hears nothing any more and cannot be told to close anything.
-/

namespace ClusterNet.PubSub

open ClusterNet.Membership Messaging

/-- A message that a subscriber understood. -/
structure Heard where
  topic : String
  label : String
  message : String
  deriving DecidableEq, Repr

/-- Stands for a subscription where somebody wants to close it. -/
structure Handle where
  service : ServiceKey
  topic : String
  id : SubscriptionId
  deriving DecidableEq, Repr

structure Host where
  /-- Where the node receives messages. -/
  address : Address
  roster : Roster ServiceKey
  routes : Routes
  /-- The service of the node. -/
  current : Service
  /-- The topics of the services that were replaced. -/
  former : Table ServiceKey Topics
  /-- How long the service waits before it says again what there is to say. -/
  period : Nat
  /-- When it will do so. -/
  due : Option Nat
  /-- What subscribers have heard, the last first. -/
  heard : List Heard

namespace Host

def ofRoster (address : Address) (roster : Roster ServiceKey) (clock : UInt64) (period : Nat) :
    Host :=
  ⟨address, roster, .empty, .ofClock 0 clock, .empty, period, none, []⟩

def view (h : Host) : View := ⟨h.roster.localMember.id, h.address, h.roster.members⟩

/-! ## Membership -/

/-- The event service is told of a change in the group. -/
def notice (h : Host) (d : Delivery ServiceKey) : Host × List Outgoing :=
  if d.listener = h.current.key then
    match d.news with
    | .member .added m => (h, h.current.welcome h.view.localId m)
    | .member .removed m => ({ h with current := h.current.forget m.id }, [])
    | _ => (h, [])
  else (h, [])

/-- The event service is told of everything that its listener was told. -/
def notices (h : Host) (ds : List (Delivery ServiceKey)) : Host × List Outgoing :=
  ds.foldl (fun (h, ps) d => let (h, qs) := h.notice d; (h, ps ++ qs)) (h, [])

/-- The group goes on, and the event service hears of it. -/
def follow (h : Host) (g : Roster ServiceKey) : Host × List Outgoing :=
  { h with roster := { g with log := [] } }.notices g.log.reverse

def withRoster {A : Type} (h : Host) (r : A × Roster ServiceKey) : A × Host × List Outgoing :=
  (r.1, h.follow r.2)

/-! ## The event service -/

/-- The service runs from now on. -/
def wake (h : Host) : Host := { h with current := { h.current with running := true } }

/-- Announcements are heard from now on. -/
def hearken (h : Host) : Host :=
  { h with routes := h.routes.insert announcementSubject (.announcements h.current.key) }

/-- The service listens to the membership from now on. -/
def attach (h : Host) : Host :=
  let (id, listeners) := h.roster.listeners.add h.current.key
  { h with
    current := { h.current with attached := some id }
    roster := { h.roster with listeners } }

/-- The service is to say again what there is to say when its period is over. -/
def schedule (h : Host) (now : Nat) : Host := { h with due := some (now + h.period) }

/-- Starts the event service. If it runs, nothing is done. -/
def start (h : Host) (now : Nat) : Host × List Outgoing :=
  if h.current.running then (h, [])
  else
    let h := (h.wake.hearken.attach).schedule now
    (h, h.current.announceAll h.view)

/-- Stops the event service. Its subscriptions stay. If it does not run, nothing is done. -/
def stop (h : Host) : Host :=
  if h.current.running then
    { h with
      current := { h.current with running := false, attached := none, records := .empty }
      roster := { h.roster with listeners := h.roster.listeners.removeSome h.current.attached }
      due := none
      routes := h.routes.erase announcementSubject }
  else h

/-- A new event service takes the place of the one that was there. -/
def replace (h : Host) (clock : UInt64) (period : Nat) : Host :=
  { h with
    period
    due := none
    current := .ofClock (h.current.key + 1) clock
    former := h.former.insert h.current.key h.current.topics }

/-- Says again what there is to say, when it is time. -/
def repeat? (h : Host) (now : Nat) : Option (Host × List Outgoing) :=
  match h.due with
  | some due =>
    if due ≤ now then
      some ({ h with due := some (due + h.period) }, h.current.announceAll h.view)
    else none
  | none => none

def subscribe (h : Host) (topic : String) (s : Subscriber) : Handle × Host × List Outgoing :=
  let (id, current, routes, ps) := h.current.subscribe h.view topic s h.routes
  (⟨current.key, topic, id⟩, { h with current, routes }, ps)

/-- Closes a subscription, unless its service was replaced. -/
def close (h : Host) (handle : Handle) : Bool × Host × List Outgoing :=
  if handle.service = h.current.key then
    let (found, current, routes, ps) := h.current.close h.view handle.topic handle.id h.routes
    (found, { h with current, routes }, ps)
  else (false, h, [])

/-- The open subscriptions to a topic. -/
def handles (h : Host) (topic : String) : List Handle :=
  (h.current.topics.all topic).map fun s => ⟨h.current.key, topic, s.id⟩

/-- A message for the subscriber of a topic whose turn it is. -/
def addressed (h : Host) (topic : String) (f : Service → View → Option Outgoing × Service) :
    Except Cluster.Failure Outgoing × Host :=
  let (m, current) := f h.current h.view
  (match m with
    | some m => .ok m
    | none => .error (.noSubscribers topic), { h with current })

/-! ## Receiving -/

def topicsOf (h : Host) (service : ServiceKey) : Topics :=
  if service = h.current.key then h.current.topics else (h.former.get? service).getD .empty

def setTopics (h : Host) (service : ServiceKey) (t : Topics) : Host :=
  if service = h.current.key then { h with current := { h.current with topics := t } }
  else { h with former := h.former.insert service t }

/-- A subscriber hears a message. -/
def tell (h : Host) (topic : String) (payload : Bytes) (s : Subscription) : Hearing × Host :=
  let hearing := s.subscriber.hear payload
  (hearing, match hearing.message with
    | some m => { h with heard := ⟨topic, s.subscriber.label, m⟩ :: h.heard }
    | none => h)

/-- The error of a request to a topic that is not served any longer. -/
def unserved (topic : String) : Effort := .failed s!"no local subscription for topic '{topic}'"

/-- A request to a topic goes to the subscription whose turn it is. -/
def ask (h : Host) (service : ServiceKey) (topic : String) (payload : Bytes) : Reaction × Host :=
  let (s, topics) := (h.topicsOf service).next topic
  let h := h.setTopics service topics
  match s with
  | none => (.works 0 (unserved topic), h)
  | some s =>
    let (hearing, h) := h.tell topic payload s
    (.works hearing.ms hearing.effort, h)

/-- A notice goes to every subscription. -/
def spread (h : Host) (service : ServiceKey) (topic : String) (payload : Bytes) : Host :=
  ((h.topicsOf service).all topic).foldl (fun h s => (h.tell topic payload s).2) h

/-- What happens to a message that comes in. Without a route nothing does. -/
def receive (h : Host) (r : Wire.Request) : Option Reaction × Host :=
  match h.routes.get? r.subject with
  | none => (none, h)
  | some (.handler x) => (some (x.react r), h)
  | some (.announcements service) =>
    (some .releases,
      if service = h.current.key then
        { h with current := h.current.hearBytes h.view.localId r.payload }
      else h)
  | some (.requests service topic) =>
    let (reaction, h) := h.ask service topic r.payload
    (some reaction, h)
  | some (.notices service topic) => (some .releases, h.spread service topic r.payload)

end Host

end ClusterNet.PubSub
