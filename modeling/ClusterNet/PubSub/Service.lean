import ClusterNet.Listeners
import ClusterNet.Member
import ClusterNet.Messaging.Outgoing
import ClusterNet.PubSub.Announcement
import ClusterNet.PubSub.Route
import ClusterNet.PubSub.Topics

/-!
# Event services

An event service keeps the subscriptions of its node and tells the other members which topics
it serves. What it hears from them it keeps as one record for each member, and a later version
replaces an earlier one. The subscribers of a topic are the members that serve it and look
alive; they take turns where only one of them is wanted.

The service sees the cluster through a view. What it wants to have sent it gives to whoever
calls it.
-/

namespace ClusterNet.PubSub

open Messaging

/-- How the cluster looks from a node. -/
structure View where
  localId : MemberId
  /-- Where the node itself receives messages. -/
  home : Address
  members : List Member

namespace View

def member? (v : View) (id : MemberId) : Option Member := v.members.find? fun m => m.id == id

/-- Whether a member is known and looks alive. -/
def isActive (v : View) (id : MemberId) : Bool := ((v.member? id).map (·.active)).getD false

/-- The addresses of the other members that look alive. -/
def others (v : View) : List Address :=
  (v.members.filter fun m => m.id != v.localId && m.active).map (·.address)

def address? (v : View) (id : MemberId) : Option Address :=
  if id = v.localId then some v.home else (v.member? id).map (·.address)

end View

/-- What is known of the topics of another member. -/
structure Record where
  version : UInt64
  topics : TextSet
  deriving DecidableEq

structure Service where
  key : ServiceKey
  topics : Topics
  records : Table MemberId Record
  /-- Whose turn it is, for each topic that something was sent to. -/
  balancers : Table String Balancer
  /-- Grows with every change of the subscriptions. -/
  version : UInt64
  nextId : SubscriptionId
  running : Bool
  /-- Under which id the service listens to the membership. -/
  attached : Option ListenerId

namespace Service

/-- A new service. Its version starts from a clock, so that it outranks the service that was
there before. -/
def ofClock (key : ServiceKey) (ms : UInt64) : Service :=
  ⟨key, .empty, .empty, .empty, ms, 1, false, none⟩

instance : Inhabited Service := ⟨ofClock 0 0⟩

/-! ## Announcing -/

/-- What there is to say to the others. -/
def announcement (s : Service) (localId : MemberId) : Announcement :=
  ⟨localId, s.version, s.topics.names⟩

/-- Announcements for some members, while the service runs. -/
def announceTo (s : Service) (localId : MemberId) (targets : List Address) : List Outgoing :=
  if s.running then
    targets.map fun a => ⟨a, announcementSubject, Json.Form.bytes (s.announcement localId)⟩
  else []

/-- Announcements for everyone. -/
def announceAll (s : Service) (v : View) : List Outgoing := s.announceTo v.localId v.others

/-- Takes in an announcement, unless something as late as that is known already. -/
def adopt (s : Service) (a : Announcement) : Service :=
  match s.records.get? a.member with
  | some r =>
    if r.version < a.version then
      { s with records := s.records.insert a.member ⟨a.version, a.topics⟩ }
    else s
  | none => { s with records := s.records.insert a.member ⟨a.version, a.topics⟩ }

/-- Hears an announcement. What claims to be from the node itself means nothing. -/
def hear (s : Service) (localId : MemberId) (a : Announcement) : Service :=
  if a.member = localId then s else s.adopt a

/-- Hears a message that should be an announcement. -/
def hearBytes (s : Service) (localId : MemberId) (b : Bytes) : Service :=
  match (Json.Form.ofBytes? b : Option Announcement) with
  | some a => s.hear localId a
  | none => s

/-- A member has come. It is told what there is to say. -/
def welcome (s : Service) (localId : MemberId) (m : Member) : List Outgoing :=
  if m.id = localId then [] else s.announceTo localId [m.address]

/-- A member has gone, and what is known of it goes too. -/
def forget (s : Service) (id : MemberId) : Service := { s with records := s.records.erase id }

/-! ## Subscribing -/

/-- A subscription gets its number. -/
def number (s : Service) : SubscriptionId × Service := (s.nextId, { s with nextId := s.nextId + 1 })

/-- Enters a subscription. A topic that was not served gets its routes. -/
def enlist (s : Service) (topic : String) (x : Subscription) (routes : Routes) : Service × Routes :=
  ({ s with topics := s.topics.add topic x },
    if s.topics.contains topic then routes else routes.addTopic s.key topic)

/-- Strikes out a subscription, and says whether it was there. A topic that is not served any
longer loses its routes. -/
def delist (s : Service) (topic : String) (id : SubscriptionId) (routes : Routes) :
    Bool × Service × Routes :=
  let (found, topics) := s.topics.remove topic id
  (found, { s with topics },
    if s.topics.contains topic && !(topics.contains topic) then routes.removeTopic topic
    else routes)

/-- The version follows a change of the subscriptions. -/
def bump (s : Service) : Service := { s with version := s.version + 1 }

/-- The subscriptions have changed. -/
def changed (s : Service) (v : View) : Service × List Outgoing := (s.bump, s.bump.announceAll v)

/-- Adds a subscription. -/
def subscribe (s : Service) (v : View) (topic : String) (subscriber : Subscriber)
    (routes : Routes) : SubscriptionId × Service × Routes × List Outgoing :=
  let (id, s) := s.number
  let (s, routes) := s.enlist topic ⟨id, subscriber⟩ routes
  let (s, mail) := s.changed v
  (id, s, routes, mail)

/-- Closes a subscription, and says whether it was open. -/
def close (s : Service) (v : View) (topic : String) (id : SubscriptionId) (routes : Routes) :
    Bool × Service × Routes × List Outgoing :=
  let (found, s, routes) := s.delist topic id routes
  if found then
    let (s, mail) := s.changed v
    (true, s, routes, mail)
  else (false, s, routes, [])

/-! ## Publishing -/

/-- The members that serve a topic and look alive, in order. The node itself needs not look
alive. -/
def subscribers (s : Service) (v : View) (topic : String) : List MemberId :=
  let remote := s.records.entries.filter fun e => e.2.topics.contains topic && v.isActive e.1
  let ids := (if s.topics.contains topic then [v.localId] else []) ++ remote.map (·.1)
  (TextSet.ofList (ids.map (·.text))).items.map .mk

/-- The subscriber whose turn it is. -/
def nextSubscriber (s : Service) (v : View) (topic : String) : Option Address × Service :=
  let (id, balancer) := ((s.balancers.get? topic).getD .start).pick (s.subscribers v topic)
  (id.bind v.address?, { s with balancers := s.balancers.insert topic balancer })

/-- Notices for every subscriber. -/
def broadcast (s : Service) (v : View) (topic : String) (payload : Bytes) : List Outgoing :=
  ((s.subscribers v topic).filterMap v.address?).map fun a => ⟨a, noticeSubject topic, payload⟩

/-- A notice for one subscriber. -/
def unicast (s : Service) (v : View) (topic : String) (payload : Bytes) :
    Option Outgoing × Service :=
  let (a, s) := s.nextSubscriber v topic
  (a.map fun a => ⟨a, noticeSubject topic, payload⟩, s)

/-- A request to one subscriber. -/
def request (s : Service) (v : View) (topic : String) (payload : Bytes) :
    Option Outgoing × Service :=
  let (a, s) := s.nextSubscriber v topic
  (a.map fun a => ⟨a, topic, payload⟩, s)

end Service

end ClusterNet.PubSub
