import ClusterNet.PubSub.Host

/-!
# Threads of an event service

The calls of an event service run on threads, and so do its listeners. What a thread does in one
go is an operation: it goes to a map, to a counter or to the group once. Between two operations
any other thread may go on. The keys of a map are not read in one go either, but shard by shard.
-/

namespace ClusterNet.PubSub

open ClusterNet.Membership Messaging

/-- How a map spreads its keys. -/
structure Shards (K : Type) where
  count : Nat
  of : K → Nat
  lt : ∀ k, of k < count

/-- What a thread does in one go. -/
inductive Op where
  /-- Lets the service run, and goes on if it did not. -/
  | wakes (now : Nat)
  | hearkens
  | attaches
  | schedules (now : Nat)
  | numbers (topic : String) (x : Subscriber)
  | enlists (topic : String) (x : Subscription)
  /-- Strikes out a subscription, and goes on if it was there. -/
  | delists (topic : String) (id : SubscriptionId)
  | bumps
  /-- Looks up whom there is to tell. -/
  | gathers
  /-- Goes on if the service runs and there is somebody to tell. -/
  | addresses (targets : List Address)
  /-- Looks up the version. -/
  | dates (targets : List Address)
  /-- Reads the topics in the next shard. After the last one it sends what was found. -/
  | reads (targets : List Address) (version : UInt64) (left : List Nat) (found : List String)
  /-- Hears of a change in the group. -/
  | heeds (d : Delivery ServiceKey)
  /-- Looks up whether the node serves a topic itself. -/
  | asks (topic : String)
  /-- Sees whether the next candidate looks alive. After the last one it reads the records in the
  next shard. -/
  | finds (topic : String) (left : List Nat) (candidates found : List MemberId)
  /-- Has found the subscribers of a topic. -/
  | answers (topic : String) (ids : List MemberId)

/-- What an operation makes of its host. -/
def Op.apply (h : Host) : Op → Host
  | .wakes _ => h.wake
  | .hearkens => h.hearken
  | .attaches => h.attach
  | .schedules now => h.schedule now
  | .numbers _ _ => { h with current := h.current.number.2 }
  | .enlists topic x =>
    let (current, routes) := h.current.enlist topic x h.routes
    { h with current, routes }
  | .delists topic id =>
    let (_, current, routes) := h.current.delist topic id h.routes
    { h with current, routes }
  | .bumps => { h with current := h.current.bump }
  | .heeds d => (h.notice d).1
  | _ => h

/-- A member that has come is to be told what there is to say. -/
def Host.greet (h : Host) (d : Delivery ServiceKey) : List Op :=
  match d.news with
  | .member .added m =>
    if d.listener = h.current.key ∧ m.id ≠ h.view.localId then [.addresses [m.address]] else []
  | _ => []

/-- What may be wanted of an event service. -/
inductive Call where
  | starts (now : Nat)
  | subscribes (topic : String) (x : Subscriber)
  | closes (topic : String) (id : SubscriptionId)
  /-- Says again what there is to say. -/
  | repeats
  | asks (topic : String)

def Call.ops : Call → List Op
  | .starts now => [.wakes now]
  | .subscribes topic x => [.numbers topic x]
  | .closes topic id => [.delists topic id]
  | .repeats => [.gathers]
  | .asks topic => [.asks topic]

/-- A host, and what each of its threads has still to do. -/
structure Site where
  host : Host
  topicShards : Shards String
  recordShards : Shards MemberId
  threads : List (List Op)

namespace Site

/-- The topics in a shard. -/
def topicsIn (s : Site) (n : Nat) : List String :=
  s.host.current.topics.keys.filter fun t => s.topicShards.of t == n

/-- The members in a shard that are known to serve a topic. -/
def membersIn (s : Site) (topic : String) (n : Nat) : List MemberId :=
  (s.host.current.records.entries.filter fun e =>
    s.recordShards.of e.1 == n && e.2.topics.contains topic).map (·.1)

/-- What is to be done after an operation. -/
def next (s : Site) : Op → List Op
  | .wakes now =>
    if s.host.current.running then [] else [.hearkens, .attaches, .schedules now, .gathers]
  | .hearkens | .attaches | .schedules _ => []
  | .numbers topic x => [.enlists topic ⟨s.host.current.number.1, x⟩]
  | .enlists _ _ => [.bumps]
  | .delists topic id =>
    if (s.host.current.delist topic id s.host.routes).1 then [.bumps] else []
  | .bumps => [.gathers]
  | .gathers => [.addresses s.host.view.others]
  | .addresses targets =>
    if s.host.current.running && !targets.isEmpty then [.dates targets] else []
  | .dates targets =>
    [.reads targets s.host.current.version (List.range s.topicShards.count) []]
  | .reads targets version (n :: left) found =>
    [.reads targets version left (found ++ s.topicsIn n)]
  | .reads _ _ [] _ => []
  | .heeds d => s.host.greet d
  | .asks topic =>
    [.finds topic (List.range s.recordShards.count) []
      (if s.host.current.topics.contains topic then [s.host.view.localId] else [])]
  | .finds topic left (id :: candidates) found =>
    [.finds topic left candidates (if s.host.view.isActive id then found ++ [id] else found)]
  | .finds topic (n :: left) [] found => [.finds topic left (s.membersIn topic n) found]
  | .finds topic [] [] found =>
    [.answers topic ((TextSet.ofList (found.map (·.text))).items.map .mk)]
  | .answers topic ids => [.answers topic ids]

/-- What an operation sends. -/
def mail (s : Site) : Op → List Outgoing
  | .reads targets version [] found => targets.map fun a =>
    ⟨a, announcementSubject,
      Json.Form.bytes (⟨s.host.view.localId, version, .ofList found⟩ : Announcement)⟩
  | _ => []

/-- A thread has come so far that there is something else to do for it. -/
def put (s : Site) (k : Nat) (host : Host) (ops : List Op) : Site :=
  { s with host, threads := s.threads.set k ops }

/-- A thread goes on. -/
def step (s : Site) (k : Nat) : Site × List Outgoing :=
  match s.threads[k]? with
  | some (op :: rest) => (s.put k (op.apply s.host) (s.next op ++ rest), s.mail op)
  | _ => (s, [])

/-- A call begins. -/
def begin (s : Site) (c : Call) : Site := { s with threads := s.threads ++ [c.ops] }

/-- The group has gone on. The service hears of it bit by bit. -/
def regroup (s : Site) (g : Roster ServiceKey) : Site :=
  { s with
    host := { s.host with roster := { g with log := [] } }
    threads := s.threads ++ [g.log.reverse.map .heeds] }

/-- A message comes in. -/
def hear (s : Site) (r : Wire.Request) : Site := { s with host := (s.host.receive r).2 }

end Site

end ClusterNet.PubSub
