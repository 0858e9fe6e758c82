import ClusterNet.Bench.Network
import ClusterNet.PubSub.Host

/-!
# Event services on the bench

Hosts on a network. Each has a clock that it reads when it gets a new event service.
-/

namespace ClusterNet.Bench

open Cluster Messaging PubSub

instance : Resident Host where
  address h := h.address
  receive h r := h.receive r
  dues h := h.due.toList
  stir? h now := h.repeat? now

namespace EventBench

abbrev Run := Network.Run Host

/-- What the clock of a host shows when it gets its event services, one every fifty milliseconds. -/
def clock (service : ServiceKey) : UInt64 := 1700000000000 + 50 * service.toUInt64

/-- How long calls wait if nothing else is said. -/
def patience : Nat := 10000

/-- How long a service that replaces another one waits before it repeats itself. -/
def longPeriod : Nat := 1000000

def host (t : Run) (name : String) : Host :=
  (Network.resident? t name).getD (.ofRoster default (.ofLocal default (.ofNodes [])) 0 0)

/-- Something happens at a host. -/
def at_ {A : Type} (t : Run) (name : String) (f : Host → A × Host × List Outgoing) : A × Run :=
  Network.act name (f (host t name)) t

def startMembership (name : String) (t : Run) : Done × Run :=
  at_ t name fun h => h.withRoster h.roster.start

def stopMembership (name : String) (t : Run) : Done × Run :=
  at_ t name fun h => h.withRoster h.roster.stop

def startEvents (name : String) (t : Run) : Done × Run :=
  at_ t name fun h => (.ok (), h.start t.now)

def stopEvents (name : String) (t : Run) : Done × Run :=
  at_ t name fun h => (.ok (), h.stop, [])

def start (name : String) (t : Run) : Done × Run :=
  match startMembership name t with
  | (.ok _, t) => startEvents name t
  | r => r

def subscribe (name topic : String) (s : Subscriber) (t : Run) : Handle × Run :=
  at_ t name (·.subscribe topic s)

def close (name : String) (handle : Handle) (t : Run) : Bool × Run := at_ t name (·.close handle)

/-- Closes every subscription to a topic that can be found. -/
def closeFound (name topic : String) (t : Run) : List Bool × Run :=
  ((host t name).handles topic).foldl (fun (bs, t) handle =>
    let (b, t) := close name handle t
    (bs ++ [b], t)) ([], t)

def replace (name : String) (t : Run) : Run :=
  (at_ t name fun h => ((), h.replace (clock (h.current.key + 1)) longPeriod, [])).2

/-! ## Publishing -/

/-- Sends to every subscriber. Nobody is told if that fails. -/
def broadcast (name topic : String) (payload : Bytes) (t : Run) : Run :=
  let h := host t name
  (h.current.broadcast h.view topic payload).foldl (fun t m => (Network.sendNow name m t).2) t

/-- A message for the subscriber whose turn it is. -/
def addressed (name topic : String)
    (f : PubSub.Service → View → Option Outgoing × PubSub.Service) (t : Run) :
    Except Cluster.Failure Outgoing × Run :=
  at_ t name fun h =>
    let (m, h) := h.addressed topic f
    (m, h, [])

def unicast (name topic : String) (payload : Bytes) (t : Run) : Done × Run :=
  match addressed name topic (·.unicast · topic payload) t with
  | (.error f, t) => (.error f, t)
  | (.ok m, t) =>
    let (r, t) := Network.sendNow name m t
    (r.mapError .messaging, t)

def send (name topic : String) (payload : Bytes) (ms : Nat) (t : Run) :
    Except Cluster.Failure Bytes × Run :=
  match addressed name topic (·.request · topic payload) t with
  | (.error f, t) => (.error f, t)
  | (.ok m, t) =>
    let (r, t) := Network.call name m ms t
    (r.mapError .messaging, t)

/-! ## By hand -/

/-- Uses the route of a subject for another one too, and says whether there is one. -/
def alias_ (name subject other : String) (t : Run) : Bool × Run :=
  at_ t name fun h =>
    match h.routes.get? subject with
    | some r => (true, { h with routes := h.routes.insert other r }, [])
    | none => (false, h, [])

/-- Calls the node itself. -/
def direct (name subject : String) (payload : Bytes) (ms : Nat) (t : Run) : Outcome × Run :=
  Network.call name ⟨(host t name).address, subject, payload⟩ ms t

/-- Hands bytes to a node as an announcement, not over the network. -/
def announce (name : String) (source : Address) (payload : Bytes) (t : Run) : Run :=
  match t.state.sites.get? name with
  | none => t
  | some site =>
    { t with state :=
        (t.state.deliver t.now name site ⟨0, source, announcementSubject, payload⟩).2 }

/-! ## Looking -/

/-- An announcement with the version counted from where the service of its member started. -/
def relative (t : Run) (a : Announcement) : Announcement :=
  match Network.resident? t a.member.text with
  | some h => { a with version := a.version - clock h.current.key }
  | none => a

/-- What was heard since the last time, by host, topic and subscriber. -/
def collect (t : Run) : List (String × Heard) × Run :=
  let heard := t.state.sites.entries.flatMap fun (name, s) =>
    s.resident.heard.reverse.map (name, ·)
  (Network.sortBy (fun x => [x.1, x.2.topic, x.2.label]) heard, Network.change (fun n =>
    { n with sites := ⟨n.sites.entries.map fun (name, s) =>
        (name, { s with resident := { s.resident with heard := [] } })⟩ }) t)

end EventBench

end ClusterNet.Bench
