import ClusterNet.Bench.Clock
import ClusterNet.Messaging.Local
import ClusterNet.Messaging.Outgoing

/-!
# A network on the bench

Nodes that reach each other at their addresses, without streams between them: a message is at
its goal at once, or the goal cannot be reached. All messages on their way are noted. Nodes
may be kept from sending, and addresses may be down.
-/

namespace ClusterNet.Bench

open Messaging

/-- What can take in messages. -/
class Receiver (N : Type) where
  /-- What happens to a message that comes in. -/
  receive : N → Wire.Request → Option Reaction × N
  /-- The moments that it waits for. -/
  dues : N → List Nat
  /-- What it does at such a moment, and what it wants to have sent then. -/
  stir? : N → (now : Nat) → Option (N × List Outgoing)

/-- What a receiver knows to do with one request. -/
def Receiver.handlers (r : Wire.Request) : Option Reaction → Handlers
  | some reaction => Table.empty.insert r.subject ⟨"", fun _ => reaction⟩
  | none => .empty

/-- What can live at an address of the network. -/
class Resident (N : Type) extends Receiver N where
  address : N → Address

/-- A message that was on its way. -/
structure Transfer where
  source : Address
  message : Outgoing

structure Site (N : Type) where
  resident : N
  /-- The node may send. -/
  online : Bool
  link : LocalLink

structure Network (N : Type) where
  sites : Table String (Site N)
  down : List Address
  /-- What nodes want to have sent as soon as there is time. -/
  outbox : List (String × Outgoing)
  /-- What was sent, the last first. -/
  traffic : List Transfer
  nextCall : CallKey

namespace Network

variable {N : Type} [Resident N]

def ofResidents (rs : List (String × N)) : Network N :=
  ⟨Table.empty.insertAll (rs.map fun (name, r) => (name, ⟨r, true, .start⟩)), [], [], [], 0⟩

def setSite (n : Network N) (name : String) (s : Site N) : Network N :=
  { n with sites := n.sites.insert name s }

def setResident (n : Network N) (name : String) (r : N) : Network N :=
  { n with sites := n.sites.modify name fun s => { s with resident := r } }

/-- Sent as soon as there is time. -/
def post (n : Network N) (name : String) (ps : List Outgoing) : Network N :=
  { n with outbox := n.outbox ++ ps.map (name, ·) }

/-- The node at an address, unless the address is down. -/
def reach? (n : Network N) (a : Address) : Option (String × Site N) :=
  if n.down.contains a then none
  else n.sites.entries.find? fun e => Resident.address e.2.resident == a

/-- A message sets out: the request that arrives, and the node that it arrives at. -/
def depart (n : Network N) (name : String) (id : UInt64) (p : Outgoing) :
    Except Failure (Wire.Request × String × Site N) × Network N :=
  match n.sites.get? name with
  | none => (.error .notRunning, n)
  | some sender =>
    if !sender.online then (.error .notRunning, n)
    else
      let source := Resident.address sender.resident
      let n := { n with traffic := ⟨source, p⟩ :: n.traffic }
      match n.reach? p.goal with
      | none => (.error (.connect p.goal .unreachable), n)
      | some (goal, site) => (.ok (⟨id, source, p.subject, p.payload⟩, goal, site), n)

/-- A request for which no reply is expected comes in. -/
def deliver (n : Network N) (now : Nat) (goal : String) (site : Site N) (r : Wire.Request) :
    Except Failure Unit × Network N :=
  let (reaction, resident) := Receiver.receive site.resident r
  let (result, link) := site.link.send (Receiver.handlers r reaction) now r
  (result, n.setSite goal { site with resident, link })

/-- Sends a message for which no reply is expected. -/
def send (n : Network N) (now : Nat) (name : String) (p : Outgoing) :
    Except Failure Unit × Network N :=
  match n.depart name 0 p with
  | (.error f, n) => (.error f, n)
  | (.ok (r, goal, site), n) => n.deliver now goal site r

/-- A call that has set out: where it waits and under which key. -/
abbrev Ring := String × CallKey

/-- Starts a call. -/
def begin (n : Network N) (now : Nat) (name : String) (p : Outgoing) (ms : Nat) :
    Except Failure Ring × Network N :=
  match n.depart name 0 p with
  | (.error f, n) => (.error f, n)
  | (.ok (r, goal, site), n) =>
    let (reaction, resident) := Receiver.receive site.resident r
    let link := site.link.begin (Receiver.handlers r reaction) now n.nextCall r ms
    (.ok (goal, n.nextCall),
      { n.setSite goal { site with resident, link } with nextCall := n.nextCall + 1 })

def call? (n : Network N) (ring : Ring) : Option Call :=
  (n.sites.get? ring.1).bind fun s => s.link.calls.get? ring.2

/-- A step of one site: a job, a call, or what its resident does when its time has come. -/
def stirSite? (n : Network N) (now : Nat) (e : String × Site N) : Option (Network N) :=
  let (name, s) := e
  let job := s.link.jobs.keys.findSome? fun k => s.link.work? k now
  match job.orElse fun _ => s.link.calls.keys.findSome? fun k => s.link.proceed? k now with
  | some link => some (n.setSite name { s with link })
  | none =>
    (Receiver.stir? s.resident now).map fun (resident, ps) =>
      (n.setSite name { s with resident }).post name ps

def move? (now : Nat) (n : Network N) : Option (Network N) :=
  match n.outbox with
  | (name, p) :: rest => some (({ n with outbox := rest }.send now name p).2)
  | [] => n.sites.entries.findSome? (n.stirSite? now)

def machine : Machine (Network N) where
  move? := move?
  dues n := n.sites.values.flatMap fun s =>
    s.link.jobs.values.filterMap LocalLink.due? ++ s.link.calls.values.filterMap Call.due? ++
      Receiver.dues s.resident

/-! ## Scripts -/

abbrev Run (N : Type) := Timed (Network N)

def change (f : Network N → Network N) (t : Run N) : Run N := { t with state := f t.state }

def resident? (t : Run N) (name : String) : Option N := (t.state.sites.get? name).map (·.resident)

/-- Something happens at a node, which may want to have something sent then. -/
def act {A : Type} (name : String) (r : A × N × List Outgoing) (t : Run N) : A × Run N :=
  (r.1, change (fun n => (n.setResident name r.2.1).post name r.2.2) t)

def sendNow (name : String) (p : Outgoing) (t : Run N) : Except Failure Unit × Run N :=
  let (result, state) := t.state.send t.now name p
  (result, { t with state })

/-- Sends a request and waits for what it comes to. The time goes on after every round, and the call
is over when its time is up. -/
def call (name : String) (p : Outgoing) (ms : Nat) (t : Run N) : Outcome × Run N :=
  match t.state.begin t.now name p ms with
  | (.error f, state) => (.error f, { t with state })
  | (.ok ring, state) =>
    let (o, t) := machine.await (fun n => (n.call? ring).bind Call.outcome?) (ms + 1)
      { t with state }
    (o.getD (.error .connectionClosed), t)

def setOnline (name : String) (b : Bool) : Run N → Run N :=
  change fun n => { n with sites := n.sites.modify name fun s => { s with online := b } }

def setDown (a : Address) (b : Bool) : Run N → Run N :=
  change fun n => { n with down := if b then a :: n.down else n.down.filter (· != a) }

/-- Puts things in the order of their keys. Things with the same keys stay as they are. -/
def sortBy {A : Type} (keys : A → List String) (as : List A) : List A :=
  as.mergeSort fun a b => (compare (keys a) (keys b)).isLE

/-- What was sent since the last time, by sender, goal and subject. -/
def collect (t : Run N) : List Transfer × Run N :=
  let keys (x : Transfer) := [x.source.text, x.message.goal.text, x.message.subject]
  (sortBy keys t.state.traffic.reverse,
    change (fun n => { n with traffic := [] }) t)

end Network

end ClusterNet.Bench
