import ClusterNet.Bench.Stream
import ClusterNet.Messaging.Link
import ClusterNet.Messaging.Local

/-!
# Connections on the bench

A client, a server, both joined by a stream, or a node that calls itself, with handlers that a
script registers. Where one end of a stream is missing, the script stands in for it.
-/

namespace ClusterNet.Bench

open Messaging

inductive Party where
  | inside (l : LocalLink)
  | client (e : ClientEnd)
  | server (e : ServerEnd)
  | both (l : Link)

structure ConnectionBench where
  handlers : Handlers
  party : Party

namespace Party

/-- A stream gives and takes as much as there is and as fits. -/
def most : Nat := 65536

def jobKeys : Party → List JobKey
  | inside l => l.jobs.keys
  | client _ => []
  | server e => e.server.jobs.keys
  | both l => l.server.jobs.keys

def callKeys : Party → List CallKey
  | inside l => l.calls.keys
  | client e => e.client.calls.keys
  | server _ => []
  | both l => l.client.calls.keys

/-- The readers go first and then those who take messages, the jobs, the writers, and at last
the calls. -/
def order (p : Party) : List Move :=
  [.client .notices, .client (.reads most), .server .notices, .server (.reads most),
    .server .serves] ++ p.jobKeys.map (fun k => .server (.works k)) ++
  [.server (.writes most), .client (.writes most), .client .receives] ++
  p.callKeys.map (fun k => .client (.proceeds k))

def step? (handlers : Handlers) (now : Nat) (p : Party) (m : Move) : Option Party :=
  match p, m with
  | inside l, .server (.works k) => (l.work? k now).map inside
  | inside l, .client (.proceeds k) => (l.proceed? k now).map inside
  | client e, .client m => (e.move? now m).map client
  | server e, .server m => (e.move? handlers now m).map server
  | both l, m => (l.move? handlers now m).map both
  | _, _ => none

def dues : Party → List Nat
  | inside l => l.jobs.values.filterMap LocalLink.due? ++ l.calls.values.filterMap Call.due?
  | client e => e.client.calls.values.filterMap Call.due?
  | server e => e.server.jobs.values.filterMap Server.due?
  | both l =>
    l.server.jobs.values.filterMap Server.due? ++ l.client.calls.values.filterMap Call.due?

def mapClient (f : Client → Client) : Party → Party
  | client e => client { e with client := f e.client }
  | both l => both { l with client := f l.client }
  | p => p

def client? : Party → Option Client
  | client e => some e.client
  | both l => some l.client
  | _ => none

def server? : Party → Option Server
  | server e => some e.server
  | both l => some l.server
  | _ => none

def call? : Party → CallKey → Option Call
  | inside l, k => l.calls.get? k
  | p, k => p.client?.bind (·.call? k)

end Party

namespace ConnectionBench

def machine : Machine ConnectionBench where
  move? now b :=
    (b.party.order.findSome? (b.party.step? b.handlers now)).map fun party => { b with party }
  dues b := b.party.dues

/-- The pipes at the script's end. -/
def tap : Tap ConnectionBench where
  pipes b := match b.party with
    | .client e => (e.into, e.out)
    | .server e => (e.into, e.out)
    | _ => (.ofCapacity 0, .ofCapacity 0)
  setPipes b p := match b.party with
    | .client e => { b with party := .client { e with into := p.1, out := p.2 } }
    | .server e => { b with party := .server { e with into := p.1, out := p.2 } }
    | _ => b

abbrev Run := Timed ConnectionBench

def changeParty (f : Party → Party) (t : Run) : Run :=
  { t with state := { t.state with party := f t.state.party } }

/-- Starts a call. -/
def begin (k : CallKey) (r : Wire.Request) (ms : Nat) (t : Run) : Run :=
  changeParty (fun
    | .inside l => .inside (l.begin t.state.handlers t.now k r ms)
    | p => p.mapClient (·.begin k r ms)) t

/-- Waits for a call to be over. -/
def finish (k : CallKey) (t : Run) : Option Outcome × Run :=
  machine.await (fun b => (b.party.call? k).bind Call.outcome?) Machine.patience t

/-- Gives a call up, and says whether it was still open. -/
def abandon (k : CallKey) (t : Run) : Bool × Run :=
  (((t.state.party.call? k).map Call.isOpen).getD false,
    changeParty (fun
      | .inside l => .inside (l.abandon k)
      | p => p.mapClient (·.abandon k)) t)

/-- Sends a request for which no reply is expected. -/
def send (r : Wire.Request) (t : Run) : Option (Except Failure Unit) × Run :=
  match t.state.party with
  | .inside l =>
    let (o, l) := l.send t.state.handlers t.now r
    (some o, changeParty (fun _ => .inside l) t)
  | p =>
    match p.client? with
    | none => (none, t)
    | some c =>
      let (ticket, channel) := c.channel.submit (.request r)
      machine.await (fun b => b.party.client?.bind (·.channel.outcome? ticket)) Machine.patience
        (changeParty (·.mapClient fun c => { c with channel }) t)

/-- Closes the client's end. -/
def close (t : Run) : Run :=
  changeParty (fun
    | .inside l => .inside l.close
    | p => p.mapClient fun c => { c with channel := c.channel.close }) t

def closeServer (t : Run) : Run :=
  changeParty (fun
    | .server e => .server { e with server := { e.server with channel := e.server.channel.close } }
    | .both l => .both { l with server := { l.server with channel := l.server.channel.close } }
    | p => p) t

/-- What handlers did since the last time, in order. -/
def collect (t : Run) : List Event × Run :=
  match t.state.party with
  | .inside l => (l.log.reverse, changeParty (fun _ => .inside { l with log := [] }) t)
  | .server e =>
    (e.server.log.reverse,
      changeParty (fun _ => .server { e with server := { e.server with log := [] } }) t)
  | .both l =>
    (l.server.log.reverse,
      changeParty (fun _ => .both { l with server := { l.server with log := [] } }) t)
  | .client _ => ([], t)

def clientActive? (b : ConnectionBench) : Option Bool :=
  match b.party with
  | .inside l => some l.isActive
  | p => p.client?.map (·.channel.isActive)

def serverActive? (b : ConnectionBench) : Option Bool :=
  b.party.server?.map (·.channel.isActive)

/-- How many calls are listed. -/
def pendingCount? (b : ConnectionBench) : Option Nat := b.party.client?.map (·.pending.size)

end ConnectionBench

end ClusterNet.Bench
