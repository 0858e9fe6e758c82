import ClusterNet.Bench.Solo
import ClusterNet.Bench.Subscriber
import ClusterNet.Cluster.Stack

/-!
# Nodes of a cluster on the bench

Whole nodes, each of them alone. A script may let them find a port in use, and may play the
provider of a node.
-/

namespace ClusterNet.Bench

open Cluster ClusterNet.Membership Messaging PubSub

instance : Solitary Stack where
  receive n r :=
    let (reaction, host) := n.host.receive r
    (reaction, { n with host })
  dues n := n.host.due.toList
  stir? n now := (n.host.repeat? now).map fun (host, mail) => ({ n with host }, mail)
  service n := n.messaging
  setService n messaging := { n with messaging }

structure ClusterBench where
  run : Solo.Run Stack
  /-- Some node was to find its port in use. -/
  crowded : Bool
  /-- The nodes whose providers the script plays. -/
  manual : List String

namespace ClusterBench

def start : ClusterBench := ⟨⟨0, .empty⟩, false, []⟩

/-- A port that is in use. -/
def inUse : Socket := ⟨.v4 ⟨127, 0, 0, 1⟩, 1024⟩

/-- Where a node listens that leaves its port open. -/
def anywhere : Address := Address.ofHost "127.0.0.1" 0

/-- Makes a node, which takes the place of the one that had its name. -/
def build (name : String) (config : Config) (manual busy : Bool) (b : ClusterBench) :
    Done × ClusterBench :=
  let address := if busy then inUse.address else anywhere
  let config := { config with node := { config.node with address } }
  let provider : Provider ServiceKey := .ofNodes (if manual then [] else config.nodes)
  let b := if busy then
      { b with crowded := true, run := Solo.setPorts (b.run.state.ports.take inUse) b.run }
    else b
  match Stack.ofProvider config ⟨"<generated>"⟩ 0 provider with
  | .error f => (.error f, b)
  | .ok n =>
    (.ok (), { b with
      run := { b.run with state := b.run.state.put name n }
      manual := (b.manual.filter (· != name)) ++ if manual then [name] else [] })

def node? (b : ClusterBench) (name : String) : Option Stack := Solo.node? b.run name

def lift {A : Type} (b : ClusterBench) (r : A × Solo.Run Stack) : A × ClusterBench :=
  (r.1, { b with run := r.2 })

/-- Something happens at a node. -/
def at_ {A : Type} (name : String) (n : Stack) (f : Host → A × Host × List Outgoing)
    (b : ClusterBench) : A × ClusterBench :=
  let (a, host, mail) := f n.host
  b.lift (Solo.act name (a, { n with host }, mail) b.run)

def startNode (name : String) (n : Stack) (b : ClusterBench) : Done × ClusterBench :=
  let (r, n, mail, ports) := n.start b.run.now b.run.state.ports
  b.lift (Solo.act name (r, n, mail) (Solo.setPorts ports b.run))

def stopNode (name : String) (n : Stack) (b : ClusterBench) : ClusterBench :=
  (b.lift (Solo.act name ((), n.stop, []) (Solo.vacate name b.run))).2

def subscribe (name : String) (n : Stack) (topic tag : String) (b : ClusterBench) :
    SubscriptionId × ClusterBench :=
  let (handle, b) := b.at_ name n (·.subscribe topic (Subscriber.ofKind "" ("sync:" ++ tag)))
  (handle.id, b)

/-- Closes every subscription to a topic. -/
def unsubscribe (name : String) (n : Stack) (topic : String) (b : ClusterBench) :
    List Bool × ClusterBench :=
  (n.host.handles topic).foldl (fun (bs, b) handle =>
    match b.node? name with
    | some n =>
      let (found, b) := b.at_ name n (·.close handle)
      (bs ++ [found], b)
    | none => (bs, b)) ([], b)

/-- Who serves a topic. -/
def subscribers (n : Stack) (topic : String) : List MemberId :=
  n.host.current.subscribers n.host.view topic

/-- Sends to every subscriber. Nobody is told if that fails. -/
def broadcast (name : String) (n : Stack) (topic : String) (payload : Bytes) (b : ClusterBench) :
    ClusterBench :=
  { b with
    run := (n.host.current.broadcast n.host.view topic payload).foldl
      (fun t m => (Solo.send name m t).2) b.run }

/-- A message for the subscriber whose turn it is. -/
def addressed (name : String) (n : Stack) (topic : String)
    (f : PubSub.Service → View → Option Outgoing × PubSub.Service) (b : ClusterBench) :
    Except Cluster.Failure Outgoing × ClusterBench :=
  b.at_ name n fun h =>
    let (m, h) := h.addressed topic f
    (m, h, [])

def unicast (name : String) (n : Stack) (topic : String) (payload : Bytes) (b : ClusterBench) :
    Done × ClusterBench :=
  match b.addressed name n topic (·.unicast · topic payload) with
  | (.error f, b) => (.error f, b)
  | (.ok m, b) =>
    let (r, b) := b.lift (Solo.send name m b.run)
    (r.mapError .messaging, b)

def send (name : String) (n : Stack) (topic : String) (payload : Bytes) (b : ClusterBench) :
    Except Cluster.Failure Bytes × ClusterBench :=
  match b.addressed name n topic (·.request · topic payload) with
  | (.error f, b) => (.error f, b)
  | (.ok m, b) =>
    let (o, b) := b.lift (Solo.call name m n.messaging.patience b.run)
    (o.mapError .messaging, b)

/-- Sends bytes as an announcement, from the node to itself. -/
def announce (name : String) (n : Stack) (payload : Bytes) (b : ClusterBench) :
    Done × ClusterBench :=
  let (r, b) := b.lift (Solo.send name ⟨n.messaging.address, announcementSubject, payload⟩ b.run)
  (r.mapError .messaging, b)

/-- The script plays the provider of a node. -/
def provide (name : String) (n : Stack) (f : Roster ServiceKey → Roster ServiceKey)
    (b : ClusterBench) : ClusterBench :=
  if b.manual.contains name then
    (b.at_ name n fun h => h.withRoster ((), f h.roster)).2
  else b

/-- What was heard since the last time: where, on which topic, and what. -/
def collect (b : ClusterBench) : List (List String) × ClusterBench :=
  let t : Solo.Run Stack := Solo.machine.sleep 1 b.run
  (t.state.nodes.entries.flatMap fun (name, l) =>
      l.node.host.heard.reverse.map fun x => [name, x.topic, x.message],
    { b with run := t.state.nodes.keys.foldl (fun t name => Solo.change name (fun l =>
      { l with node := { l.node with host := { l.node.host with heard := [] } } }) t) t })

end ClusterBench

end ClusterNet.Bench
