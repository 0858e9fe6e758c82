import ClusterNet.Bench.Network
import ClusterNet.Consensus.Directory
import ClusterNet.Consensus.Packing
import ClusterNet.Consensus.Peer
import ClusterNet.Membership.Service

/-!
# Peers on the bench

Peers on a network. Their engines answer by simple rules, and what they are asked is noted.
-/

namespace ClusterNet.Bench

open ClusterNet.Membership Consensus Json Messaging

/-- How engines on the bench answer. Some terms are special. -/
def recorder : Engine where
  preVote r := .atOnce ⟨r.term, r.preVote, none⟩
  requestVote r := .atOnce ⟨r.term, true, none⟩
  append r :=
    ⟨if r.term = 99 then 500 else 0,
      match r.unpacked with
      | .entries es =>
        some ⟨r.term, es.all fun e => !e.isCorrupted, r.prevLogIndex + es.length.toUInt64, none⟩
      | .short => some ⟨r.term, false, r.prevLogIndex, some (.ofCode .badRequest "truncated")⟩
      | .overflow => none⟩
  install r := .atOnce ⟨r.term, !r.uri.isEmpty, none⟩
  timeoutNow r := ⟨0, if r.term = 66 then none else some ⟨r.term + 1, true, none⟩⟩
  readIndex r := .atOnce ⟨r.entries.length.toUInt64, true, none⟩

/-- How a script calls a verb. -/
def verbName : Verb → String
  | .preVote => "pre_vote"
  | .requestVote => "request_vote"
  | .append => "append_entries"
  | .install => "install_snapshot"
  | .getFile => "get_file"
  | .timeoutNow => "timeout_now"
  | .readIndex => "read_index"

structure PeerHost where
  address : Address
  roster : Roster String
  peer : Peer Storage
  /-- Whether the engine notes what it is asked. -/
  records : Bool
  /-- What the engine was asked, the last first. -/
  asked : List (Verb × Value)

namespace PeerHost

/-- Notes what the engine is asked. -/
def note (h : PeerHost) (r : Wire.Request) : PeerHost :=
  match h.peer.duties.get? r.subject with
  | some (.verb .getFile) => h
  | some (.verb v) =>
    match (Form.ofBytes? r.payload : Option v.Request) with
    | some q => { h with asked := (v, Form.write q) :: h.asked }
    | none => h
  | _ => h

def receive (h : PeerHost) (r : Wire.Request) : Option Reaction × PeerHost :=
  ((h.peer.handlers.get? r.subject).map (·.react r), if h.records then h.note r else h)

/-- Whether the member at an address looks alive. -/
def isConnected (h : PeerHost) (a : Address) : Bool :=
  ((h.roster.byAddress? a).map (·.active)).getD false

end PeerHost

instance : Resident PeerHost where
  address h := h.address
  receive h r := h.receive r
  dues _ := []
  stir? _ _ := none

namespace PeerBench

abbrev Run := Network.Run PeerHost

/-- How long a call waits that nothing is said about. -/
def defaultPatience : Nat := 10000

/-- Whether one may say how long a call of a verb waits. -/
def takesPatience : Verb → Bool
  | .append | .getFile | .timeoutNow | .readIndex => true
  | _ => false

def change (name : String) (f : PeerHost → PeerHost) : Run → Run :=
  Network.change fun n =>
    { n with sites := n.sites.modify name fun s => { s with resident := f s.resident } }

/-- Calls a verb. -/
def call (name : String) (v : Verb) (goal : Address) (r : v.Request) (ms : Nat) (t : Run) :
    Except Cluster.Failure v.Reply × Run :=
  let patience := if takesPatience v then ms else defaultPatience
  let (o, t) := Network.call name (v.outgoing goal r) patience t
  (v.result o, t)

/-- What engines were asked since the last time, and where. -/
def collect (t : Run) : List (String × Verb × Value) × Run :=
  (t.state.sites.entries.flatMap fun (name, s) => s.resident.asked.reverse.map (name, ·),
    Network.change (fun n => { n with sites := ⟨n.sites.entries.map fun (name, s) =>
      (name, { s with resident := { s.resident with asked := [] } })⟩ }) t)

end PeerBench

end ClusterNet.Bench
