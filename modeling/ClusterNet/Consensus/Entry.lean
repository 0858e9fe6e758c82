import ClusterNet.Checksum.Crc32c
import ClusterNet.Json.Record

/-!
# Log entries

What the transport needs to know of an entry: where it stands in the log, who the peers are,
its payload, and a checksum over all of that. The checksum joins the parts by exclusive or.
-/

namespace ClusterNet.Consensus

open Json

inductive EntryKind where
  | unknown
  | noOp
  | data
  | configuration
  deriving DecidableEq, Repr, Inhabited

namespace EntryKind

def number : EntryKind → UInt64
  | .unknown => 0
  | .noOp => 1
  | .data => 2
  | .configuration => 3

def name : EntryKind → String
  | .unknown => "unknown"
  | .noOp => "no_op"
  | .data => "data"
  | .configuration => "configuration"

def ofName? (s : String) : Option EntryKind :=
  [unknown, noOp, data, configuration].find? fun k => k.name == s

instance : Form EntryKind where
  write k := .string k.name
  read? v := (choice? v).bind ofName?

end EntryKind

/-- The place of an entry in the log. -/
structure LogId where
  term : UInt64 := 0
  index : UInt64 := 0
  deriving DecidableEq, Repr, Inhabited

namespace LogId

/-- Terms are compared first. -/
def compare (a b : LogId) : Ordering :=
  (Ord.compare a.term b.term).then (Ord.compare a.index b.index)

def bytes (i : LogId) : Bytes := Bytes.ofUInt64 i.term ++ Bytes.ofUInt64 i.index

def checksum (i : LogId) : UInt64 := (Crc32c.checksum i.bytes).toUInt64

instance : Form LogId where
  write i := .record [("term", Form.write i.term), ("index", Form.write i.index)]
  read? v := do
    let [term, index] ← fields ["term", "index"] v | none
    some ⟨← required term, ← required index⟩

end LogId

/-- The peers of a group, before and after a change. -/
structure PeerLists where
  peers : List String := []
  oldPeers : List String := []
  learners : List String := []
  oldLearners : List String := []
  deriving DecidableEq, Repr, Inhabited

namespace PeerLists

def names : List String := ["peers", "old_peers", "learners", "old_learners"]

/-- The members that stand for the lists. -/
def members (p : PeerLists) : List (String × Value) :=
  [("peers", Form.write p.peers), ("old_peers", Form.write p.oldPeers),
    ("learners", Form.write p.learners), ("old_learners", Form.write p.oldLearners)]

/-- Each list may be missing. -/
def ofFields? (peers oldPeers learners oldLearners : Option Value) : Option PeerLists := do
  some ⟨← orElse [] peers, ← orElse [] oldPeers, ← orElse [] learners, ← orElse [] oldLearners⟩

end PeerLists

structure LogEntry where
  kind : EntryKind := .unknown
  id : LogId := {}
  peers : PeerLists := {}
  data : Bytes := []
  checksum : Option UInt64 := none
  deriving DecidableEq, Repr, Inhabited

namespace LogEntry

/-- Joins the checksums of some texts to `acc`. -/
def foldTexts (acc : UInt64) (texts : List String) : UInt64 :=
  texts.foldl (fun acc s => acc ^^^ (Crc32c.checksum (Bytes.ofText s)).toUInt64) acc

/-- The checksum of all parts. A payload that is empty adds nothing. -/
def computed (e : LogEntry) : UInt64 :=
  let acc := e.kind.number ^^^ e.id.checksum
  let acc := foldTexts acc e.peers.peers
  let acc := foldTexts acc e.peers.oldPeers
  let acc := foldTexts acc e.peers.learners
  let acc := foldTexts acc e.peers.oldLearners
  if e.data.isEmpty then acc else acc ^^^ (Crc32c.checksum e.data).toUInt64

/-- Stores the checksum. -/
def sealed (e : LogEntry) : LogEntry := { e with checksum := some e.computed }

/-- A checksum is stored that is not the right one. -/
def isCorrupted (e : LogEntry) : Bool :=
  match e.checksum with
  | some c => c != e.computed
  | none => false

instance : Form LogEntry where
  write e := .record <|
    [("entry_type", Form.write e.kind), ("id", Form.write e.id)] ++ e.peers.members ++
      [("data", base64Form.write e.data)] ++ member? "checksum" e.checksum
  read? v := do
    let [kind, id, p, q, l, m, data, checksum] ←
      fields (["entry_type", "id"] ++ PeerLists.names ++ ["data", "checksum"]) v | none
    some ⟨← required kind, ← required id, ← PeerLists.ofFields? p q l m,
      ← @orElse _ base64Form [] data, ← orElse none checksum⟩

end LogEntry

end ClusterNet.Consensus
