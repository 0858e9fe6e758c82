import ClusterNet.Consensus.Entry
import ClusterNet.Consensus.Refusal

/-!
# Consensus messages

The requests and replies of the consensus protocol, and their JSON forms. A field that may be
missing in a document says so with `orElse`.
-/

namespace ClusterNet.Consensus

open Json

/-! ## Votes -/

structure VoteRequest where
  groupId : String := ""
  serverId : String := ""
  peerId : String := ""
  term : UInt64 := 0
  lastLogTerm : UInt64 := 0
  lastLogIndex : UInt64 := 0
  preVote : Bool := false
  deriving DecidableEq, Repr, Inhabited

instance : Form VoteRequest where
  write r := .record [("group_id", Form.write r.groupId), ("server_id", Form.write r.serverId),
    ("peer_id", Form.write r.peerId), ("term", Form.write r.term),
    ("last_log_term", Form.write r.lastLogTerm), ("last_log_index", Form.write r.lastLogIndex),
    ("pre_vote", Form.write r.preVote)]
  read? v := do
    let [group, server, peer, term, logTerm, logIndex, pre] ←
      fields ["group_id", "server_id", "peer_id", "term", "last_log_term", "last_log_index",
        "pre_vote"] v | none
    some ⟨← required group, ← required server, ← required peer, ← required term,
      ← required logTerm, ← required logIndex, ← orElse false pre⟩

structure VoteReply where
  term : UInt64 := 0
  granted : Bool := false
  refusal : Option Refusal := none
  deriving DecidableEq, Repr, Inhabited

instance : Form VoteReply where
  write r := .record ([("term", Form.write r.term), ("granted", Form.write r.granted)] ++
    member? "error_response" r.refusal)
  read? v := do
    let [term, granted, refusal] ← fields ["term", "granted", "error_response"] v | none
    some ⟨← required term, ← required granted, ← orElse none refusal⟩

/-! ## Replication -/

/-- An entry without its payload. -/
structure EntryHeader where
  term : UInt64 := 0
  kind : EntryKind := .unknown
  peers : PeerLists := {}
  dataLength : UInt64 := 0
  checksum : Option UInt64 := none
  deriving DecidableEq, Repr, Inhabited

instance : Form EntryHeader where
  write h := .record <|
    [("term", Form.write h.term), ("entry_type", Form.write h.kind)] ++ h.peers.members ++
      [("data_len", Form.write h.dataLength)] ++ member? "checksum" h.checksum
  read? v := do
    let [term, kind, p, q, l, m, length, checksum] ←
      fields (["term", "entry_type"] ++ PeerLists.names ++ ["data_len", "checksum"]) v | none
    some ⟨← required term, ← required kind, ← PeerLists.ofFields? p q l m, ← required length,
      ← orElse none checksum⟩

/-- The entries after a place in the log. Their payloads stand one after the other in `data`. -/
structure AppendRequest where
  groupId : String := ""
  serverId : String := ""
  peerId : String := ""
  term : UInt64 := 0
  prevLogTerm : UInt64 := 0
  prevLogIndex : UInt64 := 0
  headers : List EntryHeader := []
  committedIndex : UInt64 := 0
  data : Bytes := []
  deriving DecidableEq, Repr, Inhabited

instance : Form AppendRequest where
  write r := .record [("group_id", Form.write r.groupId), ("server_id", Form.write r.serverId),
    ("peer_id", Form.write r.peerId), ("term", Form.write r.term),
    ("prev_log_term", Form.write r.prevLogTerm), ("prev_log_index", Form.write r.prevLogIndex),
    ("entries", Form.write r.headers), ("committed_index", Form.write r.committedIndex),
    ("data", base64Form.write r.data)]
  read? v := do
    let [group, server, peer, term, prevTerm, prevIndex, headers, committed, data] ←
      fields ["group_id", "server_id", "peer_id", "term", "prev_log_term", "prev_log_index",
        "entries", "committed_index", "data"] v | none
    some ⟨← required group, ← required server, ← required peer, ← required term,
      ← required prevTerm, ← required prevIndex, ← orElse [] headers, ← required committed,
      ← @orElse _ base64Form [] data⟩

structure AppendReply where
  term : UInt64 := 0
  success : Bool := false
  lastLogIndex : UInt64 := 0
  refusal : Option Refusal := none
  deriving DecidableEq, Repr, Inhabited

instance : Form AppendReply where
  write r := .record ([("term", Form.write r.term), ("success", Form.write r.success),
    ("last_log_index", Form.write r.lastLogIndex)] ++ member? "error_response" r.refusal)
  read? v := do
    let [term, success, last, refusal] ←
      fields ["term", "success", "last_log_index", "error_response"] v | none
    some ⟨← required term, ← required success, ← required last, ← orElse none refusal⟩

/-! ## Snapshots -/

structure SnapshotHeader where
  lastIndex : UInt64 := 0
  lastTerm : UInt64 := 0
  peers : PeerLists := {}
  deriving DecidableEq, Repr, Inhabited

instance : Form SnapshotHeader where
  write h := .record ([("last_included_index", Form.write h.lastIndex),
    ("last_included_term", Form.write h.lastTerm)] ++ h.peers.members)
  read? v := do
    let [index, term, p, q, l, m] ←
      fields (["last_included_index", "last_included_term"] ++ PeerLists.names) v | none
    some ⟨← required index, ← required term, ← PeerLists.ofFields? p q l m⟩

structure InstallRequest where
  groupId : String := ""
  serverId : String := ""
  peerId : String := ""
  term : UInt64 := 0
  header : SnapshotHeader := {}
  uri : String := ""
  deriving DecidableEq, Repr, Inhabited

instance : Form InstallRequest where
  write r := .record [("group_id", Form.write r.groupId), ("server_id", Form.write r.serverId),
    ("peer_id", Form.write r.peerId), ("term", Form.write r.term), ("meta", Form.write r.header),
    ("uri", Form.write r.uri)]
  read? v := do
    let [group, server, peer, term, header, uri] ←
      fields ["group_id", "server_id", "peer_id", "term", "meta", "uri"] v | none
    some ⟨← required group, ← required server, ← required peer, ← required term,
      ← required header, ← required uri⟩

/-- A reply that says whether the request succeeded. -/
structure OutcomeReply where
  term : UInt64 := 0
  success : Bool := false
  refusal : Option Refusal := none
  deriving DecidableEq, Repr, Inhabited

instance : Form OutcomeReply where
  write r := .record ([("term", Form.write r.term), ("success", Form.write r.success)] ++
    member? "error_response" r.refusal)
  read? v := do
    let [term, success, refusal] ← fields ["term", "success", "error_response"] v | none
    some ⟨← required term, ← required success, ← orElse none refusal⟩

abbrev InstallReply := OutcomeReply

/-! ## Files -/

structure FileRequest where
  readerId : Int64 := 0
  filename : String := ""
  count : Int64 := 0
  offset : Int64 := 0
  readPartly : Bool := false
  deriving DecidableEq, Repr, Inhabited

instance : Form FileRequest where
  write r := .record [("reader_id", Form.write r.readerId), ("filename", Form.write r.filename),
    ("count", Form.write r.count), ("offset", Form.write r.offset),
    ("read_partly", Form.write r.readPartly)]
  read? v := do
    let [reader, filename, count, offset, partly] ←
      fields ["reader_id", "filename", "count", "offset", "read_partly"] v | none
    some ⟨← required reader, ← required filename, ← required count, ← required offset,
      ← orElse false partly⟩

structure FileReply where
  eof : Bool := false
  data : Bytes := []
  readSize : Int64 := 0
  refusal : Option Refusal := none
  deriving DecidableEq, Repr, Inhabited

namespace FileReply

def refused (r : Refusal) : FileReply := { refusal := some r }

def isOk (r : FileReply) : Bool := r.refusal.isNone

end FileReply

instance : Form FileReply where
  write r := .record ([("eof", Form.write r.eof), ("data", base64Form.write r.data),
    ("read_size", Form.write r.readSize)] ++ member? "error_response" r.refusal)
  read? v := do
    let [eof, data, size, refusal] ←
      fields ["eof", "data", "read_size", "error_response"] v | none
    some ⟨← required eof, ← @required _ base64Form data, ← orElse 0 size, ← orElse none refusal⟩

/-! ## Leadership and reads -/

structure TimeoutNowRequest where
  groupId : String := ""
  serverId : String := ""
  peerId : String := ""
  term : UInt64 := 0
  deriving DecidableEq, Repr, Inhabited

instance : Form TimeoutNowRequest where
  write r := .record [("group_id", Form.write r.groupId), ("server_id", Form.write r.serverId),
    ("peer_id", Form.write r.peerId), ("term", Form.write r.term)]
  read? v := do
    let [group, server, peer, term] ← fields ["group_id", "server_id", "peer_id", "term"] v | none
    some ⟨← required group, ← required server, ← required peer, ← required term⟩

abbrev TimeoutNowReply := OutcomeReply

/-- Payloads are carried in base 64, one by one. -/
abbrev base64ListForm : Form (List Bytes) := @instFormList _ base64Form

structure ReadIndexRequest where
  groupId : String := ""
  serverId : String := ""
  entries : List Bytes := []
  peerId : String := ""
  deriving DecidableEq, Repr, Inhabited

instance : Form ReadIndexRequest where
  write r := .record [("group_id", Form.write r.groupId), ("server_id", Form.write r.serverId),
    ("entries", base64ListForm.write r.entries), ("peer_id", Form.write r.peerId)]
  read? v := do
    let [group, server, entries, peer] ←
      fields ["group_id", "server_id", "entries", "peer_id"] v | none
    some ⟨← required group, ← required server, ← @orElse _ base64ListForm [] entries,
      ← orElse "" peer⟩

structure ReadIndexReply where
  index : UInt64 := 0
  success : Bool := false
  refusal : Option Refusal := none
  deriving DecidableEq, Repr, Inhabited

instance : Form ReadIndexReply where
  write r := .record ([("index", Form.write r.index), ("success", Form.write r.success)] ++
    member? "error_response" r.refusal)
  read? v := do
    let [index, success, refusal] ← fields ["index", "success", "error_response"] v | none
    some ⟨← required index, ← required success, ← orElse none refusal⟩

end ClusterNet.Consensus
