import ClusterNet.Consensus.Message

/-!
# Packing log entries

Entries travel as headers, with all payloads in one byte string. Each header says how many
bytes of it are its own; indices count up from the one before the first entry. A request can ask
for more bytes than it has, and for an index that there is not.
-/

namespace ClusterNet.Consensus

def LogEntry.header (e : LogEntry) : EntryHeader :=
  ⟨e.id.term, e.kind, e.peers, e.data.length.toUInt64, e.checksum⟩

namespace AppendRequest

def withEntries (r : AppendRequest) (es : List LogEntry) : AppendRequest :=
  { r with headers := es.map LogEntry.header, data := es.flatMap (·.data) }

/-- What comes of taking entries out of a request. -/
inductive Unpacking where
  | entries (es : List LogEntry)
  /-- The headers ask for more bytes than there are. -/
  | short
  /-- An entry would stand behind the last index there is. The calculation breaks off there. -/
  | overflow
  deriving DecidableEq, Repr

/-- Puts an entry before the others, if they could be taken out. -/
def Unpacking.cons (e : LogEntry) : Unpacking → Unpacking
  | .entries es => .entries (e :: es)
  | .short => .short
  | .overflow => .overflow

/-- Takes payloads off `data` one after the other. The next entry follows the one at `prev`. -/
def unpack (prev : UInt64) (data : Bytes) : List EntryHeader → Unpacking
  | [] => .entries []
  | h :: hs =>
    if data.length < h.dataLength.toNat then .short
    else if prev.toNat + 1 = UInt64.size then .overflow
    else
      (unpack (prev + 1) (data.drop h.dataLength.toNat) hs).cons
        ⟨h.kind, ⟨h.term, prev + 1⟩, h.peers, data.take h.dataLength.toNat, h.checksum⟩

def unpacked (r : AppendRequest) : Unpacking := unpack r.prevLogIndex r.data r.headers

/-- The entries, if they can be taken out. -/
def entries? (r : AppendRequest) : Option (List LogEntry) :=
  match r.unpacked with
  | .entries es => some es
  | .short | .overflow => none

end AppendRequest

end ClusterNet.Consensus
