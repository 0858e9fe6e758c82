import ClusterNet.Consensus.Files
import ClusterNet.Consensus.Packing
import ClusterNet.Report.Basic

/-!
# Reports on consensus messages
-/

namespace ClusterNet.Report

open Consensus
open Json (Value)

instance : Report LogEntry where
  report e := .record [
    field "type" e.kind.number, field "term" e.id.term, field "index" e.id.index,
    field "peers" e.peers.peers, field "old_peers" e.peers.oldPeers,
    field "learners" e.peers.learners, field "old_learners" e.peers.oldLearners,
    field "data" e.data, field "checksum" e.checksum, field "computed" e.computed,
    field "has_checksum" e.checksum.isSome, field "corrupted" e.isCorrupted]

instance : Report Refusal where
  report r := .record [field "code" r.code, field "name" (r.code?.map ErrorCode.name),
    field "message" r.text]

instance : Report FileReply where
  report r := .record [field "ok" r.isOk, field "eof" r.eof, field "read_size" r.readSize,
    field "data" r.data, field "error" r.refusal]

end ClusterNet.Report
