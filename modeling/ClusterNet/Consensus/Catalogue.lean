import ClusterNet.Consensus.Message

/-!
# The messages by their names
-/

namespace ClusterNet.Consensus

open Json

/-- Reads a document as a message of a named type and prints it again. Says also whether it is
the default message, and whether reading what was printed gives the same. -/
def reprint? (type : String) (b : Bytes) : Option (String × Bool × Bool) :=
  match type with
  | "RequestVoteRequest" => reprint VoteRequest {} b
  | "RequestVoteResponse" => reprint VoteReply {} b
  | "EntryMeta" => reprint EntryHeader {} b
  | "AppendEntriesRequest" => reprint AppendRequest {} b
  | "AppendEntriesResponse" => reprint AppendReply {} b
  | "SnapshotMeta" => reprint SnapshotHeader {} b
  | "InstallSnapshotRequest" => reprint InstallRequest {} b
  | "InstallSnapshotResponse" => reprint InstallReply {} b
  | "GetFileRequest" => reprint FileRequest {} b
  | "GetFileResponse" => reprint FileReply {} b
  | "TimeoutNowRequest" => reprint TimeoutNowRequest {} b
  | "TimeoutNowResponse" => reprint TimeoutNowReply {} b
  | "ReadIndexRequest" => reprint ReadIndexRequest {} b
  | "ReadIndexResponse" => reprint ReadIndexReply {} b
  | "LogEntry" => reprint LogEntry {} b
  | "LogId" => reprint LogId {} b
  | "EntryType" => reprint EntryKind .unknown b
  | _ => none

end ClusterNet.Consensus
