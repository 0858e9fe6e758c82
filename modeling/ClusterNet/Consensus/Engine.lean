import ClusterNet.Consensus.Files
import ClusterNet.Consensus.Verb

/-!
# Engines

An engine answers the requests of its peers. Files are not its business: they are read by the
file service. A node without an engine answers all the same, so that its peers need not wait.
-/

namespace ClusterNet.Consensus

/-- An answer that takes some time. It is missing if the engine breaks off. -/
structure Answer (R : Type) where
  ms : Nat
  reply : Option R

def Answer.atOnce {R : Type} (r : R) : Answer R := ⟨0, some r⟩

structure Engine where
  preVote : VoteRequest → Answer VoteReply
  requestVote : VoteRequest → Answer VoteReply
  append : AppendRequest → Answer AppendReply
  install : InstallRequest → Answer InstallReply
  timeoutNow : TimeoutNowRequest → Answer TimeoutNowReply
  readIndex : ReadIndexRequest → Answer ReadIndexReply

namespace Engine

/-- The answer to a request of a verb. -/
def answer {S : Type} (e : Engine) (files : FileService S) (storage : S) :
    (v : Verb) → v.Request → Answer v.Reply
  | .preVote => e.preVote
  | .requestVote => e.requestVote
  | .append => e.append
  | .install => e.install
  | .getFile => fun r => .atOnce (files.handle storage r)
  | .timeoutNow => e.timeoutNow
  | .readIndex => e.readIndex

/-- Says that a group is somewhere else. The peer may try again. -/
def unhosted (group : String) : Option Refusal :=
  some (.ofCode .tryAgain s!"group '{group}' is not hosted on this node")

/-- What a node answers that hosts no group. -/
def noGroup : Engine where
  preVote r := .atOnce ⟨r.term, false, unhosted r.groupId⟩
  requestVote r := .atOnce ⟨r.term, false, unhosted r.groupId⟩
  append r := .atOnce ⟨r.term, false, 0, unhosted r.groupId⟩
  install r := .atOnce ⟨r.term, false, unhosted r.groupId⟩
  timeoutNow r := .atOnce ⟨r.term, false, unhosted r.groupId⟩
  readIndex r := .atOnce ⟨0, false, unhosted r.groupId⟩

end Engine

end ClusterNet.Consensus
