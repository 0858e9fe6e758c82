import ClusterNet.Consensus.Message

/-!
# Verbs

The verbs of the consensus protocol. Each has a subject, a type of requests and a type of
replies, and both types have JSON forms.
-/

namespace ClusterNet.Consensus

open Json

inductive Verb where
  | preVote
  | requestVote
  | append
  | install
  | getFile
  | timeoutNow
  | readIndex
  deriving DecidableEq, Repr

namespace Verb

def all : List Verb :=
  [preVote, requestVote, append, install, getFile, timeoutNow, readIndex]

def subject : Verb → String
  | preVote => "preVote"
  | requestVote => "requestVote"
  | append => "appendEntries"
  | install => "installSnapshot"
  | getFile => "getFile"
  | timeoutNow => "timeoutNow"
  | readIndex => "readIndex"

def Request : Verb → Type
  | preVote => VoteRequest
  | requestVote => VoteRequest
  | append => AppendRequest
  | install => InstallRequest
  | getFile => FileRequest
  | timeoutNow => TimeoutNowRequest
  | readIndex => ReadIndexRequest

def Reply : Verb → Type
  | preVote => VoteReply
  | requestVote => VoteReply
  | append => AppendReply
  | install => InstallReply
  | getFile => FileReply
  | timeoutNow => TimeoutNowReply
  | readIndex => ReadIndexReply

instance : (v : Verb) → Form v.Request
  | preVote => inferInstanceAs (Form VoteRequest)
  | requestVote => inferInstanceAs (Form VoteRequest)
  | append => inferInstanceAs (Form AppendRequest)
  | install => inferInstanceAs (Form InstallRequest)
  | getFile => inferInstanceAs (Form FileRequest)
  | timeoutNow => inferInstanceAs (Form TimeoutNowRequest)
  | readIndex => inferInstanceAs (Form ReadIndexRequest)

instance : (v : Verb) → Form v.Reply
  | preVote => inferInstanceAs (Form VoteReply)
  | requestVote => inferInstanceAs (Form VoteReply)
  | append => inferInstanceAs (Form AppendReply)
  | install => inferInstanceAs (Form InstallReply)
  | getFile => inferInstanceAs (Form FileReply)
  | timeoutNow => inferInstanceAs (Form TimeoutNowReply)
  | readIndex => inferInstanceAs (Form ReadIndexReply)

instance : (v : Verb) → Inhabited v.Request
  | preVote => inferInstanceAs (Inhabited VoteRequest)
  | requestVote => inferInstanceAs (Inhabited VoteRequest)
  | append => inferInstanceAs (Inhabited AppendRequest)
  | install => inferInstanceAs (Inhabited InstallRequest)
  | getFile => inferInstanceAs (Inhabited FileRequest)
  | timeoutNow => inferInstanceAs (Inhabited TimeoutNowRequest)
  | readIndex => inferInstanceAs (Inhabited ReadIndexRequest)

end Verb

end ClusterNet.Consensus
