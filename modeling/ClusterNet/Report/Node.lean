import ClusterNet.Bench.Roster
import ClusterNet.Cluster.Stack
import ClusterNet.Report.Message

/-!
# Reports on nodes that listen

The ports that nodes listen at are not the same from one time to the next. So nodes are shown by
their names, and of failures to reach a node only the kind is shown.
-/

namespace ClusterNet.Report

open Json (Value)

/-- A text that is the address of a node is shown as the name of the node. -/
def named (names : List (String × String)) (s : String) : String :=
  match names.lookup s with
  | some name => "<" ++ name ++ ">"
  | none => s

/-- A payload is shown as what it says if it is a short text. -/
def said (names : List (String × String)) (b : Bytes) : Value :=
  match Bytes.text? b with
  | some s =>
    if b.length ≤ shownBytes then .record [field "text" (named names s)]
    else .record [field "ok" b]
  | none => .record [field "ok" b]

/-- A failure, without what the host says of it. -/
def brief (f : Messaging.Failure) : Value :=
  match f with
  | .connect .. | .io | .handshake _ => failure (failureKind f) none
  | f => report f

def clusterFailure : Cluster.Failure → Value
  | .messaging f => brief f
  | f => report f

/-- What became of a message for which no reply is expected. -/
def sent : Except Messaging.Failure Unit → Value
  | .ok _ => .record [field "ok" ""]
  | .error f => brief f

def answered (names : List (String × String)) : Messaging.Outcome → Value
  | .ok b => said names b
  | .error f => brief f

/-- A message that was consumed. -/
def consumed (names : List (String × String)) (r : Wire.Request) : Value :=
  .array [report r.subject, report (named names r.sender.text), report r.payload]

def done : Cluster.Done → Value
  | .ok _ => .string "ok"
  | .error f => clusterFailure f

/-- The answer of a subscriber. -/
def reply : Except Cluster.Failure Bytes → Value
  | .ok b => said [] b
  | .error f => clusterFailure f

/-- Which services of a node run, and who is a member. The members are only counted where their
addresses differ from one time to the next. -/
def services (counted : Bool) (n : Cluster.Stack) : Value :=
  .record [field "running" n.running, field "messaging" n.messaging.running,
    field "membership" n.roster.running, field "events" n.host.current.running,
    field "active" n.localMember.active, field "reachable" n.localMember.reachable,
    field "members" (if counted then report n.members.length
      else report (Bench.shownMembers n.roster Member.text))]

end ClusterNet.Report
