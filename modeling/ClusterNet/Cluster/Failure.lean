import ClusterNet.Config.Basic
import ClusterNet.Identifier
import ClusterNet.Messaging.Failure

/-!
# How clusters fail
-/

namespace ClusterNet.Cluster

inductive Failure where
  | messaging (f : Messaging.Failure)
  | config (flaw : Config.Flaw)
  /-- A JSON text does not fit. -/
  | serialization
  | discovery (text : String)
  | noSubscribers (topic : String)
  | unknownMember (id : MemberId)
  | notRunning (what : String)
  | stopped
  deriving DecidableEq

def Failure.message : Failure → String
  | .messaging f => f.message
  | .config flaw => s!"invalid config: {flaw.message}"
  | .serialization => "serialization error"
  | .discovery text => s!"discovery failed: {text}"
  | .noSubscribers topic => s!"no subscribers for topic '{topic}'"
  | .unknownMember id => s!"unknown member {id.text}"
  | .notRunning what => s!"{what} is not running"
  | .stopped => "cluster has been stopped and cannot be restarted"

/-- What an operation comes to that gives nothing back. -/
abbrev Done := Except Failure Unit

end ClusterNet.Cluster
