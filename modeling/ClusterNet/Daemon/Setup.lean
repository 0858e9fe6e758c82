import ClusterNet.Cluster.Failure
import ClusterNet.Config.Reader

/-!
# Setting up a daemon

A daemon takes its configuration from a file, and runs only if that can be read and has no flaw.
-/

namespace ClusterNet

/-- What is said of a configuration that cannot be loaded. -/
def Config.LoadFault.message : Config.LoadFault → String
  | .unreadable => "failed to read config"
  | .unusable (.address input reason) => s!"failed to parse config: {reason.describe input}"
  | .unusable .other => "failed to parse config"

namespace Daemon

/-- Why a daemon gives up. -/
inductive Fault where
  | unloaded (path : String) (f : Config.LoadFault)
  | flawed (path : String) (flaw : Config.Flaw)
  | unstarted (f : Cluster.Failure)
  deriving DecidableEq

namespace Fault

def message : Fault → String
  | .unloaded path _ => s!"failed to load config from {path}"
  | .flawed path _ => s!"invalid config in {path}"
  | .unstarted _ => "failed to start cluster node"

/-- What is behind it. -/
def cause : Fault → String
  | .unloaded _ f => f.message
  | .flawed _ flaw => (Cluster.Failure.config flaw).message
  | .unstarted f => f.message

def lines (f : Fault) : List String :=
  ["Error: " ++ f.message, "", "Caused by:", "    " ++ f.cause]

end Fault

/-- The configuration in a file, if a daemon can run with it. -/
def load (path : String) (content : Option Bytes) : Except Fault Config :=
  match Config.ofFile content with
  | .error f => .error (.unloaded path f)
  | .ok c =>
    match c.flaw? with
    | some flaw => .error (.flawed path flaw)
    | none => .ok c

/-- Who the node would be and whom it would know. -/
def members (c : Config) : List String :=
  let id := c.node.id.getD "<generated>"
  [s!"cluster: {c.clusterId}", s!"local:   {id} @ {c.node.address.text}"] ++
  c.nodes.map fun n => s!"peer:    {n.id.text} @ {n.address.text}"

end Daemon

end ClusterNet
