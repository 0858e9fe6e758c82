import ClusterNet.Config.Writer
import ClusterNet.Config.Reader
import ClusterNet.Membership.Service
import ClusterNet.Report.Basic

/-!
# Reports on nodes and members
-/

namespace ClusterNet.Report

open Json (Value)

/-- Why a text is no address. -/
def addressFailure (input : String) (r : Address.Reason) : Value :=
  failure "InvalidAddress" (some (r.describe input))

/-- An address with all that can be said of it without asking anyone. -/
instance : Report Address where
  report a := .record [
    field "host" a.host, field "port" a.port, field "text" a.text,
    field "ip" (a.ip?.map Ip.text), field "socket" a.socketText?,
    field "resolved" (a.ip?.bind fun _ => a.resolved?.map Address.text),
    field "reparsed" (match Address.parse a.text with
      | .ok b => Value.record [field "equal" (a == b), field "text" b.text]
      | .error r => addressFailure a.text r)]

instance : Report Node := ⟨fun n => .string n.text⟩

instance : Report Member where
  report m := .record [
    field "id" m.id, field "text" m.text, field "zone" m.zone, field "rack" m.rack,
    field "host" m.host, field "properties" m.properties,
    field "version" (m.version.map SemVer.text), field "active" m.active,
    field "reachable" m.reachable, field "node" m.node]

/-- A member with a letter for each flag that is set. -/
def flagged (m : Member) : String :=
  m.text ++ " " ++ (if m.active then "A" else "-") ++ (if m.reachable then "R" else "-")

/-- News for the guest of a name. -/
def news (name : String) : Membership.News → Value
  | .discovery e =>
    let change := match e.presence with
      | .joined => "Join"
      | .left => "Leave"
    .array [report name, report change, report e.node, report true]
  | .member change m => .array [report name, report change.text, report (flagged m), report true]

instance : Report (Membership.Delivery String) := ⟨fun d => news d.listener d.news⟩

def configFlaw (f : Config.Flaw) : Value :=
  failure "InvalidConfig" (some s!"invalid config: {f.message}")

/-- Why no configuration could be loaded. What is wrong with an address is said in one line. -/
instance : Report Config.LoadFault where
  report
    | .unreadable => failure "ConfigRead" none
    | .unusable (.address input r) =>
      failure "ConfigParse" (some (String.ofList ((r.describe input).toList.takeWhile (· != '\n'))))
    | .unusable .other => failure "ConfigParse" none

def settings (c : Config) : Value :=
  .record [field "cluster_id" c.clusterId,
    field "node" (Value.record [field "id" c.node.id, field "address" c.node.address.text,
      field "zone" c.node.zone, field "rack" c.node.rack, field "host" c.node.host,
      field "version" (c.node.version.map SemVer.text), field "properties" c.node.properties]),
    field "discovery" (Value.record [field "nodes" (c.peers.map fun p =>
      Value.record [field "id" p.id, field "address" p.address.text])]),
    field "messaging" (Value.record [field "connection_pool_size" c.messaging.poolSize,
      field "connect_timeout_ms" c.messaging.connectTimeout,
      field "request_timeout_ms" c.messaging.requestTimeout,
      field "max_frame_bytes" c.messaging.maxFrame,
      field "outbound_queue_size" c.messaging.queueSize]),
    field "event_service" (Value.record [field "subscription_sync_interval_ms" c.syncInterval])]

/-- The local member. An id that was made up is not shown. -/
def localMember (c : Config) : Value :=
  let m := c.node.member ⟨"<generated>"⟩
  match report m, c.node.id with
  | .object fields, none => .object (fields.map fun (k, v) =>
      (k, if k = some "id" ∨ k = some "text" ∨ k = some "node" then .string "<generated>" else v))
  | v, _ => v

/-- A configuration with what follows from it. -/
instance : Report Config where
  report c := .record [
    field "config" (settings c),
    field "validate" (match c.flaw? with
      | none => Value.string "ok"
      | some f => configFlaw f),
    field "member" (localMember c), field "nodes" c.nodes,
    field "connect_timeout_ms" c.messaging.connectTimeout,
    field "request_timeout_ms" c.messaging.requestTimeout,
    field "sync_interval_ms" c.syncInterval, field "is_default" (c == ({} : Config)),
    field "default_node" (c.node == ({} : MemberSettings)),
    field "round_trip" (match Config.parse c.text with
      | .ok d => d == c
      | _ => false)]

end ClusterNet.Report
