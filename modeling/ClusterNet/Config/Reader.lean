import ClusterNet.Bytes
import ClusterNet.Config.Basic
import ClusterNet.Toml.Document

/-!
# Reading configurations

A section is a table, or an array of its fields in order, of which any number may be missing
at the end. Fields that are not known are ignored. The first fault in the order of the
document counts.
-/

namespace ClusterNet

namespace Config

open Toml

/-- Why a document is no configuration. -/
inductive Fault where
  /-- A text that should be an address is none. -/
  | address (input : String) (reason : Address.Reason)
  | other
  deriving DecidableEq, Repr

/-! ## Values -/

def asText : Value → Except Fault String
  | .string s => .ok s
  | _ => .error .other

def asNumber : Value → Except Fault UInt64
  | .integer n => if 0 ≤ n then .ok n.toNat.toUInt64 else .error .other
  | _ => .error .other

def asAddress : Value → Except Fault Address
  | .string s => (Address.parse s).mapError (.address s)
  | _ => .error .other

def asVersion : Value → Except Fault SemVer
  | .string s =>
    match SemVer.parse? s with
    | some v => .ok v
    | none => .error .other
  | _ => .error .other

/-- The key under which a moment shows itself where a table is expected. -/
def momentKey : String := "$__toml_private_datetime"

/-- The entries of a table. -/
def asEntries : Value → Except Fault (List (String × Value))
  | .table es => .ok es
  | .moment m => .ok [(momentKey, .string m)]
  | _ => .error .other

/-- The entries of a section, whose fields have an order. -/
def asSection (names : List String) : Value → Except Fault (List (String × Value))
  | .array vs => .ok (names.zip vs)
  | v => asEntries v

def asItems : Value → Except Fault (List Value)
  | .array vs => .ok vs
  | _ => .error .other

/-! ## Sections -/

def setProperty (t : Table String String) (e : String × Value) :
    Except Fault (Table String String) := do
  return t.insert e.1 (← asText e.2)

def setMember (s : MemberSettings) (e : String × Value) : Except Fault MemberSettings :=
  match e with
  | ("id", v) => return { s with id := ← asText v }
  | ("address", v) => return { s with address := ← asAddress v }
  | ("zone", v) => return { s with zone := ← asText v }
  | ("rack", v) => return { s with rack := ← asText v }
  | ("host", v) => return { s with host := ← asText v }
  | ("version", v) => return { s with version := ← asVersion v }
  | ("properties", v) => return { s with properties := ← (← asEntries v).foldlM setProperty .empty }
  | _ => return s

def memberFields : List String :=
  ["id", "address", "zone", "rack", "host", "version", "properties"]

def setPeer (s : Option String × Option Address) (e : String × Value) :
    Except Fault (Option String × Option Address) :=
  match e with
  | ("id", v) => return (some (← asText v), s.2)
  | ("address", v) => return (s.1, some (← asAddress v))
  | _ => return s

/-- A node needs an address. When it is an array, it needs both fields. -/
def peer (v : Value) : Except Fault PeerSettings := do
  let (id, a) ← (← asSection ["id", "address"] v).foldlM setPeer (none, none)
  match a with
  | some a => return ⟨id, a⟩
  | none => .error .other

def setMessaging (s : MessagingSettings) (e : String × Value) : Except Fault MessagingSettings :=
  match e with
  | ("connection_pool_size", v) => return { s with poolSize := ← asNumber v }
  | ("connect_timeout_ms", v) => return { s with connectTimeout := ← asNumber v }
  | ("request_timeout_ms", v) => return { s with requestTimeout := ← asNumber v }
  | ("max_frame_bytes", v) => return { s with maxFrame := ← asNumber v }
  | ("outbound_queue_size", v) => return { s with queueSize := ← asNumber v }
  | _ => return s

def messagingFields : List String :=
  ["connection_pool_size", "connect_timeout_ms", "request_timeout_ms", "max_frame_bytes",
    "outbound_queue_size"]

def setPeers (ps : List PeerSettings) (e : String × Value) : Except Fault (List PeerSettings) :=
  match e with
  | ("nodes", v) => do (← asItems v).mapM peer
  | _ => return ps

def setInterval (n : UInt64) (e : String × Value) : Except Fault UInt64 :=
  match e with
  | ("subscription_sync_interval_ms", v) => asNumber v
  | _ => return n

def set (c : Config) (e : String × Value) : Except Fault Config :=
  match e with
  | ("cluster_id", v) => return { c with clusterId := ← asText v }
  | ("node", v) => return { c with node := ← (← asSection memberFields v).foldlM setMember {} }
  | ("discovery", v) => return { c with peers := ← (← asSection ["nodes"] v).foldlM setPeers [] }
  | ("messaging", v) =>
    return { c with messaging := ← (← asSection messagingFields v).foldlM setMessaging {} }
  | ("event_service", v) =>
    return { c with
      syncInterval := ← (← asSection ["subscription_sync_interval_ms"] v).foldlM setInterval 1000 }
  | _ => return c

/-- The configuration that a document describes. -/
def parse (s : String) : Except Fault Config :=
  match Toml.parse? s with
  | some es => es.foldlM set {}
  | none => .error .other

/-- Why a file gives no configuration. -/
inductive LoadFault where
  /-- There is no file, or it is no text. -/
  | unreadable
  | unusable (f : Fault)
  deriving DecidableEq, Repr

/-- The configuration in a file, if there is one. -/
def ofFile (content : Option Bytes) : Except LoadFault Config :=
  match content.bind Bytes.text? with
  | some s => (parse s).mapError .unusable
  | none => .error .unreadable

end Config

end ClusterNet
