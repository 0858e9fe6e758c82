import ClusterNet.Member
import ClusterNet.Text.Blank

/-!
# Configuration

Every section and every field has a default, so that nothing at all is a configuration of one
node without a name.
-/

namespace ClusterNet

/-- Who the local member is and where it is placed. -/
structure MemberSettings where
  /-- An id is made up when there is none. -/
  id : Option String := none
  address : Address := Address.ofHost "127.0.0.1" Address.defaultPort
  zone : Option String := none
  rack : Option String := none
  host : Option String := none
  version : Option SemVer := none
  properties : Table String String := .empty
  deriving BEq, Inhabited

namespace MemberSettings

def details (s : MemberSettings) : List Detail :=
  s.properties.entries.map (fun (k, v) => .property k v) ++ (s.zone.map Detail.zone).toList ++
    (s.rack.map Detail.rack).toList ++ (s.host.map Detail.host).toList ++
    (s.version.map Detail.version).toList

/-- The local member. It has the id that was made up if it has none of its own. -/
def member (s : MemberSettings) (generated : MemberId) : Member :=
  Member.build ((s.id.map Identifier.mk).getD generated) s.address s.details

end MemberSettings

/-- A node that is known from the start. -/
structure PeerSettings where
  id : Option String
  address : Address
  deriving DecidableEq, Inhabited

/-- A node without an id is called after its address. -/
def PeerSettings.node (s : PeerSettings) : Node := ⟨⟨s.id.getD s.address.text⟩, s.address⟩

structure MessagingSettings where
  /-- Connections per destination. -/
  poolSize : UInt64 := 8
  connectTimeout : UInt64 := 5000
  requestTimeout : UInt64 := 10000
  maxFrame : UInt64 := 67108864
  /-- Frames that may wait on a connection before senders do. -/
  queueSize : UInt64 := 1024
  deriving DecidableEq, Inhabited

structure Config where
  /-- Nodes of different clusters do not talk to each other. -/
  clusterId : String := "raftlink"
  node : MemberSettings := {}
  peers : List PeerSettings := []
  messaging : MessagingSettings := {}
  /-- Milliseconds between announcements. -/
  syncInterval : UInt64 := 1000
  deriving BEq, Inhabited

namespace Config

/-- Why a configuration cannot be run with. -/
inductive Flaw where
  | noClusterId
  | noNodeId
  | noPool
  | noTimeout
  | noRoom
  | noInterval
  deriving DecidableEq, Repr

def Flaw.message : Flaw → String
  | .noClusterId => "cluster_id must not be empty"
  | .noNodeId => "node.id must not be empty"
  | .noPool => "messaging.connection_pool_size must be > 0"
  | .noTimeout => "messaging timeouts must be > 0"
  | .noRoom => "messaging.max_frame_bytes and outbound_queue_size must be > 0"
  | .noInterval => "event_service.subscription_sync_interval_ms must be > 0"

def isBlankText (s : String) : Bool := (Text.trimChars s.toList).isEmpty

/-- The first flaw of a configuration. -/
def flaw? (c : Config) : Option Flaw :=
  if isBlankText c.clusterId then some .noClusterId
  else if c.node.id.any isBlankText then some .noNodeId
  else if c.messaging.poolSize = 0 then some .noPool
  else if c.messaging.connectTimeout = 0 ∨ c.messaging.requestTimeout = 0 then some .noTimeout
  else if c.messaging.maxFrame = 0 ∨ c.messaging.queueSize = 0 then some .noRoom
  else if c.syncInterval = 0 then some .noInterval
  else none

def nodes (c : Config) : List Node := c.peers.map PeerSettings.node

end Config

end ClusterNet
