import ClusterNet.Config.Basic
import ClusterNet.Text.Number

/-!
# Writing configurations

A configuration is written with all its fields. Strings are basic strings; what has no value
is left out.
-/

namespace ClusterNet.Config

def hexDigits (width n : Nat) : List Char :=
  let ds := Nat.toDigits 16 n
  List.replicate (width - ds.length) '0' ++ ds

/-- Quotes, backslashes and controls are escaped. -/
def escaped (c : Char) : List Char :=
  if c = '"' ∨ c = '\\' then ['\\', c]
  else if c.toNat < 0x20 ∨ c.toNat = 0x7F then '\\' :: 'u' :: hexDigits 4 c.toNat
  else [c]

def quotedChars (s : String) : List Char := '"' :: (s.toList.flatMap escaped ++ ['"'])

def textLine (key value : String) : List Char :=
  quotedChars key ++ " = ".toList ++ quotedChars value ++ ['\n']

def numberLine (key : String) (n : UInt64) : List Char :=
  quotedChars key ++ " = ".toList ++ Text.decimal n.toNat ++ ['\n']

def optionalLine (key : String) (value : Option String) : List Char :=
  (value.map (textLine key)).getD []

def headerLine (s : String) : List Char := s.toList ++ ['\n']

def memberChars (s : MemberSettings) : List Char :=
  headerLine "[node]" ++ optionalLine "id" s.id ++ textLine "address" s.address.text ++
    optionalLine "zone" s.zone ++ optionalLine "rack" s.rack ++ optionalLine "host" s.host ++
    optionalLine "version" (s.version.map SemVer.text) ++
    headerLine "[node.properties]" ++ s.properties.entries.flatMap fun (k, v) => textLine k v

def peerChars (s : PeerSettings) : List Char :=
  headerLine "[[discovery.nodes]]" ++ optionalLine "id" s.id ++ textLine "address" s.address.text

def messagingChars (s : MessagingSettings) : List Char :=
  headerLine "[messaging]" ++ numberLine "connection_pool_size" s.poolSize ++
    numberLine "connect_timeout_ms" s.connectTimeout ++
    numberLine "request_timeout_ms" s.requestTimeout ++
    numberLine "max_frame_bytes" s.maxFrame ++ numberLine "outbound_queue_size" s.queueSize

/-- The document that describes a configuration. -/
def text (c : Config) : String :=
  String.ofList <|
    textLine "cluster_id" c.clusterId ++ memberChars c.node ++ c.peers.flatMap peerChars ++
      messagingChars c.messaging ++ headerLine "[event_service]" ++
      numberLine "subscription_sync_interval_ms" c.syncInterval

end ClusterNet.Config
