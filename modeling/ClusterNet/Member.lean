import ClusterNet.Address
import ClusterNet.Identifier
import ClusterNet.SemVer
import ClusterNet.Table

/-!
# Nodes and members

A node is an id and an address. A member is a node that takes part in a cluster: it says
where it is placed, and it has two flags that say whether it looks alive. Members are the
same when their ids are.
-/

namespace ClusterNet

structure Node where
  id : NodeId
  address : Address
  deriving DecidableEq, Repr, Inhabited

def Node.text (n : Node) : String := n.id.text ++ "@" ++ n.address.text

structure Member where
  id : MemberId
  address : Address
  zone : Option String
  rack : Option String
  host : Option String
  properties : Table String String
  version : Option SemVer
  active : Bool
  reachable : Bool
  deriving Inhabited

/-- Something that is said of a member when it is made. -/
inductive Detail where
  | zone (s : String)
  | rack (s : String)
  | host (s : String)
  | property (key value : String)
  | version (v : SemVer)
  deriving DecidableEq, Repr

namespace Member

/-- A member of which nothing is known but its id and address. It does not look alive. -/
def bare (id : MemberId) (address : Address) : Member :=
  ⟨id, address, none, none, none, .empty, none, false, false⟩

/-- What is said later wins. -/
def withDetail (m : Member) : Detail → Member
  | .zone s => { m with zone := some s }
  | .rack s => { m with rack := some s }
  | .host s => { m with host := some s }
  | .property k v => { m with properties := m.properties.insert k v }
  | .version v => { m with version := some v }

def build (id : MemberId) (address : Address) (details : List Detail) : Member :=
  details.foldl withDetail (bare id address)

/-- The member for a node that was discovered. -/
def ofNode (n : Node) : Member := bare n.id.retag n.address

def node (m : Member) : Node := ⟨m.id.retag, m.address⟩

def text (m : Member) : String := m.id.text ++ "@" ++ m.address.text

instance : BEq Member := ⟨fun a b => a.id == b.id⟩

/-- Sets both flags. -/
def marked (m : Member) (alive : Bool) : Member := { m with active := alive, reachable := alive }

end Member

end ClusterNet
