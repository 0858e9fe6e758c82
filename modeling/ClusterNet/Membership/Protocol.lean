import ClusterNet.Membership.Discovery

/-!
# Membership protocols

A membership protocol decides who is a member. This one believes discovery: whoever discovery
reports is a member, and looks alive until it leaves. The local member is the one that joined,
whatever discovery says of its id.

A member is an object that others may hold on to: it has a key of its own, and its flags may
change later. So members are kept under their keys, also those that are members no longer.
-/

namespace ClusterNet.Membership

open Cluster

/-- What has changed about a member. -/
inductive Change where
  | added
  | metadata
  | reachability
  | removed
  deriving DecidableEq, Repr

def Change.text : Change → String
  | .added => "MEMBER_ADDED"
  | .metadata => "METADATA_CHANGED"
  | .reachability => "REACHABILITY_CHANGED"
  | .removed => "MEMBER_REMOVED"

/-- Tells a member from all others, also from one with the same id. -/
abbrev MemberKey := Nat

structure MemberEvent where
  change : Change
  member : MemberKey
  deriving DecidableEq, Repr

/-- Who listens to a protocol: a guest, or the membership service. -/
inductive GroupListener (L : Type) where
  | guest (l : L)
  | service

structure Protocol (L : Type) where
  /-- Every member that there ever was. -/
  objects : Table MemberKey Member
  nextKey : MemberKey
  /-- Who is a member. -/
  members : Table MemberId MemberKey
  listeners : Listeners (GroupListener L)
  /-- Under which id the protocol listens to discovery. -/
  subscription : Option ListenerId
  joined : Bool

namespace Protocol

variable {L : Type}

/-- The key of the local member. -/
def localKey : MemberKey := 0

def ofLocal (m : Member) : Protocol L :=
  ⟨Table.empty.insert localKey m, localKey + 1, .empty, .empty, none, false⟩

def object (p : Protocol L) (k : MemberKey) : Member := (p.objects.get? k).getD default

def localMember (p : Protocol L) : Member := p.object localKey

def member? (p : Protocol L) (id : MemberId) : Option MemberKey := p.members.get? id

def change (p : Protocol L) (k : MemberKey) (f : Member → Member) : Protocol L :=
  { p with objects := p.objects.modify k f }

/-- A member that discovery has reported, which looks alive. -/
def discover (p : Protocol L) (n : Node) : MemberKey × Protocol L :=
  (p.nextKey,
    { p with
      objects := p.objects.insert p.nextKey ((Member.ofNode n).marked true)
      nextKey := p.nextKey + 1
      members := p.members.insert n.id.retag p.nextKey })

/-- Takes in what discovery knows already, and the local member over it. -/
def enrol (p : Protocol L) (nodes : List Node) : Protocol L :=
  let p := nodes.foldl (fun p n => (p.discover n).2) p
  { p with members := p.members.insert p.localMember.id localKey }

/-- Follows a report of discovery, and tells what it means for the group. A report about the
local member means nothing. A member that joins again is replaced without a word. -/
def follow (p : Protocol L) (e : DiscoveryEvent) : Option MemberEvent × Protocol L :=
  let id : MemberId := e.node.id.retag
  if id = p.localMember.id then (none, p)
  else
    match e.presence with
    | .joined =>
      let (k, q) := p.discover e.node
      (if p.members.contains id then none else some ⟨.added, k⟩, q)
    | .left =>
      match p.member? id with
      | none => (none, p)
      | some k =>
        (some ⟨.removed, k⟩, { p with members := p.members.erase id }.change k (·.marked false))

end Protocol

end ClusterNet.Membership
