import ClusterNet.Membership.Service

/-!
# The membership of one node on the bench

A script may listen at every floor, from the provider up to the membership service, and may
hold on to member objects. It knows its listeners and objects by the names it gave them.
-/

namespace ClusterNet.Bench

open ClusterNet.Membership

/-- Where somebody listens. -/
inductive Floor where
  | provider
  | discovery
  | protocol
  | service
  deriving DecidableEq, Repr

structure RosterBench where
  roster : Roster String
  kept : Table String MemberKey
  listening : Table (Floor × String) ListenerId

namespace RosterBench

def ofRoster (g : Roster String) : RosterBench := ⟨g, .empty, .empty⟩

/-- A guest of a name starts to listen. -/
def listen (b : RosterBench) (f : Floor) (name : String) : RosterBench :=
  let g := b.roster
  let (id, g) := match f with
    | .provider =>
      let (id, l) := g.discovery.provider.listeners.add (.guest name)
      (id, g.setProvider ({ · with listeners := l }))
    | .discovery =>
      let (id, l) := g.discovery.listeners.add (.guest name)
      (id, g.setDiscovery { g.discovery with listeners := l })
    | .protocol =>
      let (id, l) := g.protocol.listeners.add (.guest name)
      (id, { g with protocol := { g.protocol with listeners := l } })
    | .service =>
      let (id, l) := g.listeners.add name
      (id, { g with listeners := l })
  { b with roster := g, listening := b.listening.insert (f, name) id }

/-- A guest stops to listen. Says whether it did listen. -/
def unlisten (b : RosterBench) (f : Floor) (name : String) : Bool × RosterBench :=
  let g := b.roster
  let id := (b.listening.get? (f, name)).getD 0
  let (found, g) := match f with
    | .provider =>
      let (found, l) := g.discovery.provider.listeners.remove id
      (found, g.setProvider ({ · with listeners := l }))
    | .discovery =>
      let (found, l) := g.discovery.listeners.remove id
      (found, g.setDiscovery { g.discovery with listeners := l })
    | .protocol =>
      let (found, l) := g.protocol.listeners.remove id
      (found, { g with protocol := { g.protocol with listeners := l } })
    | .service =>
      let (found, l) := g.listeners.remove id
      (found, { g with listeners := l })
  (found, { b with roster := g })

/-- Holds on to a member, if there is one of that id. -/
def keep (b : RosterBench) (id : MemberId) (name : String) : Bool × RosterBench :=
  match b.roster.protocol.member? id with
  | some k => (true, { b with kept := b.kept.insert name k })
  | none => (false, b)

/-- What was noted since the last time. -/
def collect (b : RosterBench) : List (Delivery String) × RosterBench :=
  (b.roster.log.reverse, { b with roster := { b.roster with log := [] } })

end RosterBench

/-- Sets whether a member looks active, and says whether it did. -/
def setActive {L : Type} (g : Roster L) (id : MemberId) (value : Bool) : Option Bool × Roster L :=
  match g.protocol.member? id with
  | none => (none, g)
  | some k => (some (g.protocol.object k).active,
      { g with protocol := g.protocol.change k fun m => { m with active := value } })

/-- The members of a group as they are shown, in order. -/
def shownMembers {L : Type} (g : Roster L) (describe : Member → String) : List String :=
  (g.members.map describe).mergeSort

end ClusterNet.Bench
