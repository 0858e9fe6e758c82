import ClusterNet.Proofs.Attachments

/-!
# Starts that fail

A membership service starts discovery and then joins the group. Either may fail, whatever provider and
protocol are behind it. The service takes back what it did itself: it runs no longer and nothing of it
listens to the protocol. It does not take back the start of discovery, so a group that refuses to be
joined leaves discovery running, where no stop of the service reaches it.
-/

namespace ClusterNet.Membership.Roster

open Cluster

variable {L T : Type} {g : Roster L} {serving finding : Bool}

/-! ## Any provider, any protocol -/

/-- An answer of a provider or a protocol, what else has changed with it, and the service then. -/
abbrev Asking (L T : Type) := T → Roster L → Done × T × Roster L

/-- Starts discovery over any provider. -/
def findWith (provide : Asking L T) (t : T) (g : Roster L) : Done × T × Roster L :=
  if g.discovery.running then (.ok (), t, g)
  else
    let (r, t, g) := provide t (g.setDiscovery g.discovery.beginStart)
    (r, t, g.setDiscovery (g.discovery.finishStart r))

/-- Starts the service over any provider and any protocol. -/
def startWith (provide join : Asking L T) (t : T) (g : Roster L) : Done × T × Roster L :=
  if g.running then (.ok (), t, g)
  else
    match findWith provide t g.beginStart with
    | (.error f, t, g) => (.error f, t, g.undoStart)
    | (.ok _, t, g) =>
      match join t (g.markLocal true) with
      | (.ok _, t, g) => (.ok (), t, g)
      | (.error f, t, g) => (.error f, t, g.undoStart)

/-- The provider that the service has. -/
def ownProvider : Asking L Unit := fun _ g => (g.discovery.provider.join, (), g)

/-- The protocol that the service has, behind its gate. -/
def ownProtocol : Asking L Unit := fun _ g => (g.joinGroup.1, (), g.joinGroup.2)

theorem findWith_own (g : Roster L) :
    findWith ownProvider () g = (g.discovery.start.1, (), g.setDiscovery g.discovery.start.2) := by
  unfold findWith Discovery.start
  split <;> rfl

theorem startWith_own (g : Roster L) : startWith ownProvider ownProtocol () g = (g.start.1, (), g.start.2) := by
  unfold startWith start
  split
  · rfl
  rw [findWith_own]
  dsimp only
  cases g.beginStart.discovery.start.1 with
  | error f => rfl
  | ok _ =>
    unfold finishStart ownProtocol
    dsimp only
    generalize ((g.beginStart.setDiscovery g.beginStart.discovery.start.2).markLocal true).joinGroup = a
    obtain ⟨_ | _, _⟩ := a <;> rfl

/-- Nothing that belongs to the two services is touched. Guests may come and go. -/
structure Courteous (ask : Asking L T) : Prop where
  running : ∀ t g, (ask t g).2.2.running = g.running ∧ (ask t g).2.2.discovery.running = g.discovery.running
  attached : ∀ t g, (ask t g).2.2.attached = g.attached ∧
    (ask t g).2.2.discovery.attached = g.discovery.attached
  provider : ∀ t g {id}, g.discovery.provider.listeners.Seats ProviderListener.isService id →
    (ask t g).2.2.discovery.provider.listeners.Seats ProviderListener.isService id
  protocol : ∀ t g {id}, g.protocol.listeners.Seats GroupListener.isService id →
    (ask t g).2.2.protocol.listeners.Seats GroupListener.isService id

theorem courteous_ownProvider : Courteous (ownProvider : Asking L Unit) :=
  ⟨fun _ _ => ⟨rfl, rfl⟩, fun _ _ => ⟨rfl, rfl⟩, fun _ _ _ h => h, fun _ _ _ h => h⟩

theorem frame_joinGroup (g : Roster L) :
    g.joinGroup.2.running = g.running ∧ g.joinGroup.2.attached = g.attached ∧
      g.joinGroup.2.discovery.running = g.discovery.running ∧
      g.joinGroup.2.discovery.attached = g.discovery.attached ∧
      g.joinGroup.2.discovery.provider = g.discovery.provider ∧
      g.joinGroup.2.protocol.listeners = g.protocol.listeners := by
  unfold joinGroup
  split
  · exact ⟨rfl, rfl, rfl, rfl, rfl, rfl⟩
  unfold joinProtocol
  split
  · exact ⟨rfl, rfl, rfl, rfl, rfl, rfl⟩
  · rw [introduce, announce_eq]
    exact ⟨rfl, rfl, rfl, rfl, rfl, (Protocol.frame_enrol _ _).1⟩

theorem courteous_ownProtocol : Courteous (ownProtocol : Asking L Unit) := by
  refine ⟨fun _ g => ?_, fun _ g => ?_, fun _ g id h => ?_, fun _ g id h => ?_⟩ <;>
    obtain ⟨hrunning, hattached, hfinding, hhearing, hprovider, hlisteners⟩ := g.frame_joinGroup
  · exact ⟨hrunning, hfinding⟩
  · exact ⟨hattached, hhearing⟩
  · change g.joinGroup.2.discovery.provider.listeners.Seats _ _
    rwa [hprovider]
  · change g.joinGroup.2.protocol.listeners.Seats _ _
    rwa [hlisteners]

/-! ## Where a start leaves off -/

/-- Which of the two services runs. Each of them listens exactly while it runs. -/
structure Placed (g : Roster L) (serving finding : Bool) : Prop where
  running : g.running = serving ∧ g.discovery.running = finding
  attached : g.attached.isSome = serving ∧ g.discovery.attached.isSome = finding
  provider : g.discovery.provider.listeners.Seats ProviderListener.isService g.discovery.attached
  protocol : g.protocol.listeners.Seats GroupListener.isService g.attached

theorem placed_ofLocal (m : Member) (nodes : List Node) (gate : Gate) :
    ({ ofLocal m (.ofNodes nodes) with gate } : Roster L).Placed false false :=
  ⟨⟨rfl, rfl⟩, ⟨rfl, rfl⟩, Listeners.seats_empty _, Listeners.seats_empty _⟩

theorem Courteous.placed {ask : Asking L T} (hask : Courteous ask) (t : T) (h : g.Placed serving finding) :
    (ask t g).2.2.Placed serving finding := by
  obtain ⟨hrunning, hfinding⟩ := hask.running t g
  obtain ⟨hattached, hhearing⟩ := hask.attached t g
  have hprovider := hask.provider t g h.provider
  have hprotocol := hask.protocol t g h.protocol
  rw [← hhearing] at hprovider
  rw [← hattached] at hprotocol
  refine ⟨?_, ?_, hprovider, hprotocol⟩
  · rw [hrunning, hfinding]
    exact h.running
  · rw [hattached, hhearing]
    exact h.attached

theorem Placed.beginStart (h : g.Placed false finding) : g.beginStart.Placed true finding := by
  obtain ⟨hattached, hhearing⟩ := h.attached
  rw [Option.isSome_eq_false_iff, Option.isNone_iff_eq_none] at hattached
  have hprotocol := h.protocol
  rw [hattached] at hprotocol
  exact ⟨⟨rfl, h.running.2⟩, ⟨rfl, hhearing⟩, h.provider, hprotocol.add rfl⟩

theorem Placed.beginFinding (h : g.Placed serving false) :
    (g.setDiscovery g.discovery.beginStart).Placed serving true := by
  obtain ⟨hattached, hhearing⟩ := h.attached
  rw [Option.isSome_eq_false_iff, Option.isNone_iff_eq_none] at hhearing
  have hprovider := h.provider
  rw [hhearing] at hprovider
  exact ⟨⟨h.running.1, rfl⟩, ⟨hattached, rfl⟩, hprovider.add rfl, h.protocol⟩

theorem Placed.undoFinding (h : g.Placed serving finding) (f : Failure) :
    (g.setDiscovery (g.discovery.finishStart (.error f))).Placed serving false :=
  ⟨⟨h.running.1, rfl⟩, ⟨h.attached.1, rfl⟩, h.provider.removeSome, h.protocol⟩

theorem Placed.markLocal (h : g.Placed serving finding) (alive : Bool) :
    (g.markLocal alive).Placed serving finding :=
  ⟨h.running, h.attached, h.provider, h.protocol⟩

theorem Placed.undoStart (h : g.Placed serving finding) : g.undoStart.Placed false finding :=
  ⟨⟨rfl, h.running.2⟩, ⟨rfl, h.attached.2⟩, h.provider, h.protocol.removeSome⟩

theorem asleep_undoStart (g : Roster L) :
    g.undoStart.localMember.active = false ∧ g.undoStart.localMember.reachable = false := by
  have hlocal : g.undoStart.localMember =
      ((g.protocol.objects.get? Protocol.localKey).map (·.marked false)).getD default := by
    change ((g.protocol.objects.modify _ _).get? _).getD default = _
    rw [Table.get?_modify, if_pos rfl]
  rw [hlocal]
  cases g.protocol.objects.get? Protocol.localKey <;> exact ⟨rfl, rfl⟩

theorem Placed.findWith {provide : Asking L T} (hprovide : Courteous provide) (h : g.Placed serving finding)
    (t : T) : (findWith provide t g).2.2.Placed serving
      (finding || (provide t (g.setDiscovery g.discovery.beginStart)).1.isOk) := by
  unfold Roster.findWith
  cases finding with
  | true =>
    rw [if_pos h.running.2]
    exact h
  | false =>
    rw [if_neg (by simp [h.running.2])]
    have hasked := hprovide.placed t h.beginFinding
    dsimp only
    cases (provide t (g.setDiscovery g.discovery.beginStart)).1 with
    | ok _ => exact hasked
    | error f => exact hasked.undoFinding f

/-! ## What is taken back -/

/-- A start has failed. Discovery runs on or does not. -/
structure TakenBack (g : Roster L) (kept : Bool) : Prop where
  running : g.running = false
  protocol : g.attached = none ∧ g.protocol.listeners.snapshot.countP (·.isService) = 0
  asleep : g.localMember.active = false ∧ g.localMember.reachable = false
  finding : g.discovery.running = kept
  provider : g.discovery.attached.isSome = kept ∧
    g.discovery.provider.listeners.snapshot.countP (·.isService) = if kept then 1 else 0
  /-- A stop leaves it at that. -/
  stop : g.stop = (.ok (), g)
  /-- If discovery runs on, the next start does not ask the provider. -/
  again : kept = true → ∀ {U : Type} (provide provide' join : Asking L U) u,
    g.startWith provide join u = g.startWith provide' join u

theorem startWith_finding (hfinding : g.discovery.running = true) (provide provide' join : Asking L T) (t : T) :
    g.startWith provide join t = g.startWith provide' join t := by
  unfold startWith findWith
  split
  · rfl
  · rw [if_pos (show g.beginStart.discovery.running = true from hfinding),
      if_pos (show g.beginStart.discovery.running = true from hfinding)]

theorem Placed.takenBack (h : g.Placed serving finding) : g.undoStart.TakenBack finding := by
  have hundone := h.undoStart
  refine ⟨rfl, ⟨rfl, hundone.protocol.countP_eq⟩, asleep_undoStart g, hundone.running.2,
    ⟨hundone.attached.2, ?_⟩, ?_, ?_⟩
  · rw [hundone.provider.countP_eq, hundone.attached.2]
  · unfold stop
    exact if_neg (by simp [hundone.running.1])
  · intro hkept _ provide provide' join t
    exact startWith_finding (hundone.running.2.trans hkept) provide provide' join t

/-- Whatever provider and protocol a service has, a start that fails is taken back as far as the service
itself goes. Discovery does not run afterwards if the provider has refused, and runs on if the protocol
has, or if it ran before. -/
theorem failed_starts_are_taken_back {provide join : Asking L T} (hprovide : Courteous provide)
    (hjoin : Courteous join) (h : g.Placed false finding) (t : T) {f : Failure}
    (hfail : (g.startWith provide join t).1 = .error f) : (g.startWith provide join t).2.2.TakenBack
      (finding || (provide t (g.beginStart.setDiscovery g.discovery.beginStart)).1.isOk) := by
  have hplaced := h.beginStart.findWith hprovide t
  unfold startWith at hfail ⊢
  rw [if_neg (by simp [h.running.1])] at hfail ⊢
  change (g.beginStart.findWith provide t).2.2.Placed true
    (finding || (provide t (g.beginStart.setDiscovery g.discovery.beginStart)).1.isOk) at hplaced
  generalize g.beginStart.findWith provide t = found at *
  obtain ⟨e | _, u, g'⟩ := found
  · exact hplaced.takenBack
  · have hasked := hjoin.placed u (hplaced.markLocal true)
    dsimp only at hfail ⊢
    generalize join u (g'.markLocal true) = asked at *
    obtain ⟨e | _, v, g''⟩ := asked
    · exact hasked.takenBack
    · cases hfail

/-- A service that nobody has started yet, whose protocol refuses to join. -/
def barred : Roster String :=
  { ofLocal (Member.bare ⟨"a"⟩ ⟨"127.0.0.1", 1⟩) (.ofNodes []) with
    gate := ⟨some (.notRunning "scripted protocol"), none⟩ }

theorem failed_starts_are_taken_back_barred :
    barred.Placed false false ∧ barred.start.1 = .error (.notRunning "scripted protocol") ∧
      barred.start.2.TakenBack true := by
  have hplaced : barred.Placed false false := placed_ofLocal _ _ _
  have hfail : barred.start.1 = .error (.notRunning "scripted protocol") := by decide +kernel
  have heq := startWith_own barred
  have htaken := failed_starts_are_taken_back courteous_ownProvider courteous_ownProtocol hplaced ()
    (f := .notRunning "scripted protocol") (by rw [heq]; exact hfail)
  rw [heq] at htaken
  exact ⟨hplaced, hfail, htaken⟩

/-- The start of discovery is not taken back when the group refuses, and no stop ends it. -/
theorem a_barred_start_leaves_discovery_running :
    barred.start.1 = .error (.notRunning "scripted protocol") ∧ barred.start.2.running = false ∧
      barred.start.2.discovery.running = true ∧
      barred.start.2.discovery.provider.listeners.snapshot.countP (·.isService) = 1 ∧
      barred.start.2.stop.1 = .ok () ∧ barred.start.2.stop.2.discovery.running = true := by
  decide +kernel

end ClusterNet.Membership.Roster
