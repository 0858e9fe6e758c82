import ClusterNet.Proofs.Attachments

/-!
# Restarts

A membership service may be started and stopped any number of times, and the provider may refuse it
each time. Between two calls it is up or down: what listens for it is there once or not at all. So
its guests hear each event of the group once while it is up and nothing while it is down, whatever
came before. A start that fails leaves it as down as a stop does.
-/

namespace ClusterNet.Membership

open Bench (Floor)
open Cluster

variable {L : Type}

/-- What happens to a membership service between one moment of rest and the next. -/
inductive ServiceAct where
  /-- It is started, and the provider may refuse to be joined. -/
  | starts (refusal : Option String)
  /-- It is stopped, and the provider may refuse to be left. -/
  | stops (refusal : Option String)
  /-- The provider has these nodes now and tells of an event. -/
  | tells (nodes : List Node) (e : DiscoveryEvent)

namespace Roster

variable {g : Roster L} {up : Bool} {m : Member}

/-- What an act comes to, and the service afterwards. -/
def act (g : Roster L) : ServiceAct → Done × Roster L
  | .starts refusal => (g.setProvider ({ · with joinRefusal := refusal })).start
  | .stops refusal => (g.setProvider ({ · with leaveRefusal := refusal })).stop
  | .tells nodes e => (.ok (), (g.setProvider ({ · with nodes })).post e)

/-- What the group is told during an act. -/
def news (g : Roster L) : ServiceAct → List Notice
  | .starts none => if g.running then [] else [⟨.added, Protocol.localKey, g.localMember.marked true⟩]
  | .tells _ e => if g.running then g.protocol.notices e else []
  | _ => []

/-- Who is told of what during an act, from the provider upwards. -/
def traffic (g : Roster L) : ServiceAct → List (Floor × Delivery L)
  | .tells _ e => g.postRound e
  | a => (g.news a).flatMap g.beginStart.noticeRound

/-- The provider and the protocol have given one more id each. -/
def renumber (g : Roster L) : Roster L :=
  let heard := g.discovery.provider.listeners
  { g.setProvider ({ · with listeners := ⟨heard.entries, heard.nextId + 1⟩ }) with
    protocol := { g.protocol with
      listeners := ⟨g.protocol.listeners.entries, g.protocol.listeners.nextId + 1⟩ } }

/-- The guests of the service and of the protocol are the same. -/
structure SameGuests (g' g : Roster L) : Prop where
  service : g'.listeners = g.listeners
  protocol : g'.protocol.guests = g.protocol.guests

/-! ## Up and down -/

/-- The three that listen for a service are in their places, all of them or none. -/
structure Wired (g : Roster L) (up : Bool) (m : Member) : Prop where
  stands : g.Stands up up m
  joined : g.protocol.joined = up
  vacant : up = false → g.protocol.members = .empty
  provider : g.discovery.provider.listeners.Seats ProviderListener.isService g.discovery.attached
  discovery : g.discovery.listeners.Seats DiscoveryListener.isProtocol g.protocol.subscription
  protocol : g.protocol.listeners.Seats GroupListener.isService g.attached
  attached : g.discovery.attached.isSome = up ∧ g.protocol.subscription.isSome = up ∧ g.attached.isSome = up

theorem wired_ofLocal (m : Member) (provider : Provider L)
    (h : provider.listeners.Seats ProviderListener.isService none) : (ofLocal m provider).Wired false m where
  stands := stands_ofLocal m provider
  joined := rfl
  vacant _ := rfl
  provider := h
  discovery := Listeners.seats_empty _
  protocol := Listeners.seats_empty _
  attached := ⟨rfl, rfl, rfl⟩

/-- A service that nobody has started, or that was stopped again. -/
structure Down (g : Roster L) : Prop where
  running : g.running = false
  finding : g.discovery.running = false
  joined : g.protocol.joined = false
  members : g.members = []
  asleep : g.localMember.active = false ∧ g.localMember.reachable = false
  provider : g.discovery.attached = none ∧ ∀ l ∈ g.discovery.provider.listeners.snapshot, l.isService = false
  discovery : g.protocol.subscription = none ∧ ∀ l ∈ g.discovery.listeners.snapshot, l.isProtocol = false
  protocol : g.attached = none ∧ ∀ l ∈ g.protocol.listeners.snapshot, l.isService = false

theorem Wired.unattached (h : g.Wired false m) :
    g.discovery.attached = none ∧ g.protocol.subscription = none ∧ g.attached = none := by
  simpa using h.attached

theorem Wired.down (h : g.Wired false m) (hasleep : m.active = false ∧ m.reachable = false) : g.Down := by
  obtain ⟨hprovider, hdiscovery, hprotocol⟩ := h.unattached
  refine ⟨h.stands.running, h.stands.discovery, h.joined, ?_, ?_,
    ⟨hprovider, (hprovider ▸ h.provider).nobody⟩, ⟨hdiscovery, (hdiscovery ▸ h.discovery).nobody⟩,
    ⟨hprotocol, (hprotocol ▸ h.protocol).nobody⟩⟩
  · unfold members
    rw [h.vacant rfl]
    rfl
  · unfold localMember
    rwa [h.stands.apart.keyed.localMember]

theorem Wired.setProvider (h : g.Wired up m) {f : Provider L → Provider L}
    (hf : (f g.discovery.provider).listeners = g.discovery.provider.listeners) :
    (g.setProvider f).Wired up m where
  stands := ⟨h.stands.running, h.stands.discovery, h.stands.gate, h.stands.apart⟩
  joined := h.joined
  vacant := h.vacant
  provider := by
    change (f g.discovery.provider).listeners.Seats _ _
    rw [hf]
    exact h.provider
  discovery := h.discovery
  protocol := h.protocol
  attached := h.attached

/-! ## Starting -/

theorem start_running (h : g.running = true) : g.start = (.ok (), g) := by
  unfold start
  rw [if_pos h]

theorem start_idle (hrunning : g.running = false) (hfinding : g.discovery.running = false) :
    g.start = (g.beginStart.setDiscovery (g.discovery.beginStart.finishStart g.discovery.provider.join)).finishStart
      g.discovery.provider.join := by
  unfold start
  rw [if_neg (by simp [hrunning])]
  have hstart : g.beginStart.discovery.start =
      (g.discovery.provider.join, g.discovery.beginStart.finishStart g.discovery.provider.join) := by
    change g.discovery.start = _
    unfold Discovery.start
    rw [if_neg (by simp [hfinding])]
    rfl
  simp only [hstart]

/-- Everything is as it was, but for the ids. -/
theorem Wired.start_refused (h : g.Wired false m) {f : Failure} (hjoin : g.discovery.provider.join = .error f) :
    g.start = (.error f, (g.markLocal false).renumber) := by
  obtain ⟨hattached, -, hservice⟩ := h.unattached
  rw [start_idle h.stands.running h.stands.discovery, hjoin]
  unfold finishStart undoStart detach Discovery.finishStart Discovery.detach
  -- Both registries lose again what they were given, and keep the next id.
  have hprovider := h.provider.removeSome_add .service
  have hprotocol := h.protocol.removeSome_add .service
  have hrunning := h.stands.running
  have hfinding := h.stands.discovery
  simp only [markLocal, beginStart, Discovery.beginStart, setDiscovery, Protocol.change, renumber,
    Roster.setProvider] at *
  rw [hprovider, hprotocol]
  obtain ⟨⟨provider, listeners, attached, finding⟩, protocol, gate, heard, service, running, log⟩ := g
  simp only at *
  subst hattached hservice hrunning hfinding
  rfl

theorem Wired.markLocal (h : g.Wired up m) (alive : Bool) : (g.markLocal alive).Wired up (m.marked alive) :=
  ⟨h.stands.markLocal alive, h.joined, h.vacant, h.provider, h.discovery, h.protocol, h.attached⟩

theorem Wired.renumber (h : g.Wired up m) : g.renumber.Wired up m where
  stands := ⟨h.stands.running, h.stands.discovery, h.stands.gate, h.stands.apart.of_eq rfl rfl rfl⟩
  joined := h.joined
  vacant := h.vacant
  provider := h.provider.skip
  discovery := h.discovery
  protocol := h.protocol.skip
  attached := h.attached

theorem Wired.start_joined (h : g.Wired false m) (hjoin : g.discovery.provider.join = .ok ()) :
    g.start = (.ok (), ((g.beginStart.setDiscovery g.discovery.beginStart).markLocal true).joinProtocol) := by
  rw [start_idle h.stands.running h.stands.discovery, hjoin]
  exact finishStart_ok h.stands.gate

theorem joinProtocol_apart (h : g.protocol.joined = false) (hapart : g.protocol.Apart m) :
    g.joinProtocol = ({ g.enrol g.discovery.provider.nodes with
      log := ((g.noticeRound ⟨.added, Protocol.localKey, m⟩).map (·.2)).reverse ++ g.log } :
        Roster L).subscribe := by
  have hown : (g.enrol g.discovery.provider.nodes).protocol.objects.get? Protocol.localKey = some m :=
    (hapart.enrol _).keyed.own
  rw [joinProtocol_eq h, introduce, announce_eq, audience_enrol, Protocol.notice_eq hown, map_noticeRound]
  rfl

theorem Wired.seats_beginStart (h : g.Wired false m) :
    g.beginStart.protocol.listeners.Seats GroupListener.isService (some g.protocol.listeners.nextId) := by
  obtain ⟨-, -, hservice⟩ := h.unattached
  exact (hservice ▸ h.protocol).add rfl

theorem guests_beginStart (g : Roster L) : g.beginStart.protocol.guests = g.protocol.guests := by
  simp [Protocol.guests, beginStart, Listeners.add, Listeners.snapshot, GroupListener.guest?]

theorem Wired.starts (h : g.Wired false m) (hjoin : g.discovery.provider.join = .ok ()) :
    g.start.1 = .ok () ∧ g.start.2.Wired true (m.marked true) ∧ g.start.2.SameGuests g ∧ g.start.2.log =
      ((g.beginStart.noticeRound ⟨.added, Protocol.localKey, m.marked true⟩).map (·.2)).reverse ++ g.log := by
  obtain ⟨hattached, hsubscription, -⟩ := h.unattached
  have hentering := (h.stands.beginStart.setDiscovery g.discovery.beginStart).markLocal true
  have hjoined := hentering.joinProtocol
  have heq := joinProtocol_apart (g := (g.beginStart.setDiscovery g.discovery.beginStart).markLocal true)
    h.joined hentering.apart
  rw [h.start_joined hjoin]
  refine ⟨rfl, ⟨hjoined, ?_, by simp, ?_, ?_, ?_, ?_⟩, ⟨?_, ?_⟩, ?_⟩
  all_goals rw [heq]
  · rfl
  · exact (hattached ▸ h.provider).add rfl
  · exact (hsubscription ▸ h.discovery).add rfl
  · change Listeners.Seats (Protocol.enrol _ _).listeners _ _
    rw [(Protocol.frame_enrol _ _).1]
    exact h.seats_beginStart
  · exact ⟨rfl, rfl, rfl⟩
  · rfl
  · change (Protocol.enrol _ _).guests = _
    unfold Protocol.guests
    rw [(Protocol.frame_enrol _ _).1]
    exact g.guests_beginStart
  · rfl

/-! ## Stopping -/

theorem stop_idle (h : g.running = false) : g.stop = (.ok (), g) := by
  unfold stop
  rw [if_neg (by simp [h])]

theorem Wired.stops (h : g.Wired true m) :
    g.stop.2.Wired false (m.marked false) ∧ g.stop.2.SameGuests g ∧ g.stop.2.log = g.log := by
  have hstopped := h.stands.stop
  let left := ({ g with running := false } : Roster L).unsubscribe.disband
  have heq : g.stop.2 = ((left.setDiscovery left.discovery.beginStop.detach).markLocal false).detach := by
    have hfinding : ({ g with running := false } : Roster L).unsubscribe.disband.discovery.running = true :=
      h.stands.discovery
    rw [stop_eq h.stands.running, beginStop_eq h.stands.gate, leaveProtocol, if_pos h.joined,
      Discovery.stop, if_pos hfinding]
    rfl
  refine ⟨⟨hstopped, ?_, ?_, ?_, ?_, ?_, ?_⟩, ⟨?_, ?_⟩, ?_⟩
  all_goals rw [heq]
  · rfl
  · exact fun _ => rfl
  · exact h.provider.removeSome
  · exact h.discovery.removeSome
  · exact h.protocol.removeSome
  · exact ⟨rfl, rfl, rfl⟩
  · rfl
  · apply h.protocol.filterMap_removeSome
    rintro (l | _) hl
    · cases hl
    · rfl
  · rfl

/-! ## Telling -/

theorem Wired.post_eq (h : g.Wired up m) (e : DiscoveryEvent) :
    g.post e = g.moved (if up then (g.protocol.follow e).2 else g.protocol)
      (((g.postRound e).map (·.2)).reverse ++ g.log) := by
  obtain ⟨hattached, hsubscription, -⟩ := h.attached
  rw [Roster.post_eq h.provider.countP_le h.discovery.countP_le, h.provider.any_eq, h.discovery.any_eq,
    hattached, hsubscription]
  cases up <;> rfl

theorem Wired.post (h : g.Wired up m) (e : DiscoveryEvent) :
    (g.post e).Wired up m ∧ (g.post e).SameGuests g := by
  rw [h.post_eq]
  cases up with
  | false =>
    exact ⟨⟨⟨h.stands.running, h.stands.discovery, h.stands.gate, h.stands.apart⟩, h.joined, h.vacant,
      h.provider, h.discovery, h.protocol, h.attached⟩, ⟨rfl, rfl⟩⟩
  | true =>
    obtain ⟨hlisteners, hsubscription, hjoined⟩ := g.protocol.frame_follow e
    refine ⟨⟨⟨h.stands.running, h.stands.discovery, h.stands.gate, h.stands.apart.follow e⟩,
      hjoined.trans h.joined, by simp, h.provider, ?_, ?_, ?_⟩, ⟨rfl, ?_⟩⟩
    · change Listeners.Seats _ _ (g.protocol.follow e).2.subscription
      rw [hsubscription]
      exact h.discovery
    · change Listeners.Seats (g.protocol.follow e).2.listeners _ _
      rw [hlisteners]
      exact h.protocol
    · change _ ∧ (g.protocol.follow e).2.subscription.isSome = _ ∧ _
      rw [hsubscription]
      exact h.attached
    · change (g.protocol.follow e).2.guests = _
      unfold Protocol.guests
      rw [hlisteners]

theorem Wired.heard_service_postRound (h : g.Wired up m) (e : DiscoveryEvent) : heard .service (g.postRound e) =
    if up then (g.protocol.notices e).flatMap (·.deliveries g.listeners.snapshot) else [] := by
  obtain ⟨hattached, hsubscription, hservice⟩ := h.attached
  simp only [heard_postRound (.inr rfl), heard_spreadRound (.inr rfl), heard_service_noticeRound,
    h.provider.countP_eq, h.discovery.countP_eq, h.protocol.countP_eq, hattached, hsubscription, hservice]
  cases up <;> simp

theorem Wired.heard_protocol_postRound (h : g.Wired up m) (e : DiscoveryEvent) : heard .protocol (g.postRound e) =
    if up then (g.protocol.notices e).flatMap (·.deliveries g.protocol.guests) else [] := by
  obtain ⟨hattached, hsubscription, -⟩ := h.attached
  simp only [heard_postRound (.inl rfl), heard_spreadRound (.inl rfl), heard_protocol_noticeRound,
    h.provider.countP_eq, h.discovery.countP_eq, hattached, hsubscription]
  cases up <;> simp

theorem Wired.postRound_down (h : g.Wired false m) (e : DiscoveryEvent) :
    ∀ d ∈ g.postRound e, d.1 = .provider := by
  obtain ⟨hattached, -, -⟩ := h.unattached
  have hnobody := (hattached ▸ h.provider).nobody
  intro d hd
  obtain ⟨l | _, hl, hd⟩ := List.mem_flatMap.mp hd
  · rw [List.mem_singleton.mp hd]
  · exact absurd (hnobody _ hl) (by simp [ProviderListener.isService])

/-! ## One act -/

theorem Wired.act_starts (h : g.Wired up m) (refusal : Option String) :
    (g.act (.starts refusal)).2.running = (g.act (.starts refusal)).1.isOk ∧
      ∀ f, (g.act (.starts refusal)).1 = .error f → g.running = false ∧
        (g.act (.starts refusal)).2 =
          ((g.setProvider ({ · with joinRefusal := refusal })).markLocal false).renumber ∧
        (g.act (.starts refusal)).2.Down := by
  have hset := h.setProvider (f := ({ · with joinRefusal := refusal })) rfl
  cases up with
  | true =>
    have hact : g.act (.starts refusal) = (.ok (), g.setProvider ({ · with joinRefusal := refusal })) :=
      start_running hset.stands.running
    rw [hact]
    exact ⟨hset.stands.running, fun f hf => by cases hf⟩
  | false =>
    cases refusal with
    | some text =>
      have hact := hset.start_refused (f := .discovery text) rfl
      rw [act, hact]
      exact ⟨h.stands.running, fun _ _ => ⟨h.stands.running, rfl,
        (hset.markLocal false).renumber.down ⟨rfl, rfl⟩⟩⟩
    | none =>
      obtain ⟨hresult, hwired, -⟩ := hset.starts rfl
      rw [act, hresult]
      exact ⟨hwired.stands.running, fun f hf => by cases hf⟩

/-- An act leaves a service at rest. Its guests, and those of the protocol, are told of the news of the
group, in order and once each. -/
structure Acts (g : Roster L) (a : ServiceAct) : Prop where
  wired : ∃ up m, (g.act a).2.Wired up m
  guests : (g.act a).2.SameGuests g
  log : (g.act a).2.log = ((g.traffic a).map (·.2)).reverse ++ g.log
  service : heard .service (g.traffic a) = (g.news a).flatMap (·.deliveries g.listeners.snapshot)
  protocol : heard .protocol (g.traffic a) = (g.news a).flatMap (·.deliveries g.protocol.guests)

theorem Acts.of_silent {a : ServiceAct} (hwired : ∃ up m, (g.act a).2.Wired up m)
    (hguests : (g.act a).2.SameGuests g) (hlog : (g.act a).2.log = g.log) (hnews : g.news a = [])
    (htraffic : g.traffic a = []) : g.Acts a := by
  refine ⟨hwired, hguests, ?_, ?_, ?_⟩ <;> rw [htraffic]
  · exact hlog
  · rw [hnews]
    rfl
  · rw [hnews]
    rfl

theorem Wired.acts_starts (h : g.Wired up m) (refusal : Option String) : g.Acts (.starts refusal) := by
  have hset := h.setProvider (f := ({ · with joinRefusal := refusal })) rfl
  cases up with
  | true =>
    have hnews : g.news (.starts refusal) = [] := by
      cases refusal <;> simp [news, h.stands.running]
    have hact : g.act (.starts refusal) = (.ok (), g.setProvider ({ · with joinRefusal := refusal })) :=
      start_running hset.stands.running
    refine .of_silent ?_ ?_ ?_ hnews (by simp [traffic, hnews]) <;> rw [hact]
    · exact ⟨true, m, hset⟩
    · exact ⟨rfl, rfl⟩
    · rfl
  | false =>
    cases refusal with
    | some text =>
      have hact := hset.start_refused (f := .discovery text) rfl
      refine .of_silent ?_ ?_ ?_ rfl rfl <;> rw [act, hact]
      · exact ⟨false, _, (hset.markLocal false).renumber⟩
      · exact ⟨rfl, rfl⟩
      · rfl
    | none =>
      obtain ⟨-, hwired, hguests, hlog⟩ := hset.starts rfl
      have hnews : g.news (.starts none) = [⟨.added, Protocol.localKey, m.marked true⟩] := by
        have hlocal : g.localMember = m := h.stands.apart.keyed.localMember
        simp [news, h.stands.running, hlocal]
      have htraffic : g.traffic (.starts none) =
          g.beginStart.noticeRound ⟨.added, Protocol.localKey, m.marked true⟩ := by
        simp [traffic, hnews]
      refine ⟨⟨true, _, hwired⟩, ⟨hguests.service, hguests.protocol⟩, ?_, ?_, ?_⟩ <;> rw [htraffic]
      · exact hlog
      · rw [hnews, List.flatMap_singleton, heard_service_noticeRound, h.seats_beginStart.countP_eq,
          Option.isSome_some, if_pos rfl, List.replicate_one, List.flatten_singleton]
        rfl
      · rw [hnews, List.flatMap_singleton, heard_protocol_noticeRound, guests_beginStart]

theorem Wired.acts_stops (h : g.Wired up m) (refusal : Option String) : g.Acts (.stops refusal) := by
  have hset := h.setProvider (f := ({ · with leaveRefusal := refusal })) rfl
  cases up with
  | true =>
    obtain ⟨hwired, hguests, hlog⟩ := hset.stops
    exact .of_silent ⟨false, _, hwired⟩ ⟨hguests.service, hguests.protocol⟩ hlog rfl rfl
  | false =>
    have hact : g.act (.stops refusal) = (.ok (), g.setProvider ({ · with leaveRefusal := refusal })) :=
      stop_idle hset.stands.running
    refine .of_silent ?_ ?_ ?_ rfl rfl <;> rw [hact]
    · exact ⟨false, m, hset⟩
    · exact ⟨rfl, rfl⟩
    · rfl

theorem Wired.acts_tells (h : g.Wired up m) (nodes : List Node) (e : DiscoveryEvent) :
    g.Acts (.tells nodes e) := by
  have hset := h.setProvider (f := ({ · with nodes })) rfl
  obtain ⟨hwired, hguests⟩ := hset.post e
  refine ⟨⟨up, m, hwired⟩, ⟨hguests.service, hguests.protocol⟩, ?_, ?_, ?_⟩
  · exact congrArg Roster.log (hset.post_eq e)
  · rw [traffic, h.heard_service_postRound, news, h.stands.running]
    cases up <;> rfl
  · rw [traffic, h.heard_protocol_postRound, news, h.stands.running]
    cases up <;> rfl

theorem Wired.acts (h : g.Wired up m) : ∀ a, g.Acts a
  | .starts refusal => h.acts_starts refusal
  | .stops refusal => h.acts_stops refusal
  | .tells nodes e => h.acts_tells nodes e

end Roster

/-! ## All acts -/

/-- A service, what its group was told, and who was told of what. -/
structure Ledger (L : Type) where
  roster : Roster L
  news : List Notice
  traffic : List (Floor × Delivery L)

namespace Ledger

variable {g : Roster L} {m : Member}

def act (c : Ledger L) (a : ServiceAct) : Ledger L :=
  ⟨(c.roster.act a).2, c.news ++ c.roster.news a, c.traffic ++ c.roster.traffic a⟩

def run (g : Roster L) (acts : List ServiceAct) : Ledger L := acts.foldl act ⟨g, [], []⟩

structure Rests (g : Roster L) (c : Ledger L) : Prop where
  wired : ∃ up m, c.roster.Wired up m
  guests : c.roster.SameGuests g
  log : c.roster.log = (c.traffic.map (·.2)).reverse ++ g.log
  service : heard .service c.traffic = c.news.flatMap (·.deliveries g.listeners.snapshot)
  protocol : heard .protocol c.traffic = c.news.flatMap (·.deliveries g.protocol.guests)

theorem Rests.act {c : Ledger L} (h : c.Rests g) (a : ServiceAct) : (c.act a).Rests g := by
  obtain ⟨up, m, hwired⟩ := h.wired
  have hact := hwired.acts a
  refine ⟨hact.wired, ⟨?_, ?_⟩, ?_, ?_, ?_⟩
  · exact hact.guests.service.trans h.guests.service
  · exact hact.guests.protocol.trans h.guests.protocol
  · rw [Ledger.act, hact.log, h.log, List.map_append, List.reverse_append, List.append_assoc]
  · rw [Ledger.act, heard_append, h.service, hact.service, h.guests.service, List.flatMap_append]
  · rw [Ledger.act, heard_append, h.protocol, hact.protocol, h.guests.protocol, List.flatMap_append]

theorem rests_run (h : g.Wired false m) (acts : List ServiceAct) : (run g acts).Rests g := by
  induction acts using List.reverseRecOn with
  | nil => exact ⟨⟨false, m, h⟩, ⟨rfl, rfl⟩, rfl, rfl, rfl⟩
  | append_singleton acts a ih =>
    rw [run, List.foldl_append]
    exact ih.act a

/-- What holds of a service after any acts. -/
structure HeardOnce (g : Roster L) (c : Ledger L) : Prop where
  provider : c.roster.discovery.provider.listeners.snapshot.countP (·.isService) =
    if c.roster.running then 1 else 0
  discovery : c.roster.discovery.listeners.snapshot.countP (·.isProtocol) = if c.roster.running then 1 else 0
  protocol : c.roster.protocol.listeners.snapshot.countP (·.isService) = if c.roster.running then 1 else 0
  log : c.roster.log = (c.traffic.map (·.2)).reverse ++ g.log
  service : heard .service c.traffic = c.news.flatMap (·.deliveries g.listeners.snapshot)
  group : heard .protocol c.traffic = c.news.flatMap (·.deliveries g.protocol.guests)
  each : ∀ e, heard .service (c.roster.postRound e) =
    (if c.roster.running then c.roster.protocol.notices e else []).flatMap (·.deliveries g.listeners.snapshot)
  one : ∀ e, (c.roster.protocol.notices e).length ≤ 1
  silent : c.roster.running = false → ∀ e,
    (c.roster.post e).protocol = c.roster.protocol ∧ ∀ d ∈ c.roster.postRound e, d.1 = .provider
  started : ∀ refusal, (c.roster.act (.starts refusal)).2.running = (c.roster.act (.starts refusal)).1.isOk
  /-- The service is where it was, but for two ids that are not given again. -/
  refused : ∀ refusal f, (c.roster.act (.starts refusal)).1 = .error f → c.roster.running = false ∧
    (c.roster.act (.starts refusal)).2 =
      ((c.roster.setProvider ({ · with joinRefusal := refusal })).markLocal false).renumber ∧
    (c.roster.act (.starts refusal)).2.Down
  stopped : c.roster.running = true → ∀ refusal, (c.roster.act (.stops refusal)).2.Down

/-- However often a service is started and stopped, and whatever the provider refuses: while it runs
its guests are told once of each event of the group, and otherwise of nothing. A start that fails
leaves it stopped. -/
theorem events_are_heard_once (h : g.Wired false m) (acts : List ServiceAct) : (run g acts).HeardOnce g := by
  have hrests := rests_run h acts
  obtain ⟨up, m', hwired⟩ := hrests.wired
  have hup := hwired.stands.running
  obtain ⟨hattached, hsubscription, hservice⟩ := hwired.attached
  refine ⟨?_, ?_, ?_, hrests.log, hrests.service, hrests.protocol, ?_, ?_, ?_, ?_, ?_, ?_⟩
  · rw [hwired.provider.countP_eq, hattached, hup]
  · rw [hwired.discovery.countP_eq, hsubscription, hup]
  · rw [hwired.protocol.countP_eq, hservice, hup]
  · intro e
    rw [hwired.heard_service_postRound, hup, hrests.guests.service]
    cases up <;> rfl
  · exact fun e => Protocol.length_notices _ e
  · intro hdown e
    rw [hup] at hdown
    subst hdown
    refine ⟨?_, hwired.postRound_down e⟩
    rw [hwired.post_eq]
    rfl
  · exact fun refusal => (hwired.act_starts refusal).1
  · exact fun refusal => (hwired.act_starts refusal).2
  · intro hrunning refusal
    rw [hup] at hrunning
    subst hrunning
    exact (hwired.setProvider rfl).stops.1.down ⟨rfl, rfl⟩

/-- Two guests. The provider refuses to be joined, then to be left, and a node goes unheard. -/
theorem events_are_heard_once_restarted :
    let node : String → Node := fun id => ⟨⟨id⟩, ⟨"10.0.0.1", 1⟩⟩
    let m := Member.bare ⟨"a"⟩ ⟨"10.0.0.1", 1⟩
    let g : Roster String :=
      { Roster.ofLocal m (.ofNodes [node "b"]) with listeners := ⟨[(1, "x"), (2, "y")], 3⟩ }
    let c := run g [.starts (some "down"), .starts none, .tells [] ⟨.joined, node "c"⟩, .stops (some "down"),
      .tells [] ⟨.left, node "c"⟩, .starts none, .tells [] ⟨.joined, node "d"⟩]
    g.Wired false m ∧ c.HeardOnce g ∧ c.roster.running = true ∧
      c.news.map (fun n => (n.change, n.member.id)) =
        [(.added, ⟨"a"⟩), (.added, ⟨"c"⟩), (.added, ⟨"a"⟩), (.added, ⟨"d"⟩)] ∧
      c.roster.log.reverse.map (·.listener) = ["x", "y", "x", "y", "x", "y", "x", "y"] := by
  intro node m g c
  have h := Roster.wired_ofLocal (L := String) m (.ofNodes [node "b"]) (Listeners.seats_empty _)
  have hg : g.Wired false m := ⟨⟨rfl, rfl, rfl, h.stands.apart⟩, rfl, fun _ => rfl, h.provider, h.discovery,
    h.protocol, h.attached⟩
  exact ⟨hg, events_are_heard_once hg _, by decide +kernel, by decide +kernel, by decide +kernel⟩

end Ledger

end ClusterNet.Membership
