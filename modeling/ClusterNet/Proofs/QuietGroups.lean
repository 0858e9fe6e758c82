import ClusterNet.Proofs.GroupSteps

/-!
# Groups at rest

When nobody joins or leaves and no event is on its way, a protocol that has joined should have
the nodes of discovery as members, and one that has not joined should have none. This holds as
long as the nodes do not change while a protocol joins, no node changes again before the protocol has
heard of it, and nobody leaves while an event is still on its way to the protocol.
-/

namespace ClusterNet.Membership

variable {L : Type}

/-- The nodes are as the event has left them. -/
def DiscoveryEvent.Settled (e : DiscoveryEvent) (ids : List MemberId) : Prop :=
  e.present?.isSome ↔ e.node.id.retag ∈ ids

def Provider.ids (p : Provider L) : List MemberId := p.nodes.map fun n => n.id.retag

theorem retag_inj {i j : NodeId} : (i.retag : MemberId) = j.retag ↔ i = j := by
  constructor
  · intro h
    exact congrArg (fun k : MemberId => (k.retag : NodeId)) h
  · intro h
    rw [h]

theorem Provider.mem_ids_after (p : Provider L) (e : DiscoveryEvent) (id : MemberId) :
    id ∈ (p.after e).ids ↔
      if id = e.node.id.retag then e.present?.isSome = true else id ∈ p.ids := by
  obtain ⟨presence, n⟩ := e
  cases presence with
  | joined => by_cases h : id = n.id.retag <;> simp [after, ids, DiscoveryEvent.present?, h]
  | left =>
    by_cases h : id = n.id.retag
    · subst h
      simp [after, ids, DiscoveryEvent.present?, retag_inj]
    · rw [if_neg h]
      simp only [after, ids, List.mem_map, List.mem_filter, bne_iff_ne]
      refine exists_congr fun n' => and_congr_left fun hn' => and_iff_left ?_
      rw [Ne, ← retag_inj, hn']
      exact h

/-- The protocol will hear of the event yet, if it listens. -/
def Post.Owes (d : Post L) : Prop := .protocol ∈ d.inner ∨ .service ∈ d.outer

namespace Scene

variable {s : Scene L} {m : Member} {among : MemberId → Prop}

/-- The nodes change only while nobody joins, and one by one: not while the protocol is still to hear
of an earlier change of the same node. Discovery hears of it if the protocol has joined. Nobody joins
while it leaves, and nobody leaves while it joins or while an event is on its way to the protocol. -/
def Orderly (s : Scene L) : SceneAct → Prop
  | .changes e => (∀ d ∈ s.posts, d.Owes → d.event.node.id ≠ e.node.id) ∧ s.joining = .no ∧
      (s.roster.protocol.joined = true →
        .service ∈ s.roster.discovery.provider.listeners.snapshot)
  | .joins => s.leaving = false
  | .leaves => s.joining = .no ∧ ∀ d ∈ s.posts, .protocol ∉ d.inner
  | _ => True

def AllOrderly : Scene L → List SceneAct → Prop
  | _, [] => True
  | s, a :: acts => s.Orderly a ∧ AllOrderly (s.act a) acts

/-! ## Phases -/

/-- No event comes to the protocol, now or later. -/
def Deaf (s : Scene L) : Prop :=
  .protocol ∉ s.roster.discovery.listeners.snapshot ∧ ∀ d ∈ s.posts, .protocol ∉ d.inner

/-- The protocol listens to discovery under its own id and no other. -/
def Hears (s : Scene L) : Prop :=
  ∃ i, s.roster.protocol.subscription = some i ∧
    (i, .protocol) ∈ s.roster.discovery.listeners.entries ∧
      ∀ j, (j, .protocol) ∈ s.roster.discovery.listeners.entries → j = i

/-- The members are the nodes of discovery, for these ids at least. -/
def Agrees (s : Scene L) (m : Member) (among : MemberId → Prop) : Prop :=
  ∃ history, s.roster.protocol.Mirrors m history ∧
    ∀ id, among id → ((reported? history id).isSome ↔ id ∈ s.roster.discovery.provider.ids)

/-- The protocol is not still to hear of that node. -/
def Heard (posts : List (Post L)) (id : MemberId) : Prop :=
  ∀ d ∈ posts, d.Owes → id ≠ d.event.node.id.retag

/-- Where the protocol stands between joining and leaving. -/
inductive Phase (s : Scene L) (m : Member) : Prop where
  | apart (joined : s.roster.protocol.joined = false) (joining : s.joining = .no) (deaf : s.Deaf)
      (empty : s.leaving = false → s.roster.protocol.members = .empty)
  | knowing (joined : s.roster.protocol.joined = true) (leaving : s.leaving = false)
      (joining : s.joining = .knows s.roster.discovery.provider.nodes) (deaf : s.Deaf)
      (empty : s.roster.protocol.members = .empty)
  | entering (joined : s.roster.protocol.joined = true) (leaving : s.leaving = false)
      (joining : s.joining = .enrolled ∨ s.joining = .introduced) (deaf : s.Deaf)
      (agrees : s.Agrees m fun _ => True)
  | following (joined : s.roster.protocol.joined = true) (leaving : s.leaving = false)
      (joining : s.joining = .no) (hears : s.Hears) (agrees : s.Agrees m (Heard s.posts))

structure Sound (s : Scene L) (m : Member) : Prop where
  keyed : s.roster.protocol.Keyed m
  settled : ∀ d ∈ s.posts, d.Owes → d.event.Settled s.roster.discovery.provider.ids
  phase : s.Phase m

/-! ## Events on their way -/

/-- Some posts take the place of others, and owe what those owed. -/
structure Instead (s : Scene L) (posts : List (Post L)) : Prop where
  deaf : s.Deaf → ∀ d ∈ posts, .protocol ∉ d.inner
  owed : ∀ d ∈ posts, d.Owes → ∃ d₀ ∈ s.posts, d₀.Owes ∧ d₀.event = d.event
  owes : s.Hears → ∀ d₀ ∈ s.posts, d₀.Owes → ∃ d ∈ posts, d.Owes ∧ d.event = d₀.event

theorem Instead.same (s : Scene L) : s.Instead s.posts where
  deaf hdeaf := hdeaf.2
  owed d hd howes := ⟨d, hd, howes, rfl⟩
  owes _ d hd howes := ⟨d, hd, howes, rfl⟩

variable {d : Post L} {rest posts : List (Post L)}

/-- A post among others is replaced by one that owes what it owed, or by none if it owed nothing. -/
theorem Instead.of_one (hbefore : ∀ x, x ∈ s.posts ↔ x = d ∨ x ∈ rest) {d' : Option (Post L)}
    (hafter : ∀ x, x ∈ posts ↔ x ∈ d' ∨ x ∈ rest) (hdeaf : ∀ x ∈ d', s.Deaf → .protocol ∉ x.inner)
    (howed : ∀ x ∈ d', x.event = d.event ∧ (x.Owes → d.Owes))
    (howes : s.Hears → d.Owes → ∃ x ∈ d', x.Owes) : s.Instead posts where
  deaf hd x hx := by
    rcases (hafter x).mp hx with hnew | hrest
    · exact hdeaf x hnew hd
    · exact hd.2 x ((hbefore x).mpr (.inr hrest))
  owed x hx howes := by
    rcases (hafter x).mp hx with hnew | hrest
    · exact ⟨d, (hbefore d).mpr (.inl rfl), (howed x hnew).2 howes, (howed x hnew).1.symm⟩
    · exact ⟨x, (hbefore x).mpr (.inr hrest), howes, rfl⟩
  owes hhears x hx hxowes := by
    rcases (hbefore x).mp hx with rfl | hrest
    · obtain ⟨y, hy, hyowes⟩ := howes hhears hxowes
      exact ⟨y, (hafter y).mpr (.inl hy), hyowes, (howed y hy).1⟩
    · exact ⟨x, (hafter x).mpr (.inr hrest), hxowes, rfl⟩

theorem Agrees.mono {among' : MemberId → Prop} (h : s.Agrees m among) (hle : ∀ id, among' id → among id) :
    s.Agrees m among' := by
  obtain ⟨history, hmirrors, hids⟩ := h
  exact ⟨history, hmirrors, fun id hid => hids id (hle id hid)⟩

theorem Sound.pass (h : s.Sound m) (hposts : s.Instead posts) {g : Roster L}
    (hprotocol : g.protocol = s.roster.protocol)
    (hlisteners : g.discovery.listeners = s.roster.discovery.listeners)
    (hnodes : g.discovery.provider.nodes = s.roster.discovery.provider.nodes) :
    ({ s with roster := g, posts } : Scene L).Sound m := by
  have hagrees : ∀ {among}, s.Agrees m among → ({ s with roster := g, posts } : Scene L).Agrees m among := by
    rintro among ⟨history, hmirrors, hids⟩
    refine ⟨history, hprotocol ▸ hmirrors, ?_⟩
    rwa [Provider.ids, hnodes]
  have hdeaf : s.Deaf → ({ s with roster := g, posts } : Scene L).Deaf := fun hd =>
    ⟨hlisteners ▸ hd.1, hposts.deaf hd⟩
  refine ⟨hprotocol ▸ h.keyed, fun d hd howes => ?_, ?_⟩
  · obtain ⟨d₀, hd₀, howes₀, hevent⟩ := hposts.owed d hd howes
    have hsettled := h.settled d₀ hd₀ howes₀
    rwa [hevent, Provider.ids, ← hnodes] at hsettled
  cases h.phase with
  | apart joined joining deaf empty =>
    exact .apart (hprotocol ▸ joined) joining (hdeaf deaf) (hprotocol ▸ empty)
  | knowing joined leaving joining deaf empty =>
    exact .knowing (hprotocol ▸ joined) leaving (hnodes ▸ joining) (hdeaf deaf) (hprotocol ▸ empty)
  | entering joined leaving joining deaf agrees =>
    exact .entering (hprotocol ▸ joined) leaving joining (hdeaf deaf) (hagrees agrees)
  | following joined leaving joining hears agrees =>
    refine .following (hprotocol ▸ joined) leaving joining ?_ (hagrees (agrees.mono fun id hid d₀ hd₀ howes => ?_))
    · obtain ⟨i, hi, hin, honly⟩ := hears
      exact ⟨i, hprotocol ▸ hi, hlisteners ▸ hin, hlisteners ▸ honly⟩
    · obtain ⟨d, hd, howes', hevent⟩ := hposts.owes hears d₀ hd₀ howes
      exact hevent ▸ hid d hd howes'

theorem Agrees.hear {among' : MemberId → Prop} (h : s.Agrees m among) {e : DiscoveryEvent}
    (hamong : ∀ id, among' id → id ≠ e.node.id.retag → among id)
    (hsettled : e.Settled s.roster.discovery.provider.ids) (posts : List (Post L)) :
    ({ s with roster := s.roster.hear e, posts } : Scene L).Agrees m among' := by
  obtain ⟨history, hmirrors, hids⟩ := h
  rw [Roster.hear_eq]
  refine ⟨history ++ [e], hmirrors.follow e, fun id hid => ?_⟩
  rw [reported?_concat]
  split
  · rename_i heq
    subst heq
    exact hsettled
  · rename_i hne
    exact hids id (hamong id hid (Ne.symm hne))

theorem Hears.mem_snapshot (h : s.Hears) : .protocol ∈ s.roster.discovery.listeners.snapshot := by
  obtain ⟨i, -, hin, -⟩ := h
  exact List.mem_map.mpr ⟨_, hin, rfl⟩

/-- The protocol is told. It has joined then, for nobody else has it to be told. -/
theorem Sound.hear (h : s.Sound m) {e : DiscoveryEvent} {inner : List (DiscoveryListener L)}
    {outer : List (ProviderListener L)}
    (hbefore : ∀ x, x ∈ s.posts ↔ x = ⟨e, .protocol :: inner, outer⟩ ∨ x ∈ rest)
    (hafter : ∀ x, x ∈ posts ↔ x = ⟨e, inner, outer⟩ ∨ x ∈ rest) :
    ({ s with roster := s.roster.hear e, posts } : Scene L).Sound m := by
  have hin := (hbefore _).mpr (.inl rfl)
  have hsettled := h.settled _ hin (.inl List.mem_cons_self)
  have hnot : ¬ s.Deaf := fun hd => hd.2 _ hin List.mem_cons_self
  cases h.phase with
  | apart joined joining deaf empty => exact absurd deaf hnot
  | knowing joined leaving joining deaf empty => exact absurd deaf hnot
  | entering joined leaving joining deaf agrees => exact absurd deaf hnot
  | following joined leaving joining hears agrees =>
    have hagrees : ({ s with roster := s.roster.hear e, posts } : Scene L).Agrees m (Heard posts) := by
      refine agrees.hear (fun id hid hne d hd howes => ?_) hsettled _
      rcases (hbefore d).mp hd with rfl | hrest
      · exact hne
      · exact hid d ((hafter d).mpr (.inr hrest)) howes
    obtain ⟨history, hmirrors, hids⟩ := hagrees
    obtain ⟨hlisteners, hsubscription, hjoined⟩ := s.roster.protocol.frame_follow e
    refine ⟨hmirrors.keyed, fun d hd howes => ?_, .following ?_ leaving joining ?_ ⟨history, hmirrors, hids⟩⟩
    · rw [Roster.hear_eq]
      rcases (hafter d).mp hd with rfl | hrest
      · exact hsettled
      · exact h.settled d ((hbefore d).mpr (.inr hrest)) howes
    · rw [Roster.hear_eq]
      exact hjoined.trans joined
    · obtain ⟨i, hi, hin, honly⟩ := hears
      rw [Hears, Roster.hear_eq]
      exact ⟨i, hsubscription.trans hi, hin, honly⟩

theorem Sound.deliver (h : s.Sound m) (hbefore : ∀ x, x ∈ s.posts ↔ x = d ∨ x ∈ rest)
    (hafter : ∀ x, x ∈ posts ↔ x ∈ (s.roster.deliver d).2 ∨ x ∈ rest) :
    ({ s with roster := (s.roster.deliver d).1, posts } : Scene L).Sound m := by
  obtain ⟨e, inner, outer⟩ := d
  have hd := (hbefore _).mpr (.inl rfl)
  -- Whom the post reaches next decides: only a service or a protocol changes what is owed.
  cases inner with
  | cons l inner =>
    cases l with
    | guest l =>
      refine h.pass (.of_one hbefore hafter ?_ ?_ ?_) rfl rfl rfl
      · rintro _ ⟨⟩ hdeaf hin
        exact hdeaf.2 _ hd (List.mem_cons_of_mem _ hin)
      · rintro _ ⟨⟩
        exact ⟨rfl, .imp_left (List.mem_cons_of_mem _)⟩
      · intro _ howes
        exact ⟨_, rfl, howes.imp_left fun hin => (List.mem_cons.mp hin).resolve_left (by simp)⟩
    | protocol => exact h.hear hbefore fun x => (hafter x).trans (by simp [Roster.deliver, eq_comm])
  | nil =>
    cases outer with
    | cons l outer =>
      cases l with
      | guest l =>
        refine h.pass (.of_one hbefore hafter ?_ ?_ ?_) rfl rfl rfl
        · rintro _ ⟨⟩ -
          exact List.not_mem_nil
        · rintro _ ⟨⟩
          exact ⟨rfl, .imp_right (List.mem_cons_of_mem _)⟩
        · intro _ howes
          exact ⟨_, rfl, howes.imp_right fun hin => (List.mem_cons.mp hin).resolve_left (by simp)⟩
      | service =>
        refine h.pass (.of_one hbefore hafter ?_ ?_ ?_) rfl rfl rfl
        · rintro _ ⟨⟩ hdeaf
          exact hdeaf.1
        · rintro _ ⟨⟩
          exact ⟨rfl, fun _ => .inr List.mem_cons_self⟩
        · intro hhears _
          exact ⟨_, rfl, .inl hhears.mem_snapshot⟩
    | nil =>
      refine h.pass (.of_one hbefore hafter ?_ ?_ ?_) rfl rfl rfl
      · rintro _ ⟨⟩
      · rintro _ ⟨⟩
      · simp [Post.Owes]

theorem mem_of_getElem? {i : Nat} (h : s.posts[i]? = some d) (x : Post L) :
    x ∈ s.posts ↔ x = d ∨ x ∈ s.posts.take i ++ s.posts.drop (i + 1) := by
  obtain ⟨hi, rfl⟩ := List.getElem?_eq_some_iff.mp h
  conv_lhs => rw [← List.take_append_drop i s.posts, List.drop_eq_getElem_cons hi]
  simp only [List.mem_append, List.mem_cons]
  exact or_left_comm

theorem Sound.tells (h : s.Sound m) (i : Nat) : (s.act (.tells i)).Sound m := by
  rw [act]
  split
  · exact h
  · rename_i d hd
    refine h.deliver (mem_of_getElem? hd) fun x => ?_
    simp only [List.mem_append, Option.mem_toList]
    rw [or_assoc, or_left_comm]
    exact Iff.rfl

theorem Sound.changes (h : s.Sound m) {e : DiscoveryEvent} (ho : s.Orderly (.changes e)) :
    (s.act (.changes e)).Sound m := by
  obtain ⟨hothers, hjoining, hattached⟩ := ho
  have hids := s.roster.discovery.provider.mem_ids_after e
  have hkept : ∀ {id : MemberId}, id ≠ e.node.id.retag →
      (id ∈ s.roster.discovery.provider.ids ↔ id ∈ (s.roster.discovery.provider.after e).ids) := by
    intro id hne
    rw [hids, if_neg hne]
  refine ⟨h.keyed, fun d hd howes => ?_, ?_⟩
  · rcases List.mem_append.mp hd with hold | hnew
    · have hne := mt retag_inj.mp (hothers d hold howes)
      exact (h.settled d hold howes).trans (hkept hne)
    · rw [List.mem_singleton.mp hnew]
      exact ((hids _).trans (by rw [if_pos rfl])).symm
  cases h.phase with
  | apart joined joining deaf empty =>
    refine .apart joined joining ⟨deaf.1, fun d hd => ?_⟩ empty
    rcases List.mem_append.mp hd with hold | hnew
    · exact deaf.2 d hold
    · rw [List.mem_singleton.mp hnew]
      exact List.not_mem_nil
  | knowing joined leaving joining deaf empty => simp [hjoining] at joining
  | entering joined leaving joining deaf agrees => simp [hjoining] at joining
  | following joined leaving joining hears agrees =>
    obtain ⟨history, hmirrors, hall⟩ := agrees
    refine .following joined leaving joining hears ⟨history, hmirrors, fun id hid => ?_⟩
    have hne : id ≠ e.node.id.retag :=
      hid _ (List.mem_append_right _ (List.mem_singleton_self _)) (.inr (hattached joined))
    exact (hall id fun d hd => hid d (List.mem_append_left _ hd)).trans (hkept hne)

/-! ## Joining and leaving -/

theorem Sound.joins (h : s.Sound m) (ho : s.Orderly .joins) : (s.act .joins).Sound m := by
  rw [act]
  split
  · rename_i hfree
    refine ⟨h.keyed.of_eq rfl rfl rfl, h.settled, ?_⟩
    cases h.phase with
    | apart joined joining deaf empty => exact .knowing rfl ho rfl deaf (empty ho)
    | knowing joined leaving joining deaf empty => simp [hfree.2] at joined
    | entering joined leaving joining deaf agrees => simp [hfree.2] at joined
    | following joined leaving joining hears agrees => simp [hfree.2] at joined
  · exact h

theorem Sound.enrols (h : s.Sound m) : (s.act .enrols).Sound m := by
  rw [act]
  split
  · rename_i nodes hknows
    cases h.phase with
    | apart joined joining deaf empty => simp [hknows] at joining
    | entering joined leaving joining deaf agrees => simp [hknows] at joining
    | following joined leaving joining hears agrees => simp [hknows] at joining
    | knowing joined leaving joining deaf empty =>
      obtain rfl := Joining.knows.inj (hknows.symm.trans joining)
      have henrol := Protocol.mirrors_enrol h.keyed empty s.roster.discovery.provider.nodes
      refine ⟨henrol.keyed, h.settled, .entering ?_ leaving (.inl rfl) deaf ?_⟩
      · exact (Protocol.frame_enrol _ _).2.trans joined
      · exact ⟨_, henrol, fun id _ => isSome_reported?_arrivals _ id⟩
  · exact h

theorem Sound.introduces (h : s.Sound m) : (s.act .introduces).Sound m := by
  rw [act]
  split
  · rename_i henrolled
    rw [Roster.introduce, Roster.announce_eq]
    refine ⟨h.keyed, h.settled, ?_⟩
    cases h.phase with
    | apart joined joining deaf empty => simp [henrolled] at joining
    | knowing joined leaving joining deaf empty => simp [henrolled] at joining
    | following joined leaving joining hears agrees => simp [henrolled] at joining
    | entering joined leaving joining deaf agrees =>
      exact .entering joined leaving (.inr rfl) deaf agrees
  · exact h

theorem Sound.subscribes (h : s.Sound m) : (s.act .subscribes).Sound m := by
  rw [act]
  split
  · rename_i hintroduced
    refine ⟨h.keyed.of_eq rfl rfl rfl, h.settled, ?_⟩
    cases h.phase with
    | apart joined joining deaf empty => simp [hintroduced] at joining
    | knowing joined leaving joining deaf empty => simp [hintroduced] at joining
    | following joined leaving joining hears agrees => simp [hintroduced] at joining
    | entering joined leaving joining deaf agrees =>
      obtain ⟨history, hmirrors, hids⟩ := agrees
      refine .following joined leaving rfl ⟨_, rfl, ?_, fun j hj => ?_⟩
        ⟨history, hmirrors.of_eq rfl rfl rfl, fun id _ => hids id trivial⟩
      · exact List.mem_append_right _ (List.mem_singleton_self _)
      · rcases List.mem_append.mp hj with hold | hnew
        · exact absurd (List.mem_map.mpr ⟨_, hold, rfl⟩) deaf.1
        · exact congrArg Prod.fst (List.mem_singleton.mp hnew)
  · exact h

theorem Sound.leaves (h : s.Sound m) (ho : s.Orderly .leaves) : (s.act .leaves).Sound m := by
  rw [act]
  split
  · rename_i hfree
    refine ⟨h.keyed.of_eq rfl rfl rfl, h.settled, ?_⟩
    cases h.phase with
    | apart joined joining deaf empty => simp [hfree.2] at joined
    | knowing joined leaving joining deaf empty => simp [ho.1] at joining
    | entering joined leaving joining deaf agrees => simp [ho.1] at joining
    | following joined leaving joining hears agrees =>
      refine .apart rfl joining ⟨fun hin => ?_, ho.2⟩ (by simp)
      obtain ⟨i, hi, -, honly⟩ := hears
      obtain ⟨⟨j, l⟩, hj, rfl⟩ := List.mem_map.mp hin
      rw [Roster.unsubscribe, hi] at hj
      obtain ⟨hmem, hne⟩ := List.mem_filter.mp hj
      simp [honly j hmem] at hne
  · exact h

theorem Sound.disbands (h : s.Sound m) : (s.act .disbands).Sound m := by
  rw [act]
  split
  · rename_i hleaving
    have hkeyed : s.roster.disband.protocol.Keyed m :=
      ⟨h.keyed.fresh, fun hk => by simp [Protocol.member?, Roster.disband] at hk,
        Table.distinct_empty, h.keyed.own⟩
    refine ⟨hkeyed, h.settled, ?_⟩
    cases h.phase with
    | apart joined joining deaf empty => exact .apart joined joining deaf fun _ => rfl
    | knowing joined leaving joining deaf empty => simp [hleaving] at leaving
    | entering joined leaving joining deaf agrees => simp [hleaving] at leaving
    | following joined leaving joining hears agrees => simp [hleaving] at leaving
  · exact h

theorem Sound.act (h : s.Sound m) {a : SceneAct} (ho : s.Orderly a) : (s.act a).Sound m := by
  cases a with
  | changes e => exact h.changes ho
  | tells i => exact h.tells i
  | joins => exact h.joins ho
  | enrols => exact h.enrols
  | introduces => exact h.introduces
  | subscribes => exact h.subscribes
  | leaves => exact h.leaves ho
  | disbands => exact h.disbands
  | attaches =>
    rw [Scene.act]
    split
    · exact h
    · exact h.pass (.same s) rfl rfl rfl
  | detaches =>
    rw [Scene.act]
    split
    · exact h.pass (.same s) rfl rfl rfl
    · exact h

theorem Sound.run (h : s.Sound m) {acts : List SceneAct} (ho : s.AllOrderly acts) : (s.run acts).Sound m := by
  induction acts generalizing s with
  | nil => exact h
  | cons a acts ih => exact ih (h.act ho.1) ho.2

theorem sound_ofRoster {g : Roster L} (h : g.Idle m) (hdeaf : .protocol ∉ g.discovery.listeners.snapshot) :
    (ofRoster g).Sound m where
  keyed := h.keyed
  settled _ hd := absurd hd List.not_mem_nil
  phase := .apart h.apart rfl ⟨hdeaf, fun _ hd => absurd hd List.not_mem_nil⟩ fun _ => h.empty

/-! ## At rest -/

structure Quiet (s : Scene L) : Prop where
  joining : s.joining = .no
  leaving : s.leaving = false
  posts : s.posts = []

/-- The members are the local one and the nodes of discovery, or there are none. -/
def AtOne (s : Scene L) (m : Member) : Prop :=
  (s.roster.protocol.joined = true → ∀ id, (s.roster.protocol.member? id).isSome ↔
    id = m.id ∨ id ∈ s.roster.discovery.provider.ids) ∧
  (s.roster.protocol.joined = false → s.roster.protocol.members = .empty)

theorem Sound.atOne (h : s.Sound m) (hquiet : s.Quiet) : s.AtOne m := by
  cases h.phase with
  | apart joined joining deaf empty =>
    exact ⟨fun hjoined => by simp [joined] at hjoined, fun _ => empty hquiet.leaving⟩
  | knowing joined leaving joining deaf empty => simp [hquiet.joining] at joining
  | entering joined leaving joining deaf agrees => simp [hquiet.joining] at joining
  | following joined leaving joining hears agrees =>
    refine ⟨fun _ id => ?_, fun hjoined => by simp [joined] at hjoined⟩
    obtain ⟨history, hmirrors, hids⟩ := agrees
    rw [hmirrors.isSome_member?, hids id (by simp [Heard, hquiet.posts])]

/-- In every orderly run a protocol that rests agrees with discovery. -/
theorem quiet_groups_agree {g : Roster L} (h : g.Idle m)
    (hdeaf : .protocol ∉ g.discovery.listeners.snapshot) (acts : List SceneAct)
    (ho : (ofRoster g).AllOrderly acts) (hquiet : ((ofRoster g).run acts).Quiet) :
    ((ofRoster g).run acts).AtOne m :=
  ((sound_ofRoster h hdeaf).run ho).atOne hquiet

def alone : Roster String := .ofLocal (.bare ⟨"a"⟩ ⟨"10.0.0.1", 1⟩) (.ofNodes [])

def other : Node := ⟨⟨"b"⟩, ⟨"10.0.0.2", 2⟩⟩

def third : Node := ⟨⟨"c"⟩, ⟨"10.0.0.3", 3⟩⟩

/-- Two nodes come at once, and the protocol hears of the second first. Then it leaves and joins again. -/
def rejoining : List SceneAct := [.attaches, .joins, .enrols, .introduces, .subscribes,
  .changes ⟨.joined, other⟩, .changes ⟨.joined, third⟩, .tells 1, .tells 1, .tells 0, .tells 0,
  .leaves, .tells 0, .tells 0, .disbands, .joins, .enrols, .introduces, .subscribes]

theorem quiet_groups_agree_rejoining : ((ofRoster alone).run rejoining).Quiet ∧
    (((ofRoster alone).run rejoining).roster.protocol.member? ⟨"b"⟩).isSome := by
  have hquiet : ((ofRoster alone).run rejoining).Quiet := ⟨by decide +kernel, by decide +kernel, rfl⟩
  have ho : (ofRoster alone).AllOrderly rejoining := by
    refine ⟨trivial, rfl, trivial, trivial, trivial,
      ⟨fun d hd => absurd hd List.not_mem_nil, rfl, fun _ => List.mem_singleton_self _⟩,
      ⟨fun d hd _ => ?_, rfl, fun _ => List.mem_singleton_self _⟩, trivial, trivial, trivial, trivial,
      ⟨rfl, fun d hd => ?_⟩, trivial, trivial, trivial, rfl, trivial, trivial, trivial, trivial⟩
    · rw [List.mem_singleton.mp hd]
      decide
    · rcases List.mem_pair.mp hd with rfl | rfl <;> exact List.not_mem_nil
  have hatOne := quiet_groups_agree (Roster.idle_ofLocal _ _) List.not_mem_nil rejoining ho hquiet
  exact ⟨hquiet, (hatOne.1 (by decide +kernel) ⟨"b"⟩).mpr (.inr (by decide +kernel))⟩

/-! ## What goes wrong otherwise -/

/-- A node comes between the moment when the protocol takes in the nodes and the moment when it
starts to listen. So it never becomes a member. -/
theorem a_change_while_joining_is_lost :
    let s := (ofRoster alone).run [.attaches, .joins, .enrols, .introduces,
      .changes ⟨.joined, other⟩, .tells 0, .tells 0, .subscribes]
    s.Quiet ∧ s.roster.protocol.joined = true ∧ s.roster.protocol.member? ⟨"b"⟩ = none ∧
      ⟨"b"⟩ ∈ s.roster.discovery.provider.ids :=
  ⟨⟨by decide +kernel, by decide +kernel, rfl⟩, by decide +kernel, by decide +kernel, by decide +kernel⟩

/-- The protocol leaves while an event is on its way to it, and has a member again. -/
theorem an_event_outlives_leaving :
    let s := (ofRoster alone).run [.attaches, .joins, .enrols, .introduces, .subscribes,
      .changes ⟨.joined, other⟩, .tells 0, .leaves, .disbands, .tells 0, .tells 0]
    s.Quiet ∧ s.roster.protocol.joined = false ∧ (s.roster.protocol.member? ⟨"b"⟩).isSome :=
  ⟨⟨by decide +kernel, by decide +kernel, rfl⟩, by decide +kernel, by decide +kernel⟩

/-- A node comes and goes, and the protocol hears of it the other way round. -/
theorem changes_of_a_node_overtake :
    let s := (ofRoster alone).run [.attaches, .joins, .enrols, .introduces, .subscribes,
      .changes ⟨.joined, other⟩, .changes ⟨.left, other⟩, .tells 1, .tells 1, .tells 1, .tells 0, .tells 0, .tells 0]
    s.Quiet ∧ s.roster.protocol.joined = true ∧ (s.roster.protocol.member? ⟨"b"⟩).isSome ∧
      ⟨"b"⟩ ∉ s.roster.discovery.provider.ids :=
  ⟨⟨by decide +kernel, by decide +kernel, rfl⟩, by decide +kernel, by decide +kernel, by decide +kernel⟩

/-- The protocol joins before discovery listens to its provider, and a node comes in between. -/
theorem a_change_before_attaching_is_lost :
    let s := (ofRoster alone).run [.joins, .enrols, .introduces, .subscribes,
      .changes ⟨.joined, other⟩, .tells 0, .attaches]
    s.Quiet ∧ s.roster.protocol.joined = true ∧ s.roster.protocol.member? ⟨"b"⟩ = none ∧
      ⟨"b"⟩ ∈ s.roster.discovery.provider.ids :=
  ⟨⟨by decide +kernel, by decide +kernel, rfl⟩, by decide +kernel, by decide +kernel, by decide +kernel⟩

end Scene

end ClusterNet.Membership
