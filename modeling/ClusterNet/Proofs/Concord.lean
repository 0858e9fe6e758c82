import ClusterNet.Proofs.Announcements
import ClusterNet.Proofs.Bookkeeping
import ClusterNet.Proofs.Network

/-!
# Nodes that know of each other

When every node of a network has heard the last of every other one, all of them count the same nodes
as subscribers of a topic, and each of these is found at its own address.
-/

namespace ClusterNet.PubSub

open Messaging

namespace Host

variable {T : Set String} {h h' : Host}

/-- A host has become what it is by its own acts, and only some topics ever came into use on it. -/
inductive Grown (T : Set String) (h : Host) : Prop where
  | mk (h₀ : Host) (acts : List HostAct) (untouched : h₀.Untouched T) (discreet : h₀.Discreet)
      (within : ∀ a ∈ acts, HostAct.Within T a) (run : h = h₀.run acts) : Grown T h

theorem host_run (h : Host) (acts : List HostAct) : (Journal.run h acts).host = h.run acts := by
  induction acts using List.reverseRecOn with
  | nil => rfl
  | append_singleton acts a ih => rw [Journal.run_concat, run_concat, Journal.act, ih]

theorem discreet_run (hT : Clean T) (h0 : h.Untouched T) (hd : h.Discreet) {acts : List HostAct}
    (hacts : ∀ a ∈ acts, a.Within T) : (h.run acts).Discreet := by
  have hann {topic : String} (htopic : topic ∈ T) : ¬ IsSubjectOf announcementSubject topic :=
    not_isSubjectOf_announcement (hT.ne_announcementSubject htopic (.inl rfl))
  induction acts using List.reverseRecOn with
  | nil => exact hd
  | append_singleton acts a ih =>
    have hbefore : ∀ b ∈ acts, b.Within T := fun b hb => hacts b (List.mem_append_left _ hb)
    have ha : a.Within T := hacts a (List.mem_append_right _ List.mem_cons_self)
    have hrun := ih hbefore
    have hk := Journal.Kept.run hT h0 hbefore
    have hocc := hk.occupied
    have hrouted := hk.routed
    rw [host_run] at hocc hrouted
    rw [run_concat]
    cases moves_act hocc a with
    | opens topic s opened => exact discreet_of_get? hrun (opened.get?_routes (hann ha))
    | shuts x found shut =>
      exact discreet_of_get? hrun (shut.get?_routes (hann (hrouted.within x.topic shut.was_open)))
    | misses x found frame other => exact frame.discreet hrun
    | passes a quiet frame => exact frame.discreet hrun

theorem Grown.kept (h : Grown T h') (hT : Clean T) :
    h'.current.topics.Occupied ∧ Routed T h' ∧ h'.Discreet := by
  cases h with
  | mk h₀ acts untouched discreet within run =>
    subst run
    have hk := Journal.Kept.run hT untouched within
    have hocc := hk.occupied
    have hrouted := hk.routed
    rw [host_run] at hocc hrouted
    exact ⟨hocc, hrouted, discreet_run hT untouched discreet within⟩

end Host

namespace Service

/-- The topics that another member serves, as far as is known. -/
def known (s : Service) (id : MemberId) : TextSet := ((s.records.get? id).map (·.topics)).getD .empty

theorem contains_known {s : Service} {id : MemberId} {topic : String} :
    (s.known id).contains topic = true ↔ ∃ r, s.records.get? id = some r ∧ r.topics.contains topic = true := by
  unfold known
  cases s.records.get? id with
  | none => simp [TextSet.contains, TextSet.empty]
  | some r => simp

theorem nodup_subscribers (s : Service) (v : View) (topic : String) : (s.subscribers v topic).Nodup := by
  have hinj : Function.Injective fun text => (⟨text⟩ : MemberId) := fun a b heq => congrArg Identifier.text heq
  refine List.Nodup.map hinj ((TextSet.ofList _).increasing.imp ?_)
  rintro a b hlt rfl
  exact String.lt_irrefl a hlt

end Service

end ClusterNet.PubSub

namespace ClusterNet.Bench.Network

open Messaging PubSub

variable {T : Set String} {n : Network Host} {name other : String} {s s' : Site Host} {topic : String}
  {a : Address}

/-- Every node lists every other one as active, at the address where it is, and has heard which topics
it serves. Only some topics ever came into use, and what is sent of its own accord are announcements. -/
structure Concord (T : Set String) (n : Network Host) : Prop where
  laid : n.Laid
  letters : ∀ l ∈ n.outbox, l.2.subject = announcementSubject
  calls : ∀ name s j job k, n.sites.get? name = some s → s.link.jobs.get? j = some job →
    job.sink = .call k → k < n.nextCall
  grown : ∀ name s, n.sites.get? name = some s → s.resident.Grown T
  named : ∀ name s other s', n.sites.get? name = some s → n.sites.get? other = some s' →
    s'.resident.view.localId = s.resident.view.localId → other = name
  listed : ∀ name s other s', n.sites.get? name = some s → n.sites.get? other = some s' → other ≠ name →
    ∃ m, s.resident.view.member? s'.resident.view.localId = some m ∧ m.active = true ∧
      m.address = s'.resident.address
  known : ∀ name s other s', n.sites.get? name = some s → n.sites.get? other = some s' → other ≠ name →
    s.resident.current.known s'.resident.view.localId = s'.resident.current.topics.names
  strangers : ∀ name s id r, n.sites.get? name = some s → s.resident.current.records.get? id = some r →
    s.resident.view.isActive id = true →
    ∃ other s', other ≠ name ∧ n.sites.get? other = some s' ∧ s'.resident.view.localId = id
  distinct : ∀ name s, n.sites.get? name = some s → s.resident.current.records.Distinct

/-- A node with a subscription to a topic. -/
structure Serves (n : Network Host) (topic : String) (name : String) (s : Site Host) : Prop where
  site : n.sites.get? name = some s
  open_ : s.resident.current.topics.all topic ≠ []

theorem Concord.contains_iff (hn : n.Concord T) (hT : Clean T) (hs : n.sites.get? name = some s) :
    s.resident.current.topics.contains topic = true ↔ s.resident.current.topics.all topic ≠ [] :=
  ((hn.grown name s hs).kept hT).1.contains_iff

theorem Concord.routes (hn : n.Concord T) (hT : Clean T) (h : n.Serves topic name s) :
    s.resident.routes.Serve s.resident.current.key topic :=
  ((hn.grown name s h.site).kept hT).2.1.served topic h.open_

/-- All nodes agree on who the subscribers are. -/
theorem Concord.mem_subscribers (hn : n.Concord T) (hT : Clean T) (hs : n.sites.get? name = some s)
    {m : MemberId} :
    m ∈ s.resident.current.subscribers s.resident.view topic ↔
      ∃ other s', n.Serves topic other s' ∧ s'.resident.view.localId = m := by
  rw [Service.mem_subscribers (hn.distinct name s hs)]
  constructor
  · rintro (⟨hin, rfl⟩ | ⟨r, hr, htopic, hactive⟩)
    · exact ⟨name, s, ⟨hs, (hn.contains_iff hT hs).mp hin⟩, rfl⟩
    · obtain ⟨other, s', hne, hs', rfl⟩ := hn.strangers name s m r hs hr hactive
      refine ⟨other, s', ⟨hs', ?_⟩, rfl⟩
      rw [← hn.contains_iff hT hs', ← Topics.mem_names, ← hn.known name s other s' hs hs' hne,
        ← TextSet.contains_iff]
      exact Service.contains_known.mpr ⟨r, hr, htopic⟩
  · rintro ⟨other, s', ⟨hs', hopen⟩, rfl⟩
    by_cases heq : other = name
    · subst heq
      obtain rfl := Option.some.inj (hs.symm.trans hs')
      exact .inl ⟨(hn.contains_iff hT hs).mpr hopen, rfl⟩
    · obtain ⟨m, hm, hactive, -⟩ := hn.listed name s other s' hs hs' heq
      have hknown : (s.resident.current.known s'.resident.view.localId).contains topic = true := by
        rw [hn.known name s other s' hs hs' heq, TextSet.contains_iff, Topics.mem_names]
        exact (hn.contains_iff hT hs').mpr hopen
      obtain ⟨r, hr, htopic⟩ := Service.contains_known.mp hknown
      refine .inr ⟨r, hr, htopic, ?_⟩
      rw [View.isActive, hm, Option.map_some, Option.getD_some, hactive]

theorem Concord.address? (hn : n.Concord T) (hs : n.sites.get? name = some s)
    (hs' : n.sites.get? other = some s') :
    s.resident.view.address? s'.resident.view.localId = some s'.resident.address := by
  unfold View.address?
  by_cases heq : other = name
  · subst heq
    obtain rfl := Option.some.inj (hs.symm.trans hs')
    exact if_pos rfl
  · obtain ⟨m, hm, -, haddress⟩ := hn.listed name s other s' hs hs' heq
    rw [if_neg fun hid => heq (hn.named name s other s' hs hs' hid), hm, Option.map_some, haddress]

/-- The addresses that a node sends to when it tells everyone. -/
def goals (h : Host) (topic : String) : List Address :=
  (h.current.subscribers h.view topic).filterMap h.view.address?

theorem Concord.mem_goals (hn : n.Concord T) (hT : Clean T) (hs : n.sites.get? name = some s) :
    a ∈ goals s.resident topic ↔ ∃ other s', n.Serves topic other s' ∧ s'.resident.address = a := by
  unfold goals
  rw [List.mem_filterMap]
  constructor
  · rintro ⟨m, hm, ha⟩
    obtain ⟨other, s', hserves, rfl⟩ := (hn.mem_subscribers hT hs).mp hm
    rw [hn.address? hs hserves.site] at ha
    exact ⟨other, s', hserves, Option.some.inj ha⟩
  · rintro ⟨other, s', hserves, rfl⟩
    exact ⟨_, (hn.mem_subscribers hT hs).mpr ⟨other, s', hserves, rfl⟩, hn.address? hs hserves.site⟩

theorem Concord.nodup_goals (hn : n.Concord T) (hT : Clean T) (hs : n.sites.get? name = some s) (topic : String) :
    (goals s.resident topic).Nodup := by
  unfold goals
  rw [List.Nodup, List.pairwise_filterMap]
  refine (Service.nodup_subscribers _ _ topic).imp_of_mem ?_
  rintro m m' hm hm' hne a ha a' ha' rfl
  obtain ⟨other, s', hserves, rfl⟩ := (hn.mem_subscribers hT hs).mp hm
  obtain ⟨other', s'', hserves', rfl⟩ := (hn.mem_subscribers hT hs).mp hm'
  rw [hn.address? hs hserves.site] at ha
  rw [hn.address? hs hserves'.site] at ha'
  -- Subscribers at one address are at one site, and so they are the same.
  obtain rfl := hn.laid.apart other s' other' s'' hserves.site hserves'.site
    (Option.some.inj (ha.trans ha'.symm))
  obtain rfl := Option.some.inj (hserves.site.symm.trans hserves'.site)
  exact hne rfl

/-- No node has a subscription to a topic. -/
def Nobody (n : Network Host) (topic : String) : Prop :=
  ∀ name s, n.sites.get? name = some s → s.resident.current.topics.all topic = []

theorem exists_serves (h : ¬ Nobody n topic) : ∃ name s, n.Serves topic name s := by
  by_contra hnot
  apply h
  intro name s hs
  by_contra hopen
  exact hnot ⟨name, s, hs, hopen⟩

theorem Concord.goals_eq_nil (hn : n.Concord T) (hT : Clean T) (hs : n.sites.get? name = some s) :
    goals s.resident topic = [] ↔ Nobody n topic := by
  rw [List.eq_nil_iff_forall_not_mem]
  constructor
  · intro hnone other s' hs'
    by_contra hopen
    exact hnone _ ((hn.mem_goals hT hs).mpr ⟨other, s', ⟨hs', hopen⟩, rfl⟩)
  · intro hnobody a ha
    obtain ⟨other, s', hserves, -⟩ := (hn.mem_goals hT hs).mp ha
    exact hserves.open_ (hnobody other s' hserves.site)

theorem Concord.exists_next (hn : n.Concord T) (hT : Clean T) (hs : n.sites.get? name = some s)
    (hsome : ¬ Nobody n topic) :
    ∃ other s', n.Serves topic other s' ∧
      (s.resident.current.nextSubscriber s.resident.view topic).1 = some s'.resident.address := by
  obtain ⟨goal, site, hserves⟩ := exists_serves hsome
  have hne : s.resident.current.subscribers s.resident.view topic ≠ [] :=
    List.ne_nil_of_mem ((hn.mem_subscribers hT hs).mpr ⟨goal, site, hserves, rfl⟩)
  obtain ⟨m, hm, hpick⟩ :=
    ((s.resident.current.balancers.get? topic).getD .start).exists_pick hne
  obtain ⟨other, s', hserves', rfl⟩ := (hn.mem_subscribers hT hs).mp hm
  refine ⟨other, s', hserves', ?_⟩
  unfold Service.nextSubscriber
  dsimp only
  rw [hpick, Option.bind_some]
  exact hn.address? hs hserves'.site

theorem Concord.next_nobody (hn : n.Concord T) (hT : Clean T) (hs : n.sites.get? name = some s)
    (hnobody : Nobody n topic) :
    (s.resident.current.nextSubscriber s.resident.view topic).1 = none := by
  have hnil : s.resident.current.subscribers s.resident.view topic = [] := by
    rw [List.eq_nil_iff_forall_not_mem]
    intro m hm
    obtain ⟨other, s', hserves, -⟩ := (hn.mem_subscribers hT hs).mp hm
    exact hserves.open_ (hnobody other s' hserves.site)
  unfold Service.nextSubscriber
  rw [hnil]
  dsimp only
  rw [Balancer.pick_nil]
  rfl

end ClusterNet.Bench.Network
