import ClusterNet.Bench.PubSub
import ClusterNet.Proofs.HostActs

/-!
# What a message does to a network

A message is at its goal at once or fails, and all it changes are the resident at the goal and the
link that it took.
-/

namespace ClusterNet.Table

variable {K V : Type} [DecidableEq K]

theorem find?_entries {t : Table K V} (ht : t.Distinct) {k : K} {v : V} {p : K × V → Bool}
    (hget : t.get? k = some v) (hp : p (k, v) = true)
    (hone : ∀ k' v', t.get? k' = some v' → p (k', v') = true → k' = k) :
    t.entries.find? p = some (k, v) := by
  have hmem := mem_of_lookup hget
  cases hfind : t.entries.find? p with
  | none =>
    have hnot := List.find?_eq_none.mp hfind (k, v) hmem
    exact absurd hp hnot
  | some e =>
    obtain ⟨k', v'⟩ := e
    have hget' : t.get? k' = some v' := lookup_of_mem ht (List.mem_of_find?_eq_some hfind)
    obtain rfl := hone k' v' hget' (List.find?_some hfind)
    rw [hget] at hget'
    obtain rfl := Option.some.inj hget'
    rfl

end ClusterNet.Table

namespace ClusterNet.Bench.Network

open Messaging PubSub

/-! ## Reaching -/

/-- Each site has one name and one address, and its link is open. -/
structure Laid (n : Network Host) : Prop where
  names : n.sites.Distinct
  apart : ∀ name s name' s', n.sites.get? name = some s → n.sites.get? name' = some s' →
    s.resident.address = s'.resident.address → name = name'
  unlocked : ∀ name s, n.sites.get? name = some s → s.link.closed = false

variable {n n' : Network Host} {name goal : String} {s site : Site Host} {a : Address} {p : Outgoing}
  {now : Nat}

theorem Laid.reach?_eq (hn : n.Laid) (hgoal : n.sites.get? goal = some site)
    (haddress : site.resident.address = a) (hup : a ∉ n.down) : n.reach? a = some (goal, site) := by
  have hdown : n.down.contains a = false := by
    rw [Bool.eq_false_iff]
    intro hin
    exact hup (List.contains_iff_mem.mp hin)
  rw [reach?, hdown]
  apply Table.find?_entries hn.names hgoal
  · exact beq_iff_eq.mpr haddress
  · intro name s hs heq
    exact hn.apart name s goal site hs hgoal ((beq_iff_eq.mp heq).trans haddress.symm)

theorem reach?_down (hdown : a ∈ n.down) : n.reach? a = none := by
  rw [reach?, if_pos (List.contains_iff_mem.mpr hdown)]

/-- The request that a message arrives as. -/
def requestOf (source : Address) (p : Outgoing) : Wire.Request := ⟨0, source, p.subject, p.payload⟩

/-- What a message on its way adds to the traffic. -/
def noted (n : Network Host) (s : Site Host) (p : Outgoing) : Network Host :=
  { n with traffic := ⟨s.resident.address, p⟩ :: n.traffic }

theorem depart_offline (hs : n.sites.get? name = some s) (hoff : s.online = false) :
    n.depart name 0 p = (.error .notRunning, n) := by
  rw [depart, hs]
  simp [hoff]

theorem depart_down (hs : n.sites.get? name = some s) (hon : s.online = true) (hdown : p.goal ∈ n.down) :
    n.depart name 0 p = (.error (.connect p.goal .unreachable), n.noted s p) := by
  have hreach : (n.noted s p).reach? p.goal = none := reach?_down hdown
  rw [depart, hs]
  simp only [hon, Bool.not_true, Bool.false_eq_true, if_false]
  split
  · rfl
  · rename_i goal site hsome
    cases hsome.symm.trans hreach

theorem Laid.depart_up (hn : n.Laid) (hs : n.sites.get? name = some s) (hon : s.online = true)
    (hgoal : n.sites.get? goal = some site) (haddress : site.resident.address = p.goal)
    (hup : p.goal ∉ n.down) :
    n.depart name 0 p = (.ok (requestOf s.resident.address p, goal, site), n.noted s p) := by
  have hreach : (n.noted s p).reach? p.goal = some (goal, site) := hn.reach?_eq hgoal haddress hup
  rw [depart, hs]
  simp only [hon, Bool.not_true, Bool.false_eq_true, if_false]
  split
  · rename_i hnone
    cases hnone.symm.trans hreach
  · rename_i goal' site' hsome
    cases hsome.symm.trans hreach
    rfl

theorem depart_online (hn : n.sites.Distinct) (hs : n.sites.get? name = some s) (hon : s.online = true)
    (p : Outgoing) :
    (∃ f, n.depart name 0 p = (.error f, n.noted s p)) ∨
    ∃ goal site, n.sites.get? goal = some site ∧
      n.depart name 0 p = (.ok (requestOf s.resident.address p, goal, site), n.noted s p) := by
  unfold depart
  rw [hs]
  simp only [hon, Bool.not_true, Bool.false_eq_true, if_false]
  split
  · exact .inl ⟨_, rfl⟩
  · rename_i goal site hreach
    refine .inr ⟨goal, site, ?_, rfl⟩
    unfold reach? at hreach
    split at hreach
    · cases hreach
    · exact Table.lookup_of_mem hn (List.mem_of_find?_eq_some hreach)

theorem depart_cases (hn : n.sites.Distinct) (name : String) (p : Outgoing) :
    (∃ f traffic, n.depart name 0 p = (.error f, { n with traffic := traffic })) ∨
    ∃ traffic source goal site, n.sites.get? goal = some site ∧
      n.depart name 0 p = (.ok (requestOf source p, goal, site), { n with traffic := traffic }) := by
  cases hs : n.sites.get? name with
  | none =>
    refine .inl ⟨.notRunning, n.traffic, ?_⟩
    rw [depart, hs]
  | some s =>
    cases hon : s.online with
    | false => exact .inl ⟨_, n.traffic, depart_offline hs hon⟩
    | true =>
      rcases depart_online hn hs hon p with ⟨f, hdepart⟩ | ⟨goal, site, hsite, hdepart⟩
      · exact .inl ⟨f, _, hdepart⟩
      · exact .inr ⟨_, _, goal, site, hsite, hdepart⟩

/-- The site after a message has come in that expects no reply. -/
def taken (now : Nat) (site : Site Host) (r : Wire.Request) : Site Host :=
  { site with
    resident := (site.resident.receive r).2
    link := (site.link.send (Receiver.handlers r (site.resident.receive r).1) now r).2 }

theorem Laid.send_up (hn : n.Laid) (hs : n.sites.get? name = some s) (hon : s.online = true)
    (hgoal : n.sites.get? goal = some site) (haddress : site.resident.address = p.goal)
    (hup : p.goal ∉ n.down) :
    n.send now name p = (.ok (), (n.noted s p).setSite goal (taken now site (requestOf s.resident.address p))) := by
  have hlink : (site.link.send (Receiver.handlers (requestOf s.resident.address p)
      (site.resident.receive (requestOf s.resident.address p)).1) now (requestOf s.resident.address p)).1 = .ok () := by
    unfold LocalLink.send
    rw [hn.unlocked goal site hgoal]
    rfl
  rw [send, hn.depart_up hs hon hgoal haddress hup]
  exact Prod.ext hlink rfl

theorem send_down (hs : n.sites.get? name = some s) (hon : s.online = true) (hdown : p.goal ∈ n.down) :
    n.send now name p = (.error (.connect p.goal .unreachable), n.noted s p) := by
  rw [send, depart_down hs hon hdown]

theorem send_offline (hs : n.sites.get? name = some s) (hoff : s.online = false) :
    n.send now name p = (.error .notRunning, n) := by
  rw [send, depart_offline hs hoff]

/-! ## Residents -/

/-- Residents have become something else, each at its place. -/
structure Becomes (n n' : Network Host) (f : String → Host → Host) : Prop where
  down : n'.down = n.down
  names : n.sites.Distinct → n'.sites.Distinct
  site : ∀ name s, n.sites.get? name = some s → ∃ s', n'.sites.get? name = some s' ∧
    s'.resident = f name s.resident ∧ s'.online = s.online ∧ s'.link.closed = s.link.closed
  back : ∀ name s', n'.sites.get? name = some s' → ∃ s, n.sites.get? name = some s

theorem becomes_refl (n : Network Host) : Becomes n n fun _ h => h where
  down := rfl
  names := id
  site _ s hs := ⟨s, hs, rfl, rfl, rfl⟩
  back _ s hs := ⟨s, hs⟩

theorem Becomes.trans {n'' : Network Host} {f g : String → Host → Host} (h : Becomes n n' f)
    (h' : Becomes n' n'' g) : Becomes n n'' fun name r => g name (f name r) where
  down := h'.down.trans h.down
  names hn := h'.names (h.names hn)
  site name s hs := by
    obtain ⟨s', hs', hres, hon, hclosed⟩ := h.site name s hs
    obtain ⟨s'', hs'', hres', hon', hclosed'⟩ := h'.site name s' hs'
    exact ⟨s'', hs'', by rw [hres', hres], hon'.trans hon, hclosed'.trans hclosed⟩
  back name s'' hs'' := by
    obtain ⟨s', hs'⟩ := h'.back name s'' hs''
    exact h.back name s' hs'

theorem Becomes.congr {f g : String → Host → Host} (h : Becomes n n' f)
    (hfg : ∀ name s, n.sites.get? name = some s → g name s.resident = f name s.resident) :
    Becomes n n' g where
  down := h.down
  names := h.names
  site name s hs := by
    obtain ⟨s', hs', hres, hrest⟩ := h.site name s hs
    exact ⟨s', hs', by rw [hres, hfg name s hs], hrest⟩
  back := h.back

theorem Becomes.laid {f : String → Host → Host} (h : Becomes n n' f) (hn : n.Laid)
    (hf : ∀ name r, (f name r).address = r.address) : n'.Laid := by
  have hbefore : ∀ name s', n'.sites.get? name = some s' → ∃ s, n.sites.get? name = some s ∧
      s'.resident.address = s.resident.address ∧ s'.link.closed = s.link.closed := by
    intro name s' hs'
    obtain ⟨s, hs⟩ := h.back name s' hs'
    obtain ⟨s'', hs'', hres, -, hclosed⟩ := h.site name s hs
    obtain rfl := Option.some.inj (hs'.symm.trans hs'')
    exact ⟨s, hs, by rw [hres, hf], hclosed⟩
  refine ⟨h.names hn.names, ?_, ?_⟩
  · intro name s name' s' hs hs' heq
    obtain ⟨r, hr, haddress, -⟩ := hbefore name s hs
    obtain ⟨r', hr', haddress', -⟩ := hbefore name' s' hs'
    exact hn.apart name r name' r' hr hr' (by rw [← haddress, ← haddress', heq])
  · intro name s' hs'
    obtain ⟨s, hs, -, hclosed⟩ := hbefore name s' hs'
    rw [hclosed]
    exact hn.unlocked name s hs

/-- A message arrives unless its sender or its goal is cut off. -/
def Arrives (n : Network Host) (s : Site Host) (a : Address) : Prop := s.online = true ∧ a ∉ n.down

instance (n : Network Host) (s : Site Host) (a : Address) : Decidable (Arrives n s a) :=
  inferInstanceAs (Decidable (_ ∧ _))

/-- Why a message does not arrive. -/
def fault (s : Site Host) (a : Address) : Failure :=
  if s.online then .connect a .unreachable else .notRunning

theorem Laid.fst_send (hn : n.Laid) (now : Nat) (hs : n.sites.get? name = some s) (p : Outgoing)
    (hgoal : n.sites.get? goal = some site) (haddress : site.resident.address = p.goal) :
    (n.send now name p).1 = if Arrives n s p.goal then .ok () else .error (fault s p.goal) := by
  unfold fault
  cases hon : s.online with
  | false =>
    rw [send_offline hs hon, if_neg fun h => Bool.false_ne_true (hon.symm.trans h.1)]
    rfl
  | true =>
    by_cases hup : p.goal ∈ n.down
    · rw [send_down hs hon hup, if_neg fun h => h.2 hup]
      rfl
    · rw [hn.send_up hs hon hgoal haddress hup, if_pos ⟨hon, hup⟩]

theorem dispatch_nobody (l : LocalLink) (handlers : Handlers) (now : Nat) (r : Wire.Request) :
    ∃ log jobs nextJob, l.dispatch handlers now r .nobody =
      { l with log := log, jobs := jobs, nextJob := nextJob } := by
  unfold LocalLink.dispatch
  split
  · exact ⟨l.log, l.jobs, l.nextJob, rfl⟩
  · dsimp only
    split
    all_goals exact ⟨_, _, _, rfl⟩

theorem closed_send (l : LocalLink) (handlers : Handlers) (now : Nat) (r : Wire.Request) :
    (l.send handlers now r).2.closed = l.closed := by
  unfold LocalLink.send
  split
  · rfl
  · obtain ⟨log, jobs, nextJob, heq⟩ := dispatch_nobody l handlers now r
    rw [heq]

theorem becomes_noted (n : Network Host) (s : Site Host) (p : Outgoing) :
    Becomes n (n.noted s p) fun _ h => h where
  down := rfl
  names := id
  site _ s hs := ⟨s, hs, rfl, rfl, rfl⟩
  back _ s hs := ⟨s, hs⟩

theorem becomes_setSite (hn : n.sites.Distinct) (hgoal : n.sites.get? goal = some site) (site' : Site Host)
    (hon : site'.online = site.online) (hclosed : site'.link.closed = site.link.closed) :
    Becomes n (n.setSite goal site') fun name h => if name = goal then site'.resident else h where
  down := rfl
  names _ := hn.insert goal site'
  site name s hs := by
    rw [setSite, Table.get?_insert]
    split
    · rename_i heq
      subst heq
      obtain rfl := Option.some.inj (hgoal.symm.trans hs)
      exact ⟨site', rfl, rfl, hon, hclosed⟩
    · exact ⟨s, hs, rfl, rfl, rfl⟩
  back name s' hs' := by
    rw [setSite, Table.get?_insert] at hs'
    split at hs'
    · rename_i heq
      subst heq
      exact ⟨site, hgoal⟩
    · exact ⟨s', hs'⟩

/-- A message changes the resident at its goal, if it arrives there, and nobody else. -/
theorem Laid.becomes_send (hn : n.Laid) (now : Nat) (hs : n.sites.get? name = some s) (p : Outgoing)
    (hgoal : n.sites.get? goal = some site) (haddress : site.resident.address = p.goal) :
    Becomes n (n.send now name p).2 fun _ h =>
      if Arrives n s p.goal ∧ h.address = p.goal then (h.receive (requestOf s.resident.address p)).2 else h := by
  cases hon : s.online with
  | false =>
    have hnot : ¬ Arrives n s p.goal := fun h => Bool.false_ne_true (hon.symm.trans h.1)
    rw [send_offline hs hon]
    apply (becomes_refl n).congr
    intro _ _ _
    exact if_neg fun h => hnot h.1
  | true =>
    by_cases hup : p.goal ∈ n.down
    · rw [send_down hs hon hup]
      apply (becomes_noted n s p).congr
      intro _ _ _
      exact if_neg fun h => h.1.2 hup
    · rw [hn.send_up hs hon hgoal haddress hup]
      have hset := becomes_setSite (n := n.noted s p) hn.names hgoal
        (taken now site (requestOf s.resident.address p)) rfl (closed_send site.link _ now _)
      apply ((becomes_noted n s p).trans hset).congr
      intro other r hr
      by_cases heq : other = goal
      · subst heq
        obtain rfl := Option.some.inj (hgoal.symm.trans hr)
        rw [if_pos ⟨⟨hon, hup⟩, haddress⟩, if_pos rfl]
        rfl
      · -- No other site has the address of the goal.
        rw [if_neg heq, if_neg]
        rintro ⟨-, haddress'⟩
        exact heq (hn.apart other r goal site hr hgoal (haddress'.trans haddress.symm))

/-! ## Calls -/

/-- The site after a call has come in. -/
def called (now : Nat) (site : Site Host) (k : CallKey) (r : Wire.Request) (ms : Nat) : Site Host :=
  { site with
    resident := (site.resident.receive r).2
    link := site.link.begin (Receiver.handlers r (site.resident.receive r).1) now k r ms }

theorem Laid.begin_up (hn : n.Laid) (hs : n.sites.get? name = some s) (hon : s.online = true)
    (hgoal : n.sites.get? goal = some site) (haddress : site.resident.address = p.goal)
    (hup : p.goal ∉ n.down) (now ms : Nat) :
    n.begin now name p ms = (.ok (goal, n.nextCall),
      { (n.noted s p).setSite goal (called now site n.nextCall (requestOf s.resident.address p) ms) with
        nextCall := n.nextCall + 1 }) := by
  rw [Network.begin, hn.depart_up hs hon hgoal haddress hup]
  rfl

theorem begin_down (hs : n.sites.get? name = some s) (hon : s.online = true) (hdown : p.goal ∈ n.down)
    (now ms : Nat) :
    n.begin now name p ms = (.error (.connect p.goal .unreachable), n.noted s p) := by
  rw [Network.begin, depart_down hs hon hdown]

theorem begin_offline (hs : n.sites.get? name = some s) (hoff : s.online = false) (now ms : Nat) :
    n.begin now name p ms = (.error .notRunning, n) := by
  rw [Network.begin, depart_offline hs hoff]

end ClusterNet.Bench.Network
