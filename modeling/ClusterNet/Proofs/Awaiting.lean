import ClusterNet.Proofs.Announcements
import ClusterNet.Proofs.LocalCalls
import ClusterNet.Proofs.Network

/-!
# Waiting for a reply

While a caller waits, the whole network goes on: hosts repeat their announcements, and other calls are
worked on. None of this is heard by a subscriber, and none of it comes between the call and its reply.
-/

namespace ClusterNet.Bench

open Messaging PubSub

/-! ## Machines -/

namespace Machine

variable {S A : Type} {m : Machine S} {look : S → Option A} {a : A} {bound now : Nat}
  {I : Nat → S → Prop} {s : S} {t : Timed S}

/-- The machine comes to rest now, and at each of the next moments that something waits for, until
something can be seen. -/
def Rests (m : Machine S) (look : S → Option A) : (rounds : Nat) → Timed S → Prop
  | 0, _ => True
  | rounds + 1, t => m.move? t.now (m.settle t).state = none ∧
      (look (m.settle t).state = none → ∀ due, m.next? (m.settle t) = some due →
        m.Rests look rounds { m.settle t with now := due })

theorem mem_later {due : Nat} : due ∈ (m.dues t.state).filter (t.now < ·) ↔ due ∈ m.dues t.state ∧ t.now < due := by
  rw [List.mem_filter, decide_eq_true_iff]

theorem next?_least {d : Nat} (h : m.next? t = some d) :
    t.now < d ∧ ∀ due ∈ m.dues t.state, t.now < due → d ≤ due := by
  obtain ⟨hmem, hleast⟩ := List.min?_eq_some_iff.mp h
  exact ⟨(mem_later.mp hmem).2, fun due hdue hlt => hleast due (mem_later.mpr ⟨hdue, hlt⟩)⟩

theorem exists_next? {due : Nat} (hmem : due ∈ m.dues t.state) (hlt : t.now < due) :
    ∃ d, m.next? t = some d := by
  rw [← Option.isSome_iff_exists, next?, List.isSome_min?_iff]
  exact List.ne_nil_of_mem (mem_later.mpr ⟨hmem, hlt⟩)

/-- What holds of a machine until something can be seen, which it is by some time. -/
structure Keeps (m : Machine S) (look : S → Option A) (a : A) (bound : Nat) (I : Nat → S → Prop) : Prop where
  moves : ∀ now s s', I now s → m.move? now s = some s' → I now s'
  rests : ∀ now s, I now s → m.move? now s = none →
    look s = some a ∨ (look s = none ∧ ∃ due ∈ m.dues s, now < due ∧ due ≤ bound)
  waits : ∀ now later s, I now s → m.move? now s = none → look s = none →
    (∀ due ∈ m.dues s, now < due → later ≤ due) → I later s

theorem Keeps.run (hm : m.Keeps look a bound I) (moves : Nat) (h : I now s) : I now (m.run now moves s) := by
  induction moves generalizing s with
  | zero => exact h
  | succ moves ih =>
    rw [Machine.run]
    split
    · rename_i s' hmove
      exact ih (hm.moves now s s' h hmove)
    · exact h

/-- Every round takes time, so that there are enough of them. -/
theorem Keeps.await (hm : m.Keeps look a bound I) {rounds : Nat} (h : I t.now t.state) (hnow : t.now ≤ bound)
    (hrounds : bound < t.now + rounds) (hrests : m.Rests look rounds t) :
    (m.await look rounds t).1 = some a ∧
      I (m.await look rounds t).2.now (m.await look rounds t).2.state := by
  induction rounds generalizing t with
  | zero => omega
  | succ rounds ih =>
    obtain ⟨hrest, hlater⟩ := hrests
    have hsettle : I t.now (m.settle t).state := hm.run patience h
    rw [Machine.await]
    rcases hm.rests t.now _ hsettle hrest with hlook | ⟨hlook, due, hdue, hlt, hle⟩
    · rw [hlook]
      exact ⟨rfl, hsettle⟩
    · obtain ⟨d, hnext⟩ := exists_next? (t := m.settle t) hdue hlt
      obtain ⟨hd, hleast⟩ := next?_least hnext
      have hbefore : t.now < d := hd
      have hbound := hleast due hdue hlt
      rw [hlook, hnext]
      exact ih (hm.waits t.now d _ hsettle hrest hlook hleast) (Nat.le_trans hbound hle) (by dsimp only; omega)
        (hlater hlook d hnext)

end Machine

namespace Network

variable {n n' n₀ : Network Host} {name goal : String} {s site : Site Host} {p : Outgoing} {now : Nat}
  {pledge : Pledge}

/-! ## Moves -/

/-- What a move of a network comes to. -/
inductive Move (now : Nat) (n : Network Host) : Network Host → Prop where
  | fails (l : String × Outgoing) (rest : List (String × Outgoing)) (traffic : List Transfer)
      (out : n.outbox = l :: rest) : Move now n { n with outbox := rest, traffic := traffic }
  | delivers (l : String × Outgoing) (rest : List (String × Outgoing)) (traffic : List Transfer)
      (source : Address) (goal : String) (site : Site Host) (out : n.outbox = l :: rest)
      (there : n.sites.get? goal = some site) :
      Move now n ({ n with outbox := rest, traffic := traffic }.setSite goal (taken now site (requestOf source l.2)))
  | works (name : String) (s : Site Host) (j : JobKey) (link : LocalLink)
      (there : n.sites.get? name = some s) (work : s.link.work? j now = some link) :
      Move now n (n.setSite name { s with link := link })
  | proceeds (name : String) (s : Site Host) (k : CallKey) (link : LocalLink)
      (there : n.sites.get? name = some s) (idle : s.link.Idle now)
      (proceed : s.link.proceed? k now = some link) : Move now n (n.setSite name { s with link := link })
  | repeats (name : String) (s : Site Host) (h : Host) (ps : List Outgoing)
      (there : n.sites.get? name = some s) (again : s.resident.repeat? now = some (h, ps)) :
      Move now n ((n.setSite name { s with resident := h }).post name ps)

theorem idle_of_jobs {l : LocalLink} (h : l.jobs.keys.findSome? (fun j => l.work? j now) = none) :
    l.Idle now := by
  intro j
  cases hjob : l.jobs.get? j with
  | none =>
    unfold LocalLink.work?
    rw [hjob]
  | some job =>
    apply List.findSome?_eq_none_iff.mp h j
    rw [← Table.contains_iff_mem_keys, Table.contains, hjob]
    rfl

theorem not_proceed_of_calls {l : LocalLink} (h : l.calls.keys.findSome? (fun k => l.proceed? k now) = none)
    (k : CallKey) : l.proceed? k now = none := by
  cases hcall : l.calls.get? k with
  | none =>
    unfold LocalLink.proceed?
    rw [hcall]
    rfl
  | some call =>
    apply List.findSome?_eq_none_iff.mp h k
    rw [← Table.contains_iff_mem_keys, Table.contains, hcall]
    rfl

theorem move_of_stirSite? (hs : n.sites.get? name = some s) (h : n.stirSite? now (name, s) = some n') :
    Move now n n' := by
  unfold stirSite? at h
  dsimp only at h
  split at h
  · rename_i link hlink
    obtain rfl := Option.some.inj h
    cases hjobs : s.link.jobs.keys.findSome? fun j => s.link.work? j now with
    | some link' =>
      rw [hjobs] at hlink
      obtain rfl := Option.some.inj hlink
      obtain ⟨j, -, hwork⟩ := List.exists_of_findSome?_eq_some hjobs
      exact .works name s j link' hs hwork
    | none =>
      rw [hjobs] at hlink
      obtain ⟨k, -, hproceed⟩ := List.exists_of_findSome?_eq_some hlink
      exact .proceeds name s k link hs (idle_of_jobs hjobs) hproceed
  · obtain ⟨⟨r, ps⟩, hstir, rfl⟩ := Option.map_eq_some_iff.mp h
    exact .repeats name s r ps hs hstir

theorem move_of_move? (hn : n.sites.Distinct) (h : n.move? now = some n') : Move now n n' := by
  unfold move? at h
  split at h
  · rename_i sender p rest hout
    obtain rfl := Option.some.inj h
    unfold send
    rcases depart_cases (n := { n with outbox := rest }) hn sender p with
      ⟨f, traffic, hdepart⟩ | ⟨traffic, source, goal, site, hsite, hdepart⟩
    · rw [hdepart]
      exact .fails _ rest traffic hout
    · rw [hdepart]
      exact .delivers _ rest traffic source goal site hout hsite
  · obtain ⟨⟨name, s⟩, hmem, hstir⟩ := List.exists_of_findSome?_eq_some h
    exact move_of_stirSite? (Table.lookup_of_mem hn hmem) hstir

theorem rest_of_move? (h : n.move? now = none) : n.outbox = [] ∧
    ∀ name s, n.sites.get? name = some s → s.link.Rests now ∧ s.resident.repeat? now = none := by
  unfold move? at h
  split at h
  · cases h
  · rename_i hout
    refine ⟨hout, ?_⟩
    intro name s hs
    have hstir := List.findSome?_eq_none_iff.mp h (name, s) (Table.mem_of_lookup hs)
    unfold stirSite? at hstir
    dsimp only at hstir
    split at hstir
    · cases hstir
    · rename_i hnone
      refine ⟨?_, Option.map_eq_none_iff.mp hstir⟩
      cases hjobs : s.link.jobs.keys.findSome? fun j => s.link.work? j now with
      | some link =>
        rw [hjobs] at hnone
        cases hnone
      | none =>
        rw [hjobs] at hnone
        exact ⟨idle_of_jobs hjobs, not_proceed_of_calls hnone⟩

/-! ## What waiting leaves alone -/

/-- What each host has heard is the same. -/
def Hushed (n n' : Network Host) : Prop :=
  ∀ name, (n'.sites.get? name).map (·.resident.heard) = (n.sites.get? name).map (·.resident.heard)

/-- Nothing but announcements is sent without being asked for. -/
structure Tidy (n : Network Host) : Prop where
  names : n.sites.Distinct
  letters : ∀ l ∈ n.outbox, l.2.subject = announcementSubject
  discreet : ∀ name s, n.sites.get? name = some s → s.resident.Discreet

theorem forall_setSite {P : Site Host → Prop} (h : ∀ name s, n.sites.get? name = some s → P s) (hs : P s)
    (name : String) : ∀ other x, (n.setSite name s).sites.get? other = some x → P x := by
  intro other x hx
  change (n.sites.insert name s).get? other = some x at hx
  rw [Table.get?_insert] at hx
  split at hx
  · obtain rfl := Option.some.inj hx
    exact hs
  · exact h other x hx

theorem Tidy.setSite (hn : n.Tidy) (hs : s.resident.Discreet) (name : String) : (n.setSite name s).Tidy :=
  ⟨hn.names.insert name s, hn.letters, forall_setSite hn.discreet hs name⟩

theorem Tidy.mail (hn : n.Tidy) {outbox : List (String × Outgoing)}
    (hout : ∀ l ∈ outbox, l.2.subject = announcementSubject) (traffic : List Transfer) :
    Tidy { n with outbox := outbox, traffic := traffic } := ⟨hn.names, hout, hn.discreet⟩

theorem Tidy.letter (hn : n.Tidy) {l : String × Outgoing} {rest : List (String × Outgoing)}
    (hout : n.outbox = l :: rest) :
    l.2.subject = announcementSubject ∧ ∀ l' ∈ rest, l'.2.subject = announcementSubject := by
  have hletters := hn.letters
  rw [hout] at hletters
  exact ⟨hletters l List.mem_cons_self, fun l' hl' => hletters l' (List.mem_cons_of_mem l hl')⟩

theorem receive_announcement {h : Host} (hh : h.Discreet) {r : Wire.Request} (hr : r.subject = announcementSubject) :
    ((h.receive r).1 = none ∨ (h.receive r).1 = some .releases) ∧
      ∃ current, (h.receive r).2 = { h with current := current } := by
  unfold Host.receive
  rw [hr]
  cases hroute : h.routes.get? announcementSubject with
  | none => exact ⟨.inl rfl, h.current, rfl⟩
  | some route =>
    obtain ⟨service, rfl⟩ := hh route hroute
    dsimp only
    split
    · exact ⟨.inr rfl, _, rfl⟩
    · exact ⟨.inr rfl, h.current, rfl⟩

theorem repeat_letters {h h' : Host} {ps : List Outgoing} (hrepeat : h.repeat? now = some (h', ps)) :
    ∀ q ∈ ps, q.subject = announcementSubject := by
  intro q hq
  have htells : Host.Tells q ((h.repeat? now).getD (h, [])).1 := by
    apply Host.tells_repeat
    rw [hrepeat]
    exact hq
  exact htells.subject

theorem repeat_leaves {h h' : Host} {ps : List Outgoing} (hrepeat : h.repeat? now = some (h', ps)) :
    h'.heard = h.heard ∧ h'.routes = h.routes := by
  unfold Host.repeat? at hrepeat
  split at hrepeat
  · split at hrepeat
    · cases hrepeat
      exact ⟨rfl, rfl⟩
    · cases hrepeat
  · cases hrepeat

theorem Tidy.move (hn : n.Tidy) (hmove : Move now n n') : n'.Tidy := by
  cases hmove with
  | fails l rest traffic out => exact hn.mail (hn.letter out).2 traffic
  | delivers l rest traffic source goal site out there =>
    exact (hn.mail (hn.letter out).2 traffic).setSite
      ((Host.frame_receive _ _).discreet (hn.discreet goal site there)) goal
  | works name s j link there work =>
    exact hn.setSite (s := { s with link := link }) (hn.discreet name s there) name
  | proceeds name s k link there idle proceed =>
    exact hn.setSite (s := { s with link := link }) (hn.discreet name s there) name
  | repeats name s r ps there again =>
    have hdiscreet : r.Discreet :=
      Host.discreet_of_get? (hn.discreet name s there) (by rw [(repeat_leaves again).2])
    have hset : (n.setSite name { s with resident := r }).Tidy := hn.setSite hdiscreet name
    refine hset.mail ?_ _
    intro l hl
    rcases List.mem_append.mp hl with hl | hl
    · exact hn.letters l hl
    · obtain ⟨q, hq, rfl⟩ := List.mem_map.mp hl
      exact repeat_letters again q hq

/-- A promise is kept so far, and nobody has heard anything since. -/
structure Waits (n₀ : Network Host) (goal : String) (pledge : Pledge) (now : Nat) (n : Network Host) : Prop where
  tidy : n.Tidy
  hushed : Hushed n₀ n
  stands : ∃ s, n.sites.get? goal = some s ∧ s.link.Stands pledge now

theorem Waits.setSite (h : Waits n₀ goal pledge now n) (hs : n.sites.get? name = some s) (s' : Site Host)
    (hheard : s'.resident.heard = s.resident.heard)
    (hstands : s.link.Stands pledge now → s'.link.Stands pledge now) :
    Hushed n₀ (n.setSite name s') ∧
      ∃ x, (n.setSite name s').sites.get? goal = some x ∧ x.link.Stands pledge now := by
  have hget (other : String) : (n.setSite name s').sites.get? other =
      if other = name then some s' else n.sites.get? other := Table.get?_insert n.sites name other s'
  constructor
  · intro other
    rw [← h.hushed other, hget]
    split
    · rename_i heq
      rw [heq, hs, Option.map_some, Option.map_some, hheard]
    · rfl
  · obtain ⟨site, hsite, hbefore⟩ := h.stands
    rw [hget]
    split
    · rename_i heq
      subst heq
      obtain rfl := Option.some.inj (hs.symm.trans hsite)
      exact ⟨s', rfl, hstands hbefore⟩
    · exact ⟨site, hsite, hbefore⟩

theorem Waits.move (h : Waits n₀ goal pledge now n) (hmove : Move now n n') : Waits n₀ goal pledge now n' := by
  have htidy := h.tidy.move hmove
  cases hmove with
  | fails l rest traffic out => exact ⟨htidy, h.hushed, h.stands⟩
  | delivers l rest traffic source goal site out there =>
    obtain ⟨-, current, hreceive⟩ := receive_announcement (h.tidy.discreet goal site there)
      (r := requestOf source l.2) (h.tidy.letter out).1
    -- All that is on its way are announcements, which no subscriber hears.
    have hheard : (site.resident.receive (requestOf source l.2)).2.heard = site.resident.heard := by
      rw [hreceive]
    obtain ⟨hhushed, hstands⟩ := h.setSite there (taken now site (requestOf source l.2)) hheard
      fun hstands => hstands.send _ now _
    exact ⟨htidy, hhushed, hstands⟩
  | works name s j link there work =>
    obtain ⟨hhushed, hstands⟩ := h.setSite there { s with link := link } rfl
      fun hstands => hstands.work work
    exact ⟨htidy, hhushed, hstands⟩
  | proceeds name s k link there idle proceed =>
    obtain ⟨hhushed, hstands⟩ := h.setSite there { s with link := link } rfl
      fun hstands => hstands.proceed idle proceed
    exact ⟨htidy, hhushed, hstands⟩
  | repeats name s r ps there again =>
    obtain ⟨hhushed, hstands⟩ := h.setSite there { s with resident := r } (repeat_leaves again).1 id
    exact ⟨htidy, hhushed, hstands⟩

/-! ## Calls -/

theorem mem_dues {due : Nat} (hs : n.sites.get? name = some s)
    (hdue : due ∈ s.link.jobs.values.filterMap LocalLink.due? ++ s.link.calls.values.filterMap Call.due? ++
      s.resident.due.toList) : due ∈ machine.dues n :=
  List.mem_flatMap.mpr ⟨s, List.mem_map.mpr ⟨_, Table.mem_of_lookup hs, rfl⟩, hdue⟩

theorem mem_dues_of_job {j : JobKey} {job : LocalJob} {due : Nat} (hs : n.sites.get? name = some s)
    (hjob : s.link.jobs.get? j = some job) (hdue : LocalLink.due? job = some due) : due ∈ machine.dues n := by
  apply mem_dues hs
  apply List.mem_append_left
  apply List.mem_append_left
  exact List.mem_filterMap.mpr ⟨job, List.mem_map.mpr ⟨_, Table.mem_of_lookup hjob, rfl⟩, hdue⟩

theorem mem_dues_of_call {k : CallKey} {c : Call} {due : Nat} (hs : n.sites.get? name = some s)
    (hc : s.link.calls.get? k = some c) (hdue : c.due? = some due) : due ∈ machine.dues n := by
  apply mem_dues hs
  apply List.mem_append_left
  apply List.mem_append_right
  exact List.mem_filterMap.mpr ⟨c, List.mem_map.mpr ⟨_, Table.mem_of_lookup hc, rfl⟩, hdue⟩

/-- The caller finds what it has been promised when the promise is due. -/
theorem keeps_waits (n₀ : Network Host) (goal : String) (pledge : Pledge) :
    machine.Keeps (fun n => (n.call? (goal, pledge.call)).bind Call.outcome?) pledge.outcome pledge.due
      (Waits n₀ goal pledge) where
  moves now n n' h hmove := h.move (move_of_move? h.tidy.names hmove)
  rests now n h hrest := by
    obtain ⟨s, hs, hstands⟩ := h.stands
    have hcall : n.call? (goal, pledge.call) = s.link.calls.get? pledge.call := by
      rw [call?, hs, Option.bind_some]
    rcases hstands.rests ((rest_of_move? hrest).2 _ s hs).1 with ⟨c, hc, hover⟩ | ⟨hready, hdue, hjob, hc⟩
    · left
      rw [hcall, hc, Option.bind_some, hover]
    · right
      rw [hcall, hc]
      exact ⟨rfl, pledge.due, mem_dues_of_call hs hc rfl, hdue, Nat.le_refl _⟩
  waits now later n h hrest hlook hdues := by
    obtain ⟨s, hs, hstands⟩ := h.stands
    have hcall : n.call? (goal, pledge.call) = s.link.calls.get? pledge.call := by
      rw [call?, hs, Option.bind_some]
    refine ⟨h.tidy, h.hushed, s, hs, ?_⟩
    rcases hstands.rests ((rest_of_move? hrest).2 _ s hs).1 with ⟨c, hc, hover⟩ | ⟨hready, hdue, hjob, hc⟩
    · rw [hcall, hc, Option.bind_some, hover] at hlook
      cases hlook
    · exact hstands.waits (hdues _ (mem_dues_of_job hs hjob rfl) hready)
        (hdues _ (mem_dues_of_call hs hc rfl) hdue)

/-- While a reply is awaited, the network comes to rest at every moment. -/
def Calm (name : String) (p : Outgoing) (ms : Nat) (t : Run Host) : Prop :=
  ∀ ring state, t.state.begin t.now name p ms = (.ok ring, state) →
    machine.Rests (fun n => (n.call? ring).bind Call.outcome?) (ms + 1) { t with state := state }

theorem call_error {t : Run Host} {f : Failure} {ms : Nat}
    (h : t.state.begin t.now name p ms = (.error f, n)) :
    call name p ms t = (.error f, { t with state := n }) := by
  unfold call
  rw [h]

/-- Whoever waits gets what it has been promised. -/
theorem call_of_waits (pledge : Pledge) {t : Run Host} {ms : Nat}
    (hbegin : t.state.begin t.now name p ms = (.ok (goal, pledge.call), n))
    (hwaits : Waits n goal pledge t.now n) (hdue : pledge.due = t.now + ms) (hcalm : Calm name p ms t) :
    (call name p ms t).1 = pledge.outcome ∧ Hushed n (call name p ms t).2.state := by
  obtain ⟨hsome, hafter⟩ := (keeps_waits n goal pledge).await (t := { t with state := n }) hwaits
    (hdue ▸ Nat.le_add_right _ _) (hdue ▸ Nat.lt_succ_self _) (hcalm _ _ hbegin)
  unfold call
  rw [hbegin]
  refine ⟨?_, hafter.hushed⟩
  dsimp only
  rw [hsome, Option.getD_some]

theorem call_works {t : Run Host} {ms work : Nat} {effort : Effort} (hn : t.state.Laid) (htidy : t.state.Tidy)
    (hcalls : ∀ j job k, site.link.jobs.get? j = some job → job.sink = .call k → k < t.state.nextCall)
    (hs : t.state.sites.get? name = some s) (hgoal : t.state.sites.get? goal = some site)
    (haddress : site.resident.address = p.goal) (harrives : Arrives t.state s p.goal)
    (hreact : (site.resident.receive (requestOf s.resident.address p)).1 = some (.works work effort))
    (hcalm : Calm name p ms t) :
    (call name p ms t).1 = (if work ≤ ms then outcomeOf p.subject ⟨0, effort.reply.1, effort.reply.2⟩
      else .error (.timeout p.subject ms)) ∧
    Hushed (t.state.begin t.now name p ms).2 (call name p ms t).2.state := by
  let r := requestOf s.resident.address p
  let pledge : Pledge := ⟨t.state.nextCall, site.link.nextJob, r, ms, t.now + work, t.now + ms, effort⟩
  have hnew : ∀ j job, site.link.jobs.get? j = some job → job.sink ≠ .call t.state.nextCall :=
    fun j job hjob hsink => Nat.lt_irrefl _ (hcalls j job _ hjob hsink)
  have hstands : (called t.now site t.state.nextCall r ms).link.Stands pledge t.now := by
    unfold called
    rw [hreact]
    exact LocalLink.stands_begin (hn.unlocked goal site hgoal) hnew _ r (Table.get?_insert_self _ _ _) rfl t.now ms
  have hdiscreet := (Host.frame_receive site.resident r).discreet (htidy.discreet goal site hgoal)
  have hsites := Tidy.setSite (n := t.state.noted s p) ⟨htidy.names, htidy.letters, htidy.discreet⟩
    (s := called t.now site t.state.nextCall r ms) hdiscreet goal
  have hbegin := hn.begin_up hs harrives.1 hgoal haddress harrives.2 t.now ms
  have hwaits := call_of_waits pledge hbegin ⟨⟨hsites.names, hsites.letters, hsites.discreet⟩,
    fun _ => rfl, _, Table.get?_insert_self _ _ _, hstands⟩ rfl hcalm
  have houtcome : pledge.outcome = if work ≤ ms then outcomeOf p.subject ⟨0, effort.reply.1, effort.reply.2⟩
      else .error (.timeout p.subject ms) := by
    unfold Pledge.outcome
    by_cases hle : work ≤ ms
    · rw [if_pos hle, if_pos (Nat.add_le_add_left hle t.now)]
      rfl
    · rw [if_neg hle, if_neg fun h => hle (Nat.le_of_add_le_add_left h)]
      rfl
  rw [← houtcome, hbegin]
  exact hwaits

end Network

end ClusterNet.Bench
