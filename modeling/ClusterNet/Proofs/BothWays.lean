import ClusterNet.Proofs.Dwindling
import ClusterNet.Proofs.Transparency

/-!
# Either way a request comes to the same

A node may call itself directly or over a stream, and its handlers may stand at the other end. If
the handler has time enough, the caller is told the same, and the handler sees the same, once.
-/

namespace ClusterNet.Messaging

open Wire

theorem Deserves.unique {handlers : Handlers} {r : Request} {o o' : Outcome} (h : Deserves handlers r o)
    (h' : Deserves handlers r o') : o = o' := by
  unfold Deserves at h h'
  cases hh : handlers.get? r.subject with
  | none =>
    rw [hh] at h h'
    exact h.trans h'.symm
  | some g =>
    rw [hh] at h h'
    obtain ⟨ms, effort, hworks, rfl⟩ := h
    obtain ⟨ms', effort', hworks', rfl⟩ := h'
    obtain ⟨-, rfl⟩ := Reaction.works.inj (hworks.symm.trans hworks')
    rfl

namespace Exchange

variable {limit capacity room lag now work n : Nat} {asked : Request → Prop}
  {offered : String → Handler → Prop} {handlers : Handlers} {x : Exchange} {up down : List Message}
  {k : CallKey} {r : Request} {acts pre post : List LinkAct}

/-! ## What the handlers see -/

theorem filter_invoked_eq_nil {ds : List (Request × Option Handler)} {id : UInt64}
    (h : ∀ d ∈ ds, d.1.id ≠ id) :
    (ds.filterMap fun d => d.2.map fun g => Event.invoked g.label d.1).filter (·.concerns id) = [] := by
  rw [List.filter_eq_nil_iff]
  intro event hevent
  obtain ⟨d, hd, hinvoked⟩ := List.mem_filterMap.mp hevent
  obtain ⟨g, -, rfl⟩ := Option.map_eq_some_iff.mp hinvoked
  simpa [Event.concerns] using h d hd

theorem filter_invoked {ds : List (Request × Option Handler)} (hnodup : (ds.map (·.1.id)).Nodup)
    {d : Request × Option Handler} (hd : d ∈ ds) :
    (ds.filterMap fun d => d.2.map fun g => Event.invoked g.label d.1).filter (·.concerns d.1.id) =
      (d.2.map fun g => Event.invoked g.label d.1).toList := by
  induction ds with
  | nil => exact absurd hd List.not_mem_nil
  | cons c ds ih =>
    rw [List.map_cons, List.nodup_cons] at hnodup
    have hsplit : ((c :: ds).filterMap fun d => d.2.map fun g => Event.invoked g.label d.1) =
        (c.2.map fun g => Event.invoked g.label c.1).toList ++
          ds.filterMap fun d => d.2.map fun g => Event.invoked g.label d.1 := by
      rw [List.filterMap_cons]
      cases c.2 <;> rfl
    rw [hsplit, List.filter_append]
    rcases List.mem_cons.mp hd with rfl | hd
    · rw [filter_invoked_eq_nil fun a ha heq => hnodup.1 (List.mem_map.mpr ⟨a, ha, heq⟩), List.append_nil]
      cases d.2 with
      | none => rfl
      | some g => simp [Event.concerns]
    · have hother : c.1.id ≠ d.1.id := fun heq => hnodup.1 (List.mem_map.mpr ⟨d, hd, heq.symm⟩)
      rw [ih hnodup.2 hd]
      cases c.2 with
      | none => rfl
      | some g => simp [Event.concerns, hother]

theorem Inv.nodup_dispatched (h : x.Inv limit asked offered) : (x.dispatched.map (·.1.id)).Nodup := by
  obtain ⟨l, -, hnodup, -⟩ := h.up
  rw [List.map_append] at hnodup
  have hsent := (List.nodup_append.mp hnodup).1
  rwa [sent, List.map_map] at hsent

theorem Smooth.dispatched (h : x.Smooth limit asked offered handlers up down) (hfit : Fitting limit asked offered)
    (hacts : ∀ a ∈ acts, a.Plain ∧ Within asked offered a) (id : UInt64)
    (hx : ∀ d ∈ x.dispatched, d.1.id = id → d.2 = handlers.get? d.1.subject) :
    ∀ d ∈ (x.run acts).dispatched, d.1.id = id → d.2 = handlers.get? d.1.subject := by
  induction acts generalizing x up down with
  | nil => exact hx
  | cons a acts ih =>
    have ha := hacts a List.mem_cons_self
    obtain ⟨up', down', h', -⟩ := h.act hfit ha.1 ha.2
    refine ih h' (fun b hb => hacts b (List.mem_cons_of_mem a hb)) fun d hd hid => ?_
    rcases dispatched_act x a with heq | ⟨now, r, -, heq⟩
    · rw [heq] at hd
      exact hx d hd hid
    · rw [heq] at hd
      rcases List.mem_append.mp hd with hd | hd
      · exact hx d hd hid
      · rw [List.mem_singleton.mp hd, h.handlers]

theorem deserves_of_answers {d : Request × Option Handler} {reply : Reply} (h : Answers d reply)
    (hd : d.2 = handlers.get? d.1.subject) : Deserves handlers d.1 (outcomeOf d.1.subject reply) := by
  obtain ⟨-, hanswers⟩ := h
  unfold Deserves
  rw [← hd]
  cases hh : d.2 with
  | none =>
    rw [hh] at hanswers
    obtain ⟨hstatus, -⟩ := Prod.mk.inj hanswers
    dsimp only
    rw [outcomeOf, hstatus]
  | some g =>
    rw [hh] at hanswers
    obtain ⟨ms, effort, hworks, hreply⟩ := hanswers
    have hstatus : reply.status = effort.reply.1 := congrArg (·.1) hreply
    have hpayload : reply.payload = effort.reply.2 := congrArg (·.2) hreply
    refine ⟨ms, effort, hworks, ?_⟩
    rw [← outcomeOf_effort d.1.subject reply.id effort, ← hstatus, ← hpayload]

/-- A call that is over was told what the handlers make of its request, and they have seen it. -/
theorem Underway.deserved {e : Errand} (h : x.Underway limit asked offered handlers e lag now)
    (hx : ∀ d ∈ x.dispatched, d.1.id = e.request.id → d.2 = handlers.get? d.1.subject) (hfinal : x.Final) :
    ∃ call o, x.link.client.call? e.call = some call ∧ call.outcome? = some o ∧
      Deserves handlers (resolved e.request) o ∧
      x.link.server.log.filter (·.concerns e.request.id) = seen handlers (resolved e.request) := by
  obtain ⟨call, o, hcall, hrequest, hslot, hover⟩ := h.over hfinal
  obtain ⟨-, up, down, hend, -⟩ := h
  -- What fills the slot comes from a handler, because nobody has closed anything.
  obtain ⟨d, hd, hdr, reply, hanswers, rfl⟩ : Due _ e.call call.request o := by
    rcases (hend.inv.justified hcall).1 o hslot with rfl | hdue
    · exact absurd hslot ((hend.unbroken.steady hcall).slot _ (.inl rfl))
    · exact hdue
  rw [hrequest] at hdr
  have hhandler := hx d hd (by rw [hdr, id_resolved])
  refine ⟨call, _, hcall, by rw [Call.outcome?, hover], ?_, ?_⟩
  · rw [hrequest, ← subject_resolved e.request, ← hdr]
    exact deserves_of_answers hanswers hhandler
  · have hseen := filter_invoked hend.inv.nodup_dispatched hd
    rw [← hend.inv.log, hdr, hhandler, hdr, id_resolved, List.filter_reverse] at hseen
    rw [seen, ← List.reverse_inj, hseen]
    cases handlers.get? (resolved e.request).subject <;> rfl

/-! ## A call over the stream -/

theorem within_of_plain {a : LinkAct} (h : a.Plain) (ha : a ∈ acts) : Within (Asked acts) offered a := by
  cases a with
  | begins k r n => exact ⟨k, n, ha⟩
  | moves => trivial
  | abandons | registers | unregisters | closesClient | closesServer => cases h

/-- The two ends of a stream over which a request was made, with all that went before and came
afterwards. Nobody closes, the handlers stay the same, and everything that is sent has a frame. -/
inductive FarCall (limit capacity room : Nat) (handlers : Handlers) (r : Request) (n lag : Nat) (k : CallKey) :
    Exchange → Prop where
  | made (pre post : List LinkAct) (plain : ∀ a ∈ pre ++ .begins k r n :: post, a.Plain)
      (fitting : Fitting limit (Asked (pre ++ .begins k r n :: post)) (Registered handlers))
      (fresh : ((startWith limit capacity room handlers).run pre).isFresh k r.id = true) (now : Nat)
      (runs : timing.Runs lag now (((startWith limit capacity room handlers).run pre).act (.begins k r n)) post) :
      FarCall limit capacity room handlers r n lag k
        ((startWith limit capacity room handlers).run (pre ++ .begins k r n :: post))

theorem FarCall.adapted (h : FarCall limit capacity room handlers r n lag k x) {s : String} {g : Handler}
    (hg : handlers.get? s = some g) : g.Adapted := by
  cases h with
  | made pre post plain fitting fresh now runs => exact fitting.adapted hg

theorem FarCall.ends (h : FarCall limit capacity room handlers r n lag k x) (hcapacity : 0 < capacity)
    (hroom : 0 < room) : Ends step? x := by
  cases h with
  | made pre post plain fitting fresh now runs =>
    have hallowed : ∀ a ∈ pre ++ .begins k r n :: post, a.Plain ∧ Within _ (Registered handlers) a :=
      fun a ha => ⟨plain a ha, within_of_plain (plain a ha) ha⟩
    have hstart := smooth_start limit hcapacity hroom (Asked (pre ++ .begins k r n :: post)) handlers
    have horderly := hstart.orderly_run fitting hallowed (orderly_startWith limit capacity room handlers)
    obtain ⟨up, down, hend⟩ := hstart.run fitting hallowed
    exact hend.ends fitting horderly

theorem FarCall.over (h : FarCall limit capacity room handlers r n lag k x) (hcapacity : 0 < capacity)
    (hroom : 0 < room) (hcanonical : resolved r = r) (hwork : Lasts handlers r work) (hshort : work + lag < n)
    (hfinal : x.Final) :
    ∃ call o, x.link.client.call? k = some call ∧ call.outcome? = some o ∧ Deserves handlers r o ∧
      x.link.server.log.filter (·.concerns r.id) = seen handlers r := by
  cases h with
  | made pre post plain fitting fresh now runs =>
    have hallowed : ∀ a ∈ pre ++ .begins k r n :: post, a.Plain ∧ Within _ (Registered handlers) a :=
      fun a ha => ⟨plain a ha, within_of_plain (plain a ha) ha⟩
    have hstart := smooth_start limit hcapacity hroom (Asked (pre ++ .begins k r n :: post)) handlers
    obtain ⟨up, down, hsmooth⟩ := hstart.run fitting fun a ha => hallowed a (List.mem_append_left _ ha)
    have hbegun : Underway limit (Asked (pre ++ .begins k r n :: post)) (Registered handlers) handlers
        ⟨k, r, n, work⟩ lag now (((startWith limit capacity room handlers).run pre).act (.begins k r n)) :=
      underway_begin hsmooth fitting ⟨k, r, n, work⟩ ⟨k, n, by simp⟩ fresh hshort
    obtain ⟨lag', now', hunderway⟩ := (keeps_underway fitting (by rwa [hcanonical])).run runs hbegun
      fun a ha => hallowed a (by simp [ha])
    have hrun : post.foldl timing.act (((startWith limit capacity room handlers).run pre).act (.begins k r n)) =
        (startWith limit capacity room handlers).run (pre ++ .begins k r n :: post) := by
      rw [run, run, List.foldl_append]
      rfl
    rw [hrun] at hunderway
    have hdispatched := hstart.dispatched fitting hallowed r.id (by simp [startWith, start])
    generalize (startWith limit capacity room handlers).run (pre ++ .begins k r n :: post) = x
      at hfinal hunderway hdispatched ⊢
    have hover := hunderway.deserved hdispatched hfinal
    rwa [hcanonical] at hover

end Exchange

namespace LocalLink

variable {lag now work n : Nat} {handlers : Handlers} {k : CallKey} {r : Request} {l : LocalLink}

/-! ## A call within the node -/

/-- A node that made a request to itself, with all that went before and came afterwards. -/
inductive NearCall (handlers : Handlers) (r : Request) (n lag : Nat) (k : CallKey) : LocalLink → Prop where
  | made (pre post : List LocalAct) (fresh : (start.run handlers pre).isFresh k r.id = true) (now : Nat)
      (runs : (timing handlers).Runs lag now ((start.run handlers pre).act handlers (.begins now k r n)) post) :
      NearCall handlers r n lag k (start.run handlers (pre ++ .begins now k r n :: post))

theorem NearCall.ends (h : NearCall handlers r n lag k l)
    (hadapted : ∀ s g, handlers.get? s = some g → g.Adapted) : Ends step? l := by
  cases h with
  | made pre post fresh now runs => exact (tidy_start.orderly_run orderly_start hadapted _).ends

theorem NearCall.over (h : NearCall handlers r n lag k l) (hadapted : ∀ s g, handlers.get? s = some g → g.Adapted)
    (hwork : Lasts handlers r work) (hshort : work + lag < n) (hfinal : l.Final) :
    ∃ call o, l.calls.get? k = some call ∧ call.outcome? = some o ∧ Deserves handlers r o ∧
      l.log.filter (·.concerns r.id) = seen handlers r := by
  cases h with
  | made pre post fresh now runs =>
    have hbegun : ((start.run handlers pre).act handlers (.begins now k r n)).NearUnderway handlers
        ⟨k, r, n, work⟩ lag now :=
      nearUnderway_begin (e := ⟨k, r, n, work⟩) (tidy_start.run hadapted pre) hadapted fresh hwork hshort now
    obtain ⟨lag', now', hunderway⟩ := (keeps_nearUnderway hadapted).run runs hbegun fun _ _ => trivial
    have hrun : post.foldl (timing handlers).act ((start.run handlers pre).act handlers (.begins now k r n)) =
        start.run handlers (pre ++ .begins now k r n :: post) := by
      rw [run, run, List.foldl_append]
      rfl
    rw [hrun] at hunderway
    obtain ⟨call, o, hcall, hover, hdeserves⟩ := hunderway.over hfinal
    exact ⟨call, o, hcall, hover, hdeserves, hunderway.seen⟩

end LocalLink

/-! ## Both ways -/

namespace Exchange

end Exchange

namespace LocalLink

end LocalLink

end ClusterNet.Messaging
