import ClusterNet.Proofs.Errands
import ClusterNet.Proofs.LocalCalls

/-!
# A call within a node that is answered in time

Calls of one node to itself, each with an id of its own. The handler of a request replies at once or
becomes a job, and nothing else fills the slot of the call.
-/

namespace ClusterNet.Messaging

open Wire

inductive LocalAct where
  | begins (now : Nat) (k : CallKey) (r : Request) (patience : Nat)
  | works (now : Nat) (j : JobKey)
  | proceeds (now : Nat) (k : CallKey)

namespace LocalLink

/-- Neither the key nor the id of a call was used before. -/
def isFresh (l : LocalLink) (k : CallKey) (id : UInt64) : Bool :=
  (l.calls.get? k).isNone && l.calls.values.all fun call => call.request.id != id

/-- What is not possible now changes nothing. -/
def act (handlers : Handlers) (l : LocalLink) : LocalAct → LocalLink
  | .begins now k r n => if l.isFresh k r.id then l.begin handlers now k r n else l
  | .works now j => (l.work? j now).getD l
  | .proceeds now k => (l.proceed? k now).getD l

def run (handlers : Handlers) (l : LocalLink) (acts : List LocalAct) : LocalLink := acts.foldl (act handlers) l

/-- How time goes by within a node. -/
def timing (handlers : Handlers) : Timing LocalLink LocalAct where
  act := act handlers
  time?
    | .begins now _ _ _ => some now
    | .works now _ => some now
    | .proceeds now _ => some now
  rests now l := l.Rests now
  dues l := l.jobs.values.filterMap LocalLink.due? ++ l.calls.values.filterMap Call.due?

/-- Nothing can move any more, at whatever time. -/
def Final (l : LocalLink) : Prop := ∀ now, l.Rests now

variable {handlers : Handlers} {l l' : LocalLink} {now lag : Nat} {k : CallKey} {j : JobKey} {r : Request}
  {n : Nat} {e : Errand}

/-! ## Who has asked -/

def request? (l : LocalLink) (k : CallKey) : Option Request := (l.calls.get? k).map Call.request

theorem request?_of_get? {call : Call} (h : l.calls.get? k = some call) : l.request? k = some call.request := by
  rw [request?, h, Option.map_some]

/-- Nobody has asked anything new, and no handler has seen anything new. -/
structure SameAsks (l l' : LocalLink) : Prop where
  closed : l'.closed = l.closed
  requests : ∀ k, l'.request? k = l.request? k
  seen : ∀ id, l'.log.filter (·.concerns id) = l.log.filter (·.concerns id)

theorem sameAsks_refl (l : LocalLink) : l.SameAsks l := ⟨rfl, fun _ => rfl, fun _ => rfl⟩

theorem sameAsks_change {f : Call → Call} (hf : ∀ c, (f c).request = c.request) (l : LocalLink) (k : CallKey) :
    l.SameAsks (l.change k f) := by
  refine ⟨rfl, fun k' => ?_, fun _ => rfl⟩
  rw [request?, get?_change]
  split
  · cases h : l.calls.get? k' with
    | none => simp [request?, h]
    | some c => simp [request?, h, hf]
  · rfl

theorem sameAsks_reply (l : LocalLink) (r : Request) (sink : Sink) (used : Bool) (x : Status × Bytes) :
    l.SameAsks (l.reply r sink used x).2 := by
  unfold reply
  split
  · exact sameAsks_refl l
  · split
    · exact sameAsks_refl l
    · split
      · exact sameAsks_change (fun c => Call.request_fill c _) _ _
      · exact sameAsks_refl l

theorem sameAsks_letGo (l : LocalLink) (sink : Sink) : l.SameAsks (l.letGo sink) := by
  unfold letGo
  split
  · exact sameAsks_change Call.request_lose _ _
  · exact sameAsks_refl l

theorem SameAsks.setJob (h : l.SameAsks l') (j : JobKey) (f : LocalJob → LocalJob) : l.SameAsks (l'.setJob j f) :=
  ⟨h.closed, h.requests, h.seen⟩

theorem SameAsks.replied (h : l.SameAsks l') (status : Status) (o : Except Failure Unit) :
    l.SameAsks (l'.record (.replied status o)) :=
  ⟨h.closed, h.requests, h.seen⟩

theorem sameAsks_work (h : l.work? j now = some l') : l.SameAsks l' := by
  unfold work? at h
  split at h
  · cases h
  · split at h
    · split at h
      · obtain rfl := Option.some.inj h
        exact (sameAsks_reply l _ _ _ _).setJob _ _
      · cases h
    · obtain rfl := Option.some.inj h
      exact (sameAsks_letGo l _).setJob _ _
    · obtain rfl := Option.some.inj h
      exact ((sameAsks_reply l _ _ _ _).replied _ _).setJob _ _
    · cases h

theorem sameAsks_proceed (h : l.proceed? k now = some l') : l.SameAsks l' := by
  obtain ⟨c, o, -, -, rfl⟩ := proceed_eq h
  refine sameAsks_change ?_ l k
  exact fun _ => rfl

/-! ## A call begins -/

/-- The call waits in the table before its request is handed over. -/
def listed (l : LocalLink) (now : Nat) (k : CallKey) (r : Request) (n : Nat) : LocalLink :=
  { l with calls := l.calls.insert k ⟨r, n, .empty, .waiting (now + n)⟩ }

theorem begin_eq (hopen : l.closed = false) (hadapted : ∀ s h, handlers.get? s = some h → h.Adapted)
    (now : Nat) (k : CallKey) (r : Request) (n : Nat) :
    (handlers.get? r.subject = none ∧ l.begin handlers now k r n =
      (l.listed now k r n).change k (·.fill (.error (.noRemoteHandler r.subject)))) ∨
    ∃ h ms effort, handlers.get? r.subject = some h ∧ h.react r = .works ms effort ∧
      l.begin handlers now k r n =
        ((l.listed now k r n).record (.invoked h.label r)).addJob r (.call k) (.working (now + ms) effort) := by
  have hbegin : l.begin handlers now k r n = (l.listed now k r n).dispatch handlers now r (.call k) := by
    unfold LocalLink.begin
    rw [if_neg (by simp [hopen])]
    rfl
  rw [hbegin]
  unfold LocalLink.dispatch
  cases hh : handlers.get? r.subject with
  | none =>
    refine .inl ⟨rfl, ?_⟩
    have hwaits : ((((l.listed now k r n).calls.get? k).map Call.isOpen).getD false) = true := by
      rw [show (l.listed now k r n).calls.get? k = some ⟨r, n, .empty, .waiting (now + n)⟩ from
        Table.get?_insert_self _ _ _]
      rfl
    dsimp only
    unfold reply
    dsimp only
    rw [if_neg Bool.false_ne_true, if_pos hwaits]
    rfl
  | some h =>
    obtain ⟨ms, effort, hworks⟩ := Handler.works_of_adapted (hadapted _ h hh) r
    refine .inr ⟨h, ms, effort, rfl, hworks, ?_⟩
    dsimp only
    rw [hworks]

theorem get?_listed (l : LocalLink) (now : Nat) (k : CallKey) (r : Request) (n : Nat) (k' : CallKey) :
    (l.listed now k r n).calls.get? k' =
      if k' = k then some ⟨r, n, .empty, .waiting (now + n)⟩ else l.calls.get? k' :=
  Table.get?_insert _ _ _ _

/-! ## What always holds -/

/-- Every job replies to a call that is there, and handlers have seen only what was asked. -/
structure Tidy (l : LocalLink) : Prop where
  unclosed : l.closed = false
  fresh : ∀ j job, l.jobs.get? j = some job → j < l.nextJob
  sinks : ∀ j job k, l.jobs.get? j = some job → job.sink = .call k → ∃ r, l.request? k = some r
  logged : ∀ id, l.log.filter (·.concerns id) ≠ [] → ∃ k r, l.request? k = some r ∧ r.id = id

theorem tidy_start : start.Tidy where
  unclosed := rfl
  fresh j job h := by simp [start] at h
  sinks j job k h := by simp [start] at h
  logged id h := by simp [start] at h

theorem Tidy.sameAsks (h : l.Tidy) (hs : l.SameAsks l') (hnext : l'.nextJob = l.nextJob)
    (hjobs : ∀ j job, l'.jobs.get? j = some job → ∃ job', l.jobs.get? j = some job' ∧ job.sink = job'.sink) :
    l'.Tidy where
  unclosed := hs.closed.trans h.unclosed
  fresh j job hj := by
    obtain ⟨job', hj', -⟩ := hjobs j job hj
    rw [hnext]
    exact h.fresh j job' hj'
  sinks j job k hj hsink := by
    obtain ⟨job', hj', hsame⟩ := hjobs j job hj
    rw [hs.requests]
    exact h.sinks j job' k hj' (hsame.symm.trans hsink)
  logged id hid := by
    rw [hs.seen] at hid
    obtain ⟨k, r, hk, hr⟩ := h.logged id hid
    exact ⟨k, r, by rw [hs.requests, hk], hr⟩

theorem Tidy.work (h : l.Tidy) (hwork : l.work? j now = some l') : l'.Tidy := by
  obtain ⟨job, hworks⟩ := works_work hwork
  refine h.sameAsks (sameAsks_work hwork) hworks.nextJob fun j' job' hj' => ?_
  by_cases hj : j' = j
  · subst hj
    exact ⟨job, hworks.was, hworks.sink job' hj'⟩
  · rw [hworks.jobs j' hj] at hj'
    exact ⟨job', hj', rfl⟩

theorem Tidy.proceed (h : l.Tidy) (hproceed : l.proceed? k now = some l') : l'.Tidy := by
  have hsame := sameAsks_proceed hproceed
  obtain ⟨c, o, -, -, rfl⟩ := proceed_eq hproceed
  exact h.sameAsks hsame rfl fun j job hj => ⟨job, hj, rfl⟩

theorem values_of_isFresh {id : UInt64} (h : l.isFresh k id = true) :
    l.calls.get? k = none ∧ ∀ k' r, l.request? k' = some r → r.id ≠ id := by
  simp only [isFresh, Bool.and_eq_true, Option.isNone_iff_eq_none, List.all_eq_true, bne_iff_ne] at h
  refine ⟨h.1, fun k' r hr => ?_⟩
  obtain ⟨call, hcall, rfl⟩ := Option.map_eq_some_iff.mp hr
  exact h.2 call (List.mem_map.mpr ⟨(k', call), Table.mem_of_lookup hcall, rfl⟩)

/-- What a call that begins changes. -/
structure Begun (handlers : Handlers) (l : LocalLink) (k : CallKey) (r : Request) (l' : LocalLink) : Prop where
  closed : l'.closed = l.closed
  others : ∀ k', k' ≠ k → l'.calls.get? k' = l.calls.get? k'
  asks : l'.request? k = some r
  seen : ∀ id, l'.log.filter (·.concerns id) =
    (if r.id = id then seen handlers r else []) ++ l.log.filter (·.concerns id)
  nextJob : l.nextJob ≤ l'.nextJob
  jobs : ∀ j, j < l.nextJob → l'.jobs.get? j = l.jobs.get? j
  new : ∀ j job, l'.jobs.get? j = some job →
    l.jobs.get? j = some job ∨ j < l'.nextJob ∧ job.sink = .call k

theorem begun_begin (hopen : l.closed = false) (hadapted : ∀ s h, handlers.get? s = some h → h.Adapted)
    (now : Nat) (k : CallKey) (r : Request) (n : Nat) : Begun handlers l k r (l.begin handlers now k r n) := by
  rcases begin_eq hopen hadapted now k r n with ⟨hnone, he⟩ | ⟨h, ms, effort, hh, -, he⟩
  · rw [he]
    refine ⟨rfl, fun k' hk' => ?_, ?_, fun id => ?_, Nat.le_refl _, fun _ _ => rfl, fun j job hj => .inl hj⟩
    · rw [get?_change, if_neg hk', get?_listed, if_neg hk']
    · rw [request?, get?_change, if_pos rfl, get?_listed, if_pos rfl, Option.map_some, Option.map_some,
        Call.request_fill]
    · rw [Messaging.seen, hnone]
      simp only [Option.map_none, Option.toList_none, ite_self, List.nil_append]
      rfl
  · rw [he]
    have hget : ∀ j, (((l.listed now k r n).record (.invoked h.label r)).addJob r (.call k)
        (.working (now + ms) effort)).jobs.get? j =
          if j = l.nextJob then some ⟨r, .call k, false, .working (now + ms) effort⟩ else l.jobs.get? j :=
      fun j => Table.get?_insert _ _ _ _
    refine ⟨rfl, fun k' hk' => ?_, ?_, fun id => ?_, Nat.le_succ _, fun j hj => ?_, fun j job hj => ?_⟩
    · exact (get?_listed l now k r n k').trans (if_neg hk')
    · change ((l.listed now k r n).calls.get? k).map Call.request = some r
      rw [get?_listed, if_pos rfl]
      rfl
    · change (Event.invoked h.label r :: l.log).filter _ = _
      rw [Messaging.seen, hh]
      by_cases hid : r.id = id
      · simp [Event.concerns, hid]
      · simp [Event.concerns, hid]
    · rw [hget, if_neg (Nat.ne_of_lt hj)]
    · rw [hget] at hj
      split at hj
      · rename_i heq
        obtain rfl := Option.some.inj hj
        exact .inr ⟨heq ▸ Nat.lt_succ_self _, rfl⟩
      · exact .inl hj

theorem Tidy.begun (h : l.Tidy) (hb : Begun handlers l k r l') (hk : l.calls.get? k = none) : l'.Tidy := by
  have hkept : ∀ k' r', l.request? k' = some r' → l'.request? k' = some r' := by
    intro k' r' hk'
    rw [request?, hb.others]
    · exact hk'
    · rintro rfl
      rw [request?, hk] at hk'
      cases hk'
  refine ⟨hb.closed.trans h.unclosed, fun j job hj => ?_, fun j job k' hj hsink => ?_, fun id hid => ?_⟩
  · rcases hb.new j job hj with hj | ⟨hlt, -⟩
    · exact Nat.lt_of_lt_of_le (h.fresh j job hj) hb.nextJob
    · exact hlt
  · rcases hb.new j job hj with hj | ⟨-, hnew⟩
    · obtain ⟨r', hr'⟩ := h.sinks j job k' hj hsink
      exact ⟨r', hkept k' r' hr'⟩
    · obtain rfl := Sink.call.inj (hnew.symm.trans hsink)
      exact ⟨r, hb.asks⟩
  · by_cases hr : r.id = id
    · exact ⟨k, r, hb.asks, hr⟩
    · rw [hb.seen, if_neg hr, List.nil_append] at hid
      obtain ⟨k', r', hk', hr'⟩ := h.logged id hid
      exact ⟨k', r', hkept k' r' hk', hr'⟩

/-! ## The call -/

/-- Where the errand is, when time may lag by so much. The caller waits until after the reply can be
there. -/
inductive NearCourse (handlers : Handlers) (e : Errand) (lag now : Nat) (l : LocalLink) : Prop where
  | working (j : JobKey) (ready due : Nat) (effort : Effort)
      (job : l.jobs.get? j = some ⟨e.request, .call e.call, false, .working ready effort⟩)
      (call : l.calls.get? e.call = some ⟨e.request, e.patience, .empty, .waiting due⟩)
      (alone : ∀ j' job, l.jobs.get? j' = some job → job.sink = .call e.call → j' = j)
      (time : max now ready + lag < due)
      (deserved : Deserves handlers e.request (effort.verdict e.request.subject))
  | told (a : Call) (o : Outcome) (call : l.calls.get? e.call = some a) (request : a.request = e.request)
      (deserved : Deserves handlers e.request o)
      (state : (a.slot = .filled o ∧ ∃ due, a.progress = .waiting due) ∨ a.progress = .over o)

theorem NearCourse.request? (h : l.NearCourse handlers e lag now) : l.request? e.call = some e.request := by
  cases h with
  | working _ _ _ _ _ call _ _ _ => exact request?_of_get? call
  | told a o call request _ _ => rw [request?_of_get? call, request]

theorem nearCourse_begin (h : l.Tidy) (hadapted : ∀ s h, handlers.get? s = some h → h.Adapted)
    (hk : l.calls.get? e.call = none) (hwork : Lasts handlers e.request e.work)
    (hshort : e.work + lag < e.patience) (now : Nat) :
    (l.begin handlers now e.call e.request e.patience).NearCourse handlers e lag now := by
  rcases begin_eq h.unclosed hadapted now e.call e.request e.patience with
    ⟨hnone, he⟩ | ⟨g, ms, effort, hg, hworks, he⟩
  · rw [he]
    refine .told ⟨e.request, e.patience, .filled (.error (.noRemoteHandler e.request.subject)),
      .waiting (now + e.patience)⟩ _ ?_ rfl ?_ (.inl ⟨rfl, _, rfl⟩)
    · rw [get?_change, if_pos rfl, get?_listed, if_pos rfl]
      rfl
    · rw [Deserves, hnone]
  · rw [he]
    have hget : ∀ j, (((l.listed now e.call e.request e.patience).record (.invoked g.label e.request)).addJob
        e.request (.call e.call) (.working (now + ms) effort)).jobs.get? j =
          if j = l.nextJob then some ⟨e.request, .call e.call, false, .working (now + ms) effort⟩
          else l.jobs.get? j := fun j => Table.get?_insert _ _ _ _
    have hms := hwork g ms effort hg hworks
    refine .working l.nextJob (now + ms) (now + e.patience) effort ?_ ?_ (fun j' job hj' hsink => ?_) (by omega) ?_
    · rw [hget, if_pos rfl]
    · exact (get?_listed l now e.call e.request e.patience e.call).trans (if_pos rfl)
    · rw [hget] at hj'
      split at hj'
      · assumption
      · obtain ⟨r', hr'⟩ := h.sinks j' job e.call hj' hsink
        rw [LocalLink.request?, hk] at hr'
        cases hr'
    · rw [Deserves, hg]
      exact ⟨ms, effort, hworks, rfl⟩

theorem NearCourse.begun (h : l.NearCourse handlers e lag now) (ht : l.Tidy) (hb : Begun handlers l k r l')
    (hne : e.call ≠ k) : l'.NearCourse handlers e lag now := by
  cases h with
  | working j ready due effort job call alone time deserved =>
    refine .working j ready due effort ?_ ?_ (fun j' job' hj' hsink => ?_) time deserved
    · rw [hb.jobs j (ht.fresh j _ job), job]
    · rw [hb.others _ hne, call]
    · rcases hb.new j' job' hj' with hj' | ⟨-, hnew⟩
      · exact alone j' job' hj' hsink
      · exact absurd (Sink.call.inj (hsink.symm.trans hnew)) hne
  | told a o call request deserved state =>
    exact .told a o (by rw [hb.others _ hne, call]) request deserved state

theorem NearCourse.work (h : l.NearCourse handlers e lag now) (hwork : l.work? j now = some l') :
    l'.NearCourse handlers e lag now := by
  obtain ⟨done, hworks⟩ := works_work hwork
  have hsame := (sameAsks_work hwork).requests e.call
  cases h with
  | working i ready due effort job call alone time deserved =>
    by_cases hj : j = i
    · subst hj
      obtain ⟨-, hfilled⟩ := filled_of_work job call hwork
      rw [outcomeOf_effort] at hfilled
      exact .told _ _ hfilled rfl deserved (.inl ⟨rfl, due, rfl⟩)
    · -- Another job replies to another call.
      have hsink : done.sink ≠ .call e.call := fun heq => hj (alone j done hworks.was heq)
      refine .working i ready due effort ?_ ?_ (fun j' job' hjob' heq => ?_) time deserved
      · rw [hworks.jobs _ (Ne.symm hj), job]
      · rw [hworks.others _ hsink, call]
      · by_cases hj' : j' = j
        · subst hj'
          rw [hworks.sink job' hjob'] at heq
          exact absurd heq hsink
        · rw [hworks.jobs j' hj'] at hjob'
          exact alone j' job' hjob' heq
  | told a o call request deserved state =>
    obtain ⟨a', ha', hholds⟩ := hworks.calls e.call a call
    have hrequest : a'.request = e.request := by
      rw [request?_of_get? ha', request?_of_get? call] at hsame
      exact (Option.some.inj hsame).trans request
    refine .told a' o ha' hrequest deserved ?_
    rcases state with ⟨hslot, due, hwaiting⟩ | hover
    · obtain rfl := hholds.slot o hslot
      exact .inl ⟨hslot, due, hwaiting⟩
    · exact .inr (hholds.progress.trans hover)

theorem NearCourse.proceed (h : l.NearCourse handlers e lag now) (hproceed : l.proceed? k now = some l') :
    l'.NearCourse handlers e lag now := by
  obtain ⟨c, o', hc, hlook, rfl⟩ := proceed_eq hproceed
  by_cases hk : e.call = k
  · subst hk
    cases h with
    | working j ready due effort job call alone time deserved =>
      obtain rfl := Option.some.inj (hc.symm.trans call)
      unfold Call.look? at hlook
      dsimp only at hlook
      rw [if_neg (by omega)] at hlook
      cases hlook
    | told a o call request deserved state =>
      obtain rfl := Option.some.inj (hc.symm.trans call)
      rcases state with ⟨hslot, due, hwaiting⟩ | hover
      · unfold Call.look? at hlook
        rw [hwaiting, hslot] at hlook
        obtain rfl := Option.some.inj hlook
        refine .told { c with progress := .over o } o ?_ request deserved (.inr rfl)
        rw [get?_change, if_pos rfl, hc]
        rfl
      · unfold Call.look? at hlook
        rw [hover] at hlook
        cases hlook
  · have hcall : (l.change k fun c => { c with progress := .over o' }).calls.get? e.call = l.calls.get? e.call := by
      rw [get?_change, if_neg hk]
    cases h with
    | working j ready due effort job call alone time deserved =>
      exact .working j ready due effort job (hcall.trans call) alone time deserved
    | told a o call request deserved state => exact .told a o (hcall.trans call) request deserved state

/-! ## The run -/

/-- The errand is on its course, its handler has seen it once, and there is enough time for it. -/
structure NearUnderway (handlers : Handlers) (e : Errand) (lag now : Nat) (l : LocalLink) : Prop where
  short : e.work + lag < e.patience
  tidy : l.Tidy
  course : l.NearCourse handlers e lag now
  seen : l.log.filter (·.concerns e.request.id) = seen handlers e.request

theorem NearUnderway.asks (h : l.NearUnderway handlers e lag now) (hs : l.SameAsks l') (ht : l'.Tidy)
    (hcourse : l'.NearCourse handlers e lag now) : l'.NearUnderway handlers e lag now :=
  ⟨h.short, ht, hcourse, (hs.seen _).trans h.seen⟩

theorem keeps_nearUnderway (hadapted : ∀ s h, handlers.get? s = some h → h.Adapted) :
    (timing handlers).Keeps (fun _ => True) (NearUnderway handlers e) where
  act {lag now l a} h _ htime := by
    cases a with
    | begins now' k r n =>
      obtain rfl := htime now' rfl
      change (if l.isFresh k r.id then l.begin handlers now' k r n else l).NearUnderway handlers e lag now'
      split
      · rename_i hfresh
        obtain ⟨hk, hid⟩ := values_of_isFresh hfresh
        have hbegun := begun_begin h.tidy.unclosed hadapted now' k r n
        have hasked := h.course.request?
        have hne : e.call ≠ k := by
          rintro rfl
          rw [LocalLink.request?, hk] at hasked
          cases hasked
        refine ⟨h.short, h.tidy.begun hbegun hk, h.course.begun h.tidy hbegun hne, ?_⟩
        rw [hbegun.seen, if_neg (Ne.symm (hid e.call e.request hasked)), List.nil_append]
        exact h.seen
      · exact h
    | works now' j =>
      obtain rfl := htime now' rfl
      change ((l.work? j now').getD l).NearUnderway handlers e lag now'
      cases hwork : l.work? j now' with
      | none => exact h
      | some l' => exact h.asks (sameAsks_work hwork) (h.tidy.work hwork) (h.course.work hwork)
    | proceeds now' k =>
      obtain rfl := htime now' rfl
      change ((l.proceed? k now').getD l).NearUnderway handlers e lag now'
      cases hproceed : l.proceed? k now' with
      | none => exact h
      | some l' =>
        exact h.asks (sameAsks_proceed hproceed) (h.tidy.proceed hproceed) (h.course.proceed hproceed)
  waits {lag now later l} h _ hforward hsoon := by
    refine ⟨h.short, h.tidy, ?_, h.seen⟩
    -- The end of the work is one of the dues, so it is not behind when the time goes on.
    cases h.course with
    | working j ready due effort job call alone time deserved =>
      have hready : later ≤ ready := by
        apply hsoon
        refine List.mem_append_left _
          (List.mem_filterMap.mpr ⟨⟨e.request, .call e.call, false, .working ready effort⟩, ?_, rfl⟩)
        exact List.mem_map.mpr ⟨(j, _), Table.mem_of_lookup job, rfl⟩
      exact .working j ready due effort job call alone (by omega) deserved
    | told a o call request deserved state => exact .told a o call request deserved state
  lags {lag now d l} h := by
    have hshort := h.short
    refine ⟨by omega, h.tidy, ?_, h.seen⟩
    cases h.course with
    | working j ready due effort job call alone time deserved =>
      exact .working j ready due effort job call alone (by omega) deserved
    | told a o call request deserved state => exact .told a o call request deserved state

/-- When nothing can move any more, the call is over. -/
theorem NearUnderway.over (h : l.NearUnderway handlers e lag now) (hfinal : l.Final) :
    ∃ a o, l.calls.get? e.call = some a ∧ a.outcome? = some o ∧ Deserves handlers e.request o := by
  cases h.course with
  | working j ready due effort job call alone time deserved =>
    exact absurd ((hfinal ready).idle.early job rfl) (Nat.lt_irrefl ready)
  | told a o call request deserved state =>
    refine ⟨a, o, call, ?_, deserved⟩
    rcases state with ⟨hslot, due, hwaiting⟩ | hover
    · have hlook := (hfinal now).look? call
      unfold Call.look? at hlook
      rw [hwaiting, hslot] at hlook
      cases hlook
    · rw [Call.outcome?, hover]

theorem Tidy.act (h : l.Tidy) (hadapted : ∀ s h, handlers.get? s = some h → h.Adapted) (a : LocalAct) :
    (l.act handlers a).Tidy := by
  cases a with
  | begins now k r n =>
    change (if l.isFresh k r.id then l.begin handlers now k r n else l).Tidy
    split
    · rename_i hfresh
      exact h.begun (begun_begin h.unclosed hadapted now k r n) (values_of_isFresh hfresh).1
    · exact h
  | works now j =>
    change ((l.work? j now).getD l).Tidy
    cases hwork : l.work? j now with
    | none => exact h
    | some l' => exact h.work hwork
  | proceeds now k =>
    change ((l.proceed? k now).getD l).Tidy
    cases hproceed : l.proceed? k now with
    | none => exact h
    | some l' => exact h.proceed hproceed

theorem Tidy.run (h : l.Tidy) (hadapted : ∀ s h, handlers.get? s = some h → h.Adapted) (acts : List LocalAct) :
    (l.run handlers acts).Tidy := by
  induction acts generalizing l with
  | nil => exact h
  | cons a acts ih => exact ih (h.act hadapted a)

theorem nearUnderway_begin (h : l.Tidy) (hadapted : ∀ s h, handlers.get? s = some h → h.Adapted)
    (hfresh : l.isFresh e.call e.request.id = true) (hwork : Lasts handlers e.request e.work)
    (hshort : e.work + lag < e.patience) (now : Nat) :
    (l.act handlers (.begins now e.call e.request e.patience)).NearUnderway handlers e lag now := by
  change (if l.isFresh e.call e.request.id then l.begin handlers now e.call e.request e.patience else l).NearUnderway
    handlers e lag now
  rw [if_pos hfresh]
  obtain ⟨hk, hid⟩ := values_of_isFresh hfresh
  have hbegun := begun_begin h.unclosed hadapted now e.call e.request e.patience
  refine ⟨hshort, h.begun hbegun hk, nearCourse_begin h hadapted hk hwork hshort now, ?_⟩
  have hunseen : l.log.filter (·.concerns e.request.id) = [] := by
    by_contra hseen
    obtain ⟨k, r, hr, heq⟩ := h.logged _ hseen
    exact hid k r hr heq
  rw [hbegun.seen, if_pos rfl, hunseen, List.append_nil]

end LocalLink

end ClusterNet.Messaging
