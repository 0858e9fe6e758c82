import ClusterNet.Messaging.Local
import ClusterNet.Proofs.Calls

/-!
# A call within a node and its job

A call that works through a handler has one job, which gives it its outcome. Nothing else on the link
comes between the two, and the caller is told of a timeout only if the work takes too long.
-/

namespace ClusterNet.Messaging

open Wire

/-- What a caller has been promised. -/
structure Pledge where
  call : CallKey
  job : JobKey
  request : Request
  patience : Nat
  /-- When the work is done. -/
  ready : Nat
  /-- When the caller gives up. -/
  due : Nat
  effort : Effort

namespace Pledge

def answer (p : Pledge) : Outcome :=
  outcomeOf p.request.subject ⟨p.request.id, p.effort.reply.1, p.effort.reply.2⟩

/-- What the call comes to. -/
def outcome (p : Pledge) : Outcome :=
  if p.ready ≤ p.due then p.answer else .error (.timeout p.request.subject p.patience)

end Pledge

/-- A call goes on as before: its state is the same, and so is what it has been given. -/
structure Call.Holds (c c' : Call) : Prop where
  progress : c'.progress = c.progress
  slot : ∀ o, c.slot = .filled o → c' = c

theorem Call.holds_refl (c : Call) : c.Holds c := ⟨rfl, fun _ _ => rfl⟩

theorem Call.holds_fill (c : Call) (o : Outcome) : c.Holds (c.fill o) := by
  refine ⟨Call.progress_fill c o, ?_⟩
  intro o' ho
  unfold fill
  rw [ho]

theorem Call.holds_lose (c : Call) : c.Holds c.lose := by
  refine ⟨Call.progress_lose c, ?_⟩
  intro o ho
  unfold lose
  rw [ho]

namespace LocalLink

variable {l l' : LocalLink} {p : Pledge} {now later : Nat} {k : CallKey} {j : JobKey} {job : LocalJob}
  {sink : Sink}

/-! ## Steps of a link -/

theorem get?_change (l : LocalLink) (k k' : CallKey) (f : Call → Call) :
    (l.change k f).calls.get? k' = if k' = k then (l.calls.get? k').map f else l.calls.get? k' :=
  Table.get?_modify l.calls k k' f

/-- One call of a link has changed at most. -/
structure Touches (l l' : LocalLink) (sink : Sink) : Prop where
  jobs : l'.jobs = l.jobs
  nextJob : l'.nextJob = l.nextJob
  calls : ∀ k c, l.calls.get? k = some c → ∃ c', l'.calls.get? k = some c' ∧ c.Holds c'
  others : ∀ k, sink ≠ .call k → l'.calls.get? k = l.calls.get? k

theorem touches_refl (l : LocalLink) (sink : Sink) : Touches l l sink where
  jobs := rfl
  nextJob := rfl
  calls _ c hc := ⟨c, hc, Call.holds_refl c⟩
  others _ _ := rfl

theorem touches_change {f : Call → Call} (hf : ∀ c : Call, c.Holds (f c)) (l : LocalLink) (k : CallKey) :
    Touches l (l.change k f) (.call k) where
  jobs := rfl
  nextJob := rfl
  calls k' c hc := by
    rw [get?_change]
    split
    · exact ⟨f c, by rw [hc, Option.map_some], hf c⟩
    · exact ⟨c, hc, Call.holds_refl c⟩
  others k' hne := by
    rw [get?_change, if_neg]
    rintro rfl
    exact hne rfl

theorem touches_reply (l : LocalLink) (r : Request) (sink : Sink) (used : Bool) (x : Status × Bytes) :
    Touches l (l.reply r sink used x).2 sink := by
  unfold reply
  split
  · exact touches_refl l _
  · split
    · exact touches_refl l _
    · split
      · exact touches_change (fun c => Call.holds_fill c _) l _
      · exact touches_refl l _

theorem touches_letGo (l : LocalLink) (sink : Sink) : Touches l (l.letGo sink) sink := by
  unfold letGo
  split
  · exact touches_change Call.holds_lose l _
  · exact touches_refl l _

theorem Touches.record (h : Touches l l' sink) (e : Event) : Touches l (l'.record e) sink :=
  ⟨h.jobs, h.nextJob, h.calls, h.others⟩

/-- A job has gone on. -/
structure Works (l l' : LocalLink) (j : JobKey) (job : LocalJob) : Prop where
  was : l.jobs.get? j = some job
  nextJob : l'.nextJob = l.nextJob
  jobs : ∀ j', j' ≠ j → l'.jobs.get? j' = l.jobs.get? j'
  sink : ∀ job', l'.jobs.get? j = some job' → job'.sink = job.sink
  calls : ∀ k c, l.calls.get? k = some c → ∃ c', l'.calls.get? k = some c' ∧ c.Holds c'
  others : ∀ k, job.sink ≠ .call k → l'.calls.get? k = l.calls.get? k

theorem Touches.works (h : Touches l l' job.sink) (hjob : l.jobs.get? j = some job) {f : LocalJob → LocalJob}
    (hf : ∀ x, (f x).sink = x.sink) : Works l (l'.setJob j f) j job where
  was := hjob
  nextJob := h.nextJob
  jobs j' hne := by
    change (l'.jobs.modify j f).get? j' = _
    rw [Table.get?_modify, if_neg hne, h.jobs]
  sink job' hjob' := by
    change (l'.jobs.modify j f).get? j = some job' at hjob'
    rw [Table.get?_modify, if_pos rfl, h.jobs, hjob, Option.map_some] at hjob'
    rw [← Option.some.inj hjob', hf]
  calls := h.calls
  others := h.others

theorem works_work (h : l.work? j now = some l') : ∃ job, Works l l' j job := by
  unfold work? at h
  split at h
  · cases h
  · rename_i job hjob
    refine ⟨job, ?_⟩
    split at h
    · split at h
      · obtain rfl := Option.some.inj h
        exact (touches_reply l _ _ _ _).works hjob fun _ => rfl
      · cases h
    · obtain rfl := Option.some.inj h
      exact (touches_letGo l _).works hjob fun _ => rfl
    · obtain rfl := Option.some.inj h
      exact ((touches_reply l _ _ _ _).record _).works hjob fun _ => rfl
    · cases h

theorem proceed_eq (h : l.proceed? k now = some l') : ∃ c o, l.calls.get? k = some c ∧
    c.look? now = some o ∧ l' = l.change k fun c => { c with progress := .over o } := by
  unfold proceed? at h
  simp only [Option.bind_eq_bind, Option.bind_eq_some_iff] at h
  obtain ⟨c, hc, o, ho, heq⟩ := h
  exact ⟨c, o, hc, ho, (Option.some.inj heq).symm⟩

/-! ## The promise -/

/-- A promise is kept so far. -/
inductive Stands (p : Pledge) (now : Nat) (l : LocalLink) : Prop where
  /-- The job is at work, and nobody else replies to the call. -/
  | working (job : l.jobs.get? p.job = some ⟨p.request, .call p.call, false, .working p.ready p.effort⟩)
      (call : l.calls.get? p.call = some ⟨p.request, p.patience, .empty, .waiting p.due⟩)
      (alone : ∀ j job, l.jobs.get? j = some job → job.sink = .call p.call → j = p.job)
      (fresh : p.job < l.nextJob) (ready : now ≤ p.ready) (due : now ≤ p.due)
  /-- The reply is there, and the caller has not looked yet. -/
  | replied (call : l.calls.get? p.call = some ⟨p.request, p.patience, .filled p.answer, .waiting p.due⟩)
      (timely : p.ready ≤ p.due)
  | ended (c : Call) (call : l.calls.get? p.call = some c) (progress : c.progress = .over p.outcome)

theorem Stands.touches (h : Stands p now l) (h' : Touches l l' .nobody) : Stands p now l' := by
  have hcall : l'.calls.get? p.call = l.calls.get? p.call := h'.others p.call Sink.noConfusion
  cases h with
  | working job call alone fresh ready due =>
    rw [← hcall] at call
    rw [← h'.jobs] at job alone
    rw [← h'.nextJob] at fresh
    exact .working job call alone fresh ready due
  | replied call timely => exact .replied (hcall.trans call) timely
  | ended c call progress => exact .ended c (hcall.trans call) progress

theorem Stands.addJob (h : Stands p now l) (r : Request) (stage : Stage) :
    Stands p now (l.addJob r .nobody stage) := by
  cases h with
  | working job call alone fresh ready due =>
    have hget (j : JobKey) : (l.addJob r .nobody stage).jobs.get? j =
        if j = l.nextJob then some ⟨r, .nobody, false, stage⟩ else l.jobs.get? j :=
      Table.get?_insert l.jobs l.nextJob j _
    refine .working ?_ call ?_ (Nat.lt_succ_of_lt fresh) ready due
    · rw [hget, if_neg (Nat.ne_of_lt fresh)]
      exact job
    · intro j job' hjob hsink
      rw [hget] at hjob
      split at hjob
      · obtain rfl := Option.some.inj hjob
        cases hsink
      · exact alone j job' hjob hsink
  | replied call timely => exact .replied call timely
  | ended c call progress => exact .ended c call progress

theorem Stands.dispatch (h : Stands p now l) (handlers : Handlers) (now' : Nat) (r : Request) :
    Stands p now (l.dispatch handlers now' r .nobody) := by
  have hrecord (e : Event) : Stands p now (l.record e) := h.touches ((touches_refl l .nobody).record e)
  unfold LocalLink.dispatch
  split
  · exact h.touches (touches_reply l r .nobody false _)
  · dsimp only
    split
    · exact (hrecord _).addJob r _
    · exact (hrecord _).addJob r _
    · exact hrecord _
    · exact hrecord _
    · exact hrecord _

theorem Stands.send (h : Stands p now l) (handlers : Handlers) (now' : Nat) (r : Request) :
    Stands p now (l.send handlers now' r).2 := by
  unfold LocalLink.send
  split
  · exact h
  · exact h.dispatch handlers now' r

theorem filled_of_work {r : Request} {n ready due : Nat} {effort : Effort}
    (hjob : l.jobs.get? j = some ⟨r, .call k, false, .working ready effort⟩)
    (hcall : l.calls.get? k = some ⟨r, n, .empty, .waiting due⟩) (h : l.work? j now = some l') :
    ready ≤ now ∧ l'.calls.get? k =
      some ⟨r, n, .filled (outcomeOf r.subject ⟨r.id, effort.reply.1, effort.reply.2⟩), .waiting due⟩ := by
  unfold work? at h
  rw [hjob] at h
  dsimp only at h
  split at h
  · rename_i hready
    obtain rfl := Option.some.inj h
    refine ⟨hready, ?_⟩
    have hopen : (((l.calls.get? k).map Call.isOpen).getD false) = true := by
      rw [hcall]
      rfl
    unfold reply
    dsimp only
    rw [if_neg Bool.false_ne_true, if_pos hopen]
    change (l.change k _).calls.get? k = _
    rw [get?_change, if_pos rfl, hcall]
    rfl
  · cases h

theorem replied_of_work (hjob : l.jobs.get? p.job = some ⟨p.request, .call p.call, false, .working p.ready p.effort⟩)
    (hcall : l.calls.get? p.call = some ⟨p.request, p.patience, .empty, .waiting p.due⟩)
    (hdue : now ≤ p.due) (h : l.work? p.job now = some l') : Stands p now l' := by
  obtain ⟨hready, hfilled⟩ := filled_of_work hjob hcall h
  exact .replied hfilled (Nat.le_trans hready hdue)

theorem Stands.work (h : Stands p now l) (hwork : l.work? j now = some l') : Stands p now l' := by
  obtain ⟨done, hworks⟩ := works_work hwork
  cases h with
  | working job call alone fresh ready due =>
    by_cases hj : j = p.job
    · subst hj
      exact replied_of_work job call due hwork
    · -- Another job replies to another call, and leaves this one as it is.
      have hsink : done.sink ≠ .call p.call := fun heq => hj (alone j done hworks.was heq)
      refine .working ?_ ?_ ?_ ?_ ready due
      · rw [hworks.jobs _ (Ne.symm hj), job]
      · rw [hworks.others _ hsink, call]
      · intro j' job' hjob' heq
        by_cases hj' : j' = j
        · subst hj'
          rw [hworks.sink job' hjob'] at heq
          exact absurd heq hsink
        · rw [hworks.jobs j' hj'] at hjob'
          exact alone j' job' hjob' heq
      · rw [hworks.nextJob]
        exact fresh
  | replied call timely =>
    obtain ⟨c', hc', hholds⟩ := hworks.calls p.call _ call
    obtain rfl := hholds.slot _ rfl
    exact .replied hc' timely
  | ended c call progress =>
    obtain ⟨c', hc', hholds⟩ := hworks.calls p.call c call
    exact .ended c' hc' (hholds.progress.trans progress)

/-- No job of the link can go on now. -/
def Idle (l : LocalLink) (now : Nat) : Prop := ∀ j, l.work? j now = none

theorem Idle.early (hidle : l.Idle now) (hjob : l.jobs.get? j = some job) {ready : Nat} {effort : Effort}
    (hstage : job.stage = .working ready effort) : now < ready := by
  by_contra hnot
  have hwork := hidle j
  unfold work? at hwork
  rw [hjob] at hwork
  dsimp only at hwork
  rw [hstage] at hwork
  dsimp only at hwork
  rw [if_pos (Nat.le_of_not_lt hnot)] at hwork
  cases hwork

/-- A caller looks only when no job can go on, so that it finds whatever is there by now. -/
theorem Stands.proceed (h : Stands p now l) (hidle : l.Idle now) (hproceed : l.proceed? k now = some l') :
    Stands p now l' := by
  obtain ⟨c, o, hc, ho, rfl⟩ := proceed_eq hproceed
  by_cases hk : k = p.call
  · subst hk
    have hover (heq : o = p.outcome) : Stands p now (l.change p.call fun c => { c with progress := .over o }) := by
      refine .ended { c with progress := .over o } ?_ (by rw [heq])
      rw [get?_change, if_pos rfl, hc, Option.map_some]
    apply hover
    cases h with
    | working job call alone fresh ready due =>
      -- The job would go on if it were done by now, so it is the time of the caller that is up.
      have hlate := hidle.early job rfl
      obtain rfl := Option.some.inj (hc.symm.trans call)
      unfold Call.look? at ho
      dsimp only at ho
      split at ho
      · rename_i hdue
        rw [← Option.some.inj ho, Pledge.outcome, if_neg (by omega)]
      · cases ho
    | replied call timely =>
      obtain rfl := Option.some.inj (hc.symm.trans call)
      rw [Pledge.outcome, if_pos timely]
      exact (Option.some.inj ho).symm
    | ended c' call progress =>
      obtain rfl := Option.some.inj (hc.symm.trans call)
      unfold Call.look? at ho
      rw [progress] at ho
      cases ho
  · have hcall : (l.change k fun c => { c with progress := .over o }).calls.get? p.call = l.calls.get? p.call := by
      rw [get?_change, if_neg (Ne.symm hk)]
    cases h with
    | working job call alone fresh ready due =>
      exact .working job (hcall.trans call) alone fresh ready due
    | replied call timely => exact .replied (hcall.trans call) timely
    | ended c' call progress => exact .ended c' (hcall.trans call) progress

/-! ## Waiting -/

/-- No job and no call of the link can go on now. -/
structure Rests (l : LocalLink) (now : Nat) : Prop where
  idle : l.Idle now
  calls : ∀ k, l.proceed? k now = none

theorem Rests.look? (h : l.Rests now) {c : Call} (hc : l.calls.get? k = some c) : c.look? now = none := by
  have hproceed := h.calls k
  unfold proceed? at hproceed
  rw [hc] at hproceed
  cases hlook : c.look? now with
  | none => rfl
  | some o => simp [hlook] at hproceed

/-- On a link at rest a call is over, or it waits for its job, and its time has not come yet. -/
theorem Stands.rests (h : Stands p now l) (hrests : l.Rests now) :
    (∃ c, l.calls.get? p.call = some c ∧ c.outcome? = some p.outcome) ∨
    (now < p.ready ∧ now < p.due ∧
      l.jobs.get? p.job = some ⟨p.request, .call p.call, false, .working p.ready p.effort⟩ ∧
      l.calls.get? p.call = some ⟨p.request, p.patience, .empty, .waiting p.due⟩) := by
  cases h with
  | working job call alone fresh ready due =>
    refine .inr ⟨hrests.idle.early job rfl, ?_, job, call⟩
    by_contra hnot
    have hlook := hrests.look? call
    unfold Call.look? at hlook
    dsimp only at hlook
    rw [if_pos (Nat.le_of_not_lt hnot)] at hlook
    cases hlook
  | replied call timely => cases hrests.look? call
  | ended c call progress =>
    refine .inl ⟨c, call, ?_⟩
    unfold Call.outcome?
    rw [progress]

theorem Stands.waits (h : Stands p now l) (hready : later ≤ p.ready) (hdue : later ≤ p.due) :
    Stands p later l := by
  cases h with
  | working job call alone fresh ready due => exact .working job call alone fresh hready hdue
  | replied call timely => exact .replied call timely
  | ended c call progress => exact .ended c call progress

theorem stands_begin (hopen : l.closed = false) (hnew : ∀ j job, l.jobs.get? j = some job → job.sink ≠ .call k)
    (handlers : Handlers) (r : Request) {handler : Handler} (hhandler : handlers.get? r.subject = some handler)
    {ms : Nat} {effort : Effort} (hreact : handler.react r = .works ms effort) (now patience : Nat) :
    Stands ⟨k, l.nextJob, r, patience, now + ms, now + patience, effort⟩ now
      (l.begin handlers now k r patience) := by
  unfold LocalLink.begin
  rw [hopen, if_neg Bool.false_ne_true]
  unfold LocalLink.dispatch
  rw [hhandler]
  dsimp only
  rw [hreact]
  have hget (j : JobKey) (job : LocalJob) : (l.jobs.insert l.nextJob job).get? j =
      if j = l.nextJob then some job else l.jobs.get? j := Table.get?_insert l.jobs l.nextJob j _
  refine .working (Table.get?_insert_self _ _ _) (Table.get?_insert_self _ _ _) ?_
    (Nat.lt_succ_self _) (Nat.le_add_right _ _) (Nat.le_add_right _ _)
  intro j job hjob hsink
  change (l.jobs.insert l.nextJob _).get? j = some job at hjob
  rw [hget] at hjob
  split at hjob
  · assumption
  · exact absurd hsink (hnew j job hjob)

end LocalLink

/-! ## What is left to do -/

/-- How many moves a job still makes. -/
def LocalJob.turns (j : LocalJob) : Nat :=
  match j.stage with
  | .working _ _ => 1
  | .turning rs => rs.length + 1
  | _ => 0

/-- A call that is open makes one more move. -/
def Call.turns (c : Call) : Nat := if c.isOpen then 1 else 0

theorem Call.turns_of_progress {c c' : Call} (h : c'.progress = c.progress) : c'.turns = c.turns := by
  unfold turns isOpen
  rw [h]

namespace LocalLink

variable {l l' : LocalLink} {now : Nat} {k : CallKey} {j : JobKey} {job : LocalJob} {sink : Sink}

/-- How many moves the jobs and calls of a link still make. -/
def load (l : LocalLink) : Nat := l.jobs.total LocalJob.turns + l.calls.total Call.turns

structure Orderly (l : LocalLink) : Prop where
  jobs : l.jobs.Distinct
  calls : l.calls.Distinct

/-- The calls of a link are as far as before. -/
structure Level (l l' : LocalLink) : Prop where
  jobs : l'.jobs = l.jobs
  calls : l'.calls.total Call.turns = l.calls.total Call.turns
  distinct : l.calls.Distinct → l'.calls.Distinct

theorem level_refl (l : LocalLink) : Level l l := ⟨rfl, rfl, id⟩

theorem level_change {f : Call → Call} (hf : ∀ c : Call, (f c).progress = c.progress) (l : LocalLink) (k : CallKey) :
    Level l (l.change k f) :=
  ⟨rfl, Table.total_modify_of_eq (fun c => Call.turns_of_progress (hf c)) l.calls k, fun h => h.modify k f⟩

theorem level_reply (l : LocalLink) (r : Request) (sink : Sink) (used : Bool) (x : Status × Bytes) :
    Level l (l.reply r sink used x).2 := by
  unfold reply
  split
  · exact level_refl l
  · split
    · exact level_refl l
    · split
      · exact level_change (fun c => Call.progress_fill c _) l _
      · exact level_refl l

theorem level_letGo (l : LocalLink) (sink : Sink) : Level l (l.letGo sink) := by
  unfold letGo
  split
  · exact level_change Call.progress_lose l _
  · exact level_refl l

theorem Level.record (h : Level l l') (e : Event) : Level l (l'.record e) := ⟨h.jobs, h.calls, h.distinct⟩

theorem Level.orderly (h : Level l l') (hl : l.Orderly) : l'.Orderly := by
  refine ⟨?_, h.distinct hl.calls⟩
  rw [h.jobs]
  exact hl.jobs

theorem Level.load (h : Level l l') : l'.load = l.load := by
  rw [LocalLink.load, LocalLink.load, h.jobs, h.calls]

/-- There is less to do on a link than before. -/
structure Eases (l l' : LocalLink) : Prop where
  load : l'.load < l.load
  orderly : l'.Orderly

theorem Level.eases (h : Level l l') (hl : l.Orderly) (hjob : l.jobs.get? j = some job) {f : LocalJob → LocalJob}
    (hf : (f job).turns < job.turns) : Eases l (l'.setJob j f) := by
  have hl' := h.orderly hl
  refine ⟨?_, hl'.jobs.modify j f, hl'.calls⟩
  have htotal := Table.total_insert hjob LocalJob.turns (f job)
  rw [← Table.modify_eq_insert hl.jobs hjob, ← h.jobs] at htotal
  have hcalls := h.calls
  have hjobs := congrArg (Table.total LocalJob.turns) h.jobs
  unfold LocalLink.load setJob
  dsimp only
  omega

theorem eases_work (hl : l.Orderly) (h : l.work? j now = some l') : Eases l l' := by
  unfold work? at h
  split at h
  · cases h
  · rename_i job hjob
    split at h
    · rename_i hstage
      split at h
      · obtain rfl := Option.some.inj h
        apply (level_reply l _ _ _ _).eases hl hjob
        simp [LocalJob.turns, hstage]
      · cases h
    · rename_i hstage
      obtain rfl := Option.some.inj h
      apply (level_letGo l _).eases hl hjob
      simp [LocalJob.turns, hstage]
    · rename_i hstage
      obtain rfl := Option.some.inj h
      apply ((level_reply l _ _ _ _).record _).eases hl hjob
      simp [LocalJob.turns, hstage]
    · cases h

theorem eases_proceed (hl : l.Orderly) (h : l.proceed? k now = some l') : Eases l l' := by
  obtain ⟨c, o, hc, ho, rfl⟩ := proceed_eq h
  refine ⟨?_, hl.jobs, hl.calls.modify k _⟩
  have hopen : c.turns = 1 := by
    unfold Call.look? at ho
    unfold Call.turns Call.isOpen
    split at ho
    · rename_i hprogress
      rw [hprogress]
      rfl
    · cases ho
  have htotal := Table.total_insert hc Call.turns { c with progress := .over o }
  rw [← Table.modify_eq_insert hl.calls hc fun c => { c with progress := .over o }] at htotal
  have hover : Call.turns { c with progress := .over o } = 0 := rfl
  unfold load change
  dsimp only
  omega

theorem level_send {handlers : Handlers} {r : Request}
    (h : ∀ handler, handlers.get? r.subject = some handler → handler.react r = .releases) (l : LocalLink) (now : Nat) :
    Level l (l.send handlers now r).2 := by
  unfold send
  split
  · exact level_refl l
  · unfold dispatch
    cases hhandler : handlers.get? r.subject with
    | none => exact level_reply l r .nobody false (refusal r)
    | some handler =>
      dsimp only
      rw [h handler hhandler]
      exact (level_refl l).record _

theorem load_begin (hopen : l.closed = false) {handlers : Handlers} {r : Request} {handler : Handler}
    (hhandler : handlers.get? r.subject = some handler) {ms : Nat} {effort : Effort}
    (hreact : handler.react r = .works ms effort) (now patience : Nat) (k : CallKey) :
    (l.begin handlers now k r patience).load ≤ l.load + 2 ∧
      (l.Orderly → (l.begin handlers now k r patience).Orderly) := by
  unfold begin
  rw [hopen, if_neg Bool.false_ne_true]
  unfold dispatch
  rw [hhandler]
  dsimp only
  rw [hreact]
  refine ⟨?_, fun hl => ⟨hl.jobs.insert _ _, hl.calls.insert _ _⟩⟩
  have hjobs := Table.total_insert_le l.jobs LocalJob.turns l.nextJob ⟨r, .call k, false, .working (now + ms) effort⟩
  have hcalls := Table.total_insert_le l.calls Call.turns k ⟨r, patience, .empty, .waiting (now + patience)⟩
  have hjob : LocalJob.turns ⟨r, .call k, false, .working (now + ms) effort⟩ = 1 := rfl
  have hcall : Call.turns ⟨r, patience, .empty, .waiting (now + patience)⟩ = 1 := rfl
  unfold load addJob record
  dsimp only
  omega

end LocalLink

end ClusterNet.Messaging
