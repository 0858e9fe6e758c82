import ClusterNet.Proofs.NearCalls

/-!
# Calls come to rest

As long as no new call begins, every move takes something off what there is to do: for the bytes that are
on their way, for the messages that will be taken and what they lead to, for the jobs and for the calls.
So moves cannot follow one another for ever.
-/

namespace ClusterNet.Messaging

open Wire

/-! ## Moves that follow one another -/

section

variable {S M : Type} {step? : S → M → Option S}

/-- Each move is possible in its turn. -/
def Follow (step? : S → M → Option S) (s : S) : List M → Prop
  | [] => True
  | m :: ms => ∃ s', step? s m = some s' ∧ Follow step? s' ms

/-- However the moves follow one another, they come to an end. -/
def Ends (step? : S → M → Option S) (s : S) : Prop := ∃ bound, ∀ ms, Follow step? s ms → ms.length ≤ bound

/-- Every move lowers what is left to do. -/
theorem ends_of_left {L : Nat → S → Prop}
    (hless : ∀ {n s m s'}, L n s → step? s m = some s' → ∃ n' < n, L n' s') {n : Nat} {s : S} (hs : L n s) :
    Ends step? s := by
  refine ⟨n, fun ms hms => ?_⟩
  induction ms generalizing n s with
  | nil => exact Nat.zero_le n
  | cons m ms ih =>
    obtain ⟨s', hstep, hrest⟩ := hms
    obtain ⟨n', hlt, hs'⟩ := hless hs hstep
    exact Nat.lt_of_le_of_lt (ih hs' hrest) hlt

end

/-! ## Calls of a client -/

/-- How many steps a call still takes. -/
def Call.steps (c : Call) : Nat :=
  match c.progress with
  | .sending _ => 2
  | .waiting _ => 1
  | _ => 0

theorem Call.steps_of_progress {c c' : Call} (h : c'.progress = c.progress) : c'.steps = c.steps := by
  unfold steps
  rw [h]

namespace Client

variable {c d : Client} {k : CallKey} {now : Nat}

/-- The calls of a client are as far as before. -/
structure Level (c d : Client) : Prop where
  steps : d.calls.total Call.steps = c.calls.total Call.steps
  distinct : c.calls.Distinct → d.calls.Distinct

theorem level_forget (c : Client) (id : UInt64) : Level c (c.forget id) := by
  unfold forget
  split
  · exact ⟨Table.total_modify_of_eq (fun x => Call.steps_of_progress (Call.progress_lose x)) c.calls _,
      fun h => h.modify _ _⟩
  · exact ⟨rfl, fun h => h⟩

theorem level_deliver (c : Client) (r : Reply) : Level c (c.deliver r) := by
  unfold deliver
  split
  · exact ⟨Table.total_modify_of_eq (fun x => Call.steps_of_progress (Call.progress_fill x _)) c.calls _,
      fun h => h.modify _ _⟩
  · exact ⟨rfl, id⟩

theorem distinct_calls_finish (h : c.calls.Distinct) (k : CallKey) (p : Progress) :
    (c.finish k p).calls.Distinct := by
  unfold finish
  split
  · exact ((level_forget c _).distinct h).modify k _
  · exact h

theorem distinct_calls_begin (h : c.calls.Distinct) (k : CallKey) (r : Request) (n : Nat) :
    (c.begin k r n).calls.Distinct := by
  have hforget := (level_forget c r.id).distinct h
  rcases begin_eq c k r n with ⟨-, he⟩ | ⟨-, he⟩
  · rw [he]
    exact distinct_calls_finish (hforget.insert k _) k _
  · rw [he]
    exact hforget.insert k _

theorem steps_finish (h : c.calls.Distinct) {call : Call} (hk : c.call? k = some call) (o : Outcome) :
    (c.finish k (.over o)).calls.total Call.steps + call.steps = c.calls.total Call.steps := by
  have hforget := level_forget c call.request.id
  -- To forget the id leaves the progress of the call as it is.
  obtain ⟨x, hx, hprogress⟩ : ∃ x, (c.forget call.request.id).calls.get? k = some x ∧ x.progress = call.progress := by
    have hcall : (c.forget call.request.id).call? k = _ := call?_forget
    rw [hk] at hcall
    split at hcall
    · exact ⟨call.lose, hcall, Call.progress_lose call⟩
    · exact ⟨call, hcall, rfl⟩
  have htotal := Table.total_insert hx Call.steps { x with progress := .over o }
  rw [← Table.modify_eq_insert (hforget.distinct h) hx fun x => { x with progress := .over o }] at htotal
  have hover : Call.steps { x with progress := .over o } = 0 := rfl
  have hsteps := Call.steps_of_progress hprogress
  have hsame := hforget.steps
  have he : (c.finish k (.over o)).calls =
      (c.forget call.request.id).calls.modify k fun x => { x with progress := .over o } := by
    unfold finish
    rw [hk]
  rw [he]
  omega

theorem eases_proceed (h : c.calls.Distinct) (hd : c.proceed? k now = some d) :
    d.calls.total Call.steps < c.calls.total Call.steps ∧ d.calls.Distinct := by
  obtain ⟨call, hk, -, ⟨t, ht, -, rfl⟩ | ⟨o, rfl, hor⟩⟩ := proceed?_eq_some hd
  · refine ⟨?_, h.insert k _⟩
    have htotal := Table.total_insert hk Call.steps { call with progress := .waiting (now + call.patience) }
    have hbefore : call.steps = 2 := by
      unfold Call.steps
      rw [ht]
    have hafter : Call.steps { call with progress := .waiting (now + call.patience) } = 1 := rfl
    dsimp only
    omega
  · refine ⟨?_, distinct_calls_finish h k _⟩
    have htotal := steps_finish h hk o
    have hbefore : 0 < call.steps := by
      unfold Call.steps
      rcases hor with ⟨t, e, ht, -, -⟩ | ⟨⟨due, hdue⟩, -⟩
      · rw [ht]
        exact Nat.zero_lt_two
      · rw [hdue]
        exact Nat.zero_lt_one
    omega

end Client

/-! ## A connection -/

/-- How many moves there are still to make for a job. -/
def Job.steps (limit : Nat) (j : Job) : Nat :=
  match j.stage with
  | .working _ effort => postage limit (.reply ⟨j.request.id, effort.reply.1, effort.reply.2⟩) + 3
  | .answering _ => 1
  | _ => 0

/-- How many moves there are still to make for a message that comes to the server. -/
def fare (limit : Nat) (handlers : Handlers) : Message → Nat
  | .reply _ => 1
  | .request r =>
    match handlers.get? r.subject with
    | none => postage limit (.reply ⟨r.id, (refusal r).1, (refusal r).2⟩) + 3
    | some h =>
      match h.react r with
      | .works _ effort => postage limit (.reply ⟨r.id, effort.reply.1, effort.reply.2⟩) + 4
      | _ => 0

namespace Link

variable {limit now : Nat} {handlers : Handlers} {l l' : Link} {up down up' down' : List Message}

structure Orderly (l : Link) : Prop where
  calls : l.client.calls.Distinct
  jobs : l.server.jobs.Distinct

/-- What there is still to do on a connection, with what is on its way. -/
def load (limit : Nat) (handlers : Handlers) (l : Link) (up down : List Message) : Nat :=
  l.pace + (up.map (fare limit handlers)).sum + down.length + l.server.jobs.total (Job.steps limit) +
    l.client.calls.total Call.steps

theorem steps_setStage (h : l.server.jobs.Distinct) {j : JobKey} {job : Job} (hj : l.server.jobs.get? j = some job)
    (limit : Nat) (stage : Stage) :
    (l.server.jobs.modify j fun x => { x with stage }).total (Job.steps limit) + job.steps limit =
      l.server.jobs.total (Job.steps limit) + Job.steps limit { job with stage } := by
  rw [Table.modify_eq_insert h hj]
  exact Table.total_insert hj _ _

theorem Turn.orderly (h : Turn limit handlers now l l' up down up' down') (ho : l.Orderly) : l'.Orderly := by
  cases h with
  | idles client jobs => exact ⟨by rw [client.calls]; exact ho.calls, by rw [jobs]; exact ho.jobs⟩
  | delivers first client delivered jobs =>
    refine ⟨?_, by rw [jobs]; exact ho.jobs⟩
    rw [delivered]
    apply (Client.level_deliver _ _).distinct
    rw [client.calls]
    exact ho.calls
  | ignores first client jobs => exact ⟨by rw [client.calls]; exact ho.calls, by rw [jobs]; exact ho.jobs⟩
  | proceeds step jobs => exact ⟨(Client.eases_proceed ho.calls step).2, by rw [jobs]; exact ho.jobs⟩
  | refuses first nobody client jobs => exact ⟨by rw [client]; exact ho.calls, by rw [jobs]; exact ho.jobs⟩
  | hands first handler works client jobs =>
    exact ⟨by rw [client]; exact ho.calls, by rw [jobs]; exact ho.jobs.insert _ _⟩
  | skips first client jobs => exact ⟨by rw [client]; exact ho.calls, by rw [jobs]; exact ho.jobs⟩
  | answers there working time client jobs =>
    exact ⟨by rw [client]; exact ho.calls, by rw [jobs]; exact ho.jobs.modify _ _⟩
  | settles there answering client jobs =>
    exact ⟨by rw [client]; exact ho.calls, by rw [jobs]; exact ho.jobs.modify _ _⟩

theorem Turn.eases (h : Turn limit handlers now l l' up down up' down') (ho : l.Orderly) :
    l'.load limit handlers up' down' < l.load limit handlers up down := by
  unfold load
  cases h with
  | idles client jobs pace =>
    rw [jobs, client.calls]
    omega
  | @delivers r rest c first client delivered jobs pace =>
    subst first
    rw [jobs, delivered, (Client.level_deliver c r).steps, client.calls, List.length_cons]
    omega
  | ignores first client jobs pace =>
    subst first
    rw [jobs, client.calls, List.length_cons]
    omega
  | proceeds step jobs pace =>
    have hcalls := (Client.eases_proceed ho.calls step).1
    rw [jobs]
    omega
  | @refuses r rest first nobody client jobs pace =>
    subst first
    have hfare : fare limit handlers (.request r) =
        postage limit (.reply ⟨r.id, (refusal r).1, (refusal r).2⟩) + 3 := by
      unfold fare
      dsimp only
      rw [nobody]
    rw [jobs, client, List.map_cons, List.sum_cons, hfare, List.length_append, List.length_singleton]
    omega
  | @hands r rest g ms effort first handler works client jobs pace =>
    subst first
    have hfare : fare limit handlers (.request r) =
        postage limit (.reply ⟨r.id, effort.reply.1, effort.reply.2⟩) + 4 := by
      unfold fare
      dsimp only
      rw [handler]
      dsimp only
      rw [works]
    have hjobs := Table.total_insert_le l.server.jobs (Job.steps limit) l.server.nextJob
      ⟨r, .working (now + ms) effort⟩
    have hjob : Job.steps limit ⟨r, .working (now + ms) effort⟩ =
        postage limit (.reply ⟨r.id, effort.reply.1, effort.reply.2⟩) + 3 := rfl
    rw [jobs, client, List.map_cons, List.sum_cons, hfare]
    omega
  | @skips r rest first client jobs pace =>
    subst first
    have hfare : fare limit handlers (.reply r) = 1 := rfl
    rw [jobs, client, List.map_cons, List.sum_cons, hfare]
    omega
  | @answers j job due effort t there working time client jobs pace =>
    have hjobs := steps_setStage ho.jobs there limit (.answering t)
    have hbefore : job.steps limit =
        postage limit (.reply ⟨job.request.id, effort.reply.1, effort.reply.2⟩) + 3 := by
      unfold Job.steps
      rw [working]
    have hafter : Job.steps limit { job with stage := .answering t } = 1 := rfl
    rw [jobs, client, List.length_append, List.length_singleton]
    omega
  | @settles j job t there answering client jobs pace =>
    have hjobs := steps_setStage ho.jobs there limit .done
    have hbefore : job.steps limit = 1 := by
      unfold Job.steps
      rw [answering]
    have hafter : Job.steps limit { job with stage := .done } = 0 := rfl
    rw [jobs, client]
    omega

end Link

namespace Exchange

variable {limit now : Nat} {asked : Request → Prop} {offered : String → Handler → Prop} {handlers : Handlers}
  {x : Exchange} {up down : List Message} {a : LinkAct} {acts : List LinkAct}

/-- A move that is possible now. -/
def step? (x : Exchange) : LinkAct → Option Exchange
  | .moves now m => (x.link.move? x.handlers now m).map fun _ => x.act (.moves now m)
  | _ => none

theorem orderly_startWith (limit capacity room : Nat) (handlers : Handlers) :
    (startWith limit capacity room handlers).link.Orderly :=
  ⟨Table.distinct_empty, Table.distinct_empty⟩

theorem Smooth.orderly_act (h : x.Smooth limit asked offered handlers up down) (hfit : Fitting limit asked offered)
    (ha : a.Plain) (ho : x.link.Orderly) : (x.act a).link.Orderly := by
  cases a with
  | begins k r n =>
    simp only [Exchange.act]
    split
    · exact ⟨Client.distinct_calls_begin ho.calls k r n, ho.jobs⟩
    · exact ho
  | moves now m =>
    cases hm : x.link.move? x.handlers now m with
    | none =>
      have heq : x.act (.moves now m) = x := by simp only [Exchange.act, hm]
      rwa [heq]
    | some l =>
      obtain ⟨up', down', -, hturn⟩ := h.move hfit hm
      exact hturn.orderly ho
  | abandons | registers | unregisters | closesClient | closesServer => cases ha

theorem Smooth.orderly_run (h : x.Smooth limit asked offered handlers up down) (hfit : Fitting limit asked offered)
    (hacts : ∀ a ∈ acts, a.Plain ∧ Within asked offered a) (ho : x.link.Orderly) : (x.run acts).link.Orderly := by
  induction acts generalizing x up down with
  | nil => exact ho
  | cons a acts ih =>
    have ha := hacts a List.mem_cons_self
    obtain ⟨up', down', h', -⟩ := h.act hfit ha.1 ha.2
    exact ih h' (fun b hb => hacts b (List.mem_cons_of_mem a hb)) (h.orderly_act hfit ha.1 ho)

/-- What is left to do on a connection that nobody closes. -/
def Left (limit : Nat) (asked : Request → Prop) (offered : String → Handler → Prop) (handlers : Handlers) (n : Nat)
    (x : Exchange) : Prop :=
  ∃ up down, x.Smooth limit asked offered handlers up down ∧ x.link.Orderly ∧
    x.link.load limit handlers up down = n

theorem Smooth.ends (h : x.Smooth limit asked offered handlers up down) (hfit : Fitting limit asked offered)
    (ho : x.link.Orderly) : Ends step? x := by
  refine ends_of_left (L := Left limit asked offered handlers) ?_ ⟨up, down, h, ho, rfl⟩
  rintro n x a x' ⟨up, down, h, ho, rfl⟩ hstep
  cases a with
  | moves now m =>
    obtain ⟨l, hm, rfl⟩ := Option.map_eq_some_iff.mp hstep
    obtain ⟨up', down', h', hturn⟩ := h.move hfit hm
    exact ⟨_, hturn.eases ho, up', down', h', hturn.orderly ho, rfl⟩
  | begins | abandons | registers | unregisters | closesClient | closesServer => cases hstep

end Exchange

/-! ## A node on its own -/

namespace LocalLink

variable {handlers : Handlers} {l l' : LocalLink}

def step? (l : LocalLink) : LocalAct → Option LocalLink
  | .works now j => l.work? j now
  | .proceeds now k => l.proceed? k now
  | .begins _ _ _ _ => none

theorem orderly_start : start.Orderly := ⟨Table.distinct_empty, Table.distinct_empty⟩

theorem Orderly.begin (ho : l.Orderly) (hopen : l.closed = false)
    (hadapted : ∀ s h, handlers.get? s = some h → h.Adapted) (now : Nat) (k : CallKey) (r : Request) (n : Nat) :
    (l.begin handlers now k r n).Orderly := by
  rcases begin_eq hopen hadapted now k r n with ⟨-, he⟩ | ⟨h, ms, effort, -, -, he⟩
  · rw [he]
    exact ⟨ho.jobs, (ho.calls.insert k _).modify k _⟩
  · rw [he]
    exact ⟨ho.jobs.insert _ _, ho.calls.insert k _⟩

theorem Tidy.orderly_act (h : l.Tidy) (ho : l.Orderly) (hadapted : ∀ s h, handlers.get? s = some h → h.Adapted)
    (a : LocalAct) : (l.act handlers a).Orderly := by
  cases a with
  | begins now k r n =>
    change (if l.isFresh k r.id then l.begin handlers now k r n else l).Orderly
    split
    · exact ho.begin h.unclosed hadapted now k r n
    · exact ho
  | works now j =>
    change ((l.work? j now).getD l).Orderly
    cases hwork : l.work? j now with
    | none => exact ho
    | some l' => exact (eases_work ho hwork).orderly
  | proceeds now k =>
    change ((l.proceed? k now).getD l).Orderly
    cases hproceed : l.proceed? k now with
    | none => exact ho
    | some l' => exact (eases_proceed ho hproceed).orderly

theorem Tidy.orderly_run (h : l.Tidy) (ho : l.Orderly) (hadapted : ∀ s h, handlers.get? s = some h → h.Adapted)
    (acts : List LocalAct) : (l.run handlers acts).Orderly := by
  induction acts generalizing l with
  | nil => exact ho
  | cons a acts ih => exact ih (h.act hadapted a) (h.orderly_act ho hadapted a)

theorem Orderly.ends (ho : l.Orderly) : Ends step? l := by
  refine ends_of_left (L := fun n l => l.Orderly ∧ l.load = n) ?_ ⟨ho, rfl⟩
  rintro n l a l' ⟨ho, rfl⟩ hstep
  cases a with
  | begins => cases hstep
  | works now j =>
    have heases := eases_work ho hstep
    exact ⟨_, heases.load, heases.orderly, rfl⟩
  | proceeds now k =>
    have heases := eases_proceed ho hstep
    exact ⟨_, heases.load, heases.orderly, rfl⟩

end LocalLink

end ClusterNet.Messaging
