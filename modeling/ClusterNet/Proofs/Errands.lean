import ClusterNet.Proofs.Lossy
import ClusterNet.Proofs.Turns

/-!
# A call that is answered in time

Time goes on while nothing else can, up to the next moment that something waits for, and it may lag
now and then. If the handler and the lag together take less time than the caller has, the call is
never too late: its request is on its way, a job works on it, its reply is on its way, or it has been
told. When nothing can move any more, it is over.
-/

namespace ClusterNet.Messaging

open Wire

/-! ## Time -/

/-- A system whose acts may take place at moments. -/
structure Timing (S A : Type) where
  act : S → A → S
  time? : A → Option Nat
  rests : Nat → S → Prop
  /-- The moments that something waits for. -/
  dues : S → List Nat

/-- A run from a moment on, in which at most so much time goes by while something could move. -/
inductive Timing.Runs {S A : Type} (m : Timing S A) : (lag now : Nat) → S → List A → Prop where
  | ends {lag now : Nat} {s : S} : m.Runs lag now s []
  | acts {lag now : Nat} {s : S} {a : A} {rest : List A} (time : ∀ t, m.time? a = some t → t = now)
      (later : m.Runs lag now (m.act s a) rest) : m.Runs lag now s (a :: rest)
  | waits {lag now later : Nat} {s : S} {rest : List A} (quiet : m.rests now s) (forward : now ≤ later)
      (soon : ∀ due ∈ m.dues s, later ≤ due) (after : m.Runs lag later s rest) : m.Runs lag now s rest
  | lags {lag now d : Nat} {s : S} {rest : List A} (after : m.Runs lag (now + d) s rest) :
      m.Runs (lag + d) now s rest

/-- What the acts keep, and the time that goes by. -/
structure Timing.Keeps {S A : Type} (m : Timing S A) (allowed : A → Prop) (I : Nat → Nat → S → Prop) : Prop where
  act : ∀ {lag now s a}, I lag now s → allowed a → (∀ t, m.time? a = some t → t = now) →
    I lag now (m.act s a)
  waits : ∀ {lag now later s}, I lag now s → m.rests now s → now ≤ later →
    (∀ due ∈ m.dues s, later ≤ due) → I lag later s
  lags : ∀ {lag now d s}, I (lag + d) now s → I lag (now + d) s

theorem Timing.Keeps.run {S A : Type} {m : Timing S A} {allowed : A → Prop} {I : Nat → Nat → S → Prop}
    (h : m.Keeps allowed I) {lag now : Nat} {s : S} {acts : List A} (hruns : m.Runs lag now s acts)
    (hs : I lag now s) (hacts : ∀ a ∈ acts, allowed a) : ∃ lag' now', I lag' now' (acts.foldl m.act s) := by
  induction hruns with
  | ends => exact ⟨_, _, hs⟩
  | acts time _ ih =>
    exact ih (h.act hs (hacts _ List.mem_cons_self) time) fun a ha => hacts a (List.mem_cons_of_mem _ ha)
  | waits quiet forward soon _ ih => exact ih (h.waits hs quiet forward soon) hacts
  | lags _ ih => exact ih (h.lags hs) hacts

/-- A call, and how long the handler works on its request at most. -/
structure Errand where
  call : CallKey
  request : Request
  patience : Nat
  work : Nat

/-- The handler works no longer on a request than so many milliseconds. -/
def Lasts (handlers : Handlers) (r : Request) (work : Nat) : Prop :=
  ∀ h ms effort, handlers.get? r.subject = some h → h.react r = .works ms effort → ms ≤ work

/-- What a caller is told of work that has ended so. -/
def Effort.verdict (subject : String) : Effort → Outcome
  | .returned payload => .ok payload
  | .failed text => .error (.remoteHandler subject text)
  | .brokeOff => .error (.remoteHandler subject "handler panicked")

theorem outcomeOf_effort (subject : String) (id : UInt64) (effort : Effort) :
    outcomeOf subject ⟨id, effort.reply.1, effort.reply.2⟩ = effort.verdict subject := by
  cases effort with
  | returned payload => rfl
  | failed text =>
    unfold outcomeOf Effort.reply Effort.verdict
    dsimp only
    rw [Utf8.lossy_ofText]
  | brokeOff =>
    unfold outcomeOf Effort.reply Effort.verdict
    dsimp only
    rw [Utf8.lossy_ofText]

/-- What these handlers make of a request. -/
def Deserves (handlers : Handlers) (r : Request) (o : Outcome) : Prop :=
  match handlers.get? r.subject with
  | none => o = .error (.noRemoteHandler r.subject)
  | some h => ∃ ms effort, h.react r = .works ms effort ∧ o = effort.verdict r.subject

/-- How the handler of a request sees it, if there is one. -/
def seen (handlers : Handlers) (r : Request) : List Event :=
  ((handlers.get? r.subject).map fun h => Event.invoked h.label r).toList

def Event.concerns (id : UInt64) : Event → Bool
  | .invoked _ r => r.id == id
  | .replied _ _ => false

/-- The call is still sending, or its time is not up by a moment. -/
def Progress.Within (p : Progress) (next : Ticket) (bound : Nat) : Prop :=
  (∃ t, p = .sending t ∧ t < next) ∨ ∃ due, p = .waiting due ∧ bound < due

namespace Errand

/-- The caller waits, and will wait until after the moment. -/
structure Waits (e : Errand) (c : Client) (bound : Nat) : Prop where
  call : ∃ p, c.call? e.call = some ⟨e.request, e.patience, .empty, p⟩ ∧ p.Within c.channel.nextTicket bound
  listed : c.pending.get? e.request.id = some e.call

/-- The caller has been told, and will see it or has seen it. -/
def Told (e : Errand) (c : Client) : Prop :=
  ∃ a o, c.call? e.call = some a ∧ a.request = e.request ∧ a.slot = .filled o ∧
    ((∃ t, a.progress = .sending t ∧ t < c.channel.nextTicket) ∨ (∃ due, a.progress = .waiting due) ∨
      a.progress = .over o)

variable {e : Errand} {c d : Client} {bound bound' now : Nat} {k : CallKey} {r : Reply}

theorem Waits.mono (h : e.Waits c bound) (hle : bound' ≤ bound) : e.Waits c bound' := by
  obtain ⟨p, hcall, hp⟩ := h.call
  refine ⟨⟨p, hcall, hp.imp id ?_⟩, h.listed⟩
  rintro ⟨due, hwaiting, hdue⟩
  exact ⟨due, hwaiting, Nat.lt_of_le_of_lt hle hdue⟩

theorem Waits.sameCalls (h : e.Waits c bound) (hs : c.SameCalls d) : e.Waits d bound := by
  obtain ⟨p, hcall, hp⟩ := h.call
  refine ⟨⟨p, ?_, ?_⟩, ?_⟩
  · rw [Client.call?, hs.calls]
    exact hcall
  · rwa [hs.nextTicket]
  · rw [hs.pending]
    exact h.listed

theorem Told.sameCalls (h : e.Told c) (hs : c.SameCalls d) : e.Told d := by
  obtain ⟨a, o, hcall, hrest⟩ := h
  refine ⟨a, o, ?_, ?_⟩
  · rw [Client.call?, hs.calls]
    exact hcall
  · rwa [hs.nextTicket]

/-! ### A reply comes -/

theorem Waits.deliver (h : e.Waits c bound) (hid : r.id ≠ e.request.id) (hc : c.Sound) :
    e.Waits (c.deliver r) bound := by
  obtain ⟨p, hcall, hp⟩ := h.call
  have hother : c.pending.get? r.id ≠ some e.call := fun hlisted => hid (hc.id_eq hlisted hcall).symm
  refine ⟨⟨p, ?_, ?_⟩, ?_⟩
  · rw [Client.call?_deliver, if_neg hother, hcall]
  · rwa [Client.channel_deliver]
  · rw [Client.pending_deliver, if_neg (Ne.symm hid)]
    exact h.listed

theorem Waits.told (h : e.Waits c bound) (hid : r.id = e.request.id) : e.Told (c.deliver r) := by
  obtain ⟨p, hcall, hp⟩ := h.call
  refine ⟨⟨e.request, e.patience, .filled (outcomeOf e.request.subject r), p⟩, _, ?_, rfl, rfl, ?_⟩
  · rw [Client.call?_deliver, if_pos (by rw [hid]; exact h.listed), hcall]
    rfl
  · rw [Client.channel_deliver]
    exact hp.imp id fun hwaiting => .inl ⟨hwaiting.choose, hwaiting.choose_spec.1⟩

theorem Told.deliver (h : e.Told c) (r : Reply) : e.Told (c.deliver r) := by
  obtain ⟨a, o, hcall, hrequest, hslot, hprogress⟩ := h
  have hfill : ∀ o', a.fill o' = a := by
    intro o'
    unfold Call.fill
    rw [hslot]
  refine ⟨a, o, ?_, hrequest, hslot, ?_⟩
  · rw [Client.call?_deliver, hcall]
    split
    · rw [Option.map_some, hfill]
    · rfl
  · rwa [Client.channel_deliver]

/-! ### A call goes on -/

theorem call?_insert (c : Client) (k l : CallKey) (a : Call) :
    ({ c with calls := c.calls.insert k a } : Client).call? l = if l = k then some a else c.call? l :=
  Table.get?_insert c.calls k l a

theorem call?_finish_of_ne (hc : c.Sound) (ha : c.Apart) {call a : Call} (hk : c.call? k = some call)
    (hcall : c.call? e.call = some a) (hne : e.call ≠ k) (p : Progress) :
    (c.finish k p).call? e.call = some a ∧ a.request.id ≠ call.request.id := by
  have hother : c.pending.get? call.request.id ≠ some e.call := fun hid => hne (ha.listed hc hid hk rfl)
  refine ⟨?_, fun hid => hne (ha (Client.request?_of_call? hcall) (Client.request?_of_call? hk) hid)⟩
  rw [Client.call?_finish hk, hcall, Option.map_some, Client.ended, if_neg hother, if_neg hne]

theorem Waits.proceed (h : e.Waits c bound) (hc : c.Sound) (ha : c.Apart) (hopen : c.channel.Open)
    (hnow : now ≤ bound) (hlater : bound < now + e.patience) (hd : c.proceed? k now = some d) :
    e.Waits d bound := by
  obtain ⟨p, hcall, hp⟩ := h.call
  obtain ⟨call, hk, -, ⟨t, ht, hok, rfl⟩ | ⟨o, rfl, hor⟩⟩ := Client.proceed?_eq_some hd
  · by_cases hek : e.call = k
    · rw [← hek, hcall] at hk
      obtain rfl := Option.some.inj hk
      exact ⟨⟨_, by rw [call?_insert, if_pos hek], .inr ⟨_, rfl, hlater⟩⟩, h.listed⟩
    · exact ⟨⟨p, by rw [call?_insert, if_neg hek, hcall], hp⟩, h.listed⟩
  · by_cases hek : e.call = k
    · rw [← hek, hcall] at hk
      obtain rfl := Option.some.inj hk
      rcases hor with ⟨t, failure, -, hfailed, -⟩ | ⟨⟨due, hwaiting⟩, hlook⟩
      · exact absurd hfailed (hopen.settled t failure)
      · -- The time of the call is not up, so that there is nothing for it to see.
        change p = .waiting due at hwaiting
        subst hwaiting
        rcases hp with ⟨t, hsending, -⟩ | ⟨due', heq, hdue⟩
        · cases hsending
        · obtain rfl := Progress.waiting.inj heq
          unfold Call.look? at hlook
          dsimp only at hlook
          rw [if_neg (by omega)] at hlook
          cases hlook
    · obtain ⟨hkept, hid⟩ := call?_finish_of_ne hc ha hk hcall hek (.over o)
      refine ⟨⟨p, hkept, ?_⟩, ?_⟩
      · rwa [Client.channel_finish]
      · rw [Client.pending_finish hk, if_neg hid]
        exact h.listed

theorem Told.proceed (h : e.Told c) (hc : c.Sound) (ha : c.Apart) (hopen : c.channel.Open)
    (hd : c.proceed? k now = some d) : e.Told d := by
  obtain ⟨a, o, hcall, hrequest, hslot, hprogress⟩ := h
  obtain ⟨call, hk, hisOpen, ⟨t, ht, hok, rfl⟩ | ⟨o', rfl, hor⟩⟩ := Client.proceed?_eq_some hd
  · by_cases hek : e.call = k
    · rw [← hek, hcall] at hk
      obtain rfl := Option.some.inj hk
      exact ⟨{ a with progress := .waiting (now + a.patience) }, o, by rw [call?_insert, if_pos hek], hrequest,
        hslot, .inr (.inl ⟨_, rfl⟩)⟩
    · exact ⟨a, o, by rw [call?_insert, if_neg hek, hcall], hrequest, hslot, hprogress⟩
  · by_cases hek : e.call = k
    · rw [← hek, hcall] at hk
      obtain rfl := Option.some.inj hk
      have ho : o' = o := by
        rcases hor with ⟨t, failure, -, hfailed, -⟩ | ⟨⟨due, hwaiting⟩, hlook⟩
        · exact absurd hfailed (hopen.settled t failure)
        · unfold Call.look? at hlook
          rw [hwaiting, hslot] at hlook
          exact (Option.some.inj hlook).symm
      have hlose : a.lose = a := by
        unfold Call.lose
        rw [hslot]
      refine ⟨{ a with progress := .over o' }, o, ?_, hrequest, hslot, .inr (.inr (by rw [ho]))⟩
      rw [← hek, Client.call?_finish hcall, hcall, Option.map_some, Client.ended, hlose, ite_self, if_pos rfl]
    · obtain ⟨hkept, -⟩ := call?_finish_of_ne hc ha hk hcall hek (.over o')
      exact ⟨a, o, hkept, hrequest, hslot, by rwa [Client.channel_finish]⟩

/-! ### A call begins -/

theorem nextTicket_begin (hopen : c.channel.closed = false) (k : CallKey) (r : Request) (n : Nat) :
    (c.begin k r n).channel.nextTicket = c.channel.nextTicket + 1 := by
  rw [Client.channel_begin, hopen, if_neg Bool.false_ne_true]
  obtain ⟨outbound, blocked, settled, he⟩ := Channel.submit_eq c.channel (.request r)
  rw [he]

theorem waits_begin (hopen : c.channel.closed = false) (e : Errand) (bound : Nat) :
    e.Waits (c.begin e.call e.request e.patience) bound := by
  obtain ⟨slot, progress, hor, hcall⟩ := Client.call?_begin c e.call e.request e.patience
  rcases hor with ⟨hclosed, -⟩ | ⟨-, rfl, rfl⟩
  · rw [hopen] at hclosed
    cases hclosed
  · refine ⟨⟨_, by rw [hcall, if_pos rfl], .inl ⟨_, rfl, ?_⟩⟩, ?_⟩
    · rw [nextTicket_begin hopen]
      exact Nat.lt_succ_self _
    · rw [Client.pending_begin, if_pos rfl, hopen, if_neg Bool.false_ne_true]

theorem call?_begin_of_ne (hc : c.Sound) {r : Request} {a : Call} (hk : c.call? k = none)
    (hfresh : ∀ {l r'}, c.request? l = some r' → r'.id ≠ r.id) (hcall : c.call? e.call = some a) (n : Nat) :
    (c.begin k r n).call? e.call = some a ∧ a.request.id ≠ r.id := by
  have hid := hfresh (Client.request?_of_call? hcall)
  have hne : e.call ≠ k := by
    intro hek
    rw [← hek, hcall] at hk
    cases hk
  obtain ⟨slot, progress, -, hbegun⟩ := Client.call?_begin c k r n
  refine ⟨?_, hid⟩
  rw [hbegun, if_neg hne, Client.call?_forget, if_neg fun hlisted => hid (hc.id_eq hlisted hcall), hcall]

theorem Waits.begin (h : e.Waits c bound) (hc : c.Sound) (hopen : c.channel.closed = false) {r : Request}
    (hk : c.call? k = none) (hfresh : ∀ {l r'}, c.request? l = some r' → r'.id ≠ r.id) (n : Nat) :
    e.Waits (c.begin k r n) bound := by
  obtain ⟨p, hcall, hp⟩ := h.call
  obtain ⟨hkept, hid⟩ := call?_begin_of_ne hc hk hfresh hcall n
  refine ⟨⟨p, hkept, hp.imp ?_ id⟩, ?_⟩
  · rintro ⟨t, hsending, hlt⟩
    rw [nextTicket_begin hopen]
    exact ⟨t, hsending, Nat.lt_succ_of_lt hlt⟩
  · rw [Client.pending_begin, if_neg hid]
    exact h.listed

theorem Told.begin (h : e.Told c) (hc : c.Sound) (hopen : c.channel.closed = false) {r : Request}
    (hk : c.call? k = none) (hfresh : ∀ {l r'}, c.request? l = some r' → r'.id ≠ r.id) (n : Nat) :
    e.Told (c.begin k r n) := by
  obtain ⟨a, o, hcall, hrequest, hslot, hprogress⟩ := h
  obtain ⟨hkept, -⟩ := call?_begin_of_ne hc hk hfresh hcall n
  refine ⟨a, o, hkept, hrequest, hslot, hprogress.imp ?_ id⟩
  rintro ⟨t, hsending, hlt⟩
  rw [nextTicket_begin hopen]
  exact ⟨t, hsending, Nat.lt_succ_of_lt hlt⟩

/-! ## The connection -/

/-- Where the errand is, when time may lag by so much. The caller waits until after the reply can be
there. -/
inductive Course (e : Errand) (lag now : Nat) (l : Link) (up down : List Message) : Prop where
  | asked (waits : e.Waits l.client (now + e.work + lag)) (there : .request (resolved e.request) ∈ up)
  | working (j : JobKey) (ready : Nat) (effort : Effort) (waits : e.Waits l.client (max now ready + lag))
      (job : l.server.jobs.get? j = some ⟨resolved e.request, .working ready effort⟩)
      (soon : ready ≤ now + e.work)
  | replied (r : Reply) (waits : e.Waits l.client (now + lag)) (there : .reply r ∈ down)
      (id : r.id = e.request.id)
  | told (told : e.Told l.client)

variable {lag limit : Nat} {l l' : Link} {up down up' down' : List Message} {handlers : Handlers}

theorem Course.goesOn (h : e.Course lag now l up down) (htime : e.work + lag < e.patience)
    (hwaits : ∀ b, now ≤ b → b < now + e.patience → e.Waits l.client b → e.Waits l'.client b)
    (htold : e.Told l.client → e.Told l'.client)
    (hup : .request (resolved e.request) ∈ up → .request (resolved e.request) ∈ up' ∨
      (∃ j ready effort, l'.server.jobs.get? j = some ⟨resolved e.request, .working ready effort⟩ ∧
        ready ≤ now + e.work) ∨ ∃ r, .reply r ∈ down' ∧ r.id = e.request.id)
    (hjobs : ∀ j ready effort, l.server.jobs.get? j = some ⟨resolved e.request, .working ready effort⟩ →
      l'.server.jobs.get? j = some ⟨resolved e.request, .working ready effort⟩ ∨
        ready ≤ now ∧ ∃ r, .reply r ∈ down' ∧ r.id = e.request.id)
    (hdown : ∀ r, .reply r ∈ down → r.id = e.request.id → .reply r ∈ down') :
    e.Course lag now l' up' down' := by
  -- The bound only falls as the errand goes on, and each of its values lies before the caller's deadline.
  cases h with
  | asked waits there =>
    have hlater := hwaits _ (by omega) (by omega) waits
    rcases hup there with hthere | ⟨j, ready, effort, hjob, hsoon⟩ | ⟨r, hthere, hid⟩
    · exact .asked hlater hthere
    · exact .working j ready effort (hlater.mono (by omega)) hjob hsoon
    · exact .replied r (hlater.mono (by omega)) hthere hid
  | working j ready effort waits job soon =>
    have hlater := hwaits _ (by omega) (by omega) waits
    rcases hjobs j ready effort job with hjob | ⟨hready, r, hthere, hid⟩
    · exact .working j ready effort hlater hjob soon
    · exact .replied r (hlater.mono (by omega)) hthere hid
  | replied r waits there id =>
    exact .replied r (hwaits _ (by omega) (by omega) waits) (hdown r there id) id
  | told told => exact .told (htold told)

theorem Course.arrives (h : e.Course lag now l up down) {c : Client} (hs : l.client.SameCalls c)
    (hid : r.id = e.request.id) (hdelivered : l'.client = c.deliver r) : e.Course lag now l' up' down' := by
  apply Course.told
  rw [hdelivered]
  cases h with
  | asked waits _ => exact (waits.sameCalls hs).told hid
  | working j ready effort waits _ _ => exact (waits.sameCalls hs).told hid
  | replied r' waits _ _ => exact (waits.sameCalls hs).told hid
  | told told => exact (told.sameCalls hs).deliver r

theorem mem_rest {m a : Message} {ms rest : List Message} (hfirst : ms = a :: rest) (hm : m ∈ ms)
    (hne : m ≠ a) : m ∈ rest := by
  rw [hfirst] at hm
  exact (List.mem_cons.mp hm).resolve_left hne

theorem get?_modify_of_other {jobs : Table JobKey Job} {j k : JobKey} {a b : Job} (hj : jobs.get? j = some a)
    (hk : jobs.get? k = some b) (hne : b ≠ a) (f : Job → Job) : (jobs.modify k f).get? j = some a := by
  rw [Table.get?_modify, if_neg, hj]
  rintro rfl
  rw [hj] at hk
  exact hne (Option.some.inj hk).symm

theorem Course.turn (h : e.Course lag now l up down) (htime : e.work + lag < e.patience)
    (hwork : Lasts handlers (resolved e.request) e.work) (hc : l.client.Sound) (ha : l.client.Apart)
    (hopen : l.client.channel.Open) (hfresh : ∀ j job, l.server.jobs.get? j = some job → j < l.server.nextJob)
    (hturn : Link.Turn limit handlers now l l' up down up' down') : e.Course lag now l' up' down' := by
  cases hturn with
  | idles client jobs =>
    refine h.goesOn htime (fun b _ _ hw => hw.sameCalls client) (fun ht => ht.sameCalls client) .inl ?_
      fun r hr _ => hr
    rw [jobs]
    exact fun j ready effort hj => .inl hj
  | @delivers r rest c first client delivered jobs =>
    by_cases hid : r.id = e.request.id
    · exact h.arrives client hid delivered
    · have hsound : c.Sound := by
        refine ⟨by rw [client.pending]; exact hc.distinct, fun {i k} hi => ?_⟩
        rw [client.pending] at hi
        rw [Client.call?, client.calls]
        exact hc.listed hi
      refine h.goesOn htime (fun b _ _ hw => ?_) (fun ht => ?_) .inl ?_ fun r' hr' hid' => mem_rest first hr' ?_
      · rw [delivered]
        exact (hw.sameCalls client).deliver hid hsound
      · rw [delivered]
        exact (ht.sameCalls client).deliver r
      · rw [jobs]
        exact fun j ready effort hj => .inl hj
      · intro heq
        rw [Message.reply.inj heq] at hid'
        exact hid hid'
  | ignores first client jobs =>
    refine h.goesOn htime (fun b _ _ hw => hw.sameCalls client) (fun ht => ht.sameCalls client) .inl ?_
      fun r' hr' _ => mem_rest first hr' (by simp)
    rw [jobs]
    exact fun j ready effort hj => .inl hj
  | proceeds step jobs =>
    refine h.goesOn htime (fun b hnow hb hw => hw.proceed hc ha hopen hnow hb step)
      (fun ht => ht.proceed hc ha hopen step) .inl ?_ fun r hr _ => hr
    rw [jobs]
    exact fun j ready effort hj => .inl hj
  | @refuses r rest first nobody client jobs =>
    refine h.goesOn htime (fun b _ _ hw => client ▸ hw) (fun ht => client ▸ ht) (fun hthere => ?_) ?_
      fun r' hr' _ => List.mem_append_left _ hr'
    · by_cases hr : Message.request (resolved e.request) = .request r
      · refine .inr (.inr ⟨_, List.mem_append_right _ List.mem_cons_self, ?_⟩)
        rw [← Message.request.inj hr, id_resolved]
      · exact .inl (mem_rest first hthere hr)
    · rw [jobs]
      exact fun j ready effort hj => .inl hj
  | @hands r rest handler ms effort first registered works client jobs =>
    refine h.goesOn htime (fun b _ _ hw => client ▸ hw) (fun ht => client ▸ ht) (fun hthere => ?_)
      (fun j ready effort' hj => .inl ?_) fun r' hr' _ => hr'
    · by_cases hr : Message.request (resolved e.request) = .request r
      · obtain rfl := Message.request.inj hr
        refine .inr (.inl ⟨l.server.nextJob, now + ms, effort, ?_, ?_⟩)
        · rw [jobs, Table.get?_insert_self]
        · exact Nat.add_le_add_left (hwork handler ms effort registered works) now
      · exact .inl (mem_rest first hthere hr)
    · rw [jobs, Table.get?_insert_of_ne _ (Nat.ne_of_lt (hfresh j _ hj)), hj]
  | skips first client jobs =>
    refine h.goesOn htime (fun b _ _ hw => client ▸ hw) (fun ht => client ▸ ht)
      (fun hthere => .inl (mem_rest first hthere (by simp))) ?_ fun r' hr' _ => hr'
    rw [jobs]
    exact fun j ready effort hj => .inl hj
  | @answers k job due effort t there working time client jobs =>
    refine h.goesOn htime (fun b _ _ hw => client ▸ hw) (fun ht => client ▸ ht) .inl
      (fun j ready effort' hj => ?_) fun r' hr' _ => List.mem_append_left _ hr'
    by_cases hstage : job = ⟨resolved e.request, .working ready effort'⟩
    · subst hstage
      obtain ⟨rfl, rfl⟩ := Stage.working.inj working
      refine .inr ⟨time, _, List.mem_append_right _ List.mem_cons_self, ?_⟩
      rw [id_resolved]
    · rw [jobs]
      exact .inl (get?_modify_of_other hj there hstage _)
  | settles there answering client jobs =>
    refine h.goesOn htime (fun b _ _ hw => client ▸ hw) (fun ht => client ▸ ht) .inl
      (fun j ready effort hj => .inl ?_) fun r' hr' _ => hr'
    rw [jobs]
    refine get?_modify_of_other hj there ?_ _
    rintro rfl
    cases answering

end Errand

/-! ## The run -/

/-- A call begins, or something moves by itself. -/
def LinkAct.Plain : LinkAct → Prop
  | .begins _ _ _ => True
  | .moves _ _ => True
  | _ => False

namespace Exchange

variable {limit lag now later : Nat} {asked : Request → Prop} {offered : String → Handler → Prop}
  {handlers : Handlers} {x : Exchange} {up down : List Message} {e : Errand}

/-- How time goes by for a client and a server. -/
def timing : Timing Exchange LinkAct where
  act := act
  time?
    | .moves now _ => some now
    | _ => none
  rests now x := ∀ m, x.link.move? x.handlers now m = none
  dues x := x.link.server.jobs.values.filterMap Server.due? ++ x.link.client.calls.values.filterMap Call.due?

/-- Nothing can move any more, at whatever time. -/
def Final (x : Exchange) : Prop := ∀ now, timing.rests now x

/-- All that holds while nobody closes and the handlers stay the same. -/
structure Smooth (limit : Nat) (asked : Request → Prop) (offered : String → Handler → Prop)
    (handlers : Handlers) (x : Exchange) (up down : List Message) : Prop where
  inv : x.Inv limit asked offered
  unbroken : x.Open
  handlers : x.handlers = handlers
  flowing : x.link.Flowing limit up down

theorem Smooth.move (h : x.Smooth limit asked offered handlers up down) (hfit : Fitting limit asked offered)
    {m : Move} {l : Link} (hm : x.link.move? x.handlers now m = some l) : ∃ up' down',
      (x.act (.moves now m)).Smooth limit asked offered handlers up' down' ∧
        Link.Turn limit handlers now x.link (x.act (.moves now m)).link up down up' down' := by
  obtain ⟨up', down', hflowing, hturn⟩ := turn_move h.flowing h.inv hfit h.unbroken hm
  have hlink : (x.act (.moves now m)).link = l := by simp only [Exchange.act, hm]
  have hhandlers : (x.act (.moves now m)).handlers = x.handlers := by simp only [Exchange.act, hm]
  refine ⟨up', down', ⟨h.inv.act hfit trivial, ?_, hhandlers.trans h.handlers, by rwa [hlink]⟩, ?_⟩
  · exact h.unbroken.act h.inv hfit (by simp) (by simp)
  · rw [hlink, ← h.handlers]
    exact hturn

theorem Smooth.act (h : x.Smooth limit asked offered handlers up down) (hfit : Fitting limit asked offered)
    {a : LinkAct} (hplain : a.Plain) (ha : Within asked offered a) : ∃ up' down',
      (x.act a).Smooth limit asked offered handlers up' down' ∧ ∀ (e : Errand) (lag now : Nat),
        (∀ t, timing.time? a = some t → t = now) → e.work + lag < e.patience →
          Lasts handlers (resolved e.request) e.work → e.Course lag now x.link up down →
            e.Course lag now (x.act a).link up' down' := by
  have hapart : x.link.client.Apart := fun _ _ _ _ => h.inv.distinct
  have hinv := h.inv.act hfit ha
  cases a with
  | begins k r n =>
    have hopen := h.unbroken.act h.inv hfit (a := .begins k r n) (by simp) (by simp)
    by_cases hfresh : x.isFresh k r.id = true
    · obtain ⟨hk, hid⟩ := values_of_isFresh hfresh
      have hclosed := h.unbroken.client.closed
      have heq : x.act (.begins k r n) = { x with link := { x.link with client := x.link.client.begin k r n } } := by
        simp only [Exchange.act, hfresh, if_true]
      rw [heq] at hinv hopen ⊢
      refine ⟨_, down, ⟨hinv, hopen, h.handlers, Flowing.begin h.flowing hclosed (hfit.request ha) k n⟩, ?_⟩
      intro e lag now _ htime _ hcourse
      exact hcourse.goesOn htime (fun b _ _ hw => hw.begin h.inv.sound hclosed hk hid n)
        (fun ht => ht.begin h.inv.sound hclosed hk hid n) (fun hthere => .inl (List.mem_append_left _ hthere))
        (fun j ready effort hj => .inl hj) fun r hr _ => hr
    · have heq : x.act (.begins k r n) = x := by simp only [Exchange.act, hfresh, if_false, Bool.false_eq_true]
      rw [heq]
      exact ⟨up, down, h, fun e lag now _ _ _ hcourse => hcourse⟩
  | moves now' m =>
    cases hm : x.link.move? x.handlers now' m with
    | none =>
      have heq : x.act (.moves now' m) = x := by simp only [Exchange.act, hm]
      rw [heq]
      exact ⟨up, down, h, fun e lag now _ _ _ hcourse => hcourse⟩
    | some l =>
      obtain ⟨up', down', hsmooth, hturn⟩ := h.move hfit hm
      refine ⟨up', down', hsmooth, ?_⟩
      intro e lag now htime hshort hwork hcourse
      obtain rfl : now' = now := htime now' rfl
      exact hcourse.turn hshort hwork h.inv.sound hapart h.unbroken.client h.flowing.jobs hturn
  | abandons | registers | unregisters | closesClient | closesServer => cases hplain

/-! ## When nothing moves -/

theorem Smooth.rests (h : x.Smooth limit asked offered handlers up down) (hrests : timing.rests now x) :
    up = [] ∧ down = [] ∧
      ∀ t < x.link.client.channel.nextTicket, (x.link.client.channel.outcome? t).isSome = true := by
  have hclientMove : ∀ m, (ClientEnd.mk x.link.client x.link.up x.link.down).move? now m = none :=
    fun m => Option.map_eq_none_iff.mp (hrests (.client m))
  have hserverMove : ∀ m, (ServerEnd.mk x.link.server x.link.down x.link.up).move? x.handlers now m = none :=
    fun m => Option.map_eq_none_iff.mp (hrests (.server m))
  have hclient : Station.Open ⟨x.link.client.channel, x.link.up, x.link.down, .none⟩ :=
    ⟨h.unbroken.client, h.unbroken.up, h.unbroken.down⟩
  have hserver : Station.Open ⟨x.link.server.channel, x.link.down, x.link.up, .none⟩ :=
    ⟨h.unbroken.server, h.unbroken.down, h.unbroken.up⟩
  obtain ⟨⟨hclientRoom, hupRoom⟩, hserverRoom, hdownRoom⟩ := h.flowing.room
  have hclientWrite := Option.map_eq_none_iff.mp (hclientMove (.writes 1))
  have hclientRead := Option.map_eq_none_iff.mp (hclientMove (.reads 1))
  have hserverWrite := Option.map_eq_none_iff.mp (hserverMove (.writes 1))
  have hserverRead := Option.map_eq_none_iff.mp (hserverMove (.reads 1))
  have hreceive : x.link.client.channel.inbound = [] :=
    Client.inbound_of_receive? h.unbroken.receiving (Option.map_eq_none_iff.mp (hclientMove .receives))
  obtain ⟨hdown, htold⟩ := Line.rests (w := ⟨x.link.server.channel, x.link.down, x.link.up, .none⟩)
    (t := ⟨x.link.client.channel, x.link.up, x.link.down, .none⟩) h.flowing.down rfl hserver rfl rfl hdownRoom
    hserverRoom hclientRoom hserverWrite hclientRead hreceive
  have hserve : x.link.server.serve? x.handlers now = none := Option.map_eq_none_iff.mp (hserverMove .serves)
  have hready : x.link.server.serving = .ready := by
    cases hserving : x.link.server.serving with
    | ready => rfl
    | stopped => exact absurd hserving h.unbroken.serving
    | refusing t =>
      have hsome := htold t (h.flowing.refusing t hserving)
      unfold Server.serve? at hserve
      rw [hserving] at hserve
      change (x.link.server.channel.outcome? t).map _ = none at hserve
      rw [Option.map_eq_none_iff.mp hserve] at hsome
      cases hsome
  have htake : x.link.server.channel.inbound = [] := by
    cases hin : x.link.server.channel.inbound with
    | nil => rfl
    | cons m rest =>
      unfold Server.serve? Channel.receive? at hserve
      rw [hready, hin] at hserve
      cases m <;> simp at hserve
  obtain ⟨hup, htold'⟩ := Line.rests (w := ⟨x.link.client.channel, x.link.up, x.link.down, .none⟩)
    (t := ⟨x.link.server.channel, x.link.down, x.link.up, .none⟩) h.flowing.up rfl hclient rfl rfl hupRoom
    hclientRoom hserverRoom hclientWrite hserverRead htake
  exact ⟨hup, hdown, htold'⟩

/-- The errand is on its course, and there is enough time for it. -/
def Underway (limit : Nat) (asked : Request → Prop) (offered : String → Handler → Prop) (handlers : Handlers)
    (e : Errand) (lag now : Nat) (x : Exchange) : Prop :=
  e.work + lag < e.patience ∧ ∃ up down, x.Smooth limit asked offered handlers up down ∧
    e.Course lag now x.link up down

theorem mem_dues {j : JobKey} {r : Request} {ready : Nat} {effort : Effort}
    (hj : x.link.server.jobs.get? j = some ⟨r, .working ready effort⟩) : ready ∈ timing.dues x := by
  refine List.mem_append_left _ (List.mem_filterMap.mpr ⟨⟨r, .working ready effort⟩, ?_, rfl⟩)
  exact List.mem_map.mpr ⟨(j, ⟨r, .working ready effort⟩), Table.mem_of_lookup hj, rfl⟩

theorem keeps_underway (hfit : Fitting limit asked offered) (hwork : Lasts handlers (resolved e.request) e.work) :
    timing.Keeps (fun a => a.Plain ∧ Within asked offered a) (Underway limit asked offered handlers e) where
  act h ha htime := by
    obtain ⟨hshort, up, down, hsmooth, hcourse⟩ := h
    obtain ⟨up', down', hsmooth', hcourses⟩ := hsmooth.act hfit ha.1 ha.2
    exact ⟨hshort, up', down', hsmooth', hcourses _ _ _ htime hshort hwork hcourse⟩
  waits h hrests hforward hsoon := by
    obtain ⟨hshort, up, down, hsmooth, hcourse⟩ := h
    obtain ⟨rfl, rfl, -⟩ := hsmooth.rests hrests
    refine ⟨hshort, [], [], hsmooth, ?_⟩
    -- The handler is at work, and the time does not go on past its end.
    cases hcourse with
    | asked _ there => exact absurd there List.not_mem_nil
    | working j ready effort waits job soon =>
      have hready := hsoon ready (mem_dues job)
      exact .working j ready effort (waits.mono (by omega)) job (by omega)
    | replied _ _ there _ => exact absurd there List.not_mem_nil
    | told told => exact .told told
  lags h := by
    obtain ⟨hshort, up, down, hsmooth, hcourse⟩ := h
    refine ⟨by omega, up, down, hsmooth, ?_⟩
    cases hcourse with
    | asked waits there => exact .asked (waits.mono (by omega)) there
    | working j ready effort waits job soon =>
      exact .working j ready effort (waits.mono (by omega)) job (by omega)
    | replied r waits there id => exact .replied r (waits.mono (by omega)) there id
    | told told => exact .told told

/-- When nothing can move any more, the call is over. -/
theorem Underway.over (h : x.Underway limit asked offered handlers e lag now) (hfinal : x.Final) :
    ∃ a o, x.link.client.call? e.call = some a ∧ a.request = e.request ∧ a.slot = .filled o ∧
      a.progress = .over o := by
  obtain ⟨-, up, down, hsmooth, hcourse⟩ := h
  obtain ⟨rfl, rfl, hknown⟩ := hsmooth.rests (hfinal now)
  cases hcourse with
  | asked _ there => exact absurd there List.not_mem_nil
  | replied _ _ there _ => exact absurd there List.not_mem_nil
  | working j ready effort waits job soon =>
    have hstill := Option.map_eq_none_iff.mp (Option.map_eq_none_iff.mp (hfinal ready (.server (.works j))))
    unfold Server.work? at hstill
    rw [job] at hstill
    dsimp only at hstill
    rw [if_pos (Nat.le_refl _)] at hstill
    cases hstill
  | told told =>
    obtain ⟨a, o, hcall, hrequest, hslot, hprogress⟩ := told
    refine ⟨a, o, hcall, hrequest, hslot, ?_⟩
    have hstill := Option.map_eq_none_iff.mp (Option.map_eq_none_iff.mp (hfinal now (.client (.proceeds e.call))))
    unfold Client.proceed? at hstill
    rw [hcall] at hstill
    dsimp only at hstill
    rcases hprogress with ⟨t, hsending, hlt⟩ | ⟨due, hwaiting⟩ | hover
    · rw [hsending] at hstill
      dsimp only at hstill
      obtain ⟨r, hr⟩ := Option.isSome_iff_exists.mp (hknown t hlt)
      rw [hr] at hstill
      cases r <;> cases hstill
    · rw [hwaiting] at hstill
      dsimp only at hstill
      unfold Call.look? at hstill
      rw [hwaiting, hslot] at hstill
      cases hstill
    · exact hover

/-! ## A call from its beginning -/

/-- Two ends that are joined and have handlers. -/
def startWith (limit capacity room : Nat) (handlers : Handlers) : Exchange :=
  { start limit capacity room with handlers }

/-- The handlers of a node are what is offered. -/
def Registered (handlers : Handlers) (subject : String) (h : Handler) : Prop := handlers.get? subject = some h

variable {capacity room : Nat} {acts pre post : List LinkAct} {r : Request}

theorem smooth_start (limit : Nat) (hcapacity : 0 < capacity) (hroom : 0 < room) (asked : Request → Prop)
    (handlers : Handlers) :
    (startWith limit capacity room handlers).Smooth limit asked (Registered handlers) handlers [] [] where
  inv := { inv_start limit capacity room asked (Registered handlers) with registered := id }
  unbroken := { open_start limit capacity room with }
  handlers := rfl
  flowing := Link.flowing_start limit hcapacity hroom

theorem Smooth.run (h : x.Smooth limit asked offered handlers up down) (hfit : Fitting limit asked offered)
    (hacts : ∀ a ∈ acts, a.Plain ∧ Within asked offered a) :
    ∃ up' down', (x.run acts).Smooth limit asked offered handlers up' down' := by
  induction acts generalizing x up down with
  | nil => exact ⟨up, down, h⟩
  | cons a acts ih =>
    have ha := hacts a List.mem_cons_self
    obtain ⟨up', down', h', -⟩ := h.act hfit ha.1 ha.2
    exact ih h' fun b hb => hacts b (List.mem_cons_of_mem a hb)

theorem underway_begin (h : x.Smooth limit asked offered handlers up down) (hfit : Fitting limit asked offered)
    (e : Errand) (hr : asked e.request) (hfresh : x.isFresh e.call e.request.id = true)
    (hshort : e.work + lag < e.patience) :
    (x.act (.begins e.call e.request e.patience)).Underway limit asked offered handlers e lag now := by
  have hopen := h.unbroken.client.closed
  have heq : x.act (.begins e.call e.request e.patience) =
      { x with link := { x.link with client := x.link.client.begin e.call e.request e.patience } } := by
    simp only [Exchange.act, hfresh, if_true]
  refine ⟨hshort, up ++ [.request (resolved e.request)], down, ⟨?_, ?_, ?_, ?_⟩, ?_⟩
  · exact h.inv.act hfit hr
  · exact h.unbroken.act h.inv hfit (by simp) (by simp)
  · rw [heq]
    exact h.handlers
  · rw [heq]
    exact Flowing.begin h.flowing hopen (hfit.request hr) _ _
  · rw [heq]
    exact .asked (Errand.waits_begin hopen e _) (List.mem_append_right _ List.mem_cons_self)

end Exchange

end ClusterNet.Messaging
