import ClusterNet.Messaging.Client
import ClusterNet.Proofs.ChannelMoves

/-!
# The calls of a client

Whoever waits under an id is an open call with that id whose slot is still empty. Every step of
a client keeps this, and an outcome that a step gives to a call is a failure of its own or what a
reply under its id means.
-/

namespace ClusterNet.Messaging

open Wire

/-! ## Calls -/

@[simp] theorem Call.request_fill (c : Call) (o : Outcome) : (c.fill o).request = c.request := by
  unfold fill
  split <;> rfl

@[simp] theorem Call.patience_fill (c : Call) (o : Outcome) : (c.fill o).patience = c.patience := by
  unfold fill
  split <;> rfl

@[simp] theorem Call.progress_fill (c : Call) (o : Outcome) : (c.fill o).progress = c.progress := by
  unfold fill
  split <;> rfl

theorem Call.slot_fill {c : Call} {o p : Outcome} (h : (c.fill o).slot = .filled p) :
    c.slot = .filled p ∨ p = o := by
  unfold fill at h
  split at h
  · right
    simpa using h.symm
  · exact .inl h

theorem Call.fill_fill (c : Call) (o : Outcome) : (c.fill o).fill o = c.fill o := by
  cases h : c.slot <;> simp [fill, h]

@[simp] theorem Call.request_lose (c : Call) : c.lose.request = c.request := by
  unfold lose
  split <;> rfl

@[simp] theorem Call.patience_lose (c : Call) : c.lose.patience = c.patience := by
  unfold lose
  split <;> rfl

@[simp] theorem Call.progress_lose (c : Call) : c.lose.progress = c.progress := by
  unfold lose
  split <;> rfl

theorem Call.slot_lose {c : Call} {o : Outcome} (h : c.lose.slot = .filled o) : c.slot = .filled o := by
  unfold lose at h
  split at h
  · simp at h
  · exact h

theorem Call.progress_of_outcome? {c : Call} {o : Outcome} (h : c.outcome? = some o) :
    c.progress = .over o := by
  unfold outcome? at h
  split at h
  · rename_i p hp
    rw [hp, Option.some.inj h]
  · simp at h

/-- The ways a call ends when no reply does it. Only some failures can be those of a write. -/
def Call.Unanswered (written : Failure → Prop) (c : Call) (o : Outcome) : Prop :=
  o = .error .connectionClosed ∨ o = .error (.timeout c.request.subject c.patience) ∨
    ∃ e, written e ∧ o = .error e

theorem Call.look?_eq_some {c : Call} {now : Nat} {o : Outcome} (h : c.look? now = some o) :
    c.slot = .filled o ∨ o = .error .connectionClosed ∨
      o = .error (.timeout c.request.subject c.patience) := by
  unfold look? at h
  split at h
  · split at h
    · rename_i hslot
      rw [Option.some.inj h] at hslot
      exact .inl hslot
    · exact .inr (.inl (Option.some.inj h).symm)
    · split at h
      · exact .inr (.inr (Option.some.inj h).symm)
      · simp at h
  · simp at h

namespace Client

variable {c d : Client} {k l : CallKey} {call : Call} {id : UInt64}

/-! ## What each step does to the calls -/

theorem call?_forget : (c.forget id).call? l =
    if c.pending.get? id = some l then (c.call? l).map Call.lose else c.call? l := by
  unfold forget
  split
  · rename_i k hk
    rw [call?, Table.get?_modify, hk]
    simp only [Option.some.injEq, eq_comm (a := l)]
    rfl
  · rename_i hk
    simp [hk]

theorem pending_forget : (c.forget id).pending.get? i =
    if i = id then none else c.pending.get? i := by
  unfold forget
  split
  · exact Table.get?_erase _ _ _
  · rename_i hid
    split
    · rename_i h
      rw [h, hid]
    · rfl

@[simp] theorem channel_forget : (c.forget id).channel = c.channel := by
  unfold forget
  split <;> rfl

@[simp] theorem receiving_forget : (c.forget id).receiving = c.receiving := by
  unfold forget
  split <;> rfl

/-- A call that ends has its id taken off the list, and a call that was there gets no reply. -/
def ended (c : Client) (k : CallKey) (id : UInt64) (p : Progress) (l : CallKey) (a : Call) : Call :=
  { (if c.pending.get? id = some l then a.lose else a) with
    progress := if l = k then p else a.progress }

theorem call?_finish (h : c.call? k = some call) (p : Progress) (l : CallKey) :
    (c.finish k p).call? l = (c.call? l).map (c.ended k call.request.id p l) := by
  unfold finish
  rw [h]
  simp only [call?, Table.get?_modify]
  have hforget : (c.forget call.request.id).call? l = _ := call?_forget
  rw [call?, call?] at hforget
  rw [hforget]
  cases c.calls.get? l with
  | none => simp
  | some a =>
    simp only [Option.map_some, ended]
    by_cases hl : l = k
    · subst hl
      simp only [if_true]
      split <;> rfl
    · simp only [hl, if_false]
      split
      · rw [← a.progress_lose]
      · rfl

theorem pending_finish (h : c.call? k = some call) (p : Progress) :
    (c.finish k p).pending.get? id = if id = call.request.id then none else c.pending.get? id := by
  unfold finish
  rw [h]
  exact pending_forget

@[simp] theorem channel_finish (p : Progress) : (c.finish k p).channel = c.channel := by
  unfold finish
  split
  · exact channel_forget
  · rfl

@[simp] theorem receiving_finish (p : Progress) : (c.finish k p).receiving = c.receiving := by
  unfold finish
  split
  · exact receiving_forget
  · rfl

theorem distinct_forget (h : c.pending.Distinct) (id : UInt64) : (c.forget id).pending.Distinct := by
  unfold forget
  split
  · exact h.erase id
  · exact h

theorem distinct_finish (h : c.pending.Distinct) (k : CallKey) (p : Progress) :
    (c.finish k p).pending.Distinct := by
  unfold finish
  split
  · exact distinct_forget h _
  · exact h

theorem begin_eq (c : Client) (k : CallKey) (r : Request) (n : Nat) :
    (c.channel.closed = true ∧ c.begin k r n = ({ c.forget r.id with
        pending := (c.forget r.id).pending.insert r.id k
        calls := (c.forget r.id).calls.insert k ⟨r, n, .empty, .gone⟩ } : Client).finish k
          (.over (.error .connectionClosed))) ∨
      (c.channel.closed = false ∧ c.begin k r n = { c.forget r.id with
        pending := (c.forget r.id).pending.insert r.id k
        channel := (c.channel.submit (.request r)).2
        calls := (c.forget r.id).calls.insert k
          ⟨r, n, .empty, .sending (c.channel.submit (.request r)).1⟩ }) := by
  unfold begin Channel.isActive
  cases c.channel.closed
  · right
    simp
  · left
    simp

theorem call?_begin (c : Client) (k : CallKey) (r : Request) (n : Nat) :
    ∃ slot progress, ((c.channel.closed = true ∧ slot = .lost ∧
        progress = .over (.error .connectionClosed)) ∨
      (c.channel.closed = false ∧ slot = .empty ∧
        progress = .sending (c.channel.submit (.request r)).1)) ∧
      ∀ l, (c.begin k r n).call? l =
        if l = k then some ⟨r, n, slot, progress⟩ else (c.forget r.id).call? l := by
  rcases begin_eq c k r n with ⟨hclosed, h⟩ | ⟨hclosed, h⟩
  · refine ⟨.lost, .over (.error .connectionClosed), .inl ⟨hclosed, rfl, rfl⟩, fun l => ?_⟩
    rw [h, call?_finish (show _ = some ⟨r, n, .empty, .gone⟩ by simp [call?])]
    simp only [call?, Table.get?_insert]
    by_cases hl : l = k
    · simp [hl, ended, Call.lose]
    · cases hget : (c.forget r.id).calls.get? l <;> simp [hl, ended, Ne.symm hl]
  · refine ⟨.empty, _, .inr ⟨hclosed, rfl, rfl⟩, fun l => ?_⟩
    rw [h]
    simp only [call?, Table.get?_insert]

theorem pending_begin (c : Client) (k : CallKey) (r : Request) (n : Nat) (id : UInt64) :
    (c.begin k r n).pending.get? id = if id = r.id then (if c.channel.closed then none else some k)
      else c.pending.get? id := by
  rcases begin_eq c k r n with ⟨hclosed, h⟩ | ⟨hclosed, h⟩
  · rw [h, pending_finish (show _ = some ⟨r, n, .empty, .gone⟩ by simp [call?])]
    simp only [Table.get?_insert, pending_forget, hclosed, if_true]
    split <;> rfl
  · rw [h]
    simp only [Table.get?_insert, pending_forget, hclosed]
    split <;> rfl

theorem distinct_begin (h : c.pending.Distinct) (k : CallKey) (r : Request) (n : Nat) :
    (c.begin k r n).pending.Distinct := by
  have hinsert := (distinct_forget h r.id).insert r.id k
  rcases begin_eq c k r n with ⟨-, he⟩ | ⟨-, he⟩
  · rw [he]
    exact distinct_finish hinsert k _
  · rw [he]
    exact hinsert

@[simp] theorem receiving_begin (k : CallKey) (r : Request) (n : Nat) :
    (c.begin k r n).receiving = c.receiving := by
  rcases begin_eq c k r n with ⟨-, h⟩ | ⟨-, h⟩ <;> simp [h]

theorem channel_begin (c : Client) (k : CallKey) (r : Request) (n : Nat) :
    (c.begin k r n).channel =
      if c.channel.closed then c.channel else (c.channel.submit (.request r)).2 := by
  rcases begin_eq c k r n with ⟨hclosed, h⟩ | ⟨hclosed, h⟩ <;> simp [h, hclosed]

theorem proceed?_eq_some {now : Nat} (h : c.proceed? k now = some d) : ∃ call, c.call? k = some call ∧
    call.isOpen ∧ ((∃ t, call.progress = .sending t ∧ c.channel.outcome? t = some (.ok ()) ∧
        d = { c with calls := c.calls.insert k { call with progress := .waiting (now + call.patience) } }) ∨
      (∃ o, d = c.finish k (.over o) ∧
        ((∃ t e, call.progress = .sending t ∧ c.channel.outcome? t = some (.error e) ∧ o = .error e) ∨
          (∃ due, call.progress = .waiting due) ∧ call.look? now = some o))) := by
  unfold proceed? at h
  split at h
  · simp at h
  · rename_i call hcall
    refine ⟨call, hcall, ?_⟩
    unfold Call.isOpen
    split at h
    · rename_i t hprogress
      simp only [hprogress, true_and]
      split at h
      · simp at h
      · rename_i e he
        exact .inr ⟨_, (Option.some.inj h).symm, .inl ⟨t, e, rfl, he, rfl⟩⟩
      · rename_i u hu
        exact .inl ⟨t, rfl, hu, (Option.some.inj h).symm⟩
    · rename_i due hprogress
      obtain ⟨o, ho, rfl⟩ := Option.map_eq_some_iff.mp h
      simp only [hprogress, true_and]
      exact .inr ⟨o, rfl, .inr ⟨⟨due, rfl⟩, ho⟩⟩
    · simp at h

theorem abandon_eq (c : Client) (k : CallKey) : c.abandon k = c ∨ ∃ call channel,
    c.call? k = some call ∧ call.isOpen ∧
      ((∃ t, call.progress = .sending t ∧ channel = c.channel.withdraw t) ∨
        (∃ due, call.progress = .waiting due) ∧ channel = c.channel) ∧
      c.abandon k = { c with channel }.finish k .gone := by
  unfold abandon
  split
  · rename_i call hcall
    split
    · rename_i t hprogress
      exact .inr ⟨call, _, hcall, by simp [Call.isOpen, hprogress], .inl ⟨t, hprogress, rfl⟩, rfl⟩
    · rename_i due hprogress
      exact .inr ⟨call, _, hcall, by simp [Call.isOpen, hprogress], .inr ⟨⟨due, hprogress⟩, rfl⟩, rfl⟩
    · exact .inl rfl
  · exact .inl rfl

theorem call?_deliver (c : Client) (r : Reply) (l : CallKey) : (c.deliver r).call? l =
    if c.pending.get? r.id = some l then
      (c.call? l).map fun a => a.fill (outcomeOf a.request.subject r)
    else c.call? l := by
  unfold deliver
  split
  · rename_i k hk
    simp only [call?, Table.get?_modify, hk, Option.some.injEq, eq_comm (a := l)]
  · rename_i hk
    simp [hk]

theorem pending_deliver (c : Client) (r : Reply) (id : UInt64) :
    (c.deliver r).pending.get? id = if id = r.id then none else c.pending.get? id := by
  unfold deliver
  split
  · exact Table.get?_erase _ _ _
  · rename_i hid
    split
    · rename_i h
      rw [h, hid]
    · rfl

@[simp] theorem channel_deliver (r : Reply) : (c.deliver r).channel = c.channel := by
  unfold deliver
  split <;> rfl

@[simp] theorem receiving_deliver (r : Reply) : (c.deliver r).receiving = c.receiving := by
  unfold deliver
  split <;> rfl

theorem distinct_deliver (h : c.pending.Distinct) (r : Reply) : (c.deliver r).pending.Distinct := by
  unfold deliver
  split
  · exact h.erase r.id
  · exact h

/-- Every call that is listed learns that no reply will come. -/
def cutOff (c : Client) : Client :=
  { c with
    receiving := false
    pending := .empty
    calls := c.pending.values.foldl
      (fun calls k => calls.modify k (·.fill (.error .connectionClosed))) c.calls }

theorem call?_cutOff (c : Client) (l : CallKey) : c.cutOff.call? l =
    if l ∈ c.pending.values then (c.call? l).map (·.fill (.error .connectionClosed)) else c.call? l :=
  Table.get?_foldl_modify (fun a => a.fill_fill (.error .connectionClosed)) c.pending.values c.calls l

theorem receive?_eq_some (h : c.receive? = some d) : c.receiving = true ∧
    ((∃ r channel, c.channel.receive? = some (.reply r, channel) ∧ d = { c with channel }.deliver r) ∨
      (∃ r channel, c.channel.receive? = some (.request r, channel) ∧ d = { c with channel }) ∨
      (c.channel.receive? = none ∧ c.channel.ended = true ∧ d = c.cutOff)) := by
  unfold receive? at h
  split at h
  · simp at h
  · rename_i hreceiving
    refine ⟨by simpa using hreceiving, ?_⟩
    split at h
    · rename_i r channel hr
      exact .inl ⟨r, channel, hr, (Option.some.inj h).symm⟩
    · rename_i r channel hr
      exact .inr (.inl ⟨r, channel, hr, (Option.some.inj h).symm⟩)
    · rename_i hnone
      split at h
      · rename_i hended
        exact .inr (.inr ⟨hnone, hended, (Option.some.inj h).symm⟩)
      · simp at h

theorem inbound_of_receive? (hreceiving : c.receiving = true) (hc : c.receive? = none) : c.channel.inbound = [] := by
  unfold receive? Channel.receive? at hc
  rw [hreceiving] at hc
  cases hin : c.channel.inbound with
  | nil => rfl
  | cons m rest =>
    rw [hin] at hc
    cases m <;> cases hc

/-! ## Which requests were made -/

/-- The request of a call. -/
def request? (c : Client) (k : CallKey) : Option Request := (c.call? k).map Call.request

theorem request?_of_call? (h : c.call? k = some call) : c.request? k = some call.request := by
  rw [request?, h, Option.map_some]

theorem request?_forget (id : UInt64) (l : CallKey) : (c.forget id).request? l = c.request? l := by
  rw [request?, call?_forget]
  split
  · cases h : c.call? l <;> simp [request?, h]
  · rfl

theorem request?_finish (k : CallKey) (p : Progress) (l : CallKey) :
    (c.finish k p).request? l = c.request? l := by
  cases hk : c.call? k with
  | none => rw [finish, hk]
  | some call =>
    rw [request?, request?, call?_finish hk]
    cases c.call? l with
    | none => rfl
    | some a =>
      simp only [Option.map_some, ended]
      split <;> simp

theorem request?_begin (c : Client) (k : CallKey) (r : Request) (n : Nat) (l : CallKey) :
    (c.begin k r n).request? l = if l = k then some r else c.request? l := by
  obtain ⟨slot, progress, -, hcall⟩ := call?_begin c k r n
  rw [request?, hcall]
  split
  · rfl
  · exact request?_forget r.id l

theorem request?_begin_of_some {r r' : Request} (hk : c.call? k = none) (n : Nat)
    (h : c.request? l = some r') : (c.begin k r n).request? l = some r' := by
  rw [request?_begin, if_neg, h]
  rintro rfl
  simp [request?, hk] at h

theorem request?_proceed? {now : Nat} (hd : c.proceed? k now = some d) (l : CallKey) :
    d.request? l = c.request? l := by
  obtain ⟨call, hcall, -, ⟨t, -, -, rfl⟩ | ⟨o, rfl, -⟩⟩ := proceed?_eq_some hd
  · simp only [request?, call?, Table.get?_insert]
    split
    · rename_i hl
      rw [call?] at hcall
      rw [hl, hcall]
      rfl
    · rfl
  · exact request?_finish k _ l

theorem request?_abandon (c : Client) (k l : CallKey) : (c.abandon k).request? l = c.request? l := by
  rcases abandon_eq c k with he | ⟨call, channel, -, -, -, he⟩
  · rw [he]
  · rw [he, request?_finish]
    rfl

theorem request?_deliver (c : Client) (r : Reply) (l : CallKey) :
    (c.deliver r).request? l = c.request? l := by
  rw [request?, call?_deliver]
  split
  · cases h : c.call? l <;> simp [request?, h]
  · rfl

theorem request?_cutOff (c : Client) (l : CallKey) : c.cutOff.request? l = c.request? l := by
  rw [request?, call?_cutOff]
  split
  · cases h : c.call? l <;> simp [request?, h]
  · rfl

theorem request?_receive? (hd : c.receive? = some d) (l : CallKey) : d.request? l = c.request? l := by
  obtain ⟨-, ⟨r, channel, -, rfl⟩ | ⟨r, channel, -, rfl⟩ | ⟨-, -, rfl⟩⟩ := receive?_eq_some hd
  · exact request?_deliver { c with channel } r l
  · rfl
  · exact request?_cutOff c l

/-! ## Who waits -/

/-- Each id has one entry, and the call under it is open and has an empty slot. -/
structure Sound (c : Client) : Prop where
  distinct : c.pending.Distinct
  listed : ∀ {id k}, c.pending.get? id = some k →
    ∃ call, c.call? k = some call ∧ call.request.id = id ∧ call.isOpen ∧ call.slot = .empty

theorem sound_ofChannel (channel : Channel) : (ofChannel channel).Sound :=
  ⟨Table.distinct_empty, by simp [ofChannel]⟩

theorem Sound.setChannel (h : c.Sound) (channel : Channel) : ({ c with channel } : Client).Sound :=
  ⟨h.distinct, h.listed⟩

theorem Sound.id_eq (h : c.Sound) (hid : c.pending.get? id = some k) (hk : c.call? k = some call) :
    call.request.id = id := by
  obtain ⟨a, ha, haid, -⟩ := h.listed hid
  rw [hk] at ha
  rwa [Option.some.inj ha]

theorem Sound.forget (h : c.Sound) (id : UInt64) : (c.forget id).Sound := by
  refine ⟨distinct_forget h.distinct id, fun {i l} hi => ?_⟩
  rw [pending_forget] at hi
  split at hi
  · simp at hi
  · rename_i hne
    obtain ⟨a, ha, hid, ho⟩ := h.listed hi
    refine ⟨a, ?_, hid, ho⟩
    rw [call?_forget, if_neg, ha]
    intro hl
    exact hne (hid.symm.trans (h.id_eq hl ha))

theorem Sound.finish (h : c.Sound) (k : CallKey) (p : Progress) : (c.finish k p).Sound := by
  cases hk : c.call? k with
  | none =>
    rw [Client.finish, hk]
    exact h
  | some call =>
    refine ⟨distinct_finish h.distinct k p, fun {i l} hi => ?_⟩
    rw [pending_finish hk] at hi
    split at hi
    · simp at hi
    · rename_i hne
      obtain ⟨a, ha, hid, ho⟩ := h.listed hi
      have hl : l ≠ k := by
        rintro rfl
        rw [hk] at ha
        rw [Option.some.inj ha] at hne
        exact hne hid.symm
      have hp : c.pending.get? call.request.id ≠ some l := by
        intro hl
        exact hne (hid.symm.trans (h.id_eq hl ha))
      refine ⟨a, ?_, hid, ho⟩
      rw [call?_finish hk, ha]
      simp [ended, hl, hp]

theorem Sound.begin (h : c.Sound) (hk : c.call? k = none) (r : Request) (n : Nat) :
    (c.begin k r n).Sound := by
  refine ⟨distinct_begin h.distinct k r n, fun {i l} hi => ?_⟩
  obtain ⟨slot, progress, hor, hcall⟩ := call?_begin c k r n
  rw [pending_begin] at hi
  split at hi
  · rename_i hid
    rcases hor with ⟨hclosed, -, -⟩ | ⟨hclosed, rfl, rfl⟩
    · simp [hclosed] at hi
    · simp only [hclosed, Bool.false_eq_true, if_false, Option.some.injEq] at hi
      subst hi
      exact ⟨_, by rw [hcall, if_pos rfl], hid.symm, rfl, rfl⟩
  · rename_i hne
    obtain ⟨a, ha, hid, ho⟩ := (h.forget r.id).listed (show _ = some l by rw [pending_forget, if_neg hne, hi])
    have hl : l ≠ k := by
      rintro rfl
      rw [call?_forget] at ha
      simp [hk] at ha
    exact ⟨a, by rw [hcall, if_neg hl, ha], hid, ho⟩

theorem Sound.deliver (h : c.Sound) (r : Reply) : (c.deliver r).Sound := by
  refine ⟨distinct_deliver h.distinct r, fun {i l} hi => ?_⟩
  rw [pending_deliver] at hi
  split at hi
  · simp at hi
  · rename_i hne
    obtain ⟨a, ha, hid, ho⟩ := h.listed hi
    refine ⟨a, ?_, hid, ho⟩
    rw [call?_deliver, if_neg, ha]
    intro hl
    exact hne (hid.symm.trans (h.id_eq hl ha))

theorem sound_cutOff (c : Client) : c.cutOff.Sound :=
  ⟨Table.distinct_empty, by simp [cutOff]⟩

theorem Sound.proceed? {now : Nat} (h : c.Sound) (hd : c.proceed? k now = some d) : d.Sound := by
  obtain ⟨call, hcall, hopen, ⟨t, ht, -, rfl⟩ | ⟨o, rfl, -⟩⟩ := proceed?_eq_some hd
  · refine ⟨h.distinct, fun {i l} hi => ?_⟩
    obtain ⟨a, ha, hid, hao, has⟩ := h.listed hi
    simp only [call?, Table.get?_insert]
    split
    · rename_i hl
      subst hl
      rw [hcall] at ha
      obtain rfl := Option.some.inj ha
      exact ⟨_, rfl, hid, rfl, has⟩
    · exact ⟨a, ha, hid, hao, has⟩
  · exact h.finish k _

theorem Sound.abandon (h : c.Sound) (k : CallKey) : (c.abandon k).Sound := by
  rcases abandon_eq c k with he | ⟨call, channel, -, -, -, he⟩
  · rwa [he]
  · rw [he]
    exact (h.setChannel channel).finish k _

theorem Sound.receive? (h : c.Sound) (hd : c.receive? = some d) : d.Sound := by
  obtain ⟨-, ⟨r, channel, -, rfl⟩ | ⟨r, channel, -, rfl⟩ | ⟨-, -, rfl⟩⟩ := receive?_eq_some hd
  · exact (h.setChannel channel).deliver r
  · exact h.setChannel channel
  · exact sound_cutOff c

theorem pending_of_proceed? {now : Nat} (hd : c.proceed? k now = some d)
    (hid : d.pending.get? id = some l) : c.pending.get? id = some l := by
  obtain ⟨call, hcall, -, ⟨t, -, -, rfl⟩ | ⟨o, rfl, -⟩⟩ := proceed?_eq_some hd
  · exact hid
  · rw [pending_finish hcall] at hid
    split at hid
    · simp at hid
    · exact hid

theorem pending_of_abandon (hid : (c.abandon k).pending.get? id = some l) :
    c.pending.get? id = some l := by
  rcases abandon_eq c k with he | ⟨call, channel, hcall, -, -, he⟩
  · rwa [he] at hid
  · rw [he, pending_finish (c := { c with channel }) hcall] at hid
    split at hid
    · simp at hid
    · exact hid

theorem channel_proceed? {now : Nat} (hd : c.proceed? k now = some d) : d.channel = c.channel := by
  obtain ⟨call, -, -, ⟨t, -, -, rfl⟩ | ⟨o, rfl, -⟩⟩ := proceed?_eq_some hd
  · rfl
  · exact channel_finish _

theorem receiving_proceed? {now : Nat} (hd : c.proceed? k now = some d) : d.receiving = c.receiving := by
  obtain ⟨call, -, -, ⟨t, -, -, rfl⟩ | ⟨o, rfl, -⟩⟩ := proceed?_eq_some hd
  · rfl
  · exact receiving_finish _

theorem channel_abandon (c : Client) (k : CallKey) :
    (c.abandon k).channel = c.channel ∨ ∃ t, (c.abandon k).channel = c.channel.withdraw t := by
  rcases abandon_eq c k with he | ⟨call, channel, -, -, ⟨t, -, rfl⟩ | ⟨-, rfl⟩, he⟩
  · exact .inl (by rw [he])
  · exact .inr ⟨t, by rw [he, channel_finish]⟩
  · exact .inl (by rw [he, channel_finish])

theorem accounts_begin (c : Client) (k : CallKey) (r : Request) (n : Nat) :
    c.channel.Accounts (c.begin k r n).channel := by
  rw [channel_begin]
  split
  · exact Channel.accounts_of_settled rfl
  · exact Channel.accounts_submit _ _

theorem accounts_proceed? {now : Nat} (hd : c.proceed? k now = some d) :
    c.channel.Accounts d.channel := by
  rw [channel_proceed? hd]
  exact Channel.accounts_of_settled rfl

theorem accounts_abandon (c : Client) (k : CallKey) : c.channel.Accounts (c.abandon k).channel := by
  rcases channel_abandon c k with he | ⟨t, he⟩ <;> rw [he] <;> exact Channel.accounts_of_settled rfl

/-! ## What calls come to -/

variable {written : Failure → Prop} {due : CallKey → Request → Outcome → Prop}

/-- What calls have as their outcome, or will have, is their due or comes without a reply. -/
def Justified (written : Failure → Prop) (due : CallKey → Request → Outcome → Prop) (c : Client) : Prop :=
  ∀ ⦃k call⦄, c.call? k = some call →
    (∀ o, call.slot = .filled o → o = .error .connectionClosed ∨ due k call.request o) ∧
    (∀ o, call.progress = .over o → call.Unanswered written o ∨ due k call.request o)

theorem justified_ofChannel (channel : Channel) : (ofChannel channel).Justified written due := by
  intro k call h
  simp [ofChannel, call?] at h

theorem Justified.mono {due' : CallKey → Request → Outcome → Prop} (h : c.Justified written due)
    (himp : ∀ k r o, due k r o → due' k r o) : c.Justified written due' :=
  fun _ _ hk =>
    ⟨fun o ho => (h hk).1 o ho |>.imp id (himp _ _ _), fun o ho => (h hk).2 o ho |>.imp id (himp _ _ _)⟩

theorem Justified.forget (h : c.Justified written due) (id : UInt64) :
    (c.forget id).Justified written due := by
  intro l a ha
  rw [call?_forget] at ha
  split at ha
  · obtain ⟨b, hb, rfl⟩ := Option.map_eq_some_iff.mp ha
    obtain ⟨hslot, hover⟩ := h hb
    refine ⟨fun o ho => ?_, fun o ho => ?_⟩
    · rw [Call.request_lose]
      exact hslot o (Call.slot_lose ho)
    · rw [Call.progress_lose] at ho
      simpa [Call.Unanswered] using hover o ho
  · exact h ha

theorem Justified.finish (h : c.Justified written due) (hk : c.call? k = some call) {p : Progress}
    (hp : ∀ o, p = .over o → call.Unanswered written o ∨ due k call.request o) :
    (c.finish k p).Justified written due := by
  intro l a ha
  rw [call?_finish hk] at ha
  obtain ⟨b, hb, rfl⟩ := Option.map_eq_some_iff.mp ha
  obtain ⟨hslot, hover⟩ := h hb
  have hrequest : (c.ended k call.request.id p l b).request = b.request := by
    unfold ended
    split <;> simp
  have hpatience : (c.ended k call.request.id p l b).patience = b.patience := by
    unfold ended
    split <;> simp
  refine ⟨fun o ho => ?_, fun o ho => ?_⟩
  · rw [hrequest]
    apply hslot
    unfold ended at ho
    split at ho
    · exact Call.slot_lose ho
    · exact ho
  · rw [Call.Unanswered, hrequest, hpatience]
    by_cases hl : l = k
    · subst hl
      rw [hk] at hb
      obtain rfl := Option.some.inj hb
      simp only [ended, if_true] at ho
      exact hp o ho
    · simp only [ended, hl, if_false] at ho
      exact hover o ho

theorem Justified.begin (h : c.Justified written due) (k : CallKey) (r : Request) (n : Nat) :
    (c.begin k r n).Justified written due := by
  intro l a ha
  obtain ⟨slot, progress, hor, hcall⟩ := call?_begin c k r n
  rw [hcall] at ha
  split at ha
  · obtain rfl := Option.some.inj ha
    rcases hor with ⟨-, rfl, rfl⟩ | ⟨-, rfl, rfl⟩
    · refine ⟨by simp, fun o ho => .inl (.inl ?_)⟩
      simpa using ho.symm
    · simp
  · exact h.forget r.id ha

theorem Justified.proceed? {now : Nat} (h : c.Justified written due)
    (hwritten : ∀ t e, c.channel.outcome? t = some (.error e) → written e)
    (hd : c.proceed? k now = some d) : d.Justified written due := by
  obtain ⟨call, hcall, -, ⟨t, ht, -, rfl⟩ | ⟨o, rfl, hor⟩⟩ := proceed?_eq_some hd
  · intro l a ha
    simp only [call?, Table.get?_insert] at ha
    split at ha
    · rename_i hl
      subst hl
      obtain rfl := Option.some.inj ha
      exact ⟨(h hcall).1, by simp⟩
    · exact h ha
  · refine h.finish hcall fun o' ho' => ?_
    obtain rfl := Progress.over.inj ho'
    rcases hor with ⟨t, e, -, he, rfl⟩ | ⟨-, hlook⟩
    · exact .inl (.inr (.inr ⟨e, hwritten t e he, rfl⟩))
    · rcases Call.look?_eq_some hlook with hslot | rfl | rfl
      · exact (h hcall).1 o hslot |>.imp .inl id
      · exact .inl (.inl rfl)
      · exact .inl (.inr (.inl rfl))

theorem Justified.abandon (h : c.Justified written due) (k : CallKey) :
    (c.abandon k).Justified written due := by
  rcases abandon_eq c k with he | ⟨call, channel, hcall, -, -, he⟩
  · rwa [he]
  · rw [he]
    exact Justified.finish (c := { c with channel }) h hcall (by simp)

theorem Justified.deliver {r : Reply} (h : c.Justified written due)
    (hdue : ∀ {k call}, c.pending.get? r.id = some k → c.call? k = some call →
      due k call.request (outcomeOf call.request.subject r)) : (c.deliver r).Justified written due := by
  intro l a ha
  rw [call?_deliver] at ha
  split at ha
  · rename_i hl
    obtain ⟨b, hb, rfl⟩ := Option.map_eq_some_iff.mp ha
    obtain ⟨hslot, hover⟩ := h hb
    refine ⟨fun o ho => ?_, fun o ho => ?_⟩
    · rw [Call.request_fill]
      rcases Call.slot_fill ho with ho | rfl
      · exact hslot o ho
      · exact .inr (hdue hl hb)
    · rw [Call.progress_fill] at ho
      simpa [Call.Unanswered] using hover o ho
  · exact h ha

theorem Justified.cutOff (h : c.Justified written due) : c.cutOff.Justified written due := by
  intro l a ha
  rw [call?_cutOff] at ha
  split at ha
  · obtain ⟨b, hb, rfl⟩ := Option.map_eq_some_iff.mp ha
    obtain ⟨hslot, hover⟩ := h hb
    refine ⟨fun o ho => ?_, fun o ho => ?_⟩
    · rw [Call.request_fill]
      rcases Call.slot_fill ho with ho | rfl
      · exact hslot o ho
      · exact .inl rfl
    · rw [Call.progress_fill] at ho
      simpa [Call.Unanswered] using hover o ho
  · exact h ha

/-! ## What stays -/

/-- Every call is still there, and one that is over or gone is as it was. -/
def Keeps (c d : Client) : Prop :=
  ∀ ⦃k call⦄, c.call? k = some call → ∃ call', d.call? k = some call' ∧
    call'.request = call.request ∧ call'.patience = call.patience ∧
      (call.isOpen = false → call'.progress = call.progress)

theorem Keeps.refl (c : Client) : c.Keeps c := fun _ _ h => ⟨_, h, rfl, rfl, fun _ => rfl⟩

theorem isOpen_congr {a b : Call} (h : a.progress = b.progress) : a.isOpen = b.isOpen := by
  rw [Call.isOpen, Call.isOpen, h]

theorem Keeps.trans {e : Client} (h : c.Keeps d) (h' : d.Keeps e) : c.Keeps e := by
  intro k call hc
  obtain ⟨a, ha, hreq, hpat, hprog⟩ := h hc
  obtain ⟨b, hb, hreq', hpat', hprog'⟩ := h' ha
  refine ⟨b, hb, hreq'.trans hreq, hpat'.trans hpat, fun hopen => ?_⟩
  have := hprog hopen
  exact (hprog' (by rw [isOpen_congr this, hopen])).trans this

theorem keeps_forget (c : Client) (id : UInt64) : c.Keeps (c.forget id) := by
  intro l a ha
  rw [call?_forget, ha]
  split
  · exact ⟨a.lose, rfl, a.request_lose, a.patience_lose, fun _ => a.progress_lose⟩
  · exact ⟨a, rfl, rfl, rfl, fun _ => rfl⟩

theorem keeps_finish (hk : c.call? k = some call) (hopen : call.isOpen) (p : Progress) :
    c.Keeps (c.finish k p) := by
  intro l a ha
  rw [call?_finish hk, ha]
  refine ⟨_, rfl, ?_, ?_, fun hclosed => ?_⟩
  · unfold ended
    split <;> simp
  · unfold ended
    split <;> simp
  · have hl : l ≠ k := by
      rintro rfl
      rw [hk] at ha
      rw [Option.some.inj ha, hclosed] at hopen
      simp at hopen
    simp [ended, hl]

theorem keeps_begin (hk : c.call? k = none) (r : Request) (n : Nat) : c.Keeps (c.begin k r n) := by
  intro l a ha
  obtain ⟨slot, progress, -, hcall⟩ := call?_begin c k r n
  have hl : l ≠ k := by
    rintro rfl
    rw [hk] at ha
    simp at ha
  rw [hcall, if_neg hl]
  exact keeps_forget c r.id ha

theorem keeps_proceed? {now : Nat} (hd : c.proceed? k now = some d) : c.Keeps d := by
  obtain ⟨call, hcall, hopen, ⟨t, ht, -, rfl⟩ | ⟨o, rfl, -⟩⟩ := proceed?_eq_some hd
  · intro l a ha
    simp only [call?, Table.get?_insert]
    split
    · rename_i hl
      subst hl
      rw [hcall] at ha
      obtain rfl := Option.some.inj ha
      exact ⟨_, rfl, rfl, rfl, fun hclosed => by simp [hclosed] at hopen⟩
    · exact ⟨a, ha, rfl, rfl, fun _ => rfl⟩
  · exact keeps_finish hcall hopen _

theorem keeps_abandon (c : Client) (k : CallKey) : c.Keeps (c.abandon k) := by
  rcases abandon_eq c k with he | ⟨call, channel, hcall, hopen, -, he⟩
  · rw [he]
    exact Keeps.refl c
  · rw [he]
    exact keeps_finish (c := { c with channel }) hcall hopen _

theorem keeps_deliver (c : Client) (r : Reply) : c.Keeps (c.deliver r) := by
  intro l a ha
  rw [call?_deliver, ha]
  split
  · exact ⟨_, rfl, a.request_fill _, a.patience_fill _, fun _ => a.progress_fill _⟩
  · exact ⟨a, rfl, rfl, rfl, fun _ => rfl⟩

theorem keeps_cutOff (c : Client) : c.Keeps c.cutOff := by
  intro l a ha
  rw [call?_cutOff, ha]
  split
  · exact ⟨_, rfl, a.request_fill _, a.patience_fill _, fun _ => a.progress_fill _⟩
  · exact ⟨a, rfl, rfl, rfl, fun _ => rfl⟩

theorem keeps_receive? (hd : c.receive? = some d) : c.Keeps d := by
  obtain ⟨-, ⟨r, channel, -, rfl⟩ | ⟨r, channel, -, rfl⟩ | ⟨-, -, rfl⟩⟩ := receive?_eq_some hd
  · exact keeps_deliver { c with channel } r
  · exact Keeps.refl c
  · exact keeps_cutOff c

end Client

end ClusterNet.Messaging
