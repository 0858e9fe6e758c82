import ClusterNet.Proofs.Recording

/-!
# What senders are told

Any number of senders share a channel. Between any two steps of a sender others may act: the channel may
be closed, the writer may go on, and the stream may fail at any byte. What a sender is told in the end
agrees with what the stream has taken.
-/

namespace ClusterNet.Messaging

open Wire

/-- How far a sender is. -/
inductive Sending where
  /-- It has seen that the channel is open. It may wait for room in the queue. -/
  | looked (m : Message)
  | handed (p : Parcel)
  | over (p : Parcel) (r : Except Failure Unit)
  | dropped (p? : Option Parcel)
  deriving DecidableEq

abbrev SenderKey := Nat

inductive SenderAct where
  | begins (m : Message)
  /-- The message comes into the queue, or finds that there is none. -/
  | hands
  | returns
  /-- Nobody wants to know any more. -/
  | drops

/-- What the sender has handed over. -/
def Sending.parcel? : Sending → Option Parcel
  | .looked _ => none
  | .handed p => some p
  | .over p _ => some p
  | .dropped p? => p?

/-- A step of a sender. -/
def Tape.send? (x : Tape) : Option Sending → SenderAct → Option (Tape × Sending)
  | none, .begins m =>
    if x.channel.closed then
      some (x.turn x.channel.refuse.2, .over ⟨x.channel.refuse.1, m⟩ (.error .connectionClosed))
    else some (x, .looked m)
  | some (.looked m), .hands => some (x.turn (x.channel.enqueue m).2, .handed ⟨(x.channel.enqueue m).1, m⟩)
  | some (.looked _), .drops => some (x, .dropped none)
  | some (.handed p), .returns => (x.channel.outcome? p.ticket).map fun r => (x, .over p r)
  | some (.handed p), .drops => some (x.turn (x.channel.withdraw p.ticket), .dropped (some p))
  | _, _ => none

/-- A channel with its record and those who send on it. -/
structure Outlet where
  tape : Tape
  senders : Table SenderKey Sending

inductive OutletAct where
  | sender (k : SenderKey) (a : SenderAct)
  | channel (m : ChannelMove)

namespace Outlet

def start (limit capacity : Nat) : Outlet := ⟨.start limit capacity, .empty⟩

/-- An act that is not possible now changes nothing. -/
def act (o : Outlet) : OutletAct → Outlet
  | .sender k a =>
    match o.tape.send? (o.senders.get? k) a with
    | some (tape, s) => ⟨tape, o.senders.insert k s⟩
    | none => o
  | .channel m => { o with tape := (o.tape.move? m).getD o.tape }

def run (o : Outlet) (acts : List OutletAct) : Outlet := acts.foldl act o

/-- The next message leaves the queue, and nobody is told. -/
def skip (o : Outlet) : Outlet :=
  { o with tape := o.tape.turn { o.tape.channel with
      outbound := o.tape.channel.outbound.drop 1 ++ o.tape.channel.blocked.take 1
      blocked := o.tape.channel.blocked.drop 1 } }

end Outlet

/-! ## What tickets say does not matter -/

theorem get?_insertAll_congr {K V : Type} [DecidableEq K] {t t' : Table K V} {k : K} (h : t.get? k = t'.get? k)
    (es : List (K × V)) : (t.insertAll es).get? k = (t'.insertAll es).get? k := by
  induction es generalizing t t' with
  | nil => exact h
  | cons e es ih =>
    refine ih ?_
    rw [Table.get?_insert, Table.get?_insert, h]

namespace Tape

/-- The same record of a channel whose tickets say something else. -/
def inform (x : Tape) (s : Table Ticket (Except Failure Unit)) : Tape := { x with channel := x.channel.inform s }

theorem move?_inform (x : Tape) (m : ChannelMove) : ∃ news, ∀ s,
    (x.inform s).move? m = (x.move? m).map (·.inform (s.insertAll news)) := by
  obtain ⟨news, hnews⟩ := x.channel.move?_inform m
  cases m with
  | writes n =>
    refine ⟨[], fun s => ?_⟩
    cases hwriter : x.channel.writer with
    | idle | stopped => simp [move?, write?, inform, Channel.inform, hwriter]
    | writing t left =>
      cases left with
      | nil => simp [move?, write?, Channel.write?, inform, Channel.inform, hwriter]
      | cons b left =>
        by_cases hn : n = 0
        · simp [move?, write?, Channel.write?, inform, Channel.inform, hwriter, hn]
        · simp only [move?, write?, Channel.write?, inform, Channel.inform, hwriter, hn, if_false, Option.map_some]
          rfl
  | flushes =>
    refine ⟨news, fun s => ?_⟩
    have hflush : (x.channel.inform s).flush? = (x.channel.flush?).map (·.inform (s.insertAll news)) := hnews s
    simp only [move?, flush?, inform, hflush, Option.map_map]
    rfl
  | _ =>
    refine ⟨news, fun s => ?_⟩
    rw [move?_eq_map (by simp) (by simp), move?_eq_map (by simp) (by simp), inform, hnews s, Option.map_map,
      Option.map_map]
    rfl

theorem send?_inform (x : Tape) (s? : Option Sending) (a : SenderAct) : ∃ news, ∀ s,
    (∀ p, s? = some (.handed p) → s.get? p.ticket = x.channel.outcome? p.ticket) →
      (x.inform s).send? s? a = (x.send? s? a).map fun y => (y.1.inform (s.insertAll news), y.2) := by
  rcases s? with _ | m | p | ⟨p, r⟩ | p?
  · cases a with
    | begins m =>
      by_cases hclosed : x.channel.closed = true
      · refine ⟨[(x.channel.nextTicket, .error .connectionClosed)], fun s _ => ?_⟩
        have hclosed' : (x.inform s).channel.closed = true := hclosed
        rw [send?, send?, if_pos hclosed, if_pos hclosed']
        rfl
      · refine ⟨[], fun s _ => ?_⟩
        have hopen : ¬ (x.inform s).channel.closed = true := hclosed
        rw [send?, send?, if_neg hclosed, if_neg hopen]
        rfl
    | hands | returns | drops => exact ⟨[], fun s _ => rfl⟩
  · cases a with
    | hands =>
      obtain ⟨news, hnews⟩ := x.channel.enqueue_inform m
      refine ⟨news, fun s _ => ?_⟩
      simp only [send?, Channel.ticket_enqueue, Option.map_some, inform, hnews s]
      rfl
    | begins | returns | drops => exact ⟨[], fun s _ => rfl⟩
  · cases a with
    | returns =>
      refine ⟨[], fun s h => ?_⟩
      have hsame : (x.inform s).channel.outcome? p.ticket = x.channel.outcome? p.ticket := h p rfl
      simp only [send?, hsame, Option.map_map]
      rfl
    | begins | hands | drops => exact ⟨[], fun s _ => rfl⟩
  · cases a <;> exact ⟨[], fun s _ => rfl⟩
  · cases a <;> exact ⟨[], fun s _ => rfl⟩

end Tape

/-! ## What the senders know -/

theorem Tape.Faithful.send? {x y : Tape} {gone : List Parcel} (h : x.Faithful gone) {s? : Option Sending}
    {a : SenderAct} {s : Sending} (hs : x.send? s? a = some (y, s)) : y.Faithful gone ∧ x.Extends y ∧
      (x.channel.OnlyWriteFailures → y.channel.OnlyWriteFailures) := by
  unfold Tape.send? at hs
  split at hs
  · split at hs
    · obtain ⟨rfl, rfl⟩ := Prod.mk.inj (Option.some.inj hs)
      exact ⟨h.refuse, h.extends_refuse, fun hx => hx.refuse⟩
    · obtain ⟨rfl, rfl⟩ := Prod.mk.inj (Option.some.inj hs)
      exact ⟨h, .refl x, id⟩
  · rename_i m
    obtain ⟨rfl, rfl⟩ := Prod.mk.inj (Option.some.inj hs)
    exact ⟨h.enqueue m, h.extends_enqueue m, fun hx => hx.enqueue m⟩
  · obtain ⟨rfl, rfl⟩ := Prod.mk.inj (Option.some.inj hs)
    exact ⟨h, .refl x, id⟩
  · obtain ⟨r, -, hrs⟩ := Option.map_eq_some_iff.mp hs
    obtain ⟨rfl, rfl⟩ := Prod.mk.inj hrs
    exact ⟨h, .refl x, id⟩
  · rename_i p
    obtain ⟨rfl, rfl⟩ := Prod.mk.inj (Option.some.inj hs)
    exact ⟨h.withdraw p.ticket, h.extends_withdraw p.ticket, id⟩
  · cases hs

namespace Outlet

variable {o : Outlet}

structure Inv (o : Outlet) : Prop where
  faithful : ∃ gone, o.tape.Faithful gone
  written : o.tape.channel.OnlyWriteFailures
  issued : ∀ {k s p}, o.senders.get? k = some s → s.parcel? = some p → p.ticket < o.tape.channel.nextTicket
  distinct : ∀ {k l s s' p p'}, o.senders.get? k = some s → o.senders.get? l = some s' → s.parcel? = some p →
    s'.parcel? = some p' → p.ticket = p'.ticket → k = l
  /-- What is in the queue under the ticket of a sender is its message. -/
  own : ∀ {k s p}, o.senders.get? k = some s → s.parcel? = some p →
    ∀ q ∈ o.tape.queued ++ o.tape.channel.blocked, q.ticket = p.ticket → q = p
  told : ∀ {k p r}, o.senders.get? k = some (.over p r) → o.tape.channel.outcome? p.ticket = some r

theorem inv_start (limit capacity : Nat) : (start limit capacity).Inv where
  faithful := ⟨[], Tape.faithful_start limit capacity⟩
  written := by simp [Channel.OnlyWriteFailures, start, Tape.start, Channel.start, Channel.outcome?]
  issued := by simp [start]
  distinct := by simp [start]
  own := by simp [start]
  told := by simp [start]

theorem Inv.extend (h : o.Inv) {y : Tape} (hy : o.tape.Extends y) (hfaithful : ∃ gone, y.Faithful gone)
    (hwritten : y.channel.OnlyWriteFailures) : Inv { o with tape := y } where
  faithful := hfaithful
  written := hwritten
  issued hk hp := Nat.lt_of_lt_of_le (h.issued hk hp) hy.later.nextTicket
  distinct := h.distinct
  own hk hp q hq hqp := by
    rcases hy.parcels q hq with hq | hq
    · exact h.own hk hp q hq hqp
    · exact absurd (h.issued hk hp) (Nat.not_lt.mpr (hqp ▸ hq))
  told hk := hy.told _ _ (h.told hk)

theorem Inv.insert (h : o.Inv) {k : SenderKey} {s : Sending}
    (hissued : ∀ {p}, s.parcel? = some p → p.ticket < o.tape.channel.nextTicket)
    (hdistinct : ∀ {l s' p p'}, l ≠ k → o.senders.get? l = some s' → s.parcel? = some p → s'.parcel? = some p' →
      p.ticket ≠ p'.ticket)
    (hown : ∀ {p}, s.parcel? = some p →
      ∀ q ∈ o.tape.queued ++ o.tape.channel.blocked, q.ticket = p.ticket → q = p)
    (htold : ∀ {p r}, s = .over p r → o.tape.channel.outcome? p.ticket = some r) :
    Inv { o with senders := o.senders.insert k s } where
  faithful := h.faithful
  written := h.written
  issued {l s' p} hl hp := by
    rw [Table.get?_insert] at hl
    split at hl
    · obtain rfl := Option.some.inj hl
      exact hissued hp
    · exact h.issued hl hp
  distinct {l l' s₁ s₂ p p'} hl hl' hp hp' ht := by
    rw [Table.get?_insert] at hl hl'
    split at hl <;> split at hl'
    · rename_i hk hk'
      rw [hk, hk']
    · obtain rfl := Option.some.inj hl
      exact absurd ht (hdistinct ‹_› hl' hp hp')
    · obtain rfl := Option.some.inj hl'
      exact absurd ht.symm (hdistinct ‹_› hl hp' hp)
    · exact h.distinct hl hl' hp hp' ht
  own {l s' p} hl hp := by
    rw [Table.get?_insert] at hl
    split at hl
    · obtain rfl := Option.some.inj hl
      exact hown hp
    · exact h.own hl hp
  told {l p r} hl := by
    dsimp only at hl
    rw [Table.get?_insert] at hl
    split at hl
    · exact htold (Option.some.inj hl)
    · exact h.told hl

theorem Inv.keep (h : o.Inv) {k : SenderKey} {s s' : Sending} (hk : o.senders.get? k = some s)
    (hparcel : ∀ {p}, s'.parcel? = some p → s.parcel? = some p)
    (htold : ∀ {p r}, s' = .over p r → o.tape.channel.outcome? p.ticket = some r) :
    Inv { o with senders := o.senders.insert k s' } :=
  h.insert (fun hp => h.issued hk (hparcel hp))
    (fun hne hl hp hp' ht => hne (h.distinct hk hl (hparcel hp) hp' ht).symm)
    (fun hp => h.own hk (hparcel hp)) htold

theorem Inv.issue (h : o.Inv) {y : Tape} (hy : o.tape.Extends y) (hfaithful : ∃ gone, y.Faithful gone)
    (hwritten : y.channel.OnlyWriteFailures)
    (hnext : y.channel.nextTicket = o.tape.channel.nextTicket + 1) {k : SenderKey} {s : Sending} {m : Message}
    (hparcel : s.parcel? = some ⟨o.tape.channel.nextTicket, m⟩)
    (hown : ∀ q ∈ y.queued ++ y.channel.blocked, q.ticket = o.tape.channel.nextTicket →
      q = ⟨o.tape.channel.nextTicket, m⟩)
    (htold : ∀ {p r}, s = .over p r → y.channel.outcome? p.ticket = some r) :
    Inv ⟨y, o.senders.insert k s⟩ := by
  have heq : ∀ {p}, s.parcel? = some p → p = ⟨o.tape.channel.nextTicket, m⟩ :=
    fun hp => (Option.some.inj (hparcel.symm.trans hp)).symm
  refine (h.extend hy hfaithful hwritten).insert (fun hp => ?_) (fun hne hl hp hp' ht => ?_) (fun hp q hq hqp => ?_)
    htold
  · rw [heq hp]
    exact Nat.lt_of_lt_of_eq (Nat.lt_succ_self _) hnext.symm
  · have hlt := h.issued hl hp'
    rw [← ht, heq hp] at hlt
    exact Nat.lt_irrefl _ hlt
  · obtain rfl := heq hp
    exact hown q hq hqp

theorem Inv.sender (h : o.Inv) {k : SenderKey} {a : SenderAct} {y : Tape} {s : Sending}
    (hs : o.tape.send? (o.senders.get? k) a = some (y, s)) : Inv ⟨y, o.senders.insert k s⟩ := by
  obtain ⟨gone, hgone⟩ := h.faithful
  obtain ⟨hfaithful, hextends, hwritten⟩ := hgone.send? hs
  replace hwritten := hwritten h.written
  unfold Tape.send? at hs
  split at hs
  · rename_i m _
    split at hs
    · obtain ⟨rfl, rfl⟩ := Prod.mk.inj (Option.some.inj hs)
      refine h.issue hextends ⟨gone, hfaithful⟩ hwritten rfl rfl (hgone.own_refuse m) fun hover => ?_
      · obtain ⟨rfl, rfl⟩ := Sending.over.inj hover
        exact (Channel.outcome?_settle _ _ _ _).trans (if_pos rfl)
    · obtain ⟨rfl, rfl⟩ := Prod.mk.inj (Option.some.inj hs)
      exact h.insert (by simp [Sending.parcel?]) (by simp [Sending.parcel?]) (by simp [Sending.parcel?]) (by simp)
  · rename_i m _
    obtain ⟨rfl, rfl⟩ := Prod.mk.inj (Option.some.inj hs)
    rw [Channel.ticket_enqueue]
    exact h.issue hextends ⟨gone, hfaithful⟩ hwritten (Channel.nextTicket_enqueue _ m) rfl (hgone.own_enqueue m)
      (by simp)
  · rename_i m hk
    obtain ⟨rfl, rfl⟩ := Prod.mk.inj (Option.some.inj hs)
    exact h.keep hk (by simp [Sending.parcel?]) (by simp)
  · rename_i p hk
    obtain ⟨r, hr, hrs⟩ := Option.map_eq_some_iff.mp hs
    obtain ⟨rfl, rfl⟩ := Prod.mk.inj hrs
    refine h.keep hk id fun hover => ?_
    obtain ⟨rfl, rfl⟩ := Sending.over.inj hover
    exact hr
  · rename_i p hk
    obtain ⟨rfl, rfl⟩ := Prod.mk.inj (Option.some.inj hs)
    exact (h.extend hextends ⟨gone, hfaithful⟩ hwritten).keep hk id (by simp)
  · cases hs

theorem Inv.act (h : o.Inv) (a : OutletAct) : (o.act a).Inv := by
  cases a with
  | sender k a =>
    simp only [Outlet.act]
    cases hs : o.tape.send? (o.senders.get? k) a with
    | none => exact h
    | some ys => exact h.sender hs
  | channel m =>
    obtain ⟨gone, hgone⟩ := h.faithful
    simp only [Outlet.act]
    cases hm : o.tape.move? m with
    | none => exact h
    | some y =>
      obtain ⟨more, hmore⟩ := hgone.move? hm
      have hchannel : o.tape.channel.move? m = some y.channel := by
        rw [← Tape.channel_move?, hm]
        rfl
      exact h.extend (hgone.extends_move? hm) ⟨_, hmore⟩
        (h.written.accounts (Channel.accounts_move? hchannel))

theorem Inv.run (h : o.Inv) (acts : List OutletAct) : (o.run acts).Inv := by
  induction acts generalizing o with
  | nil => exact h
  | cons a acts ih => exact ih (h.act a)

/-! ## Silence after the end -/

theorem Inv.silent_act (h : o.Inv) (hstopped : o.tape.channel.writer = .stopped) (a : OutletAct) :
    (o.act a).tape.pieces = o.tape.pieces ∧ (o.act a).tape.channel.writer = .stopped := by
  obtain ⟨gone, hgone⟩ := h.faithful
  have hextends : o.tape.Extends (o.act a).tape := by
    cases a with
    | sender k a =>
      simp only [Outlet.act]
      cases hs : o.tape.send? (o.senders.get? k) a with
      | none => exact .refl _
      | some ys => exact (hgone.send? hs).2.1
    | channel m =>
      simp only [Outlet.act]
      cases hm : o.tape.move? m with
      | none => exact .refl _
      | some y => exact hgone.extends_move? hm
  exact ⟨hextends.silent hstopped, hextends.later.stopped hstopped⟩

/-- A writer that has stopped writes nothing more. -/
theorem Inv.silent_run (h : o.Inv) (hstopped : o.tape.channel.writer = .stopped) (acts : List OutletAct) :
    (o.run acts).tape.pieces = o.tape.pieces := by
  induction acts generalizing o with
  | nil => rfl
  | cons a acts ih =>
    obtain ⟨hpieces, hstill⟩ := h.silent_act hstopped a
    exact (ih (h.act a) hstill).trans hpieces

/-! ## A message without a frame -/

/-- The sender has the ticket, or had it. -/
def Concerns (o : Outlet) (k : SenderKey) (t : Ticket) : Prop :=
  ∃ s p, o.senders.get? k = some s ∧ s.parcel? = some p ∧ p.ticket = t

/-- Two outlets that differ in what is known of one message which has left the queue. -/
structure Alike (t : Ticket) (a b : Outlet) : Prop where
  tape : ∃ settled, b.tape = a.tape.inform settled
  told : ∀ u, u ≠ t → b.tape.channel.outcome? u = a.tape.channel.outcome? u
  senders : ∀ k, b.senders.get? k = a.senders.get? k ∨ a.Concerns k t ∧ b.Concerns k t
  issued : t < a.tape.channel.nextTicket
  gone : ∀ p ∈ a.tape.channel.outbound ++ a.tape.channel.blocked, p.ticket ≠ t

theorem act_of_concerns {t : Ticket} {k : SenderKey} (hk : o.Concerns k t)
    (hgone : ∀ p ∈ o.tape.channel.outbound ++ o.tape.channel.blocked, p.ticket ≠ t) (a : SenderAct) :
    (o.act (.sender k a)).tape = o.tape ∧ (o.act (.sender k a)).Concerns k t ∧
      ∀ l, l ≠ k → (o.act (.sender k a)).senders.get? l = o.senders.get? l := by
  obtain ⟨s, p, hs, hp, rfl⟩ := hk
  have hstays : ∀ {s'}, s'.parcel? = some p → (o.senders.insert k s').get? k = some s' ∧
      Concerns ⟨o.tape, o.senders.insert k s'⟩ k p.ticket ∧
      ∀ l, l ≠ k → (o.senders.insert k s').get? l = o.senders.get? l := by
    intro s' hp'
    have hself : (o.senders.insert k s').get? k = some s' := (Table.get?_insert _ _ _ _).trans (if_pos rfl)
    exact ⟨hself, ⟨s', p, hself, hp', rfl⟩, fun l hl => (Table.get?_insert _ _ _ _).trans (if_neg hl)⟩
  have hsame : o.Concerns k p.ticket := ⟨s, p, hs, hp, rfl⟩
  simp only [Outlet.act, hs]
  cases s with
  | looked m => cases hp
  | handed q =>
    obtain rfl := Option.some.inj hp
    cases a with
    | begins | hands => exact ⟨rfl, hsame, fun _ _ => rfl⟩
    | returns =>
      simp only [Tape.send?]
      cases hr : o.tape.channel.outcome? q.ticket with
      | none => exact ⟨rfl, hsame, fun _ _ => rfl⟩
      | some r => exact ⟨rfl, (hstays rfl).2⟩
    | drops =>
      have hnobody : o.tape.channel.withdraw q.ticket = o.tape.channel := by
        have hall : o.tape.channel.blocked.filter (fun p => p.ticket != q.ticket) = o.tape.channel.blocked := by
          rw [List.filter_eq_self]
          exact fun p hp => by simpa using hgone p (List.mem_append_right _ hp)
        rw [Channel.withdraw, hall]
      simp only [Tape.send?, hnobody]
      rw [Tape.turn_of_subset (d := o.tape.channel) fun p hp => hp]
      exact ⟨rfl, (hstays rfl).2⟩
  | _ => cases a <;> exact ⟨rfl, hsame, fun _ _ => rfl⟩

section

variable {t : Ticket} {a b : Outlet}

theorem Alike.extend (h : Alike t a b) {y : Tape} (hy : a.tape.Extends y) {s : Table Ticket (Except Failure Unit)}
    (htold : ∀ u, u ≠ t → s.get? u = y.channel.outcome? u) :
    Alike t { a with tape := y } { b with tape := y.inform s } where
  tape := ⟨s, rfl⟩
  told := htold
  senders := h.senders
  issued := Nat.lt_of_lt_of_le h.issued hy.later.nextTicket
  gone p hp heq := by
    rcases hy.later.waiting p hp with hp | hle
    · exact h.gone p hp heq
    · exact absurd h.issued (Nat.not_lt.mpr (heq ▸ hle))

theorem Alike.insert (h : Alike t a b) (k : SenderKey) (s : Sending) :
    Alike t { a with senders := a.senders.insert k s } { b with senders := b.senders.insert k s } where
  tape := h.tape
  told := h.told
  senders l := by
    by_cases hl : l = k
    · left
      rw [Table.get?_insert, Table.get?_insert, if_pos hl, if_pos hl]
    · have hconcerns : ∀ {o : Outlet}, o.Concerns l t → Concerns { o with senders := o.senders.insert k s } l t := by
        rintro o ⟨r, p, hr, hp⟩
        exact ⟨r, p, ((Table.get?_insert _ _ _ _).trans (if_neg hl)).trans hr, hp⟩
      refine (h.senders l).imp (fun hsame => ?_) fun hboth => ⟨hconcerns hboth.1, hconcerns hboth.2⟩
      rw [Table.get?_insert, Table.get?_insert, if_neg hl, if_neg hl, hsame]
  issued := h.issued
  gone := h.gone

theorem Alike.act (h : Alike t a b) (ha : a.Inv) (x : OutletAct) : Alike t (a.act x) (b.act x) := by
  obtain ⟨gone, hgone⟩ := ha.faithful
  obtain ⟨s, hs⟩ := h.tape
  have htold : ∀ u, u ≠ t → s.get? u = a.tape.channel.settled.get? u := by
    intro u hu
    have hu := h.told u hu
    rw [hs] at hu
    exact hu
  have hself : a.tape.inform a.tape.channel.settled = a.tape := rfl
  cases x with
  | channel m =>
    obtain ⟨news, hnews⟩ := a.tape.move?_inform m
    simp only [Outlet.act, hs, hnews s]
    cases hm : a.tape.move? m with
    | none => exact hs ▸ h
    | some y =>
      have hy : y.channel.settled = a.tape.channel.settled.insertAll news := by
        have hnow := hnews a.tape.channel.settled
        rw [hself, hm] at hnow
        rw [Option.some.inj hnow]
        rfl
      refine h.extend (hgone.extends_move? hm) fun u hu => ?_
      rw [Channel.outcome?, hy]
      exact get?_insertAll_congr (htold u hu) news
  | sender k x =>
    by_cases hk : a.Concerns k t
    · have hkb : b.Concerns k t := by
        rcases h.senders k with hsame | ⟨-, hb⟩
        · obtain ⟨r, p, hr, hp⟩ := hk
          exact ⟨r, p, hsame.trans hr, hp⟩
        · exact hb
      obtain ⟨htape, hconcerns, hothers⟩ := act_of_concerns hk h.gone x
      obtain ⟨htape', hconcerns', hothers'⟩ := act_of_concerns hkb (by rw [hs]; exact h.gone) x
      refine ⟨by rw [htape, htape']; exact h.tape, by rw [htape, htape']; exact h.told, fun l => ?_,
        by rw [htape]; exact h.issued, by rw [htape]; exact h.gone⟩
      by_cases hl : l = k
      · rw [hl]
        exact .inr ⟨hconcerns, hconcerns'⟩
      · rw [hothers l hl, hothers' l hl]
        refine (h.senders l).imp id ?_
        rintro ⟨⟨r, p, hr, hp⟩, r', p', hr', hp'⟩
        exact ⟨⟨r, p, (hothers l hl).trans hr, hp⟩, r', p', (hothers' l hl).trans hr', hp'⟩
    · have hsame : b.senders.get? k = a.senders.get? k := (h.senders k).resolve_right fun hboth => hk hboth.1
      obtain ⟨news, hnews⟩ := a.tape.send?_inform (a.senders.get? k) x
      have hown : ∀ p, a.senders.get? k = some (.handed p) → p.ticket ≠ t := fun p hp heq => hk ⟨_, p, hp, rfl, heq⟩
      simp only [Outlet.act, hs, hsame, hnews s fun p hp => htold p.ticket (hown p hp)]
      cases hx : a.tape.send? (a.senders.get? k) x with
      | none => exact h
      | some yr =>
        obtain ⟨y, r⟩ := yr
        have hy : y.channel.settled = a.tape.channel.settled.insertAll news := by
          have hnow := hnews a.tape.channel.settled fun p hp => rfl
          rw [hself, hx] at hnow
          rw [(Prod.mk.inj (Option.some.inj hnow)).1]
          rfl
        refine (h.extend (hgone.send? hx).2.1 fun u hu => ?_).insert k r
        rw [Channel.outcome?, hy]
        exact get?_insertAll_congr (htold u hu) news

theorem Alike.run (h : Alike t a b) (ha : a.Inv) (xs : List OutletAct) : Alike t (a.run xs) (b.run xs) := by
  induction xs generalizing a b with
  | nil => exact h
  | cons x xs ih => exact ih (h.act ha x) (ha.act x)

end

/-- To refuse a message is to leave it out and to tell its sender. -/
theorem Inv.alike_skip (h : o.Inv) {q : Parcel} {rest : List Parcel} {fault : FrameFault}
    (hidle : o.tape.channel.writer = .idle) (hopen : o.tape.channel.closed = false)
    (hfirst : o.tape.channel.outbound = q :: rest)
    (hfault : encode o.tape.channel.limit q.message = .error fault) :
    Alike q.ticket (o.act (.channel .takes)) o.skip := by
  obtain ⟨gone, hgone⟩ := h.faithful
  have hnext : o.tape.channel.next? = some ({ o.tape.channel with
      outbound := rest ++ o.tape.channel.blocked.take 1
      blocked := o.tape.channel.blocked.drop 1 }.settle q.ticket (.error (.codec fault))) := by
    simp only [Channel.next?, hidle, hopen, hfirst, hfault]
  have hmove : o.tape.move? .takes = (o.tape.channel.next?).map o.tape.turn := rfl
  have hskip : o.skip = { o with tape := o.tape.turn { o.tape.channel with
      outbound := rest ++ o.tape.channel.blocked.take 1
      blocked := o.tape.channel.blocked.drop 1 } } := by
    rw [skip, hfirst]
    rfl
  have hrefuses := hgone.refuses hidle hfirst hfault
  rw [Outlet.act, hmove, hnext, hskip]
  refine ⟨⟨o.tape.channel.settled, rfl⟩, fun u hu => ?_, fun k => .inl rfl, ?_, fun p hp => ?_⟩
  · exact ((Channel.outcome?_settle _ _ _ _).trans (if_neg hu)).symm
  · exact hgone.issued q (hgone.mem_of_waiting (by simp [hfirst]))
  · exact (hrefuses.apart (p := q) (by simp) hp).symm

/-! ## What every run keeps -/

/-- What the senders are told agrees with what the stream has taken. -/
structure Truthful (o : Outlet) : Prop where
  framed : o.tape.Framed
  /-- Who is told that its message was sent: the whole frame was taken, and flushed since. -/
  sent : ∀ k p, o.senders.get? k = some (.over p (.ok ())) →
    encode o.tape.channel.limit p.message = .ok (taken p.ticket (o.tape.pieces.take o.tape.flushed))
  /-- Who is told that the channel is closed, or that the message has no frame: nothing was taken. -/
  unsent : ∀ k p e, o.senders.get? k = some (.over p (.error e)) →
    e = .connectionClosed ∨ (∃ fault, e = .codec fault) → ∀ y ∈ o.tape.pieces, y.ticket ≠ p.ticket
  refused : ∀ k p fault, o.senders.get? k = some (.over p (.error (.codec fault))) →
    encode o.tape.channel.limit p.message = .error fault
  failures : ∀ k p e, o.senders.get? k = some (.over p (.error e)) → WriteFailure e
  /-- What is in the queue under the ticket of a sender is its message, and nobody else has the ticket. -/
  own : ∀ k s p, o.senders.get? k = some s → s.parcel? = some p →
    (∀ q ∈ o.tape.queued, q.ticket = p.ticket → q = p) ∧
    ∀ l s' p', o.senders.get? l = some s' → s'.parcel? = some p' → p'.ticket = p.ticket → l = k
  silent : o.tape.channel.writer = .stopped → ∀ acts, (o.run acts).tape.pieces = o.tape.pieces
  /-- To refuse a message without a frame is to leave it out, and to tell nobody but its sender. -/
  aside : ∀ q rest fault, o.tape.channel.writer = .idle → o.tape.channel.closed = false →
    o.tape.channel.outbound = q :: rest → encode o.tape.channel.limit q.message = .error fault →
      ∀ acts, Alike q.ticket ((o.act (.channel .takes)).run acts) (o.skip.run acts)

theorem senders_are_told_the_truth (limit capacity : Nat) (acts : List OutletAct) : ((start limit capacity).run acts).Truthful := by
  have h := (inv_start limit capacity).run acts
  generalize (start limit capacity).run acts = o at h
  obtain ⟨gone, hgone⟩ := h.faithful
  refine ⟨hgone.framed, ?_, ?_, ?_, ?_, ?_, h.silent_run, ?_⟩
  · intro k p hk
    obtain ⟨q, hq, hqp, hencode, -⟩ := hgone.sent p.ticket (h.told hk)
    obtain rfl := h.own hk rfl q (hgone.mem_of_gone hq) hqp
    exact hencode
  · intro k p e hk he y hy hyp
    obtain ⟨q, hq, hsendable, hqy⟩ := hgone.pieces y hy
    have hio : e ≠ .io := by
      rcases he with rfl | ⟨fault, rfl⟩ <;> simp
    have hnot := hgone.unsent p.ticket e (h.told hk) hio q hq (hqy.trans hyp)
    rw [hsendable] at hnot
    cases hnot
  · intro k p fault hk
    obtain ⟨q, hq, hqp, hencode⟩ := hgone.refused p.ticket fault (h.told hk)
    obtain rfl := h.own hk rfl q (hgone.mem_of_gone hq) hqp
    exact hencode
  · exact fun k p e hk => h.written (h.told hk)
  · refine fun k s p hk hp => ⟨fun q hq => h.own hk hp q (List.mem_append_left _ hq), fun l s' p' hl hp' ht => ?_⟩
    exact h.distinct hl hk hp' hp ht
  · intro q rest fault hidle hopen hfirst hfault acts
    exact (h.alike_skip hidle hopen hfirst hfault).run (h.act _) acts

/-- One reply is sent, the next one is too long, and in the middle of the third one the stream fails. -/
example :
    let short : Message := .reply ⟨1, .ok, []⟩
    let o := (start 20 2).run [.sender 0 (.begins short), .sender 0 .hands,
      .sender 1 (.begins (.reply ⟨2, .ok, List.replicate 9 0⟩)), .sender 1 .hands, .sender 2 (.begins short),
      .sender 2 .hands, .channel .takes, .channel (.writes 100), .channel .flushes, .channel .takes, .channel .takes,
      .channel (.writes 7), .channel .writeFails, .sender 0 .returns, .sender 1 .returns, .sender 2 .returns]
    o.senders.get? 0 = some (.over ⟨0, short⟩ (.ok ())) ∧
      o.senders.get? 2 = some (.over ⟨2, short⟩ (.error .io)) ∧ o.tape.bytes.length = 18 + 7 := by
  decide

end Outlet

end ClusterNet.Messaging
