import ClusterNet.Proofs.Tending

/-!
# Sending in small steps

Others may act between the moment when a sender looks whether the channel is open and the moment when
its message comes into the queue. Each step of the writer is possible in one state of the writer only.
-/

namespace ClusterNet.Messaging

open Wire

namespace Channel

/-- A message is refused, and its ticket says so. -/
def refuse (c : Channel) : Ticket × Channel :=
  (c.nextTicket,
    { c with nextTicket := c.nextTicket + 1 }.settle c.nextTicket (.error .connectionClosed))

/-- Puts a message into the queue, or lets it wait for room, whether the channel is closed or not.
Once the writer has stopped there is no queue any more. -/
def enqueue (c : Channel) (m : Message) : Ticket × Channel :=
  if c.writer = .stopped then c.refuse
  else
    let t := c.nextTicket
    let d := { c with nextTicket := t + 1 }
    (t,
      if c.blocked.isEmpty && c.outbound.length < c.capacity then
        { d with outbound := c.outbound ++ [⟨t, m⟩] }
      else { d with blocked := c.blocked ++ [⟨t, m⟩] })

theorem submit_eq_enqueue (c : Channel) (m : Message) (h : c.writer = .stopped → c.closed = true) :
    c.submit m = if c.closed then c.refuse else c.enqueue m := by
  unfold submit
  dsimp only
  by_cases hclosed : c.closed = true
  · rw [if_pos hclosed, if_pos hclosed]
    rfl
  · have hgoing : c.writer ≠ .stopped := fun hstopped => hclosed (h hstopped)
    rw [if_neg hclosed, if_neg hclosed, enqueue, if_neg hgoing]

theorem enqueue_eq (c : Channel) (m : Message) : ∃ outbound blocked settled, c.enqueue m =
    (c.nextTicket, { c with nextTicket := c.nextTicket + 1, outbound, blocked, settled }) := by
  unfold enqueue
  split
  · exact ⟨_, _, _, rfl⟩
  · dsimp only
    split
    · exact ⟨_, _, _, rfl⟩
    · exact ⟨_, _, _, rfl⟩

theorem ticket_enqueue (c : Channel) (m : Message) : (c.enqueue m).1 = c.nextTicket := by
  obtain ⟨outbound, blocked, settled, he⟩ := c.enqueue_eq m
  rw [he]

theorem nextTicket_enqueue (c : Channel) (m : Message) : (c.enqueue m).2.nextTicket = c.nextTicket + 1 := by
  obtain ⟨outbound, blocked, settled, he⟩ := c.enqueue_eq m
  rw [he]

theorem enqueue_of_going {c : Channel} (h : c.writer ≠ .stopped) (m : Message) : c.enqueue m =
    ((Channel.submit { c with closed := false } m).1,
      { (Channel.submit { c with closed := false } m).2 with closed := c.closed }) := by
  rw [enqueue, if_neg h, submit]
  dsimp only
  rw [if_neg Bool.false_ne_true]
  split
  · rfl
  · rfl

theorem tracks_enqueue {c : Channel} {t : Ticket} (h : c.Tracks t) (m : Message) : (c.enqueue m).2.Tracks t := by
  by_cases hstopped : c.writer = .stopped
  · rw [enqueue, if_pos hstopped]
    exact tracks_settle c.nextTicket _ (.inr h)
  · rw [enqueue_of_going hstopped]
    exact tracks_submit (c := { c with closed := false }) m h

theorem tracks_enqueue_new (c : Channel) (m : Message) : (c.enqueue m).2.Tracks (c.enqueue m).1 := by
  by_cases hstopped : c.writer = .stopped
  · rw [enqueue, if_pos hstopped]
    exact tracks_settle c.nextTicket _ (.inl rfl)
  · rw [enqueue_of_going hstopped]
    exact tracks_submit_new { c with closed := false } m

theorem regular_enqueue {c : Channel} (h : c.Regular) (m : Message) : (c.enqueue m).2.Regular := by
  obtain ⟨outbound, blocked, settled, he⟩ := c.enqueue_eq m
  refine ⟨by rw [he]; exact h.capacity, by rw [he]; exact h.attended, fun hstopped => ?_, by rw [he]; exact h.reader⟩
  have hbefore : c.writer = .stopped := by rwa [he] at hstopped
  rw [enqueue, if_pos hbefore]
  exact h.writer hbefore

/-- Whatever fails fails as a message that is to be written may fail. -/
def OnlyWriteFailures (c : Channel) : Prop := ∀ ⦃t e⦄, c.outcome? t = some (.error e) → WriteFailure e

theorem OnlyWriteFailures.accounts {c d : Channel} (h : c.OnlyWriteFailures) (hd : c.Accounts d) :
    d.OnlyWriteFailures :=
  fun _ _ => Watched.writeFailure_of_accounts hd fun ht => h ht

theorem OnlyWriteFailures.refuse {c : Channel} (h : c.OnlyWriteFailures) : c.refuse.2.OnlyWriteFailures := by
  intro t e ht
  rw [Channel.refuse, outcome?_settle] at ht
  split at ht
  · exact .inl (Except.error.inj (Option.some.inj ht)).symm
  · exact h ht

theorem OnlyWriteFailures.enqueue {c : Channel} (h : c.OnlyWriteFailures) (m : Message) :
    (c.enqueue m).2.OnlyWriteFailures := by
  unfold Channel.enqueue
  split
  · exact h.refuse
  · dsimp only
    split <;> exact h

/-- Who waits for the writer when it stops is told that the channel is closed, and nobody else is. -/
theorem outcome?_endWriting_eq (c : Channel) (t : Ticket) :
    c.endWriting.outcome? t =
      if t ∈ (c.outbound ++ c.blocked).map (·.ticket) then some (.error .connectionClosed)
      else c.outcome? t := by
  have hall : ∀ (ps : List Parcel) (d : Channel),
      (ps.foldl (fun d p => d.settle p.ticket (.error .connectionClosed)) d).outcome? t =
        if t ∈ ps.map (·.ticket) then some (.error .connectionClosed) else d.outcome? t := by
    intro ps
    induction ps with
    | nil => exact fun d => rfl
    | cons p ps ih =>
      intro d
      rw [List.foldl_cons, ih, outcome?_settle, List.map_cons]
      by_cases hps : t ∈ ps.map (·.ticket)
      · rw [if_pos hps, if_pos (List.mem_cons_of_mem _ hps)]
      · simp only [List.mem_cons, hps, or_false, if_false]
  exact hall (c.outbound ++ c.blocked) _

variable {c d : Channel}

theorem next?_eq_some (h : c.next? = some d) : c.writer = .idle ∧ ∃ q rest, c.outbound = q :: rest ∧
    ((∃ frame, encode c.limit q.message = .ok frame ∧ d = { c with
        outbound := rest ++ c.blocked.take 1
        blocked := c.blocked.drop 1
        writer := .writing q.ticket frame }) ∨
      ∃ e, encode c.limit q.message = .error e ∧ d = { c with
        outbound := rest ++ c.blocked.take 1
        blocked := c.blocked.drop 1 }.settle q.ticket (.error (.codec e))) := by
  unfold next? at h
  split at h
  · rename_i q rest hidle _ hfirst
    dsimp only at h
    refine ⟨hidle, q, rest, hfirst, ?_⟩
    split at h
    · rename_i frame hframe
      exact .inl ⟨frame, hframe, (Option.some.inj h).symm⟩
    · rename_i e he
      exact .inr ⟨e, he, (Option.some.inj h).symm⟩
  · cases h

theorem write?_eq_some {n : Nat} {b : Bytes} (h : c.write? n = some (b, d)) :
    ∃ t left, c.writer = .writing t (b ++ left) ∧ d = { c with writer := .writing t left } := by
  unfold write? at h
  split at h
  · rename_i t x left hwriting
    split at h
    · cases h
    · obtain ⟨rfl, rfl⟩ := Prod.mk.inj (Option.some.inj h)
      exact ⟨t, _, by rw [hwriting, List.take_append_drop], rfl⟩
  · cases h

theorem flush?_eq_some (h : c.flush? = some d) :
    ∃ t, c.writer = .writing t [] ∧ d = { c with writer := .idle }.settle t (.ok ()) := by
  unfold flush? at h
  split at h
  · exact ⟨_, ‹_›, (Option.some.inj h).symm⟩
  · cases h

theorem writeFails?_eq_some (h : c.writeFails? = some d) :
    ∃ t left, c.writer = .writing t left ∧ d = c.endWriting.settle t (.error .io) := by
  unfold writeFails? at h
  split at h
  · exact ⟨_, _, ‹_›, (Option.some.inj h).symm⟩
  · cases h

theorem stopWriting?_eq_some (h : c.stopWriting? = some d) : c.writer = .idle ∧ d = c.endWriting := by
  unfold stopWriting? at h
  split at h
  · rename_i hwhy
    exact ⟨hwhy.1, (Option.some.inj h).symm⟩
  · cases h

/-- The move has nothing to do with what is sent. -/
def isAside : ChannelMove → Bool
  | .reads _ | .readFails | .stopsReading | .decodes | .forwards | .closes | .releases | .arrives _ => true
  | .takes | .writes _ | .flushes | .writeFails | .stopsWriting | .sends _ | .withdraws _ => false

/-- All that has to do with sending is the same. -/
structure SameOut (c d : Channel) : Prop where
  limit : d.limit = c.limit
  capacity : d.capacity = c.capacity
  outbound : d.outbound = c.outbound
  blocked : d.blocked = c.blocked
  writer : d.writer = c.writer
  nextTicket : d.nextTicket = c.nextTicket
  settled : d.settled = c.settled
  closed : c.closed = true → d.closed = true

theorem SameOut.outcome? (h : c.SameOut d) (t : Ticket) : d.outcome? t = c.outcome? t := by
  rw [Channel.outcome?, h.settled, Channel.outcome?]

theorem sameOut_read {done : Bool} {b : Bytes} (h : Read c done d b) : c.SameOut d := by
  have hs := h.sameSender
  refine ⟨hs.limit, hs.capacity, hs.outbound, hs.blocked, hs.writer, hs.nextTicket, hs.settled, fun hclosed => ?_⟩
  rcases hs.closed with hsame | ⟨hd, -⟩
  · rw [hsame, hclosed]
  · exact hd

theorem sameOut_move? {m : ChannelMove} (hm : isAside m = true) (h : c.move? m = some d) : c.SameOut d := by
  cases m with
  | takes | writes | flushes | writeFails | stopsWriting | sends | withdraws => cases hm
  | reads chunk => exact sameOut_read (.of_read? h fun _ => rfl : Read c true d chunk)
  | readFails => exact sameOut_read (.of_readFails? h)
  | stopsReading => exact sameOut_read (.of_stopReading? h)
  | decodes => exact sameOut_read (.of_decode? h : Read c true d [])
  | forwards => exact sameOut_read (.of_forward? h : Read c true d [])
  | closes =>
    obtain rfl := Option.some.inj h
    exact ⟨rfl, rfl, rfl, rfl, rfl, rfl, rfl, fun _ => rfl⟩
  | releases | arrives =>
    obtain rfl := Option.some.inj h
    exact ⟨rfl, rfl, rfl, rfl, rfl, rfl, rfl, id⟩

/-- What every move keeps. -/
structure Later (c d : Channel) : Prop where
  limit : d.limit = c.limit
  nextTicket : c.nextTicket ≤ d.nextTicket
  /-- A writer that has stopped does not start again. -/
  stopped : c.writer = .stopped → d.writer = .stopped
  closed : c.closed = true → d.closed = true
  /-- Whoever waits has waited before, or has a new ticket. -/
  waiting : ∀ p ∈ d.outbound ++ d.blocked, p ∈ c.outbound ++ c.blocked ∨ c.nextTicket ≤ p.ticket

theorem Later.refl (c : Channel) : c.Later c := ⟨rfl, Nat.le_refl _, id, id, fun _ hp => .inl hp⟩

theorem SameOut.later (h : c.SameOut d) : c.Later d where
  limit := h.limit
  nextTicket := Nat.le_of_eq h.nextTicket.symm
  stopped := h.writer.trans
  closed := h.closed
  waiting p hp := .inl (by rwa [h.outbound, h.blocked] at hp)

theorem later_endWriting (c : Channel) : c.Later c.endWriting := by
  obtain ⟨settled, he⟩ := endWriting_eq c
  rw [he]
  exact ⟨rfl, Nat.le_refl _, fun _ => rfl, fun _ => rfl, by simp⟩

theorem later_refuse (c : Channel) : c.Later c.refuse.2 :=
  ⟨rfl, Nat.le_succ _, id, id, fun _ hp => .inl hp⟩

theorem waiting_enqueue {m : Message} {p : Parcel} (hp : p ∈ (c.enqueue m).2.outbound ++ (c.enqueue m).2.blocked) :
    p ∈ c.outbound ++ c.blocked ∨ p = ⟨c.nextTicket, m⟩ := by
  unfold enqueue at hp
  split at hp
  · exact .inl hp
  · dsimp only at hp
    split at hp
    · simp only [List.mem_append, List.mem_singleton] at hp ⊢
      rcases hp with (hp | hp) | hp
      · exact .inl (.inl hp)
      · exact .inr hp
      · exact .inl (.inr hp)
    · simp only [List.mem_append, List.mem_singleton] at hp ⊢
      rcases hp with hp | hp | hp
      · exact .inl (.inl hp)
      · exact .inl (.inr hp)
      · exact .inr hp

theorem later_enqueue (c : Channel) (m : Message) : c.Later (c.enqueue m).2 := by
  have hwaiting : ∀ p ∈ (c.enqueue m).2.outbound ++ (c.enqueue m).2.blocked,
      p ∈ c.outbound ++ c.blocked ∨ c.nextTicket ≤ p.ticket :=
    fun p hp => (waiting_enqueue hp).imp id fun hnew => by rw [hnew]
  unfold enqueue at hwaiting ⊢
  split at hwaiting
  · rw [if_pos ‹_›]
    exact later_refuse c
  · rw [if_neg ‹_›]
    dsimp only at hwaiting ⊢
    split at hwaiting
    · rw [if_pos ‹_›]
      exact ⟨rfl, Nat.le_succ _, id, id, hwaiting⟩
    · rw [if_neg ‹_›]
      exact ⟨rfl, Nat.le_succ _, id, id, hwaiting⟩

theorem later_submit (c : Channel) (m : Message) (h : c.writer = .stopped → c.closed = true) :
    c.Later (c.submit m).2 := by
  rw [submit_eq_enqueue c m h]
  split
  · exact later_refuse c
  · exact later_enqueue c m

theorem later_withdraw (c : Channel) (t : Ticket) : c.Later (c.withdraw t) := by
  refine ⟨rfl, Nat.le_refl _, id, id, fun p hp => .inl ?_⟩
  exact ((List.Sublist.refl c.outbound).append List.filter_sublist).subset hp

theorem later_next? (h : c.next? = some d) : c.Later d := by
  obtain ⟨hidle, q, rest, hfirst, hd⟩ := next?_eq_some h
  have hkept : ∀ p ∈ rest ++ c.blocked.take 1 ++ c.blocked.drop 1, p ∈ c.outbound ++ c.blocked := by
    intro p hp
    rw [List.append_assoc, List.take_append_drop] at hp
    rw [hfirst]
    exact List.mem_cons_of_mem _ hp
  rcases hd with ⟨frame, -, rfl⟩ | ⟨e, -, rfl⟩
  · exact ⟨rfl, Nat.le_refl _, by simp [hidle], id, fun p hp => .inl (hkept p hp)⟩
  · exact ⟨rfl, Nat.le_refl _, by simp [hidle], id, fun p hp => .inl (hkept p hp)⟩

theorem later_move? {m : ChannelMove} (hregular : c.writer = .stopped → c.closed = true)
    (h : c.move? m = some d) : c.Later d := by
  cases m with
  | takes => exact later_next? h
  | writes n =>
    obtain ⟨⟨b, e⟩, he, rfl⟩ := Option.map_eq_some_iff.mp h
    obtain ⟨t, left, hwriting, rfl⟩ := write?_eq_some he
    exact ⟨rfl, Nat.le_refl _, by simp [hwriting], id, fun _ hp => .inl hp⟩
  | flushes =>
    obtain ⟨t, hwriting, rfl⟩ := flush?_eq_some h
    exact ⟨rfl, Nat.le_refl _, by simp [hwriting], id, fun _ hp => .inl hp⟩
  | writeFails =>
    obtain ⟨t, left, -, rfl⟩ := writeFails?_eq_some h
    obtain ⟨hlimit, hnext, hstopped, hclosed, hwaiting⟩ := later_endWriting c
    exact ⟨hlimit, hnext, hstopped, hclosed, hwaiting⟩
  | stopsWriting =>
    obtain ⟨-, rfl⟩ := stopWriting?_eq_some h
    exact later_endWriting c
  | sends m =>
    obtain rfl := Option.some.inj h
    exact later_submit c m hregular
  | withdraws t =>
    obtain rfl := Option.some.inj h
    exact later_withdraw c t
  | reads | readFails | stopsReading | decodes | forwards | closes | releases | arrives =>
    exact (sameOut_move? rfl h).later

theorem reader_move? {m : ChannelMove} (hstopped : c.reader = .stopped) (h : c.move? m = some d) :
    d.reader = .stopped := by
  cases m with
  | takes =>
    obtain ⟨-, q, rest, -, ⟨frame, -, rfl⟩ | ⟨e, -, rfl⟩⟩ := next?_eq_some h
    · exact hstopped
    · exact hstopped
  | writes n =>
    obtain ⟨⟨b, e⟩, he, rfl⟩ := Option.map_eq_some_iff.mp h
    obtain ⟨t, left, -, rfl⟩ := write?_eq_some he
    exact hstopped
  | flushes =>
    obtain ⟨t, -, rfl⟩ := flush?_eq_some h
    exact hstopped
  | writeFails =>
    obtain ⟨t, left, -, rfl⟩ := writeFails?_eq_some h
    obtain ⟨settled, he⟩ := endWriting_eq c
    rw [he]
    exact hstopped
  | stopsWriting =>
    obtain ⟨-, rfl⟩ := stopWriting?_eq_some h
    obtain ⟨settled, he⟩ := endWriting_eq c
    rw [he]
    exact hstopped
  | reads chunk => exact absurd hstopped (Read.of_read? h fun _ => rfl : Read c true d chunk).going
  | readFails => exact absurd hstopped (Read.of_readFails? h).going
  | stopsReading => exact absurd hstopped (Read.of_stopReading? h).going
  | decodes => exact absurd hstopped (Read.of_decode? h : Read c true d []).going
  | forwards => exact absurd hstopped (Read.of_forward? h : Read c true d []).going
  | sends m =>
    obtain rfl := Option.some.inj h
    obtain ⟨outbound, blocked, settled, he⟩ := submit_eq c m
    rw [he]
    exact hstopped
  | closes | releases | withdraws | arrives =>
    obtain rfl := Option.some.inj h
    exact hstopped

/-! ## What tickets say does not matter to the channel -/

/-- The same channel, whose tickets say something else. -/
def inform (c : Channel) (settled : Table Ticket (Except Failure Unit)) : Channel := { c with settled }

theorem endWriting_inform (c : Channel) (s : Table Ticket (Except Failure Unit)) :
    (c.inform s).endWriting = c.endWriting.inform
      (s.insertAll ((c.outbound ++ c.blocked).map fun p => (p.ticket, .error .connectionClosed))) := by
  have hall : ∀ (ps : List Parcel) (d : Channel),
      ps.foldl (fun c p => c.settle p.ticket (.error .connectionClosed)) d =
        d.inform (d.settled.insertAll (ps.map fun p => (p.ticket, .error .connectionClosed))) := by
    intro ps
    induction ps with
    | nil => exact fun d => rfl
    | cons p ps ih => exact fun d => ih (d.settle p.ticket (.error .connectionClosed))
  rw [endWriting, hall, endWriting, hall]
  rfl

theorem next?_inform (c : Channel) : ∃ news, ∀ s,
    (c.inform s).next? = (c.next?).map (·.inform (s.insertAll news)) := by
  cases hout : c.outbound with
  | nil => exact ⟨[], fun s => by simp [next?, inform, hout]⟩
  | cons q rest =>
    cases hencode : encode c.limit q.message with
    | ok frame =>
      refine ⟨[], fun s => ?_⟩
      simp only [next?, inform, hout]
      split
      · rename_i hcons
        obtain ⟨rfl, rfl⟩ := List.cons.inj hcons
        simp only [hencode]
        rfl
      · rfl
    | error e =>
      refine ⟨[(q.ticket, .error (.codec e))], fun s => ?_⟩
      simp only [next?, inform, hout]
      split
      · rename_i hcons
        obtain ⟨rfl, rfl⟩ := List.cons.inj hcons
        simp only [hencode]
        rfl
      · rfl

theorem enqueue_inform (c : Channel) (m : Message) : ∃ news, ∀ s,
    ((c.inform s).enqueue m).2 = (c.enqueue m).2.inform (s.insertAll news) := by
  unfold enqueue
  by_cases hstopped : c.writer = .stopped
  · refine ⟨[(c.nextTicket, .error .connectionClosed)], fun s => ?_⟩
    rw [if_pos hstopped, if_pos (by exact hstopped)]
    rfl
  · refine ⟨[], fun s => ?_⟩
    rw [if_neg hstopped, if_neg (by exact hstopped)]
    dsimp only
    rw [apply_ite fun d : Channel => d.inform _]
    rfl

theorem submit_inform (c : Channel) (m : Message) : ∃ news, ∀ s,
    ((c.inform s).submit m).2 = (c.submit m).2.inform (s.insertAll news) := by
  unfold submit
  dsimp only
  by_cases hclosed : c.closed = true
  · refine ⟨[(c.nextTicket, .error .connectionClosed)], fun s => ?_⟩
    rw [if_pos hclosed, if_pos (by exact hclosed)]
    rfl
  · refine ⟨[], fun s => ?_⟩
    rw [if_neg hclosed, if_neg (by exact hclosed), apply_ite fun d : Channel => d.inform _]
    rfl

/-- What tickets say has no influence on what can happen. -/
theorem move?_inform (c : Channel) (m : ChannelMove) : ∃ news, ∀ s,
    (c.inform s).move? m = (c.move? m).map (·.inform (s.insertAll news)) := by
  cases m with
  | takes => exact next?_inform c
  | writes n =>
    refine ⟨[], fun s => ?_⟩
    cases hwriter : c.writer with
    | idle | stopped => simp [move?, write?, inform, hwriter]
    | writing t left =>
      cases left with
      | nil => simp [move?, write?, inform, hwriter]
      | cons x left =>
        simp only [move?, write?, inform, hwriter, apply_ite (Option.map _)]
        rfl
  | flushes =>
    cases hwriter : c.writer with
    | idle | stopped => exact ⟨[], fun s => by simp [move?, flush?, inform, hwriter]⟩
    | writing t left =>
      refine ⟨[(t, .ok ())], fun s => ?_⟩
      cases left <;> simp only [move?, flush?, inform, hwriter] <;> rfl
  | writeFails =>
    cases hwriter : c.writer with
    | idle | stopped => exact ⟨[], fun s => by simp [move?, writeFails?, inform, hwriter]⟩
    | writing t left =>
      refine ⟨(c.outbound ++ c.blocked).map (fun p => (p.ticket, .error .connectionClosed)) ++ [(t, .error .io)],
        fun s => ?_⟩
      have hwriter' : (c.inform s).writer = .writing t left := hwriter
      simp only [move?, writeFails?, hwriter, hwriter', endWriting_inform, Option.map_some]
      simp only [Table.insertAll, List.foldl_append]
      rfl
  | stopsWriting =>
    refine ⟨(c.outbound ++ c.blocked).map (fun p => (p.ticket, .error .connectionClosed)), fun s => ?_⟩
    simp only [move?, stopWriting?, apply_ite (Option.map _), endWriting_inform]
    rfl
  | reads chunk =>
    refine ⟨[], fun s => ?_⟩
    simp only [move?, read?, apply_ite (Option.map _)]
    rfl
  | readFails =>
    refine ⟨[], fun s => ?_⟩
    simp only [move?, readFails?, apply_ite (Option.map _)]
    rfl
  | stopsReading =>
    refine ⟨[], fun s => ?_⟩
    simp only [move?, stopReading?, apply_ite (Option.map _)]
    rfl
  | decodes =>
    refine ⟨[], fun s => ?_⟩
    simp only [move?, decode?, apply_ite (Option.map _), inform]
    rcases decode c.limit c.buffer with (_ | _) | _ <;> rfl
  | forwards =>
    refine ⟨[], fun s => ?_⟩
    cases hreader : c.reader with
    | holding m =>
      simp only [move?, forward?, inform, hreader, apply_ite (Option.map _)]
      rfl
    | waiting | decoding | stopped => simp [move?, forward?, inform, hreader]
  | sends m =>
    obtain ⟨news, hnews⟩ := submit_inform c m
    exact ⟨news, fun s => congrArg some (hnews s)⟩
  | closes | releases | withdraws | arrives => exact ⟨[], fun s => rfl⟩

end Channel

end ClusterNet.Messaging
