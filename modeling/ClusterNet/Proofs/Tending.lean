import ClusterNet.Proofs.Correlation
import ClusterNet.Proofs.Lanes

/-!
# Clients whose channel is closed

As long as a client takes messages, whoever still waits for a reply is listed, and whoever still sends
has a ticket that the writer will come to. So when the channel is closed and nothing moves any more, no
call waits for a reply, and one that sends does so only because the writer is in the middle of a frame.
-/

namespace ClusterNet.Messaging

open Wire

/-! ## What becomes of a ticket -/

namespace Channel

variable {c d : Channel} {t : Ticket}

/-- It is known what became of the message, or the writer has it or will come to it. -/
def Tracks (c : Channel) (t : Ticket) : Prop :=
  (c.outcome? t).isSome = true ∨ t ∈ (c.outbound ++ c.blocked).map (·.ticket) ∨ ∃ left, c.writer = .writing t left

/-- A part that has stopped has closed the channel, and the writer has left nothing behind. -/
structure Regular (c : Channel) : Prop where
  capacity : 0 < c.capacity
  attended : c.attended = true
  writer : c.writer = .stopped → c.closed = true ∧ c.outbound = [] ∧ c.blocked = []
  reader : c.reader = .stopped → c.closed = true

theorem regular_start (limit : Nat) {capacity : Nat} (h : 0 < capacity) : (start limit capacity).Regular :=
  ⟨h, rfl, by simp [start], by simp [start]⟩

/-- Nothing is sent. -/
structure Unsent (c d : Channel) : Prop where
  outbound : d.outbound = c.outbound
  blocked : d.blocked = c.blocked
  writer : d.writer = c.writer
  nextTicket : d.nextTicket = c.nextTicket
  settled : d.settled = c.settled
  capacity : d.capacity = c.capacity
  attended : d.attended = c.attended
  closed : c.closed = true → d.closed = true
  reader : d.reader = .stopped → c.reader = .stopped ∨ d.closed = true

/-- What a move does to what is to be sent. -/
inductive Shift (c : Channel) : Channel → Prop where
  | unsent {d : Channel} (unsent : c.Unsent d) : Shift c d
  | submits (m : Message) : Shift c (c.submit m).2
  | wrote {d : Channel} {b : Bytes} {popped : List Message} (wrote : Wrote c d b popped) : Shift c d
  | fails {t : Ticket} {left : Bytes} (writing : c.writer = .writing t left) :
      Shift c (c.endWriting.settle t (.error .io))

theorem shift_next? (h : c.next? = some d) : c.Shift d := by
  unfold next? at h
  split at h
  · rename_i q rest hidle hclosed hfirst
    dsimp only at h
    split at h
    · rename_i frame hframe
      obtain rfl := Option.some.inj h
      exact .wrote (.takes hidle hclosed hfirst hframe)
    · rename_i e he
      obtain rfl := Option.some.inj h
      exact .wrote (.refuses hidle hclosed hfirst he)
  · cases h

theorem shift_write? {n : Nat} {b : Bytes} (h : c.write? n = some (b, d)) : c.Shift d := by
  unfold write? at h
  split at h
  · rename_i t x left hwriting
    split at h
    · cases h
    · rename_i hn
      obtain ⟨rfl, rfl⟩ := Prod.mk.inj (Option.some.inj h)
      have hsplit : c.writer = .writing t ((x :: left).take n ++ (x :: left).drop n) := by
        rw [hwriting, List.take_append_drop]
      exact .wrote (.puts hsplit (by simp [List.take_eq_nil_iff, hn]))
  · cases h

theorem unsent_read {done : Bool} {b : Bytes} (h : Read c done d b) : c.Unsent d := by
  cases h with
  | takes | decodes | parks | passes => exact ⟨rfl, rfl, rfl, rfl, rfl, rfl, rfl, id, by simp⟩
  | ends | breaks | leaves => exact ⟨rfl, rfl, rfl, rfl, rfl, rfl, rfl, fun _ => rfl, fun _ => .inr rfl⟩

theorem shift_move? {m : ChannelMove} (hm : ∀ t, m ≠ .withdraws t) (h : c.move? m = some d) : c.Shift d := by
  cases m with
  | takes => exact shift_next? h
  | writes n =>
    obtain ⟨⟨b, e⟩, he, rfl⟩ := Option.map_eq_some_iff.mp h
    exact shift_write? he
  | flushes =>
    change c.flush? = some d at h
    unfold flush? at h
    split at h
    · rename_i hwriting
      obtain rfl := Option.some.inj h
      exact .wrote (.flushes hwriting)
    · cases h
  | writeFails =>
    change c.writeFails? = some d at h
    unfold writeFails? at h
    split at h
    · rename_i hwriting
      obtain rfl := Option.some.inj h
      exact .fails hwriting
    · cases h
  | stopsWriting =>
    change c.stopWriting? = some d at h
    unfold stopWriting? at h
    split at h
    · rename_i hwhy
      obtain rfl := Option.some.inj h
      exact .wrote (.ends hwhy.1 (hwhy.2.imp id fun hheld => by simpa using hheld.1))
    · cases h
  | reads chunk => exact .unsent (unsent_read (.of_read? h fun _ => rfl))
  | readFails => exact .unsent (unsent_read (.of_readFails? h))
  | stopsReading => exact .unsent (unsent_read (.of_stopReading? h))
  | decodes =>
    have hr : Read c true d [] := .of_decode? h
    exact .unsent (unsent_read hr)
  | forwards =>
    have hr : Read c true d [] := .of_forward? h
    exact .unsent (unsent_read hr)
  | closes =>
    obtain rfl := Option.some.inj h
    exact .unsent ⟨rfl, rfl, rfl, rfl, rfl, rfl, rfl, fun _ => rfl, .inl⟩
  | releases =>
    obtain rfl := Option.some.inj h
    exact .unsent ⟨rfl, rfl, rfl, rfl, rfl, rfl, rfl, id, .inl⟩
  | sends m =>
    obtain rfl := Option.some.inj h
    exact .submits m
  | withdraws t => exact absurd rfl (hm t)
  | arrives m =>
    obtain rfl := Option.some.inj h
    exact .unsent ⟨rfl, rfl, rfl, rfl, rfl, rfl, rfl, id, .inl⟩

/-! ## What a move keeps -/

theorem Unsent.tracks (h : c.Unsent d) (ht : c.Tracks t) : d.Tracks t := by
  rw [Tracks, outcome?, h.settled, h.outbound, h.blocked, h.writer]
  exact ht

theorem Unsent.regular (h : c.Unsent d) (hc : c.Regular) : d.Regular := by
  refine ⟨h.capacity ▸ hc.capacity, h.attended.trans hc.attended, ?_, fun hstopped => ?_⟩
  · rw [h.writer, h.outbound, h.blocked]
    exact fun hstopped => ⟨h.closed (hc.writer hstopped).1, (hc.writer hstopped).2⟩
  · exact (h.reader hstopped).elim (fun hc' => h.closed (hc.reader hc')) id

theorem tracks_settle (u : Ticket) (r : Except Failure Unit)
    (h : u = t ∨ c.Tracks t) : (c.settle u r).Tracks t := by
  rw [Tracks, outcome?_settle]
  split
  · exact .inl rfl
  · rename_i hne
    exact h.resolve_left fun heq => hne heq.symm

theorem tracks_endWriting (h : c.Tracks t) (hwriter : ∀ left, c.writer ≠ .writing t left) :
    c.endWriting.Tracks t := by
  have hall : ∀ (ps : List Parcel) (e : Channel), (e.outcome? t).isSome = true ∨ t ∈ ps.map (·.ticket) →
      ((ps.foldl (fun e p => e.settle p.ticket (.error .connectionClosed)) e).outcome? t).isSome = true := by
    intro ps
    induction ps with
    | nil => exact fun e he => he.resolve_right (by simp)
    | cons p ps ih =>
      intro e he
      refine ih _ ?_
      rw [outcome?_settle]
      split
      · exact .inl rfl
      · rename_i hne
        refine he.imp id fun hmem => ?_
        exact (List.mem_cons.mp hmem).resolve_left hne
  refine .inl (hall _ _ ?_)
  rcases h with hsome | hmem | ⟨left, hwriting⟩
  · exact .inl hsome
  · exact .inr hmem
  · exact absurd hwriting (hwriter left)

theorem tracks_submit (m : Message) (h : c.Tracks t) : (c.submit m).2.Tracks t := by
  unfold submit
  dsimp only
  split
  · exact tracks_settle c.nextTicket _ (.inr h)
  · split
    · refine h.imp id (.imp (fun hmem => ?_) id)
      simp only [List.map_append, List.mem_append] at hmem ⊢
      exact hmem.elim (fun ho => .inl (.inl ho)) .inr
    · refine h.imp id (.imp (fun hmem => ?_) id)
      simp only [List.map_append, List.mem_append] at hmem ⊢
      exact hmem.elim .inl fun hb => .inr (.inl hb)

theorem tracks_submit_new (c : Channel) (m : Message) : (c.submit m).2.Tracks (c.submit m).1 := by
  unfold submit
  dsimp only
  split
  · exact tracks_settle c.nextTicket _ (.inl rfl)
  · split
    · exact .inr (.inl (by simp))
    · exact .inr (.inl (by simp))

theorem Shift.tracks (h : c.Shift d) (ht : c.Tracks t) : d.Tracks t := by
  cases h with
  | unsent unsent => exact unsent.tracks ht
  | submits m => exact tracks_submit m ht
  | @fails u left writing =>
    by_cases hu : u = t
    · exact tracks_settle u _ (.inl hu)
    · refine tracks_settle u _ (.inr (tracks_endWriting ht fun left' hwriting => hu ?_))
      exact (Writer.writing.inj (writing.symm.trans hwriting)).1
  | wrote wrote =>
    have hmoved : ∀ {q : Parcel} {rest : List Parcel}, c.outbound = q :: rest →
        t ∈ (c.outbound ++ c.blocked).map (·.ticket) →
          q.ticket = t ∨ t ∈ ((rest ++ c.blocked.take 1) ++ c.blocked.drop 1).map (·.ticket) := by
      intro q rest first hmem
      rw [first, List.cons_append, List.map_cons] at hmem
      rw [List.append_assoc, List.take_append_drop]
      exact (List.mem_cons.mp hmem).imp Eq.symm id
    cases wrote with
    | ends idle => exact tracks_endWriting ht fun left hwriting => by simp [idle] at hwriting
    | takes idle running first =>
      rcases ht with hsome | hmem | ⟨left, hwriting⟩
      · exact .inl hsome
      · rcases hmoved first hmem with rfl | hrest
        · exact .inr (.inr ⟨_, rfl⟩)
        · exact .inr (.inl hrest)
      · simp [idle] at hwriting
    | @refuses q rest _ idle running first =>
      rcases ht with hsome | hmem | ⟨left, hwriting⟩
      · exact tracks_settle _ _ (.inr (.inl hsome))
      · exact tracks_settle _ _ ((hmoved first hmem).imp id fun hrest => .inr (.inl hrest))
      · simp [idle] at hwriting
    | puts writing =>
      refine ht.imp id (.imp id fun ⟨left, hwriting⟩ => ?_)
      obtain ⟨rfl, -⟩ := Writer.writing.inj (writing.symm.trans hwriting)
      exact ⟨_, rfl⟩
    | flushes writing =>
      rcases ht with hsome | hmem | ⟨left, hwriting⟩
      · exact tracks_settle _ _ (.inr (.inl hsome))
      · exact tracks_settle _ _ (.inr (.inr (.inl hmem)))
      · exact tracks_settle _ _ (.inl (Writer.writing.inj (writing.symm.trans hwriting)).1)

theorem regular_endWriting (h : c.Regular) : c.endWriting.Regular := by
  obtain ⟨settled, he⟩ := endWriting_eq c
  rw [he]
  exact ⟨h.capacity, h.attended, fun _ => ⟨rfl, rfl, rfl⟩, fun _ => rfl⟩

theorem regular_settle (h : c.Regular) (t : Ticket) (r : Except Failure Unit) : (c.settle t r).Regular :=
  ⟨h.capacity, h.attended, h.writer, h.reader⟩

theorem regular_submit (h : c.Regular) (m : Message) : (c.submit m).2.Regular := by
  unfold submit
  dsimp only
  split
  · exact ⟨h.capacity, h.attended, h.writer, h.reader⟩
  · rename_i hopen
    have hgoing : c.writer ≠ .stopped := fun hstopped => hopen (h.writer hstopped).1
    split
    · exact ⟨h.capacity, h.attended, fun hstopped => absurd hstopped hgoing, h.reader⟩
    · exact ⟨h.capacity, h.attended, fun hstopped => absurd hstopped hgoing, h.reader⟩

theorem Shift.regular (h : c.Shift d) (hc : c.Regular) : d.Regular := by
  cases h with
  | unsent unsent => exact unsent.regular hc
  | submits m => exact regular_submit hc m
  | fails writing => exact regular_settle (regular_endWriting hc) _ _
  | wrote wrote =>
    cases wrote with
    | ends idle => exact regular_endWriting hc
    | takes idle => exact ⟨hc.capacity, hc.attended, by simp, hc.reader⟩
    | refuses idle => exact ⟨hc.capacity, hc.attended, by simp [settle, idle], hc.reader⟩
    | puts writing => exact ⟨hc.capacity, hc.attended, by simp, hc.reader⟩
    | flushes writing => exact ⟨hc.capacity, hc.attended, by simp [settle], hc.reader⟩

theorem Shift.nextTicket_le (h : c.Shift d) : c.nextTicket ≤ d.nextTicket := by
  cases h with
  | unsent unsent => exact Nat.le_of_eq unsent.nextTicket.symm
  | submits m =>
    obtain ⟨outbound, blocked, settled, he⟩ := Channel.submit_eq c m
    rw [he]
    exact Nat.le_succ _
  | fails writing =>
    obtain ⟨settled, he⟩ := endWriting_eq c
    rw [he]
    exact Nat.le_refl _
  | wrote wrote =>
    cases wrote with
    | ends =>
      obtain ⟨settled, he⟩ := endWriting_eq c
      rw [he]
    | _ => exact Nat.le_refl _

theorem Shift.closed (h : c.Shift d) (hc : c.closed = true) : d.closed = true := by
  cases h with
  | unsent unsent => exact unsent.closed hc
  | submits m =>
    obtain ⟨outbound, blocked, settled, he⟩ := Channel.submit_eq c m
    rw [he]
    exact hc
  | fails writing =>
    obtain ⟨settled, he⟩ := endWriting_eq c
    rw [he]
    rfl
  | wrote wrote =>
    cases wrote with
    | ends =>
      obtain ⟨settled, he⟩ := endWriting_eq c
      rw [he]
    | _ => exact hc

end Channel

/-! ## What an act does to a call -/

/-- How a call goes on when an act has been taken on a client with this channel. -/
inductive Call.Passes (channel : Channel) (x : ClientAct) (a : Call) : Progress → Prop where
  | stays : Passes channel x a a.progress
  | leaves (isOpen : a.isOpen = true) : Passes channel x a .gone
  | sent {k : CallKey} {now : Nat} {t : Ticket} (proceeds : x = .proceeds k now) (sending : a.progress = .sending t)
      (told : channel.outcome? t = some (.ok ())) : Passes channel x a (.waiting (now + a.patience))
  | fails {t : Ticket} {e : Failure} (sending : a.progress = .sending t)
      (told : channel.outcome? t = some (.error e)) : Passes channel x a (.over (.error e))
  | looks {k : CallKey} {now due : Nat} {o : Outcome} (proceeds : x = .proceeds k now)
      (waiting : a.progress = .waiting due) (seen : a.look? now = some o) : Passes channel x a (.over o)

/-- What an act makes of a call. A slot that is not empty stays as it is. -/
structure Call.Turns (channel : Channel) (x : ClientAct) (a b : Call) : Prop where
  request : b.request = a.request
  slot : a.slot ≠ .empty → b.slot = a.slot
  progress : a.Passes channel x b.progress

/-- A call that has just begun, or was refused at once. -/
def Call.Begins (channel : Channel) (r : Request) (b : Call) : Prop :=
  b.request = r ∧ ((channel.closed = true ∧ b.progress = .over (.error .connectionClosed)) ∨
    (channel.closed = false ∧ b.slot = .empty ∧ b.progress = .sending (channel.submit (.request r)).1))

theorem Call.sending_or_waiting {a : Call} (hopen : a.isOpen = true) :
    (∃ t, a.progress = .sending t) ∨ ∃ due, a.progress = .waiting due := by
  unfold Call.isOpen at hopen
  split at hopen
  · exact .inl ⟨_, ‹_›⟩
  · exact .inr ⟨_, ‹_›⟩
  · cases hopen

theorem Call.slot_lose_ne (a : Call) : a.lose.slot ≠ .empty := by
  unfold lose
  split
  · simp
  · assumption

theorem Call.slot_fill_ne (a : Call) (o : Outcome) : (a.fill o).slot ≠ .empty := by
  unfold fill
  split
  · simp
  · assumption

theorem Call.slot_lose_eq {a : Call} (h : a.slot ≠ .empty) : a.lose.slot = a.slot := by
  unfold lose
  split
  · exact absurd ‹_› h
  · rfl

theorem Call.slot_fill_eq {a : Call} (h : a.slot ≠ .empty) (o : Outcome) : (a.fill o).slot = a.slot := by
  unfold fill
  split
  · exact absurd ‹_› h
  · rfl

section

variable {channel : Channel} {x : ClientAct} {a : Call}

theorem Call.Passes.sending {p : Progress} {t : Ticket} (h : a.Passes channel x p) (hp : p = .sending t) :
    a.progress = .sending t := by
  cases h with
  | stays => exact hp
  | _ => cases hp

theorem Call.turns_refl (a : Call) : a.Turns channel x a := ⟨rfl, fun _ => rfl, .stays⟩

theorem Call.turns_lose (a : Call) : a.Turns channel x a.lose :=
  ⟨Call.request_lose a, Call.slot_lose_eq, by rw [Call.progress_lose]; exact .stays⟩

theorem Call.turns_fill (a : Call) (o : Outcome) : a.Turns channel x (a.fill o) :=
  ⟨Call.request_fill a o, fun h => Call.slot_fill_eq h o, by rw [Call.progress_fill]; exact .stays⟩

end

namespace Client

variable {c d : Client} {k l : CallKey} {a b call : Call} {x : ClientAct}

theorem turns_forget {id : UInt64} {channel : Channel} (hb : (c.forget id).call? l = some b) :
    ∃ a, c.call? l = some a ∧ a.Turns channel x b := by
  rw [call?_forget] at hb
  split at hb
  · obtain ⟨a, ha, rfl⟩ := Option.map_eq_some_iff.mp hb
    exact ⟨a, ha, a.turns_lose⟩
  · exact ⟨b, hb, b.turns_refl⟩

theorem turns_finish {channel : Channel} {p : Progress} (hk : c.call? k = some call)
    (hp : call.Passes channel x p) (hb : (c.finish k p).call? l = some b) :
    ∃ a, c.call? l = some a ∧ a.Turns channel x b := by
  rw [call?_finish hk] at hb
  obtain ⟨a, ha, rfl⟩ := Option.map_eq_some_iff.mp hb
  have hprogress : a.Passes channel x (if l = k then p else a.progress) := by
    split
    · rename_i hl
      subst hl
      obtain rfl := Option.some.inj (hk.symm.trans ha)
      exact hp
    · exact .stays
  refine ⟨a, ha, ?_, fun hslot => ?_, hprogress⟩
  · unfold ended
    split
    · exact Call.request_lose a
    · rfl
  · unfold ended
    split
    · exact Call.slot_lose_eq hslot
    · rfl

theorem turns_proceed? {now : Nat} (hd : c.proceed? k now = some d) (hb : d.call? l = some b) :
    ∃ a, c.call? l = some a ∧ a.Turns c.channel (.proceeds k now) b := by
  obtain ⟨call, hcall, hopen, ⟨t, hsending, htold, rfl⟩ | ⟨o, rfl, hor⟩⟩ := proceed?_eq_some hd
  · simp only [call?, Table.get?_insert] at hb
    split at hb
    · rename_i hl
      subst hl
      obtain rfl := Option.some.inj hb
      exact ⟨call, hcall, rfl, fun _ => rfl, .sent rfl hsending htold⟩
    · exact ⟨b, hb, b.turns_refl⟩
  · refine turns_finish hcall ?_ hb
    rcases hor with ⟨t, e, hsending, htold, rfl⟩ | ⟨⟨due, hwaiting⟩, hlook⟩
    · exact .fails hsending htold
    · exact .looks rfl hwaiting hlook

theorem turns_receive? {channel : Channel} (hd : c.receive? = some d) (hb : d.call? l = some b) :
    ∃ a, c.call? l = some a ∧ a.Turns channel x b := by
  obtain ⟨-, ⟨r, channel, -, rfl⟩ | ⟨r, channel, -, rfl⟩ | ⟨-, -, rfl⟩⟩ := receive?_eq_some hd
  · rw [call?_deliver] at hb
    split at hb
    · obtain ⟨a, ha, rfl⟩ := Option.map_eq_some_iff.mp hb
      exact ⟨a, ha, a.turns_fill _⟩
    · exact ⟨b, hb, b.turns_refl⟩
  · exact ⟨b, hb, b.turns_refl⟩
  · rw [call?_cutOff] at hb
    split at hb
    · obtain ⟨a, ha, rfl⟩ := Option.map_eq_some_iff.mp hb
      exact ⟨a, ha, a.turns_fill _⟩
    · exact ⟨b, hb, b.turns_refl⟩

theorem turns_act (x : ClientAct) (hb : (c.act x).call? l = some b) :
    (∃ a, c.call? l = some a ∧ a.Turns c.channel x b) ∨
      (c.call? l = none ∧ ∃ r n, x = .begins l r n ∧ b.Begins c.channel r) := by
  cases x with
  | begins k r n =>
    simp only [act] at hb
    split at hb
    · rename_i hnone
      obtain ⟨slot, progress, hor, hcall⟩ := call?_begin c k r n
      rw [hcall] at hb
      split at hb
      · rename_i hl
        subst hl
        obtain rfl := Option.some.inj hb
        refine .inr ⟨Option.isNone_iff_eq_none.mp hnone, r, n, rfl, rfl, hor.imp ?_ id⟩
        exact fun h => ⟨h.1, h.2.2⟩
      · exact .inl (turns_forget hb)
    · exact .inl ⟨b, hb, b.turns_refl⟩
  | proceeds k now =>
    simp only [act] at hb
    cases hp : c.proceed? k now with
    | none =>
      rw [hp] at hb
      exact .inl ⟨b, hb, b.turns_refl⟩
    | some d =>
      rw [hp] at hb
      exact .inl (turns_proceed? hp hb)
  | abandons k =>
    change (c.abandon k).call? l = some b at hb
    rcases abandon_eq c k with he | ⟨call, channel, hcall, hopen, -, he⟩
    · rw [he] at hb
      exact .inl ⟨b, hb, b.turns_refl⟩
    · rw [he] at hb
      exact .inl (turns_finish (c := { c with channel }) hcall (.leaves hopen) hb)
  | receives =>
    simp only [act] at hb
    cases hp : c.receive? with
    | none =>
      rw [hp] at hb
      exact .inl ⟨b, hb, b.turns_refl⟩
    | some d =>
      rw [hp] at hb
      exact .inl (turns_receive? hp hb)
  | channel m => exact .inl ⟨b, hb, b.turns_refl⟩

/-! ## Who is listed -/

/-- Whoever still waits for an outcome is listed, and messages are still taken. -/
def Listed (c : Client) : Prop :=
  ∀ ⦃k a⦄, c.call? k = some a → a.isOpen = true → a.slot = .empty →
    c.receiving = true ∧ c.pending.get? a.request.id = some k

theorem Listed.forget (h : c.Listed) (id : UInt64) : (c.forget id).Listed := by
  intro l b hb hopen hslot
  rw [call?_forget] at hb
  split at hb
  · obtain ⟨a, -, rfl⟩ := Option.map_eq_some_iff.mp hb
    exact absurd hslot a.slot_lose_ne
  · rename_i hnot
    obtain ⟨hreceiving, hlisted⟩ := h hb hopen hslot
    refine ⟨by rw [receiving_forget, hreceiving], ?_⟩
    rw [pending_forget, if_neg, hlisted]
    rintro rfl
    exact hnot hlisted

theorem Listed.finish (h : c.Listed) (hk : c.call? k = some call) {p : Progress}
    (hp : p = .gone ∨ ∃ o, p = .over o) : (c.finish k p).Listed := by
  intro l b hb hopen hslot
  rw [call?_finish hk] at hb
  obtain ⟨a, ha, rfl⟩ := Option.map_eq_some_iff.mp hb
  unfold ended at hopen hslot ⊢
  split at hslot
  · exact absurd hslot a.slot_lose_ne
  · rename_i hnot
    rw [if_neg hnot] at hopen ⊢
    have hl : l ≠ k := by
      rintro rfl
      rw [Call.isOpen] at hopen
      rcases hp with rfl | ⟨o, rfl⟩
      · simp at hopen
      · simp at hopen
    simp only [hl, if_false] at hopen
    obtain ⟨hreceiving, hlisted⟩ := h ha hopen hslot
    refine ⟨by rw [receiving_finish, hreceiving], ?_⟩
    rw [pending_finish hk, if_neg, hlisted]
    intro hid
    exact hnot (hid ▸ hlisted)

theorem Listed.begin (h : c.Listed) (hreceiving : c.channel.closed = false → c.receiving = true) (k : CallKey)
    (r : Request) (n : Nat) : (c.begin k r n).Listed := by
  intro l b hb hopen hslot
  obtain ⟨slot, progress, hor, hcall⟩ := call?_begin c k r n
  rw [hcall] at hb
  rw [receiving_begin, pending_begin]
  split at hb
  · rename_i hl
    obtain rfl := Option.some.inj hb
    rcases hor with ⟨-, rfl, -⟩ | ⟨hclosed, -, -⟩
    · cases hslot
    · exact ⟨hreceiving hclosed, by simp [hclosed, hl]⟩
  · rename_i hl
    obtain ⟨hreceiving', hlisted⟩ := h.forget r.id hb hopen hslot
    rw [receiving_forget] at hreceiving'
    rw [pending_forget] at hlisted
    split at hlisted
    · cases hlisted
    · rename_i hne
      exact ⟨hreceiving', by rw [if_neg hne, hlisted]⟩

theorem Listed.proceed? {now : Nat} (h : c.Listed) (hd : c.proceed? k now = some d) : d.Listed := by
  obtain ⟨call, hcall, hopen, ⟨t, -, -, rfl⟩ | ⟨o, rfl, -⟩⟩ := proceed?_eq_some hd
  · intro l b hb hopen' hslot
    simp only [call?, Table.get?_insert] at hb
    split at hb
    · rename_i hl
      subst hl
      obtain rfl := Option.some.inj hb
      have hlisted := h hcall hopen hslot
      exact hlisted
    · exact h hb hopen' hslot
  · exact h.finish hcall (.inr ⟨o, rfl⟩)

theorem Listed.setChannel (h : c.Listed) (channel : Channel) : Listed { c with channel } := h

theorem Listed.abandon (h : c.Listed) (k : CallKey) : (c.abandon k).Listed := by
  rcases abandon_eq c k with he | ⟨call, channel, hcall, -, -, he⟩
  · rwa [he]
  · rw [he]
    exact (h.setChannel channel).finish hcall (.inl rfl)

theorem Listed.deliver (h : c.Listed) (r : Reply) : (c.deliver r).Listed := by
  intro l b hb hopen hslot
  rw [call?_deliver] at hb
  split at hb
  · obtain ⟨a, -, rfl⟩ := Option.map_eq_some_iff.mp hb
    exact absurd hslot (a.slot_fill_ne _)
  · rename_i hnot
    obtain ⟨hreceiving, hlisted⟩ := h hb hopen hslot
    refine ⟨by rw [receiving_deliver, hreceiving], ?_⟩
    rw [pending_deliver, if_neg, hlisted]
    intro hid
    exact hnot (hid ▸ hlisted)

theorem Listed.cutOff (h : c.Listed) : c.cutOff.Listed := by
  intro l b hb hopen hslot
  rw [call?_cutOff] at hb
  split at hb
  · obtain ⟨a, -, rfl⟩ := Option.map_eq_some_iff.mp hb
    exact absurd hslot (a.slot_fill_ne _)
  · rename_i hnot
    obtain ⟨-, hlisted⟩ := h hb hopen hslot
    exact absurd (List.mem_map.mpr ⟨_, Table.mem_of_lookup hlisted, rfl⟩) hnot

theorem Listed.receive? (h : c.Listed) (hd : c.receive? = some d) : d.Listed := by
  obtain ⟨-, ⟨r, channel, -, rfl⟩ | ⟨r, channel, -, rfl⟩ | ⟨-, -, rfl⟩⟩ := receive?_eq_some hd
  · exact (h.setChannel channel).deliver r
  · exact h.setChannel channel
  · exact h.cutOff

/-! ## What an act does to the channel -/

theorem tracks_withdraw {channel : Channel} {t u : Ticket} (h : channel.Tracks t) (hne : t ≠ u) :
    (channel.withdraw u).Tracks t := by
  refine h.imp id (.imp (fun hmem => ?_) id)
  rw [List.map_append, List.mem_append] at hmem
  simp only [Channel.withdraw, List.map_append, List.mem_append]
  refine hmem.imp id fun hblocked => ?_
  obtain ⟨p, hp, rfl⟩ := List.mem_map.mp hblocked
  exact List.mem_map_of_mem (List.mem_filter.mpr ⟨hp, by simpa using hne⟩)

/-- What else is sent over the channel may be taken back, but no request whose call still sends. -/
def Permits (c : Client) : ClientAct → Bool
  | .channel (.withdraws t) => c.calls.values.all fun a =>
      match a.progress with
      | .sending u => u != t
      | _ => true
  | _ => true

theorem Permits.ne {t u : Ticket} (h : c.Permits (.channel (.withdraws t)) = true) (ha : c.call? k = some a)
    (hsending : a.progress = .sending u) : u ≠ t := by
  have hmem : a ∈ c.calls.values := List.mem_map.mpr ⟨_, Table.mem_of_lookup ha, rfl⟩
  have hall := List.all_eq_true.mp h a hmem
  rw [hsending] at hall
  simpa using hall

theorem shift_act (c : Client) (x : ClientAct) : c.channel.Shift (c.act x).channel ∨
    ∃ t, (c.act x).channel = c.channel.withdraw t ∧
      (x = .channel (.withdraws t) ∨ ∃ k a, x = .abandons k ∧ c.call? k = some a ∧ a.progress = .sending t) := by
  have hsame : c.channel.Shift c.channel := .unsent ⟨rfl, rfl, rfl, rfl, rfl, rfl, rfl, id, .inl⟩
  cases x with
  | begins k r n =>
    refine .inl ?_
    simp only [act]
    split
    · rw [channel_begin]
      split
      · exact hsame
      · exact .submits _
    · exact hsame
  | proceeds k now =>
    refine .inl ?_
    simp only [act]
    cases hp : c.proceed? k now with
    | none => exact hsame
    | some d =>
      rw [Option.getD_some, channel_proceed? hp]
      exact hsame
  | abandons k =>
    change c.channel.Shift (c.abandon k).channel ∨ _
    rcases abandon_eq c k with he | ⟨call, channel, hcall, -, ⟨t, hsending, rfl⟩ | ⟨-, rfl⟩, he⟩
    · rw [he]
      exact .inl hsame
    · refine .inr ⟨t, ?_, .inr ⟨k, call, rfl, hcall, hsending⟩⟩
      change (c.abandon k).channel = _
      rw [he, channel_finish]
    · rw [he, channel_finish]
      exact .inl hsame
  | receives =>
    refine .inl ?_
    simp only [act]
    have hreceived : ∀ {m channel}, c.channel.receive? = some (m, channel) → c.channel.Shift channel := by
      intro m channel hr
      obtain ⟨rest, -, rfl⟩ := Channel.receive?_eq_some hr
      exact .unsent ⟨rfl, rfl, rfl, rfl, rfl, rfl, rfl, id, .inl⟩
    cases hp : c.receive? with
    | none => exact hsame
    | some d =>
      obtain ⟨-, ⟨r, channel, hr, rfl⟩ | ⟨r, channel, hr, rfl⟩ | ⟨-, -, rfl⟩⟩ := receive?_eq_some hp
      · rw [Option.getD_some, channel_deliver]
        exact hreceived hr
      · exact hreceived hr
      · exact hsame
  | channel m =>
    simp only [act]
    by_cases hm : ∃ t, m = .withdraws t
    · obtain ⟨t, rfl⟩ := hm
      exact .inr ⟨t, rfl, .inl rfl⟩
    · refine .inl ?_
      cases hmove : c.channel.move? m with
      | none => exact hsame
      | some d => exact Channel.shift_move? (fun t he => hm ⟨t, he⟩) hmove

theorem closed_act (x : ClientAct) (h : c.channel.closed = true) : (c.act x).channel.closed = true := by
  rcases shift_act c x with hshift | ⟨t, he, -⟩
  · exact hshift.closed h
  · rw [he]
    exact h

/-! ## What always holds -/

structure Tended (c : Client) : Prop where
  regular : c.channel.Regular
  listed : c.Listed
  /-- Messages are taken until the channel has ended. -/
  receiving : c.channel.closed = false → c.receiving = true
  ticket : ∀ ⦃k a t⦄, c.call? k = some a → a.progress = .sending t → t < c.channel.nextTicket ∧ c.channel.Tracks t
  /-- No two calls hold the same ticket. -/
  apart : ∀ ⦃k l a b t⦄, c.call? k = some a → c.call? l = some b → a.progress = .sending t →
    b.progress = .sending t → k = l

theorem tended_ofChannel (limit : Nat) {capacity : Nat} (h : 0 < capacity) :
    (ofChannel (.start limit capacity)).Tended where
  regular := Channel.regular_start limit h
  listed k a ha := by simp [ofChannel, call?] at ha
  receiving _ := rfl
  ticket k a t ha := by simp [ofChannel, call?] at ha
  apart k l a b t ha := by simp [ofChannel, call?] at ha

/-- Whoever sends after an act has sent before, or begins with the act and gets the next ticket. -/
theorem sending_act {t : Ticket} (hb : (c.act x).call? l = some b) (hsending : b.progress = .sending t) :
    (∃ a, c.call? l = some a ∧ a.progress = .sending t) ∨
      ((∃ r n, x = .begins l r n) ∧ t = c.channel.nextTicket ∧ ∃ m, (c.act x).channel = (c.channel.submit m).2) := by
  rcases turns_act x hb with ⟨a, ha, hturns⟩ | ⟨hnone, r, n, rfl, -, ⟨-, hover⟩ | ⟨hopen, -, hnew⟩⟩
  · exact .inl ⟨a, ha, hturns.progress.sending hsending⟩
  · rw [hover] at hsending
    cases hsending
  · have ht : t = c.channel.nextTicket := by
      have heq := Progress.sending.inj (hnew.symm.trans hsending)
      rw [← heq]
      rfl
    refine .inr ⟨⟨r, n, rfl⟩, ht, .request r, ?_⟩
    simp only [act, hnone, Option.isNone_none, if_true]
    rw [channel_begin, hopen, if_neg Bool.false_ne_true]

theorem gone_of_abandons {t : Ticket} (ha : c.call? k = some a) (hsending : a.progress = .sending t)
    (hb : (c.abandon k).call? k = some b) : b.progress = .gone := by
  unfold abandon at hb
  simp only [ha, hsending] at hb
  have hfinish := call?_finish (c := { c with channel := c.channel.withdraw t }) ha .gone k
  rw [hfinish] at hb
  obtain ⟨a', -, rfl⟩ := Option.map_eq_some_iff.mp hb
  simp [ended]

theorem Listed.act (h : c.Listed) (hreceiving : c.channel.closed = false → c.receiving = true) (x : ClientAct) :
    (c.act x).Listed := by
  cases x with
  | begins k r n =>
    simp only [Client.act]
    split
    · exact h.begin hreceiving k r n
    · exact h
  | proceeds k now =>
    simp only [Client.act]
    cases hp : c.proceed? k now with
    | none => exact h
    | some d => exact h.proceed? hp
  | abandons k => exact h.abandon k
  | receives =>
    simp only [Client.act]
    cases hp : c.receive? with
    | none => exact h
    | some d => exact h.receive? hp
  | channel m => exact h.setChannel _

theorem receiving_act (x : ClientAct) : (c.act x).receiving = c.receiving ∨ c.channel.reader = .stopped := by
  cases x with
  | begins k r n =>
    refine .inl ?_
    simp only [act]
    split
    · exact receiving_begin k r n
    · rfl
  | proceeds k now =>
    refine .inl ?_
    simp only [act]
    cases hp : c.proceed? k now with
    | none => rfl
    | some d => exact receiving_proceed? hp
  | abandons k =>
    refine .inl ?_
    change (c.abandon k).receiving = _
    rcases abandon_eq c k with he | ⟨call, channel, -, -, -, he⟩
    · rw [he]
    · rw [he, receiving_finish]
  | receives =>
    simp only [act]
    cases hp : c.receive? with
    | none => exact .inl rfl
    | some d =>
      obtain ⟨-, ⟨r, channel, -, rfl⟩ | ⟨r, channel, -, rfl⟩ | ⟨-, hended, -⟩⟩ := receive?_eq_some hp
      · exact .inl (by rw [Option.getD_some, receiving_deliver])
      · exact .inl rfl
      · exact .inr (by simpa using (Bool.and_eq_true_iff.mp hended).1)
  | channel m => exact .inl rfl

theorem regular_withdraw {channel : Channel} (h : channel.Regular) (t : Ticket) : (channel.withdraw t).Regular where
  capacity := h.capacity
  attended := h.attended
  writer hstopped := by
    obtain ⟨hclosed, hout, hblocked⟩ := h.writer hstopped
    exact ⟨hclosed, hout, by simp [Channel.withdraw, hblocked]⟩
  reader := h.reader

theorem Tended.regular_act (h : c.Tended) (x : ClientAct) :
    (c.act x).channel.Regular ∧ c.channel.nextTicket ≤ (c.act x).channel.nextTicket := by
  rcases shift_act c x with hshift | ⟨t, he, -⟩
  · exact ⟨hshift.regular h.regular, hshift.nextTicket_le⟩
  · rw [he]
    exact ⟨regular_withdraw h.regular t, Nat.le_refl _⟩

theorem Tended.receiving_act (h : c.Tended) (x : ClientAct) (hopen : (c.act x).channel.closed = false) :
    (c.act x).receiving = true := by
  have hbefore : c.channel.closed = false := by
    by_contra hclosed
    rw [closed_act x (by simpa using hclosed)] at hopen
    cases hopen
  rcases Client.receiving_act x with hsame | hstopped
  · rw [hsame, h.receiving hbefore]
  · rw [h.regular.reader hstopped] at hbefore
    cases hbefore

theorem Tended.ticket_act (h : c.Tended) (hpermits : c.Permits x = true) {t : Ticket}
    (hb : (c.act x).call? l = some b) (hsending : b.progress = .sending t) :
    t < (c.act x).channel.nextTicket ∧ (c.act x).channel.Tracks t := by
  rcases sending_act hb hsending with ⟨a, ha, hasending⟩ | ⟨-, rfl, m, he⟩
  · obtain ⟨hlt, htracks⟩ := h.ticket ha hasending
    refine ⟨Nat.lt_of_lt_of_le hlt (h.regular_act x).2, ?_⟩
    rcases shift_act c x with hshift | ⟨u, he, hwho⟩
    · exact hshift.tracks htracks
    · rw [he]
      refine tracks_withdraw htracks ?_
      rcases hwho with rfl | ⟨k, a', rfl, ha', hsending'⟩
      · exact Permits.ne hpermits ha hasending
      · -- The call that held this ticket is gone, and no other call holds it.
        rintro rfl
        obtain rfl := h.apart ha ha' hasending hsending'
        rw [gone_of_abandons ha' hsending' hb] at hsending
        cases hsending
  · rw [he]
    refine ⟨?_, Channel.tracks_submit_new c.channel m⟩
    obtain ⟨outbound, blocked, settled, hsubmit⟩ := Channel.submit_eq c.channel m
    rw [hsubmit]
    exact Nat.lt_succ_self _

theorem Tended.apart_act (h : c.Tended) {t : Ticket} (ha : (c.act x).call? k = some a)
    (hb : (c.act x).call? l = some b) (hasending : a.progress = .sending t) (hbsending : b.progress = .sending t) :
    k = l := by
  rcases sending_act ha hasending with ⟨a', ha', hasending'⟩ | ⟨⟨r, n, hx⟩, rfl, -⟩
  · rcases sending_act hb hbsending with ⟨b', hb', hbsending'⟩ | ⟨-, rfl, -⟩
    · exact h.apart ha' hb' hasending' hbsending'
    · exact absurd (h.ticket ha' hasending').1 (Nat.lt_irrefl _)
  · rcases sending_act hb hbsending with ⟨b', hb', hbsending'⟩ | ⟨⟨r', n', hx'⟩, -, -⟩
    · exact absurd (h.ticket hb' hbsending').1 (Nat.lt_irrefl _)
    · cases hx.symm.trans hx'
      rfl

theorem Tended.act (h : c.Tended) (hpermits : c.Permits x = true) : (c.act x).Tended where
  regular := (h.regular_act x).1
  listed := h.listed.act h.receiving x
  receiving := h.receiving_act x
  ticket _ _ _ hb hsending := h.ticket_act hpermits hb hsending
  apart _ _ _ _ _ ha hb := h.apart_act ha hb

/-! ## When nothing moves -/

end Client

/-- Nothing of a channel can move by itself. What may still happen is up to the stream. -/
def Channel.Still (c : Channel) : Prop :=
  ∀ m ∈ [ChannelMove.takes, .flushes, .stopsWriting, .stopsReading, .decodes, .forwards], c.move? m = none

theorem Channel.Still.writer {c : Channel} (h : c.Still) (hclosed : c.closed = true) :
    c.writer = .stopped ∨ ∃ t left, c.writer = .writing t left ∧ left ≠ [] := by
  cases hwriter : c.writer with
  | stopped => exact .inl rfl
  | idle =>
    have hstop : c.stopWriting? = none := h .stopsWriting (by simp)
    unfold Channel.stopWriting? at hstop
    rw [if_pos ⟨hwriter, .inl hclosed⟩] at hstop
    cases hstop
  | writing t left =>
    refine .inr ⟨t, left, rfl, ?_⟩
    rintro rfl
    have hflush : c.flush? = none := h .flushes (by simp)
    unfold Channel.flush? at hflush
    rw [hwriter] at hflush
    cases hflush

theorem Channel.Still.reader {c : Channel} (h : c.Still) (hregular : c.Regular) (hclosed : c.closed = true)
    (hin : c.inbound = []) : c.reader = .stopped := by
  cases hreader : c.reader with
  | stopped => rfl
  | waiting =>
    have hstop : c.stopReading? = none := h .stopsReading (by simp)
    unfold Channel.stopReading? at hstop
    rw [if_pos ⟨hreader, hclosed⟩] at hstop
    cases hstop
  | decoding => exact absurd (h .decodes (by simp)) (Channel.decode?_ne_none hreader)
  | holding m =>
    have hroom : c.inbound.length < c.capacity := by
      rw [hin]
      exact hregular.capacity
    exact absurd (h .forwards (by simp)) (Channel.forward?_ne_none hreader hroom)

namespace Client

variable {c : Client} {k : CallKey} {a : Call}

/-- Nothing of a client can move by itself. What may still happen is up to the stream. -/
structure Still (c : Client) (now : Nat) : Prop where
  channel : ∀ m ∈ [ChannelMove.takes, .flushes, .stopsWriting, .stopsReading, .decodes, .forwards],
    c.channel.move? m = none
  receives : c.receive? = none
  proceeds : ∀ k, c.proceed? k now = none

theorem Still.not_receiving {now : Nat} (h : c.Still now) (hregular : c.channel.Regular)
    (hclosed : c.channel.closed = true) : c.receiving = false := by
  by_contra hnot
  have hreceiving : c.receiving = true := by simpa using hnot
  have hin := inbound_of_receive? hreceiving h.receives
  have hstopped := Channel.Still.reader h.channel hregular hclosed hin
  have hnone := h.receives
  unfold receive? Channel.receive? Channel.ended at hnone
  simp [hreceiving, hin, hstopped] at hnone

/-- Whoever has not come to an end still sends, and waits for a writer that the stream does not let go on. -/
theorem Tended.rests {now : Nat} (h : c.Tended) (hclosed : c.channel.closed = true) (hstill : c.Still now)
    (ha : c.call? k = some a) (hopen : a.isOpen = true) :
    (∃ t, a.progress = .sending t ∧ c.channel.outcome? t = none) ∧
      ∃ t left, c.channel.writer = .writing t left ∧ left ≠ [] := by
  have hreceiving := hstill.not_receiving h.regular hclosed
  have hslot : a.slot ≠ .empty := by
    intro hempty
    have hlisted := (h.listed ha hopen hempty).1
    rw [hreceiving] at hlisted
    cases hlisted
  have hproceed := hstill.proceeds k
  unfold proceed? at hproceed
  rw [ha] at hproceed
  rcases Call.sending_or_waiting hopen with ⟨t, hsending⟩ | ⟨due, hwaiting⟩
  · have hnone : c.channel.outcome? t = none := by
      cases htold : c.channel.outcome? t with
      | none => rfl
      | some o => cases o <;> simp [hsending, htold] at hproceed
    refine ⟨⟨t, hsending, hnone⟩, (Channel.Still.writer hstill.channel hclosed).resolve_left fun hstopped => ?_⟩
    obtain ⟨-, hout, hblocked⟩ := h.regular.writer hstopped
    rcases (h.ticket ha hsending).2 with hsome | hmem | ⟨left, hwriting⟩
    · rw [hnone] at hsome
      cases hsome
    · rw [hout, hblocked] at hmem
      exact absurd hmem List.not_mem_nil
    · rw [hstopped] at hwriting
      cases hwriting
  · cases hs : a.slot with
    | empty => exact absurd hs hslot
    | filled o => simp [hwaiting, Call.look?, hs] at hproceed
    | lost => simp [hwaiting, Call.look?, hs] at hproceed

end Client

/-! ## A call that waits -/

/-- An act takes place before a time. -/
def ClientAct.Before (due : Nat) : ClientAct → Prop
  | .proceeds _ now => now < due
  | _ => True

/-- A call that waited until a time still does, was given up, or is over before that time. -/
def Call.Waited (due : Nat) (a : Call) : Prop :=
  a.progress = .waiting due ∨ a.progress = .gone ∨
    ∃ o, a.progress = .over o ∧ (o = .error .connectionClosed ∨ a.slot = .filled o)

theorem Call.Waited.turns {due : Nat} {a b : Call} {channel : Channel} {x : ClientAct} (h : a.Waited due)
    (hturns : a.Turns channel x b) (hbefore : x.Before due) : b.Waited due := by
  have hnot : ∀ t, a.progress ≠ .sending t := by
    intro t hsending
    rcases h with hp | hp | ⟨o, hp, -⟩
    · cases hp.symm.trans hsending
    · cases hp.symm.trans hsending
    · cases hp.symm.trans hsending
  have hpasses := hturns.progress
  generalize hb : b.progress = p at hpasses
  cases hpasses with
  | stays =>
    rw [Waited, hb]
    refine h.imp id (.imp id fun ⟨o, hover, hwhy⟩ => ⟨o, hover, hwhy.imp id fun hslot => ?_⟩)
    rw [hturns.slot (by simp [hslot]), hslot]
  | leaves => exact .inr (.inl hb)
  | sent _ sending => exact absurd sending (hnot _)
  | fails sending => exact absurd sending (hnot _)
  | looks proceeds waiting seen =>
    subst proceeds
    refine .inr (.inr ⟨_, hb, ?_⟩)
    obtain rfl : _ = due := by
      rcases h with hp | hp | ⟨o, hp, -⟩
      · exact Progress.waiting.inj (waiting.symm.trans hp)
      · cases waiting.symm.trans hp
      · cases waiting.symm.trans hp
    unfold Call.look? at seen
    rw [waiting] at seen
    dsimp only at seen
    split at seen
    · rename_i hslot
      obtain rfl := Option.some.inj seen
      exact .inr (by rw [hturns.slot (by simp [hslot]), hslot])
    · exact .inl (Option.some.inj seen).symm
    · rw [if_neg (Nat.not_le.mpr hbefore)] at seen
      cases seen

theorem Client.waited_act {c : Client} {k : CallKey} {a : Call} {due : Nat} {x : ClientAct} (hk : c.call? k = some a)
    (h : a.Waited due) (hbefore : x.Before due) :
    ∃ b, (c.act x).call? k = some b ∧ b.request = a.request ∧ b.Waited due := by
  obtain ⟨b, hb, hrequest, -⟩ := Watched.keeps_act c x hk
  rcases Client.turns_act x hb with ⟨a', ha', hturns⟩ | ⟨hnone, -⟩
  · obtain rfl := Option.some.inj (hk.symm.trans ha')
    exact ⟨b, hb, hrequest, h.turns hturns hbefore⟩
  · rw [hk] at hnone
    cases hnone

end ClusterNet.Messaging
