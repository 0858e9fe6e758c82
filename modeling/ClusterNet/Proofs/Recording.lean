import ClusterNet.Proofs.Tapes

/-!
# What each step adds to the record

The record of a channel stays faithful whatever happens to the channel, and it only grows.
-/

namespace ClusterNet.Messaging

open Wire

namespace Tape

variable {x : Tape} {gone : List Parcel} {d : Channel}

/-! ## What was written -/

/-- What was written stays as it was, unless something new is said of the last message. -/
theorem Written.congr {y : Tape} (h : x.Written gone) (hlimit : y.channel.limit = x.channel.limit)
    (hwriter : y.channel.writer = x.channel.writer) (hpieces : y.pieces = x.pieces)
    (hgone : ∀ p ∈ gone, y.channel.outcome? p.ticket = x.channel.outcome? p.ticket) : y.Written gone := by
  have hbytes : y.bytes = x.bytes := by rw [bytes, hpieces, bytes]
  cases h with
  | whole going whole =>
    exact .whole (by rwa [hwriter]) (by rw [hbytes, hlimit, whole])
  | @amid before p done left last writing encoded bytes mine untold =>
    exact .amid last (hwriter.trans writing) (by rw [hlimit, encoded]) (by rw [hbytes, hlimit, bytes])
      (by rw [hpieces, mine]) (by rw [hgone p (by simp [last]), untold])
  | @cut before p done left last stopped encoded missing bytes failed =>
    exact .cut last (hwriter.trans stopped) (by rw [hlimit, encoded]) missing (by rw [hbytes, hlimit, bytes])
      (by rw [hgone p (by simp [last]), failed])

theorem Written.of_idle (h : x.Written gone) (hidle : x.channel.writer = .idle) :
    x.bytes = framesOf x.channel.limit gone := by
  cases h with
  | whole _ bytes => exact bytes
  | amid _ writing => simp [hidle] at writing
  | cut _ stopped => simp [hidle] at stopped

theorem Written.of_writing (h : x.Written gone) {t : Ticket} {left : Bytes}
    (hwriting : x.channel.writer = .writing t left) : ∃ before p done, gone = before ++ [p] ∧ p.ticket = t ∧
      encode x.channel.limit p.message = .ok (done ++ left) ∧
      x.bytes = framesOf x.channel.limit before ++ done ∧ taken t x.pieces = done ∧
      x.channel.outcome? t = none := by
  cases h with
  | whole going => exact absurd hwriting (going t left)
  | @amid before p done left' last writing encoded bytes mine untold =>
    obtain ⟨rfl, rfl⟩ := Writer.writing.inj (writing.symm.trans hwriting)
    exact ⟨before, p, done, last, rfl, encoded, bytes, mine, untold⟩
  | cut _ stopped => simp [hwriting] at stopped

/-! ## Each step -/

namespace Faithful

theorem sameOut (h : x.Faithful gone) (hd : x.channel.SameOut d) : (x.turn d).Faithful gone := by
  rw [turn_of_subset fun p hp => by rwa [hd.outbound] at hp]
  exact {
    toOrderly := h.toOrderly.congr hd.limit hd.outbound hd.blocked hd.nextTicket hd.settled
      (fun hgoing => by rwa [hd.writer] at hgoing) (fun hstopped => hd.writer ▸ hstopped) hd.closed
    written := h.written.congr hd.limit hd.writer rfl fun p _ => hd.outcome? p.ticket }

theorem refuse (h : x.Faithful gone) : (x.turn x.channel.refuse.2).Faithful gone := by
  rw [turn_of_subset (d := x.channel.refuse.2) fun p hp => hp]
  exact {
    toOrderly := h.toOrderly.refuse
    written := h.written.congr rfl rfl rfl fun p hp =>
      (Channel.outcome?_settle _ _ _ _).trans (if_neg (Nat.ne_of_lt (h.issued p (h.mem_of_gone hp)))) }

theorem enqueue (h : x.Faithful gone) (m : Message) : (x.turn (x.channel.enqueue m).2).Faithful gone := by
  unfold Channel.enqueue
  by_cases hgoing : x.channel.writer = .stopped
  · rw [if_pos hgoing]
    exact h.refuse
  rw [if_neg hgoing]
  obtain ⟨lost, hqueued, hlost⟩ := h.queued
  obtain rfl := hlost hgoing
  rw [List.append_nil] at hqueued
  dsimp only
  split
  · rename_i hroom
    have hblocked : x.channel.blocked = [] := by
      simp only [Bool.and_eq_true, List.isEmpty_iff] at hroom
      exact hroom.1
    have hnot : (⟨x.channel.nextTicket, m⟩ : Parcel) ∉ x.channel.outbound := fun hmem =>
      Nat.lt_irrefl _ (h.issued _ (h.mem_of_waiting (List.mem_append_left _ hmem)))
    have hnew : (x.channel.outbound ++ [(⟨x.channel.nextTicket, m⟩ : Parcel)]).filter
        (fun p => p ∉ x.channel.outbound) = [⟨x.channel.nextTicket, m⟩] := by
      rw [List.filter_append, List.filter_eq_nil_iff.mpr (by simp)]
      simp [hnot]
    refine ⟨h.join (q := ⟨x.channel.nextTicket, m⟩) rfl hgoing rfl rfl rfl ?_ ?_ ?_,
      h.written.congr rfl rfl rfl fun _ _ => rfl⟩
    · rw [turn, hnew, hqueued, List.append_assoc]
    · rw [turn, hnew, hblocked]
      simp
    · rw [hblocked]
      simp
  · have hsame : ∀ {d : Channel}, d.outbound = x.channel.outbound → (x.turn d).queued = x.queued := by
      intro d hout
      rw [turn_of_subset fun p hp => hout ▸ hp]
    refine ⟨h.join (q := ⟨x.channel.nextTicket, m⟩) rfl hgoing rfl rfl rfl ?_ ?_ ?_,
      h.written.congr rfl rfl rfl fun _ _ => rfl⟩
    · exact (hsame rfl).trans hqueued
    · rw [hsame (by rfl), List.append_assoc]
    · exact (List.append_assoc _ _ _).symm

theorem submit (h : x.Faithful gone) (m : Message) : (x.turn (x.channel.submit m).2).Faithful gone := by
  rw [x.channel.submit_eq_enqueue m fun hstopped => (h.stopped hstopped).2.2]
  split
  · exact h.refuse
  · exact h.enqueue m

theorem withdraw (h : x.Faithful gone) (t : Ticket) : (x.turn (x.channel.withdraw t)).Faithful gone := by
  have hsub : (x.channel.withdraw t).blocked.Sublist x.channel.blocked := List.filter_sublist
  rw [turn_of_subset (d := x.channel.withdraw t) fun p hp => hp]
  refine ⟨⟨h.queued, ?_, ?_, h.unissued, ?_, h.pieces, h.starts, h.sent, h.refused, h.unsent, h.flushed, ?_⟩,
    h.written.congr rfl rfl rfl fun _ _ => rfl⟩
  · exact h.distinct.sublist (((List.Sublist.refl _).append hsub).map _)
  · exact fun p hp => h.issued p (((List.Sublist.refl _).append hsub).subset hp)
  · exact fun p hp => h.untold p (((List.Sublist.refl _).append hsub).subset hp)
  · intro hstopped
    obtain ⟨hout, hblocked, hclosed⟩ := h.stopped hstopped
    exact ⟨hout, List.sublist_nil.mp (hblocked ▸ hsub), hclosed⟩

theorem takes (h : x.Faithful gone) {q : Parcel} {rest : List Parcel} {frame : Bytes}
    (hidle : x.channel.writer = .idle) (hfirst : x.channel.outbound = q :: rest)
    (hframe : encode x.channel.limit q.message = .ok frame) :
    (x.turn { x.channel with
      outbound := rest ++ x.channel.blocked.take 1
      blocked := x.channel.blocked.drop 1
      writer := .writing q.ticket frame }).Faithful (gone ++ [q]) where
  toOrderly := h.pop hidle hfirst rfl rfl (by simp) rfl rfl rfl
  written := by
    have hq : q ∈ x.channel.outbound ++ x.channel.blocked := by simp [hfirst]
    have hencoded : encode x.channel.limit q.message = .ok ([] ++ frame) := hframe
    exact .amid rfl rfl hencoded ((h.written.of_idle hidle).trans (List.append_nil _).symm)
      (h.taken_waiting hq) (h.untold q hq)

theorem skip (h : x.Faithful gone) {q : Parcel} {rest : List Parcel} {e : FrameFault}
    (hidle : x.channel.writer = .idle) (hfirst : x.channel.outbound = q :: rest)
    (he : encode x.channel.limit q.message = .error e) :
    (x.turn { x.channel with
      outbound := rest ++ x.channel.blocked.take 1
      blocked := x.channel.blocked.drop 1 }).Faithful (gone ++ [q]) where
  toOrderly := h.pop hidle hfirst rfl rfl (by simp [hidle]) rfl rfl rfl
  written := by
    refine .whole (by simp [turn, hidle]) ?_
    exact (h.written.of_idle hidle).trans (framesOf_concat_of_refused he).symm

theorem refuses (h : x.Faithful gone) {q : Parcel} {rest : List Parcel} {e : FrameFault}
    (hidle : x.channel.writer = .idle) (hfirst : x.channel.outbound = q :: rest)
    (he : encode x.channel.limit q.message = .error e) :
    (x.turn ({ x.channel with
      outbound := rest ++ x.channel.blocked.take 1
      blocked := x.channel.blocked.drop 1 }.settle q.ticket (.error (.codec e)))).Faithful (gone ++ [q]) := by
  have hskip := h.skip hidle hfirst he
  refine ⟨hskip.toOrderly.settle (p := q) (by simp) (by simp) ?_ fun _ _ _ => not_sendable_of_encode he, ?_⟩
  · intro fault hfault
    obtain rfl := Failure.codec.inj (Except.error.inj hfault)
    exact he
  · exact .whole (by simp [turn, Channel.settle, hidle]) (hskip.written.of_idle hidle)

theorem puts (h : x.Faithful gone) {t : Ticket} {b left : Bytes} (hwriting : x.channel.writer = .writing t (b ++ left)) :
    Faithful { x with
      channel := { x.channel with writer := .writing t left }
      pieces := x.pieces ++ [⟨t, b⟩] } gone := by
  obtain ⟨before, p, done, rfl, rfl, hencoded, hbytes, hmine, huntold⟩ := h.written.of_writing hwriting
  have hp : p ∈ before ++ [p] := by simp
  have hsendable := sendable_of_encode hencoded
  refine ⟨⟨?_, h.distinct, h.issued, h.unissued, h.untold, ?_, ?_, ?_, h.refused, h.unsent, ?_, by simp⟩, ?_⟩
  · obtain ⟨lost, hqueued, hlost⟩ := h.queued
    exact ⟨lost, hqueued, fun _ => hlost (by simp [hwriting])⟩
  · intro y hy
    rcases List.mem_append.mp hy with hy | hy
    · exact h.pieces y hy
    · rw [List.mem_singleton.mp hy]
      exact ⟨p, hp, hsendable, rfl⟩
  · intro q hq frame hframe
    dsimp only
    by_cases hqp : p.ticket = q.ticket
    · obtain rfl := h.inj (h.mem_of_gone hp) (h.mem_of_gone hq) hqp
      obtain rfl := Except.ok.inj (hencoded.symm.trans hframe)
      rw [taken_concat_self, hmine, ← List.append_assoc]
      exact List.prefix_append _ _
    · rw [taken_concat_of_ne hqp]
      exact h.starts q hq frame hframe
  · intro t ht
    obtain ⟨q, hq, hqt, hencode, hall⟩ := h.sent t ht
    have hne : p.ticket ≠ t := by
      rintro rfl
      exact absurd (huntold.symm.trans ht) (by simp)
    dsimp only
    rw [taken_concat_of_ne hne, List.take_append_of_le_length h.flushed]
    exact ⟨q, hq, hqt, hencode, hall⟩
  · exact Nat.le_trans h.flushed (by simp)
  · rw [← List.append_assoc] at hencoded
    refine .amid rfl rfl hencoded ?_ ?_ huntold
    · rw [← List.append_assoc, ← hbytes]
      simp [bytes]
    · rw [taken_concat_self, hmine]

theorem flushes (h : x.Faithful gone) {t : Ticket} (hwriting : x.channel.writer = .writing t []) :
    Faithful { x with
      channel := { x.channel with writer := .idle }.settle t (.ok ())
      flushed := x.pieces.length } gone := by
  obtain ⟨before, p, done, rfl, rfl, hencoded, hbytes, hmine, huntold⟩ := h.written.of_writing hwriting
  rw [List.append_nil] at hencoded
  have hall : ∀ {ys : List Piece}, ys.take ys.length = ys := List.take_length
  have hidle : Orderly { x with
      channel := { x.channel with writer := .idle }
      flushed := x.pieces.length } (before ++ [p]) := by
    refine ⟨?_, h.distinct, h.issued, h.unissued, h.untold, h.pieces, h.starts, ?_, h.refused, h.unsent,
      Nat.le_refl _, by simp⟩
    · obtain ⟨lost, hqueued, hlost⟩ := h.queued
      exact ⟨lost, hqueued, fun _ => hlost (by simp [hwriting])⟩
    · intro t ht
      obtain ⟨q, hq, hqt, hencode, htaken⟩ := h.sent t ht
      exact ⟨q, hq, hqt, by rw [hall, htaken]; exact hencode, by rw [hall]⟩
  refine ⟨hidle.settle (p := p) (by simp) (fun _ => ?_) (by simp) (by simp), ?_⟩
  · dsimp only
    rw [hall, hmine]
    exact ⟨hencoded, rfl⟩
  · refine .whole (by simp [Channel.settle]) ?_
    exact hbytes.trans (framesOf_concat_of_encode hencoded).symm

theorem ends (h : x.Faithful gone) (hidle : x.channel.writer = .idle) :
    (x.turn x.channel.endWriting).Faithful gone := by
  obtain ⟨settled, he⟩ := endWriting_eq x.channel
  rw [turn_endWriting rfl]
  refine ⟨h.toOrderly.endWriting, .whole (by simp [he]) ?_⟩
  exact (h.written.of_idle hidle).trans (by rw [(sameReader_endWriting x.channel).limit])

theorem fails (h : x.Faithful gone) {t : Ticket} {left : Bytes} (hwriting : x.channel.writer = .writing t left) :
    (x.turn (x.channel.endWriting.settle t (.error .io))).Faithful gone := by
  obtain ⟨before, p, done, rfl, rfl, hencoded, hbytes, hmine, huntold⟩ := h.written.of_writing hwriting
  rw [turn_endWriting (d := x.channel.endWriting.settle p.ticket (.error .io)) rfl]
  obtain ⟨settled, he⟩ := endWriting_eq x.channel
  have hlimit := (sameReader_endWriting x.channel).limit
  refine ⟨h.toOrderly.endWriting.settle (p := p) (by simp) (by simp) (by simp)
    (fun e he hio => absurd (Except.error.inj he).symm hio), ?_⟩
  by_cases hleft : left = []
  · rw [hleft, List.append_nil] at hencoded
    refine .whole (by simp [Channel.settle, he]) ?_
    exact hbytes.trans ((framesOf_concat_of_encode hencoded).symm.trans (by simp only [Channel.settle, hlimit]))
  · refine .cut rfl (by simp [Channel.settle, he]) (by simpa only [Channel.settle, hlimit] using hencoded) hleft
      (hbytes.trans (by simp only [Channel.settle, hlimit])) ?_
    exact (Channel.outcome?_settle _ _ _ _).trans (if_pos rfl)

/-- Whatever happens to the channel, the record stays faithful, and what has left the queue stays gone. -/
theorem move? (h : x.Faithful gone) {m : ChannelMove} {y : Tape} (hy : x.move? m = some y) :
    ∃ more, y.Faithful (gone ++ more) := by
  have hstill : y.Faithful gone → ∃ more, y.Faithful (gone ++ more) := fun hy => ⟨[], by rwa [List.append_nil]⟩
  cases m with
  | takes =>
    obtain ⟨d, hd, rfl⟩ := Option.map_eq_some_iff.mp hy
    obtain ⟨hidle, q, rest, hfirst, ⟨frame, hframe, rfl⟩ | ⟨e, he, rfl⟩⟩ := Channel.next?_eq_some hd
    · exact ⟨[q], h.takes hidle hfirst hframe⟩
    · exact ⟨[q], h.refuses hidle hfirst he⟩
  | writes n =>
    change x.write? n = some y at hy
    obtain ⟨t, b, left, hwriting, rfl⟩ := write?_eq_some hy
    exact hstill (h.puts hwriting)
  | flushes =>
    change x.flush? = some y at hy
    obtain ⟨t, hwriting, rfl⟩ := flush?_eq_some hy
    exact hstill (h.flushes hwriting)
  | writeFails =>
    obtain ⟨d, hd, rfl⟩ := Option.map_eq_some_iff.mp hy
    obtain ⟨t, left, hwriting, rfl⟩ := Channel.writeFails?_eq_some hd
    exact hstill (h.fails hwriting)
  | stopsWriting =>
    obtain ⟨d, hd, rfl⟩ := Option.map_eq_some_iff.mp hy
    obtain ⟨hidle, rfl⟩ := Channel.stopWriting?_eq_some hd
    exact hstill (h.ends hidle)
  | sends m =>
    obtain rfl := Option.some.inj hy
    exact hstill (h.submit m)
  | withdraws t =>
    obtain rfl := Option.some.inj hy
    exact hstill (h.withdraw t)
  | reads | readFails | stopsReading | decodes | forwards | closes | releases | arrives =>
    rw [move?_eq_map (by simp) (by simp)] at hy
    obtain ⟨d, hd, rfl⟩ := Option.map_eq_some_iff.mp hy
    exact hstill (h.sameOut (Channel.sameOut_move? rfl hd))

end Faithful

/-! ## What was taken stays taken -/

/-- A later record of the same channel. -/
structure Extends (x y : Tape) : Prop where
  pieces : ∃ more, y.pieces = x.pieces ++ more
  queued : ∃ more, y.queued = x.queued ++ more
  /-- A writer that has stopped writes nothing more. -/
  silent : x.channel.writer = .stopped → y.pieces = x.pieces
  later : x.channel.Later y.channel
  /-- What a ticket says stays true. -/
  told : ∀ t r, x.channel.outcome? t = some r → y.channel.outcome? t = some r
  parcels : ∀ p ∈ y.queued ++ y.channel.blocked,
    p ∈ x.queued ++ x.channel.blocked ∨ x.channel.nextTicket ≤ p.ticket

namespace Faithful

variable {y : Tape}

theorem extends_turn (h : x.Faithful gone) (hlater : x.channel.Later d)
    (htold : ∀ t r, x.channel.outcome? t = some r → d.outcome? t = some r) : x.Extends (x.turn d) where
  pieces := ⟨[], (List.append_nil _).symm⟩
  queued := ⟨_, rfl⟩
  silent _ := rfl
  later := hlater
  told := htold
  parcels p hp := by
    have hwaiting : p ∈ d.outbound ++ d.blocked →
        p ∈ x.queued ++ x.channel.blocked ∨ x.channel.nextTicket ≤ p.ticket :=
      fun hp => (hlater.waiting p hp).imp h.mem_of_waiting id
    change p ∈ (x.queued ++ d.outbound.filter fun p => p ∉ x.channel.outbound) ++ d.blocked at hp
    rcases List.mem_append.mp hp with hp | hp
    · rcases List.mem_append.mp hp with hp | hp
      · exact .inl (List.mem_append_left _ hp)
      · exact hwaiting (List.mem_append_left _ (List.mem_filter.mp hp).1)
    · exact hwaiting (List.mem_append_right _ hp)

theorem extends_sameOut (h : x.Faithful gone) (hd : x.channel.SameOut d) : x.Extends (x.turn d) :=
  h.extends_turn hd.later fun t _ ht => (hd.outcome? t).trans ht

theorem told_settle {e : Channel} {u : Ticket} {r : Except Failure Unit} (hu : x.channel.outcome? u = none)
    (he : ∀ t r, x.channel.outcome? t = some r → e.outcome? t = some r) {t : Ticket} {r' : Except Failure Unit}
    (ht : x.channel.outcome? t = some r') : (e.settle u r).outcome? t = some r' := by
  have hne : t ≠ u := by
    rintro rfl
    rw [hu] at ht
    cases ht
  rw [Channel.outcome?_settle, if_neg hne]
  exact he t r' ht

theorem told_endWriting (h : x.Faithful gone) {t : Ticket} {r : Except Failure Unit}
    (ht : x.channel.outcome? t = some r) : x.channel.endWriting.outcome? t = some r := by
  rw [Channel.outcome?_endWriting_eq, if_neg, ht]
  intro hmem
  obtain ⟨p, hp, rfl⟩ := List.mem_map.mp hmem
  rw [h.untold p hp] at ht
  cases ht

theorem extends_refuse (h : x.Faithful gone) : x.Extends (x.turn x.channel.refuse.2) :=
  h.extends_turn (Channel.later_refuse _) fun _ _ ht =>
    told_settle (x := x) (e := { x.channel with nextTicket := x.channel.nextTicket + 1 })
      (h.unissued _ (Nat.le_refl _)) (fun _ _ => id) ht

theorem extends_enqueue (h : x.Faithful gone) (m : Message) : x.Extends (x.turn (x.channel.enqueue m).2) := by
  by_cases hstopped : x.channel.writer = .stopped
  · rw [Channel.enqueue, if_pos hstopped]
    exact h.extends_refuse
  · refine h.extends_turn (Channel.later_enqueue _ m) fun t r ht => ?_
    rw [Channel.enqueue, if_neg hstopped]
    dsimp only
    split <;> exact ht

theorem extends_submit (h : x.Faithful gone) (m : Message) : x.Extends (x.turn (x.channel.submit m).2) := by
  rw [x.channel.submit_eq_enqueue m fun hstopped => (h.stopped hstopped).2.2]
  split
  · exact h.extends_refuse
  · exact h.extends_enqueue m

theorem extends_withdraw (h : x.Faithful gone) (t : Ticket) : x.Extends (x.turn (x.channel.withdraw t)) :=
  h.extends_turn (Channel.later_withdraw _ t) fun _ _ => id

theorem extends_move? (h : x.Faithful gone) {m : ChannelMove} (hy : x.move? m = some y) : x.Extends y := by
  have hregular : x.channel.writer = .stopped → x.channel.closed = true := fun hstopped => (h.stopped hstopped).2.2
  have hchannel : ∀ {d : Channel}, x.channel.move? m = some d →
      (∀ t r, x.channel.outcome? t = some r → d.outcome? t = some r) → x.Extends (x.turn d) :=
    fun hd => h.extends_turn (Channel.later_move? hregular hd)
  have hnil : ∀ {α : Type} {l : List α}, ∃ more, l = l ++ more := ⟨[], (List.append_nil _).symm⟩
  cases m with
  | takes =>
    obtain ⟨d, hd, rfl⟩ := Option.map_eq_some_iff.mp hy
    refine hchannel hd fun t r ht => ?_
    obtain ⟨-, q, rest, hfirst, ⟨frame, -, rfl⟩ | ⟨e, -, rfl⟩⟩ := Channel.next?_eq_some hd
    · exact ht
    · exact told_settle (h.untold q (by simp [hfirst])) (fun _ _ => id) ht
  | writes n =>
    have hd := congrArg (·.map (·.channel)) hy
    rw [channel_move?] at hd
    change x.write? n = some y at hy
    obtain ⟨t, b, left, hwriting, rfl⟩ := write?_eq_some hy
    exact ⟨⟨_, rfl⟩, hnil, fun hstopped => by simp [hwriting] at hstopped, Channel.later_move? hregular hd,
      fun _ _ => id, fun _ => .inl⟩
  | flushes =>
    have hd := congrArg (·.map (·.channel)) hy
    rw [channel_move?] at hd
    change x.flush? = some y at hy
    obtain ⟨t, hwriting, rfl⟩ := flush?_eq_some hy
    obtain ⟨before, p, done, -, rfl, -, -, -, huntold⟩ := h.written.of_writing hwriting
    exact ⟨hnil, hnil, fun _ => rfl, Channel.later_move? hregular hd,
      fun t r ht => told_settle huntold (fun _ _ => id) ht, fun _ => .inl⟩
  | writeFails =>
    obtain ⟨d, hd, rfl⟩ := Option.map_eq_some_iff.mp hy
    refine hchannel hd fun t r ht => ?_
    obtain ⟨u, left, hwriting, rfl⟩ := Channel.writeFails?_eq_some hd
    obtain ⟨before, p, done, -, rfl, -, -, -, huntold⟩ := h.written.of_writing hwriting
    exact told_settle huntold (fun _ _ => h.told_endWriting) ht
  | stopsWriting =>
    obtain ⟨d, hd, rfl⟩ := Option.map_eq_some_iff.mp hy
    refine hchannel hd fun t r ht => ?_
    obtain ⟨-, rfl⟩ := Channel.stopWriting?_eq_some hd
    exact h.told_endWriting ht
  | reads | readFails | stopsReading | decodes | forwards | closes | releases | arrives =>
    rw [move?_eq_map (by simp) (by simp)] at hy
    obtain ⟨d, hd, rfl⟩ := Option.map_eq_some_iff.mp hy
    exact h.extends_sameOut (Channel.sameOut_move? rfl hd)
  | sends m =>
    obtain rfl := Option.some.inj hy
    exact h.extends_submit m
  | withdraws t =>
    obtain rfl := Option.some.inj hy
    exact h.extends_withdraw t

/-! ## New tickets -/

theorem own_refuse (h : x.Faithful gone) (m : Message) :
    ∀ q ∈ (x.turn x.channel.refuse.2).queued ++ x.channel.refuse.2.blocked,
      q.ticket = x.channel.nextTicket → q = ⟨x.channel.nextTicket, m⟩ := by
  intro q hq hqt
  rw [turn_of_subset (d := x.channel.refuse.2) fun p hp => hp] at hq
  exact absurd hqt (Nat.ne_of_lt (h.issued q hq))

theorem own_enqueue (h : x.Faithful gone) (m : Message) :
    ∀ q ∈ (x.turn (x.channel.enqueue m).2).queued ++ (x.channel.enqueue m).2.blocked,
      q.ticket = x.channel.nextTicket → q = ⟨x.channel.nextTicket, m⟩ := by
  have hold : ∀ q ∈ x.queued ++ x.channel.blocked, q.ticket ≠ x.channel.nextTicket :=
    fun q hq => Nat.ne_of_lt (h.issued q hq)
  have hwaiting : ∀ q ∈ (x.channel.enqueue m).2.outbound ++ (x.channel.enqueue m).2.blocked,
      q.ticket = x.channel.nextTicket → q = ⟨x.channel.nextTicket, m⟩ := by
    intro q hq hqt
    rcases Channel.waiting_enqueue hq with hq | hq
    · exact absurd hqt (hold q (h.mem_of_waiting hq))
    · exact hq
  intro q hq hqt
  rcases List.mem_append.mp hq with hq | hq
  · rcases List.mem_append.mp hq with hq | hq
    · exact absurd hqt (hold q (List.mem_append_left _ hq))
    · exact hwaiting q (List.mem_append_left _ (List.mem_filter.mp hq).1) hqt
  · exact hwaiting q (List.mem_append_right _ hq) hqt

theorem own_submit (h : x.Faithful gone) (m : Message) :
    ∀ q ∈ (x.turn (x.channel.submit m).2).queued ++ (x.channel.submit m).2.blocked,
      q.ticket = x.channel.nextTicket → q = ⟨x.channel.nextTicket, m⟩ := by
  rw [x.channel.submit_eq_enqueue m fun hstopped => (h.stopped hstopped).2.2]
  split
  · exact h.own_refuse m
  · exact h.own_enqueue m

end Faithful

theorem Extends.refl (x : Tape) : x.Extends x :=
  ⟨⟨[], (List.append_nil _).symm⟩, ⟨[], (List.append_nil _).symm⟩, fun _ => rfl, .refl _, fun _ _ => id,
    fun _ => .inl⟩

end Tape

end ClusterNet.Messaging
