import ClusterNet.Proofs.Sending

/-!
# What a stream takes

A channel with a record of what came into its outbound queue and of what its stream took, piece by
piece. The pieces make up the frames of the messages that left the queue, in the order of the queue,
and the last frame may lack its end. What a ticket says agrees with the pieces of its frame.
-/

namespace ClusterNet.Messaging

open Wire

/-! ## The record -/

/-- A part of a frame that the stream took at once, with the ticket of the message. -/
structure Piece where
  ticket : Ticket
  bytes : Bytes
  deriving DecidableEq

structure Tape where
  channel : Channel
  /-- What came into the outbound queue, the first first. -/
  queued : List Parcel
  /-- What the stream took, the first first. -/
  pieces : List Piece
  /-- So many pieces were there at the last flush. -/
  flushed : Nat

/-- The frames of those messages that have one. -/
def framesOf (limit : Nat) (ps : List Parcel) : Bytes :=
  (ps.filter fun p => sendable limit p.message).flatMap fun p => frameOf limit p.message

/-- What the pieces with a ticket make up. -/
def taken (t : Ticket) (ys : List Piece) : Bytes :=
  (ys.filter fun y => y.ticket = t).flatMap (·.bytes)

namespace Tape

def start (limit capacity : Nat) : Tape := ⟨.start limit capacity, [], [], 0⟩

/-- What the stream took. -/
def bytes (x : Tape) : Bytes := x.pieces.flatMap (·.bytes)

/-- The channel becomes another one, and the stream takes nothing. Whatever is new in the queue has
just come into it. -/
def turn (x : Tape) (d : Channel) : Tape :=
  { x with
    channel := d
    queued := x.queued ++ d.outbound.filter fun p => p ∉ x.channel.outbound }

def write? (x : Tape) (n : Nat) : Option Tape :=
  match x.channel.writer with
  | .writing t _ => (x.channel.write? n).map fun (b, d) =>
      { x.turn d with pieces := x.pieces ++ [⟨t, b⟩] }
  | _ => none

def flush? (x : Tape) : Option Tape :=
  (x.channel.flush?).map fun d => { x.turn d with flushed := x.pieces.length }

def move? (x : Tape) : ChannelMove → Option Tape
  | .writes n => x.write? n
  | .flushes => x.flush?
  | m => (x.channel.move? m).map x.turn

theorem move?_eq_map {x : Tape} {m : ChannelMove} (hwrites : ∀ n, m ≠ .writes n) (hflushes : m ≠ .flushes) :
    x.move? m = (x.channel.move? m).map x.turn := by
  cases m with
  | writes n => exact absurd rfl (hwrites n)
  | flushes => exact absurd rfl hflushes
  | _ => rfl

theorem channel_move? (x : Tape) (m : ChannelMove) : (x.move? m).map (·.channel) = x.channel.move? m := by
  cases m with
  | writes n =>
    unfold move? write? Channel.move? Channel.write?
    cases x.channel.writer with
    | idle => rfl
    | stopped => rfl
    | writing t left => simp [Function.comp_def, turn]
  | flushes => simp [move?, flush?, Channel.move?, Function.comp_def, turn]
  | _ => simp [move?, Function.comp_def, turn]

end Tape

/-! ## Frames and pieces -/

section

variable {limit : Nat} {ps : List Parcel} {p : Parcel} {t : Ticket} {ys : List Piece}

theorem framesOf_concat_of_refused {e : FrameFault} (h : encode limit p.message = .error e) :
    framesOf limit (ps ++ [p]) = framesOf limit ps := by
  simp [framesOf, not_sendable_of_encode h]

theorem framesOf_concat_of_encode {frame : Bytes} (h : encode limit p.message = .ok frame) :
    framesOf limit (ps ++ [p]) = framesOf limit ps ++ frame := by
  simp [framesOf, sendable_of_encode h, frameOf_eq h]

theorem taken_concat_self (b : Bytes) : taken t (ys ++ [⟨t, b⟩]) = taken t ys ++ b := by
  simp [taken]

theorem taken_concat_of_ne {u : Ticket} (h : u ≠ t) (b : Bytes) : taken t (ys ++ [⟨u, b⟩]) = taken t ys := by
  simp [taken, h]

theorem taken_eq_nil (h : ∀ y ∈ ys, y.ticket ≠ t) : taken t ys = [] := by
  simp only [taken, List.flatMap_eq_nil_iff, List.mem_filter, decide_eq_true_eq]
  exact fun y hy => absurd hy.2 (h y hy.1)

end

/-! ## What the record says -/

namespace Tape

/-- How the bytes on the stream stand to the messages that have left the queue. -/
inductive Written (x : Tape) (gone : List Parcel) : Prop where
  | whole (going : ∀ t left, x.channel.writer ≠ .writing t left)
      (bytes : x.bytes = framesOf x.channel.limit gone)
  | amid {before : List Parcel} {p : Parcel} {done left : Bytes} (last : gone = before ++ [p])
      (writing : x.channel.writer = .writing p.ticket left)
      (encoded : encode x.channel.limit p.message = .ok (done ++ left))
      (bytes : x.bytes = framesOf x.channel.limit before ++ done) (mine : taken p.ticket x.pieces = done)
      (untold : x.channel.outcome? p.ticket = none)
  /-- The stream failed in a frame. -/
  | cut {before : List Parcel} {p : Parcel} {done left : Bytes} (last : gone = before ++ [p])
      (stopped : x.channel.writer = .stopped)
      (encoded : encode x.channel.limit p.message = .ok (done ++ left)) (missing : left ≠ [])
      (bytes : x.bytes = framesOf x.channel.limit before ++ done)
      (failed : x.channel.outcome? p.ticket = some (.error .io))

/-- The messages that have left the queue are `gone`, the first first, and tickets say of each message
what became of it. -/
structure Orderly (x : Tape) (gone : List Parcel) : Prop where
  queued : ∃ lost, x.queued = gone ++ x.channel.outbound ++ lost ∧ (x.channel.writer ≠ .stopped → lost = [])
  distinct : ((x.queued ++ x.channel.blocked).map (·.ticket)).Nodup
  issued : ∀ p ∈ x.queued ++ x.channel.blocked, p.ticket < x.channel.nextTicket
  unissued : ∀ t, x.channel.nextTicket ≤ t → x.channel.outcome? t = none
  untold : ∀ p ∈ x.channel.outbound ++ x.channel.blocked, x.channel.outcome? p.ticket = none
  /-- Only a message with a frame has pieces. -/
  pieces : ∀ y ∈ x.pieces, ∃ p ∈ gone, sendable x.channel.limit p.message = true ∧ p.ticket = y.ticket
  /-- What the stream took of a message is the start of its frame. -/
  starts : ∀ p ∈ gone, ∀ frame, encode x.channel.limit p.message = .ok frame → taken p.ticket x.pieces <+: frame
  sent : ∀ t, x.channel.outcome? t = some (.ok ()) → ∃ p ∈ gone, p.ticket = t ∧
    encode x.channel.limit p.message = .ok (taken t (x.pieces.take x.flushed)) ∧
    taken t x.pieces = taken t (x.pieces.take x.flushed)
  refused : ∀ t fault, x.channel.outcome? t = some (.error (.codec fault)) →
    ∃ p ∈ gone, p.ticket = t ∧ encode x.channel.limit p.message = .error fault
  /-- A message that failed without the stream has no frame, or it never left the queue. -/
  unsent : ∀ t e, x.channel.outcome? t = some (.error e) → e ≠ .io →
    ∀ p ∈ gone, p.ticket = t → sendable x.channel.limit p.message = false
  flushed : x.flushed ≤ x.pieces.length
  stopped : x.channel.writer = .stopped →
    x.channel.outbound = [] ∧ x.channel.blocked = [] ∧ x.channel.closed = true

structure Faithful (x : Tape) (gone : List Parcel) : Prop extends x.Orderly gone where
  written : x.Written gone

/-- The stream has taken the frames of the first messages of the queue, each of them whole. It may also
have taken the start of the frame that is being written, or of the one in which the stream failed. -/
inductive Framed (x : Tape) : Prop where
  | whole {gone rest : List Parcel} (queue : x.queued = gone ++ rest)
      (bytes : x.bytes = framesOf x.channel.limit gone)
  | part {gone rest : List Parcel} {p : Parcel} {done left : Bytes} (queue : x.queued = gone ++ p :: rest)
      (encoded : encode x.channel.limit p.message = .ok (done ++ left)) (missing : left ≠ [])
      (bytes : x.bytes = framesOf x.channel.limit gone ++ done)
      (why : x.channel.writer = .writing p.ticket left ∨
        x.channel.writer = .stopped ∧ x.channel.outcome? p.ticket = some (.error .io))

variable {x : Tape} {gone : List Parcel} {d : Channel}

theorem Faithful.framed (h : x.Faithful gone) : x.Framed := by
  obtain ⟨lost, hqueued, -⟩ := h.queued
  rw [List.append_assoc] at hqueued
  cases h.written with
  | whole going bytes => exact .whole hqueued bytes
  | @amid before p done left last writing encoded bytes mine untold =>
    by_cases hleft : left = []
    · rw [hleft, List.append_nil] at encoded
      refine .whole hqueued ?_
      rw [bytes, last, framesOf_concat_of_encode encoded]
    · rw [last, List.append_assoc] at hqueued
      exact .part hqueued encoded hleft bytes (.inl writing)
  | @cut before p done left last stopped encoded missing bytes failed =>
    rw [last, List.append_assoc] at hqueued
    exact .part hqueued encoded missing bytes (.inr ⟨stopped, failed⟩)

theorem faithful_start (limit capacity : Nat) : (start limit capacity).Faithful [] where
  queued := ⟨[], rfl, fun _ => rfl⟩
  distinct := List.nodup_nil
  issued := by simp [start, Channel.start]
  unissued _ _ := rfl
  untold := by simp [start, Channel.start]
  pieces := by simp [start]
  starts := by simp
  sent := by simp [start, Channel.start, Channel.outcome?]
  refused := by simp [start, Channel.start, Channel.outcome?]
  unsent := by simp
  flushed := Nat.le_refl 0
  stopped := by simp [start, Channel.start]
  written := .whole (by simp [start, Channel.start]) rfl

theorem turn_of_subset (h : ∀ p ∈ d.outbound, p ∈ x.channel.outbound) :
    x.turn d = { x with channel := d } := by
  have hnone : d.outbound.filter (fun p => p ∉ x.channel.outbound) = [] := by
    simpa [List.filter_eq_nil_iff] using h
  rw [turn, hnone, List.append_nil]

theorem turn_endWriting (h : d.outbound = x.channel.endWriting.outbound) :
    x.turn d = { x with channel := d } := by
  obtain ⟨settled, he⟩ := endWriting_eq x.channel
  exact turn_of_subset (by simp [h, he])

theorem write?_eq_some {n : Nat} {y : Tape} (h : x.write? n = some y) :
    ∃ t b left, x.channel.writer = .writing t (b ++ left) ∧ y = { x with
      channel := { x.channel with writer := .writing t left }
      pieces := x.pieces ++ [⟨t, b⟩] } := by
  unfold write? at h
  split at h
  · rename_i u rest hwriter
    obtain ⟨⟨b, d⟩, hd, rfl⟩ := Option.map_eq_some_iff.mp h
    obtain ⟨t, left, hwriting, he⟩ := Channel.write?_eq_some hd
    obtain ⟨rfl, -⟩ := Writer.writing.inj (hwriter.symm.trans hwriting)
    have hturn : x.turn d = { x with channel := d } := turn_of_subset (by simp [he])
    refine ⟨u, b, left, hwriting, ?_⟩
    simp only [hturn]
    rw [he]
  · cases h

theorem flush?_eq_some {y : Tape} (h : x.flush? = some y) :
    ∃ t, x.channel.writer = .writing t [] ∧ y = { x with
      channel := { x.channel with writer := .idle }.settle t (.ok ())
      flushed := x.pieces.length } := by
  obtain ⟨d, hd, rfl⟩ := Option.map_eq_some_iff.mp h
  obtain ⟨t, hwriting, he⟩ := Channel.flush?_eq_some hd
  have hturn : x.turn d = { x with channel := d } := turn_of_subset (by simp [he, Channel.settle])
  refine ⟨t, hwriting, ?_⟩
  simp only [hturn]
  rw [he]

/-! ## What keeps the order -/

namespace Orderly

theorem mem_of_gone (h : x.Orderly gone) {p : Parcel} (hp : p ∈ gone) : p ∈ x.queued ++ x.channel.blocked := by
  obtain ⟨lost, hqueued, -⟩ := h.queued
  rw [hqueued]
  exact List.mem_append_left _ (List.mem_append_left _ (List.mem_append_left _ hp))

theorem mem_of_waiting (h : x.Orderly gone) {p : Parcel} (hp : p ∈ x.channel.outbound ++ x.channel.blocked) :
    p ∈ x.queued ++ x.channel.blocked := by
  obtain ⟨lost, hqueued, -⟩ := h.queued
  rw [hqueued]
  rcases List.mem_append.mp hp with hp | hp
  · exact List.mem_append_left _ (List.mem_append_left _ (List.mem_append_right _ hp))
  · exact List.mem_append_right _ hp

/-- No ticket of the queue belongs to a message that has left it. -/
theorem apart (h : x.Orderly gone) {p q : Parcel} (hp : p ∈ gone)
    (hq : q ∈ x.channel.outbound ++ x.channel.blocked) : p.ticket ≠ q.ticket := by
  obtain ⟨lost, hqueued, -⟩ := h.queued
  have hdistinct := h.distinct
  rw [hqueued, List.append_assoc, List.append_assoc, List.map_append] at hdistinct
  refine (List.nodup_append.mp hdistinct).2.2 p.ticket (List.mem_map_of_mem hp) q.ticket ?_
  refine List.mem_map_of_mem ?_
  rcases List.mem_append.mp hq with hq | hq
  · exact List.mem_append_left _ hq
  · exact List.mem_append_right _ (List.mem_append_right _ hq)

theorem inj (h : x.Orderly gone) {p q : Parcel} (hp : p ∈ x.queued ++ x.channel.blocked)
    (hq : q ∈ x.queued ++ x.channel.blocked) (ht : p.ticket = q.ticket) : p = q :=
  List.inj_on_of_nodup_map h.distinct hp hq ht

theorem taken_waiting (h : x.Orderly gone) {q : Parcel} (hq : q ∈ x.channel.outbound ++ x.channel.blocked) :
    taken q.ticket x.pieces = [] := by
  refine taken_eq_nil fun y hy => ?_
  obtain ⟨p, hp, -, hpy⟩ := h.pieces y hy
  exact hpy ▸ h.apart hp hq

theorem congr (h : x.Orderly gone) (hlimit : d.limit = x.channel.limit) (hout : d.outbound = x.channel.outbound)
    (hblocked : d.blocked = x.channel.blocked) (hnext : d.nextTicket = x.channel.nextTicket)
    (hsettled : d.settled = x.channel.settled)
    (hlost : d.writer ≠ .stopped → x.channel.writer ≠ .stopped)
    (hstopped : d.writer = .stopped → x.channel.writer = .stopped)
    (hclosed : x.channel.closed = true → d.closed = true) : Orderly { x with channel := d } gone := by
  have houtcome : ∀ t, d.outcome? t = x.channel.outcome? t := fun t => by
    rw [Channel.outcome?, hsettled, Channel.outcome?]
  refine ⟨?_, ?_, ?_, ?_, ?_, ?_, ?_, ?_, ?_, ?_, h.flushed, ?_⟩
  · obtain ⟨lost, hqueued, hnone⟩ := h.queued
    exact ⟨lost, by rw [hout, hqueued], hnone ∘ hlost⟩
  · simpa only [hblocked] using h.distinct
  · simpa only [hblocked, hnext] using h.issued
  · simpa only [houtcome, hnext] using h.unissued
  · simpa only [houtcome, hout, hblocked] using h.untold
  · simpa only [hlimit] using h.pieces
  · simpa only [hlimit] using h.starts
  · simpa only [houtcome, hlimit] using h.sent
  · simpa only [houtcome, hlimit] using h.refused
  · simpa only [houtcome, hlimit] using h.unsent
  · intro hd
    obtain ⟨hnone, hnobody, hc⟩ := h.stopped (hstopped hd)
    exact ⟨hout.trans hnone, hblocked.trans hnobody, hclosed hc⟩

theorem settle (h : x.Orderly gone) {p : Parcel} (hp : p ∈ gone) {r : Except Failure Unit}
    (hok : r = .ok () → encode x.channel.limit p.message = .ok (taken p.ticket (x.pieces.take x.flushed)) ∧
      taken p.ticket x.pieces = taken p.ticket (x.pieces.take x.flushed))
    (hcodec : ∀ fault, r = .error (.codec fault) → encode x.channel.limit p.message = .error fault)
    (herror : ∀ e, r = .error e → e ≠ .io → sendable x.channel.limit p.message = false) :
    Orderly { x with channel := x.channel.settle p.ticket r } gone := by
  have houtcome : ∀ t, (x.channel.settle p.ticket r).outcome? t =
      if t = p.ticket then some r else x.channel.outcome? t := fun t => Channel.outcome?_settle _ _ _ _
  refine ⟨h.queued, h.distinct, h.issued, ?_, ?_, h.pieces, h.starts, ?_, ?_, ?_, h.flushed, h.stopped⟩
  · intro t ht
    change x.channel.nextTicket ≤ t at ht
    have hne : t ≠ p.ticket := Nat.ne_of_gt (Nat.lt_of_lt_of_le (h.issued p (h.mem_of_gone hp)) ht)
    exact (houtcome t).trans ((if_neg hne).trans (h.unissued t ht))
  · exact fun q hq => (houtcome _).trans ((if_neg (h.apart hp hq).symm).trans (h.untold q hq))
  · intro t ht
    change (x.channel.settle p.ticket r).outcome? t = _ at ht
    rw [houtcome] at ht
    split at ht
    · rename_i heq
      obtain ⟨hencode, hall⟩ := hok (Option.some.inj ht)
      exact ⟨p, hp, heq.symm, heq ▸ hencode, heq ▸ hall⟩
    · exact h.sent t ht
  · intro t fault ht
    change (x.channel.settle p.ticket r).outcome? t = _ at ht
    rw [houtcome] at ht
    split at ht
    · exact ⟨p, hp, Eq.symm ‹_›, hcodec fault (Option.some.inj ht)⟩
    · exact h.refused t fault ht
  · intro t e ht he q hq hqt
    change (x.channel.settle p.ticket r).outcome? t = _ at ht
    rw [houtcome] at ht
    split at ht
    · rename_i heq
      obtain rfl := h.inj (h.mem_of_gone hp) (h.mem_of_gone hq) (heq.symm.trans hqt.symm)
      exact herror e (Option.some.inj ht) he
    · exact h.unsent t e ht he q hq hqt

theorem endWriting (h : x.Orderly gone) : Orderly { x with channel := x.channel.endWriting } gone := by
  have houtcome := x.channel.outcome?_endWriting_eq
  obtain ⟨settled, he⟩ := endWriting_eq x.channel
  have hgone : ∀ p ∈ gone, x.channel.endWriting.outcome? p.ticket = x.channel.outcome? p.ticket := by
    intro p hp
    rw [houtcome, if_neg]
    intro hmem
    obtain ⟨q, hq, hqp⟩ := List.mem_map.mp hmem
    exact h.apart hp hq hqp.symm
  have hold : ∀ t r, x.channel.endWriting.outcome? t = some r → r ≠ .error .connectionClosed →
      x.channel.outcome? t = some r := by
    intro t r ht hr
    rw [houtcome] at ht
    split at ht
    · exact absurd (Option.some.inj ht).symm hr
    · exact ht
  refine ⟨?_, ?_, ?_, ?_, ?_, ?_, ?_, ?_, ?_, ?_, h.flushed, ?_⟩
  · obtain ⟨lost, hqueued, -⟩ := h.queued
    exact ⟨x.channel.outbound ++ lost, by simp [he, hqueued], by simp [he]⟩
  · exact h.distinct.sublist (by simp [he])
  · intro p hp
    simp only [he, List.append_nil] at hp ⊢
    exact h.issued p (List.mem_append_left _ hp)
  · intro t ht
    simp only [he] at ht
    refine (houtcome t).trans ((if_neg fun hmem => ?_).trans (h.unissued t ht))
    obtain ⟨p, hp, rfl⟩ := List.mem_map.mp hmem
    exact Nat.not_lt.mpr ht (h.issued p (h.mem_of_waiting hp))
  · simp [he]
  · simpa only [(sameReader_endWriting x.channel).limit] using h.pieces
  · simpa only [(sameReader_endWriting x.channel).limit] using h.starts
  · intro t ht
    simpa only [(sameReader_endWriting x.channel).limit] using h.sent t (hold t _ ht (by simp))
  · intro t fault ht
    simpa only [(sameReader_endWriting x.channel).limit] using h.refused t fault (hold t _ ht (by simp))
  · intro t e ht hio p hp hpt
    simp only [(sameReader_endWriting x.channel).limit]
    refine h.unsent t e ?_ hio p hp hpt
    rw [← hpt, ← hgone p hp, hpt]
    exact ht
  · simp [he]

theorem refuse (h : x.Orderly gone) : Orderly { x with channel := x.channel.refuse.2 } gone := by
  have hold : ∀ t, t < x.channel.nextTicket → x.channel.refuse.2.outcome? t = x.channel.outcome? t :=
    fun t ht => (Channel.outcome?_settle _ _ _ _).trans (if_neg (Nat.ne_of_lt ht))
  have hnew : ∀ t r, x.channel.refuse.2.outcome? t = some r →
      t = x.channel.nextTicket ∧ r = .error .connectionClosed ∨ x.channel.outcome? t = some r := by
    intro t r ht
    have ht := (Channel.outcome?_settle _ _ _ _).symm.trans ht
    split at ht
    · exact .inl ⟨‹_›, (Option.some.inj ht).symm⟩
    · exact .inr ht
  refine ⟨h.queued, h.distinct, ?_, ?_, ?_, h.pieces, h.starts, ?_, ?_, ?_, h.flushed, h.stopped⟩
  · exact fun p hp => Nat.lt_succ_of_lt (h.issued p hp)
  · intro t ht
    have hlt : x.channel.nextTicket < t := ht
    exact (Channel.outcome?_settle _ _ _ _).trans
      ((if_neg (Nat.ne_of_gt hlt)).trans (h.unissued t (Nat.le_of_lt hlt)))
  · exact fun p hp => (hold _ (h.issued p (h.mem_of_waiting hp))).trans (h.untold p hp)
  · exact fun t ht => h.sent t ((hnew t _ ht).resolve_left (by simp))
  · exact fun t fault ht => h.refused t fault ((hnew t _ ht).resolve_left (by simp))
  · intro t e ht he p hp hpt
    refine h.unsent t e ((hnew t _ ht).resolve_left fun hrefused => ?_) he p hp hpt
    exact Nat.ne_of_lt (h.issued p (h.mem_of_gone hp)) (hpt.trans hrefused.1)

theorem join (h : x.Orderly gone) {q : Parcel} (hq : q.ticket = x.channel.nextTicket)
    (hgoing : d.writer ≠ .stopped) (hlimit : d.limit = x.channel.limit)
    (hnext : d.nextTicket = x.channel.nextTicket + 1) (hsettled : d.settled = x.channel.settled)
    (hqueued : (x.turn d).queued = gone ++ d.outbound)
    (hall : (x.turn d).queued ++ d.blocked = x.queued ++ x.channel.blocked ++ [q])
    (hwaiting : d.outbound ++ d.blocked = x.channel.outbound ++ x.channel.blocked ++ [q]) :
    (x.turn d).Orderly gone := by
  have houtcome : ∀ t, d.outcome? t = x.channel.outcome? t := fun t => by
    rw [Channel.outcome?, hsettled, Channel.outcome?]
  refine ⟨⟨[], ?_, fun _ => rfl⟩, ?_, ?_, ?_, ?_, ?_, ?_, ?_, ?_, ?_, h.flushed, fun hd => absurd hd hgoing⟩
  · rw [hqueued, List.append_nil]
    rfl
  · change (((x.turn d).queued ++ d.blocked).map (·.ticket)).Nodup
    rw [hall, List.map_append, List.nodup_append]
    refine ⟨h.distinct, List.nodup_singleton _, fun t ht u hu => ?_⟩
    obtain ⟨p, hp, rfl⟩ := List.mem_map.mp ht
    rw [List.mem_singleton.mp hu]
    exact Nat.ne_of_lt (Nat.lt_of_lt_of_eq (h.issued p hp) hq.symm)
  · intro p hp
    change p ∈ (x.turn d).queued ++ d.blocked at hp
    change p.ticket < d.nextTicket
    rw [hnext]
    rcases List.mem_append.mp (hall ▸ hp) with hp | hp
    · exact Nat.lt_succ_of_lt (h.issued p hp)
    · rw [List.mem_singleton.mp hp, hq]
      exact Nat.lt_succ_self _
  · intro t ht
    have hle : d.nextTicket ≤ t := ht
    rw [hnext] at hle
    exact (houtcome t).trans (h.unissued t (Nat.le_of_succ_le hle))
  · intro p hp
    refine (houtcome _).trans ?_
    rcases List.mem_append.mp (hwaiting ▸ hp : p ∈ x.channel.outbound ++ x.channel.blocked ++ [q]) with hp | hp
    · exact h.untold p hp
    · rw [List.mem_singleton.mp hp, hq]
      exact h.unissued _ (Nat.le_refl _)
  · simpa only [turn, hlimit] using h.pieces
  · simpa only [turn, hlimit] using h.starts
  · simpa only [turn, houtcome, hlimit] using h.sent
  · simpa only [turn, houtcome, hlimit] using h.refused
  · simpa only [turn, houtcome, hlimit] using h.unsent

theorem pop (h : x.Orderly gone) {q : Parcel} {rest : List Parcel} (hidle : x.channel.writer = .idle)
    (hfirst : x.channel.outbound = q :: rest) (hout : d.outbound = rest ++ x.channel.blocked.take 1)
    (hblocked : d.blocked = x.channel.blocked.drop 1) (hgoing : d.writer ≠ .stopped)
    (hlimit : d.limit = x.channel.limit) (hnext : d.nextTicket = x.channel.nextTicket)
    (hsettled : d.settled = x.channel.settled) : (x.turn d).Orderly (gone ++ [q]) := by
  obtain ⟨lost, hqueued, hlost⟩ := h.queued
  obtain rfl := hlost (by simp [hidle])
  rw [List.append_nil] at hqueued
  have hdistinct := h.distinct
  rw [hqueued, List.append_assoc, List.map_append] at hdistinct
  have hwaiting := (List.nodup_append.mp hdistinct).2.1
  have hmoved : d.outbound ++ d.blocked = rest ++ x.channel.blocked := by
    rw [hout, hblocked, List.append_assoc, List.take_append_drop]
  -- Who waits for room is not in the queue yet.
  have hnew : d.outbound.filter (fun p => p ∉ x.channel.outbound) = x.channel.blocked.take 1 := by
    have hrest : rest.filter (fun p => p ∉ x.channel.outbound) = [] := by
      simp only [hfirst, List.filter_eq_nil_iff, decide_eq_true_eq, not_not]
      exact fun p hp => List.mem_cons_of_mem _ hp
    rw [hout, List.filter_append, hrest, List.nil_append, List.filter_eq_self]
    intro p hp
    rw [List.map_append] at hwaiting
    refine decide_eq_true fun hmem => ?_
    exact (List.nodup_append.mp hwaiting).2.2 p.ticket (List.mem_map_of_mem hmem) p.ticket
      (List.mem_map_of_mem (List.mem_of_mem_take hp)) rfl
  have hturned : (x.turn d).queued = gone ++ [q] ++ d.outbound := by
    rw [turn, hnew, hqueued, hfirst, hout]
    simp
  have hall : (x.turn d).queued ++ d.blocked = x.queued ++ x.channel.blocked := by
    rw [hturned, List.append_assoc, hmoved, hqueued, hfirst]
    simp
  have hkept : ∀ p ∈ d.outbound ++ d.blocked, p ∈ x.channel.outbound ++ x.channel.blocked := by
    intro p hp
    rw [hmoved] at hp
    rw [hfirst]
    exact List.mem_cons_of_mem _ hp
  have houtcome : ∀ t, d.outcome? t = x.channel.outcome? t := fun t => by
    rw [Channel.outcome?, hsettled, Channel.outcome?]
  refine ⟨⟨[], ?_, fun _ => rfl⟩, ?_, ?_, ?_, ?_, ?_, ?_, ?_, ?_, ?_, h.flushed, fun hd => absurd hd hgoing⟩
  · rw [hturned, List.append_nil]
    rfl
  · exact hall ▸ h.distinct
  · exact fun p hp => Nat.lt_of_lt_of_eq (h.issued p (hall ▸ hp)) hnext.symm
  · exact fun t ht => (houtcome t).trans (h.unissued t (Nat.le_trans (Nat.le_of_eq hnext.symm) ht))
  · exact fun p hp => (houtcome _).trans (h.untold p (hkept p hp))
  · intro y hy
    obtain ⟨p, hp, hrest⟩ := h.pieces y hy
    exact ⟨p, List.mem_append_left _ hp, by rw [turn, hlimit]; exact hrest⟩
  · intro p hp frame hframe
    replace hframe : encode x.channel.limit p.message = .ok frame := by rwa [turn, hlimit] at hframe
    rcases List.mem_append.mp hp with hp | hp
    · exact h.starts p hp frame hframe
    · have hq : q ∈ x.channel.outbound ++ x.channel.blocked := by simp [hfirst]
      rw [List.mem_singleton.mp hp]
      exact (h.taken_waiting hq).symm ▸ List.nil_prefix
  · intro t ht
    obtain ⟨p, hp, hrest⟩ := h.sent t ((houtcome t).symm.trans ht)
    exact ⟨p, List.mem_append_left _ hp, by rw [turn, hlimit]; exact hrest⟩
  · intro t fault ht
    obtain ⟨p, hp, hrest⟩ := h.refused t fault ((houtcome t).symm.trans ht)
    exact ⟨p, List.mem_append_left _ hp, by rw [turn, hlimit]; exact hrest⟩
  · intro t e ht he p hp hpt
    replace ht := (houtcome t).symm.trans ht
    rcases List.mem_append.mp hp with hp | hp
    · rw [turn, hlimit]
      exact h.unsent t e ht he p hp hpt
    · rw [← hpt, List.mem_singleton.mp hp, h.untold q (by simp [hfirst])] at ht
      cases ht

end Orderly

end Tape

end ClusterNet.Messaging
