import ClusterNet.Proofs.LengthFields
import ClusterNet.Proofs.Tickets

/-!
# What is sent arrives

Two channels are joined by a stream. One of them sends, and whoever has the other one takes the
messages that come. The sender may be closed at any moment. What arrives is the beginning of what
was handed over, without the messages that have no frame, and nothing is missing that was reported
as sent.
-/

namespace ClusterNet.Messaging

open Wire

inductive StationMove where
  | reads (n : Nat)
  | notices
  | writes (n : Nat)

def Station.move? (w : Station) : StationMove → Option Station
  | .reads n => w.read? n
  | .notices => w.notice?
  | .writes n => w.write? n

/-- Two channels joined by a stream, with what was handed over on the left and what was taken on the
right, the first first. -/
structure Conduit where
  left : Channel
  right : Channel
  up : Pipe
  down : Pipe
  sent : List Message
  received : List Message

inductive ConduitMove where
  | left (m : StationMove)
  | right (m : StationMove)
  | receives

inductive ConduitAct where
  | sends (m : Message)
  | closes
  | moves (m : ConduitMove)

namespace Conduit

def start (limit leftCapacity rightCapacity upRoom downRoom : Nat) : Conduit :=
  ⟨.start limit leftCapacity, .start limit rightCapacity, .ofCapacity upRoom, .ofCapacity downRoom, [], []⟩

def leftEnd (c : Conduit) : Station := ⟨c.left, c.up, c.down, .none⟩

def rightEnd (c : Conduit) : Station := ⟨c.right, c.down, c.up, .none⟩

def move? (c : Conduit) : ConduitMove → Option Conduit
  | .left m => (c.leftEnd.move? m).map fun w => { c with left := w.channel, up := w.out, down := w.into }
  | .right m => (c.rightEnd.move? m).map fun w => { c with right := w.channel, down := w.out, up := w.into }
  | .receives => c.right.receive?.map fun (m, right) => { c with right, received := c.received ++ [m] }

/-- What is not possible now changes nothing. -/
def act (c : Conduit) : ConduitAct → Conduit
  | .sends m => { c with left := (c.left.submit m).2, sent := c.sent ++ [m] }
  | .closes => { c with left := c.left.close }
  | .moves m => (c.move? m).getD c

def run (c : Conduit) (acts : List ConduitAct) : Conduit := acts.foldl act c

/-- What is handed over in a run. -/
def handed (acts : List ConduitAct) : List Message :=
  acts.filterMap fun
    | .sends m => some m
    | _ => none

/-- Nothing moves any more by itself. -/
def Final (c : Conduit) : Prop := ∀ m, c.move? m = none

/-! ## What always holds -/

/-- The channel sends nothing, and it is closed only because nothing more comes. -/
structure Silent (c : Channel) : Prop where
  queue : c.queue = []
  writer : c.writer = .idle ∨ c.writer = .stopped
  held : c.held = true
  attended : c.attended = true
  closed : c.closed = true → c.reader = .stopped
  stopped : c.writer = .stopped → c.closed = true

structure Inv (limit : Nat) (c : Conduit) : Prop where
  expressible : ∀ m ∈ c.sent, Expressible limit m
  room : 0 < c.left.capacity ∧ 0 < c.right.capacity ∧ 0 < c.up.capacity
  held : c.left.held = true
  listens : c.left.reader = .waiting ∨ c.left.reader = .stopped ∧ c.left.closed = true
  silent : Silent c.right
  nothing : c.down.held = []
  downShut : c.down.shut = true → c.right.writer = .stopped
  /-- What has left the queue and has a frame was received or will be. -/
  flow : ∃ gone ms, Ledger limit c.sent c.left gone ∧ Lane limit c.left c.up c.right ms ∧
    c.received ++ onward c.right ms = (gone.filter (sendable limit)).map canonical

variable {limit : Nat} {c d : Conduit} {w : Station} {b : Bytes} {popped : List Message} {n : Nat}

theorem handed_append (acts more : List ConduitAct) : handed (acts ++ more) = handed acts ++ handed more :=
  List.filterMap_append

theorem inv_start (limit : Nat) {leftCapacity rightCapacity upRoom : Nat} (downRoom : Nat)
    (hleft : 0 < leftCapacity) (hright : 0 < rightCapacity) (hroom : 0 < upRoom) :
    (start limit leftCapacity rightCapacity upRoom downRoom).Inv limit where
  expressible := by simp [start]
  room := ⟨hleft, hright, hroom⟩
  held := rfl
  listens := .inl rfl
  silent := ⟨rfl, .inl rfl, rfl, rfl, by simp [start, Channel.start], by simp [start, Channel.start]⟩
  nothing := rfl
  downShut := by simp [start, Pipe.ofCapacity]
  flow := ⟨[], [], Ledger.start limit leftCapacity, lane_start limit leftCapacity rightCapacity upRoom, rfl⟩

theorem Inv.send (h : c.Inv limit) {m : Message} (hm : Expressible limit m) :
    Inv limit { c with left := (c.left.submit m).2, sent := c.sent ++ [m] } := by
  obtain ⟨gone, ms, hledger, hlane, hall⟩ := h.flow
  have hsubmitted := hledger.submit m
  obtain ⟨outbound, blocked, settled, he⟩ := Channel.submit_eq c.left m
  rw [he] at hsubmitted ⊢
  refine ⟨?_, h.room, h.held, h.listens, h.silent, h.nothing, h.downShut,
    gone, ms, hsubmitted, hlane.sender_eq rfl rfl, hall⟩
  intro a ha
  rcases List.mem_append.mp ha with ha | ha
  · exact h.expressible a ha
  · rwa [List.mem_singleton.mp ha]

theorem Inv.close (h : c.Inv limit) : Inv limit { c with left := c.left.close } := by
  obtain ⟨gone, ms, hledger, hlane, hall⟩ := h.flow
  refine ⟨h.expressible, h.room, h.held, ?_, h.silent, h.nothing, h.downShut,
    gone, ms, hledger.close, hlane.sender_eq rfl rfl, hall⟩
  exact h.listens.imp id fun hstopped => ⟨hstopped.1, rfl⟩

theorem Inv.queue_expressible (h : c.Inv limit) : ∀ m ∈ c.left.queue, Expressible limit m := by
  obtain ⟨gone, ms, hledger, -, -⟩ := h.flow
  obtain ⟨lost, hsent, -⟩ := hledger.split
  intro m hm
  apply h.expressible
  rw [hsent]
  exact List.mem_append_left lost (List.mem_append_right gone hm)

theorem Inv.over (h : c.Inv limit) (hstopped : c.right.reader = .stopped) : c.left.closed = true := by
  obtain ⟨gone, ms, hledger, hlane, -⟩ := h.flow
  exact (hledger.stopped (hlane.finished hstopped).1).1

/-! ## The left side moves -/

theorem wrote_closed {s s' : Channel} (hw : Wrote s s' b popped) (hheld : s.held = true) :
    s'.closed = s.closed ∧ s'.held = true := by
  cases hw with
  | ends idle why =>
    obtain ⟨settled, he⟩ := endWriting_eq s
    have hclosed : s.closed = true := why.resolve_right (by simp [hheld])
    rw [he]
    exact ⟨hclosed.symm, hheld⟩
  | takes | refuses | puts | flushes => exact ⟨rfl, hheld⟩

theorem Inv.leftWrites (h : c.Inv limit) (hst : c.leftEnd.write? n = some w) :
    Inv limit { c with left := w.channel, up := w.out, down := w.into } ∧
      w.channel.closed = c.left.closed := by
  obtain ⟨gone, ms, hledger, hlane, hall⟩ := h.flow
  obtain ⟨b, popped, hw, hmoved⟩ := Lane.write? (w := c.leftEnd) hlane rfl hst
  obtain ⟨hclosed, hheld⟩ := wrote_closed hw h.held
  have hreader : w.channel.reader = c.left.reader := hw.sameReader.reader
  refine ⟨⟨h.expressible, ?_, hheld, ?_, h.silent, ?_, ?_, gone ++ popped, _, hledger.wrote hw,
    hlane.out_of_write hw hmoved h.queue_expressible, ?_⟩, hclosed⟩
  · rw [hw.capacity_eq, hmoved.outCapacity]
    exact h.room
  · rw [hreader, hclosed]
    exact h.listens
  · rw [← h.nothing]
    exact hmoved.into.symm
  · rw [hmoved.intoShut]
    exact h.downShut
  · rw [List.filter_append, List.map_append, ← hall, onward, onward, List.map_append]
    simp only [List.append_assoc]

theorem Inv.leftReads (h : c.Inv limit) (hsame : c.left.SameSender w.channel)
    (hmoved : Station.Moved c.leftEnd w [] []) (hstopped : w.channel.reader = .stopped)
    (hwas : c.left.closed = true) (hclosed : w.channel.closed = true) :
    Inv limit { c with left := w.channel, up := w.out, down := w.into } ∧
      w.channel.closed = c.left.closed := by
  obtain ⟨gone, ms, hledger, hlane, hall⟩ := h.flow
  refine ⟨⟨h.expressible, ?_, ?_, .inr ⟨hstopped, hclosed⟩, h.silent, ?_, ?_, gone, ms,
    hledger.sameSender hsame, Lane.out_of_read (w := c.leftEnd) hlane hsame hmoved, hall⟩,
    hclosed.trans hwas.symm⟩
  · rw [hsame.capacity, hmoved.outCapacity]
    exact h.room
  · rw [hsame.held]
    exact h.held
  · rw [← h.nothing]
    exact hmoved.into.symm
  · rw [hmoved.intoShut]
    exact h.downShut

theorem Inv.leftMove (h : c.Inv limit) {m : StationMove} (hst : c.leftEnd.move? m = some w) :
    Inv limit { c with left := w.channel, up := w.out, down := w.into } ∧
      w.channel.closed = c.left.closed := by
  cases m with
  | writes n => exact h.leftWrites hst
  | reads n =>
    obtain ⟨b, hread, hmoved⟩ := Station.read_read? (w := c.leftEnd) rfl hst
    have hsame := hread.sameSender
    -- Nothing ever comes down to the left side: all that its reader can find there is the end.
    have hb : b = [] := by
      have hinto := hmoved.into
      rw [show c.leftEnd.into.held = [] from h.nothing] at hinto
      exact (List.append_eq_nil_iff.mp hinto.symm).1
    subst hb
    have hidle : c.left.reader = .waiting := h.listens.resolve_right fun hstopped => hread.going hstopped.1
    obtain ⟨hlast, he⟩ := hread.of_waiting hidle
    simp only [Pipe.ended, Bool.and_eq_true] at hlast
    have hclosed := h.over (h.silent.closed (h.silent.stopped (h.downShut hlast.1)))
    exact h.leftReads hsame hmoved (by rw [he]; rfl) hclosed (by rw [he]; rfl)
  | notices =>
    obtain ⟨d, hd, rfl⟩ := Option.map_eq_some_iff.mp hst
    obtain ⟨-, hclosed, he⟩ := Channel.stopReading?_eq_some hd
    have hsame := (Read.of_stopReading? hd).sameSender
    exact h.leftReads (w := ({ c.leftEnd with channel := d } : Station).tidy) hsame (Station.moved_channel _ _)
      (by rw [he]; rfl) hclosed (by rw [he]; rfl)

/-! ## The right side moves -/

theorem Silent.wrote {s s' : Channel} (h : Silent s) (hw : Wrote s s' b popped) :
    Silent s' ∧ s'.writer = .stopped := by
  have hnothing : s.outbound = [] := by
    have hqueue := h.queue
    rw [Channel.queue, List.map_eq_nil_iff, List.append_eq_nil_iff] at hqueue
    exact hqueue.1
  have hwriting : ∀ {t left}, s.writer ≠ .writing t left := by
    intro t left hwriting
    rcases h.writer with hw | hw
    · rw [hwriting] at hw
      cases hw
    · rw [hwriting] at hw
      cases hw
  cases hw with
  | ends idle why =>
    obtain ⟨settled, he⟩ := endWriting_eq s
    have hclosed : s.closed = true := why.resolve_right (by simp [h.held])
    rw [he]
    exact ⟨⟨rfl, .inr rfl, h.held, h.attended, fun _ => h.closed hclosed, fun _ => rfl⟩, rfl⟩
  | takes _ _ first =>
    rw [hnothing] at first
    cases first
  | refuses _ _ first =>
    rw [hnothing] at first
    cases first
  | puts writing => exact absurd writing hwriting
  | flushes writing => exact absurd writing hwriting

theorem Silent.read {s s' : Channel} {done : Bool} (h : Silent s) (hr : Read s done s' b) : Silent s' := by
  have hsame := hr.sameSender
  refine ⟨?_, ?_, hsame.held.trans h.held, hsame.attended.trans h.attended, ?_, ?_⟩
  · rw [Channel.queue, hsame.outbound, hsame.blocked]
    exact h.queue
  · rw [hsame.writer]
    exact h.writer
  · intro hclosed
    rcases hsame.closed with hc | ⟨-, hstopped⟩
    · exact absurd (h.closed (hc.symm.trans hclosed)) hr.going
    · exact hstopped
  · intro hstopped
    rw [hsame.writer] at hstopped
    rcases hsame.closed with hc | ⟨hclosed, -⟩
    · exact hc.trans (h.stopped hstopped)
    · exact hclosed

theorem Inv.rightWrites (h : c.Inv limit) (hst : c.rightEnd.write? n = some w) :
    Inv limit { c with right := w.channel, down := w.out, up := w.into } := by
  obtain ⟨gone, ms, hledger, hlane, hall⟩ := h.flow
  rcases h.silent.writer with hidle | hstopped
  · obtain ⟨popped, hw, hmoved⟩ := Station.wrote_of_idle (w := c.rightEnd) hidle hst
    obtain ⟨hsilent, hstopped⟩ := h.silent.wrote hw
    have hsame := hw.sameReader
    refine ⟨h.expressible, ?_, h.held, h.listens, hsilent, ?_, fun _ => hstopped, gone, ms, hledger,
      Lane.into_of_write (w := c.rightEnd) hlane hw hmoved, ?_⟩
    · rw [hw.capacity_eq, hmoved.intoCapacity]
      exact h.room
    · rw [hmoved.out, List.append_nil]
      exact h.nothing
    · rw [← hall, onward, onward, Channel.taken, Channel.taken, hsame.inbound, hsame.reader]
      rfl
  · unfold Station.write? at hst
    rw [show c.rightEnd.channel.writer = .stopped from hstopped] at hst
    simp at hst

theorem Inv.rightReads (h : c.Inv limit) (hst : c.rightEnd.read? n = some w) :
    Inv limit { c with right := w.channel, down := w.out, up := w.into } := by
  obtain ⟨gone, ms, hledger, hlane, hall⟩ := h.flow
  obtain ⟨b, hr, hmoved⟩ := Station.read_read? (w := c.rightEnd) rfl hst
  obtain ⟨ms', hlane', honward⟩ := Lane.into_of_read (w := c.rightEnd) hlane hr hmoved h.silent.attended
  refine ⟨h.expressible, ?_, h.held, h.listens, h.silent.read hr, ?_, ?_, gone, ms', hledger, hlane', ?_⟩
  · rw [hr.sameSender.capacity, hmoved.intoCapacity]
    exact h.room
  · rw [hmoved.out, List.append_nil]
    exact h.nothing
  · intro hshut
    rcases hmoved.shuts hshut with hshut | hstopped
    · rw [hr.sameSender.writer]
      exact h.downShut hshut
    · exact hstopped
  · rw [honward]
    exact hall

/-- The right side is closed only when its reader has stopped, so that the reader finds nothing to
notice while it waits. -/
theorem Inv.notice?_right (h : c.Inv limit) : c.rightEnd.notice? = none := by
  rw [Station.notice?, Option.map_eq_none_iff]
  unfold Channel.stopReading?
  rw [if_neg]
  rintro ⟨hwaiting, hclosed⟩
  have hstopped : c.rightEnd.channel.reader = .stopped := h.silent.closed hclosed
  rw [hstopped] at hwaiting
  cases hwaiting

theorem Inv.receive (h : c.Inv limit) {m : Message} {right : Channel}
    (hr : c.right.receive? = some (m, right)) :
    Inv limit { c with right, received := c.received ++ [m] } := by
  obtain ⟨gone, ms, hledger, hlane, hall⟩ := h.flow
  obtain ⟨hlane', honward⟩ := hlane.receive? hr
  obtain ⟨rest, -, rfl⟩ := Channel.receive?_eq_some hr
  refine ⟨h.expressible, h.room, h.held, h.listens, ?_, h.nothing, h.downShut, gone, ms, hledger, hlane', ?_⟩
  · exact ⟨h.silent.queue, h.silent.writer, h.silent.held, h.silent.attended, h.silent.closed, h.silent.stopped⟩
  · rw [← hall, honward, List.append_assoc]
    rfl

/-! ## Every act -/

theorem act_of_none {m : ConduitMove} (hm : c.move? m = none) : c.act (.moves m) = c := by
  simp only [Conduit.act, hm, Option.getD_none]

theorem act_of_some {m : ConduitMove} (hm : c.move? m = some d) : c.act (.moves m) = d := by
  simp only [Conduit.act, hm, Option.getD_some]

theorem Inv.move (h : c.Inv limit) {m : ConduitMove} (hm : c.move? m = some d) :
    d.Inv limit ∧ d.left.closed = c.left.closed ∧ d.sent = c.sent := by
  cases m with
  | left m =>
    obtain ⟨w, hst, rfl⟩ := Option.map_eq_some_iff.mp hm
    obtain ⟨hinv, hclosed⟩ := h.leftMove hst
    exact ⟨hinv, hclosed, rfl⟩
  | right m =>
    obtain ⟨w, hst, rfl⟩ := Option.map_eq_some_iff.mp hm
    cases m with
    | reads n => exact ⟨h.rightReads hst, rfl, rfl⟩
    | writes n => exact ⟨h.rightWrites hst, rfl, rfl⟩
    | notices =>
      rw [Station.move?, h.notice?_right] at hst
      cases hst
  | receives =>
    obtain ⟨⟨m, right⟩, hr, rfl⟩ := Option.map_eq_some_iff.mp hm
    exact ⟨h.receive hr, rfl, rfl⟩

theorem Inv.act (h : c.Inv limit) {a : ConduitAct} (ha : ∀ m, a = .sends m → Expressible limit m) :
    (c.act a).Inv limit ∧ ((c.act a).left.closed = true ↔ c.left.closed = true ∨ .closes = a) ∧
      (c.act a).sent = c.sent ++ handed [a] := by
  cases a with
  | sends m =>
    obtain ⟨outbound, blocked, settled, he⟩ := Channel.submit_eq c.left m
    have hclosed : (c.left.submit m).2.closed = c.left.closed := by rw [he]
    refine ⟨h.send (ha m rfl), ?_, rfl⟩
    simp only [Conduit.act, hclosed, reduceCtorEq, or_false]
  | closes => exact ⟨h.close, by simp [Conduit.act, Channel.close], (List.append_nil _).symm⟩
  | moves m =>
    cases hm : c.move? m with
    | none =>
      rw [act_of_none hm]
      exact ⟨h, by simp, (List.append_nil _).symm⟩
    | some d =>
      obtain ⟨hinv, hclosed, hsent⟩ := h.move hm
      rw [act_of_some hm, hclosed, hsent]
      exact ⟨hinv, by simp, (List.append_nil _).symm⟩

theorem Inv.run (h : c.Inv limit) {acts : List ConduitAct} (hacts : ∀ m, .sends m ∈ acts → Expressible limit m) :
    (c.run acts).Inv limit ∧ ((c.run acts).left.closed = true ↔ c.left.closed = true ∨ .closes ∈ acts) ∧
      (c.run acts).sent = c.sent ++ handed acts := by
  induction acts generalizing c with
  | nil => exact ⟨h, by simp [Conduit.run], (List.append_nil _).symm⟩
  | cons a acts ih =>
    obtain ⟨hinv, hclosed, hsent⟩ := h.act fun m hm => hacts m (List.mem_cons.mpr (.inl hm.symm))
    obtain ⟨hinv', hclosed', hsent'⟩ := ih hinv fun m hm => hacts m (List.mem_cons_of_mem a hm)
    refine ⟨hinv', ?_, ?_⟩
    · change ((c.act a).run acts).left.closed = true ↔ _
      rw [hclosed', hclosed, List.mem_cons, or_assoc]
    · change ((c.act a).run acts).sent = _
      rw [hsent', hsent, List.append_assoc, ← handed_append]
      rfl

/-! ## What has arrived -/

theorem Inv.received_prefix (h : c.Inv limit) :
    c.received <+: (c.sent.filter (sendable limit)).map canonical := by
  obtain ⟨gone, ms, hledger, -, hall⟩ := h.flow
  obtain ⟨lost, hsent, -⟩ := hledger.split
  have hgone : (gone.filter (sendable limit)).map canonical <+: (c.sent.filter (sendable limit)).map canonical := by
    rw [hsent, List.append_assoc]
    exact ((List.prefix_append gone _).filter _).map _
  exact (List.prefix_append _ _).trans (by rwa [hall])

/-- Nothing is on its way any more when nothing moves, or when the receiver has seen the end. -/
structure Settled (limit : Nat) (c : Conduit) (gone : List Message) : Prop where
  ledger : Ledger limit c.sent c.left gone
  received : c.received = (gone.filter (sendable limit)).map canonical

theorem Inv.settled_of_ended (h : c.Inv limit) (hended : c.right.ended = true) : ∃ gone, Settled limit c gone := by
  obtain ⟨gone, ms, hledger, hlane, hall⟩ := h.flow
  simp only [Channel.ended, Bool.and_eq_true, decide_eq_true_eq, List.isEmpty_iff] at hended
  obtain ⟨-, rfl⟩ := hlane.finished hended.1
  refine ⟨gone, hledger, ?_⟩
  rw [← hall, onward, Channel.taken, hended.1, hended.2]
  exact (List.append_nil _).symm

/-- Where nothing moves, the queue is empty, or the receiver has seen the end. -/
theorem Inv.settled_of_final (h : c.Inv limit) (hfinal : c.Final) :
    ∃ gone, Settled limit c gone ∧
      (c.right.ended = true ∨ c.left.closed = false ∧ c.left.queue = []) := by
  obtain ⟨gone, ms, hledger, hlane, hall⟩ := h.flow
  have hwrite : c.leftEnd.write? 1 = none := Option.map_eq_none_iff.mp (hfinal (.left (.writes 1)))
  have hread : c.rightEnd.read? 1 = none := Option.map_eq_none_iff.mp (hfinal (.right (.reads 1)))
  have hin : c.right.inbound = [] :=
    Channel.inbound_of_receive?_eq_none (Option.map_eq_none_iff.mp (hfinal .receives))
  obtain ⟨rfl, htaken, hstate⟩ := Lane.rests (w := c.leftEnd) (t := c.rightEnd) hlane rfl rfl rfl h.room.2.2
    h.room.2.1 hwrite hread hin
  refine ⟨gone, ⟨hledger, ?_⟩, ?_⟩
  · rw [← hall, onward, show c.right.taken = [] from htaken]
    exact (List.append_nil _).symm
  · rcases hstate with ⟨-, hstopped⟩ | ⟨-, hclosed, hout, -⟩
    · left
      rw [Channel.ended, show c.right.reader = .stopped from hstopped, hin]
      rfl
    · have hblocked := hledger.ready h.room.1 hout
      refine .inr ⟨hclosed, ?_⟩
      rw [Channel.queue, show c.left.outbound = [] from hout, hblocked]
      rfl

theorem Settled.kept {gone : List Message} (h : Settled limit c gone) {t : Ticket}
    (ht : c.left.outcome? t = some (.ok ())) : ∃ m, c.sent[t]? = some m ∧ sendable limit m = true ∧
      ((c.sent.take (t + 1)).filter (sendable limit)).map canonical <+: c.received := by
  obtain ⟨m, hm, hsendable⟩ := h.ledger.sent_ok t ht
  obtain ⟨lost, hsent, -⟩ := h.ledger.split
  obtain ⟨hlt, -⟩ := List.getElem?_eq_some_iff.mp hm
  rw [List.append_assoc] at hsent
  refine ⟨m, ?_, hsendable, ?_⟩
  · rw [hsent, List.getElem?_append_left hlt, hm]
  · rw [hsent, List.take_append_of_le_length hlt, h.received]
    exact ((List.take_prefix _ _).filter _).map _

/-- What a run has delivered. -/
structure Reliable (limit : Nat) (c : Conduit) (acts : List ConduitAct) : Prop where
  /-- The ticket of a message is its place among those that were handed over. -/
  ticket : ∀ pre m post, acts = pre ++ .sends m :: post →
    ((c.run pre).left.submit m).1 = (handed pre).length
  order : (c.run acts).received <+: ((handed acts).filter (sendable limit)).map canonical
  whole : .closes ∉ acts → (c.run acts).Final →
    (c.run acts).received = ((handed acts).filter (sendable limit)).map canonical
  /-- A receiver that has seen the end has what was reported as sent, and all that came before. -/
  kept : (c.run acts).Final ∨ (c.run acts).right.ended = true →
    ∀ t, (c.run acts).left.outcome? t = some (.ok ()) → ∃ m, (handed acts)[t]? = some m ∧
      sendable limit m = true ∧
        (((handed acts).take (t + 1)).filter (sendable limit)).map canonical <+: (c.run acts).received
  ended : .closes ∈ acts → (c.run acts).Final → (c.run acts).right.ended = true

/-- Whatever the sizes of the queues and of the stream, in whatever pieces it takes and gives the
bytes, and whenever the sender is closed. -/
theorem messages_arrive_in_order (limit : Nat) {leftCapacity rightCapacity upRoom : Nat} (downRoom : Nat)
    (hleft : 0 < leftCapacity) (hright : 0 < rightCapacity) (hroom : 0 < upRoom) {acts : List ConduitAct}
    (hacts : ∀ m, .sends m ∈ acts → Expressible limit m) :
    Reliable limit (start limit leftCapacity rightCapacity upRoom downRoom) acts := by
  have hstart := inv_start limit downRoom hleft hright hroom
  obtain ⟨hinv, hclosed, hsent⟩ := hstart.run hacts
  rw [show (start limit leftCapacity rightCapacity upRoom downRoom).left.closed = false from rfl] at hclosed
  simp only [Bool.false_eq_true, false_or] at hclosed
  rw [show (start limit leftCapacity rightCapacity upRoom downRoom).sent = [] from rfl, List.nil_append] at hsent
  refine ⟨?_, ?_, ?_, ?_, ?_⟩
  · rintro pre m post rfl
    obtain ⟨hpre, -, hhanded⟩ := hstart.run fun a ha => hacts a (List.mem_append_left _ ha)
    obtain ⟨gone, ms, hledger, -, -⟩ := hpre.flow
    exact hledger.next.trans (congrArg List.length hhanded)
  · rw [← hsent]
    exact hinv.received_prefix
  · intro hopen hfinal
    obtain ⟨gone, hsettled, hstate⟩ := hinv.settled_of_final hfinal
    obtain ⟨lost, hsplit, hlost⟩ := hsettled.ledger.split
    have hgoing : ¬ ((start limit leftCapacity rightCapacity upRoom downRoom).run acts).left.closed = true :=
      fun h => hopen (hclosed.mp h)
    have hqueue : ((start limit leftCapacity rightCapacity upRoom downRoom).run acts).left.queue = [] := by
      rcases hstate with hended | ⟨-, hqueue⟩
      · simp only [Channel.ended, Bool.and_eq_true, decide_eq_true_eq] at hended
        exact absurd (hinv.over hended.1) hgoing
      · exact hqueue
    rw [hqueue, hlost (by simpa using hgoing), List.append_nil, List.append_nil] at hsplit
    rw [hsettled.received, ← hsplit, hsent]
  · rw [← hsent]
    rintro (hfinal | hended) t ht
    · obtain ⟨gone, hsettled, -⟩ := hinv.settled_of_final hfinal
      exact hsettled.kept ht
    · obtain ⟨gone, hsettled⟩ := hinv.settled_of_ended hended
      exact hsettled.kept ht
  · intro hclose hfinal
    obtain ⟨gone, -, hended | ⟨hopen, -⟩⟩ := hinv.settled_of_final hfinal
    · exact hended
    · rw [hclosed.mpr hclose] at hopen
      cases hopen

/-- The second message has no frame, and the third one is still in the queue when the sender is
closed. -/
def cut : List ConduitAct :=
  [.sends (.reply ⟨1, .ok, [7]⟩), .sends (.reply ⟨2, .ok, [7, 7, 7]⟩), .sends (.reply ⟨3, .ok, []⟩),
    .moves (.left (.writes 9)), .moves (.left (.writes 9)), .moves (.left (.writes 10)),
    .moves (.left (.writes 9)), .moves (.left (.writes 9)), .closes, .moves (.left (.writes 9)),
    .moves (.left .notices), .moves (.right (.reads 5)), .moves (.right (.reads 9)),
    .moves (.right (.reads 20)), .moves (.right (.reads 9)), .moves (.right (.reads 9)),
    .moves (.right (.reads 9)), .moves (.right (.reads 9)), .moves (.right (.writes 9)), .moves .receives]

set_option maxRecDepth 4000 in
theorem messages_arrive_in_order_cut : (∀ m, .sends m ∈ cut → Expressible 16 m) ∧
    ((start 16 2 1 32 1).run cut).Final ∧ ((start 16 2 1 32 1).run cut).left.outcome? 0 = some (.ok ()) ∧
    ((start 16 2 1 32 1).run cut).received = [.reply ⟨1, .ok, [7]⟩] ∧
    Reliable 16 (start 16 2 1 32 1) cut ∧ ((start 16 2 1 32 1).run cut).right.ended = true := by
  have hexpressible : ∀ m, .sends m ∈ cut → Expressible 16 m := fun m _ => expressible_of_limit (by decide) m
  have hfinal : ((start 16 2 1 32 1).run cut).Final := by
    rintro ((n | _ | n) | (n | _ | n) | _) <;> rfl
  have hreliable := messages_arrive_in_order 16 1 (show 0 < 2 by decide) (show 0 < 1 by decide)
    (show 0 < 32 by decide) hexpressible
  exact ⟨hexpressible, hfinal, rfl, rfl, hreliable, hreliable.ended (by simp [cut]) hfinal⟩

/-! ## Beyond the range of the length fields -/

section
variable {c : Conduit} {m : Message} {frame : Bytes} {t : Ticket} {n k : Nat} {w : Station}

theorem run_append (c : Conduit) (acts more : List ConduitAct) : c.run (acts ++ more) = (c.run acts).run more :=
  List.foldl_append

theorem act_writes (h : Station.write? ⟨c.left, c.up, c.down, .none⟩ n = some w) :
    c.act (.moves (.left (.writes n))) = { c with left := w.channel, up := w.out, down := w.into } := by
  simp only [act, move?, leftEnd, Station.move?, h, Option.map_some, Option.getD_some]

theorem act_reads (h : Station.read? ⟨c.right, c.down, c.up, .none⟩ n = some w) :
    c.act (.moves (.right (.reads n))) = { c with right := w.channel, down := w.out, up := w.into } := by
  simp only [act, move?, rightEnd, Station.move?, h, Option.map_some, Option.getD_some]

theorem run_writes (hidle : c.left.writer = .idle) (hopen : c.left.closed = false)
    (hout : c.left.outbound = [⟨t, m⟩]) (hblocked : c.left.blocked = []) (habandoned : c.up.abandoned = false)
    (hframe : encode c.left.limit m = .ok frame) (hsome : frame ≠ []) (hn : frame.length ≤ n)
    (hroom : frame.length ≤ c.up.room) : c.run (List.replicate 3 (.moves (.left (.writes n)))) = { c with
      left := { c.left with outbound := [], writer := .idle, settled := c.left.settled.insert t (.ok ()) }
      up := c.up.put frame } := by
  have htakes := act_writes (n := n) (Station.write?_takes hidle hopen hout hblocked hframe)
  have hwrites := act_writes (c := { c with left := { c.left with outbound := [], writer := .writing t frame } }) (n := n)
    (Station.write?_writes rfl habandoned rfl hsome hn hroom)
  have hflushes := act_writes (c := { c with
    left := { c.left with outbound := [], writer := .writing t [] }, up := c.up.put frame }) (n := n)
    (Station.write?_flushes rfl rfl)
  simp only [run, List.replicate, List.foldl_cons, List.foldl_nil]
  rw [htakes, hwrites, hflushes]
  rfl

theorem run_reads {needed present : Nat} (hwaiting : c.right.reader = .waiting) (hbuffer : c.right.buffer = [])
    (hinbound : c.right.inbound = []) (hcapacity : 0 < c.right.capacity) (hattended : c.right.attended = true)
    (hwriter : c.right.writer ≠ .stopped) (hsome : c.up.held ≠ []) (hn : c.up.held.length ≤ n)
    (hfirst : decode c.right.limit c.up.held = .ok (m, k))
    (hlacks : decode c.right.limit (c.up.held.drop k) = .error (.insufficient needed present)) :
    c.run (List.replicate 4 (.moves (.right (.reads n)))) = { c with
      right := { c.right with buffer := c.up.held.drop k, reader := .waiting, inbound := [m] }
      up := { c.up with held := [] } } := by
  have hreads := act_reads (n := n) (Station.read?_reads rfl hwaiting hsome hn)
  have hdecodes := act_reads (c := { c with
      right := { c.right with reader := .decoding, buffer := c.up.held }, up := { c.up with held := [] } }) (n := n)
    (Station.read?_decodes rfl hwriter hfirst)
  have hforwards := act_reads (c := { c with
      right := { c.right with reader := .holding m, buffer := c.up.held.drop k }, up := { c.up with held := [] } })
    (n := n) (Station.read?_forwards rfl hwriter hattended (by simpa [hinbound] using hcapacity))
  have hwaits := act_reads (c := { c with
      right := { c.right with reader := .decoding, buffer := c.up.held.drop k, inbound := [m] }
      up := { c.up with held := [] } }) (n := n)
    (Station.read?_lacks rfl hwriter hlacks)
  rw [hbuffer, List.nil_append] at hreads
  rw [hinbound, List.nil_append] at hforwards
  simp only [run, List.replicate, List.foldl_cons, List.foldl_nil]
  rw [hreads, hdecodes, hforwards, hwaits]

end

/-- The reply, and what brings it over in one go. -/
def overlong (n : Nat) (payload : Bytes) : List ConduitAct :=
  [.sends (.reply ⟨9, .ok, payload⟩)] ++ List.replicate 3 (.moves (.left (.writes n))) ++
    List.replicate 4 (.moves (.right (.reads n))) ++ [.moves .receives]

/-- A limit beyond the range lets a reply with 4 GiB of payload through. It is reported as sent, and a reply with
nothing in it arrives. What follows is taken for a frame that never ends. -/
theorem a_long_reply_arrives_empty : ∃ payload : Bytes, payload.length = 2 ^ 32 ∧
    let acts := overlong (2 ^ 33) payload
    let c := (start (2 ^ 33) 1 1 (2 ^ 33) 1).run acts
    c.Final ∧ .closes ∉ acts ∧ handed acts = [.reply ⟨9, .ok, payload⟩] ∧
      sendable (2 ^ 33) (.reply ⟨9, .ok, payload⟩) = true ∧ c.left.outcome? 0 = some (.ok ()) ∧
      c.received = [.reply ⟨9, .ok, []⟩] ∧
      ¬ Reliable (2 ^ 33) (start (2 ^ 33) 1 1 (2 ^ 33) 1) acts := by
  obtain ⟨payload, hlength, hlacks⟩ := exists_stray (show 2 ^ 32 ≤ 2 ^ 33 by decide)
  let empty : Bytes := [0, 0, 0, 14, 2, 0, 0, 0, 0, 0, 0, 0, 9, 0, 0, 0, 0, 0]
  have hempty : encode (2 ^ 33) (.reply ⟨9, .ok, []⟩) = .ok empty := by decide
  have hframe : encode (2 ^ 33) (.reply ⟨9, .ok, payload⟩) = .ok (empty ++ payload) :=
    encode_of_emptied hempty hlength (by decide)
  have hfirst : decode (2 ^ 33) (empty ++ payload) = .ok (.reply ⟨9, .ok, []⟩, 18) :=
    decode_of_encode hempty (by decide) payload
  have hsize : (empty ++ payload).length ≤ 2 ^ 33 := by
    rw [List.length_append, hlength]
    decide
  let begun : Conduit := { start (2 ^ 33) 1 1 (2 ^ 33) 1 with
    left := { Channel.start (2 ^ 33) 1 with outbound := [⟨0, .reply ⟨9, .ok, payload⟩⟩], nextTicket := 1 }
    sent := [.reply ⟨9, .ok, payload⟩] }
  let written : Conduit := { begun with
    left := { Channel.start (2 ^ 33) 1 with nextTicket := 1, settled := Table.empty.insert 0 (.ok ()) }
    up := ⟨2 ^ 33, empty ++ payload, false, false⟩ }
  let read : Conduit := { written with
    right := { Channel.start (2 ^ 33) 1 with buffer := payload, inbound := [.reply ⟨9, .ok, []⟩] }
    up := .ofCapacity (2 ^ 33) }
  have hwrites : begun.run (List.replicate 3 (.moves (.left (.writes (2 ^ 33))))) = written :=
    run_writes (c := begun) rfl rfl rfl rfl rfl hframe (List.cons_ne_nil _ _) hsize hsize
  have hreads : written.run (List.replicate 4 (.moves (.right (.reads (2 ^ 33))))) = read :=
    run_reads (c := written) rfl rfl rfl Nat.one_pos rfl nofun (List.cons_ne_nil _ _) hsize hfirst hlacks
  have hrun : (start (2 ^ 33) 1 1 (2 ^ 33) 1).run (overlong (2 ^ 33) payload) = read.act (.moves .receives) := by
    rw [overlong, run_append, run_append, run_append, show (start _ _ _ _ _).run [.sends _] = begun from rfl,
      hwrites, hreads]
    rfl
  have hreceived : (read.act (.moves .receives)).received = [.reply ⟨9, .ok, []⟩] := rfl
  have hhanded : handed (overlong (2 ^ 33) payload) = [.reply ⟨9, .ok, payload⟩] := by simp [overlong, handed]
  have hsendable := sendable_of_encode hframe
  have hfinal : (read.act (.moves .receives)).Final := by
    rintro ((n | _ | n) | (n | _ | n) | _) <;> rfl
  refine ⟨payload, hlength, hrun ▸ hfinal, by simp [overlong], hhanded, hsendable, hrun ▸ rfl, hrun ▸ hreceived,
    fun hreliable => ?_⟩
  have horder := hreliable.order
  rw [hrun, hreceived, hhanded] at horder
  simp only [List.filter_cons, hsendable, if_true, List.filter_nil, List.map_cons, List.map_nil, canonical] at horder
  obtain ⟨rest, hrest⟩ := horder
  have hempty : [] = payload := congrArg Reply.payload (Message.reply.inj (List.cons.inj hrest).1)
  rw [← hempty] at hlength
  exact absurd hlength (by decide)

end Conduit

end ClusterNet.Messaging
