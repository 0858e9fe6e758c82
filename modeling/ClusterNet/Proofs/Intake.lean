import ClusterNet.Proofs.Dwindling
import ClusterNet.Proofs.PartialFrames

/-!
# However the bytes come

A reader whose bytes come in portions, one read after the other, until the stream ends. What is
forwarded are the messages that are found when all the bytes are decoded from the front, wherever
a portion ends: in the middle of a frame, or after several frames and what can be no frame.
-/

namespace ClusterNet

/-! ## All the messages of some bytes -/

namespace Wire

variable {limit n : Nat} {b : Bytes} {m : Message} {e : FrameFault}

theorem length_of_decode (h : decode limit b = .ok (m, n)) : 4 ≤ n ∧ n ≤ b.length := by
  obtain ⟨frame, rest, rfl, rfl, -, -, hframe⟩ := decode_eq_ok.mp h
  exact ⟨(length_of_encode hframe).1, by simp⟩

/-- As many rounds as there are bytes are enough: further rounds find nothing more. -/
theorem decodeAll_eq_of_le (limit : Nat) {rounds more : Nat} (hrounds : b.length ≤ rounds) (hmore : b.length ≤ more) :
    decodeAll limit rounds b = decodeAll limit more b := by
  -- No bytes at all are a frame cut short, in a round as without one.
  have hnone : ∀ rounds, decodeAll limit rounds [] = ([], .insufficient 4 0, []) := fun rounds => by
    cases rounds <;> rfl
  induction rounds generalizing b more with
  | zero =>
    obtain rfl := List.eq_nil_of_length_eq_zero (Nat.le_zero.mp hrounds)
    rw [hnone, hnone]
  | succ rounds ih =>
    cases more with
    | zero =>
      obtain rfl := List.eq_nil_of_length_eq_zero (Nat.le_zero.mp hmore)
      rw [hnone, hnone]
    | succ more =>
      unfold decodeAll
      cases hdecode : decode limit b with
      | error e => rfl
      | ok found =>
        obtain ⟨m, n⟩ := found
        obtain ⟨hfour, -⟩ := length_of_decode hdecode
        have hrest : decodeAll limit rounds (b.drop n) = decodeAll limit more (b.drop n) :=
          ih (by rw [List.length_drop]; omega) (by rw [List.length_drop]; omega)
        dsimp only
        rw [hrest]

/-- What repeated decoding makes of some bytes: the messages at their front, why no more are found,
and the bytes that are left then. -/
def contents (limit : Nat) (b : Bytes) : List Message × FrameFault × Bytes :=
  let (found, e, rest) := decodeAll limit b.length b
  (found.map Prod.fst, e, rest)

theorem contents_of_error (h : decode limit b = .error e) : contents limit b = ([], e, b) := by
  have hround : decodeAll limit (b.length + 1) b = ([], e, b) := by rw [decodeAll, h]
  rw [contents, decodeAll_eq_of_le limit (Nat.le_refl _) (Nat.le_succ _), hround]
  rfl

theorem contents_of_ok (h : decode limit b = .ok (m, n)) :
    contents limit b = (m :: (contents limit (b.drop n)).1, (contents limit (b.drop n)).2) := by
  have hround : decodeAll limit (b.length + 1) b =
      ((m, n) :: (decodeAll limit b.length (b.drop n)).1, (decodeAll limit b.length (b.drop n)).2) := by
    rw [decodeAll, h]
  have hrest : decodeAll limit b.length (b.drop n) = decodeAll limit (b.drop n).length (b.drop n) :=
    decodeAll_eq_of_le limit (by rw [List.length_drop]; omega) (Nat.le_refl _)
  rw [contents, decodeAll_eq_of_le limit (Nat.le_refl _) (Nat.le_succ _), hround, hrest]
  rfl

end Wire

/-! ## A reader by itself -/

namespace Messaging

open Wire

/-- A reader, the portions in which its bytes are still to come, and what was taken from its queue,
the first first. -/
structure Intake where
  channel : Channel
  coming : List Bytes
  received : List Message

inductive IntakeMove where
  /-- The next portion comes, or else the end of the stream. -/
  | reads
  | notices
  | decodes
  | forwards
  | receives

namespace Intake

def start (limit capacity : Nat) (portions : List Bytes) : Intake := ⟨.start limit capacity, portions, []⟩

def move? (s : Intake) : IntakeMove → Option Intake
  | .reads => (s.channel.read? (s.coming.headD [])).map fun channel => { s with channel, coming := s.coming.tail }
  | .notices => s.channel.stopReading?.map fun channel => { s with channel }
  | .decodes => s.channel.decode?.map fun channel => { s with channel }
  | .forwards => s.channel.forward?.map fun channel => { s with channel }
  | .receives => s.channel.receive?.map fun (m, channel) => { s with channel, received := s.received ++ [m] }

/-- What is not possible now changes nothing. -/
def run (s : Intake) (moves : List IntakeMove) : Intake := moves.foldl (fun s m => (s.move? m).getD s) s

/-- Nothing moves any more. -/
def Final (s : Intake) : Prop := ∀ m, s.move? m = none

/-- The bytes that are not decoded yet. -/
def unread (s : Intake) : Bytes := s.channel.buffer ++ s.coming.flatten

variable {limit capacity : Nat} {bytes : Bytes} {portions : List Bytes} {s s' : Intake} {m : IntakeMove}

theorem flatten_eq (portions : List Bytes) : portions.flatten = portions.headD [] ++ portions.tail.flatten := by
  cases portions <;> rfl

/-- What a move can be. -/
inductive Step (s : Intake) : Intake → Prop where
  | reads {c : Channel} {b : Bytes} {coming : List Bytes} (read : Read s.channel true c b)
      (next : s.channel.reader = .waiting → b = s.coming.headD [] ∧ coming = s.coming.tail)
      (same : s.channel.reader ≠ .waiting → coming = s.coming) : Step s { s with channel := c, coming }
  | notices (waiting : s.channel.reader = .waiting) (closed : s.channel.closed = true) :
      Step s { s with channel := s.channel.endReading }
  | receives {m : Message} {rest : List Message} (first : s.channel.inbound = m :: rest) :
      Step s { s with
        channel := { s.channel with inbound := rest }
        received := s.received ++ [m] }

theorem step_of_move? (h : s.move? m = some s') : Step s s' := by
  cases m with
  | reads =>
    obtain ⟨c, hc, rfl⟩ := Option.map_eq_some_iff.mp h
    have hwaiting : s.channel.reader = .waiting := by
      unfold Channel.read? at hc
      split at hc
      · assumption
      · cases hc
    exact .reads (.of_read? hc fun _ => rfl) (fun _ => ⟨rfl, rfl⟩) fun hnot => absurd hwaiting hnot
  | notices =>
    obtain ⟨c, hc, rfl⟩ := Option.map_eq_some_iff.mp h
    obtain ⟨hwaiting, hclosed, rfl⟩ := Channel.stopReading?_eq_some hc
    exact .notices hwaiting hclosed
  | decodes =>
    obtain ⟨c, hc, rfl⟩ := Option.map_eq_some_iff.mp h
    have hdecoding : s.channel.reader = .decoding := by
      unfold Channel.decode? at hc
      split at hc
      · assumption
      · cases hc
    exact .reads (.of_decode? hc) (fun hwaiting => by simp [hdecoding] at hwaiting) fun _ => rfl
  | forwards =>
    obtain ⟨c, hc, rfl⟩ := Option.map_eq_some_iff.mp h
    refine .reads (.of_forward? hc) (fun hwaiting => ?_) fun _ => rfl
    rw [Channel.forward?, hwaiting] at hc
    cases hc
  | receives =>
    obtain ⟨⟨m, c⟩, hc, rfl⟩ := Option.map_eq_some_iff.mp h
    obtain ⟨rest, hfirst, rfl⟩ := Channel.receive?_eq_some hc
    exact .receives hfirst

/-! ## Moves come to an end -/

/-- How much is left to do. A frame is longer than the way of its message to the receiver. -/
def left (s : Intake) : Nat :=
  s.unread.length + 2 * s.coming.length + s.channel.inbound.length +
    match s.channel.reader with
    | .stopped => 0
    | .waiting => 1
    | .decoding => 2
    | .holding _ => 4

theorem Step.left_lt (h : Step s s') : s'.left < s.left := by
  cases h with
  | reads read next same =>
    cases read with
    | takes waiting some =>
      obtain ⟨rfl, rfl⟩ := next waiting
      have hpos : 0 < s.coming.length := List.length_pos_of_ne_nil fun hnone => some (by rw [hnone]; rfl)
      simp only [left, unread, waiting, flatten_eq s.coming, List.length_append, List.length_tail]
      omega
    | ends waiting =>
      obtain ⟨-, rfl⟩ := next waiting
      simp only [left, unread, waiting, Channel.endReading, flatten_eq s.coming, List.length_append,
        List.length_tail]
      omega
    | decodes decoding decoded =>
      obtain rfl := same (by simp [decoding])
      obtain ⟨hfour, hle⟩ := length_of_decode decoded
      simp only [left, unread, decoding, List.length_append, List.length_drop]
      omega
    | parks decoding =>
      obtain rfl := same (by simp [decoding])
      simp [left, unread, decoding]
    | breaks decoding =>
      obtain rfl := same (by simp [decoding])
      simp [left, unread, decoding, Channel.endReading]
    | passes holding =>
      obtain rfl := same (by simp [holding])
      simp only [left, unread, holding, List.length_append, List.length_singleton]
      omega
    | leaves holding =>
      obtain rfl := same (by simp [holding])
      simp [left, unread, holding, Channel.endReading]
  | notices waiting => simp [left, unread, waiting, Channel.endReading]
  | receives first => simp [left, unread, first]

/-- No buffer keeps the reader busy for ever. -/
theorem ends (s : Intake) : Ends move? s := by
  refine ends_of_left (L := fun n s => s.left = n) ?_ rfl
  rintro n s m s' rfl h
  exact ⟨s'.left, (step_of_move? h).left_lt, rfl⟩

theorem stopped_of_final (hcapacity : 0 < s.channel.capacity) (h : s.Final) :
    s.channel.reader = .stopped ∧ s.channel.inbound = [] := by
  have hin : s.channel.inbound = [] :=
    Channel.inbound_of_receive?_eq_none (Option.map_eq_none_iff.mp (h .receives))
  refine ⟨?_, hin⟩
  cases hreader : s.channel.reader with
  | waiting => exact absurd (Option.map_eq_none_iff.mp (h .reads)) (Channel.read?_ne_none hreader _)
  | decoding => exact absurd (Option.map_eq_none_iff.mp (h .decodes)) (Channel.decode?_ne_none hreader)
  | holding m =>
    have hroom : s.channel.inbound.length < s.channel.capacity := by
      rw [hin]
      exact hcapacity
    exact absurd (Option.map_eq_none_iff.mp (h .forwards)) (Channel.forward?_ne_none hreader hroom)
  | stopped => rfl

/-! ## What always holds -/

/-- Somebody takes what the reader forwards. -/
structure Served (limit : Nat) (c : Channel) : Prop where
  limited : c.limit = limit
  attended : c.attended = true
  room : 0 < c.capacity

theorem Served.read {c d : Channel} {done : Bool} {b : Bytes} (h : Served limit c) (hr : Read c done d b) :
    Served limit d where
  limited := hr.sameSender.limit.trans h.limited
  attended := hr.sameSender.attended.trans h.attended
  room := hr.sameSender.capacity ▸ h.room

structure Inv (limit : Nat) (bytes : Bytes) (s : Intake) : Prop where
  served : Served limit s.channel
  portions : ∀ b ∈ s.coming, b ≠ []
  /-- A reader that waits has no whole frame. -/
  parked : s.channel.reader = .waiting →
    ∃ need have_, decode limit s.channel.buffer = .error (.insufficient need have_)
  closed : s.channel.closed = true ↔ s.channel.reader = .stopped
  /-- A reader that has stopped has seen the end, or something that no further bytes put right. -/
  stopped : s.channel.reader = .stopped → ∃ e, decode limit s.channel.buffer = .error e ∧
    (s.coming = [] ∨ ∀ need have_, e ≠ .insufficient need have_)
  /-- Nothing is lost, and nothing comes twice. -/
  flow : contents limit bytes =
    (s.received ++ s.channel.taken ++ (contents limit s.unread).1, (contents limit s.unread).2)

theorem inv_start (limit : Nat) (hcapacity : 0 < capacity) (h : ∀ b ∈ portions, b ≠ []) :
    (start limit capacity portions).Inv limit portions.flatten where
  served := ⟨rfl, rfl, hcapacity⟩
  portions := h
  parked _ := ⟨4, 0, rfl⟩
  closed := by simp [start, Channel.start]
  stopped := by simp [start, Channel.start]
  flow := rfl

theorem Inv.flow_congr (h : s.Inv limit bytes) (hunread : s'.unread = s.unread)
    (htaken : s'.received ++ s'.channel.taken = s.received ++ s.channel.taken) : contents limit bytes =
    (s'.received ++ s'.channel.taken ++ (contents limit s'.unread).1, (contents limit s'.unread).2) := by
  rw [hunread, htaken]
  exact h.flow

/-- The bytes that are still to come cannot change what was found in those that are there. -/
theorem contents_unread {m : Message} {n : Nat} (h : decode limit s.channel.buffer = .ok (m, n)) :
    contents limit s.unread = (m :: (contents limit (s.channel.buffer.drop n ++ s.coming.flatten)).1,
      (contents limit (s.channel.buffer.drop n ++ s.coming.flatten)).2) := by
  have hmore : decode limit s.unread = .ok (m, n) := by
    rw [unread, decode_append (by rw [h]; exact settles_ok _), h]
  rw [contents_of_ok hmore, unread, List.drop_append_of_le_length (length_of_decode h).2]

theorem Inv.step (h : s.Inv limit bytes) (hs : Step s s') : s'.Inv limit bytes := by
  cases hs with
  | reads read next same =>
    have hserved := h.served.read read
    cases read with
    | takes waiting some =>
      obtain ⟨rfl, rfl⟩ := next waiting
      exact {
        served := hserved
        portions := fun b hb => h.portions b (List.mem_of_mem_tail hb)
        parked := by simp
        closed := by simp [h.closed, waiting]
        stopped := by simp
        flow := h.flow_congr (by simp [unread, flatten_eq s.coming])
          (by simp [Channel.taken, Reader.held, waiting]) }
    | ends waiting =>
      obtain ⟨hlast, rfl⟩ := next waiting
      -- No portion is empty, so this is the end of the stream.
      have hcoming : s.coming = [] := by
        cases hcoming : s.coming with
        | nil => rfl
        | cons b rest => exact absurd (hcoming ▸ hlast).symm (h.portions b (hcoming ▸ List.mem_cons_self))
      obtain ⟨need, have_, hfew⟩ := h.parked waiting
      exact {
        served := hserved
        portions := by simp [hcoming]
        parked := by simp [Channel.endReading]
        closed := by simp [Channel.endReading]
        stopped := fun _ => ⟨_, hfew, .inl (by rw [hcoming]; rfl)⟩
        flow := h.flow_congr (by simp [unread, hcoming, Channel.endReading])
          (by simp [Channel.taken, Reader.held, Channel.endReading, waiting]) }
    | decodes decoding decoded =>
      obtain rfl := same (by simp [decoding])
      rw [h.served.limited] at decoded
      exact {
        served := hserved
        portions := h.portions
        parked := by simp
        closed := by simp [h.closed, decoding]
        stopped := by simp
        flow := by
          rw [h.flow, contents_unread decoded]
          simp [Channel.taken, Reader.held, decoding, unread] }
    | parks decoding few =>
      obtain rfl := same (by simp [decoding])
      exact {
        served := hserved
        portions := h.portions
        parked := fun _ => ⟨_, _, h.served.limited ▸ few⟩
        closed := by simp [h.closed, decoding]
        stopped := by simp
        flow := h.flow_congr rfl (by simp [Channel.taken, Reader.held, decoding]) }
    | breaks decoding broken serious =>
      obtain rfl := same (by simp [decoding])
      exact {
        served := hserved
        portions := h.portions
        parked := by simp [Channel.endReading]
        closed := by simp [Channel.endReading]
        stopped := fun _ => ⟨_, h.served.limited ▸ broken, .inr serious⟩
        flow := h.flow_congr rfl (by simp [Channel.taken, Reader.held, Channel.endReading, decoding]) }
    | passes holding =>
      obtain rfl := same (by simp [holding])
      exact {
        served := hserved
        portions := h.portions
        parked := by simp
        closed := by simp [h.closed, holding]
        stopped := by simp
        flow := h.flow_congr rfl (by simp [Channel.taken, Reader.held, holding]) }
    | leaves holding neglected => exact absurd h.served.attended (by simp [neglected])
  | notices waiting closed => exact absurd (h.closed.mp closed) (by simp [waiting])
  | receives first =>
    exact {
      served := ⟨h.served.limited, h.served.attended, h.served.room⟩
      portions := h.portions
      parked := h.parked
      closed := h.closed
      stopped := h.stopped
      flow := h.flow_congr rfl (by simp [Channel.taken, first]) }

theorem Inv.run (h : s.Inv limit bytes) (moves : List IntakeMove) : (s.run moves).Inv limit bytes := by
  induction moves generalizing s with
  | nil => exact h
  | cons m moves ih =>
    cases hm : s.move? m with
    | none => simpa [Intake.run, hm] using ih h
    | some s' => simpa [Intake.run, hm] using ih (h.step (step_of_move? hm))

/-! ## What comes of all the bytes -/

/-- What a reader has made of its bytes in the end. -/
structure Concluded (limit : Nat) (bytes : Bytes) (s : Intake) : Prop where
  received : s.received = (contents limit bytes).1
  /-- Nothing of what could not be decoded was used. -/
  unread : s.unread = (contents limit bytes).2.2
  /-- The reader has seen why there are no more messages, in what it had read. -/
  why : decode limit s.channel.buffer = .error (contents limit bytes).2.1
  /-- Bytes that are too few were given up at the end of the stream only. -/
  whole : (∃ need have_, (contents limit bytes).2.1 = .insufficient need have_) → s.coming = []
  closed : s.channel.closed = true
  ended : s.channel.ended = true

theorem Inv.concluded (h : s.Inv limit bytes) (hfinal : s.Final) : Concluded limit bytes s := by
  obtain ⟨hstopped, hin⟩ := stopped_of_final h.served.room hfinal
  obtain ⟨e, he, hwhy⟩ := h.stopped hstopped
  have hmore : decode limit s.unread = .error e := by
    rcases hwhy with hcoming | hserious
    · rw [unread, hcoming, List.flatten_nil, List.append_nil, he]
    · rw [unread, decode_append (fun need have_ hfew => hserious need have_ (Except.error.inj (he ▸ hfew))), he]
  have hcontents : contents limit bytes = (s.received, e, s.unread) := by
    rw [h.flow, contents_of_error hmore, Channel.taken, hin, hstopped]
    simp [Reader.held]
  refine ⟨?_, ?_, ?_, ?_, h.closed.mpr hstopped, ?_⟩
  · rw [hcontents]
  · rw [hcontents]
  · rw [hcontents, he]
  · rw [hcontents]
    rintro ⟨need, have_, hfew⟩
    exact hwhy.resolve_right fun hserious => hserious need have_ hfew
  · rw [Channel.ended, hstopped, hin]
    rfl

/-- Wherever the stream of bytes is divided, and however the reader and the receiver take turns. No
buffer keeps the reader busy for ever, and when nothing moves any more, the messages are those of the
bytes as a whole, up to the first that cannot be decoded or to the end of the stream. -/
theorem any_division_gives_the_contents {limit capacity : Nat} (hcapacity : 0 < capacity)
    {portions : List Bytes} (hportions : ∀ b ∈ portions, b ≠ []) :
    (∀ s : Intake, Ends move? s) ∧ ∀ moves,
      ((start limit capacity portions).run moves).received <+: (contents limit portions.flatten).1 ∧
      (((start limit capacity portions).run moves).Final →
        Concluded limit portions.flatten ((start limit capacity portions).run moves)) := by
  refine ⟨ends, fun moves => ?_⟩
  have hinv := (inv_start limit hcapacity hportions).run moves
  refine ⟨?_, hinv.concluded⟩
  rw [hinv.flow, List.append_assoc]
  exact List.prefix_append _ _

/-- Two frames, the ends of the portions in the middle of each, and then bytes that are no frame. -/
def garbled : List Bytes :=
  [[0, 0, 0, 14, 2, 0, 0], [0, 0, 0, 0, 0, 9, 0, 0, 0, 0, 0, 0, 0, 0, 14, 2, 0],
    [0, 0, 0, 0, 0, 0, 8, 1, 0, 0, 0, 0, 0, 0, 0, 1, 238], [7]]

def garbledMoves : List IntakeMove :=
  [.reads, .decodes, .reads, .decodes, .forwards, .decodes, .reads, .decodes, .receives, .forwards, .decodes,
    .receives]

set_option maxRecDepth 4000 in
theorem any_division_gives_the_contents_garbled : (∀ b ∈ garbled, b ≠ []) ∧
    ((start 20 1 garbled).run garbledMoves).Final ∧
    ((start 20 1 garbled).run garbledMoves).received = [.reply ⟨9, .ok, []⟩, .reply ⟨8, .noHandler, []⟩] ∧
    Concluded 20 garbled.flatten ((start 20 1 garbled).run garbledMoves) := by
  have hportions : ∀ b ∈ garbled, b ≠ [] := by decide
  have hfinal : ((start 20 1 garbled).run garbledMoves).Final := by
    rintro (_ | _ | _ | _ | _) <;> rfl
  exact ⟨hportions, hfinal, rfl,
    ((any_division_gives_the_contents (by decide) hportions).2 garbledMoves).2 hfinal⟩

end Intake

end Messaging

end ClusterNet
