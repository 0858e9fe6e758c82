import ClusterNet.Proofs.Flow

/-!
# A stream that loses nothing

One direction of a connection whose receiver takes whatever comes. The sender may be closed at any
moment: then it ends a frame that it has begun, and the receiver reads all frames before it sees
that there are no more. So messages leave the queue of the sender for good, and each of them that
has a frame is on its way until it is received.
-/

namespace ClusterNet.Messaging

open Wire

/-- If the message has a frame, the length field can say how long it is. -/
def Expressible (limit : Nat) (m : Message) : Prop :=
  ∀ frame, encode limit m = .ok frame → frame.length < 2 ^ 32 + 4

/-- A limit that the length field can express leaves no other messages. -/
theorem expressible_of_limit {limit : Nat} (h : limit < 2 ^ 32) (m : Message) : Expressible limit m := by
  intro frame hframe
  have hle := (length_of_encode hframe).2
  omega

def sendable (limit : Nat) (m : Message) : Bool := (encode limit m).isOk

theorem fits_of_encode {limit : Nat} {m : Message} {frame : Bytes} (hm : Expressible limit m)
    (h : encode limit m = .ok frame) : Fits limit m :=
  ⟨frame, h, hm frame h⟩

theorem sendable_of_encode {limit : Nat} {m : Message} {frame : Bytes} (h : encode limit m = .ok frame) :
    sendable limit m = true := by
  unfold sendable
  rw [h]
  rfl

theorem not_sendable_of_encode {limit : Nat} {m : Message} {e : FrameFault}
    (h : encode limit m = .error e) : sendable limit m = false := by
  unfold sendable
  rw [h]
  rfl

theorem Channel.submit_eq (c : Channel) (m : Message) : ∃ outbound blocked settled,
    (c.submit m).2 = { c with outbound, blocked, settled, nextTicket := c.nextTicket + 1 } := by
  unfold Channel.submit
  dsimp only
  split
  · exact ⟨_, _, _, rfl⟩
  · split
    · exact ⟨_, _, _, rfl⟩
    · exact ⟨_, _, _, rfl⟩

/-! ## What the two parts of a channel do -/

/-- A step of the writer: what it puts into the stream, and what it takes from the queue. -/
inductive Wrote (c : Channel) : Channel → Bytes → List Message → Prop where
  | ends (idle : c.writer = .idle) (why : c.closed = true ∨ c.held = false) : Wrote c c.endWriting [] []
  | takes {q : Parcel} {rest : List Parcel} {frame : Bytes} (idle : c.writer = .idle)
      (running : c.closed = false) (first : c.outbound = q :: rest)
      (encoded : encode c.limit q.message = .ok frame) :
      Wrote c { c with
        outbound := rest ++ c.blocked.take 1
        blocked := c.blocked.drop 1
        writer := .writing q.ticket frame } [] [q.message]
  | refuses {q : Parcel} {rest : List Parcel} {e : FrameFault} (idle : c.writer = .idle)
      (running : c.closed = false) (first : c.outbound = q :: rest)
      (refused : encode c.limit q.message = .error e) :
      Wrote c ({ c with
        outbound := rest ++ c.blocked.take 1
        blocked := c.blocked.drop 1 }.settle q.ticket (.error (.codec e))) [] [q.message]
  | puts {t : Ticket} {b left : Bytes} (writing : c.writer = .writing t (b ++ left)) (some : b ≠ []) :
      Wrote c { c with writer := .writing t left } b []
  | flushes {t : Ticket} (writing : c.writer = .writing t []) :
      Wrote c ({ c with writer := .idle }.settle t (.ok ())) [] []

/-- What becomes of the two pipes of an end in a step. -/
structure Station.Moved (w w' : Station) (put taken : Bytes) : Prop where
  out : w'.out.held = w.out.held ++ put
  into : w.into.held = taken ++ w'.into.held
  shuts : w'.out.shut = true → w.out.shut = true ∨ w'.channel.writer = .stopped
  keepsShut : w.out.shut = true → w'.out.shut = true
  ends : w.channel.writer ≠ .stopped → w'.channel.writer = .stopped → w'.out.shut = true
  outAbandoned : w'.out.abandoned = w.out.abandoned
  outCapacity : w'.out.capacity = w.out.capacity
  intoShut : w'.into.shut = w.into.shut
  intoCapacity : w'.into.capacity = w.into.capacity
  abandons : w'.into.abandoned = true → w.into.abandoned = true ∨ w'.channel.isDone = true
  faults : w'.faults = w.faults

namespace Station

variable {w w' : Station} {n : Nat}

theorem moved_tidy (w : Station) (c : Channel) {put taken rest : Bytes} (h : w.into.held = taken ++ rest) :
    Moved w ({ w with
      channel := c
      out := w.out.put put
      into := { w.into with held := rest } } : Station).tidy put taken := by
  unfold tidy
  refine ⟨?_, ?_, ?_, ?_, ?_, ?_, ?_, ?_, ?_, ?_, rfl⟩
  · dsimp only
    split <;> rfl
  · dsimp only
    split <;> exact h
  · dsimp only
    split
    · exact fun _ => .inr ‹_›
    · exact .inl
  · dsimp only
    split
    · exact fun _ => rfl
    · exact id
  · intro _ hstopped
    dsimp only at hstopped ⊢
    rw [if_pos hstopped]
    rfl
  · dsimp only
    split <;> rfl
  · dsimp only
    split <;> rfl
  · dsimp only
    split <;> rfl
  · dsimp only
    split <;> rfl
  · dsimp only
    split
    · exact fun _ => .inr ‹_›
    · exact .inl

theorem moved_channel (w : Station) (c : Channel) : Moved w ({ w with channel := c } : Station).tidy [] [] := by
  have hput : w.out.put [] = w.out := by simp [Pipe.put]
  have hmoved : Moved w ({ w with channel := c, out := w.out.put [] } : Station).tidy [] [] :=
    moved_tidy w c rfl
  rwa [hput] at hmoved

theorem wrote_idle {c d : Channel} (hidle : c.writer = .idle)
    (h : (c.stopWriting?.orElse fun _ => c.next?) = some d) : ∃ popped, Wrote c d [] popped := by
  cases hstop : c.stopWriting? with
  | some e =>
    rw [hstop] at h
    obtain rfl := Option.some.inj h
    unfold Channel.stopWriting? at hstop
    split at hstop
    · rename_i hwhy
      obtain rfl := Option.some.inj hstop
      refine ⟨[], .ends hidle ?_⟩
      rcases hwhy.2 with hclosed | ⟨hheld, -⟩
      · exact .inl hclosed
      · exact .inr (by simpa using hheld)
    · simp at hstop
  | none =>
    rw [hstop] at h
    change c.next? = some d at h
    unfold Channel.next? at h
    split at h
    · rename_i q rest _ hclosed hfirst
      dsimp only at h
      split at h
      · rename_i frame hframe
        obtain rfl := Option.some.inj h
        exact ⟨_, .takes hidle hclosed hfirst hframe⟩
      · rename_i e he
        obtain rfl := Option.some.inj h
        exact ⟨_, .refuses hidle hclosed hfirst he⟩
    · simp at h

theorem wrote_of_idle (hidle : w.channel.writer = .idle) (h : w.write? n = some w') :
    ∃ popped, Wrote w.channel w'.channel [] popped ∧ Moved w w' [] [] := by
  unfold write? at h
  rw [hidle] at h
  obtain ⟨c, hc, rfl⟩ := Option.map_eq_some_iff.mp h
  obtain ⟨popped, hwrote⟩ := wrote_idle hidle hc
  exact ⟨popped, hwrote, moved_channel w c⟩

theorem wrote_write? (hfaults : w.faults = .none) (hout : w.out.abandoned = false)
    (h : w.write? n = some w') :
    ∃ b popped, Wrote w.channel w'.channel b popped ∧ Moved w w' b [] := by
  by_cases hidle : w.channel.writer = .idle
  · obtain ⟨popped, hwrote⟩ := wrote_of_idle hidle h
    exact ⟨[], popped, hwrote⟩
  unfold write? at h
  split at h
  · simp at h
  · exact absurd ‹_› hidle
  · rename_i t left hwriting
    split at h
    · rename_i hnil
      rw [List.isEmpty_iff] at hnil
      subst hnil
      have hflush : w.faults.flush = false := by rw [hfaults, Faults.none]
      rw [if_neg (by simp [hflush])] at h
      obtain ⟨c, hc, rfl⟩ := Option.map_eq_some_iff.mp h
      unfold Channel.flush? at hc
      rw [hwriting] at hc
      obtain rfl := Option.some.inj hc
      exact ⟨[], [], .flushes hwriting, moved_channel w _⟩
    · have hwrite : w.faults.write = false := by rw [hfaults, Faults.none]
      rw [if_neg (by simp [hwrite, hout])] at h
      obtain ⟨⟨b, c⟩, hc, rfl⟩ := Option.map_eq_some_iff.mp h
      unfold Channel.write? at hc
      rw [hwriting] at hc
      cases left with
      | nil => simp at hc
      | cons x left =>
        dsimp only at hc
        split at hc
        · simp at hc
        · rename_i hmin
          obtain ⟨rfl, rfl⟩ := Prod.mk.inj (Option.some.inj hc)
          have hput : (x :: left).take (min n w.out.room) ≠ [] := by
            simpa [List.take_eq_nil_iff] using hmin
          refine ⟨_, [], .puts (by rw [hwriting, List.take_append_drop]) hput, rfl, rfl, .inl, id, ?_, rfl, rfl,
            rfl, rfl, .inl, rfl⟩
          simp

theorem read_read? (hfaults : w.faults = .none) (h : w.read? n = some w') :
    ∃ b, Read w.channel w.into.ended w'.channel b ∧ Moved w w' [] b := by
  obtain ⟨c, ⟨hr, rfl⟩ | ⟨b, rest, -, hr, hheld, rfl⟩⟩ := read?_cases hfaults h
  · exact ⟨[], hr, moved_channel w c⟩
  · refine ⟨b, hr, by simp, hheld, .inl, id, ?_, rfl, rfl, rfl, rfl, .inl, rfl⟩
    exact fun hwriting hstopped => absurd (hr.sameSender.writer ▸ hstopped) hwriting

end Station

/-! ## The lane -/

/-- The frames of some messages are on their way: a part is read and not decoded, a part is in the
pipe, and a part is not written yet. A reader that waits has no whole frame, and a reader that has
stopped has seen the end of the stream. -/
structure Lane (limit : Nat) (s : Channel) (p : Pipe) (r : Channel) (ms : List Message) : Prop where
  sender : s.limit = limit
  receiver : r.limit = limit
  fits : ∀ m ∈ ms, Fits limit m
  bytes : r.buffer ++ p.held ++ s.writer.left = ms.flatMap (frameOf limit)
  parked : r.reader = .waiting → ∃ need have_, decode limit r.buffer = .error (.insufficient need have_)
  finished : r.reader = .stopped → s.writer = .stopped ∧ ms = []
  shut : p.shut = true ↔ s.writer = .stopped
  abandoned : p.abandoned = true → r.reader = .stopped

/-- What will be received of what has left the queue of the sender. -/
def onward (r : Channel) (ms : List Message) : List Message := r.taken ++ ms.map canonical

section

variable {limit : Nat} {s s' r r' : Channel} {p p' : Pipe} {ms : List Message}

theorem lane_start (limit cs cr room : Nat) :
    Lane limit (.start limit cs) (.ofCapacity room) (.start limit cr) [] where
  sender := rfl
  receiver := rfl
  fits := by simp
  bytes := rfl
  parked _ := ⟨4, 0, rfl⟩
  finished h := by simp [Channel.start] at h
  shut := by simp [Pipe.ofCapacity, Channel.start]
  abandoned h := by simp [Pipe.ofCapacity] at h

theorem Wrote.limit_eq {b : Bytes} {popped : List Message} (h : Wrote s s' b popped) : s'.limit = s.limit := by
  cases h with
  | ends => exact (sameReader_endWriting s).limit
  | _ => rfl

theorem Wrote.capacity_eq {b : Bytes} {popped : List Message} (h : Wrote s s' b popped) :
    s'.capacity = s.capacity := by
  cases h with
  | ends =>
    obtain ⟨settled, he⟩ := endWriting_eq s
    rw [he]
  | _ => rfl

theorem Wrote.sameReader {b : Bytes} {popped : List Message} (h : Wrote s s' b popped) :
    s.SameReader s' := by
  cases h with
  | ends => exact sameReader_endWriting s
  | _ => exact ⟨rfl, rfl, rfl, rfl⟩

theorem Wrote.going {b : Bytes} {popped : List Message} (h : Wrote s s' b popped) : s.writer ≠ .stopped := by
  cases h with
  | ends idle => simp [idle]
  | takes idle => simp [idle]
  | refuses idle => simp [idle]
  | puts writing => simp [writing]
  | flushes writing => simp [writing]

theorem Wrote.left {b : Bytes} {popped : List Message} (h : Wrote s s' b popped)
    (hexp : ∀ m ∈ popped, Expressible s.limit m) :
    s.writer.left ++ (popped.filter (sendable s.limit)).flatMap (frameOf s.limit) = b ++ s'.writer.left ∧
      ∀ m ∈ popped.filter (sendable s.limit), Fits s.limit m := by
  cases h with
  | ends idle why =>
    obtain ⟨settled, he⟩ := endWriting_eq s
    rw [he, idle]
    simp [Writer.left]
  | takes idle running first encoded =>
    rw [idle, List.filter_singleton, sendable_of_encode encoded]
    have hfits := fits_of_encode (hexp _ List.mem_cons_self) encoded
    simp [Writer.left, frameOf_eq encoded, hfits]
  | refuses idle running first refused =>
    rw [List.filter_singleton, not_sendable_of_encode refused]
    simp [Writer.left, idle, Channel.settle]
  | puts writing => simp [Writer.left, writing]
  | flushes writing => simp [Writer.left, writing, Channel.settle]

/-- A step of the sender: what leaves its queue and has a frame is on its way then. -/
theorem Lane.wrote (h : Lane limit s p r ms) {b : Bytes} {popped : List Message} (hw : Wrote s s' b popped)
    (hexp : ∀ m ∈ popped, Expressible limit m) (hheld : p'.held = p.held ++ b)
    (hshut : p'.shut = true ↔ s'.writer = .stopped) (habandoned : p'.abandoned = p.abandoned) :
    Lane limit s' p' r (ms ++ popped.filter (sendable limit)) := by
  obtain ⟨hleft, hfits⟩ := hw.left (by rwa [h.sender])
  rw [h.sender] at hleft hfits
  refine ⟨hw.limit_eq.trans h.sender, h.receiver, ?_, ?_, h.parked, ?_, hshut, ?_⟩
  · intro m hm
    rcases List.mem_append.mp hm with hm | hm
    · exact h.fits m hm
    · exact hfits m hm
  · rw [List.flatMap_append, ← h.bytes, hheld]
    simp only [List.append_assoc, hleft]
  · intro hstopped
    exact absurd (h.finished hstopped).1 hw.going
  · rw [habandoned]
    exact h.abandoned

/-- The bytes that the receiver has not decoded begin with the frame of the next message. -/
theorem Lane.stream (h : Lane limit s p r ms) :
    (∃ m rest n, ms = m :: rest ∧ decode limit r.buffer = .ok (canonical m, n) ∧
      r.buffer.drop n ++ (p.held ++ s.writer.left) = rest.flatMap (frameOf limit)) ∨
    ∃ need have_, decode limit r.buffer = .error (.insufficient need have_) := by
  have hbytes := h.bytes
  rw [List.append_assoc] at hbytes
  exact decode_stream h.fits hbytes

/-- A reader that waits and has all bytes there are has received every message. -/
theorem Lane.drained (h : Lane limit s p r ms) (hwaiting : r.reader = .waiting) (hheld : p.held = [])
    (hleft : s.writer.left = []) : ms = [] := by
  have hbytes := h.bytes
  rw [hheld, hleft, List.append_nil, List.append_nil] at hbytes
  obtain ⟨need, have_, hfew⟩ := h.parked hwaiting
  cases ms with
  | nil => rfl
  | cons m rest =>
    obtain ⟨frame, hframe, hlt⟩ := h.fits m List.mem_cons_self
    rw [List.flatMap_cons, frameOf_eq hframe] at hbytes
    have hdecode := decode_of_encode hframe hlt (rest.flatMap (frameOf limit))
    rw [← hbytes, hfew] at hdecode
    simp at hdecode

theorem writer_left_of_stopped (h : s.writer = .stopped) : s.writer.left = [] := by
  rw [h]
  rfl

theorem Lane.read (h : Lane limit s p r ms) {b : Bytes} (hr : Read r p.ended r' b)
    (hattended : r.attended = true) (hheld : p.held = b ++ p'.held) (hshut : p'.shut = p.shut)
    (habandoned : p'.abandoned = true → p.abandoned = true ∨ r'.reader = .stopped) :
    ∃ ms', Lane limit s p' r' ms' ∧ onward r' ms' = onward r ms := by
  have hshut' : p'.shut = true ↔ s.writer = .stopped := by rw [hshut, h.shut]
  have hgone : r.reader ≠ .stopped → p'.abandoned = true → r'.reader = .stopped := by
    intro hgoing hab
    rcases habandoned hab with hab | hstopped
    · exact absurd (h.abandoned hab) hgoing
    · exact hstopped
  cases hr with
  | takes waiting some =>
    refine ⟨ms, ⟨h.sender, h.receiver, h.fits, ?_, by simp, by simp, hshut', hgone (by simp [waiting])⟩, ?_⟩
    · rw [← h.bytes, hheld]
      simp
    · simp [onward, Channel.taken, Reader.held, waiting]
  | ends waiting last =>
    simp only [Pipe.ended, Bool.and_eq_true, List.isEmpty_iff] at last
    have hstopped := h.shut.mp last.1
    -- A reader that waits at the end of the bytes has seen every message.
    have hnil := h.drained waiting last.2 (writer_left_of_stopped hstopped)
    subst hnil
    refine ⟨[], ⟨h.sender, h.receiver, h.fits, ?_, by simp [Channel.endReading],
      fun _ => ⟨hstopped, rfl⟩, hshut', hgone (by simp [waiting])⟩, ?_⟩
    · rw [← h.bytes, hheld]
      rfl
    · simp [onward, Channel.taken, Reader.held, waiting, Channel.endReading]
  | decodes decoding decoded =>
    rw [h.receiver] at decoded
    -- The bytes not decoded yet are whole frames and the start of one, so what comes out is the next message.
    rcases h.stream with ⟨m, rest, n, rfl, hd, hrest⟩ | ⟨need, have_, hd⟩
    · rw [decoded] at hd
      obtain ⟨rfl, rfl⟩ := Prod.mk.inj (Except.ok.inj hd)
      refine ⟨rest, ⟨h.sender, h.receiver, fun a ha => h.fits a (List.mem_cons_of_mem _ ha), ?_, by simp,
        by simp, hshut', hgone (by simp [decoding])⟩, ?_⟩
      · rw [← hrest, hheld]
        simp
      · simp [onward, Channel.taken, Reader.held, decoding]
    · rw [decoded] at hd
      simp at hd
  | parks decoding few =>
    rw [h.receiver] at few
    refine ⟨ms, ⟨h.sender, h.receiver, h.fits, ?_, fun _ => ⟨_, _, few⟩, by simp, hshut',
      hgone (by simp [decoding])⟩, ?_⟩
    · rw [← h.bytes, hheld]
      rfl
    · simp [onward, Channel.taken, Reader.held, decoding]
  | breaks decoding broken serious =>
    rw [h.receiver] at broken
    rcases h.stream with ⟨m, rest, n, -, hd, -⟩ | ⟨need, have_, hd⟩
    · rw [broken] at hd
      simp at hd
    · rw [broken] at hd
      exact absurd (Except.error.inj hd) (serious need have_)
  | passes holding attended room =>
    refine ⟨ms, ⟨h.sender, h.receiver, h.fits, ?_, by simp, by simp, hshut', hgone (by simp [holding])⟩, ?_⟩
    · rw [← h.bytes, hheld]
      rfl
    · simp [onward, Channel.taken, Reader.held, holding]
  | leaves holding attended =>
    rw [hattended] at attended
    simp at attended

theorem Lane.congr (h : Lane limit s p r ms) (hlimit : s'.limit = s.limit) (hwriter : s'.writer = s.writer)
    (hr : r.SameReader r') (hheld : p'.held = p.held) (hshut : p'.shut = true ↔ s.writer = .stopped)
    (habandoned : p'.abandoned = true → p.abandoned = true ∨ r.reader = .stopped) :
    Lane limit s' p' r' ms := by
  refine ⟨hlimit.trans h.sender, hr.limit.trans h.receiver, h.fits, ?_, ?_, ?_, ?_, ?_⟩
  · rw [hr.buffer, hheld, hwriter]
    exact h.bytes
  · rw [hr.reader, hr.buffer]
    exact h.parked
  · rw [hr.reader, hwriter]
    exact h.finished
  · rw [hwriter]
    exact hshut
  · rw [hr.reader]
    intro hab
    rcases habandoned hab with hab | hstopped
    · exact h.abandoned hab
    · exact hstopped

theorem Lane.sender_eq (h : Lane limit s p r ms) (hlimit : s'.limit = s.limit)
    (hwriter : s'.writer = s.writer) : Lane limit s' p r ms :=
  h.congr hlimit hwriter ⟨rfl, rfl, rfl, rfl⟩ rfl h.shut .inl

theorem Lane.receiver_eq (h : Lane limit s p r ms) (hr : r.SameReader r') : Lane limit s p r' ms :=
  h.congr rfl rfl hr rfl h.shut .inl

theorem Lane.receive? (h : Lane limit s p r ms) {m : Message} (hr : r.receive? = some (m, r')) :
    Lane limit s p r' ms ∧ onward r ms = m :: onward r' ms := by
  obtain ⟨rest, hin, rfl⟩ := Channel.receive?_eq_some hr
  refine ⟨⟨h.sender, h.receiver, h.fits, h.bytes, h.parked, h.finished, h.shut, h.abandoned⟩, ?_⟩
  simp [onward, Channel.taken, hin]

theorem Wrote.mem_queue {b : Bytes} {popped : List Message} (h : Wrote s s' b popped) :
    ∀ m ∈ popped, m ∈ s.queue := by
  intro m hm
  cases h with
  | takes idle running first =>
    rw [List.mem_singleton] at hm
    simp [Channel.queue, first, hm]
  | refuses idle running first =>
    rw [List.mem_singleton] at hm
    simp [Channel.queue, first, hm]
  | ends => exact absurd hm List.not_mem_nil
  | puts => exact absurd hm List.not_mem_nil
  | flushes => exact absurd hm List.not_mem_nil

end

/-! ## An end and its two lanes -/

section

variable {limit : Nat} {w w' : Station} {s r : Channel} {ms : List Message} {n : Nat} {b : Bytes}
  {popped : List Message}

theorem Lane.out_of_popped (h : Lane limit w.channel w.out r ms) (hw : Wrote w.channel w'.channel b popped)
    (hmoved : Station.Moved w w' b []) (hexp : ∀ m ∈ popped, Expressible limit m) :
    Lane limit w'.channel w'.out r (ms ++ popped.filter (sendable limit)) := by
  have hshut : w'.out.shut = true ↔ w'.channel.writer = .stopped := by
    constructor
    · intro hs
      rcases hmoved.shuts hs with hs | hs
      · exact absurd (h.shut.mp hs) hw.going
      · exact hs
    · exact hmoved.ends hw.going
  exact h.wrote hw hexp hmoved.out hshut hmoved.outAbandoned

theorem Lane.out_of_write (h : Lane limit w.channel w.out r ms) (hw : Wrote w.channel w'.channel b popped)
    (hmoved : Station.Moved w w' b []) (hexp : ∀ m ∈ w.channel.queue, Expressible limit m) :
    Lane limit w'.channel w'.out r (ms ++ popped.filter (sendable limit)) :=
  h.out_of_popped hw hmoved fun m hm => hexp m (hw.mem_queue m hm)

theorem Lane.into_of_write (h : Lane limit s w.into w.channel ms)
    (hw : Wrote w.channel w'.channel b popped) (hmoved : Station.Moved w w' b []) :
    Lane limit s w'.into w'.channel ms := by
  have hsame := hw.sameReader
  refine h.congr rfl rfl hsame hmoved.into.symm ?_ ?_
  · rw [hmoved.intoShut]
    exact h.shut
  · intro hab
    rcases hmoved.abandons hab with hab | hdone
    · exact .inl hab
    · simp only [Channel.isDone, Bool.and_eq_true, decide_eq_true_eq] at hdone
      rw [hsame.reader] at hdone
      exact .inr hdone.2

theorem Lane.into_of_read (h : Lane limit s w.into w.channel ms)
    (hr : Read w.channel w.into.ended w'.channel b) (hmoved : Station.Moved w w' [] b)
    (hattended : w.channel.attended = true) :
    ∃ ms', Lane limit s w'.into w'.channel ms' ∧ onward w'.channel ms' = onward w.channel ms := by
  refine h.read hr hattended hmoved.into hmoved.intoShut fun hab => ?_
  rcases hmoved.abandons hab with hab | hdone
  · exact .inl hab
  · simp only [Channel.isDone, Bool.and_eq_true, decide_eq_true_eq] at hdone
    exact .inr hdone.2

theorem Lane.out_of_read (h : Lane limit w.channel w.out r ms)
    (hsame : w.channel.SameSender w'.channel) (hmoved : Station.Moved w w' [] b) :
    Lane limit w'.channel w'.out r ms := by
  have hheld : w'.out.held = w.out.held := by rw [hmoved.out, List.append_nil]
  refine h.congr hsame.limit hsame.writer ⟨rfl, rfl, rfl, rfl⟩ hheld ?_ ?_
  · constructor
    · intro hs
      rcases hmoved.shuts hs with hs | hs
      · exact h.shut.mp hs
      · rwa [hsame.writer] at hs
    · exact fun hstopped => hmoved.keepsShut (h.shut.mpr hstopped)
  · rw [hmoved.outAbandoned]
    exact .inl

theorem Lane.write? (h : Lane limit w.channel w.out r ms) (hfaults : w.faults = .none)
    (hw : w.write? n = some w') :
    ∃ b popped, Wrote w.channel w'.channel b popped ∧ Station.Moved w w' b [] := by
  apply Station.wrote_write? hfaults _ hw
  by_contra hab
  have hstopped := (h.finished (h.abandoned (by simpa using hab))).1
  unfold Station.write? at hw
  rw [hstopped] at hw
  simp at hw

/-! ## When nothing moves -/

theorem Station.stalled_write (hfaults : w.faults = .none) (h : w.write? 1 = none) :
    w.channel.writer = .stopped ∨
    (w.channel.writer = .idle ∧ w.channel.closed = false ∧ w.channel.outbound = []) ∨
    ∃ t x left, w.channel.writer = .writing t (x :: left) ∧ w.out.room = 0 := by
  unfold Station.write? at h
  split at h
  · exact .inl ‹_›
  · rename_i hidle
    rw [Option.map_eq_none_iff] at h
    have hgoing : w.channel.stopWriting? = none := by
      cases hstop : w.channel.stopWriting? with
      | none => rfl
      | some d =>
        rw [hstop] at h
        simp at h
    rw [hgoing] at h
    change w.channel.next? = none at h
    have hclosed : w.channel.closed = false := by
      unfold Channel.stopWriting? at hgoing
      split at hgoing
      · simp at hgoing
      · rename_i hnot
        by_contra hc
        exact hnot ⟨hidle, .inl (by simpa using hc)⟩
    refine .inr (.inl ⟨hidle, hclosed, ?_⟩)
    cases hout : w.channel.outbound with
    | nil => rfl
    | cons q rest =>
      unfold Channel.next? at h
      rw [hidle, hclosed, hout] at h
      dsimp only at h
      split at h
      · simp at h
      · simp at h
  · rename_i t left hwriting
    split at h
    · rename_i hnil
      rw [List.isEmpty_iff] at hnil
      subst hnil
      have hflush : w.faults.flush = false := by rw [hfaults, Faults.none]
      rw [if_neg (by simp [hflush])] at h
      simp [Channel.flush?, hwriting] at h
    · rename_i hsome
      split at h
      · simp [Channel.writeFails?, hwriting] at h
      · cases left with
        | nil => exact absurd rfl hsome
        | cons x left =>
          refine .inr (.inr ⟨t, x, left, hwriting, ?_⟩)
          by_contra hroom
          have hmin : min 1 w.out.room ≠ 0 := by omega
          simp [Channel.write?, hwriting, hmin] at h

theorem Station.stalled_read (hfaults : w.faults = .none) (h : w.read? 1 = none) :
    w.channel.reader = .stopped ∨
    (w.channel.reader = .waiting ∧ w.into.shut = false ∧ w.into.held = []) ∨
    ∃ m, w.channel.reader = .holding m ∧ w.channel.capacity ≤ w.channel.inbound.length := by
  unfold Station.read? at h
  split at h
  · exact .inl ‹_›
  · exact absurd (Option.map_eq_none_iff.mp h) (Channel.decode?_ne_none ‹_›)
  · rename_i m hholding
    refine .inr (.inr ⟨m, hholding, ?_⟩)
    by_contra hroom
    exact Channel.forward?_ne_none hholding (Nat.lt_of_not_le hroom) (Option.map_eq_none_iff.mp h)
  · rename_i hwaiting
    have hread : w.faults.read = false := by rw [hfaults, Faults.none]
    rw [if_neg (by simp [hread])] at h
    split at h
    · exact absurd (Option.map_eq_none_iff.mp h) (Channel.read?_ne_none hwaiting _)
    · rename_i hended
      split at h
      · rename_i hnothing
        have hheld : w.into.held = [] := by simpa using hnothing
        refine .inr (.inl ⟨hwaiting, ?_, hheld⟩)
        simpa [Pipe.ended, hheld] using hended
      · exact absurd (Option.map_eq_none_iff.mp h) (Channel.read?_ne_none hwaiting _)

/-- Where nothing can be written, read or received, nothing is on its way. -/
theorem Lane.rests {t : Station} (h : Lane limit w.channel w.out t.channel ms) (hpipe : t.into = w.out)
    (hst : w.faults = .none) (ht : t.faults = .none) (hroom : 0 < w.out.capacity)
    (hcapacity : 0 < t.channel.capacity) (hwrite : w.write? 1 = none) (hread : t.read? 1 = none)
    (hreceive : t.channel.inbound = []) :
    ms = [] ∧ t.channel.taken = [] ∧
      ((w.channel.writer = .stopped ∧ t.channel.reader = .stopped) ∨
        (w.channel.writer = .idle ∧ w.channel.closed = false ∧ w.channel.outbound = [] ∧
          t.channel.reader = .waiting)) := by
  rcases Station.stalled_read ht hread with hstopped | ⟨hwaiting, hshut, hheld⟩ | ⟨m, -, hfull⟩
  · obtain ⟨hwriter, hnil⟩ := h.finished hstopped
    exact ⟨hnil, by simp [Channel.taken, hreceive, hstopped, Reader.held], .inl ⟨hwriter, hstopped⟩⟩
  · rw [hpipe] at hshut hheld
    have htaken : t.channel.taken = [] := by simp [Channel.taken, hreceive, hwaiting, Reader.held]
    rcases Station.stalled_write hst hwrite with hstopped | ⟨hidle, hclosed, hout⟩ | ⟨u, x, left, -, hfull⟩
    · rw [h.shut.mpr hstopped] at hshut
      simp at hshut
    · have hnil := h.drained hwaiting hheld (by rw [hidle]; rfl)
      exact ⟨hnil, htaken, .inr ⟨hidle, hclosed, hout, hwaiting⟩⟩
    · unfold Pipe.room at hfull
      rw [hheld] at hfull
      simp only [List.length_nil] at hfull
      omega
  · rw [hreceive] at hfull
    simp only [List.length_nil] at hfull
    omega

end

/-! ## What moves in one go

A stream with room for a whole frame, and a reader that takes all there is. -/

namespace Station

variable {w : Station} {n : Nat} {m : Message} {frame : Bytes} {t : Ticket}

theorem write?_takes (hidle : w.channel.writer = .idle) (hopen : w.channel.closed = false)
    (hout : w.channel.outbound = [⟨t, m⟩]) (hblocked : w.channel.blocked = [])
    (hframe : encode w.channel.limit m = .ok frame) : w.write? n = some { w with channel :=
      { w.channel with outbound := [], writer := .writing t frame } } := by
  simp [write?, Channel.stopWriting?, Channel.next?, hidle, hopen, hout, hblocked, hframe, tidy, Channel.isDone]

theorem write?_writes (hfaults : w.faults = .none) (habandoned : w.out.abandoned = false)
    (hwriting : w.channel.writer = .writing t frame) (hsome : frame ≠ []) (hn : frame.length ≤ n)
    (hroom : frame.length ≤ w.out.room) : w.write? n = some { w with
      channel := { w.channel with writer := .writing t [] }, out := w.out.put frame } := by
  obtain ⟨b, left, rfl⟩ := List.exists_cons_of_ne_nil hsome
  have hmin : (b :: left).length ≤ min n w.out.room := Nat.le_min.mpr ⟨hn, hroom⟩
  have hpos : min n w.out.room ≠ 0 := by
    rw [List.length_cons] at hmin
    omega
  simp only [write?, hwriting, Channel.write?, if_neg hpos, List.take_of_length_le hmin,
    List.drop_of_length_le hmin]
  simp [hfaults, Faults.none, habandoned]

theorem write?_flushes (hfaults : w.faults = .none) (hwriting : w.channel.writer = .writing t []) :
    w.write? n = some { w with channel := { w.channel with writer := .idle }.settle t (.ok ()) } := by
  simp [write?, hwriting, hfaults, Faults.none, Channel.flush?, Channel.settle, tidy, Channel.isDone]

theorem read?_reads (hfaults : w.faults = .none) (hwaiting : w.channel.reader = .waiting)
    (hsome : w.into.held ≠ []) (hn : w.into.held.length ≤ n) : w.read? n = some { w with
      channel := { w.channel with reader := .decoding, buffer := w.channel.buffer ++ w.into.held }
      into := { w.into with held := [] } } := by
  have hpos : n ≠ 0 := by
    rintro rfl
    exact hsome (List.length_eq_zero_iff.mp (Nat.le_zero.mp hn))
  simp only [read?, hwaiting, Pipe.take, List.take_of_length_le hn, List.drop_of_length_le hn, Channel.read?]
  simp [hfaults, Faults.none, Pipe.ended, hsome, hpos]

theorem read?_decodes (hdecoding : w.channel.reader = .decoding) (hwriter : w.channel.writer ≠ .stopped) {k : Nat}
    (h : decode w.channel.limit w.channel.buffer = .ok (m, k)) : w.read? n = some { w with
      channel := { w.channel with reader := .holding m, buffer := w.channel.buffer.drop k } } := by
  simp [read?, Channel.decode?, hdecoding, h, tidy, hwriter, Channel.isDone]

theorem read?_lacks (hdecoding : w.channel.reader = .decoding) (hwriter : w.channel.writer ≠ .stopped)
    {needed present : Nat} (h : decode w.channel.limit w.channel.buffer = .error (.insufficient needed present)) :
    w.read? n = some { w with channel := { w.channel with reader := .waiting } } := by
  simp [read?, Channel.decode?, hdecoding, h, tidy, hwriter, Channel.isDone]

theorem read?_forwards (hholding : w.channel.reader = .holding m) (hwriter : w.channel.writer ≠ .stopped)
    (hattended : w.channel.attended = true) (hroom : w.channel.inbound.length < w.channel.capacity) :
    w.read? n = some { w with channel :=
      { w.channel with reader := .decoding, inbound := w.channel.inbound ++ [m] } } := by
  simp [read?, Channel.forward?, hholding, hattended, hroom, tidy, hwriter, Channel.isDone]

end Station

end ClusterNet.Messaging
