import ClusterNet.Messaging.Channel.Stream
import ClusterNet.Proofs.ChannelMoves
import ClusterNet.Proofs.Frame

/-!
# Messages on their way

One direction of a connection: a channel that sends, a pipe, and a channel that receives. What
is on its way is a list of messages, from the one that is received next to the one that was
handed over last. A step of either end may lose some of them, but it adds none, changes none and
keeps their order.
-/

namespace ClusterNet.Messaging

open Wire

/-- What the writer has still to write of a frame. -/
def Writer.left : Writer → Bytes
  | .writing _ left => left
  | _ => []

/-- What the reader holds in its hand. -/
def Reader.held : Reader → List Message
  | .holding m => [m]
  | _ => []

namespace Channel

/-- What waits to be written, the first first. -/
def queue (c : Channel) : List Message := (c.outbound ++ c.blocked).map (·.message)

/-- What has come in. -/
def taken (c : Channel) : List Message := c.inbound ++ c.reader.held

end Channel

/-- What the reader of a channel has to do with. -/
structure Channel.SameReader (c d : Channel) : Prop where
  limit : d.limit = c.limit
  reader : d.reader = c.reader
  buffer : d.buffer = c.buffer
  inbound : d.inbound = c.inbound

/-- What the writer of a channel has to do with. -/
structure Channel.SameWriter (c d : Channel) : Prop where
  limit : d.limit = c.limit
  queue : d.queue = c.queue
  left : d.writer.left = c.writer.left

/-- Between the two channels are the frames of some messages: a part is read and not decoded, a
part is in the pipe, and a part is not written yet. Nothing is said of what comes to a reader that
has stopped. -/
structure Transit (s : Channel) (p : Pipe) (r : Channel) (ms : List Message) : Prop where
  limit : s.limit = r.limit
  fits : ∀ m ∈ ms ++ s.queue, Fits r.limit m
  bytes : r.reader = .stopped ∨ r.buffer ++ p.held ++ s.writer.left = ms.flatMap (frameOf r.limit)
  abandoned : p.abandoned = true → r.reader = .stopped

/-- The messages on their way, the first first, as they are read. -/
def Carries (s : Channel) (p : Pipe) (r : Channel) (l : List Message) : Prop :=
  ∃ ms, Transit s p r ms ∧ l = r.taken ++ (ms ++ s.queue).map canonical

section

variable {s s' r r' : Channel} {p p' : Pipe} {l : List Message}

theorem carries_start (limit capacity room : Nat) :
    Carries (.start limit capacity) (.ofCapacity room) (.start limit capacity) [] :=
  ⟨[], ⟨rfl, by simp [Channel.queue, Channel.start], .inr rfl, by simp [Pipe.ofCapacity]⟩, rfl⟩

theorem Carries.congr (h : Carries s p r l) (hs : s.SameWriter s') (hr : r.SameReader r')
    (hheld : p'.held = p.held)
    (habandoned : p'.abandoned = true → p.abandoned = true ∨ r.reader = .stopped) :
    Carries s' p' r' l := by
  obtain ⟨ms, ⟨hlimit, hfits, hbytes, hab⟩, rfl⟩ := h
  refine ⟨ms, ⟨?_, ?_, ?_, ?_⟩, ?_⟩
  · rw [hs.limit, hr.limit, hlimit]
  · rw [hs.queue, hr.limit]
    exact hfits
  · rw [hr.reader, hr.buffer, hheld, hs.left, hr.limit]
    exact hbytes
  · intro h
    rw [hr.reader]
    exact (habandoned h).elim hab id
  · rw [hs.queue, Channel.taken, Channel.taken, hr.reader, hr.inbound]

theorem Carries.sender (h : Carries s p r l) (hs : s.SameWriter s') : Carries s' p r l :=
  h.congr hs ⟨rfl, rfl, rfl, rfl⟩ rfl .inl

theorem Carries.receiver (h : Carries s p r l) (hr : r.SameReader r') : Carries s p r' l :=
  h.congr ⟨rfl, rfl, rfl⟩ hr rfl .inl

/-! ## The sender -/

theorem Carries.submit (h : Carries s p r l) {m : Message} (hm : Fits r.limit m) :
    ∃ l', (l' = l ∨ l' = l ++ [canonical m]) ∧ Carries (s.submit m).2 p r l' := by
  unfold Channel.submit
  split
  · exact ⟨l, .inl rfl, h.sender ⟨rfl, rfl, rfl⟩⟩
  · refine ⟨l ++ [canonical m], .inr rfl, ?_⟩
    obtain ⟨ms, ⟨hlimit, hfits, hbytes, hab⟩, rfl⟩ := h
    have hstep : ∀ {s' : Channel}, s'.limit = s.limit → s'.queue = s.queue ++ [m] →
        s'.writer = s.writer → Carries s' p r (r.taken ++ (ms ++ s.queue).map canonical ++ [canonical m]) := by
      intro s' hl hq hw
      refine ⟨ms, ⟨hl.trans hlimit, ?_, by rwa [hw], hab⟩, by simp [hq]⟩
      rw [hq, ← List.append_assoc]
      intro a ha
      rcases List.mem_append.mp ha with ha | ha
      · exact hfits a ha
      · rwa [List.mem_singleton.mp ha]
    split
    · rename_i hroom
      have hblocked : s.blocked = [] := by
        simp only [Bool.and_eq_true, List.isEmpty_iff] at hroom
        exact hroom.1
      exact hstep rfl (by simp [Channel.queue, hblocked]) rfl
    · exact hstep rfl (by simp [Channel.queue]) rfl

theorem Carries.drop (h : Carries s p r l) (hlimit : s'.limit = s.limit)
    (hqueue : s'.queue.Sublist s.queue)
    (hleft : s'.writer.left = s.writer.left ∨ r.reader = .stopped) :
    ∃ l', l'.Sublist l ∧ Carries s' p r l' := by
  obtain ⟨ms, ⟨hl, hfits, hbytes, hab⟩, rfl⟩ := h
  have hsub : (ms ++ s'.queue).Sublist (ms ++ s.queue) := (List.Sublist.refl ms).append hqueue
  refine ⟨r.taken ++ (ms ++ s'.queue).map canonical, (List.Sublist.refl _).append (hsub.map canonical),
    ms, ⟨hlimit.trans hl, fun m hm => hfits m (hsub.subset hm), ?_, hab⟩, rfl⟩
  rcases hleft with hleft | hstopped
  · rwa [hleft]
  · exact .inl hstopped

theorem queue_withdraw (c : Channel) (t : Ticket) : (c.withdraw t).queue.Sublist c.queue :=
  ((List.Sublist.refl c.outbound).append List.filter_sublist).map _

theorem Carries.withdraw (h : Carries s p r l) (t : Ticket) :
    ∃ l', l'.Sublist l ∧ Carries (s.withdraw t) p r l' :=
  h.drop rfl (queue_withdraw s t) (.inl rfl)

theorem endWriting_eq (c : Channel) : ∃ settled, c.endWriting =
    { c with outbound := [], blocked := [], writer := .stopped, closed := true, settled } := by
  unfold Channel.endWriting
  generalize c.outbound ++ c.blocked = ps
  have hfold : ∀ (ps : List Parcel) (d : Channel), ∃ settled,
      ps.foldl (fun c p => c.settle p.ticket (.error .connectionClosed)) d = { d with settled } := by
    intro ps
    induction ps with
    | nil => exact fun d => ⟨d.settled, rfl⟩
    | cons q ps ih => exact fun d => ih (d.settle q.ticket (.error .connectionClosed))
  exact hfold ps _

theorem queue_endWriting (c : Channel) : c.endWriting.queue = [] := by
  obtain ⟨settled, h⟩ := endWriting_eq c
  rw [h]
  rfl

theorem Carries.endWriting (h : Carries s p r l) (hleft : s.writer.left = [] ∨ r.reader = .stopped) :
    ∃ l', l'.Sublist l ∧ Carries s.endWriting p r l' := by
  obtain ⟨settled, he⟩ := endWriting_eq s
  refine h.drop (by rw [he]) (by simp [queue_endWriting]) ?_
  rw [he]
  exact hleft.imp Eq.symm id

theorem Carries.stopWriting? (h : Carries s p r l) (hs : s.stopWriting? = some s') :
    ∃ l', l'.Sublist l ∧ Carries s' p r l' := by
  unfold Channel.stopWriting? at hs
  split at hs
  · rename_i hidle
    obtain rfl := Option.some.inj hs
    exact h.endWriting (.inl (by rw [hidle.1]; rfl))
  · simp at hs

/-- A frame that is cut short is no harm if nobody reads it. -/
theorem Carries.writeFails? (h : Carries s p r l) (hstopped : r.reader = .stopped)
    (hs : s.writeFails? = some s') : ∃ l', l'.Sublist l ∧ Carries s' p r l' := by
  unfold Channel.writeFails? at hs
  split at hs
  · obtain rfl := Option.some.inj hs
    obtain ⟨l', hl', hc⟩ := h.endWriting (.inr hstopped)
    exact ⟨l', hl', hc.sender ⟨rfl, rfl, rfl⟩⟩
  · simp at hs

theorem Carries.next? (h : Carries s p r l) (hs : s.next? = some s') : Carries s' p r l := by
  obtain ⟨ms, ⟨hlimit, hfits, hbytes, hab⟩, rfl⟩ := h
  unfold Channel.next? at hs
  split at hs
  · rename_i q rest hwriter hclosed hout
    have hqueue : s.queue = q.message :: (rest ++ s.blocked).map (·.message) := by
      rw [Channel.queue, hout]
      rfl
    have hmoved : rest ++ s.blocked.take 1 ++ s.blocked.drop 1 = rest ++ s.blocked := by
      rw [List.append_assoc, List.take_append_drop]
    obtain ⟨frame, hframe, hlt⟩ := hfits q.message (by simp [hqueue])
    simp only [hlimit, hframe] at hs
    obtain rfl := Option.some.inj hs
    refine ⟨ms ++ [q.message], ⟨rfl, ?_, ?_, hab⟩, ?_⟩
    · intro m hm
      rw [Channel.queue, hmoved, List.append_assoc, List.singleton_append, ← hqueue] at hm
      exact hfits m hm
    · refine hbytes.imp id fun hb => ?_
      rw [hwriter] at hb
      simp only [Writer.left, List.append_nil] at hb ⊢
      simp [hb, frameOf_eq hframe]
    · rw [hqueue]
      simp only [Channel.queue, hmoved, List.append_assoc, List.singleton_append]
  · simp at hs

theorem Carries.write? (h : Carries s p r l) {n : Nat} {b : Bytes} (hs : s.write? n = some (b, s')) :
    Carries s' (p.put b) r l := by
  obtain ⟨ms, ⟨hlimit, hfits, hbytes, hab⟩, rfl⟩ := h
  unfold Channel.write? at hs
  split at hs
  · rename_i t x left hwriter
    split at hs
    · simp at hs
    · obtain ⟨rfl, rfl⟩ := Prod.mk.inj (Option.some.inj hs)
      refine ⟨ms, ⟨hlimit, hfits, hbytes.imp id fun hb => ?_, hab⟩, rfl⟩
      rw [hwriter] at hb
      simp only [Writer.left] at hb ⊢
      rw [Pipe.put, ← hb, ← List.append_assoc, List.append_assoc (r.buffer ++ p.held), List.take_append_drop]
  · simp at hs

theorem Carries.flush? (h : Carries s p r l) (hs : s.flush? = some s') : Carries s' p r l := by
  unfold Channel.flush? at hs
  split at hs
  · rename_i t hwriter
    obtain rfl := Option.some.inj hs
    exact h.sender ⟨rfl, rfl, by rw [hwriter]; rfl⟩
  · simp at hs

/-! ## The receiver -/

theorem Carries.endReading (h : Carries s p r l) :
    ∃ l', l'.Sublist l ∧ Carries s p r.endReading l' := by
  obtain ⟨ms, ⟨hlimit, hfits, hbytes, hab⟩, rfl⟩ := h
  refine ⟨r.inbound ++ s.queue.map canonical, ?_, [], ⟨hlimit, ?_, .inl rfl, fun _ => rfl⟩, ?_⟩
  · refine ((List.sublist_append_left _ _).append ?_)
    exact (List.sublist_append_right ms s.queue).map canonical
  · exact fun m hm => hfits m (List.mem_append_right ms hm)
  · simp [Channel.taken, Channel.endReading, Reader.held]

/-- What is decoded is the first message of those on their way. A reader that stops loses what is behind. -/
theorem Carries.read (h : Carries s p r l) {done : Bool} {b : Bytes} (hr : Read r done r' b)
    (hheld : p.held = b ++ p'.held) (habandoned : p'.abandoned = p.abandoned) :
    ∃ l', l'.Sublist l ∧ Carries s p' r' l' := by
  have hkept : b = [] → Carries s p' r l := fun hb =>
    h.congr ⟨rfl, rfl, rfl⟩ ⟨rfl, rfl, rfl, rfl⟩ (by rw [hheld, hb]; rfl) fun ha => .inl (habandoned ▸ ha)
  obtain ⟨ms, ⟨hlimit, hfits, hbytes, hab⟩, rfl⟩ := h
  -- A reader that goes on has lost nothing, and somebody reads from the pipe.
  have hb : r.buffer ++ b ++ p'.held ++ s.writer.left = ms.flatMap (frameOf r.limit) := by
    rcases hbytes with hstopped | hb
    · exact absurd hstopped hr.going
    · rwa [hheld, ← List.append_assoc] at hb
  have hopen : p'.abandoned = true → r'.reader = .stopped := fun ha => absurd (hab (habandoned ▸ ha)) hr.going
  cases hr with
  | takes waiting some =>
    exact ⟨_, .refl _, ms, ⟨hlimit, hfits, .inr hb, hopen⟩, by simp [Channel.taken, Reader.held, waiting]⟩
  | ends | breaks | leaves => exact (hkept rfl).endReading
  | decodes decoding decoded =>
    rw [List.append_nil, List.append_assoc] at hb
    rcases decode_stream (fun m hm => hfits m (List.mem_append_left _ hm)) hb with
      ⟨m, rest, n, rfl, hd, hrest⟩ | ⟨need, have_, hd⟩
    · obtain ⟨rfl, rfl⟩ := Prod.mk.inj (Except.ok.inj (decoded.symm.trans hd))
      refine ⟨_, .refl _, rest, ⟨hlimit, fun a ha => hfits a (List.mem_cons_of_mem _ ha), .inr ?_, hopen⟩, ?_⟩
      · rw [List.append_assoc, hrest]
      · simp [Channel.taken, Reader.held, decoding]
    · cases decoded.symm.trans hd
  | parks decoding =>
    rw [List.append_nil] at hb
    exact ⟨_, .refl _, ms, ⟨hlimit, hfits, .inr hb, hopen⟩, by simp [Channel.taken, Reader.held, decoding]⟩
  | passes holding =>
    rw [List.append_nil] at hb
    exact ⟨_, .refl _, ms, ⟨hlimit, hfits, .inr hb, hopen⟩, by simp [Channel.taken, Reader.held, holding]⟩

theorem Carries.receive? (h : Carries s p r l) {m : Message} (hr : r.receive? = some (m, r')) :
    ∃ l', l = m :: l' ∧ Carries s p r' l' := by
  obtain ⟨rest, hin, rfl⟩ := Channel.receive?_eq_some hr
  obtain ⟨ms, ⟨hlimit, hfits, hbytes, hab⟩, rfl⟩ := h
  refine ⟨rest ++ r.reader.held ++ (ms ++ s.queue).map canonical, ?_, ms,
    ⟨hlimit, hfits, hbytes, hab⟩, rfl⟩
  simp [Channel.taken, hin]

theorem Carries.neglect (h : Carries s p r l) : ∃ l', l'.Sublist l ∧ Carries s p r.neglect l' := by
  obtain ⟨ms, ⟨hlimit, hfits, hbytes, hab⟩, rfl⟩ := h
  refine ⟨r.reader.held ++ (ms ++ s.queue).map canonical, ?_, ms, ⟨hlimit, hfits, hbytes, hab⟩, rfl⟩
  exact (List.sublist_append_right r.inbound r.reader.held).append (.refl _)

end

/-! ## What each side leaves alone -/

section

variable {c d : Channel}

theorem sameReader_endWriting (c : Channel) : c.SameReader c.endWriting := by
  obtain ⟨settled, h⟩ := endWriting_eq c
  rw [h]
  exact ⟨rfl, rfl, rfl, rfl⟩

theorem sameReader_stopWriting? (h : c.stopWriting? = some d) : c.SameReader d := by
  unfold Channel.stopWriting? at h
  split at h
  · obtain rfl := Option.some.inj h
    exact sameReader_endWriting c
  · simp at h

theorem sameReader_next? (h : c.next? = some d) : c.SameReader d := by
  unfold Channel.next? at h
  split at h
  · simp only at h
    split at h <;> obtain rfl := Option.some.inj h <;> exact ⟨rfl, rfl, rfl, rfl⟩
  · simp at h

theorem sameReader_write? {n : Nat} {b : Bytes} (h : c.write? n = some (b, d)) : c.SameReader d := by
  unfold Channel.write? at h
  split at h
  · split at h
    · simp at h
    · obtain ⟨rfl, rfl⟩ := Prod.mk.inj (Option.some.inj h)
      exact ⟨rfl, rfl, rfl, rfl⟩
  · simp at h

theorem sameReader_flush? (h : c.flush? = some d) : c.SameReader d := by
  unfold Channel.flush? at h
  split at h
  · obtain rfl := Option.some.inj h
    exact ⟨rfl, rfl, rfl, rfl⟩
  · simp at h

theorem sameReader_writeFails? (h : c.writeFails? = some d) : c.SameReader d := by
  unfold Channel.writeFails? at h
  split at h
  · obtain rfl := Option.some.inj h
    obtain ⟨hlimit, hreader, hbuffer, hinbound⟩ := sameReader_endWriting c
    exact ⟨hlimit, hreader, hbuffer, hinbound⟩
  · simp at h

theorem sameReader_submit (c : Channel) (m : Message) : c.SameReader (c.submit m).2 := by
  unfold Channel.submit
  split
  · exact ⟨rfl, rfl, rfl, rfl⟩
  · split <;> exact ⟨rfl, rfl, rfl, rfl⟩

theorem Read.sameWriter {done : Bool} {b : Bytes} (h : Read c done d b) : c.SameWriter d where
  limit := h.sameSender.limit
  queue := by rw [Channel.queue, Channel.queue, h.sameSender.outbound, h.sameSender.blocked]
  left := by rw [h.sameSender.writer]

theorem Read.inbound_eq {done : Bool} {b : Bytes} (h : Read c done d b) :
    ∃ more, d.inbound = c.inbound ++ more := by
  cases h with
  | takes | ends | decodes | parks | breaks | leaves => exact ⟨[], (List.append_nil _).symm⟩
  | passes => exact ⟨[_], rfl⟩

theorem sameWriter_receive? {m : Message} (h : c.receive? = some (m, d)) : c.SameWriter d := by
  obtain ⟨rest, -, rfl⟩ := Channel.receive?_eq_some h
  exact ⟨rfl, rfl, rfl⟩

end

/-! ## An end with both pipes -/

namespace Station

variable {st st' : Station} {c : Channel} {n : Nat}

/-- A step of an end: of what it sends and of what it receives some may be lost. -/
structure Step (st st' : Station) : Prop where
  limit : st'.channel.limit = st.channel.limit
  sends : ∀ {r l}, Carries st.channel st.out r l → ∃ l', l'.Sublist l ∧ Carries st'.channel st'.out r l'
  takes : ∀ {s l}, Carries s st.into st.channel l → ∃ l', l'.Sublist l ∧ Carries s st'.into st'.channel l'
  inbound : ∃ more, st'.channel.inbound = st.channel.inbound ++ more
  accounts : st.channel.Accounts st'.channel
  ended : st.channel.ended = true → st'.channel.ended = true

theorem ended_of_sameReader {d : Channel} (h : c.SameReader d) (hc : c.ended = true) :
    d.ended = true := by
  rwa [Channel.ended, h.reader, h.inbound]

theorem not_ended (h : c.reader ≠ .stopped) : c.ended ≠ true := by
  simp [Channel.ended, h]

@[simp] theorem channel_tidy (st : Station) : st.tidy.channel = st.channel := rfl

theorem carries_tidy_out (st : Station) {r : Channel} {l : List Message} (h : Carries st.channel st.out r l) :
    Carries st.channel st.tidy.out r l := by
  unfold tidy
  simp only
  split
  · exact h.congr ⟨rfl, rfl, rfl⟩ ⟨rfl, rfl, rfl, rfl⟩ rfl .inl
  · exact h

theorem carries_tidy_into (st : Station) {s : Channel} {l : List Message} (h : Carries s st.into st.channel l) :
    Carries s st.tidy.into st.channel l := by
  unfold tidy
  simp only
  split
  · rename_i hdone
    simp only [Channel.isDone, Bool.and_eq_true, decide_eq_true_eq] at hdone
    exact h.congr ⟨rfl, rfl, rfl⟩ ⟨rfl, rfl, rfl, rfl⟩ rfl fun _ => .inr hdone.2
  · exact h

theorem step_writer (hsends : ∀ {r l}, Carries st.channel st.out r l →
      ∃ l', l'.Sublist l ∧ Carries c st.out r l')
    (hsame : st.channel.SameReader c) (haccounts : st.channel.Accounts c) :
    Step st ({ st with channel := c }.tidy) where
  limit := hsame.limit
  sends h := by
    obtain ⟨l', hl', hc⟩ := hsends h
    exact ⟨l', hl', carries_tidy_out { st with channel := c } hc⟩
  takes h := ⟨_, .refl _, carries_tidy_into { st with channel := c } (h.receiver hsame)⟩
  inbound := ⟨[], by rw [channel_tidy, List.append_nil, hsame.inbound]⟩
  accounts := haccounts
  ended := ended_of_sameReader hsame

theorem step_reader {done : Bool} (hr : Read st.channel done c []) : Step st ({ st with channel := c }.tidy) where
  limit := hr.sameSender.limit
  sends h := ⟨_, .refl _, carries_tidy_out { st with channel := c } (h.sender hr.sameWriter)⟩
  takes h := by
    obtain ⟨l', hl', hc⟩ := h.read hr rfl rfl
    exact ⟨l', hl', carries_tidy_into { st with channel := c } hc⟩
  inbound := hr.inbound_eq
  accounts := Channel.accounts_of_settled hr.sameSender.settled
  ended h := absurd h (not_ended hr.going)

theorem step_write? (hfaults : st.faults = .none) (h : st.write? n = some st') : Step st st' := by
  unfold write? at h
  split at h
  · simp at h
  · rename_i hidle
    obtain ⟨c, hc, rfl⟩ := Option.map_eq_some_iff.mp h
    cases hstop : st.channel.stopWriting? with
    | some d =>
      rw [hstop] at hc
      obtain rfl := Option.some.inj hc
      exact step_writer (fun hs => hs.stopWriting? hstop) (sameReader_stopWriting? hstop)
        (Channel.accounts_stopWriting? hstop)
    | none =>
      rw [hstop] at hc
      exact step_writer (fun hs => ⟨_, .refl _, hs.next? hc⟩) (sameReader_next? hc)
        (Channel.accounts_next? hc)
  · rename_i t left hwriting
    split at h
    · have hflush : st.faults.flush = false := by rw [hfaults, Faults.none]
      rw [if_neg (by simp [hflush])] at h
      obtain ⟨c, hc, rfl⟩ := Option.map_eq_some_iff.mp h
      exact step_writer (fun hs => ⟨_, .refl _, hs.flush? hc⟩) (sameReader_flush? hc)
        (Channel.accounts_flush? hc)
    · split at h
      · rename_i hab
        obtain ⟨c, hc, rfl⟩ := Option.map_eq_some_iff.mp h
        rw [hfaults] at hab
        refine step_writer (fun hs => ?_) (sameReader_writeFails? hc) (Channel.accounts_writeFails? hc)
        obtain ⟨ms, hms, hl⟩ := hs
        exact Carries.writeFails? ⟨ms, hms, hl⟩ (hms.abandoned (by simpa [Faults.none] using hab)) hc
      · obtain ⟨⟨b, c⟩, hc, rfl⟩ := Option.map_eq_some_iff.mp h
        exact {
          limit := (sameReader_write? hc).limit
          sends := fun hs => ⟨_, .refl _, hs.write? hc⟩
          takes := fun hs => ⟨_, .refl _, hs.receiver (sameReader_write? hc)⟩
          inbound := ⟨[], by rw [(sameReader_write? hc).inbound, List.append_nil]⟩
          accounts := Channel.accounts_of_settled (Channel.settled_write? hc)
          ended := ended_of_sameReader (sameReader_write? hc) }

theorem read?_cases (hfaults : st.faults = .none) (h : st.read? n = some st') : ∃ c,
    Read st.channel st.into.ended c [] ∧ st' = ({ st with channel := c } : Station).tidy ∨
    ∃ b rest, b ≠ [] ∧ Read st.channel st.into.ended c b ∧ st.into.held = b ++ rest ∧
      st' = { st with channel := c, into := { st.into with held := rest } } := by
  unfold read? at h
  split at h
  · simp at h
  · obtain ⟨c, hc, rfl⟩ := Option.map_eq_some_iff.mp h
    exact ⟨c, .inl ⟨.of_decode? hc, rfl⟩⟩
  · obtain ⟨c, hc, rfl⟩ := Option.map_eq_some_iff.mp h
    exact ⟨c, .inl ⟨.of_forward? hc, rfl⟩⟩
  · have hread : st.faults.read = false := by rw [hfaults, Faults.none]
    rw [if_neg (by simp [hread])] at h
    split at h
    · rename_i hended
      obtain ⟨c, hc, rfl⟩ := Option.map_eq_some_iff.mp h
      exact ⟨c, .inl ⟨.of_read? hc fun _ => hended, rfl⟩⟩
    · split at h
      · simp at h
      · rename_i hsome
        obtain ⟨c, hc, rfl⟩ := Option.map_eq_some_iff.mp h
        simp only [Bool.or_eq_true, List.isEmpty_iff, decide_eq_true_eq, not_or] at hsome
        have hb : st.into.held.take n ≠ [] := by simp [hsome]
        exact ⟨c, .inr ⟨_, _, hb, .of_read? hc fun hnone => absurd hnone hb, (List.take_append_drop n _).symm, rfl⟩⟩

theorem step_read? (hfaults : st.faults = .none) (h : st.read? n = some st') : Step st st' := by
  obtain ⟨c, ⟨hr, rfl⟩ | ⟨b, rest, -, hr, hheld, rfl⟩⟩ := read?_cases hfaults h
  · exact step_reader hr
  · exact {
      limit := hr.sameSender.limit
      sends := fun hs => ⟨_, .refl _, hs.sender hr.sameWriter⟩
      takes := fun ht => ht.read hr hheld rfl
      inbound := hr.inbound_eq
      accounts := Channel.accounts_of_settled hr.sameSender.settled
      ended := fun hended => absurd hended (not_ended hr.going) }

theorem step_notice? (h : st.notice? = some st') : Step st st' := by
  obtain ⟨c, hc, rfl⟩ := Option.map_eq_some_iff.mp h
  exact step_reader (.of_stopReading? hc)

end Station

end ClusterNet.Messaging
