import ClusterNet.Proofs.Tickets
import ClusterNet.Proofs.Unbroken

/-!
# Lines that nobody cuts

Both directions of a connection whose ends go on, when each message that is handed over has a frame.
Then nothing is lost: what was handed over and not received yet is on its way, in this order, and
when nothing moves any more nothing is on its way.
-/

namespace ClusterNet.Messaging

open Wire

section

variable {limit : Nat} {m : Message} {s s' r r' c : Channel} {p : Pipe} {b : Bytes}
  {popped l : List Message}

theorem expressible_of_fits (h : Fits limit m) : Expressible limit m := by
  obtain ⟨frame, hframe, hlt⟩ := h
  intro other hother
  rw [hframe] at hother
  rwa [← Except.ok.inj hother]

theorem sendable_of_fits (h : Fits limit m) : sendable limit m = true := by
  obtain ⟨frame, hframe, -⟩ := h
  exact sendable_of_encode hframe

/-- The messages that were handed over and not received yet, the first first, as they are read. -/
structure Line (limit : Nat) (s : Channel) (p : Pipe) (r : Channel) (l : List Message) : Prop where
  fits : ∀ m ∈ s.queue, Fits limit m
  flow : ∃ sent gone ms, Ledger limit sent s gone ∧ Lane limit s p r ms ∧
    l = onward r ms ++ s.queue.map canonical

theorem line_start (limit capacity room : Nat) :
    Line limit (.start limit capacity) (.ofCapacity room) (.start limit capacity) [] where
  fits := by simp [Channel.queue, Channel.start]
  flow := ⟨[], [], [], Ledger.start limit capacity, lane_start limit capacity capacity room, rfl⟩

/-! ## What the ends do with their channels -/

theorem queue_submit (m : Message) (hopen : s.closed = false) : (s.submit m).2.queue = s.queue ++ [m] := by
  unfold Channel.submit
  dsimp only
  rw [hopen, if_neg Bool.false_ne_true]
  split
  · rename_i hroom
    simp only [Bool.and_eq_true, List.isEmpty_iff] at hroom
    simp [Channel.queue, hroom.1]
  · simp [Channel.queue]

theorem Line.submit (h : Line limit s p r l) (hopen : s.closed = false) (hm : Fits limit m) :
    Line limit (s.submit m).2 p r (l ++ [canonical m]) := by
  obtain ⟨sent, gone, ms, hledger, hlane, rfl⟩ := h.flow
  have hqueue := queue_submit m hopen
  have hlane' : Lane limit (s.submit m).2 p r ms := by
    obtain ⟨outbound, blocked, settled, he⟩ := Channel.submit_eq s m
    rw [he]
    exact hlane.sender_eq rfl rfl
  refine ⟨?_, sent ++ [m], gone, ms, hledger.submit m, hlane', ?_⟩
  · rw [hqueue]
    intro a ha
    rcases List.mem_append.mp ha with ha | ha
    · exact h.fits a ha
    · rwa [List.mem_singleton.mp ha]
  · rw [hqueue, List.map_append, List.append_assoc]
    rfl

theorem Line.receiver_eq (h : Line limit s p r l) (hr : r.SameReader r') : Line limit s p r' l := by
  obtain ⟨sent, gone, ms, hledger, hlane, rfl⟩ := h.flow
  refine ⟨h.fits, sent, gone, ms, hledger, hlane.receiver_eq hr, ?_⟩
  rw [onward, onward, Channel.taken, Channel.taken, hr.inbound, hr.reader]

theorem Line.receive? (h : Line limit s p r l) (hr : r.receive? = some (m, r')) :
    ∃ rest, l = m :: rest ∧ Line limit s p r' rest := by
  obtain ⟨sent, gone, ms, hledger, hlane, rfl⟩ := h.flow
  obtain ⟨hlane', honward⟩ := hlane.receive? hr
  refine ⟨onward r' ms ++ s.queue.map canonical, ?_, h.fits, sent, gone, ms, hledger, hlane', rfl⟩
  rw [honward]
  rfl

theorem Line.sender_receive? (h : Line limit s p r l) (hs : s.receive? = some (m, s')) :
    Line limit s' p r l := by
  obtain ⟨sent, gone, ms, hledger, hlane, rfl⟩ := h.flow
  have hledger' := hledger.receive? hs
  obtain ⟨rest, -, rfl⟩ := Channel.receive?_eq_some hs
  exact ⟨h.fits, sent, gone, ms, hledger', hlane.sender_eq rfl rfl, rfl⟩

/-! ## What the channels do by themselves -/

/-- A writer that goes on takes from the queue only what it writes or refuses. -/
theorem Wrote.queue_eq (h : Wrote s s' b popped) (hopen : s.Open) : s.queue = popped ++ s'.queue := by
  have hmoved : ∀ {d : Channel} {q : Parcel} {rest : List Parcel}, s.outbound = q :: rest →
      d.outbound = rest ++ s.blocked.take 1 → d.blocked = s.blocked.drop 1 →
        s.queue = [q.message] ++ d.queue := by
    intro d q rest first hout hblocked
    rw [Channel.queue, first, Channel.queue, hout, hblocked, List.append_assoc, List.take_append_drop]
    rfl
  cases h with
  | ends idle why =>
    rcases why with hclosed | hheld
    · rw [hopen.closed] at hclosed
      cases hclosed
    · rw [hopen.held] at hheld
      cases hheld
  | takes idle running first => exact hmoved first rfl rfl
  | refuses idle running first => exact hmoved first rfl rfl
  | puts | flushes => rfl

theorem Wrote.nextTicket_eq (h : Wrote s s' b popped) : s'.nextTicket = s.nextTicket := by
  cases h with
  | ends =>
    obtain ⟨settled, he⟩ := endWriting_eq s
    rw [he]
  | _ => rfl

end

section

variable {limit n : Nat} {w w' t : Station} {c : Channel} {lo li : List Message}

/-- What every step of a channel leaves as it is. -/
structure Station.Keeps (w w' : Station) : Prop where
  nextTicket : w'.channel.nextTicket = w.channel.nextTicket
  capacity : w'.channel.capacity = w.channel.capacity
  out : w'.out.capacity = w.out.capacity
  into : w'.into.capacity = w.into.capacity

theorem Line.write? (hout : Line limit w.channel w.out c lo) (hin : Line limit c w.into w.channel li)
    (hopen : w.Open) (hfaults : w.faults = .none) (hst : w.write? n = some w') :
    Line limit w'.channel w'.out c lo ∧ Line limit c w'.into w'.channel li ∧ w.Keeps w' := by
  obtain ⟨sent, gone, ms, hledger, hlane, rfl⟩ := hout.flow
  obtain ⟨sent', gone', ms', hledger', hlane', rfl⟩ := hin.flow
  obtain ⟨b, popped, hw, hmoved⟩ := hlane.write? hfaults hst
  have hqueue := hw.queue_eq hopen.channel
  have hall : popped.filter (sendable limit) = popped :=
    List.filter_eq_self.mpr fun m hm => sendable_of_fits (hout.fits m (hw.mem_queue m hm))
  have hlane'' := hlane.out_of_write hw hmoved fun m hm => expressible_of_fits (hout.fits m hm)
  rw [hall] at hlane''
  have hsame := hw.sameReader
  refine ⟨⟨?_, sent, gone ++ popped, ms ++ popped, hledger.wrote hw, hlane'', ?_⟩,
    ⟨hin.fits, sent', gone', ms', hledger', hlane'.into_of_write hw hmoved, ?_⟩,
    hw.nextTicket_eq, hw.capacity_eq, hmoved.outCapacity, hmoved.intoCapacity⟩
  · intro m hm
    apply hout.fits
    rw [hqueue]
    exact List.mem_append_right popped hm
  · rw [hqueue, onward, onward]
    simp only [List.map_append, List.append_assoc]
  · rw [onward, onward, Channel.taken, Channel.taken, hsame.inbound, hsame.reader]

theorem Line.read? (hout : Line limit w.channel w.out c lo) (hin : Line limit c w.into w.channel li)
    (hopen : w.Open) (hfaults : w.faults = .none) (hst : w.read? n = some w') :
    Line limit w'.channel w'.out c lo ∧ Line limit c w'.into w'.channel li ∧ w.Keeps w' := by
  obtain ⟨sent, gone, ms, hledger, hlane, rfl⟩ := hout.flow
  obtain ⟨sent', gone', ms', hledger', hlane', rfl⟩ := hin.flow
  obtain ⟨b, hr, hmoved⟩ := Station.read_read? hfaults hst
  obtain ⟨ms'', hlane'', honward⟩ := hlane'.into_of_read hr hmoved hopen.channel.attended
  have hsame := hr.sameSender
  have hqueue : w'.channel.queue = w.channel.queue := by
    rw [Channel.queue, hsame.outbound, hsame.blocked, Channel.queue]
  refine ⟨⟨?_, sent, gone, ms, hledger.sameSender hsame, hlane.out_of_read hsame hmoved, ?_⟩,
    ⟨hin.fits, sent', gone', ms'', hledger', hlane'', ?_⟩,
    hsame.nextTicket, hsame.capacity, hmoved.outCapacity, hmoved.intoCapacity⟩
  · rw [hqueue]
    exact hout.fits
  · rw [hqueue]
  · rw [honward]

/-- Where the sender cannot write, the receiver cannot read and nobody can take a message, nothing is
on its way, and whoever has sent something knows what became of it. -/
theorem Line.rests (h : Line limit w.channel w.out t.channel lo) (hpipe : t.into = w.out)
    (hopen : w.Open) (hst : w.faults = .none) (ht : t.faults = .none) (hroom : 0 < w.out.capacity)
    (hsender : 0 < w.channel.capacity) (hreceiver : 0 < t.channel.capacity) (hwrite : w.write? 1 = none)
    (hread : t.read? 1 = none) (hreceive : t.channel.inbound = []) :
    lo = [] ∧ ∀ u < w.channel.nextTicket, (w.channel.outcome? u).isSome = true := by
  obtain ⟨sent, gone, ms, hledger, hlane, rfl⟩ := h.flow
  obtain ⟨rfl, htaken, hstate⟩ := hlane.rests hpipe hst ht hroom hreceiver hwrite hread hreceive
  obtain ⟨hidle, hclosed, hout, -⟩ := hstate.resolve_left fun hstopped => hopen.channel.writer hstopped.1
  have hqueue : w.channel.queue = [] := by
    rw [Channel.queue, hout, hledger.ready hsender hout]
    rfl
  obtain ⟨lost, hsplit, hlost⟩ := hledger.split
  rw [hqueue, hlost hclosed, List.append_nil, List.append_nil] at hsplit
  refine ⟨?_, fun u hu => ?_⟩
  · rw [onward, htaken, hqueue]
    rfl
  · rw [hledger.next, hsplit] at hu
    refine (hledger.told u hu).resolve_right ?_
    rintro ⟨left, hwriting⟩
    rw [hidle] at hwriting
    cases hwriting

end

/-! ## What is left to do -/

/-- What a message costs from the queue to the other end: each of its bytes is put, taken and read,
and it is taken from the queue and flushed. -/
def postage (limit : Nat) (m : Message) : Nat := 5 * (frameOf limit m).length + 2

def Writer.steps : Writer → Nat
  | .writing _ left => 5 * left.length + 1
  | _ => 0

def Reader.steps : Reader → Nat
  | .decoding => 1
  | .holding _ => 2
  | _ => 0

/-- What the writer of a channel still has to do, and what comes of it. -/
def Channel.writing (s : Channel) : Nat := (s.queue.map (postage s.limit)).sum + s.writer.steps

def Channel.reading (r : Channel) : Nat := 2 * r.buffer.length + r.reader.steps

/-- What the channels at both ends of a pipe still have to do for the messages that are on their way. -/
def haul (s : Channel) (p : Pipe) (r : Channel) : Nat := s.writing + 4 * p.held.length + r.reading

section

variable {limit n : Nat} {w w' : Station} {s s' r r' c : Channel} {m : Message} {b : Bytes} {popped : List Message}

theorem writing_submit (m : Message) (hopen : s.closed = false) :
    (s.submit m).2.writing = s.writing + postage s.limit m := by
  have hqueue := queue_submit m hopen
  obtain ⟨outbound, blocked, settled, he⟩ := Channel.submit_eq s m
  rw [he] at hqueue ⊢
  rw [Channel.writing, hqueue, Channel.writing]
  simp only [List.map_append, List.sum_append, List.map_cons, List.map_nil, List.sum_cons, List.sum_nil]
  omega

theorem Wrote.lighter (h : Wrote s s' b popped) (hopen : s.Open) : s'.writing + 4 * b.length < s.writing := by
  have hqueue := h.queue_eq hopen
  have hlimit := h.limit_eq
  rw [Channel.writing, Channel.writing, hqueue, hlimit]
  cases h with
  | ends idle why =>
    rcases why with hclosed | hheld
    · rw [hopen.closed] at hclosed
      cases hclosed
    · rw [hopen.held] at hheld
      cases hheld
  | takes idle running first encoded =>
    have hframe := frameOf_eq encoded
    simp [Writer.steps, postage, idle, hframe]
    omega
  | refuses idle running first refused =>
    simp [Writer.steps, postage, idle, Channel.settle]
  | puts writing some =>
    have hlength := List.length_pos_iff.mpr some
    simp [Writer.steps, writing]
    omega
  | flushes writing => simp [Writer.steps, writing, Channel.settle]

theorem Read.lighter (h : Read r false r' b) : r'.reading < r.reading + 4 * b.length := by
  rw [Channel.reading, Channel.reading]
  cases h with
  | takes waiting some =>
    have hlength := List.length_pos_iff.mpr some
    simp [Reader.steps, waiting]
    omega
  | ends _ last => cases last
  | decodes decoding decoded =>
    obtain ⟨hn, hle, -⟩ := (encodeOnto_decode r.limit).1 decoded
    simp [Reader.steps, decoding]
    omega
  | parks decoding => simp [Reader.steps, decoding]
  | breaks decoding => simp [Reader.steps, decoding, Channel.endReading]
  | passes holding => simp [Reader.steps, holding]
  | leaves holding => simp [Reader.steps, holding, Channel.endReading]

theorem reading_eq (h : r.SameReader r') : r'.reading = r.reading := by
  rw [Channel.reading, h.buffer, h.reader, Channel.reading]

theorem writing_eq (h : s.SameSender s') : s'.writing = s.writing := by
  rw [Channel.writing, Channel.queue, h.outbound, h.blocked, h.writer, h.limit, Channel.writing, Channel.queue]

theorem Station.lighter_write? (hopen : w.Open) (hfaults : w.faults = .none) (hst : w.write? n = some w')
    (c : Channel) : haul w'.channel w'.out c + haul c w'.into w'.channel <
      haul w.channel w.out c + haul c w.into w.channel := by
  obtain ⟨b, popped, hw, hmoved⟩ := Station.wrote_write? hfaults hopen.out.2 hst
  have hwriting := hw.lighter hopen.channel
  have hreading := reading_eq hw.sameReader
  have hout := congrArg List.length hmoved.out
  have hinto := congrArg List.length hmoved.into
  rw [List.length_append] at hout hinto
  rw [List.length_nil] at hinto
  unfold haul
  omega

theorem Station.lighter_read? (hopen : w.Open) (hfaults : w.faults = .none) (hst : w.read? n = some w')
    (c : Channel) : haul w'.channel w'.out c + haul c w'.into w'.channel <
      haul w.channel w.out c + haul c w.into w.channel := by
  obtain ⟨b, hr, hmoved⟩ := Station.read_read? hfaults hst
  have hgoing : w.into.ended = false := by
    rw [Pipe.ended, hopen.into.1, Bool.false_and]
  rw [hgoing] at hr
  have hreading := hr.lighter
  have hwriting := writing_eq hr.sameSender
  have hout := congrArg List.length hmoved.out
  have hinto := congrArg List.length hmoved.into
  rw [List.length_append] at hout hinto
  rw [List.length_nil] at hout
  unfold haul
  omega

end

end ClusterNet.Messaging
