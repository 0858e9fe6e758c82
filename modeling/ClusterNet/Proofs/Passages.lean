import ClusterNet.Proofs.Lines

/-!
# What comes through

One direction of a connection that goes on. A message that has no frame is refused when its turn
comes, and all others come through in the order in which they left the queue. Of each queue it is
known what has come into it, so that nothing is missed that waits in one.
-/

namespace ClusterNet.Messaging

open Wire

section

variable {limit : Nat} {m : Message} {s s' r r' : Channel} {p : Pipe} {gone taken popped : List Message}
  {w w' t : Station} {n : Nat} {b : Bytes}

/-- Those of some messages that have a frame, as they are read. -/
def encodable (limit : Nat) (ms : List Message) : List Message := (ms.filter (sendable limit)).map canonical

theorem encodable_append (limit : Nat) (ms ns : List Message) :
    encodable limit (ms ++ ns) = encodable limit ms ++ encodable limit ns := by
  rw [encodable, List.filter_append, List.map_append]
  rfl

/-- Of what has left the queue of the sender some messages were taken at the other end, and the others
that have a frame are on their way. -/
def Passage (limit : Nat) (gone : List Message) (s : Channel) (p : Pipe) (r : Channel) (taken : List Message) :
    Prop :=
  ∃ ms, Lane limit s p r ms ∧ encodable limit gone = taken ++ onward r ms

namespace Passage

theorem start (limit cs cr room : Nat) :
    Passage limit [] (.start limit cs) (.ofCapacity room) (.start limit cr) [] :=
  ⟨[], lane_start limit cs cr room, rfl⟩

theorem sender_eq (h : Passage limit gone s p r taken) (hlimit : s'.limit = s.limit)
    (hwriter : s'.writer = s.writer) : Passage limit gone s' p r taken := by
  obtain ⟨ms, hlane, heq⟩ := h
  exact ⟨ms, hlane.sender_eq hlimit hwriter, heq⟩

theorem receiver_eq (h : Passage limit gone s p r taken) (hr : r.SameReader r') :
    Passage limit gone s p r' taken := by
  obtain ⟨ms, hlane, heq⟩ := h
  refine ⟨ms, hlane.receiver_eq hr, ?_⟩
  rw [heq, onward, onward, Channel.taken, Channel.taken, hr.inbound, hr.reader]

theorem receive? (h : Passage limit gone s p r taken) (hr : r.receive? = some (m, r')) :
    Passage limit gone s p r' (taken ++ [m]) := by
  obtain ⟨ms, hlane, heq⟩ := h
  obtain ⟨hlane', honward⟩ := hlane.receive? hr
  exact ⟨ms, hlane', by rw [heq, honward, List.append_assoc, List.singleton_append]⟩

theorem going (h : Passage limit gone s p r taken) (hs : s.writer ≠ .stopped) : r.reader ≠ .stopped := by
  obtain ⟨ms, hlane, -⟩ := h
  exact fun hstopped => hs (hlane.finished hstopped).1

theorem isPrefix (h : Passage limit gone s p r taken) : taken <+: encodable limit gone := by
  obtain ⟨ms, -, heq⟩ := h
  exact ⟨_, heq.symm⟩

theorem mem_of_receive? (h : Passage limit gone s p r taken) (hr : r.receive? = some (m, r')) :
    m ∈ encodable limit gone := by
  have hprefix := (h.receive? hr).isPrefix
  exact hprefix.subset (List.mem_append_right taken List.mem_cons_self)

/-! ## Steps of the ends -/

theorem write? (h : Passage limit gone w.channel w.out r taken) (hfaults : w.faults = .none)
    (hw : w.write? n = some w') :
    ∃ b popped, Wrote w.channel w'.channel b popped ∧ Station.Moved w w' b [] := by
  obtain ⟨ms, hlane, -⟩ := h
  exact hlane.write? hfaults hw

theorem out_of_write (h : Passage limit gone w.channel w.out r taken)
    (hw : Wrote w.channel w'.channel b popped) (hmoved : Station.Moved w w' b [])
    (hexp : ∀ m ∈ popped, Expressible limit m) :
    Passage limit (gone ++ popped) w'.channel w'.out r taken := by
  obtain ⟨ms, hlane, heq⟩ := h
  refine ⟨_, hlane.out_of_popped hw hmoved hexp, ?_⟩
  rw [encodable_append, heq, onward, onward, List.map_append, List.append_assoc, List.append_assoc]
  rfl

theorem into_of_write (h : Passage limit gone s w.into w.channel taken)
    (hw : Wrote w.channel w'.channel b popped) (hmoved : Station.Moved w w' b []) :
    Passage limit gone s w'.into w'.channel taken := by
  obtain ⟨ms, hlane, heq⟩ := h
  have hsame := hw.sameReader
  refine ⟨ms, hlane.into_of_write hw hmoved, ?_⟩
  rw [heq, onward, onward, Channel.taken, Channel.taken, hsame.inbound, hsame.reader]

theorem into_of_read (h : Passage limit gone s w.into w.channel taken)
    (hr : Read w.channel w.into.ended w'.channel b) (hmoved : Station.Moved w w' [] b)
    (hattended : w.channel.attended = true) : Passage limit gone s w'.into w'.channel taken := by
  obtain ⟨ms, hlane, heq⟩ := h
  obtain ⟨ms', hlane', honward⟩ := hlane.into_of_read hr hmoved hattended
  exact ⟨ms', hlane', by rw [heq, honward]⟩

theorem out_of_read (h : Passage limit gone w.channel w.out r taken)
    (hsame : w.channel.SameSender w'.channel) (hmoved : Station.Moved w w' [] b) :
    Passage limit gone w'.channel w'.out r taken := by
  obtain ⟨ms, hlane, heq⟩ := h
  exact ⟨ms, hlane.out_of_read hsame hmoved, heq⟩

/-- When neither end moves and nothing is left to be taken, all has come through. -/
theorem rests (h : Passage limit gone w.channel w.out t.channel taken) (hpipe : t.into = w.out)
    (hst : w.faults = .none) (ht : t.faults = .none) (hroom : 0 < w.out.capacity)
    (hcapacity : 0 < t.channel.capacity) (hgoing : w.channel.writer ≠ .stopped) (hwrite : w.write? 1 = none)
    (hread : t.read? 1 = none) (hreceive : t.channel.inbound = []) :
    taken = encodable limit gone ∧ w.channel.writer = .idle ∧ w.channel.outbound = [] := by
  obtain ⟨ms, hlane, heq⟩ := h
  obtain ⟨rfl, htaken, ⟨hstopped, -⟩ | ⟨hidle, -, hempty, -⟩⟩ :=
    hlane.rests hpipe hst ht hroom hcapacity hwrite hread hreceive
  · exact absurd hstopped hgoing
  · refine ⟨?_, hidle, hempty⟩
    rw [heq, onward, htaken]
    simp

end Passage

/-! ## Ends that go on -/

/-- A channel that nobody has closed and nobody has let go of. -/
structure Channel.Going (c : Channel) : Prop where
  closed : c.closed = false
  held : c.held = true
  attended : c.attended = true
  writer : c.writer ≠ .stopped
  reader : c.reader ≠ .stopped

theorem going_start (limit capacity : Nat) : (Channel.start limit capacity).Going :=
  ⟨rfl, rfl, rfl, by simp [Channel.start], by simp [Channel.start]⟩

theorem Wrote.going_of_going (hw : Wrote s s' b popped) (h : s.Going) : s'.Going := by
  cases hw with
  | ends idle why =>
    rcases why with hclosed | hheld
    · rw [h.closed] at hclosed
      cases hclosed
    · rw [h.held] at hheld
      cases hheld
  | takes | refuses | puts | flushes =>
    exact ⟨h.closed, h.held, h.attended, by simp_all [Channel.settle], h.reader⟩

theorem Channel.Going.sameSender (h : s.Going) (hs : s.SameSender s') (hreader : s'.reader ≠ .stopped) :
    s'.Going := by
  refine ⟨?_, hs.held.trans h.held, hs.attended.trans h.attended, ?_, hreader⟩
  · rcases hs.closed with hsame | ⟨-, hstopped⟩
    · exact hsame.trans h.closed
    · exact absurd hstopped hreader
  · rw [hs.writer]
    exact h.writer

theorem Channel.Going.submit (h : s.Going) (m : Message) : (s.submit m).2.Going := by
  obtain ⟨outbound, blocked, settled, he⟩ := Channel.submit_eq s m
  rw [he]
  exact ⟨h.closed, h.held, h.attended, h.writer, h.reader⟩

theorem Channel.Going.receive? (h : s.Going) (hr : s.receive? = some (m, s')) : s'.Going := by
  obtain ⟨rest, -, rfl⟩ := Channel.receive?_eq_some hr
  exact ⟨h.closed, h.held, h.attended, h.writer, h.reader⟩

theorem Channel.Going.stopReading? (h : s.Going) : s.stopReading? = none := by
  unfold Channel.stopReading?
  rw [if_neg]
  rintro ⟨-, hclosed⟩
  rw [h.closed] at hclosed
  cases hclosed

theorem Channel.Going.ended (h : s.Going) : s.ended = false := by
  unfold Channel.ended
  rw [decide_eq_false h.reader]
  rfl

/-! ## What comes into a queue -/

/-- All that waits for the writer, in the queue or for room in it. -/
def Channel.parcels (c : Channel) : List Parcel := c.outbound ++ c.blocked

/-- The messages of the parcels that were not there before. -/
def joined (old new : List Parcel) : List Message := (new.filter fun q => q ∉ old).map (·.message)

theorem joined_append {old kept more : List Parcel} (hkept : ∀ q ∈ kept, q ∈ old) (hmore : ∀ q ∈ more, q ∉ old) :
    joined old (kept ++ more) = more.map (·.message) := by
  have hnone : kept.filter (fun q => q ∉ old) = [] := List.filter_eq_nil_iff.mpr (by simpa using hkept)
  have hall : more.filter (fun q => q ∉ old) = more := List.filter_eq_self.mpr (by simpa using hmore)
  rw [joined, List.filter_append, hnone, hall, List.nil_append]

theorem joined_eq_nil {old new : List Parcel} (h : ∀ q ∈ new, q ∈ old) : joined old new = [] := by
  have hnone : ∀ q ∈ ([] : List Parcel), q ∉ old := by simp
  have hjoined := joined_append h hnone
  rwa [List.append_nil] at hjoined

/-- No ticket is given twice. -/
structure Channel.Ticketed (c : Channel) : Prop where
  nodup : (c.parcels.map (·.ticket)).Nodup
  given : ∀ q ∈ c.parcels, q.ticket < c.nextTicket

theorem Channel.Ticketed.new (h : s.Ticketed) (m : Message) : (⟨s.nextTicket, m⟩ : Parcel) ∉ s.parcels :=
  fun hmem => absurd (h.given _ hmem) (Nat.lt_irrefl _)

theorem submit_cases (h : s.closed = false) (m : Message) : ∃ outbound blocked,
    (s.submit m).2 = { s with outbound, blocked, nextTicket := s.nextTicket + 1 } ∧
      ((outbound = s.outbound ++ [⟨s.nextTicket, m⟩] ∧ s.blocked = [] ∧ blocked = []) ∨
        (outbound = s.outbound ∧ blocked = s.blocked ++ [⟨s.nextTicket, m⟩])) := by
  unfold Channel.submit
  dsimp only
  rw [h, if_neg Bool.false_ne_true]
  split
  · rename_i hroom
    simp only [Bool.and_eq_true, List.isEmpty_iff] at hroom
    exact ⟨_, _, rfl, .inl ⟨rfl, hroom.1, hroom.1⟩⟩
  · exact ⟨_, _, rfl, .inr ⟨rfl, rfl⟩⟩

theorem parcels_submit (h : s.closed = false) (m : Message) :
    (s.submit m).2.parcels = s.parcels ++ [⟨s.nextTicket, m⟩] := by
  obtain ⟨outbound, blocked, he, ⟨rfl, hnone, rfl⟩ | ⟨rfl, rfl⟩⟩ := submit_cases h m
  · rw [he, Channel.parcels, Channel.parcels, hnone]
    simp
  · rw [he, Channel.parcels, Channel.parcels]
    simp

theorem Channel.Ticketed.submit (h : s.Ticketed) (hopen : s.closed = false) (m : Message) :
    (s.submit m).2.Ticketed := by
  have hparcels := parcels_submit hopen m
  have hnext : (s.submit m).2.nextTicket = s.nextTicket + 1 := by
    obtain ⟨outbound, blocked, settled, he⟩ := Channel.submit_eq s m
    rw [he]
  constructor
  · rw [hparcels, List.map_append]
    refine List.nodup_append.mpr ⟨h.nodup, List.nodup_singleton _, ?_⟩
    intro t ht u hu heq
    obtain ⟨q, hq, rfl⟩ := List.mem_map.mp ht
    rw [List.map_singleton, List.mem_singleton] at hu
    exact absurd (h.given q hq) (by simp_all)
  · rw [hparcels, hnext]
    intro q hq
    rcases List.mem_append.mp hq with hq | hq
    · exact Nat.lt_succ_of_lt (h.given q hq)
    · rw [List.mem_singleton.mp hq]
      exact Nat.lt_succ_self _

theorem Channel.Ticketed.sublist (h : s.Ticketed) (hsub : s'.parcels.Sublist s.parcels)
    (hnext : s'.nextTicket = s.nextTicket) : s'.Ticketed := by
  refine ⟨h.nodup.sublist (hsub.map _), fun q hq => ?_⟩
  rw [hnext]
  exact h.given q (hsub.subset hq)

/-- A writer that goes on leaves all that waits as it is, or takes the first parcel of the queue, and the
first one that waits for room comes into it. -/
theorem Wrote.parcels_cases (hw : Wrote s s' b popped) (h : s.Going) :
    (popped = [] ∧ s'.outbound = s.outbound ∧ s'.blocked = s.blocked) ∨
      ∃ q rest, s.outbound = q :: rest ∧ popped = [q.message] ∧ s'.outbound = rest ++ s.blocked.take 1 ∧
        s'.blocked = s.blocked.drop 1 := by
  cases hw with
  | ends idle why =>
    rcases why with hclosed | hheld
    · rw [h.closed] at hclosed
      cases hclosed
    · rw [h.held] at hheld
      cases hheld
  | takes idle running first => exact .inr ⟨_, _, first, rfl, rfl, rfl⟩
  | refuses idle running first => exact .inr ⟨_, _, first, rfl, rfl, rfl⟩
  | puts | flushes => exact .inl ⟨rfl, rfl, rfl⟩

theorem Wrote.parcels_sublist (hw : Wrote s s' b popped) (h : s.Going) : s'.parcels.Sublist s.parcels := by
  rcases hw.parcels_cases h with ⟨-, hout, hblocked⟩ | ⟨q, rest, hfirst, -, hout, hblocked⟩
  · rw [Channel.parcels, Channel.parcels, hout, hblocked]
  · rw [Channel.parcels, Channel.parcels, hout, hblocked, hfirst, List.append_assoc, List.take_append_drop]
    exact List.sublist_cons_self q (rest ++ s.blocked)

theorem Wrote.joined_cases (hw : Wrote s s' b popped) (h : s.Going) (ht : s.Ticketed) :
    s.outbound.map (·.message) ++ joined s.outbound s'.outbound = popped ++ s'.outbound.map (·.message) ∧
      ∀ m ∈ joined s.outbound s'.outbound, m ∈ s.blocked.map (·.message) := by
  rcases hw.parcels_cases h with ⟨rfl, hout, -⟩ | ⟨q, rest, hfirst, rfl, hout, -⟩
  · rw [hout, joined_eq_nil fun _ => id, List.append_nil]
    exact ⟨rfl, by simp⟩
  · -- No parcel that waits for room is in the queue already, because it would have the same ticket.
    have hnew : ∀ p ∈ s.blocked.take 1, p ∉ s.outbound := by
      intro p hp hin
      have hnodup := ht.nodup
      rw [Channel.parcels, List.map_append, List.nodup_append] at hnodup
      exact hnodup.2.2 _ (List.mem_map_of_mem hin) _ (List.mem_map_of_mem (List.mem_of_mem_take hp)) rfl
    have hkept : ∀ p ∈ rest, p ∈ s.outbound := fun p hp => hfirst ▸ List.mem_cons_of_mem q hp
    rw [hout, joined_append hkept hnew, hfirst, List.map_append, List.map_cons]
    exact ⟨by simp, fun m hm => ((List.take_sublist 1 s.blocked).map _).subset hm⟩

/-- The queue of a channel over which requests are sent: all that has come into it, the first of which have
left it. Others wait for room. -/
structure Queued (c : Channel) (entered gone : List Message) : Prop where
  ticketed : c.Ticketed
  split : entered = gone ++ c.outbound.map (·.message)
  entered : ∀ m ∈ entered, ∃ r, m = .request r
  waiting : ∀ m ∈ c.blocked.map (·.message), ∃ r, m = .request r

namespace Queued

variable {entered : List Message}

theorem start (limit capacity : Nat) : Queued (.start limit capacity) [] [] where
  ticketed := ⟨List.nodup_nil, by simp [Channel.parcels, Channel.start]⟩
  split := rfl
  entered := by simp
  waiting := by simp [Channel.start]

theorem shrink (h : Queued s entered gone) (hout : s'.outbound = s.outbound)
    (hblocked : s'.blocked.Sublist s.blocked) (hnext : s'.nextTicket = s.nextTicket) :
    Queued s' (entered ++ joined s.outbound s'.outbound) gone := by
  have hsub : s'.parcels.Sublist s.parcels := by
    rw [Channel.parcels, Channel.parcels, hout]
    exact (List.Sublist.refl _).append hblocked
  rw [joined_eq_nil (by rw [hout]; exact fun _ => id), List.append_nil]
  refine ⟨h.ticketed.sublist hsub hnext, by rw [hout, ← h.split], h.entered, fun m hm => ?_⟩
  exact h.waiting m ((hblocked.map _).subset hm)

theorem submit (h : Queued s entered gone) (hopen : s.closed = false) (r : Request) :
    Queued (s.submit (.request r)).2 (entered ++ joined s.outbound (s.submit (.request r)).2.outbound) gone := by
  have hticketed := h.ticketed.submit hopen (.request r)
  have hnew : ∀ q ∈ [(⟨s.nextTicket, .request r⟩ : Parcel)], q ∉ s.outbound := by
    intro q hq hmem
    rw [List.mem_singleton.mp hq] at hmem
    exact h.ticketed.new (.request r) (List.mem_append_left _ hmem)
  obtain ⟨outbound, blocked, he, ⟨rfl, hnone, rfl⟩ | ⟨rfl, rfl⟩⟩ := submit_cases hopen (.request r)
  · rw [he] at hticketed ⊢
    rw [joined_append (fun _ => id) hnew]
    refine ⟨hticketed, by simp [h.split], fun m hm => ?_, by simp⟩
    rcases List.mem_append.mp hm with hm | hm
    · exact h.entered m hm
    · exact ⟨r, by simpa using hm⟩
  · rw [he] at hticketed ⊢
    rw [joined_eq_nil fun _ => id, List.append_nil]
    refine ⟨hticketed, h.split, h.entered, fun m hm => ?_⟩
    rw [List.map_append] at hm
    rcases List.mem_append.mp hm with hm | hm
    · exact h.waiting m hm
    · exact ⟨r, by simpa using hm⟩

theorem wrote (h : Queued s entered gone) (hw : Wrote s s' b popped) (hgoing : s.Going) :
    Queued s' (entered ++ joined s.outbound s'.outbound) (gone ++ popped) := by
  obtain ⟨hsplit, hjoined⟩ := hw.joined_cases hgoing h.ticketed
  refine ⟨h.ticketed.sublist (hw.parcels_sublist hgoing) hw.nextTicket_eq, ?_, fun m hm => ?_, fun m hm => ?_⟩
  · rw [h.split, List.append_assoc, hsplit, List.append_assoc]
  · rcases List.mem_append.mp hm with hm | hm
    · exact h.entered m hm
    · exact h.waiting m (hjoined m hm)
  · refine h.waiting m (List.Sublist.subset (List.Sublist.map _ ?_) hm)
    rcases hw.parcels_cases hgoing with ⟨-, -, hblocked⟩ | ⟨q, rest, -, -, -, hblocked⟩
    · rw [hblocked]
    · rw [hblocked]
      exact List.drop_sublist 1 s.blocked

end Queued

/-! ## What was handed over -/

theorem Ledger.ticketed {handed : List Message} (h : Ledger limit handed s gone) : s.Ticketed := by
  obtain ⟨lost, hsplit, -⟩ := h.split
  have htickets : s.parcels.map (·.ticket) = List.range' gone.length s.parcels.length := h.tickets
  refine ⟨by rw [htickets]; exact List.nodup_range', fun q hq => ?_⟩
  have hmem : q.ticket ∈ s.parcels.map (·.ticket) := List.mem_map_of_mem hq
  rw [htickets, List.mem_range'_1, Channel.parcels, ← Ledger.length_queue, ← List.length_append] at hmem
  rw [h.next, hsplit, List.length_append]
  exact Nat.lt_of_lt_of_le hmem.2 (Nat.le_add_right _ _)

theorem Ledger.submit_joined {handed : List Message} (h : Ledger limit handed s gone) (hopen : s.closed = false)
    (m : Message) :
    Ledger limit (handed ++ joined s.parcels (s.submit m).2.parcels) (s.submit m).2 gone := by
  have hnew : ∀ q ∈ [(⟨s.nextTicket, m⟩ : Parcel)], q ∉ s.parcels := by
    intro q hq hmem
    rw [List.mem_singleton.mp hq] at hmem
    exact h.ticketed.new m hmem
  rw [parcels_submit hopen, joined_append (fun _ => id) hnew]
  exact h.submit m

end

end ClusterNet.Messaging
