import ClusterNet.Proofs.Lanes

/-!
# What tickets say

The messages of a sender leave its queue in the order in which they were handed over, and their
tickets are their places in that order. A ticket that says that its message was sent belongs to a
message that has left the queue and has a frame.
-/

namespace ClusterNet.Messaging

open Wire

/-- A channel to which some messages were handed over, the first of which have left its queue. What
comes after the queue was lost because the channel was closed. -/
structure Ledger (limit : Nat) (sent : List Message) (c : Channel) (gone : List Message) : Prop where
  limit_eq : c.limit = limit
  next : c.nextTicket = sent.length
  split : ∃ lost, sent = gone ++ c.queue ++ lost ∧ (c.closed = false → lost = [])
  tickets : (c.outbound ++ c.blocked).map (·.ticket) =
    List.range' gone.length (c.outbound ++ c.blocked).length
  writing : ∀ t left, c.writer = .writing t left →
    gone.length = t + 1 ∧ ∃ m, gone[t]? = some m ∧ sendable limit m = true
  sent_ok : ∀ t, c.outcome? t = some (.ok ()) → ∃ m, gone[t]? = some m ∧ sendable limit m = true
  /-- Whoever asks after a message that has left the queue is told, or will be soon. -/
  told : ∀ t, t < gone.length → (c.outcome? t).isSome = true ∨ ∃ left, c.writer = .writing t left
  stopped : c.writer = .stopped → c.closed = true ∧ c.queue = []
  /-- Nobody waits for room that is there. -/
  ready : 0 < c.capacity → c.outbound = [] → c.blocked = []

namespace Ledger

variable {limit : Nat} {sent gone : List Message} {c d : Channel} {m : Message}

theorem start (limit capacity : Nat) : Ledger limit [] (.start limit capacity) [] where
  limit_eq := rfl
  next := rfl
  split := ⟨[], rfl, fun _ => rfl⟩
  tickets := rfl
  writing t left h := by simp [Channel.start] at h
  sent_ok t h := by simp [Channel.start, Channel.outcome?] at h
  told t h := by simp at h
  stopped h := by simp [Channel.start] at h
  ready _ _ := rfl

theorem congr (h : Ledger limit sent c gone) (hlimit : d.limit = c.limit) (hcapacity : d.capacity = c.capacity)
    (houtbound : d.outbound = c.outbound) (hblocked : d.blocked = c.blocked) (hwriter : d.writer = c.writer)
    (hnext : d.nextTicket = c.nextTicket) (hsettled : d.settled = c.settled)
    (hclosed : c.closed = true → d.closed = true) : Ledger limit sent d gone := by
  have hqueue : d.queue = c.queue := by rw [Channel.queue, houtbound, hblocked, Channel.queue]
  have houtcome : ∀ t, d.outcome? t = c.outcome? t := by
    intro t
    rw [Channel.outcome?, hsettled, Channel.outcome?]
  refine ⟨hlimit.trans h.limit_eq, hnext.trans h.next, ?_, ?_, ?_, ?_, ?_, ?_, ?_⟩
  · obtain ⟨lost, hsent, hlost⟩ := h.split
    refine ⟨lost, by rw [hqueue, hsent], fun hopen => hlost ?_⟩
    by_contra hc
    rw [hclosed (by simpa using hc)] at hopen
    simp at hopen
  · rw [houtbound, hblocked]
    exact h.tickets
  · rw [hwriter]
    exact h.writing
  · intro t ht
    exact h.sent_ok t (by rwa [← houtcome])
  · intro t ht
    rw [houtcome, hwriter]
    exact h.told t ht
  · rw [hwriter, hqueue]
    exact fun hstopped => ⟨hclosed (h.stopped hstopped).1, (h.stopped hstopped).2⟩
  · rw [hcapacity, houtbound, hblocked]
    exact h.ready

theorem sameSender (h : Ledger limit sent c gone) (hs : c.SameSender d) : Ledger limit sent d gone := by
  refine h.congr hs.limit hs.capacity hs.outbound hs.blocked hs.writer hs.nextTicket hs.settled fun hc => ?_
  rcases hs.closed with hsame | ⟨hclosed, -⟩
  · rw [hsame, hc]
  · exact hclosed

theorem close (h : Ledger limit sent c gone) : Ledger limit sent c.close gone :=
  h.congr rfl rfl rfl rfl rfl rfl rfl fun _ => rfl

theorem receive? (h : Ledger limit sent c gone) (hd : c.receive? = some (m, d)) : Ledger limit sent d gone := by
  obtain ⟨rest, -, rfl⟩ := Channel.receive?_eq_some hd
  exact h.congr rfl rfl rfl rfl rfl rfl rfl id

theorem length_queue (c : Channel) : c.queue.length = (c.outbound ++ c.blocked).length := by
  rw [Channel.queue, List.length_map]

theorem gone_length_le (h : Ledger limit sent c gone) : gone.length ≤ sent.length := by
  obtain ⟨lost, hsent, -⟩ := h.split
  rw [hsent]
  simp only [List.length_append]
  omega

/-! ## Submitting -/

theorem submit_closed (h : Ledger limit sent c gone) (m : Message) (hclosed : c.closed = true) :
    Ledger limit (sent ++ [m]) (({ c with nextTicket := c.nextTicket + 1 } : Channel).settle c.nextTicket
      (.error .connectionClosed)) gone := by
  obtain ⟨lost, hsent, hlost⟩ := h.split
  have hle := h.gone_length_le
  have houtcome : ∀ t, (({ c with nextTicket := c.nextTicket + 1 } : Channel).settle c.nextTicket
      (.error .connectionClosed)).outcome? t =
        if t = c.nextTicket then some (.error .connectionClosed) else c.outcome? t :=
    fun t => Channel.outcome?_settle _ _ _ _
  refine ⟨h.limit_eq, by simp [Channel.settle, h.next], ⟨lost ++ [m], ?_, ?_⟩, h.tickets, h.writing, ?_, ?_,
    h.stopped, h.ready⟩
  · rw [hsent, List.append_assoc]
    rfl
  · intro hopen
    simp [Channel.settle, hclosed] at hopen
  · intro t ht
    rw [houtcome] at ht
    split at ht
    · simp at ht
    · exact h.sent_ok t ht
  · intro t ht
    rw [houtcome, if_neg]
    · exact h.told t ht
    · rw [h.next]
      exact Nat.ne_of_lt (Nat.lt_of_lt_of_le ht hle)

theorem submit_open (h : Ledger limit sent c gone) (m : Message) (hopen : c.closed = false)
    {outbound blocked : List Parcel}
    (hall : outbound ++ blocked = (c.outbound ++ c.blocked) ++ [⟨c.nextTicket, m⟩])
    (hready : 0 < c.capacity → outbound = [] → blocked = []) :
    Ledger limit (sent ++ [m]) { c with outbound, blocked, nextTicket := c.nextTicket + 1 } gone := by
  obtain ⟨lost, hsent, hlost⟩ := h.split
  rw [hlost hopen, List.append_nil] at hsent
  refine ⟨h.limit_eq, ?_, ⟨[], ?_, fun _ => rfl⟩, ?_, h.writing, h.sent_ok, h.told, fun hstopped => ?_, hready⟩
  · rw [h.next, List.length_append]
    rfl
  · rw [Channel.queue, hall, hsent, Channel.queue]
    simp
  · have hlast : c.nextTicket = gone.length + (c.outbound ++ c.blocked).length := by
      rw [h.next, hsent, List.length_append, length_queue]
    have hlength : ((c.outbound ++ c.blocked) ++ [(⟨c.nextTicket, m⟩ : Parcel)]).length =
        (c.outbound ++ c.blocked).length + 1 := List.length_append
    rw [hall, hlength, List.map_append, h.tickets, List.range'_concat, Nat.one_mul, ← hlast]
    rfl
  · have hclosed := (h.stopped hstopped).1
    rw [hopen] at hclosed
    cases hclosed

theorem submit (h : Ledger limit sent c gone) (m : Message) :
    Ledger limit (sent ++ [m]) (c.submit m).2 gone := by
  unfold Channel.submit
  dsimp only
  split
  · rename_i hclosed
    exact h.submit_closed m hclosed
  · rename_i hopen
    split
    · rename_i hroom
      simp only [Bool.and_eq_true, List.isEmpty_iff, decide_eq_true_eq] at hroom
      exact h.submit_open m (by simpa using hopen) (by simp [hroom.1]) fun _ _ => hroom.1
    · rename_i hroom
      refine h.submit_open m (by simpa using hopen) (List.append_assoc _ _ _).symm fun hcapacity hnone => ?_
      simp [h.ready hcapacity hnone, hnone, hcapacity] at hroom

/-! ## Leaving the queue -/

theorem pop (h : Ledger limit sent c gone) {q : Parcel} {rest : List Parcel} (hfirst : c.outbound = q :: rest)
    (hd : d.outbound = rest ++ c.blocked.take 1 ∧ d.blocked = c.blocked.drop 1) :
    q.ticket = gone.length ∧ c.queue = q.message :: d.queue ∧
      (d.outbound ++ d.blocked).map (·.ticket) =
        List.range' (gone.length + 1) (d.outbound ++ d.blocked).length ∧
      (0 < c.capacity → d.outbound = [] → d.blocked = []) := by
  have hmoved : d.outbound ++ d.blocked = rest ++ c.blocked := by
    rw [hd.1, hd.2, List.append_assoc, List.take_append_drop]
  have htickets := h.tickets
  rw [hfirst, List.cons_append, List.map_cons, List.length_cons, List.range'_succ] at htickets
  obtain ⟨hticket, hrest⟩ := List.cons.inj htickets
  refine ⟨hticket, ?_, ?_, ?_⟩
  · rw [Channel.queue, hfirst, Channel.queue, hmoved]
    rfl
  · rw [hmoved]
    exact hrest
  · intro _ hnone
    rw [hd.1, List.append_eq_nil_iff] at hnone
    rw [hd.2]
    cases hblocked : c.blocked with
    | nil => rfl
    | cons x xs =>
      rw [hblocked] at hnone
      simp at hnone

theorem sent_ok_append (h : Ledger limit sent c gone) (more : List Message) {t : Ticket}
    (ht : c.outcome? t = some (.ok ())) : ∃ m, (gone ++ more)[t]? = some m ∧ sendable limit m = true := by
  obtain ⟨m, hm, hsendable⟩ := h.sent_ok t ht
  obtain ⟨hlt, -⟩ := List.getElem?_eq_some_iff.mp hm
  exact ⟨m, by rw [List.getElem?_append_left hlt, hm], hsendable⟩

theorem told_of_idle (h : Ledger limit sent c gone) (idle : c.writer = .idle) {t : Ticket} (ht : t < gone.length) :
    (c.outcome? t).isSome = true := by
  refine (h.told t ht).resolve_right ?_
  rintro ⟨left, hwriting⟩
  rw [idle] at hwriting
  cases hwriting

theorem told_of_writing (h : Ledger limit sent c gone) {t u : Ticket} {left : Bytes}
    (writing : c.writer = .writing t left) (hu : u < gone.length) : (c.outcome? u).isSome = true ∨ u = t := by
  refine (h.told u hu).imp_right ?_
  rintro ⟨rest, hwriting⟩
  rw [writing] at hwriting
  exact (Writer.writing.inj hwriting).1.symm

/-! ## Steps of the writer -/

theorem endWriting (h : Ledger limit sent c gone) (idle : c.writer = .idle) : Ledger limit sent c.endWriting gone := by
  obtain ⟨lost, hsent, -⟩ := h.split
  obtain ⟨settled, he⟩ := endWriting_eq c
  have houtcome := Channel.outcome?_endWriting c
  rw [he] at houtcome ⊢
  refine ⟨h.limit_eq, h.next, ⟨c.queue ++ lost, ?_, by simp⟩, rfl, by simp, ?_, ?_, ?_, fun _ _ => rfl⟩
  · rw [hsent, List.append_assoc, List.append_assoc]
    rfl
  · intro t ht
    rcases houtcome t with hnew | hold
    · rw [hnew] at ht
      simp at ht
    · rw [hold] at ht
      exact h.sent_ok t ht
  · intro t ht
    rcases houtcome t with hnew | hold
    · exact .inl (by rw [hnew]; rfl)
    · exact .inl (by rw [hold]; exact h.told_of_idle idle ht)
  · exact fun _ => ⟨rfl, rfl⟩

theorem takes (h : Ledger limit sent c gone) {q : Parcel} {rest : List Parcel} {frame : Bytes}
    (idle : c.writer = .idle) (first : c.outbound = q :: rest) (encoded : encode c.limit q.message = .ok frame) :
    Ledger limit sent { c with
      outbound := rest ++ c.blocked.take 1
      blocked := c.blocked.drop 1
      writer := .writing q.ticket frame } (gone ++ [q.message]) := by
  obtain ⟨lost, hsent, hlost⟩ := h.split
  obtain ⟨hticket, hqueue, htickets, hready⟩ := h.pop (d := { c with
    outbound := rest ++ c.blocked.take 1
    blocked := c.blocked.drop 1
    writer := .writing q.ticket frame }) first ⟨rfl, rfl⟩
  have hsendable := sendable_of_encode encoded
  rw [h.limit_eq] at hsendable
  refine ⟨h.limit_eq, h.next, ⟨lost, ?_, hlost⟩, ?_, ?_, fun t ht => h.sent_ok_append _ ht, ?_, by simp, hready⟩
  · rw [hsent, hqueue, List.append_assoc gone [q.message]]
    rfl
  · rw [List.length_append]
    exact htickets
  · intro t left hwriting
    obtain ⟨rfl, -⟩ := Writer.writing.inj hwriting
    rw [hticket]
    exact ⟨List.length_append, q.message, by simp, hsendable⟩
  · intro t ht
    rw [List.length_append, List.length_singleton] at ht
    rcases Nat.lt_succ_iff_lt_or_eq.mp ht with ht | ht
    · exact .inl (h.told_of_idle idle ht)
    · rw [ht, ← hticket]
      exact .inr ⟨frame, rfl⟩

/-- The message is gone as well, but its ticket says so, and `sendable` leaves it out. -/
theorem refuses (h : Ledger limit sent c gone) {q : Parcel} {rest : List Parcel} {e : FrameFault}
    (idle : c.writer = .idle) (first : c.outbound = q :: rest) :
    Ledger limit sent (({ c with
      outbound := rest ++ c.blocked.take 1
      blocked := c.blocked.drop 1 } : Channel).settle q.ticket (.error (.codec e))) (gone ++ [q.message]) := by
  obtain ⟨lost, hsent, hlost⟩ := h.split
  obtain ⟨hticket, hqueue, htickets, hready⟩ := h.pop (d := { c with
    outbound := rest ++ c.blocked.take 1
    blocked := c.blocked.drop 1 }) first ⟨rfl, rfl⟩
  have houtcome : ∀ t, (({ c with
      outbound := rest ++ c.blocked.take 1
      blocked := c.blocked.drop 1 } : Channel).settle q.ticket (.error (.codec e))).outcome? t =
        if t = q.ticket then some (.error (.codec e)) else c.outcome? t :=
    fun t => Channel.outcome?_settle _ _ _ _
  refine ⟨h.limit_eq, h.next, ⟨lost, ?_, hlost⟩, ?_, ?_, ?_, ?_, ?_, hready⟩
  · rw [hsent, hqueue, List.append_assoc gone [q.message]]
    rfl
  · rw [List.length_append]
    exact htickets
  · intro t left hwriting
    rw [Channel.settle, idle] at hwriting
    cases hwriting
  · intro t ht
    rw [houtcome] at ht
    split at ht
    · simp at ht
    · exact h.sent_ok_append _ ht
  · intro t ht
    rw [houtcome]
    split
    · exact .inl rfl
    · rename_i hne
      rw [List.length_append, List.length_singleton] at ht
      rcases Nat.lt_succ_iff_lt_or_eq.mp ht with ht | ht
      · exact .inl (h.told_of_idle idle ht)
      · exact absurd (ht.trans hticket.symm) hne
  · intro hstopped
    rw [Channel.settle, idle] at hstopped
    cases hstopped

theorem puts (h : Ledger limit sent c gone) {t : Ticket} {b left : Bytes} (writing : c.writer = .writing t b) :
    Ledger limit sent { c with writer := .writing t left } gone := by
  refine ⟨h.limit_eq, h.next, h.split, h.tickets, ?_, h.sent_ok, ?_, by simp, h.ready⟩
  · intro u rest hwriting
    obtain ⟨rfl, -⟩ := Writer.writing.inj hwriting
    exact h.writing t _ writing
  · intro u hu
    rcases h.told_of_writing writing hu with htold | rfl
    · exact .inl htold
    · exact .inr ⟨left, rfl⟩

theorem flushes (h : Ledger limit sent c gone) {t : Ticket} (writing : c.writer = .writing t []) :
    Ledger limit sent (({ c with writer := .idle } : Channel).settle t (.ok ())) gone := by
  have houtcome : ∀ u, (({ c with writer := .idle } : Channel).settle t (.ok ())).outcome? u =
      if u = t then some (.ok ()) else c.outcome? u := fun u => Channel.outcome?_settle _ _ _ _
  refine ⟨h.limit_eq, h.next, h.split, h.tickets, by simp [Channel.settle], ?_, ?_, by simp [Channel.settle],
    h.ready⟩
  · intro u hu
    rw [houtcome] at hu
    split at hu
    · rename_i heq
      rw [heq]
      exact (h.writing t [] writing).2
    · exact h.sent_ok u hu
  · intro u hu
    rw [houtcome]
    split
    · exact .inl rfl
    · rename_i hne
      exact .inl ((h.told_of_writing writing hu).resolve_right hne)

theorem wrote (h : Ledger limit sent c gone) {b : Bytes} {popped : List Message} (hw : Wrote c d b popped) :
    Ledger limit sent d (gone ++ popped) := by
  cases hw with
  | ends idle why =>
    rw [List.append_nil]
    exact h.endWriting idle
  | takes idle running first encoded => exact h.takes idle first encoded
  | refuses idle running first refused => exact h.refuses idle first
  | puts writing =>
    rw [List.append_nil]
    exact h.puts writing
  | flushes writing =>
    rw [List.append_nil]
    exact h.flushes writing

end Ledger

end ClusterNet.Messaging
