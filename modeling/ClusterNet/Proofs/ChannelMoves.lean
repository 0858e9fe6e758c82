import ClusterNet.Messaging.Channel
import ClusterNet.Proofs.Tables

/-!
# The moves of a channel

Whatever happens to a channel is one of these moves. A message that is not sent fails in one of
three ways: it has no frame, the stream fails, or the channel is closed.
-/

namespace ClusterNet.Messaging

open Wire

/-! ## What the reader does -/

/-- A step of the reader, which takes bytes from the stream. -/
inductive Read (c : Channel) (done : Bool) : Channel → Bytes → Prop where
  | takes {b : Bytes} (waiting : c.reader = .waiting) (some : b ≠ []) :
      Read c done { c with reader := .decoding, buffer := c.buffer ++ b } b
  | ends (waiting : c.reader = .waiting) (last : done = true) : Read c done c.endReading []
  | decodes {m : Message} {n : Nat} (decoding : c.reader = .decoding)
      (decoded : decode c.limit c.buffer = .ok (m, n)) :
      Read c done { c with reader := .holding m, buffer := c.buffer.drop n } []
  | parks {need have_ : Nat} (decoding : c.reader = .decoding)
      (few : decode c.limit c.buffer = .error (.insufficient need have_)) :
      Read c done { c with reader := .waiting } []
  | breaks {e : FrameFault} (decoding : c.reader = .decoding) (broken : decode c.limit c.buffer = .error e)
      (serious : ∀ need have_, e ≠ .insufficient need have_) : Read c done c.endReading []
  | passes {m : Message} (holding : c.reader = .holding m) (attended : c.attended = true)
      (room : c.inbound.length < c.capacity) :
      Read c done { c with reader := .decoding, inbound := c.inbound ++ [m] } []
  | leaves {m : Message} (holding : c.reader = .holding m) (attended : c.attended = false) :
      Read c done c.endReading []

theorem Read.going {c d : Channel} {done : Bool} {b : Bytes} (h : Read c done d b) : c.reader ≠ .stopped := by
  cases h with
  | takes waiting => simp [waiting]
  | ends waiting => simp [waiting]
  | decodes decoding => simp [decoding]
  | parks decoding => simp [decoding]
  | breaks decoding => simp [decoding]
  | passes holding => simp [holding]
  | leaves holding => simp [holding]

theorem Read.of_waiting {c d : Channel} {done : Bool} (h : Read c done d []) (hwaiting : c.reader = .waiting) :
    done = true ∧ d = c.endReading := by
  cases h with
  | takes _ some => exact absurd rfl some
  | ends _ last => exact ⟨last, rfl⟩
  | decodes decoding => simp [decoding] at hwaiting
  | parks decoding => simp [decoding] at hwaiting
  | breaks decoding => simp [decoding] at hwaiting
  | passes holding => simp [holding] at hwaiting
  | leaves holding => simp [holding] at hwaiting

theorem Read.of_read? {c d : Channel} {done : Bool} {chunk : Bytes} (h : c.read? chunk = some d)
    (hdone : chunk = [] → done = true) : Read c done d chunk := by
  unfold Channel.read? at h
  split at h
  · rename_i hwaiting
    split at h
    · rename_i hnone
      obtain rfl := Option.some.inj h
      obtain rfl := List.isEmpty_iff.mp hnone
      exact .ends hwaiting (hdone rfl)
    · rename_i hsome
      obtain rfl := Option.some.inj h
      exact .takes hwaiting (by rwa [List.isEmpty_iff] at hsome)
  · simp at h

theorem Read.of_decode? {c d : Channel} {done : Bool} (h : c.decode? = some d) : Read c done d [] := by
  unfold Channel.decode? at h
  split at h
  · rename_i hdecoding
    obtain rfl := Option.some.inj h
    split
    · rename_i m k hm
      exact .decodes hdecoding hm
    · rename_i need have_ hfew
      exact .parks hdecoding hfew
    · rename_i e hnot he
      exact .breaks hdecoding he hnot
  · simp at h

theorem Read.of_forward? {c d : Channel} {done : Bool} (h : c.forward? = some d) : Read c done d [] := by
  unfold Channel.forward? at h
  split at h
  · rename_i m hholding
    split at h
    · rename_i hleft
      obtain rfl := Option.some.inj h
      exact .leaves hholding (by simpa using hleft)
    · rename_i hthere
      split at h
      · rename_i hroom
        obtain rfl := Option.some.inj h
        exact .passes hholding (by simpa using hthere) hroom
      · simp at h
  · simp at h

theorem Channel.stopReading?_eq_some {c d : Channel} (h : c.stopReading? = some d) :
    c.reader = .waiting ∧ c.closed = true ∧ d = c.endReading := by
  unfold Channel.stopReading? at h
  split at h
  · rename_i hwhy
    exact ⟨hwhy.1, hwhy.2, (Option.some.inj h).symm⟩
  · cases h

theorem Read.of_stopReading? {c d : Channel} (h : c.stopReading? = some d) : Read c true d [] := by
  obtain ⟨hwaiting, -, rfl⟩ := Channel.stopReading?_eq_some h
  exact .ends hwaiting rfl

theorem Read.of_readFails? {c d : Channel} (h : c.readFails? = some d) : Read c true d [] := by
  unfold Channel.readFails? at h
  split at h
  · obtain rfl := Option.some.inj h
    exact .ends ‹_› rfl
  · cases h

theorem Channel.read?_ne_none {c : Channel} (hwaiting : c.reader = .waiting) (chunk : Bytes) :
    c.read? chunk ≠ none := by
  rw [Channel.read?, if_pos hwaiting]
  split <;> simp

theorem Channel.decode?_ne_none {c : Channel} (hdecoding : c.reader = .decoding) : c.decode? ≠ none := by
  rw [Channel.decode?, if_pos hdecoding]
  exact Option.some_ne_none _

theorem Channel.forward?_ne_none {c : Channel} {m : Message} (hholding : c.reader = .holding m)
    (hroom : c.inbound.length < c.capacity) : c.forward? ≠ none := by
  rw [Channel.forward?, hholding]
  dsimp only
  rw [if_pos hroom]
  split <;> simp

/-- What the reader leaves alone. -/
structure Channel.SameSender (c d : Channel) : Prop where
  limit : d.limit = c.limit
  capacity : d.capacity = c.capacity
  outbound : d.outbound = c.outbound
  blocked : d.blocked = c.blocked
  writer : d.writer = c.writer
  held : d.held = c.held
  attended : d.attended = c.attended
  nextTicket : d.nextTicket = c.nextTicket
  settled : d.settled = c.settled
  /-- The channel is closed only when the reader stops. -/
  closed : d.closed = c.closed ∨ d.closed = true ∧ d.reader = .stopped

theorem Read.sameSender {c d : Channel} {done : Bool} {b : Bytes} (h : Read c done d b) : c.SameSender d := by
  cases h with
  | takes | decodes | parks | passes => exact ⟨rfl, rfl, rfl, rfl, rfl, rfl, rfl, rfl, rfl, .inl rfl⟩
  | ends | breaks | leaves =>
    exact ⟨rfl, rfl, rfl, rfl, rfl, rfl, rfl, rfl, rfl, .inr ⟨rfl, rfl⟩⟩

/-! ## All moves -/

inductive ChannelMove where
  /-- The writer takes the next message. -/
  | takes
  | writes (n : Nat)
  | flushes
  | writeFails
  | stopsWriting
  | reads (chunk : Bytes)
  | readFails
  | stopsReading
  | decodes
  | forwards
  | closes
  | releases
  /-- Somebody else sends on the channel, too. -/
  | sends (m : Message)
  | withdraws (t : Ticket)
  /-- A message comes into the inbound queue out of nowhere. -/
  | arrives (m : Message)

namespace Channel

variable {c d : Channel}

def move? (c : Channel) : ChannelMove → Option Channel
  | .takes => c.next?
  | .writes n => (c.write? n).map (·.2)
  | .flushes => c.flush?
  | .writeFails => c.writeFails?
  | .stopsWriting => c.stopWriting?
  | .reads chunk => c.read? chunk
  | .readFails => c.readFails?
  | .stopsReading => c.stopReading?
  | .decodes => c.decode?
  | .forwards => c.forward?
  | .closes => some c.close
  | .releases => some c.release
  | .sends m => some (c.submit m).2
  | .withdraws t => some (c.withdraw t)
  | .arrives m => some { c with inbound := c.inbound ++ [m] }

/-! ## Why messages are not sent -/

/-- Each failure to send that is new comes from the stream, from the end of the channel, or from a
message without a frame. -/
def Accounts (c d : Channel) : Prop :=
  ∀ ⦃t e⦄, d.outcome? t = some (.error e) → c.outcome? t = some (.error e) ∨
    e = .connectionClosed ∨ e = .io ∨
      ∃ p ∈ c.outbound, ∃ fault, encode c.limit p.message = .error fault ∧ e = .codec fault

theorem accounts_of_settled (h : d.settled = c.settled) : c.Accounts d := by
  intro t e ht
  rw [outcome?, h] at ht
  exact .inl ht

theorem outcome?_settle (c : Channel) (t u : Ticket) (r : Except Failure Unit) :
    (c.settle t r).outcome? u = if u = t then some r else c.outcome? u := Table.get?_insert _ _ _ _

theorem accounts_settle {t : Ticket} {r : Except Failure Unit} (h : d.settled = c.settled)
    (hr : ∀ e, r = .error e → e = .connectionClosed ∨ e = .io ∨
      ∃ p ∈ c.outbound, ∃ fault, encode c.limit p.message = .error fault ∧ e = .codec fault) :
    c.Accounts (d.settle t r) := by
  intro u e hu
  rw [outcome?_settle] at hu
  split at hu
  · exact .inr (hr e (Option.some.inj hu))
  · exact accounts_of_settled h hu

theorem outcome?_foldl_settle (ps : List Parcel) (c : Channel) (u : Ticket) :
    (ps.foldl (fun c p => c.settle p.ticket (.error .connectionClosed)) c).outcome? u =
        some (.error .connectionClosed) ∨
      (ps.foldl (fun c p => c.settle p.ticket (.error .connectionClosed)) c).outcome? u = c.outcome? u := by
  induction ps generalizing c with
  | nil => exact .inr rfl
  | cons p ps ih =>
    rw [List.foldl_cons]
    rcases ih (c.settle p.ticket (.error .connectionClosed)) with h | h
    · exact .inl h
    · rw [outcome?_settle] at h
      split at h
      · exact .inl h
      · exact .inr h

theorem outcome?_endWriting (c : Channel) (u : Ticket) :
    c.endWriting.outcome? u = some (.error .connectionClosed) ∨ c.endWriting.outcome? u = c.outcome? u :=
  outcome?_foldl_settle (c.outbound ++ c.blocked)
    { c with outbound := [], blocked := [], writer := .stopped, closed := true } u

theorem accounts_endWriting (c : Channel) : c.Accounts c.endWriting := by
  intro t e ht
  rcases outcome?_endWriting c t with h | h
  · rw [h] at ht
    obtain rfl := Except.error.inj (Option.some.inj ht)
    exact .inr (.inl rfl)
  · rw [h] at ht
    exact .inl ht

theorem accounts_submit (c : Channel) (m : Message) : c.Accounts (c.submit m).2 := by
  unfold submit
  split
  · refine accounts_settle (d := { c with nextTicket := c.nextTicket + 1 }) rfl fun e he => .inl ?_
    exact (Except.error.inj he).symm
  · split
    · exact accounts_of_settled rfl
    · exact accounts_of_settled rfl

theorem accounts_next? (h : c.next? = some d) : c.Accounts d := by
  unfold next? at h
  split at h
  · rename_i p rest hwriter hclosed hout
    simp only at h
    split at h
    · obtain rfl := Option.some.inj h
      exact accounts_of_settled rfl
    · rename_i fault hfault
      obtain rfl := Option.some.inj h
      refine accounts_settle rfl fun e he => .inr (.inr ⟨p, ?_, fault, hfault, (Except.error.inj he).symm⟩)
      rw [hout]
      exact List.mem_cons_self
  · simp at h

theorem accounts_flush? (h : c.flush? = some d) : c.Accounts d := by
  unfold flush? at h
  split at h
  · obtain rfl := Option.some.inj h
    exact accounts_settle rfl (by simp)
  · simp at h

theorem accounts_writeFails? (h : c.writeFails? = some d) : c.Accounts d := by
  unfold writeFails? at h
  split at h
  · obtain rfl := Option.some.inj h
    intro u e hu
    rw [outcome?_settle] at hu
    split at hu
    · exact .inr (.inr (.inl (Except.error.inj (Option.some.inj hu)).symm))
    · exact accounts_endWriting c hu
  · simp at h

theorem accounts_stopWriting? (h : c.stopWriting? = some d) : c.Accounts d := by
  unfold stopWriting? at h
  split at h
  · obtain rfl := Option.some.inj h
    exact accounts_endWriting c
  · simp at h

theorem settled_write? {n : Nat} {b : Bytes} (h : c.write? n = some (b, d)) : d.settled = c.settled := by
  unfold write? at h
  split at h
  · split at h
    · simp at h
    · obtain ⟨rfl, rfl⟩ := Prod.mk.inj (Option.some.inj h)
      rfl
  · simp at h

theorem receive?_eq_some {m : Message} (h : c.receive? = some (m, d)) :
    ∃ rest, c.inbound = m :: rest ∧ d = { c with inbound := rest } := by
  unfold receive? at h
  split at h
  · rename_i rest hin
    obtain ⟨rfl, rfl⟩ := Prod.mk.inj (Option.some.inj h)
    exact ⟨rest, hin, rfl⟩
  · simp at h

theorem inbound_of_receive?_eq_none (h : c.receive? = none) : c.inbound = [] := by
  unfold receive? at h
  split at h
  · cases h
  · assumption

theorem settled_receive? {m : Message} (h : c.receive? = some (m, d)) : d.settled = c.settled := by
  obtain ⟨rest, -, rfl⟩ := receive?_eq_some h
  rfl

theorem accounts_move? {m : ChannelMove} (h : c.move? m = some d) : c.Accounts d := by
  cases m with
  | takes => exact accounts_next? h
  | writes n =>
    obtain ⟨⟨b, e⟩, he, rfl⟩ := Option.map_eq_some_iff.mp h
    exact accounts_of_settled (settled_write? he)
  | flushes => exact accounts_flush? h
  | writeFails => exact accounts_writeFails? h
  | stopsWriting => exact accounts_stopWriting? h
  | reads chunk => exact accounts_of_settled (Read.of_read? h fun _ => rfl).sameSender.settled
  | readFails => exact accounts_of_settled (Read.of_readFails? h).sameSender.settled
  | stopsReading => exact accounts_of_settled (Read.of_stopReading? h).sameSender.settled
  | decodes => exact accounts_of_settled (.of_decode? h : Read c true d []).sameSender.settled
  | forwards => exact accounts_of_settled (.of_forward? h : Read c true d []).sameSender.settled
  | closes =>
    obtain rfl := Option.some.inj h
    exact accounts_of_settled rfl
  | releases =>
    obtain rfl := Option.some.inj h
    exact accounts_of_settled rfl
  | sends m =>
    obtain rfl := Option.some.inj h
    exact accounts_submit c m
  | withdraws t =>
    obtain rfl := Option.some.inj h
    exact accounts_of_settled rfl
  | arrives m =>
    obtain rfl := Option.some.inj h
    exact accounts_of_settled rfl

end Channel

end ClusterNet.Messaging
