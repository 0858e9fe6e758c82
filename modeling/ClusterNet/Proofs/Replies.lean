import ClusterNet.Messaging.Handler
import ClusterNet.Proofs.Frame
import ClusterNet.Proofs.Lanes
import ClusterNet.Proofs.Lossy

/-!
# Which reply fits

The reply to a request tells how the work on it ended. If its frame is too long for the limit, a short
one explains this, and if not even that fits, there is none.
-/

namespace ClusterNet.Messaging

open Wire

/-! ## How long texts are -/

theorem length_ofText_append (a b : String) :
    (Bytes.ofText (a ++ b)).length = (Bytes.ofText a).length + (Bytes.ofText b).length := by
  simp [Bytes.ofText]

theorem length_ofText_toString (n : Nat) : (Bytes.ofText (toString n)).length = (Nat.toDigits 10 n).length := by
  have hone : ∀ c ∈ Nat.toDigits 10 n, (String.utf8EncodeChar c).length = 1 := by
    intro c hc
    have hdigit := Nat.isDigit_of_mem_toDigits (by omega) (by omega) hc
    simp only [Char.isDigit, Bool.and_eq_true, decide_eq_true_eq] at hdigit
    rw [String.length_utf8EncodeChar, Char.utf8Size, if_pos]
    exact UInt32.le_trans hdigit.2 (by decide)
  rw [Utf8.ofText_eq, Nat.toString_eq_repr, Nat.toList_repr, List.length_flatMap, List.map_congr_left hone,
    List.map_const', List.sum_replicate_nat, Nat.mul_one]

theorem length_toDigits_le {n : Nat} (h : n < 2 ^ 64) : (Nat.toDigits 10 n).length ≤ 20 :=
  (Nat.length_toDigits_le_iff (by omega) (by omega)).mpr (Nat.lt_of_lt_of_le h (by decide))

theorem length_tooLong (size limit : Nat) :
    (tooLong size limit).2.length = 45 + (Nat.toDigits 10 size).length + (Nat.toDigits 10 limit).length := by
  have hreply : (Bytes.ofText "reply of ").length = 9 := by decide
  have hexceeds : (Bytes.ofText " bytes exceeds the ").length = 19 := by decide
  have hlimit : (Bytes.ofText " byte frame limit").length = 17 := by decide
  change (Bytes.ofText ("reply of " ++ toString size ++ " bytes exceeds the " ++ toString limit ++
    " byte frame limit")).length = _
  simp only [length_ofText_append, length_ofText_toString, hreply, hexceeds, hlimit]
  omega

/-! ## Replies and their frames -/

theorem encode_reply (limit : Nat) (r : Reply) : encode limit (.reply r) =
    if limit < 14 + r.payload.length then .error (.tooLarge (14 + r.payload.length) limit)
    else .ok (frameOf limit (.reply r)) := by
  have hsize : (2 :: (Bytes.ofUInt64 r.id ++ [r.status.code])).length + 4 = 14 := rfl
  have hencode : encode limit (.reply r) =
      if limit < 14 + r.payload.length then .error (.tooLarge (14 + r.payload.length) limit)
      else .ok (Bytes.ofUInt32 (14 + r.payload.length).toUInt32 ++ 2 :: (Bytes.ofUInt64 r.id ++ [r.status.code]) ++
        Bytes.ofUInt32 r.payload.length.toUInt32 ++ r.payload) := by
    simp only [encode, headerBytes, ← hsize]
    rfl
  by_cases hlong : limit < 14 + r.payload.length
  · rw [hencode, if_pos hlong, if_pos hlong]
  · rw [if_neg hlong] at hencode ⊢
    rw [hencode, frameOf_eq hencode]

theorem sendable_reply {limit : Nat} {r : Reply} :
    sendable limit (.reply r) = true ↔ 14 + r.payload.length ≤ limit := by
  unfold sendable
  rw [encode_reply]
  split
  · simp [Except.isOk, Except.toBool]
    omega
  · simp [Except.isOk, Except.toBool]
    omega

theorem encode_of_sendable {limit : Nat} {r : Reply} (h : sendable limit (.reply r) = true) :
    encode limit (.reply r) = .ok (frameOf limit (.reply r)) := by
  rw [encode_reply, if_neg (Nat.not_lt.mpr (sendable_reply.mp h))]

/-- The reply that tells how the work on a request ended. -/
def Effort.replyTo (e : Effort) (id : UInt64) : Reply := ⟨id, e.reply.1, e.reply.2⟩

/-- The reply that tells that a reply is too long. -/
def explanationTo (id : UInt64) (size limit : Nat) : Reply := ⟨id, (tooLong size limit).1, (tooLong size limit).2⟩

/-- The reply to a request on which the work has ended, if there is one that fits. -/
def Effort.answer? (e : Effort) (limit : Nat) (id : UInt64) : Option Reply :=
  let short := explanationTo id (14 + e.reply.2.length) limit
  if sendable limit (.reply (e.replyTo id)) then some (e.replyTo id)
  else if sendable limit (.reply short) then some short
  else none

/-- What goes to the stream as the reply. -/
def Effort.answerBytes (e : Effort) (limit : Nat) (id : UInt64) : Bytes :=
  match e.answer? limit id with
  | some r => frameOf limit (.reply r)
  | none => []

section

variable {e : Effort} {limit : Nat} {id : UInt64} {r : Reply}

theorem answer?_of_sendable (h : sendable limit (.reply (e.replyTo id)) = true) :
    e.answer? limit id = some (e.replyTo id) := by
  simp [Effort.answer?, h]

theorem answer?_of_not_sendable (h : sendable limit (.reply (e.replyTo id)) = false) :
    e.answer? limit id = if sendable limit (.reply (explanationTo id (14 + e.reply.2.length) limit))
      then some (explanationTo id (14 + e.reply.2.length) limit) else none := by
  simp [Effort.answer?, h]

theorem answerBytes_eq (e : Effort) (limit : Nat) (id : UInt64) : e.answerBytes limit id =
    let short := explanationTo id (14 + e.reply.2.length) limit
    if sendable limit (.reply (e.replyTo id)) then frameOf limit (.reply (e.replyTo id))
    else if sendable limit (.reply short) then frameOf limit (.reply short)
    else [] := by
  unfold Effort.answerBytes Effort.answer?
  dsimp only
  by_cases hown : sendable limit (.reply (e.replyTo id)) = true
  · simp only [hown, if_true]
  · by_cases hshort : sendable limit (.reply (explanationTo id (14 + e.reply.2.length) limit)) = true
    · simp only [hown, hshort, if_true, Bool.false_eq_true, if_false]
    · simp only [hown, hshort, Bool.false_eq_true, if_false]

theorem answer?_eq_some (h : e.answer? limit id = some r) : sendable limit (.reply r) = true ∧
    (r = e.replyTo id ∨ r = explanationTo id (14 + e.reply.2.length) limit) := by
  unfold Effort.answer? at h
  dsimp only at h
  split at h
  · obtain rfl := Option.some.inj h
    exact ⟨‹_›, .inl rfl⟩
  · split at h
    · obtain rfl := Option.some.inj h
      exact ⟨‹_›, .inr rfl⟩
    · cases h

theorem id_of_answer? (h : e.answer? limit id = some r) : r.id = id := by
  rcases (answer?_eq_some h).2 with rfl | rfl <;> rfl

/-- Only what a handler returned is sent as a success, and as it is. -/
theorem returned_of_answer? (h : e.answer? limit id = some r) (hok : r.status = .ok) : e = .returned r.payload := by
  rcases (answer?_eq_some h).2 with rfl | rfl
  · cases e with
    | returned payload => rfl
    | failed text => cases hok
    | brokeOff => cases hok
  · cases hok

/-- Numbers of 64 bits leave room for the explanation from 99 bytes on. -/
theorem answer?_ne_none (hlimit : 99 ≤ limit) (hwide : limit < 2 ^ 64) (hsize : 14 + e.reply.2.length < 2 ^ 64) :
    e.answer? limit id ≠ none := by
  intro hnone
  cases hown : sendable limit (.reply (e.replyTo id)) with
  | true => simp [answer?_of_sendable hown] at hnone
  | false =>
    have hshort : sendable limit (.reply (explanationTo id (14 + e.reply.2.length) limit)) = true := by
      have hdigits := length_toDigits_le hsize
      have hdigits' := length_toDigits_le hwide
      have hlength := length_tooLong (14 + e.reply.2.length) limit
      rw [sendable_reply, explanationTo]
      dsimp only
      omega
    simp [answer?_of_not_sendable hown, hshort] at hnone

theorem encode_of_answer? (h : e.answer? limit id = some r) :
    encode limit (.reply r) = .ok (e.answerBytes limit id) := by
  rw [encode_of_sendable (answer?_eq_some h).1]
  simp only [Effort.answerBytes, h]

theorem decode_answerBytes (h : e.answer? limit id = some r) (hlimit : limit < 2 ^ 32) (rest : Bytes) :
    decode limit (e.answerBytes limit id ++ rest) = .ok (.reply r, (e.answerBytes limit id).length) :=
  have hencode := encode_of_answer? h
  decode_of_encode hencode (expressible_of_limit hlimit _ _ hencode) rest

end

/-- What goes to the stream for the outcome of a request, and how a reader takes it. -/
structure SoundAnswer (e : Effort) (limit : Nat) (id : UInt64) : Prop where
  /-- The outcome itself, if its frame is not too long. -/
  own : 14 + e.reply.2.length ≤ limit → e.answer? limit id = some ⟨id, e.reply.1, e.reply.2⟩
  /-- If it is, a failure that names its size and the limit, if that is not too long either. -/
  instead : limit < 14 + e.reply.2.length → e.answer? limit id =
    let text := Bytes.ofText s!"reply of {14 + e.reply.2.length} bytes exceeds the {limit} byte frame limit"
    if 14 + text.length ≤ limit then some ⟨id, .handlerFailed, text⟩ else none
  sameId : ∀ r, e.answer? limit id = some r → r.id = id
  success : ∀ r, e.answer? limit id = some r → r.status = .ok → e = .returned r.payload
  /-- As long as sizes have 64 bits, a limit of 99 bytes is enough. -/
  always : 99 ≤ limit → limit < 2 ^ 64 → 14 + e.reply.2.length < 2 ^ 64 → e.answer? limit id ≠ none
  silent : e.answer? limit id = none → e.answerBytes limit id = []
  framed : ∀ r, e.answer? limit id = some r → encode limit (.reply r) = .ok (e.answerBytes limit id)
  /-- A reader finds the reply in front of whatever comes after it. -/
  readBack : limit < 2 ^ 32 → ∀ r, e.answer? limit id = some r → ∀ rest,
    decode limit (e.answerBytes limit id ++ rest) = .ok (.reply r, (e.answerBytes limit id).length)

theorem soundAnswer (e : Effort) (limit : Nat) (id : UInt64) : SoundAnswer e limit id where
  own h := answer?_of_sendable (sendable_reply.mpr h)
  instead h := by
    have hlong : sendable limit (.reply (e.replyTo id)) = false := by
      rw [Bool.eq_false_iff, Ne, sendable_reply]
      exact Nat.not_le.mpr h
    rw [answer?_of_not_sendable hlong]
    simp only [sendable_reply]
    rfl
  sameId _ := id_of_answer?
  success _ := returned_of_answer?
  always := answer?_ne_none
  silent h := by simp only [Effort.answerBytes, h]
  framed _ := encode_of_answer?
  readBack hlimit _ h := decode_answerBytes h hlimit

/-- A lower limit may leave no room: a reply of 99 bytes is explained in 63 bytes. -/
example : (Effort.returned (List.replicate 85 0)).answer? 62 7 = none ∧
    (Effort.returned (List.replicate 85 0)).answer? 63 7 = some (explanationTo 7 99 63) := by
  decide

end ClusterNet.Messaging
