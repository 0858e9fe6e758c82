import ClusterNet.Proofs.Frame

/-!
# Frames written in place

A frame is written at the end of a buffer before it is known whether it may be sent: the length comes
last and goes over zeros at the front, and what turns out wrong on the way cuts the buffer back to
where it was. Either a whole frame is appended or nothing is, and nothing is ever read, cut or written
outside the buffer.
-/

namespace ClusterNet.Wire

/-! ## With a header and without -/

theorem headerBytes_request_error {r : Request} {e : FrameFault} (h : headerBytes (.request r) = .error e) :
    r.sender.ip? = none ∧ e = .unresolved r.sender ∨
      (∃ ip, r.sender.ip? = some ip) ∧ subjectLimit < (Bytes.ofText r.subject).length ∧
        e = .subjectTooLong (Bytes.ofText r.subject).length := by
  unfold headerBytes at h
  dsimp only at h
  cases hip : r.sender.ip? with
  | none =>
    rw [hip] at h
    exact .inl ⟨rfl, (Except.error.inj h).symm⟩
  | some ip =>
    rw [hip] at h
    dsimp only at h
    split at h
    · rename_i hlong
      exact .inr ⟨⟨ip, rfl⟩, hlong, (Except.error.inj h).symm⟩
    · cases h

theorem encode_of_header_error (limit : Nat) {m : Message} {e : FrameFault} (h : headerBytes m = .error e) :
    encode limit m = .error e := by
  rw [encode, h]
  rfl

theorem encode_of_header (limit : Nat) {m : Message} {header : Bytes} (h : headerBytes m = .ok header) :
    encode limit m = if limit < header.length + 4 + m.payload.length then
        .error (.tooLarge (header.length + 4 + m.payload.length) limit)
      else .ok (Bytes.ofUInt32 (header.length + 4 + m.payload.length).toUInt32 ++ header ++
        Bytes.ofUInt32 m.payload.length.toUInt32 ++ m.payload) := by
  rw [encode, h]
  rfl

/-! ## Writing in place -/

/-- Writes at the end of a buffer. A fault leaves behind what was written before it; without any
result, something outside the buffer was reached for. -/
abbrev Writing := ExceptT FrameFault (StateT Bytes Option)

namespace Writing

def outside {A : Type} : Writing A := ExceptT.lift (StateT.lift none)

def written : Writing Nat := do return (← get).length

def put (b : Bytes) : Writing Unit := modify (· ++ b)

/-- Cuts the buffer back. -/
def truncate (n : Nat) : Writing Unit := modify (·.take n)

/-- Writes over some bytes of the buffer. -/
def patch (start : Nat) (b : Bytes) : Writing Unit := do
  let dst ← get
  if start + b.length ≤ dst.length then set (dst.take start ++ (b ++ dst.drop (start + b.length)))
  else outside

/-- A difference of lengths, which is none if it is negative. -/
def minus (n m : Nat) : Writing Nat := if m ≤ n then pure (n - m) else outside

/-- Cuts the buffer back to `start` and fails. -/
def refuse (start : Nat) (e : FrameFault) : Writing Unit := do
  truncate start
  throw e

def refuseIf (c : Prop) [Decidable c] (start : Nat) (e : FrameFault) : Writing Unit :=
  if c then refuse start e else pure ()

def sender (a : Address) : Writing Unit :=
  match a.ip? with
  | none => throw (.unresolved a)
  | some ip => do
    put [ip.octets.length.toUInt8]
    put ip.octets
    put (Bytes.ofUInt32 a.port.toUInt32)

/-- What stands between the length of a frame that begins at `start` and its payload. -/
def header (start : Nat) : Message → Writing Unit
  | .request r => do
    put [1]
    put (Bytes.ofUInt64 r.id)
    tryCatch (sender r.sender) (refuse start)
    let subject := Bytes.ofText r.subject
    refuseIf (subjectLimit < subject.length) start (.subjectTooLong subject.length)
    put (Bytes.ofUInt16 subject.length.toUInt16)
    put subject
  | .reply r => do
    put [2]
    put (Bytes.ofUInt64 r.id)
    put [r.status.code]

/-- Appends the frame of a message. -/
def frame (limit : Nat) (m : Message) : Writing Unit := do
  let start ← written
  put (Bytes.ofUInt32 0)
  header start m
  let size := (← minus (← minus (← written) start) 4) + 4 + m.payload.length
  refuseIf (limit < size) start (.tooLarge size limit)
  put (Bytes.ofUInt32 m.payload.length.toUInt32)
  put m.payload
  patch start (Bytes.ofUInt32 size.toUInt32)

/-! ## One step after the other -/

/-- Started with the buffer `dst`, the writer ends with the result `r` and leaves `out`. -/
def Runs {A : Type} (w : Writing A) (dst : Bytes) (r : Except FrameFault A) (out : Bytes) : Prop :=
  w.run.run dst = some (r, out)

variable {A B : Type} {w : Writing A} {f : A → Writing B} {a : A} {r : Except FrameFault B} {e : FrameFault}
  {dst mid out b : Bytes} {n k start : Nat}

theorem Runs.bind (h : Runs w dst (.ok a) mid) (hf : Runs (f a) mid r out) : Runs (w >>= f) dst r out := by
  rw [Runs, ExceptT.run_bind, StateT.run_bind, h]
  exact hf

theorem Runs.bind_error (h : Runs w dst (.error e) mid) : Runs (w >>= f) dst (.error e) mid := by
  rw [Runs, ExceptT.run_bind, StateT.run_bind, h]
  rfl

theorem runs_pure (a : A) (dst : Bytes) : Runs (pure a) dst (.ok a) dst := rfl

theorem runs_written (dst : Bytes) : Runs written dst (.ok dst.length) dst := rfl

theorem runs_put (b dst : Bytes) : Runs (put b) dst (.ok ()) (dst ++ b) := rfl

theorem runs_refuse (e : FrameFault) (hcut : dst.take start = out) : Runs (refuse start e) dst (.error e) out :=
  hcut ▸ rfl

theorem runs_minus (h : k ≤ n) (dst : Bytes) : Runs (minus n k) dst (.ok (n - k)) dst := by
  rw [minus, if_pos h]
  exact runs_pure _ _

theorem runs_patch {lead old rest : Bytes} (h : old.length = b.length) :
    Runs (patch lead.length b) (lead ++ (old ++ rest)) (.ok ()) (lead ++ (b ++ rest)) := by
  have hroom : lead.length + b.length ≤ (lead ++ (old ++ rest)).length := by
    rw [List.length_append, List.length_append, h]
    omega
  have hdrop : (lead ++ (old ++ rest)).drop (lead.length + b.length) = rest := by
    rw [← h]
    simp
  have hset (out : Bytes) : Runs (set out) (lead ++ (old ++ rest)) (.ok ()) out := rfl
  refine (show Runs get _ (.ok _) _ from rfl).bind ?_
  rw [if_pos hroom, List.take_left, hdrop]
  exact hset _

theorem runs_refuseIf {c : Prop} [Decidable c] (hc : c) (e : FrameFault) (hcut : dst.take start = out) :
    Runs (refuseIf c start e) dst (.error e) out := by
  rw [refuseIf, if_pos hc]
  exact runs_refuse e hcut

theorem runs_refuseIf_not {c : Prop} [Decidable c] (hc : ¬ c) (e : FrameFault) (start : Nat) (dst : Bytes) :
    Runs (refuseIf c start e) dst (.ok ()) dst := by
  rw [refuseIf, if_neg hc]
  exact runs_pure () dst

theorem runs_rescue {w : Writing Unit} (h : Runs w dst (.ok ()) mid) (start : Nat) :
    Runs (tryCatch w (refuse start)) dst (.ok ()) mid := by
  rw [Runs, ExceptT.run_tryCatch, StateT.run_bind, h]
  rfl

theorem runs_rescue_error {w : Writing Unit} (h : Runs w dst (.error e) mid) (hcut : mid.take start = out) :
    Runs (tryCatch w (refuse start)) dst (.error e) out := by
  rw [Runs, ExceptT.run_tryCatch, StateT.run_bind, h]
  exact runs_refuse e hcut

/-! ## The parts of a frame -/

section

variable {m : Message} {ip : Ip} {s : Address}

theorem runs_sender (h : s.ip? = some ip) (dst : Bytes) :
    Runs (sender s) dst (.ok ()) (dst ++ senderBytes s ip) := by
  have hbytes : dst ++ senderBytes s ip =
      dst ++ [ip.octets.length.toUInt8] ++ ip.octets ++ Bytes.ofUInt32 s.port.toUInt32 := by
    simp [senderBytes]
  unfold sender
  rw [h, hbytes]
  exact (runs_put _ _).bind ((runs_put _ _).bind (runs_put _ _))

theorem runs_sender_unresolved (h : s.ip? = none) (dst : Bytes) :
    Runs (sender s) dst (.error (.unresolved s)) dst := by
  unfold sender
  rw [h]
  rfl

theorem runs_header {bytes : Bytes} (h : headerBytes m = .ok bytes) (start : Nat) (dst : Bytes) :
    Runs (header start m) dst (.ok ()) (dst ++ bytes) := by
  cases m with
  | request r =>
    obtain ⟨ip, hip, hsubject, rfl⟩ := headerBytes_request.mp h
    have hbytes : dst ++ 1 :: (Bytes.ofUInt64 r.id ++ senderBytes r.sender ip ++
          Bytes.ofUInt16 (Bytes.ofText r.subject).length.toUInt16 ++ Bytes.ofText r.subject) =
        dst ++ [1] ++ Bytes.ofUInt64 r.id ++ senderBytes r.sender ip ++
          Bytes.ofUInt16 (Bytes.ofText r.subject).length.toUInt16 ++ Bytes.ofText r.subject := by
      simp
    rw [hbytes]
    exact (runs_put _ _).bind <| (runs_put _ _).bind <| (runs_rescue (runs_sender hip _) _).bind <|
      (runs_refuseIf_not (Nat.not_lt.mpr hsubject) _ _ _).bind <| (runs_put _ _).bind (runs_put _ _)
  | reply r =>
    obtain rfl := headerBytes_reply.mp h
    have hbytes : dst ++ 2 :: (Bytes.ofUInt64 r.id ++ [r.status.code]) =
        dst ++ [2] ++ Bytes.ofUInt64 r.id ++ [r.status.code] := by
      simp
    rw [hbytes]
    exact (runs_put _ _).bind ((runs_put _ _).bind (runs_put _ _))

theorem runs_header_error {e : FrameFault} (h : headerBytes m = .error e) (buffer lead : Bytes) :
    Runs (header buffer.length m) (buffer ++ lead) (.error e) buffer := by
  cases m with
  | request r =>
    obtain ⟨hip, rfl⟩ | ⟨⟨ip, hip⟩, hlong, rfl⟩ := headerBytes_request_error h
    · have hrefused : Runs (tryCatch (sender r.sender) (refuse buffer.length))
          (buffer ++ lead ++ [1] ++ Bytes.ofUInt64 r.id) (.error (.unresolved r.sender)) buffer :=
        runs_rescue_error (runs_sender_unresolved hip _) (by simp)
      exact (runs_put _ _).bind <| (runs_put _ _).bind hrefused.bind_error
    · exact (runs_put _ _).bind <| (runs_put _ _).bind <| (runs_rescue (runs_sender hip _) _).bind
        (runs_refuseIf hlong _ (by simp)).bind_error
  | reply r => cases h

/-- Writing in place does what appending the whole frame, or nothing, does. -/
theorem runs_frame (limit : Nat) (buffer : Bytes) (m : Message) :
    Runs (frame limit m) buffer (encodeOnto limit buffer m).2 (encodeOnto limit buffer m).1 := by
  refine (runs_written buffer).bind <| (runs_put _ _).bind ?_
  cases hheader : headerBytes m with
  | error e =>
    simp only [encodeOnto, encode_of_header_error limit hheader]
    exact (runs_header_error hheader buffer _).bind_error
  | ok h =>
    -- what was written so far is the zeros for the length, and the header
    have hsize : (buffer ++ Bytes.ofUInt32 0 ++ h).length - buffer.length - 4 = h.length := by
      simp
    have hencode := encode_of_header limit hheader
    refine (runs_header hheader _ _).bind <| (runs_written _).bind <|
      (runs_minus (by simp) _).bind <| (runs_minus (by simp) _).bind ?_
    rw [hsize]
    by_cases hlimit : limit < h.length + 4 + m.payload.length
    · rw [if_pos hlimit] at hencode
      simp only [encodeOnto, hencode]
      exact (runs_refuseIf hlimit _ (by simp)).bind_error
    · rw [if_neg hlimit] at hencode
      simp only [encodeOnto, hencode]
      refine (runs_refuseIf_not hlimit _ _ _).bind <| (runs_put _ _).bind <| (runs_put _ _).bind ?_
      have hpatched : Runs (patch buffer.length (Bytes.ofUInt32 (h.length + 4 + m.payload.length).toUInt32))
          (buffer ++ (Bytes.ofUInt32 0 ++ (h ++ (Bytes.ofUInt32 m.payload.length.toUInt32 ++ m.payload)))) (.ok ())
          (buffer ++ (Bytes.ofUInt32 (h.length + 4 + m.payload.length).toUInt32 ++
            (h ++ (Bytes.ofUInt32 m.payload.length.toUInt32 ++ m.payload)))) := runs_patch rfl
      simpa only [List.append_assoc] using hpatched

end

end Writing

/-! ## What can be sent -/

/-- The sender is an IP literal, and the length of the subject fits in two bytes. -/
def Sendable : Message → Prop
  | .request r => r.sender.ip?.isSome ∧ (Bytes.ofText r.subject).length ≤ subjectLimit
  | .reply _ => True

/-- What the length field of a frame counts: tag and id, what is special to requests and replies, and
the payload with its length. -/
def frameSize : Message → Nat
  | .request r => 9 + (1 + (r.sender.ip?.elim 0 fun ip => ip.octets.length) + 4) +
      (2 + (Bytes.ofText r.subject).length) + (4 + r.payload.length)
  | .reply r => 9 + 1 + (4 + r.payload.length)

/-- Why a message has no frame under a limit. The sender is looked at first and the size last. -/
inductive Refused (limit : Nat) : Message → FrameFault → Prop where
  | unresolved (r : Request) (name : r.sender.ip? = none) : Refused limit (.request r) (.unresolved r.sender)
  | subject (r : Request) (literal : r.sender.ip?.isSome)
      (long : subjectLimit < (Bytes.ofText r.subject).length) :
      Refused limit (.request r) (.subjectTooLong (Bytes.ofText r.subject).length)
  | size (m : Message) (sendable : Sendable m) (big : limit < frameSize m) :
      Refused limit m (.tooLarge (frameSize m) limit)

variable {limit : Nat} {m : Message} {e : FrameFault} {h frame : Bytes}

theorem length_senderBytes (a : Address) (ip : Ip) : (senderBytes a ip).length = 1 + ip.octets.length + 4 := by
  simp [senderBytes]
  omega

theorem headerBytes_ok (hheader : headerBytes m = .ok h) :
    Sendable m ∧ h.length + 4 + m.payload.length = frameSize m := by
  cases m with
  | request r =>
    obtain ⟨ip, hip, hsubject, rfl⟩ := headerBytes_request.mp hheader
    refine ⟨⟨by rw [hip]; rfl, hsubject⟩, ?_⟩
    simp only [frameSize, hip, Option.elim_some, List.length_cons, List.length_append, Bytes.length_ofUInt64,
      Bytes.length_ofUInt16, length_senderBytes, Message.payload]
    omega
  | reply r =>
    obtain rfl := headerBytes_reply.mp hheader
    refine ⟨trivial, ?_⟩
    simp only [frameSize, List.length_cons, List.length_append, List.length_nil, Bytes.length_ofUInt64,
      Message.payload]
    omega

theorem headerBytes_error (hheader : headerBytes m = .error e) (limit : Nat) : ¬ Sendable m ∧ Refused limit m e := by
  cases m with
  | request r =>
    obtain ⟨hip, rfl⟩ | ⟨⟨ip, hip⟩, hlong, rfl⟩ := headerBytes_request_error hheader
    · refine ⟨fun hsendable => ?_, .unresolved r hip⟩
      have hliteral := hsendable.1
      rw [hip] at hliteral
      cases hliteral
    · exact ⟨fun hsendable => Nat.not_le.mpr hlong hsendable.2, .subject r (by rw [hip]; rfl) hlong⟩
  | reply r => cases hheader

/-- Either there is a frame, of the size that the parts of the message add up to, or there is a reason
why there is none. -/
theorem encode_cases (limit : Nat) (m : Message) :
    (∃ frame, encode limit m = .ok frame ∧ Sendable m ∧ frameSize m ≤ limit ∧ frame.length = 4 + frameSize m) ∨
      ∃ e, encode limit m = .error e ∧ Refused limit m e ∧ ¬ (Sendable m ∧ frameSize m ≤ limit) := by
  cases hheader : headerBytes m with
  | error e =>
    obtain ⟨hsendable, hrefused⟩ := headerBytes_error hheader limit
    exact .inr ⟨e, encode_of_header_error limit hheader, hrefused, fun h => hsendable h.1⟩
  | ok h =>
    obtain ⟨hsendable, hsize⟩ := headerBytes_ok hheader
    by_cases hlimit : frameSize m ≤ limit
    · have hencode := encode_eq_ok.mpr ⟨h, hheader, hsize ▸ hlimit, rfl⟩
      refine .inl ⟨_, hencode, hsendable, hlimit, ?_⟩
      simp only [List.length_append, Bytes.length_ofUInt32]
      omega
    · refine .inr ⟨.tooLarge (frameSize m) limit, ?_, .size m hsendable (Nat.not_le.mp hlimit),
        fun h => hlimit h.2⟩
      rw [encode_of_header limit hheader, hsize, if_pos (Nat.not_le.mp hlimit)]

/-- Under a limit below 2^32, writing a message at the end of a buffer appends its frame or leaves the
buffer as it was. It does the first exactly for messages that can be sent and whose frame is not longer
than the limit, and what it appends is read back under the same limit, whatever follows. No frame that
is longer than the limit is read at all. -/
theorem writing_is_all_or_nothing (hlimit : limit < 2 ^ 32) :
    (∀ m buffer, ∃ r out, (Writing.frame limit m).run.run buffer = some (r, out) ∧
      encodeOnto limit buffer m = (out, r) ∧
      (r = .ok () ↔ Sendable m ∧ frameSize m ≤ limit) ∧
      (r = .ok () → ∃ frame, out = buffer ++ frame ∧ frame.length = 4 + frameSize m ∧
        ∀ rest, decode limit (frame ++ rest) = .ok (canonical m, frame.length)) ∧
      ∀ e, r = .error e → out = buffer ∧ Refused limit m e) ∧
    ∀ src m n, decode limit src = .ok (m, n) → 4 ≤ n ∧ n - 4 ≤ limit := by
  constructor
  · intro m buffer
    have hrun := Writing.runs_frame limit buffer m
    obtain ⟨frame, hencode, hsendable, hle, hlength⟩ | ⟨e, hencode, hrefused, hnot⟩ := encode_cases limit m
    · have honto : encodeOnto limit buffer m = (buffer ++ frame, .ok ()) :=
        encodeOnto_eq_ok.mpr ⟨frame, hencode, rfl⟩
      rw [honto] at hrun
      refine ⟨.ok (), buffer ++ frame, hrun, honto, iff_of_true rfl ⟨hsendable, hle⟩, fun _ => ?_, fun e he => ?_⟩
      · exact ⟨frame, rfl, hlength, decode_of_encode hencode (by omega)⟩
      · cases he
    · have honto : encodeOnto limit buffer m = (buffer, .error e) := by
        rw [encodeOnto, hencode]
      rw [honto] at hrun
      have hfailed : (.error e : Except FrameFault Unit) ≠ .ok () := by simp
      refine ⟨.error e, buffer, hrun, honto, iff_of_false hfailed hnot, fun hok => absurd hok hfailed,
        fun e' he => ⟨rfl, ?_⟩⟩
      rwa [← Except.error.inj he]
  · intro src m n h
    obtain ⟨frame, rest, rfl, rfl, -, -, hframe⟩ := decode_eq_ok.mp h
    obtain ⟨hfour, hle⟩ := length_of_encode hframe
    exact ⟨hfour, by omega⟩

theorem writing_is_all_or_nothing_reply :
    13 < 2 ^ 32 ∧ ∃ e, (Writing.frame 13 (.reply ⟨9, .ok, [1]⟩)).run.run [7] = some (.error e, [7]) := by
  have hlimit : 13 < 2 ^ 32 := by decide
  obtain ⟨r, out, hrun, -, hok, -, herror⟩ := (writing_is_all_or_nothing hlimit).1 (.reply ⟨9, .ok, [1]⟩) [7]
  refine ⟨hlimit, ?_⟩
  cases r with
  | ok u => exact absurd (hok.mp rfl).2 (by decide)
  | error e => exact ⟨e, by rw [hrun, (herror e rfl).1]⟩

end ClusterNet.Wire
