import ClusterNet.Config.Basic
import ClusterNet.Proofs.Frame

/-!
# Length fields

The two lengths in a frame are written in four bytes each, whatever they are. They are right as long as
the frame is below the range of four bytes, which only the limit for frames can see to: a configuration
may set any limit but zero. Beyond the range another message is read.
-/

namespace ClusterNet.Wire

variable {limit : Nat} {m : Message} {frame : Bytes} {c : Config}

/-- The first four bytes say how many follow, and the four before the payload how long it is. -/
def Lossless (m : Message) (frame : Bytes) : Prop :=
  ∃ size header count, frame = Bytes.ofUInt32 size ++ (header ++ (Bytes.ofUInt32 count ++ m.payload)) ∧
    frame.length = 4 + size.toNat ∧ count.toNat = m.payload.length

theorem toNat_toUInt32 {n : Nat} (h : n < 2 ^ 32) : n.toUInt32.toNat = n := by
  simp
  omega

theorem lossless_iff_length (h : encode limit m = .ok frame) : Lossless m frame ↔ frame.length < 2 ^ 32 + 4 := by
  constructor
  · rintro ⟨size, -, -, -, hlength, -⟩
    have hsize := size.toNat_lt
    omega
  · intro hlt
    obtain ⟨header, -, -, rfl⟩ := encode_eq_ok.mp h
    simp only [List.length_append, Bytes.length_ofUInt32] at hlt
    refine ⟨_, header, _, rfl, ?_, toNat_toUInt32 (by omega)⟩
    rw [toNat_toUInt32 (by omega)]
    simp only [List.length_append, Bytes.length_ofUInt32]
    omega

/-- The other side reads such a frame to its end exactly if its length fields are right. -/
theorem decode_iff_lossless (h : encode limit m = .ok frame) (rest : Bytes) :
    decode limit (frame ++ rest) = .ok (canonical m, frame.length) ↔ Lossless m frame := by
  rw [lossless_iff_length h]
  constructor
  · intro hdecode
    obtain ⟨frame', _, -, hlength, -, hlt, -⟩ := decode_eq_ok.mp hdecode
    omega
  · intro hlt
    exact decode_of_encode h hlt rest

/-! ## Replies that are as long as one likes -/

theorem encode_reply (id : UInt64) (status : Status) {payload : Bytes} (h : 14 + payload.length ≤ limit) :
    encode limit (.reply ⟨id, status, payload⟩) = .ok
      (Bytes.ofUInt32 (14 + payload.length).toUInt32 ++ ((2 :: (Bytes.ofUInt64 id ++ [status.code])) ++
        (Bytes.ofUInt32 payload.length.toUInt32 ++ payload))) := by
  refine encode_eq_ok.mpr ⟨_, headerBytes_reply.mpr rfl, ?_, ?_⟩
  · simpa [Message.payload, Bytes.length_ofUInt64] using h
  · simp [Message.payload, Bytes.length_ofUInt64]

theorem exists_zeros (n : Nat) : ∃ b : Bytes, b.length = n ∧ ∀ x ∈ b, x = 0 :=
  ⟨List.replicate n 0, List.length_replicate, fun _ => List.eq_of_mem_replicate⟩

theorem limit_lt_of_lossless (h : ∀ m frame, encode limit m = .ok frame → Lossless m frame) : limit < 2 ^ 32 := by
  by_contra hlimit
  obtain ⟨payload, hlength, -⟩ := exists_zeros (2 ^ 32 - 14)
  have hencode := encode_reply 0 .ok (show 14 + payload.length ≤ limit by omega)
  have hlt := (lossless_iff_length hencode).mp (h _ _ hencode)
  simp [hlength] at hlt

/-! ## Payloads beyond the range -/

/-- The message without its payload. -/
def Message.emptied : Message → Message
  | .request r => .request { r with payload := [] }
  | .reply r => .reply { r with payload := [] }

/-- With 4 GiB of payload the length fields are the ones of the message without it, whose frame comes first. -/
theorem encode_of_emptied (h : encode limit m.emptied = .ok frame) (hlength : m.payload.length = 2 ^ 32)
    (hlimit : frame.length + 2 ^ 32 ≤ limit + 4) : encode limit m = .ok (frame ++ m.payload) := by
  obtain ⟨header, hheader, -, rfl⟩ := encode_eq_ok.mp h
  have hnone : m.emptied.payload = [] := by cases m <;> rfl
  have hsame : headerBytes m = headerBytes m.emptied := by cases m <;> rfl
  rw [hnone] at hlimit ⊢
  refine encode_eq_ok.mpr ⟨header, hsame.trans hheader, ?_, ?_⟩
  · simp only [List.length_append, Bytes.length_ofUInt32, List.length_nil] at hlimit
    omega
  · have hcount : m.payload.length.toUInt32 = ([] : Bytes).length.toUInt32 := by
      rw [hlength]
      decide
    have hsize : (header.length + 4 + m.payload.length).toUInt32 =
        (header.length + 4 + ([] : Bytes).length).toUInt32 := by
      rw [hlength]
      simp
    rw [hcount, hsize]
    simp only [List.append_assoc, List.nil_append]

/-- Bytes that ask for as many more as four bytes can say, of which three are missing. -/
theorem exists_stray {limit : Nat} (hlimit : 2 ^ 32 ≤ limit) : ∃ b : Bytes, b.length = 2 ^ 32 ∧
    decode limit b = .error (.insufficient (2 ^ 32 + 3) (2 ^ 32)) := by
  obtain ⟨zeros, hlength, -⟩ := exists_zeros (2 ^ 32 - 4)
  have hsize : (Bytes.toUInt32 255 255 255 255).toNat = 2 ^ 32 - 1 := by decide
  refine ⟨255 :: 255 :: 255 :: 255 :: zeros, by simp [hlength], ?_⟩
  rw [decode_cons, hsize, hlength, if_neg (by omega), if_pos (by omega)]
  norm_num

/-! ## Limits that a configuration may set -/

theorem flaw?_eq_none : c.flaw? = none ↔ Config.isBlankText c.clusterId = false ∧
    c.node.id.any Config.isBlankText = false ∧ c.messaging.poolSize ≠ 0 ∧
    (c.messaging.connectTimeout ≠ 0 ∧ c.messaging.requestTimeout ≠ 0) ∧
    (c.messaging.maxFrame ≠ 0 ∧ c.messaging.queueSize ≠ 0) ∧ c.syncInterval ≠ 0 := by
  have hif {p : Prop} [Decidable p] (x : Config.Flaw) (y : Option Config.Flaw) :
      (if p then some x else y) = none ↔ ¬ p ∧ y = none := by
    split <;> simp [*]
  simp only [Config.flaw?, hif, not_or, Bool.not_eq_true, ne_eq, and_true]

theorem flaw?_withMaxFrame (h : c.flaw? = none) {n : UInt64} (hn : n ≠ 0) :
    ({ c with messaging := { c.messaging with maxFrame := n } } : Config).flaw? = none := by
  obtain ⟨hcluster, hnode, hpool, htimeouts, hroom, hinterval⟩ := flaw?_eq_none.mp h
  exact flaw?_eq_none.mpr ⟨hcluster, hnode, hpool, htimeouts, ⟨hn, hroom.2⟩, hinterval⟩

theorem length_fields_of_valid_config (h : c.flaw? = none) :
    (∀ m frame, encode c.messaging.maxFrame.toNat m = .ok frame →
      (Lossless m frame ↔ frame.length < 2 ^ 32 + 4) ∧
      ∀ rest, decode c.messaging.maxFrame.toNat (frame ++ rest) = .ok (canonical m, frame.length) ↔
        Lossless m frame) ∧
    ((∀ m frame, encode c.messaging.maxFrame.toNat m = .ok frame → Lossless m frame) ↔
      c.messaging.maxFrame.toNat < 2 ^ 32) ∧
    ∀ n ≠ 0, ({ c with messaging := { c.messaging with maxFrame := n } } : Config).flaw? = none := by
  refine ⟨fun m frame hencode => ⟨lossless_iff_length hencode, decode_iff_lossless hencode⟩,
    ⟨limit_lt_of_lossless, fun hlimit m frame hencode => ?_⟩, fun n => flaw?_withMaxFrame h⟩
  have hle := (length_of_encode hencode).2
  exact (lossless_iff_length hencode).mpr (by omega)

theorem length_fields_of_default :
    ({} : Config).flaw? = none ∧ ∀ m frame, encode 67108864 m = .ok frame → Lossless m frame :=
  have h : ({} : Config).flaw? = none := by decide +kernel
  ⟨h, (length_fields_of_valid_config h).2.1.mpr (by decide)⟩

/-- A configuration whose limit is twice the range of four bytes. -/
def wide : Config := { messaging := { maxFrame := 8589934592 } }

/-- A reply with 4 GiB of zeros is sent under that limit. The other side reads a reply with nothing in
it, and takes the zeros for what comes next. -/
theorem a_long_reply_is_read_as_an_empty_one :
    wide.flaw? = none ∧ ∃ payload frame, payload.length = 2 ^ 32 ∧ (∀ b ∈ payload, b = 0) ∧
      encode wide.messaging.maxFrame.toNat (.reply ⟨9, .ok, payload⟩) = .ok frame ∧
      ¬ Lossless (.reply ⟨9, .ok, payload⟩) frame ∧
      decode wide.messaging.maxFrame.toNat frame = .ok (.reply ⟨9, .ok, []⟩, 18) := by
  have hlimit : wide.messaging.maxFrame.toNat = 2 ^ 33 := by decide
  obtain ⟨payload, hlength, hzeros⟩ := exists_zeros (2 ^ 32)
  have hempty := encode_reply 9 .ok (show 14 + ([] : Bytes).length ≤ wide.messaging.maxFrame.toNat by decide)
  have hlong := encode_of_emptied (m := .reply ⟨9, .ok, payload⟩) hempty hlength (by rw [hlimit]; decide)
  refine ⟨by decide +kernel, payload, _, hlength, hzeros, hlong, ?_, decode_of_encode hempty (by simp) payload⟩
  rw [lossless_iff_length hlong]
  simp [Message.payload, hlength]

end ClusterNet.Wire
