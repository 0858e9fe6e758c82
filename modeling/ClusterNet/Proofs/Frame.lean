import ClusterNet.Proofs.IpText
import ClusterNet.Wire.Frame

/-!
# Frames are canonical

Every reader takes exactly what the writer of the same field gives, so a frame can be read if
and only if it is the frame of the message that is read from it.
-/

namespace ClusterNet

namespace Ip

theorem ofOctets?_octets (ip : Ip) : ofOctets? ip.octets = some ip := by
  cases ip with
  | v4 q => rfl
  | v6 g =>
    simp only [octets, Ipv6.octets, Ipv6.groups, List.flatMap_cons, List.flatMap_nil, Bytes.ofUInt16,
      List.cons_append, List.nil_append, ofOctets?, Bytes.toUInt16_ofUInt16]

theorem octets_of_ofOctets? {b : Bytes} {ip : Ip} (h : ofOctets? b = some ip) : ip.octets = b := by
  simp only [ofOctets?] at h
  split at h
  · obtain rfl := Option.some.inj h
    rfl
  · obtain rfl := Option.some.inj h
    simp only [octets, Ipv6.octets, Ipv6.groups, List.flatMap_cons, List.flatMap_nil,
      Bytes.ofUInt16_toUInt16, List.cons_append, List.nil_append]
  · simp at h

theorem length_octets (ip : Ip) : ip.octets.length = 4 ∨ ip.octets.length = 16 := by
  cases ip with
  | v4 q => exact .inl rfl
  | v6 g => exact .inr rfl

end Ip

namespace Wire

theorem bind_eq_ok {E A B : Type} {x : Except E A} {f : A → Except E B} {b : B} :
    (x >>= f) = .ok b ↔ ∃ a, x = .ok a ∧ f a = .ok b := by
  cases x <;> simp [bind, Except.bind]

/-! ## Fields -/

theorem take_eq_ok {n : Nat} {b a rest : Bytes} :
    take n b = .ok (a, rest) ↔ b = a ++ rest ∧ a.length = n := by
  rw [take]
  constructor
  · intro h
    split at h
    · simp at h
    · simp only [List.splitAt_eq, Except.ok.injEq, Prod.mk.injEq] at h
      obtain ⟨rfl, rfl⟩ := h
      refine ⟨(List.take_append_drop n b).symm, ?_⟩
      simp
      omega
  · rintro ⟨rfl, rfl⟩
    simp [List.splitAt_eq]

theorem takeUInt8_eq_ok {b rest : Bytes} {x : UInt8} : takeUInt8 b = .ok (x, rest) ↔ b = x :: rest := by
  rw [takeUInt8, bind_eq_ok]
  constructor
  · rintro ⟨⟨a, c⟩, ha, h⟩
    rw [take_eq_ok] at ha
    obtain ⟨rfl, hlen⟩ := ha
    match a, hlen with
    | [y], _ => simpa using h
  · rintro rfl
    exact ⟨([x], rest), take_eq_ok.mpr ⟨rfl, rfl⟩, rfl⟩

theorem takeUInt16_eq_ok {b rest : Bytes} {n : UInt16} :
    takeUInt16 b = .ok (n, rest) ↔ b = Bytes.ofUInt16 n ++ rest := by
  rw [takeUInt16, bind_eq_ok]
  constructor
  · rintro ⟨⟨a, c⟩, ha, h⟩
    rw [take_eq_ok] at ha
    obtain ⟨rfl, hlen⟩ := ha
    match a, hlen with
    | [x, y], _ =>
      simp only [Except.ok.injEq, Prod.mk.injEq] at h
      obtain ⟨rfl, rfl⟩ := h
      rw [Bytes.ofUInt16_toUInt16]
  · rintro rfl
    refine ⟨(Bytes.ofUInt16 n, rest), take_eq_ok.mpr ⟨rfl, rfl⟩, ?_⟩
    simp only [Bytes.ofUInt16, Bytes.toUInt16_ofUInt16]

theorem takeUInt32_eq_ok {b rest : Bytes} {n : UInt32} :
    takeUInt32 b = .ok (n, rest) ↔ b = Bytes.ofUInt32 n ++ rest := by
  rw [takeUInt32, bind_eq_ok]
  constructor
  · rintro ⟨⟨a, c⟩, ha, h⟩
    rw [take_eq_ok] at ha
    obtain ⟨rfl, hlen⟩ := ha
    match a, hlen with
    | [x, y, z, w], _ =>
      simp only [Except.ok.injEq, Prod.mk.injEq] at h
      obtain ⟨rfl, rfl⟩ := h
      rw [Bytes.ofUInt32_toUInt32]
  · rintro rfl
    refine ⟨(Bytes.ofUInt32 n, rest), take_eq_ok.mpr ⟨rfl, rfl⟩, ?_⟩
    simp only [Bytes.ofUInt32, Bytes.toUInt32_ofUInt32]

theorem takeHead_eq_ok {b rest : Bytes} {tag : UInt8} {id : UInt64} :
    takeHead b = .ok (tag, id, rest) ↔ b = tag :: (Bytes.ofUInt64 id ++ rest) := by
  rw [takeHead, bind_eq_ok]
  constructor
  · rintro ⟨⟨a, c⟩, ha, h⟩
    rw [take_eq_ok] at ha
    obtain ⟨rfl, hlen⟩ := ha
    match a, hlen with
    | [t, i, j, k, l, m, n, o, p], _ =>
      simp only [Except.ok.injEq, Prod.mk.injEq] at h
      obtain ⟨rfl, rfl, rfl⟩ := h
      rw [Bytes.ofUInt64_toUInt64]
      rfl
  · rintro rfl
    refine ⟨(tag :: Bytes.ofUInt64 id, rest), take_eq_ok.mpr ⟨rfl, rfl⟩, ?_⟩
    simp only [Bytes.ofUInt64, Bytes.toUInt64_ofUInt64]

theorem senderBytes_of_take {b rest : Bytes} {a : Address} (h : takeSender b = .ok (a, rest)) :
    ∃ ip port, a = .ofIp ip port ∧ b = senderBytes (.ofIp ip port) ip ++ rest := by
  rw [takeSender, bind_eq_ok] at h
  obtain ⟨⟨length, c⟩, hc, h⟩ := h
  rw [takeUInt8_eq_ok] at hc
  rw [bind_eq_ok] at h
  obtain ⟨⟨field, d⟩, hd, h⟩ := h
  rw [take_eq_ok] at hd
  obtain ⟨rfl, hlen⟩ := hd
  simp only at h
  split at h
  · simp at h
  · rename_i ip hip
    have hoctets := Ip.octets_of_ofOctets? hip
    rw [bind_eq_ok] at h
    obtain ⟨⟨port, e⟩, hport, h⟩ := h
    rw [takeUInt32_eq_ok] at hport
    simp only at h
    split at h
    · simp at h
    · rename_i hle
      simp only [Except.ok.injEq, Prod.mk.injEq] at h
      obtain ⟨rfl, rfl⟩ := h
      have he : e = [] := by
        have := congrArg List.length hport
        simp at this
        exact List.eq_nil_of_length_eq_zero (by omega)
      have hfield : field = ip.octets ++ Bytes.ofUInt32 port := by
        rw [← List.take_append_drop length.toNat field, hoctets, hport, he, List.append_nil]
      have hn : ip.octets.length = length.toNat := by
        rw [hoctets]
        simp
        omega
      have hp : port.toUInt16.toUInt32 = port := by
        apply UInt32.toNat_inj.mp
        simp
        omega
      refine ⟨ip, port.toUInt16, rfl, ?_⟩
      rw [hc, hfield, senderBytes, hn, Address.ofIp, hp]
      simp

theorem take_senderBytes (ip : Ip) (port : UInt16) (rest : Bytes) :
    takeSender (senderBytes (.ofIp ip port) ip ++ rest) = .ok (.ofIp ip port, rest) := by
  have hn : ip.octets.length.toUInt8.toNat = ip.octets.length := by
    rcases Ip.length_octets ip with h | h <;> rw [h] <;> rfl
  have hlt := port.toNat_lt
  rw [takeSender, senderBytes]
  refine bind_eq_ok.mpr ⟨_, takeUInt8_eq_ok.mpr rfl, bind_eq_ok.mpr ⟨_, take_eq_ok.mpr ⟨rfl, by simp [hn]⟩, ?_⟩⟩
  simp only [hn, List.take_left, List.drop_left, Ip.ofOctets?_octets]
  refine bind_eq_ok.mpr ⟨_, takeUInt32_eq_ok.mpr (List.append_nil _).symm, ?_⟩
  simp [Address.ofIp]
  omega

theorem takeSender_eq_ok {b rest : Bytes} {a : Address} :
    takeSender b = .ok (a, rest) ↔
      ∃ ip port, a = .ofIp ip port ∧ b = senderBytes (.ofIp ip port) ip ++ rest := by
  refine ⟨senderBytes_of_take, ?_⟩
  rintro ⟨ip, port, rfl, rfl⟩
  exact take_senderBytes ip port rest

theorem takeSubject_eq_ok {b rest : Bytes} {s : String} :
    takeSubject b = .ok (s, rest) ↔ (Bytes.ofText s).length ≤ subjectLimit ∧
      b = Bytes.ofUInt16 (Bytes.ofText s).length.toUInt16 ++ (Bytes.ofText s ++ rest) := by
  rw [takeSubject, bind_eq_ok]
  constructor
  · rintro ⟨⟨length, c⟩, hc, h⟩
    rw [takeUInt16_eq_ok] at hc
    rw [bind_eq_ok] at h
    obtain ⟨⟨subject, d⟩, hd, h⟩ := h
    rw [take_eq_ok] at hd
    obtain ⟨rfl, hlen⟩ := hd
    simp only at h
    split at h
    · rename_i t ht
      simp only [Except.ok.injEq, Prod.mk.injEq] at h
      obtain ⟨rfl, rfl⟩ := h
      have hlt := length.toNat_lt
      rw [Bytes.ofText_of_text? ht, hlen, hc, subjectLimit]
      exact ⟨by omega, by simp⟩
    · simp at h
  · rintro ⟨hle, rfl⟩
    have hlen : (Bytes.ofText s).length.toUInt16.toNat = (Bytes.ofText s).length := by
      rw [subjectLimit] at hle
      simp
      omega
    refine ⟨_, takeUInt16_eq_ok.mpr rfl, bind_eq_ok.mpr ⟨_, take_eq_ok.mpr ⟨rfl, hlen.symm⟩, ?_⟩⟩
    simp [Bytes.text?_ofText]

theorem takePayload_eq_ok {b payload rest : Bytes} :
    takePayload b = .ok (payload, rest) ↔ payload.length < 2 ^ 32 ∧
      b = Bytes.ofUInt32 payload.length.toUInt32 ++ (payload ++ rest) := by
  rw [takePayload, bind_eq_ok]
  constructor
  · rintro ⟨⟨length, c⟩, hc, h⟩
    rw [takeUInt32_eq_ok] at hc
    simp only [take_eq_ok] at h
    obtain ⟨rfl, hlen⟩ := h
    have hlt := length.toNat_lt
    rw [hlen, hc]
    exact ⟨hlt, by simp⟩
  · rintro ⟨hlt, rfl⟩
    have hlen : payload.length.toUInt32.toNat = payload.length := by
      simp
      omega
    exact ⟨_, takeUInt32_eq_ok.mpr rfl, take_eq_ok.mpr ⟨rfl, hlen.symm⟩⟩

/-! ## Messages -/

theorem ofCode?_eq_some {c : UInt8} {s : Status} : Status.ofCode? c = some s ↔ c = s.code := by
  constructor
  · intro h
    have := List.find?_some h
    exact (beq_iff_eq.mp this).symm
  · rintro rfl
    cases s <;> rfl

/-- The sender's host is written the way an IP address is. -/
def Canonical : Message → Prop
  | .request r => ∃ ip, r.sender = .ofIp ip r.sender.port
  | .reply _ => True

theorem ip?_ofIp (ip : Ip) (port : UInt16) : (Address.ofIp ip port).ip? = some ip := Ip.ofText?_text ip

theorem takeRequest_eq_ok {id : UInt64} {b rest : Bytes} {m : Message} :
    takeRequest id b = .ok (m, rest) ↔ ∃ ip port subject payload,
      m = .request ⟨id, .ofIp ip port, subject, payload⟩ ∧
        (Bytes.ofText subject).length ≤ subjectLimit ∧ payload.length < 2 ^ 32 ∧
        b = senderBytes (.ofIp ip port) ip ++ (Bytes.ofUInt16 (Bytes.ofText subject).length.toUInt16 ++
          (Bytes.ofText subject ++ (Bytes.ofUInt32 payload.length.toUInt32 ++ (payload ++ rest)))) := by
  simp only [takeRequest, bind_eq_ok]
  constructor
  · rintro ⟨⟨sender, c⟩, hsender, ⟨subject, d⟩, hsubject, ⟨payload, e⟩, hpayload, hm⟩
    obtain ⟨ip, port, rfl, rfl⟩ := takeSender_eq_ok.mp hsender
    obtain ⟨hsub, rfl⟩ := takeSubject_eq_ok.mp hsubject
    obtain ⟨hpay, rfl⟩ := takePayload_eq_ok.mp hpayload
    simp only [Except.ok.injEq, Prod.mk.injEq] at hm
    obtain ⟨rfl, rfl⟩ := hm
    exact ⟨ip, port, subject, payload, rfl, hsub, hpay, rfl⟩
  · rintro ⟨ip, port, subject, payload, rfl, hsub, hpay, rfl⟩
    exact ⟨_, takeSender_eq_ok.mpr ⟨ip, port, rfl, rfl⟩, _, takeSubject_eq_ok.mpr ⟨hsub, rfl⟩, _,
      takePayload_eq_ok.mpr ⟨hpay, rfl⟩, rfl⟩

theorem takeReply_eq_ok {id : UInt64} {b rest : Bytes} {m : Message} :
    takeReply id b = .ok (m, rest) ↔ ∃ status payload, m = .reply ⟨id, status, payload⟩ ∧
      payload.length < 2 ^ 32 ∧
      b = status.code :: (Bytes.ofUInt32 payload.length.toUInt32 ++ (payload ++ rest)) := by
  simp only [takeReply, bind_eq_ok]
  constructor
  · rintro ⟨⟨code, c⟩, hcode, h⟩
    obtain rfl := takeUInt8_eq_ok.mp hcode
    simp only at h
    split at h
    · simp at h
    · rename_i status hstatus
      obtain ⟨⟨payload, d⟩, hpayload, hm⟩ := bind_eq_ok.mp h
      obtain ⟨hpay, rfl⟩ := takePayload_eq_ok.mp hpayload
      simp only [Except.ok.injEq, Prod.mk.injEq] at hm
      obtain ⟨rfl, rfl⟩ := hm
      rw [ofCode?_eq_some.mp hstatus]
      exact ⟨status, payload, rfl, hpay, rfl⟩
  · rintro ⟨status, payload, rfl, hpay, rfl⟩
    refine ⟨_, takeUInt8_eq_ok.mpr rfl, ?_⟩
    simp only [ofCode?_eq_some.mpr rfl]
    exact bind_eq_ok.mpr ⟨_, takePayload_eq_ok.mpr ⟨hpay, rfl⟩, rfl⟩

theorem headerBytes_request {r : Request} {header : Bytes} :
    headerBytes (.request r) = .ok header ↔ ∃ ip, r.sender.ip? = some ip ∧
      (Bytes.ofText r.subject).length ≤ subjectLimit ∧
      header = 1 :: (Bytes.ofUInt64 r.id ++ senderBytes r.sender ip ++
        Bytes.ofUInt16 (Bytes.ofText r.subject).length.toUInt16 ++ Bytes.ofText r.subject) := by
  unfold headerBytes
  dsimp only
  cases r.sender.ip? with
  | none => simp
  | some ip =>
    simp only [Option.some.injEq, exists_eq_left']
    split
    · simp
      omega
    · simp only [Except.ok.injEq, eq_comm]
      simp
      omega

theorem headerBytes_reply {r : Reply} {header : Bytes} :
    headerBytes (.reply r) = .ok header ↔ header = 2 :: (Bytes.ofUInt64 r.id ++ [r.status.code]) := by
  unfold headerBytes
  simp [eq_comm]

theorem decodeBody_eq_ok {b : Bytes} {m : Message} :
    decodeBody b = .ok m ↔ Canonical m ∧ m.payload.length < 2 ^ 32 ∧
      ∃ header, headerBytes m = .ok header ∧
        b = header ++ (Bytes.ofUInt32 m.payload.length.toUInt32 ++ m.payload) := by
  simp only [decodeBody, takeMessage, bind_eq_ok]
  constructor
  · rintro ⟨⟨m', rest⟩, ⟨⟨tag, id, c⟩, hc, hm⟩, h⟩
    obtain rfl := takeHead_eq_ok.mp hc
    simp only [List.isEmpty_iff] at h
    split at h
    · rename_i hrest
      simp only at hm
      split at hm
      · rename_i htag
        obtain ⟨ip, port, subject, payload, rfl, hsub, hpay, rfl⟩ := takeRequest_eq_ok.mp hm
        obtain rfl := Except.ok.inj h
        refine ⟨⟨ip, rfl⟩, hpay, _, headerBytes_request.mpr ⟨ip, ip?_ofIp ip port, hsub, rfl⟩, ?_⟩
        simp [htag, hrest, Message.payload]
      · split at hm
        · rename_i htag
          obtain ⟨status, payload, rfl, hpay, rfl⟩ := takeReply_eq_ok.mp hm
          obtain rfl := Except.ok.inj h
          refine ⟨trivial, hpay, _, headerBytes_reply.mpr rfl, ?_⟩
          simp [htag, hrest, Message.payload]
        · simp at hm
    · simp at h
  · rintro ⟨hcanon, hpay, header, hheader, rfl⟩
    cases m with
    | request r =>
      obtain ⟨id, sender, subject, payload⟩ := r
      obtain ⟨ip, hip, hsub, rfl⟩ := headerBytes_request.mp hheader
      obtain ⟨ip', hsender⟩ := hcanon
      simp only at hip hsender
      rw [hsender, ip?_ofIp] at hip
      obtain rfl := Option.some.inj hip
      simp only [List.cons_append, List.append_assoc]
      refine ⟨(.request ⟨id, sender, subject, payload⟩, []), ⟨_, takeHead_eq_ok.mpr rfl, ?_⟩, rfl⟩
      refine takeRequest_eq_ok.mpr ⟨ip', sender.port, subject, payload, ?_, hsub, hpay, ?_⟩
      · rw [← hsender]
      · rw [← hsender, List.append_nil]
        rfl
    | reply r =>
      obtain rfl := headerBytes_reply.mp hheader
      simp only [List.cons_append, List.append_assoc, List.nil_append]
      refine ⟨(.reply r, []), ⟨_, takeHead_eq_ok.mpr rfl, ?_⟩, rfl⟩
      exact takeReply_eq_ok.mpr ⟨r.status, r.payload, rfl, hpay, by rw [List.append_nil]; rfl⟩

/-! ## Frames -/

theorem encode_eq_ok {limit : Nat} {m : Message} {frame : Bytes} :
    encode limit m = .ok frame ↔ ∃ header, headerBytes m = .ok header ∧
      header.length + 4 + m.payload.length ≤ limit ∧
      frame = Bytes.ofUInt32 (header.length + 4 + m.payload.length).toUInt32 ++
        (header ++ (Bytes.ofUInt32 m.payload.length.toUInt32 ++ m.payload)) := by
  simp only [encode, bind_eq_ok]
  constructor
  · rintro ⟨header, hheader, h⟩
    split at h
    · simp at h
    · refine ⟨header, hheader, by omega, ?_⟩
      simpa using (Except.ok.inj h).symm
  · rintro ⟨header, hheader, hle, rfl⟩
    refine ⟨header, hheader, ?_⟩
    rw [if_neg (by omega)]
    simp

theorem decode_cons (limit : Nat) (x y z w : UInt8) (rest : Bytes) :
    decode limit (x :: y :: z :: w :: rest) =
      if limit < (Bytes.toUInt32 x y z w).toNat then
        .error (.tooLarge (Bytes.toUInt32 x y z w).toNat limit)
      else if rest.length < (Bytes.toUInt32 x y z w).toNat then
        .error (.insufficient (4 + (Bytes.toUInt32 x y z w).toNat) (4 + rest.length))
      else (decodeBody (rest.take (Bytes.toUInt32 x y z w).toNat)).map
        (·, 4 + (Bytes.toUInt32 x y z w).toNat) := by
  rw [decode, show (x :: y :: z :: w :: rest).length = 4 + rest.length by simp; omega]

theorem decode_ofUInt32 (limit : Nat) (size : UInt32) (rest : Bytes) :
    decode limit (Bytes.ofUInt32 size ++ rest) =
      if limit < size.toNat then .error (.tooLarge size.toNat limit)
      else if rest.length < size.toNat then .error (.insufficient (4 + size.toNat) (4 + rest.length))
      else (decodeBody (rest.take size.toNat)).map (·, 4 + size.toNat) := by
  have h := decode_cons limit (size >>> 24).toUInt8 (size >>> 16).toUInt8 (size >>> 8).toUInt8
    size.toUInt8 rest
  rwa [Bytes.toUInt32_ofUInt32] at h

theorem decode_of_length_lt {limit : Nat} {src : Bytes} (h : src.length < 4) :
    decode limit src = .error (.insufficient 4 src.length) := by
  match src, h with
  | [], _ => rfl
  | [_], _ => rfl
  | [_, _], _ => rfl
  | [_, _, _], _ => rfl

theorem exists_ofUInt32 {src : Bytes} (h : 4 ≤ src.length) :
    ∃ size rest, src = Bytes.ofUInt32 size ++ rest := by
  match src, h with
  | x :: y :: z :: w :: rest, _ =>
    exact ⟨Bytes.toUInt32 x y z w, rest, by rw [Bytes.ofUInt32_toUInt32]; rfl⟩

theorem frame_of_decode {limit : Nat} {src : Bytes} {m : Message} {n : Nat}
    (h : decode limit src = .ok (m, n)) : ∃ frame rest, src = frame ++ rest ∧ n = frame.length ∧
      Canonical m ∧ frame.length < 2 ^ 32 + 4 ∧ encode limit m = .ok frame := by
  by_cases hfour : src.length < 4
  · simp [decode_of_length_lt hfour] at h
  obtain ⟨size, rest, rfl⟩ := exists_ofUInt32 (not_lt.mp hfour)
  have hsize := size.toNat_lt
  rw [decode_ofUInt32] at h
  split at h
  · simp at h
  split at h
  · simp at h
  cases hb : decodeBody (rest.take size.toNat) with
  | error e => simp [hb, Except.map] at h
  | ok m' =>
    rw [hb] at h
    simp only [Except.map, Except.ok.injEq, Prod.mk.injEq] at h
    obtain ⟨rfl, rfl⟩ := h
    obtain ⟨hcanon, hpay, header, hheader, htake⟩ := decodeBody_eq_ok.mp hb
    have hlen : header.length + 4 + m'.payload.length = size.toNat := by
      have := congrArg List.length htake
      simp at this
      omega
    refine ⟨Bytes.ofUInt32 size ++ rest.take size.toNat, rest.drop size.toNat, by simp, ?_, hcanon, ?_,
      encode_eq_ok.mpr ⟨header, hheader, by omega, ?_⟩⟩
    · simp
      omega
    · simp
      omega
    · rw [hlen, htake]
      simp

theorem decode_frame {limit : Nat} {frame : Bytes} {m : Message} (hcanon : Canonical m)
    (hlt : frame.length < 2 ^ 32 + 4) (hframe : encode limit m = .ok frame) (rest : Bytes) :
    decode limit (frame ++ rest) = .ok (m, frame.length) := by
  obtain ⟨header, hheader, hle, rfl⟩ := encode_eq_ok.mp hframe
  simp only [List.length_append, Bytes.length_ofUInt32] at hlt
  have hsize : (header.length + 4 + m.payload.length).toUInt32.toNat =
      header.length + 4 + m.payload.length := by
    simp
    omega
  have hbody := decodeBody_eq_ok.mpr ⟨hcanon, by omega, header, hheader, rfl⟩
  have htake : ((header ++ (Bytes.ofUInt32 m.payload.length.toUInt32 ++ m.payload)) ++ rest).take
      (header.length + 4 + m.payload.length) =
      header ++ (Bytes.ofUInt32 m.payload.length.toUInt32 ++ m.payload) :=
    List.take_left' (by simp; omega)
  rw [List.append_assoc, decode_ofUInt32, hsize, htake, hbody, if_neg (by omega),
    if_neg (by simp; omega)]
  simp [Except.map]
  omega

/-- Reading accepts what writing gives, and nothing else. -/
theorem decode_eq_ok {limit : Nat} {src : Bytes} {m : Message} {n : Nat} :
    decode limit src = .ok (m, n) ↔ ∃ frame rest, src = frame ++ rest ∧ n = frame.length ∧
      Canonical m ∧ frame.length < 2 ^ 32 + 4 ∧ encode limit m = .ok frame := by
  refine ⟨frame_of_decode, ?_⟩
  rintro ⟨frame, rest, rfl, rfl, hcanon, hlt, hframe⟩
  exact decode_frame hcanon hlt hframe rest

/-! ## Round trips -/

theorem encodeOnto_eq_ok {limit : Nat} {buffer out : Bytes} {m : Message} :
    encodeOnto limit buffer m = (out, .ok ()) ↔
      ∃ frame, encode limit m = .ok frame ∧ out = buffer ++ frame := by
  rw [encodeOnto]
  cases encode limit m with
  | error e => simp
  | ok frame => simp [eq_comm]

/-- A request as it is read: the sender's host is spelled the one way its IP is. -/
def resolved (r : Request) : Request :=
  match r.sender.ip? with
  | some ip => { r with sender := .ofIp ip r.sender.port }
  | none => r

theorem resolved_eq {r : Request} {ip : Ip} (h : r.sender.ip? = some ip) :
    resolved r = { r with sender := .ofIp ip r.sender.port } := by
  unfold resolved
  rw [h]

@[simp] theorem id_resolved (r : Request) : (resolved r).id = r.id := by
  unfold resolved
  split <;> rfl

@[simp] theorem subject_resolved (r : Request) : (resolved r).subject = r.subject := by
  unfold resolved
  split <;> rfl

@[simp] theorem payload_resolved (r : Request) : (resolved r).payload = r.payload := by
  unfold resolved
  split <;> rfl

def canonical : Message → Message
  | .request r => .request (resolved r)
  | .reply r => .reply r

@[simp] theorem id_canonical (m : Message) : (canonical m).id = m.id := by
  cases m with
  | request r => exact id_resolved r
  | reply r => rfl

theorem payload_canonical (m : Message) : (canonical m).payload = m.payload := by
  cases m with
  | request r => exact payload_resolved r
  | reply r => rfl

theorem headerBytes_canonical (m : Message) : headerBytes (canonical m) = headerBytes m := by
  cases m with
  | request r =>
    rw [canonical]
    cases hip : r.sender.ip? with
    | none =>
      unfold resolved
      rw [hip]
    | some ip =>
      rw [resolved_eq hip]
      unfold headerBytes
      dsimp only
      rw [hip, ip?_ofIp]
      rfl
  | reply r => rfl

theorem encode_canonical (limit : Nat) (m : Message) : encode limit (canonical m) = encode limit m := by
  rw [encode, encode, headerBytes_canonical, payload_canonical]

theorem canonical_of_encode {limit : Nat} {m : Message} {frame : Bytes} (h : encode limit m = .ok frame) :
    Canonical (canonical m) := by
  cases m with
  | request r =>
    obtain ⟨header, hheader, -⟩ := encode_eq_ok.mp h
    obtain ⟨ip, hip, -⟩ := headerBytes_request.mp hheader
    rw [canonical, resolved_eq hip]
    exact ⟨ip, rfl⟩
  | reply r => trivial

theorem length_of_encode {limit : Nat} {m : Message} {frame : Bytes} (h : encode limit m = .ok frame) :
    4 ≤ frame.length ∧ frame.length ≤ limit + 4 := by
  obtain ⟨header, -, hle, rfl⟩ := encode_eq_ok.mp h
  simp
  omega

theorem decode_of_encode {limit : Nat} {m : Message} {frame : Bytes} (h : encode limit m = .ok frame)
    (hlt : frame.length < 2 ^ 32 + 4) (rest : Bytes) :
    decode limit (frame ++ rest) = .ok (canonical m, frame.length) :=
  decode_frame (canonical_of_encode h) hlt (by rw [encode_canonical, h]) rest

/-- What was appended to a buffer is read back, whatever comes after it. Only the spelling of
the sender's host may change. -/
theorem decode_encodeOnto {limit : Nat} (hlimit : limit < 2 ^ 32) {buffer out : Bytes} {m : Message}
    (h : encodeOnto limit buffer m = (out, .ok ())) :
    ∃ frame, out = buffer ++ frame ∧ ∀ suffix,
      match m with
      | .request r => ∃ ip, r.sender.ip? = some ip ∧
          decode limit (frame ++ suffix) =
            .ok (.request { r with sender := .ofIp ip r.sender.port }, frame.length) ∧
          (r.sender.host = ip.text → decode limit (frame ++ suffix) = .ok (.request r, frame.length))
      | .reply r => decode limit (frame ++ suffix) = .ok (.reply r, frame.length) := by
  obtain ⟨frame, hframe, rfl⟩ := encodeOnto_eq_ok.mp h
  have hlen := length_of_encode hframe
  refine ⟨frame, rfl, fun suffix => ?_⟩
  have hdecode := decode_of_encode hframe (by omega) suffix
  cases m with
  | request r =>
    obtain ⟨header, hheader, -⟩ := encode_eq_ok.mp hframe
    obtain ⟨ip, hip, -⟩ := headerBytes_request.mp hheader
    rw [canonical, resolved_eq hip] at hdecode
    refine ⟨ip, hip, hdecode, fun hhost => ?_⟩
    have hsender : Address.ofIp ip r.sender.port = r.sender := by rw [Address.ofIp, ← hhost]
    rwa [hsender] at hdecode
  | reply r => exact hdecode

theorem decode_encodeOnto_ipv6 :
    encodeOnto 100 [7] (.request ⟨5, ⟨"0::1", 80⟩, "é", [1, 2]⟩) =
        ([7, 0, 0, 0, 40, 1, 0, 0, 0, 0, 0, 0, 0, 5, 16, 0, 0, 0, 0, 0, 0, 0, 0, 0, 0, 0, 0, 0, 0, 0, 1,
          0, 0, 0, 80, 0, 2, 195, 169, 0, 0, 0, 2, 1, 2], .ok ()) ∧
      ∃ frame, [7, 0, 0, 0, 40, 1, 0, 0, 0, 0, 0, 0, 0, 5, 16, 0, 0, 0, 0, 0, 0, 0, 0, 0, 0, 0, 0, 0, 0, 0,
          1, 0, 0, 0, 80, 0, 2, 195, 169, 0, 0, 0, 2, 1, 2] = [7] ++ frame ∧
        ∃ ip, (⟨"0::1", 80⟩ : Address).ip? = some ip ∧
          decode 100 (frame ++ [9]) = .ok (.request ⟨5, .ofIp ip 80, "é", [1, 2]⟩, frame.length) := by
  have h : encodeOnto 100 [7] (.request ⟨5, ⟨"0::1", 80⟩, "é", [1, 2]⟩) =
      ([7, 0, 0, 0, 40, 1, 0, 0, 0, 0, 0, 0, 0, 5, 16, 0, 0, 0, 0, 0, 0, 0, 0, 0, 0, 0, 0, 0, 0, 0, 1,
        0, 0, 0, 80, 0, 2, 195, 169, 0, 0, 0, 2, 1, 2], .ok ()) := by decide
  refine ⟨h, ?_⟩
  obtain ⟨frame, hout, hdecode⟩ := decode_encodeOnto (by decide) h
  obtain ⟨ip, hip, hread, -⟩ := hdecode [9]
  exact ⟨frame, hout, ip, hip, hread⟩

/-- Reading accepts only frames of messages that may be sent under the same limit, so that two
spellings of one message do not exist. -/
theorem encodeOnto_decode (limit : Nat) :
    (∀ {src m n}, decode limit src = .ok (m, n) →
      4 ≤ n ∧ n ≤ src.length ∧ encodeOnto limit [] m = (src.take n, .ok ())) ∧
    (∀ {a b m}, decode limit a = .ok (m, a.length) → decode limit b = .ok (m, b.length) → a = b) := by
  have hone : ∀ {src m n}, decode limit src = .ok (m, n) →
      4 ≤ n ∧ n ≤ src.length ∧ encodeOnto limit [] m = (src.take n, .ok ()) := by
    intro src m n h
    obtain ⟨frame, rest, rfl, rfl, -, -, hframe⟩ := decode_eq_ok.mp h
    refine ⟨(length_of_encode hframe).1, by simp, encodeOnto_eq_ok.mpr ⟨frame, hframe, ?_⟩⟩
    simp
  refine ⟨hone, fun {a b m} ha hb => ?_⟩
  have hab := (hone ha).2.2.symm.trans (hone hb).2.2
  simpa using hab

theorem encodeOnto_decode_reply :
    decode 20 [0, 0, 0, 14, 2, 0, 0, 0, 0, 0, 0, 0, 9, 0, 0, 0, 0, 0, 5] = .ok (.reply ⟨9, .ok, []⟩, 18) ∧
      encodeOnto 20 [] (.reply ⟨9, .ok, []⟩) =
        ([0, 0, 0, 14, 2, 0, 0, 0, 0, 0, 0, 0, 9, 0, 0, 0, 0, 0], .ok ()) := by
  have h : decode 20 [0, 0, 0, 14, 2, 0, 0, 0, 0, 0, 0, 0, 9, 0, 0, 0, 0, 0, 5] =
      .ok (.reply ⟨9, .ok, []⟩, 18) := by decide
  exact ⟨h, ((encodeOnto_decode 20).1 h).2.2⟩

/-! ## Frames one after the other -/

/-- The message has a frame under the limit, and the length field can say how long it is. A limit below
2 ^ 32 sees to the latter. Above it, a frame that is longer still goes out with its length cut, and is read
as something else. -/
def Fits (limit : Nat) (m : Message) : Prop :=
  ∃ frame, encode limit m = .ok frame ∧ frame.length < 2 ^ 32 + 4

def frameOf (limit : Nat) (m : Message) : Bytes :=
  match encode limit m with
  | .ok frame => frame
  | .error _ => []

theorem frameOf_eq {limit : Nat} {m : Message} {frame : Bytes} (h : encode limit m = .ok frame) :
    frameOf limit m = frame := by
  rw [frameOf, h]

/-- A frame that is not there to its end says that more has to come. -/
theorem decode_of_part {limit : Nat} {m : Message} {a b : Bytes} (h : encode limit m = .ok (a ++ b))
    (hlt : (a ++ b).length < 2 ^ 32 + 4) (hb : b ≠ []) :
    ∃ need have_, decode limit a = .error (.insufficient need have_) := by
  have hpos := List.length_pos_iff.mpr hb
  by_cases hfour : a.length < 4
  · exact ⟨_, _, decode_of_length_lt hfour⟩
  obtain ⟨header, -, hle, hframe⟩ := encode_eq_ok.mp h
  obtain ⟨size, body, rfl⟩ := exists_ofUInt32 (not_lt.mp hfour)
  rw [List.append_assoc] at hframe
  obtain ⟨hsize, hbody⟩ := List.append_inj hframe (by simp)
  have hlen := congrArg List.length hbody
  simp only [List.length_append, Bytes.length_ofUInt32] at hlt hlen
  have hnat : size.toNat = header.length + 4 + m.payload.length := by
    rw [Bytes.ofUInt32_inj hsize]
    simp
    omega
  refine ⟨4 + size.toNat, 4 + body.length, ?_⟩
  rw [decode_ofUInt32, if_neg (by omega), if_pos (by omega)]

/-- What comes out of a stream of frames, of which some part has arrived: the first message, or
nothing yet. -/
theorem decode_stream {limit : Nat} {ms : List Message} {a b : Bytes} (hfits : ∀ m ∈ ms, Fits limit m)
    (h : a ++ b = ms.flatMap (frameOf limit)) :
    (∃ m rest n, ms = m :: rest ∧ decode limit a = .ok (canonical m, n) ∧
        a.drop n ++ b = rest.flatMap (frameOf limit)) ∨
      ∃ need have_, decode limit a = .error (.insufficient need have_) := by
  cases ms with
  | nil =>
    obtain ⟨rfl, rfl⟩ := List.append_eq_nil_iff.mp h
    exact .inr ⟨_, _, rfl⟩
  | cons m rest =>
    obtain ⟨frame, hframe, hlt⟩ := hfits m List.mem_cons_self
    rw [List.flatMap_cons, frameOf_eq hframe] at h
    rcases List.append_eq_append_iff.mp h with ⟨c, rfl, rfl⟩ | ⟨c, rfl, hc⟩
    · by_cases hc : c = []
      · subst hc
        rw [List.append_nil] at hframe hlt
        have hdecode := decode_of_encode hframe hlt []
        rw [List.append_nil] at hdecode
        exact .inl ⟨m, rest, a.length, rfl, hdecode, by simp⟩
      · exact .inr (decode_of_part hframe hlt hc)
    · refine .inl ⟨m, rest, frame.length, rfl, decode_of_encode hframe hlt c, ?_⟩
      rw [List.drop_left, hc]

end Wire

end ClusterNet
