import ClusterNet.Proofs.Frame

/-!
# Frames that are not all there

Whether more bytes are needed is decided by the length of a frame alone. As long as too few are
there, this is all that is said, and it is said again until enough have come. Anything else that is
said is final: whatever comes after it changes nothing. The bytes that are looked at are always there.
-/

namespace ClusterNet

theorem Ip.exists_ofOctets? {b : Bytes} (h : b.length = 4 ∨ b.length = 16) : ∃ ip, ofOctets? b = some ip := by
  rcases h with h | h
  · match b, h with
    | [_, _, _, _], _ => exact ⟨_, rfl⟩
  · match b, h with
    | [_, _, _, _, _, _, _, _, _, _, _, _, _, _, _, _], _ => exact ⟨_, rfl⟩

theorem Ip.ofOctets?_eq_none {b : Bytes} (h : ¬(b.length = 4 ∨ b.length = 16)) : ofOctets? b = none := by
  cases hip : ofOctets? b with
  | none => rfl
  | some ip =>
    rw [← octets_of_ofOctets? hip] at h
    exact absurd (length_octets ip) h

namespace Wire

variable {limit n need have_ : Nat} {src b t : Bytes} {α β : Type}

/-! ## Faults that are final -/

/-- Nobody is told to wait for more bytes. -/
def Settles (x : Except FrameFault α) : Prop := ∀ need have_, x ≠ .error (.insufficient need have_)

theorem Settles.bind {x : Except FrameFault α} {f : α → Except FrameFault β} (hx : Settles x)
    (hf : ∀ a, x = .ok a → Settles (f a)) : Settles (x >>= f) := by
  cases x with
  | error e => exact fun need have_ h => hx need have_ (congrArg Except.error (Except.error.inj h))
  | ok a => exact hf a rfl

theorem settles_ok (a : α) : Settles (.ok a) := fun _ _ => nofun

theorem settles_take (n : Nat) (b : Bytes) : Settles (take n b) := by
  unfold take
  split <;> exact fun _ _ => nofun

theorem settles_takeUInt8 (b : Bytes) : Settles (takeUInt8 b) :=
  (settles_take 1 b).bind fun _ _ => by split <;> exact settles_ok _

theorem settles_takeUInt16 (b : Bytes) : Settles (takeUInt16 b) :=
  (settles_take 2 b).bind fun _ _ => by split <;> exact settles_ok _

theorem settles_takeUInt32 (b : Bytes) : Settles (takeUInt32 b) :=
  (settles_take 4 b).bind fun _ _ => by split <;> exact settles_ok _

theorem settles_takeHead (b : Bytes) : Settles (takeHead b) :=
  (settles_take 9 b).bind fun _ _ => by split <;> exact settles_ok _

theorem settles_takeSender (b : Bytes) : Settles (takeSender b) := by
  refine (settles_takeUInt8 b).bind fun (length, b) _ => (settles_take _ b).bind fun (field, rest) _ => ?_
  dsimp only
  split
  · exact fun _ _ => nofun
  · refine (settles_takeUInt32 _).bind fun (port, _) _ => ?_
    dsimp only
    split <;> exact fun _ _ => nofun

theorem settles_takeSubject (b : Bytes) : Settles (takeSubject b) := by
  refine (settles_takeUInt16 b).bind fun (length, b) _ => (settles_take _ b).bind fun (subject, rest) _ => ?_
  dsimp only
  split <;> exact fun _ _ => nofun

theorem settles_takePayload (b : Bytes) : Settles (takePayload b) :=
  (settles_takeUInt32 b).bind fun _ _ => settles_take _ _

theorem settles_takeMessage (b : Bytes) : Settles (takeMessage b) := by
  refine (settles_takeHead b).bind fun (tag, id, b) _ => ?_
  dsimp only
  split
  · exact (settles_takeSender b).bind fun _ _ => (settles_takeSubject _).bind fun _ _ =>
      (settles_takePayload _).bind fun _ _ => settles_ok _
  · split
    · refine (settles_takeUInt8 b).bind fun (code, b) _ => ?_
      dsimp only
      split
      · exact fun _ _ => nofun
      · exact (settles_takePayload b).bind fun _ _ => settles_ok _
    · exact fun _ _ => nofun

theorem settles_decodeBody (b : Bytes) : Settles (decodeBody b) := by
  refine (settles_takeMessage b).bind fun (m, rest) _ => ?_
  dsimp only
  split <;> exact fun _ _ => nofun

theorem settles_map {x : Except FrameFault α} (hx : Settles x) (f : α → β) : Settles (x.map f) := by
  cases x with
  | error e => exact fun need have_ h => hx need have_ (congrArg Except.error (Except.error.inj h))
  | ok a => exact settles_ok _

/-! ## More bytes -/

/-- Bytes are waited for as long as the length is not there, or as long as the frame is not. -/
theorem decode_eq_insufficient (h : decode limit src = .error (.insufficient need have_)) :
    have_ = src.length ∧ src.length < need ∧
      ∀ t, (src ++ t).length < need → decode limit (src ++ t) = .error (.insufficient need (src ++ t).length) := by
  by_cases hfour : src.length < 4
  · rw [decode_of_length_lt hfour, Except.error.injEq, FrameFault.insufficient.injEq] at h
    obtain ⟨rfl, rfl⟩ := h
    exact ⟨rfl, hfour, fun t ht => decode_of_length_lt ht⟩
  · obtain ⟨size, rest, rfl⟩ := exists_ofUInt32 (not_lt.mp hfour)
    rw [decode_ofUInt32] at h
    split at h
    · cases h
    rename_i hsmall
    split at h
    · rename_i hshort
      rw [Except.error.injEq, FrameFault.insufficient.injEq] at h
      obtain ⟨rfl, rfl⟩ := h
      rw [List.length_append, Bytes.length_ofUInt32]
      refine ⟨rfl, by omega, fun t ht => ?_⟩
      simp only [List.length_append, Bytes.length_ofUInt32] at ht
      have hlength : (Bytes.ofUInt32 size ++ rest ++ t).length = 4 + (rest ++ t).length := by
        simp only [List.length_append, Bytes.length_ofUInt32, Nat.add_assoc]
      rw [hlength, List.append_assoc, decode_ofUInt32, if_neg hsmall,
        if_pos (by rw [List.length_append]; omega)]
    · exact absurd h (settles_map (settles_decodeBody _) _ need have_)

theorem decode_append (h : Settles (decode limit src)) (t : Bytes) :
    decode limit (src ++ t) = decode limit src := by
  by_cases hfour : src.length < 4
  · exact absurd (decode_of_length_lt hfour) (h _ _)
  · obtain ⟨size, rest, rfl⟩ := exists_ofUInt32 (not_lt.mp hfour)
    rw [decode_ofUInt32] at h
    rw [List.append_assoc, decode_ofUInt32, decode_ofUInt32]
    split at h
    · rw [if_pos ‹_›, if_pos ‹_›]
    rename_i hsmall
    split at h
    · exact absurd rfl (h _ _)
    · rename_i hwhole
      rw [if_neg hsmall, if_neg hsmall, if_neg hwhole, if_neg (by rw [List.length_append]; omega),
        List.take_append_of_le_length (Nat.not_lt.mp hwhole)]

/-! ## Reads that stay inside

The decoder once more, with reads that have no value where there is nothing to read: of single bytes
by their place, of numbers from the front of a slice, and of slices. -/

/-- What is read is a value or a fault of the frame. There is none of both if a read goes outside. -/
abbrev Reading := ExceptT FrameFault Option

namespace Reading

def outside : Reading α := ExceptT.mk none

def byteAt (src : Bytes) (i : Nat) : Reading UInt8 :=
  match src[i]? with
  | some x => pure x
  | none => outside

def slice (src : Bytes) (start stop : Nat) : Reading Bytes :=
  if start ≤ stop ∧ stop ≤ src.length then pure ((src.take stop).drop start) else outside

def getUInt8 : Bytes → Reading (UInt8 × Bytes)
  | x :: rest => pure (x, rest)
  | _ => outside

def getUInt16 : Bytes → Reading (UInt16 × Bytes)
  | x :: y :: rest => pure (Bytes.toUInt16 x y, rest)
  | _ => outside

def getUInt32 : Bytes → Reading (UInt32 × Bytes)
  | x :: y :: z :: w :: rest => pure (Bytes.toUInt32 x y z w, rest)
  | _ => outside

def getUInt64 : Bytes → Reading (UInt64 × Bytes)
  | i :: j :: k :: l :: m :: n :: o :: p :: rest => pure (Bytes.toUInt64 i j k l m n o p, rest)
  | _ => outside

def split (n : Nat) (b : Bytes) : Reading (Bytes × Bytes) :=
  if n ≤ b.length then pure (b.splitAt n) else outside

/-- What is too short is refused before it is read. -/
def ensure (n : Nat) (b : Bytes) : Reading Unit :=
  if b.length < n then throw (.malformed (.truncated n b.length)) else pure ()

def uint8 (b : Bytes) : Reading (UInt8 × Bytes) := do
  ensure 1 b
  getUInt8 b

def uint16 (b : Bytes) : Reading (UInt16 × Bytes) := do
  ensure 2 b
  getUInt16 b

def uint32 (b : Bytes) : Reading (UInt32 × Bytes) := do
  ensure 4 b
  getUInt32 b

def field (n : Nat) (b : Bytes) : Reading (Bytes × Bytes) := do
  ensure n b
  split n b

def head (b : Bytes) : Reading (UInt8 × UInt64 × Bytes) := do
  ensure 9 b
  let (tag, b) ← getUInt8 b
  let (id, b) ← getUInt64 b
  pure (tag, id, b)

/-- Four bytes and sixteen bytes are always an IP. -/
def ip (length : Nat) (b : Bytes) : Reading (Ip × Bytes) :=
  if length = 4 ∨ length = 16 then do
    let (octets, b) ← split length b
    match Ip.ofOctets? octets with
    | some ip => pure (ip, b)
    | none => outside
  else throw (.malformed (.ipLength length))

def endpoint (length : Nat) (b : Bytes) : Reading (Address × Bytes) := do
  ensure (length + 4) b
  let (ip, b) ← ip length b
  let (port, b) ← getUInt32 b
  if 65535 < port.toNat then throw (.malformed (.portRange port.toNat))
  else pure (Address.ofIp ip port.toUInt16, b)

def sender (b : Bytes) : Reading (Address × Bytes) := do
  let (length, b) ← uint8 b
  endpoint length.toNat b

def subject (b : Bytes) : Reading (String × Bytes) := do
  let (length, b) ← uint16 b
  let (subject, b) ← field length.toNat b
  match Bytes.text? subject with
  | some s => pure (s, b)
  | none => throw (.malformed (.subject ((Utf8.fault? subject).getD ⟨0, none⟩)))

def payload (b : Bytes) : Reading (Bytes × Bytes) := do
  let (length, b) ← uint32 b
  field length.toNat b

def request (id : UInt64) (b : Bytes) : Reading (Message × Bytes) := do
  let (sender, b) ← sender b
  let (subject, b) ← subject b
  let (payload, b) ← payload b
  pure (.request ⟨id, sender, subject, payload⟩, b)

def reply (id : UInt64) (b : Bytes) : Reading (Message × Bytes) := do
  let (code, b) ← uint8 b
  match Status.ofCode? code with
  | none => throw (.unknownStatus code)
  | some status => do
    let (payload, b) ← payload b
    pure (.reply ⟨id, status, payload⟩, b)

def message (b : Bytes) : Reading (Message × Bytes) := do
  let (tag, id, b) ← head b
  if tag = 1 then request id b
  else if tag = 2 then reply id b
  else throw (.unknownType tag)

def body (b : Bytes) : Reading Message := do
  let (m, b) ← message b
  if b.isEmpty then pure m else throw (.malformed (.trailing b.length))

def frame (limit : Nat) (src : Bytes) : Reading (Message × Nat) :=
  if src.length < 4 then throw (.insufficient 4 src.length)
  else do
    let x ← byteAt src 0
    let y ← byteAt src 1
    let z ← byteAt src 2
    let w ← byteAt src 3
    let size := (Bytes.toUInt32 x y z w).toNat
    if limit < size then throw (.tooLarge size limit)
    else if src.length < 4 + size then throw (.insufficient (4 + size) src.length)
    else do
      let b ← slice src 4 (4 + size)
      let m ← body b
      pure (m, 4 + size)

theorem ok_bind (a : α) (f : α → Except FrameFault β) : (Except.ok a >>= f) = f a := rfl

/-- All reads stay inside, and this is what they come to. -/
def Inside (x : Reading α) (y : Except FrameFault α) : Prop := x.run = some y

theorem Inside.bind {x : Reading α} {y : Except FrameFault α} {f : α → Reading β} {g : α → Except FrameFault β}
    (hx : Inside x y) (hf : ∀ a, Inside (f a) (g a)) : Inside (x >>= f) (y >>= g) := by
  rw [Inside, ExceptT.run_bind, hx]
  cases y with
  | error e => rfl
  | ok a => exact hf a

theorem ensure_of_lt (h : b.length < n) : ensure n b = throw (.malformed (.truncated n b.length)) := if_pos h

theorem ensure_of_le (h : n ≤ b.length) : ensure n b = pure () := if_neg (Nat.not_lt.mpr h)

theorem take_of_lt (h : b.length < n) : take n b = .error (.malformed (.truncated n b.length)) := if_pos h

theorem take_of_le (h : n ≤ b.length) : take n b = .ok (b.splitAt n) := if_neg (Nat.not_lt.mpr h)

/-- What is too short is refused in the same words, and then it is as long as it has to be. -/
theorem inside_ensure {x : Reading α} {f : Bytes × Bytes → Except FrameFault α}
    (h : n ≤ b.length → Inside x (take n b >>= f)) : Inside (ensure n b >>= fun _ => x) (take n b >>= f) := by
  rcases Nat.lt_or_ge b.length n with hshort | hlong
  · rw [ensure_of_lt hshort, take_of_lt hshort]
    rfl
  · rw [ensure_of_le hlong, pure_bind]
    exact h hlong

theorem inside_uint8 (b : Bytes) : Inside (uint8 b) (takeUInt8 b) := by
  refine inside_ensure fun h => ?_
  obtain ⟨x, rest, rfl⟩ := List.exists_cons_of_length_pos h
  exact congrArg some (takeUInt8_eq_ok.mpr rfl).symm

theorem exists_ofUInt16 (h : 2 ≤ b.length) : ∃ n rest, b = Bytes.ofUInt16 n ++ rest := by
  match b, h with
  | x :: y :: rest, _ => exact ⟨Bytes.toUInt16 x y, rest, by rw [Bytes.ofUInt16_toUInt16]; rfl⟩

theorem getUInt16_ofUInt16 (n : UInt16) (rest : Bytes) :
    getUInt16 (Bytes.ofUInt16 n ++ rest) = pure (n, rest) :=
  congrArg (fun n => pure (n, rest)) (Bytes.toUInt16_ofUInt16 n)

theorem inside_uint16 (b : Bytes) : Inside (uint16 b) (takeUInt16 b) := by
  refine inside_ensure fun h => ?_
  obtain ⟨n, rest, rfl⟩ := exists_ofUInt16 h
  rw [getUInt16_ofUInt16]
  exact congrArg some (takeUInt16_eq_ok.mpr rfl).symm

theorem getUInt32_ofUInt32 (n : UInt32) (rest : Bytes) :
    getUInt32 (Bytes.ofUInt32 n ++ rest) = pure (n, rest) :=
  congrArg (fun n => pure (n, rest)) (Bytes.toUInt32_ofUInt32 n)

theorem inside_uint32 (b : Bytes) : Inside (uint32 b) (takeUInt32 b) := by
  refine inside_ensure fun h => ?_
  obtain ⟨n, rest, rfl⟩ := exists_ofUInt32 h
  rw [getUInt32_ofUInt32]
  exact congrArg some (takeUInt32_eq_ok.mpr rfl).symm

theorem inside_field (n : Nat) (b : Bytes) : Inside (field n b) (take n b) := by
  rcases Nat.lt_or_ge b.length n with h | h
  · rw [field, ensure_of_lt h, take_of_lt h]
    rfl
  · rw [field, ensure_of_le h, take_of_le h, split, if_pos h]
    rfl

theorem exists_head (h : 9 ≤ b.length) : ∃ tag id rest, b = tag :: (Bytes.ofUInt64 id ++ rest) := by
  match b, h with
  | t :: i :: j :: k :: l :: m :: n :: o :: p :: rest, _ =>
    exact ⟨t, Bytes.toUInt64 i j k l m n o p, rest, by rw [Bytes.ofUInt64_toUInt64]; rfl⟩

theorem getUInt64_ofUInt64 (n : UInt64) (rest : Bytes) :
    getUInt64 (Bytes.ofUInt64 n ++ rest) = pure (n, rest) :=
  congrArg (fun n => pure (n, rest)) (Bytes.toUInt64_ofUInt64 n)

theorem inside_head (b : Bytes) : Inside (head b) (takeHead b) := by
  refine inside_ensure fun h => ?_
  obtain ⟨tag, id, rest, rfl⟩ := exists_head h
  simp only [getUInt8, pure_bind, getUInt64_ofUInt64]
  exact congrArg some (takeHead_eq_ok.mpr rfl).symm

theorem split_append (a rest : Bytes) : split a.length (a ++ rest) = pure (a, rest) := by
  rw [split, if_pos (by simp), List.splitAt_eq, List.take_left, List.drop_left]

theorem exists_endpoint (h : n + 4 ≤ b.length) : ∃ octets port rest,
    b = octets ++ (Bytes.ofUInt32 port ++ rest) ∧ octets.length = n := by
  have hfour : 4 ≤ (b.drop n).length := by
    rw [List.length_drop]
    omega
  obtain ⟨port, rest, hport⟩ := exists_ofUInt32 hfour
  exact ⟨b.take n, port, rest, by rw [← hport, List.take_append_drop], List.length_take_of_le (by omega)⟩

theorem inside_sender (b : Bytes) : Inside (sender b) (takeSender b) := by
  refine (inside_uint8 b).bind fun (length, b) => ?_
  dsimp only
  refine inside_ensure fun h => ?_
  obtain ⟨octets, port, rest, rfl, hlength⟩ := exists_endpoint h
  have htake : take (length.toNat + 4) (octets ++ (Bytes.ofUInt32 port ++ rest)) =
      .ok (octets ++ Bytes.ofUInt32 port, rest) :=
    take_eq_ok.mpr ⟨(List.append_assoc ..).symm, by rw [List.length_append, hlength, Bytes.length_ofUInt32]⟩
  have hport : takeUInt32 (Bytes.ofUInt32 port) = .ok (port, []) :=
    takeUInt32_eq_ok.mpr (List.append_nil _).symm
  rw [htake, ← hlength]
  simp only [ok_bind, List.take_left, List.drop_left]
  by_cases hip : octets.length = 4 ∨ octets.length = 16
  · obtain ⟨found, hfound⟩ := Ip.exists_ofOctets? hip
    rw [ip, if_pos hip, split_append]
    simp only [pure_bind, hfound, getUInt32_ofUInt32, hport, ok_bind]
    split <;> rfl
  · rw [ip, if_neg hip]
    simp only [Ip.ofOctets?_eq_none hip]
    rfl

theorem inside_subject (b : Bytes) : Inside (subject b) (takeSubject b) := by
  refine (inside_uint16 b).bind fun (length, b) => (inside_field _ b).bind fun (subject, b) => ?_
  dsimp only
  cases Bytes.text? subject <;> rfl

theorem inside_payload (b : Bytes) : Inside (payload b) (takePayload b) :=
  (inside_uint32 b).bind fun (_, b) => inside_field _ b

theorem inside_request (id : UInt64) (b : Bytes) : Inside (request id b) (takeRequest id b) :=
  (inside_sender b).bind fun (_, b) => (inside_subject b).bind fun (_, b) =>
    (inside_payload b).bind fun _ => rfl

theorem inside_reply (id : UInt64) (b : Bytes) : Inside (reply id b) (takeReply id b) := by
  refine (inside_uint8 b).bind fun (code, b) => ?_
  dsimp only
  cases Status.ofCode? code with
  | none => rfl
  | some status => exact (inside_payload b).bind fun _ => rfl

theorem inside_message (b : Bytes) : Inside (message b) (takeMessage b) := by
  refine (inside_head b).bind fun (tag, id, b) => ?_
  dsimp only
  split
  · exact inside_request id b
  split
  · exact inside_reply id b
  · rfl

theorem inside_body (b : Bytes) : Inside (body b) (decodeBody b) := by
  refine (inside_message b).bind fun (m, b) => ?_
  dsimp only
  split <;> rfl

theorem inside_frame (limit : Nat) (src : Bytes) : Inside (frame limit src) (decode limit src) := by
  rcases Nat.lt_or_ge src.length 4 with h | h
  · rw [frame, if_pos h, decode_of_length_lt h]
    rfl
  match src, h with
  | x :: y :: z :: w :: rest, h =>
    have hlength : (x :: y :: z :: w :: rest).length = 4 + rest.length := by
      simp only [List.length_cons]
      omega
    rw [frame, if_neg (Nat.not_lt.mpr h), decode_cons, hlength]
    show Inside (if _ then _ else _) _
    split
    · rfl
    by_cases hshort : rest.length < (Bytes.toUInt32 x y z w).toNat
    · rw [if_pos hshort, if_pos (by omega)]
      rfl
    rw [if_neg hshort, if_neg (by omega), slice, if_pos (by omega)]
    have hbody : ((x :: y :: z :: w :: rest).take (4 + (Bytes.toUInt32 x y z w).toNat)).drop 4 =
        rest.take (Bytes.toUInt32 x y z w).toNat := by
      rw [List.drop_take, Nat.add_sub_cancel_left]
      rfl
    rw [hbody, pure_bind]
    exact (inside_body _).bind fun _ => rfl

end Reading

/-! ## What is said about the bytes so far -/

/-- Too few bytes are too few until there are enough. Every other result stands whatever comes
after the bytes, and none takes a look outside of them. -/
theorem decode_is_stable (limit : Nat) (src : Bytes) :
    (match decode limit src with
      | .error (.insufficient need have_) => have_ = src.length ∧ src.length < need ∧ ∀ t,
          (src ++ t).length < need → decode limit (src ++ t) = .error (.insufficient need (src ++ t).length)
      | result => ∀ t, decode limit (src ++ t) = result) ∧
    (Reading.frame limit src).run = some (decode limit src) := by
  refine ⟨?_, Reading.inside_frame limit src⟩
  split
  · exact decode_eq_insufficient ‹_›
  · rename_i hfinal
    exact decode_append fun need have_ h => hfinal need have_ h

/-- A frame of ten bytes after its length, of which two are there, and then four. -/
theorem decode_is_stable_short :
    decode 20 [0, 0, 0, 10, 2, 0] = .error (.insufficient 14 6) ∧
      decode 20 ([0, 0, 0, 10, 2, 0] ++ [0, 0]) = .error (.insufficient 14 8) := by
  have h : decode 20 [0, 0, 0, 10, 2, 0] = .error (.insufficient 14 6) := by decide
  refine ⟨h, ?_⟩
  have hstable := (decode_is_stable 20 [0, 0, 0, 10, 2, 0]).1
  rw [h] at hstable
  exact hstable.2.2 [0, 0] (by decide)

end Wire

end ClusterNet
