import ClusterNet.Ip.Octets
import ClusterNet.Text.Utf8
import ClusterNet.Wire.Message

/-!
# Frames

The bytes of one message. Numbers are big-endian.

* the length of what follows, in four bytes
* a tag: 1 for a request, 2 for a reply
* the id, in eight bytes
* of a request: the sender's IP with its length in one byte, the port in four bytes, and the
  subject with its length in two bytes; of a reply: the status in one byte
* the payload with its length in four bytes

A frame is accepted only if its parts fill it exactly.
-/

namespace ClusterNet.Wire

/-- What is wrong inside a frame that is complete. -/
inductive Flaw where
  | truncated (need have_ : Nat)
  | ipLength (n : Nat)
  | portRange (port : Nat)
  | subject (fault : Utf8.Fault)
  | trailing (count : Nat)
  deriving DecidableEq, Repr

def Flaw.message : Flaw → String
  | .truncated need have_ => s!"truncated field: need {need} bytes, have {have_}"
  | .ipLength n => s!"invalid ip length {n}"
  | .portRange port => s!"port {port} out of range"
  | .subject fault => s!"subject is not UTF-8: {fault.message}"
  | .trailing count => s!"{count} trailing bytes in frame"

inductive FrameFault where
  /-- More bytes have to come before anything can be said. -/
  | insufficient (need have_ : Nat)
  | tooLarge (size max : Nat)
  | unknownType (tag : UInt8)
  | unknownStatus (code : UInt8)
  | unresolved (sender : Address)
  | subjectTooLong (length : Nat)
  | malformed (flaw : Flaw)
  deriving DecidableEq, Repr

def subjectLimit : Nat := 65535

def FrameFault.message : FrameFault → String
  | .insufficient need have_ => s!"insufficient data: need {need} bytes, have {have_}"
  | .tooLarge size max => s!"frame too large: {size} bytes (max {max})"
  | .unknownType tag => s!"unknown message type: {tag.toNat}"
  | .unknownStatus code => s!"unknown reply status: {code.toNat}"
  | .unresolved sender => s!"sender address {sender.text} is not an IP literal"
  | .subjectTooLong length => s!"subject too long: {length} bytes (max {subjectLimit})"
  | .malformed flaw => s!"malformed frame: {flaw.message}"

/-! ## Writing -/

def senderBytes (sender : Address) (ip : Ip) : Bytes :=
  ip.octets.length.toUInt8 :: (ip.octets ++ Bytes.ofUInt32 sender.port.toUInt32)

/-- What stands between the length of a frame and its payload. -/
def headerBytes : Message → Except FrameFault Bytes
  | .request r =>
    match r.sender.ip? with
    | none => .error (.unresolved r.sender)
    | some ip =>
      let subject := Bytes.ofText r.subject
      if subjectLimit < subject.length then .error (.subjectTooLong subject.length)
      else
        .ok (1 :: (Bytes.ofUInt64 r.id ++ senderBytes r.sender ip ++
          Bytes.ofUInt16 subject.length.toUInt16 ++ subject))
  | .reply r => .ok (2 :: (Bytes.ofUInt64 r.id ++ [r.status.code]))

/-- The frame of a message, unless it is longer than the limit allows. The length field counts
the bytes that follow it. -/
def encode (limit : Nat) (m : Message) : Except FrameFault Bytes := do
  let header ← headerBytes m
  let size := header.length + 4 + m.payload.length
  if limit < size then .error (.tooLarge size limit)
  else
    .ok (Bytes.ofUInt32 size.toUInt32 ++ header ++ Bytes.ofUInt32 m.payload.length.toUInt32 ++
      m.payload)

/-- Appends the frame of a message to a buffer. If there is none, the buffer stays as it is. -/
def encodeOnto (limit : Nat) (buffer : Bytes) (m : Message) : Bytes × Except FrameFault Unit :=
  match encode limit m with
  | .ok frame => (buffer ++ frame, .ok ())
  | .error e => (buffer, .error e)

/-! ## Reading -/

/-- The first `n` bytes and the rest. -/
def take (n : Nat) (b : Bytes) : Except FrameFault (Bytes × Bytes) :=
  if b.length < n then .error (.malformed (.truncated n b.length)) else .ok (b.splitAt n)

def takeUInt8 (b : Bytes) : Except FrameFault (UInt8 × Bytes) := do
  match ← take 1 b with
  | ([x], rest) => .ok (x, rest)
  | (_, rest) => .ok (0, rest)

def takeUInt16 (b : Bytes) : Except FrameFault (UInt16 × Bytes) := do
  match ← take 2 b with
  | ([x, y], rest) => .ok (Bytes.toUInt16 x y, rest)
  | (_, rest) => .ok (0, rest)

def takeUInt32 (b : Bytes) : Except FrameFault (UInt32 × Bytes) := do
  match ← take 4 b with
  | ([x, y, z, w], rest) => .ok (Bytes.toUInt32 x y z w, rest)
  | (_, rest) => .ok (0, rest)

/-- Tag and id stand together: either both are there or neither counts. -/
def takeHead (b : Bytes) : Except FrameFault (UInt8 × UInt64 × Bytes) := do
  match ← take 9 b with
  | ([t, i, j, k, l, m, n, o, p], rest) => .ok (t, Bytes.toUInt64 i j k l m n o p, rest)
  | (_, rest) => .ok (0, 0, rest)

/-- The IP and the port must both be there before the length of the IP is looked at. -/
def takeSender (b : Bytes) : Except FrameFault (Address × Bytes) := do
  let (length, b) ← takeUInt8 b
  let (field, rest) ← take (length.toNat + 4) b
  match Ip.ofOctets? (field.take length.toNat) with
  | none => .error (.malformed (.ipLength length.toNat))
  | some ip => do
    let (port, _) ← takeUInt32 (field.drop length.toNat)
    if 65535 < port.toNat then .error (.malformed (.portRange port.toNat))
    else .ok (Address.ofIp ip port.toUInt16, rest)

def takeSubject (b : Bytes) : Except FrameFault (String × Bytes) := do
  let (length, b) ← takeUInt16 b
  let (subject, rest) ← take length.toNat b
  match Bytes.text? subject with
  | some s => .ok (s, rest)
  | none => .error (.malformed (.subject ((Utf8.fault? subject).getD ⟨0, none⟩)))

def takePayload (b : Bytes) : Except FrameFault (Bytes × Bytes) := do
  let (length, b) ← takeUInt32 b
  take length.toNat b

def takeRequest (id : UInt64) (b : Bytes) : Except FrameFault (Message × Bytes) := do
  let (sender, b) ← takeSender b
  let (subject, b) ← takeSubject b
  let (payload, rest) ← takePayload b
  .ok (.request ⟨id, sender, subject, payload⟩, rest)

def takeReply (id : UInt64) (b : Bytes) : Except FrameFault (Message × Bytes) := do
  let (code, b) ← takeUInt8 b
  match Status.ofCode? code with
  | none => .error (.unknownStatus code)
  | some status => do
    let (payload, rest) ← takePayload b
    .ok (.reply ⟨id, status, payload⟩, rest)

def takeMessage (b : Bytes) : Except FrameFault (Message × Bytes) := do
  let (tag, id, b) ← takeHead b
  if tag = 1 then takeRequest id b
  else if tag = 2 then takeReply id b
  else .error (.unknownType tag)

/-- The message in a frame, without the length field. -/
def decodeBody (b : Bytes) : Except FrameFault Message := do
  let (m, rest) ← takeMessage b
  if rest.isEmpty then .ok m else .error (.malformed (.trailing rest.length))

/-- The message at the front of some bytes, and how many bytes its frame takes. -/
def decode (limit : Nat) (src : Bytes) : Except FrameFault (Message × Nat) :=
  match src with
  | x :: y :: z :: w :: rest =>
    let size := (Bytes.toUInt32 x y z w).toNat
    if limit < size then .error (.tooLarge size limit)
    else if rest.length < size then .error (.insufficient (4 + size) src.length)
    else (decodeBody (rest.take size)).map (·, 4 + size)
  | _ => .error (.insufficient 4 src.length)

/-- The messages at the front of some bytes, up to the first one that cannot be read: how many
bytes each takes, why it stopped, and what is left. A message takes a byte at least, so as many
rounds as there are bytes are enough. -/
def decodeAll (limit : Nat) : (rounds : Nat) → Bytes → List (Message × Nat) × FrameFault × Bytes
  | 0, src => ([], .insufficient 4 src.length, src)
  | rounds + 1, src =>
    match decode limit src with
    | .error e => ([], e, src)
    | .ok (m, n) =>
      let (ms, e, rest) := decodeAll limit rounds (src.drop n)
      ((m, n) :: ms, e, rest)

end ClusterNet.Wire
