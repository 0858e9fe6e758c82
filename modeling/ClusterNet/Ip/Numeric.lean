import ClusterNet.Ip.Reader

/-!
# Numeric hosts

Older spellings of a four byte address: one to four parts with dots between them. A part
is decimal, octal after a leading zero, or hexadecimal after `0x`. Every part but the
last is one byte, and the last part fills the bytes that remain.
-/

namespace ClusterNet.Ip

open Text

/-- One part: its value and the rest. It starts with a decimal digit. -/
def numericPart : Reader Nat
  | '0' :: x :: cs =>
    if x = 'x' ∨ x = 'X' then
      match spanDigits hexValue? cs with
      | ([], _) => none
      | (ds, rest) => some (valueOf 16 ds, rest)
    else
      let (ds, rest) := spanDigits octalValue? (x :: cs)
      some (valueOf 8 ds, rest)
  | cs =>
    match spanDigits digitValue? cs with
    | ([], _) => none
    | (ds, rest) => some (valueOf 10 ds, rest)

/-- The parts of a numeric host, at most `room` of them. -/
def numericParts : Nat → List Char → Option (List Nat)
  | 0, _ => none
  | room + 1, cs =>
    match numericPart cs with
    | some (n, []) => some [n]
    | some (n, '.' :: rest) => (numericParts room rest).map (n :: ·)
    | _ => none

/-- The four bytes of a number below 2^32. -/
def ipv4OfNat (n : Nat) : Ipv4 :=
  ⟨(n / 16777216).toUInt8, (n / 65536).toUInt8, (n / 256).toUInt8, n.toUInt8⟩

/-- Puts bytes in front of a last part, which must fit what they leave. -/
def ofParts? : List Nat → Option Ipv4
  | [a] => if a < UInt32.size then some (ipv4OfNat a) else none
  | [a, b] => if a < 256 ∧ b < 16777216 then some (ipv4OfNat (a * 16777216 + b)) else none
  | [a, b, c] =>
    if a < 256 ∧ b < 256 ∧ c < 65536 then some (ipv4OfNat (a * 16777216 + b * 65536 + c)) else none
  | [a, b, c, d] =>
    if a < 256 ∧ b < 256 ∧ c < 256 ∧ d < 256 then
      some ⟨a.toUInt8, b.toUInt8, c.toUInt8, d.toUInt8⟩
    else none
  | _ => none

/-- The address that a numeric host stands for. -/
def ofNumeric? (s : String) : Option Ipv4 := (numericParts 4 s.toList).bind ofParts?

end ClusterNet.Ip
