import ClusterNet.Bytes

/-!
# Base64

The standard alphabet with padding. Reading accepts exactly what writing produces: the
padding must be there, and the bits that the last digit does not need must be zero.
-/

namespace ClusterNet.Base64

/-- The digit of a value below 64. -/
def digit (n : Nat) : Char :=
  if n < 26 then Char.ofNat (0x41 + n)
  else if n < 52 then Char.ofNat (0x61 + (n - 26))
  else if n < 62 then Char.ofNat (0x30 + (n - 52))
  else if n = 62 then '+'
  else '/'

def value? (c : Char) : Option Nat :=
  if 'A' ≤ c ∧ c ≤ 'Z' then some (c.toNat - 0x41)
  else if 'a' ≤ c ∧ c ≤ 'z' then some (c.toNat - 0x61 + 26)
  else if '0' ≤ c ∧ c ≤ '9' then some (c.toNat - 0x30 + 52)
  else if c = '+' then some 62
  else if c = '/' then some 63
  else none

/-- The digits of some bytes in reverse, after those in `done`. Three bytes make four digits. -/
def encodeOnto (done : List Char) : Bytes → List Char
  | a :: b :: c :: rest =>
    let n := a.toNat * 65536 + b.toNat * 256 + c.toNat
    encodeOnto (digit (n % 64) :: digit (n / 64 % 64) :: digit (n / 4096 % 64)
      :: digit (n / 262144) :: done) rest
  | [a, b] =>
    let n := a.toNat * 256 + b.toNat
    '=' :: digit (n % 16 * 4) :: digit (n / 16 % 64) :: digit (n / 1024) :: done
  | [a] => '=' :: '=' :: digit (a.toNat % 4 * 16) :: digit (a.toNat / 4) :: done
  | [] => done

def encode (b : Bytes) : String := String.ofList (encodeOnto [] b).reverse

/-- The bytes of some digits in reverse, after those in `done`. -/
def decodeOnto (done : Bytes) : List Char → Option Bytes
  | [] => some done
  | [p, q, '=', '='] => do
    let p ← value? p
    let q ← value? q
    if q % 16 = 0 then some (UInt8.ofNat (p * 4 + q / 16) :: done) else none
  | [p, q, r, '='] => do
    let p ← value? p
    let q ← value? q
    let r ← value? r
    if r % 4 = 0 then
      some (UInt8.ofNat (q % 16 * 16 + r / 4) :: UInt8.ofNat (p * 4 + q / 16) :: done)
    else none
  | p :: q :: r :: s :: rest =>
    match value? p, value? q, value? r, value? s with
    | some p, some q, some r, some s =>
      decodeOnto (UInt8.ofNat (r % 4 * 64 + s) :: UInt8.ofNat (q % 16 * 16 + r / 4)
        :: UInt8.ofNat (p * 4 + q / 16) :: done) rest
    | _, _, _, _ => none
  | _ => none

def decode? (s : String) : Option Bytes := (decodeOnto [] s.toList).map List.reverse

end ClusterNet.Base64
