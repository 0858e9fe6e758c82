import ClusterNet.Bytes

/-!
# Faults in UTF-8

Where a byte string stops being UTF-8, and what to show in place of the bytes that spell
nothing. A sequence that goes wrong is as long as its longest prefix that some character
starts with.
-/

namespace ClusterNet.Utf8

/-- What stands at the front of a byte string. -/
inductive Front where
  /-- A whole character of so many bytes. -/
  | char (width : Nat)
  /-- So many bytes that start a character, followed by one that cannot go on. -/
  | broken (length : Nat)
  /-- The bytes end inside a character. -/
  | cut
  deriving DecidableEq, Repr

def isTail (b : UInt8) : Bool := 0x80 ≤ b && b ≤ 0xBF

/-- The first tail byte of a three byte character, which excludes overlong forms and surrogates. -/
def secondOfThree (first b : UInt8) : Bool :=
  if first == 0xE0 then 0xA0 ≤ b && b ≤ 0xBF
  else if first == 0xED then 0x80 ≤ b && b ≤ 0x9F
  else isTail b

/-- The first tail byte of a four byte character: nothing overlong, nothing above U+10FFFF. -/
def secondOfFour (first b : UInt8) : Bool :=
  if first == 0xF0 then 0x90 ≤ b && b ≤ 0xBF
  else if first == 0xF4 then 0x80 ≤ b && b ≤ 0x8F
  else isTail b

/-- Checks the tail bytes one by one; `seen` bytes are already known to be good. -/
def tails (seen : Nat) : List (UInt8 → Bool) → Bytes → Front
  | [], _ => .char seen
  | _ :: _, [] => .cut
  | ok :: more, b :: rest => if ok b then tails (seen + 1) more rest else .broken seen

/-- The character that `first` begins, as far as `rest` goes on with it. -/
def front (first : UInt8) (rest : Bytes) : Front :=
  if first < 0x80 then .char 1
  else if 0xC2 ≤ first && first ≤ 0xDF then tails 1 [isTail] rest
  else if 0xE0 ≤ first && first ≤ 0xEF then tails 1 [secondOfThree first, isTail] rest
  else if 0xF0 ≤ first && first ≤ 0xF4 then tails 1 [secondOfFour first, isTail, isTail] rest
  else .broken 1

/-! ## The first fault -/

/-- The first place where bytes are no UTF-8. `length` is missing when the bytes end too early. -/
structure Fault where
  index : Nat
  length : Option Nat
  deriving DecidableEq, Repr

/-- Walks over the bytes; `skip` of them belong to a character that was already checked. -/
def faultFrom (index skip : Nat) : Bytes → Option Fault
  | [] => none
  | b :: rest =>
    match skip with
    | k + 1 => faultFrom (index + 1) k rest
    | 0 =>
      match front b rest with
      | .char width => faultFrom (index + 1) (width - 1) rest
      | .broken length => some ⟨index, some length⟩
      | .cut => some ⟨index, none⟩

def fault? (b : Bytes) : Option Fault := faultFrom 0 0 b

def Fault.message (f : Fault) : String :=
  match f.length with
  | some n => s!"invalid utf-8 sequence of {n} bytes from index {f.index}"
  | none => s!"incomplete utf-8 byte sequence from index {f.index}"

/-! ## Reading in spite of faults -/

/-- The character whose bytes are given. -/
def assemble : Bytes → Char
  | [a] => Char.ofNat a.toNat
  | [a, b] => Char.ofNat ((a.toNat % 32) * 64 + b.toNat % 64)
  | [a, b, c] => Char.ofNat ((a.toNat % 16) * 4096 + (b.toNat % 64) * 64 + c.toNat % 64)
  | [a, b, c, d] =>
    Char.ofNat ((a.toNat % 8) * 262144 + (b.toNat % 64) * 4096 + (c.toNat % 64) * 64 + d.toNat % 64)
  | _ => Char.ofNat 0xFFFD

/-- The characters in reverse, after those in `done`; `skip` bytes are already accounted for. -/
def lossyFrom (done : List Char) (skip : Nat) : Bytes → List Char
  | [] => done
  | b :: rest =>
    match skip with
    | k + 1 => lossyFrom done k rest
    | 0 =>
      match front b rest with
      | .char width => lossyFrom (assemble (b :: rest.take (width - 1)) :: done) (width - 1) rest
      | .broken length => lossyFrom (Char.ofNat 0xFFFD :: done) (length - 1) rest
      | .cut => Char.ofNat 0xFFFD :: done

/-- The text of some bytes, with U+FFFD for each sequence that spells nothing. -/
def lossy (b : Bytes) : String := String.ofList (lossyFrom [] 0 b).reverse

end ClusterNet.Utf8
