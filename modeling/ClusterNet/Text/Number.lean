/-!
# Decimal numbers in texts

Reading takes digits only, with one optional plus sign in front, and leading zeros are
allowed. The bound is part of the reading: a number above it is refused.
-/

namespace ClusterNet.Text

/-- The value of a digit string, or `none` for no digits or a character that is none. -/
def digitsValue? (cs : List Char) : Option Nat :=
  if cs.isEmpty || !cs.all Char.isDigit then none else some (Nat.ofDigitChars 10 cs 0)

/-- A number up to `bound`, with an optional plus sign. -/
def numberUpTo? (bound : Nat) (cs : List Char) : Option Nat :=
  let digits := match cs with
    | '+' :: rest => rest
    | _ => cs
  (digitsValue? digits).filter (· ≤ bound)

def uint16? (cs : List Char) : Option UInt16 := (numberUpTo? 65535 cs).map Nat.toUInt16

/-- The decimal digits of a number. -/
def decimal (n : Nat) : List Char := Nat.toDigits 10 n

end ClusterNet.Text
