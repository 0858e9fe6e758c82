import ClusterNet.Ip.Basic
import ClusterNet.Text.Reader

/-!
# Reading IP addresses

The four byte form is four decimal numbers without leading zeros. The eight group form
has hexadecimal groups of up to four digits, one `::` for at least one zero group, and
may end in four bytes. Both forms take the whole text.
-/

namespace ClusterNet.Ip

open Text

/-- A byte in decimal, with no zero in front of other digits. -/
def octet : Reader UInt8 := fun cs => do
  let (ds, rest) ← digits digitValue? 3 cs
  if ds.head? = some 0 ∧ 1 < ds.length then none
  else if 255 < valueOf 10 ds then none
  else some ((valueOf 10 ds).toUInt8, rest)

/-- A group in hexadecimal. -/
def group : Reader UInt16 := fun cs => do
  let (ds, rest) ← digits hexValue? 4 cs
  some ((valueOf 16 ds).toUInt16, rest)

def ipv4 : Reader Ipv4 := fun cs => do
  let (a, cs) ← octet cs
  let (_, cs) ← char '.' cs
  let (b, cs) ← octet cs
  let (_, cs) ← char '.' cs
  let (c, cs) ← octet cs
  let (_, cs) ← char '.' cs
  let (d, cs) ← octet cs
  some (⟨a, b, c, d⟩, cs)

/-- A colon unless nothing was read before. -/
def separator (first : Bool) : Reader Unit := fun cs => if first then some ((), cs) else char ':' cs

/-- Up to `room` groups. Four bytes in decimal stand for two groups and end the list. Returns
the groups, whether they end in four bytes, and the rest. -/
def groups (first : Bool) : Nat → List Char → List UInt16 × Bool × List Char
  | 0, cs => ([], false, cs)
  | room + 1, cs =>
    match (if 1 ≤ room then (separator first cs).bind fun (_, cs) => ipv4 cs else none) with
    | some (q, rest) =>
      ([q.a.toUInt16 <<< 8 ||| q.b.toUInt16, q.c.toUInt16 <<< 8 ||| q.d.toUInt16], true, rest)
    | none =>
      match (separator first cs).bind fun (_, cs) => group cs with
      | some (g, rest) => let (gs, quad, rest) := groups false room rest; (g :: gs, quad, rest)
      | none => ([], false, cs)

def ipv6 : Reader Ipv6 := fun cs =>
  let (head, quad, rest) := groups true 8 cs
  if head.length = 8 then (Ipv6.ofGroups? head).map (·, rest)
  else if quad then none
  else do
    let (_, rest) ← char ':' rest
    let (_, rest) ← char ':' rest
    let (tail, _, rest) := groups true (7 - head.length) rest
    let zeros := List.replicate (8 - head.length - tail.length) 0
    (Ipv6.ofGroups? (head ++ zeros ++ tail)).map (·, rest)

def ofChars? (cs : List Char) : Option Ip :=
  match whole ipv4 cs with
  | some q => some (.v4 q)
  | none => (whole ipv6 cs).map .v6

/-- The address that a text spells, if it is an IP literal. -/
def ofText? (s : String) : Option Ip := ofChars? s.toList

end ClusterNet.Ip
