import ClusterNet.Ip.Basic

/-!
# Writing IP addresses

Groups are written in lower case without leading zeros. The first longest run of at
least two zero groups becomes `::`. An address that maps four bytes shows them in
decimal.
-/

namespace ClusterNet

def Ipv4.chars (ip : Ipv4) : List Char :=
  Nat.toDigits 10 ip.a.toNat ++ '.' :: Nat.toDigits 10 ip.b.toNat ++
    '.' :: Nat.toDigits 10 ip.c.toNat ++ '.' :: Nat.toDigits 10 ip.d.toNat

namespace Ipv6

/-- The length of the run of zero groups at the front. -/
def zeroRun (gs : List UInt16) : Nat := (gs.takeWhile (· == 0)).length

/-- Start and length of the first longest run of zero groups, from position `i` on. -/
def longestRun (i : Nat) : List UInt16 → Nat × Nat
  | [] => (i, 0)
  | g :: gs =>
    let rest := longestRun (i + 1) gs
    if rest.2 ≤ zeroRun (g :: gs) then (i, zeroRun (g :: gs)) else rest

def groupChars (g : UInt16) : List Char := Nat.toDigits 16 g.toNat

/-- Groups with colons between them. -/
def joined (gs : List UInt16) : List Char := [':'].intercalate (gs.map groupChars)

def chars (ip : Ipv6) : List Char :=
  match ip.mapped? with
  | some q => "::ffff:".toList ++ q.chars
  | none =>
    let (start, length) := longestRun 0 ip.groups
    if 1 < length then
      joined (ip.groups.take start) ++ ':' :: ':' :: joined (ip.groups.drop (start + length))
    else joined ip.groups

end Ipv6

namespace Ip

def chars : Ip → List Char
  | .v4 ip => ip.chars
  | .v6 ip => ip.chars

/-- The canonical text of an address. -/
def text (ip : Ip) : String := String.ofList ip.chars

end Ip

end ClusterNet
