/-!
# IP addresses

An address is four bytes or eight groups of sixteen bits.
-/

namespace ClusterNet

structure Ipv4 where
  a : UInt8
  b : UInt8
  c : UInt8
  d : UInt8
  deriving DecidableEq, Repr, Inhabited

structure Ipv6 where
  g0 : UInt16
  g1 : UInt16
  g2 : UInt16
  g3 : UInt16
  g4 : UInt16
  g5 : UInt16
  g6 : UInt16
  g7 : UInt16
  deriving DecidableEq, Repr, Inhabited

inductive Ip where
  | v4 (ip : Ipv4)
  | v6 (ip : Ipv6)
  deriving DecidableEq, Repr, Inhabited

namespace Ipv6

def groups (ip : Ipv6) : List UInt16 :=
  [ip.g0, ip.g1, ip.g2, ip.g3, ip.g4, ip.g5, ip.g6, ip.g7]

def ofGroups? : List UInt16 → Option Ipv6
  | [g0, g1, g2, g3, g4, g5, g6, g7] => some ⟨g0, g1, g2, g3, g4, g5, g6, g7⟩
  | _ => none

theorem ofGroups?_groups (ip : Ipv6) : ofGroups? ip.groups = some ip := rfl

/-- The four bytes inside an address of the form `::ffff:a.b.c.d`. -/
def mapped? (ip : Ipv6) : Option Ipv4 :=
  if ip.g0 = 0 ∧ ip.g1 = 0 ∧ ip.g2 = 0 ∧ ip.g3 = 0 ∧ ip.g4 = 0 ∧ ip.g5 = 0xFFFF then
    some ⟨(ip.g6 >>> 8).toUInt8, ip.g6.toUInt8, (ip.g7 >>> 8).toUInt8, ip.g7.toUInt8⟩
  else none

end Ipv6

end ClusterNet
