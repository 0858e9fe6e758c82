import ClusterNet.Bytes
import ClusterNet.Ip.Basic

/-!
# IP addresses as bytes

Four bytes, or sixteen with each group in big-endian order.
-/

namespace ClusterNet

namespace Ipv4

def octets (ip : Ipv4) : Bytes := [ip.a, ip.b, ip.c, ip.d]

end Ipv4

namespace Ipv6

def octets (ip : Ipv6) : Bytes := ip.groups.flatMap Bytes.ofUInt16

end Ipv6

namespace Ip

def octets : Ip → Bytes
  | .v4 ip => ip.octets
  | .v6 ip => ip.octets

/-- The address that some bytes are. -/
def ofOctets? : Bytes → Option Ip
  | [a, b, c, d] => some (.v4 ⟨a, b, c, d⟩)
  | [a, b, c, d, e, f, g, h, i, j, k, l, m, n, o, p] =>
    some (.v6 ⟨Bytes.toUInt16 a b, Bytes.toUInt16 c d, Bytes.toUInt16 e f, Bytes.toUInt16 g h,
      Bytes.toUInt16 i j, Bytes.toUInt16 k l, Bytes.toUInt16 m n, Bytes.toUInt16 o p⟩)
  | _ => none

end Ip

end ClusterNet
