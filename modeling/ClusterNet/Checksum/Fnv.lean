import ClusterNet.Bytes

/-!
# FNV-1a

The 64 bit variant of the hash: each byte is mixed in before the multiplication.
-/

namespace ClusterNet.Fnv

def offsetBasis : UInt64 := 0xcbf29ce484222325

def prime : UInt64 := 0x100000001b3

def byteStep (h : UInt64) (b : UInt8) : UInt64 := (h ^^^ b.toUInt64) * prime

def hash (b : Bytes) : UInt64 := b.foldl byteStep offsetBasis

end ClusterNet.Fnv
