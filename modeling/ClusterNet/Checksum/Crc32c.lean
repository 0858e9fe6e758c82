import ClusterNet.Bytes

/-!
# CRC-32C

The reflected Castagnoli checksum: the register starts at all ones, takes the bits of each
byte from the least significant one up, and is inverted at the end.
-/

namespace ClusterNet.Crc32c

/-- The polynomial with its bits reflected. -/
def polynomial : UInt32 := 0x82F63B78

/-- Divides by one bit. -/
def bitStep (r : UInt32) : UInt32 :=
  if r &&& 1 == 0 then r >>> 1 else (r >>> 1) ^^^ polynomial

def byteStep (r : UInt32) (b : UInt8) : UInt32 :=
  let r := r ^^^ b.toUInt32
  bitStep (bitStep (bitStep (bitStep (bitStep (bitStep (bitStep (bitStep r)))))))

/-- The register after some bytes. -/
def register (r : UInt32) (b : Bytes) : UInt32 := b.foldl byteStep r

/-- The checksum of some bytes. -/
def checksum (b : Bytes) : UInt32 := ~~~ register 0xFFFFFFFF b

end ClusterNet.Crc32c
