import LogKv.Bytes

/-!
The 32-bit cyclic redundancy check of IEEE 802.3, in its reflected form. The register starts with
all bits set, takes the bytes in order, low bit first, and is inverted at the end.
-/

namespace LogKv.Crc32

/-- The generator polynomial, lowest power at the highest bit. -/
def polynomial : UInt32 := 0xEDB88320

/-- Moves the register on by one bit. -/
def shift (register : UInt32) : UInt32 :=
  if register &&& 1 = 1 then (register >>> 1) ^^^ polynomial else register >>> 1

/-- Moves the register on by so many bits. -/
def shifts : Nat → UInt32 → UInt32
  | 0, register => register
  | n + 1, register => shifts n (shift register)

/-- Takes one byte into the register. -/
def feed (register : UInt32) (b : UInt8) : UInt32 := shifts 8 (register ^^^ b.toUInt32)

/-- The register before the first byte, and the mask that inverts it after the last. -/
def allOnes : UInt32 := 0xFFFFFFFF

/-- The checksum of a byte string. -/
def checksum (s : Bytes) : UInt32 := s.foldl feed allOnes ^^^ allOnes

-- The check value of the standard: the checksum of the nine digits from 1 to 9.
example : checksum [49, 50, 51, 52, 53, 54, 55, 56, 57] = 0xCBF43926 := by decide +kernel

end LogKv.Crc32
