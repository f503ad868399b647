import TimeSeries.Bytes

/-!
# Checksums

The cyclic redundancy check of 32 bits with the polynomial of Ethernet, its bits in reverse. The
register starts with all bits set, each byte is added to its low end and shifted through eight
times, and the check is the complement of the register.
-/

namespace TimeSeries.Checksum

/-- The polynomial, lowest power in the highest bit. -/
def polynomial : BitVec 32 := 0xEDB88320#32

/-- Shifts the register by one bit. -/
def shift (register : BitVec 32) : BitVec 32 :=
  if register.getLsbD 0 then (register >>> 1) ^^^ polynomial else register >>> 1

/-- Shifts the register by a number of bits. -/
def shiftBy : Nat → BitVec 32 → BitVec 32
  | 0, register => register
  | n + 1, register => shiftBy n (shift register)

/-- Takes a byte into the register. -/
def addByte (register : BitVec 32) (byte : UInt8) : BitVec 32 :=
  shiftBy 8 (register ^^^ byte.toBitVec.setWidth 32)

/-- The register after some bytes. -/
def register (bytes : Bytes) : BitVec 32 := bytes.foldl addByte (BitVec.allOnes 32)

/-- The checksum of some bytes. -/
def ofBytes (bytes : Bytes) : BitVec 32 := ~~~ register bytes

-- the check value of this code, which is that of the nine digits from 1
example : ofBytes [49, 50, 51, 52, 53, 54, 55, 56, 57] = 0xCBF43926#32 := by
  decide +kernel

end TimeSeries.Checksum
