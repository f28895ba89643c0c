/-!
# Checksums — cyclic redundancy over 32 bits

The checksum of a sequence of bytes is the remainder of a polynomial
division. The state takes in the bits of each byte from the lowest on; it
begins with all bits set, and all bits are flipped at the end.
-/

namespace RecordStore

namespace Checksum

/-- The divisor without its leading term, lowest power in the highest bit. -/
def polynomial : UInt32 := 0xEDB88320

/-- The state after one more bit: the bit that drops out decides whether the divisor is
subtracted. -/
def shift (state : UInt32) : UInt32 :=
  if state &&& 1 = 1 then (state >>> 1) ^^^ polynomial else state >>> 1

/-- The state after so many bits. -/
def shiftTimes : Nat → UInt32 → UInt32
  | 0, state => state
  | n + 1, state => shiftTimes n (shift state)

/-- The state after one more byte. -/
def absorb (state : UInt32) (byte : UInt8) : UInt32 := shiftTimes 8 (state ^^^ byte.toUInt32)

/-- The state after bytes, one after the other. -/
def absorbAll (state : UInt32) (bytes : List UInt8) : UInt32 := bytes.foldl absorb state

/-- The checksum of a sequence of bytes. -/
def ofBytes (bytes : List UInt8) : UInt32 := absorbAll 0xFFFFFFFF bytes ^^^ 0xFFFFFFFF

/-- Bytes taken in one after the other, or in two parts, lead to the same state. -/
theorem absorbAll_append (state : UInt32) (a b : List UInt8) :
    absorbAll state (a ++ b) = absorbAll (absorbAll state a) b :=
  List.foldl_append

end Checksum

end RecordStore
