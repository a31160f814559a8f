/-!
# CRC-32

The cyclic redundancy check with the reflected polynomial `0xEDB88320`, all ones before and after. It names
build directories and payload files, so both only differ as far as the checksum does.
-/

namespace BuildPlan.Checksum

/-- The polynomial, lowest power in the highest bit. -/
def polynomial : UInt32 := 0xEDB88320

/-- One bit leaves the remainder. -/
def shift (remainder : UInt32) : UInt32 :=
  if remainder &&& 1 = 1 then (remainder >>> 1) ^^^ polynomial else remainder >>> 1

/-- One byte enters the remainder. -/
def absorb (remainder : UInt32) (byte : UInt8) : UInt32 :=
  Nat.repeat shift 8 (remainder ^^^ byte.toUInt32)

/-- The checksum of a sequence of bytes. -/
def crc32 (bytes : List UInt8) : UInt32 := (bytes.foldl absorb 0xFFFFFFFF) ^^^ 0xFFFFFFFF

/-- The bytes of a text in UTF-8. -/
def utf8 (s : String) : List UInt8 := s.toList.flatMap String.utf8EncodeChar

end BuildPlan.Checksum
