import SolidArchive.Bytes

/-!
# CRC-32

The checksum of the archive's substreams and pack streams: a 32-bit register that starts with all
bits set is divided by the reflected polynomial `0xEDB88320`, the bits of each byte entering at the
low end, and its complement is the digest.

`Crc32.reference` runs the division bit by bit and is the definition. `Crc32.digest` is what the
library calls: it takes a byte at a time through a table of the 256 possible eight-bit divisions.
The running value `Crc32` holds the *finished* digest of what was read so far, so reading it out
does not disturb later updates.
-/

namespace SolidArchive

namespace Crc32

/-- The reflected generator polynomial. -/
def polynomial : UInt32 := 0xEDB88320

/-! ### The division, bit by bit -/

/-- Divides the lowest bit out of the register. -/
def shiftBit (register : UInt32) : UInt32 :=
  if register &&& 1 = 1 then (register >>> 1) ^^^ polynomial else register >>> 1

/-- Divides the lowest `count` bits out of the register. -/
def shiftBits : (count : Nat) → (register : UInt32) → UInt32
  | 0, register => register
  | count + 1, register => shiftBits count (shiftBit register)

@[simp] theorem shiftBits_zero (register : UInt32) : shiftBits 0 register = register := rfl

@[simp] theorem shiftBits_succ (count : Nat) (register : UInt32) :
    shiftBits (count + 1) register = shiftBits count (shiftBit register) := rfl

/-- Takes one byte into the register, bit by bit. -/
def absorbBits (register : UInt32) (byte : UInt8) : UInt32 :=
  shiftBits 8 (register ^^^ byte.toUInt32)

/-- The CRC-32 of a byte string by its definition. -/
def reference (bytes : Bytes) : UInt32 :=
  ~~~ bytes.foldl absorbBits 0xFFFFFFFF

/-! ### The division, byte by byte -/

/-- What eight divisions leave of each register that holds a single byte. -/
def table : Array UInt32 :=
  Array.ofFn fun i : Fin 256 => shiftBits 8 (UInt32.ofNat i.val)

/-- Takes one byte into the register through the table. -/
def absorb (register : UInt32) (byte : UInt8) : UInt32 :=
  table.getD ((register ^^^ byte.toUInt32) &&& 0xFF).toNat 0 ^^^ (register >>> 8)

end Crc32

/-- A running checksum. The value is the digest of everything read so far. -/
structure Crc32 where
  /-- The digest so far; that of the empty string is zero. -/
  value : UInt32 := 0
  deriving DecidableEq, Repr

namespace Crc32

/-- The checksum of nothing. -/
def start : Crc32 := {}

/-- Continues a checksum with more bytes: the digest is complemented back into the register. -/
def update (crc : Crc32) (bytes : Bytes) : Crc32 where
  value := ~~~ bytes.foldl absorb (~~~ crc.value)

/-- The digest of everything read so far. -/
def finalize (crc : Crc32) : UInt32 := crc.value

/-- The CRC-32 of a byte string. -/
def digest (bytes : Bytes) : UInt32 := (start.update bytes).finalize

@[simp] theorem finalize_start : start.finalize = 0 := rfl

end Crc32

end SolidArchive
