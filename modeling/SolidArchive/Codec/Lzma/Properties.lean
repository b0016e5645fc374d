import SolidArchive.Bytes

/-!
# Properties of an LZMA coder

An LZMA coder is described by five bytes: one packs three small numbers that say how a symbol's
context is formed, four hold the size of the dictionary. An LZMA2 coder is described by one byte for
the size of the dictionary; the three numbers come in the stream.
-/

namespace SolidArchive.Codec.Lzma

/-- How the context of a symbol is formed. -/
structure Parameters where
  /-- How many high bits of the byte before a literal count. -/
  literalContext : Nat
  /-- How many low bits of the position count for a literal. -/
  literalPosition : Nat
  /-- How many low bits of the position count for other symbols. -/
  position : Nat
  deriving DecidableEq, Repr

/-- The parameters packed into a byte, unless it is out of range or asks for too many literal
contexts. -/
def Parameters.ofByte? (byte : UInt8) : Option Parameters :=
  let value := byte.toNat
  if 224 < value then none
  else if 4 < value % 9 + value / 9 % 5 then none
  else some
    { literalContext := value % 9, literalPosition := value / 9 % 5, position := value / 45 }

/-- The dictionary that is kept for a declared size: never below 4 KiB, and a multiple of 16. -/
def dictionaryCapacity (declared : Nat) : Nat :=
  (max declared 4096 + 15) / 16 * 16

/-- Reads the properties of an LZMA coder. -/
def properties? : Bytes → Option (Parameters × Nat)
  | [packed, a, b, c, d] => do
    let parameters ← Parameters.ofByte? packed
    some (parameters, dictionaryCapacity (littleEndian [a, b, c, d]))
  | _ => none

/-- The dictionary size that the property byte of an LZMA2 coder stands for. -/
def dictionarySize? (byte : UInt8) : Option Nat :=
  let value := byte.toNat
  if 40 < value then none
  else if value = 40 then some 0xFFFFFFFF
  else some ((2 + value % 2) <<< (value / 2 + 11))

/-- Reads the properties of an LZMA2 coder. -/
def chunkedProperties? : Bytes → Option Nat
  | [packed] => (dictionarySize? packed).map dictionaryCapacity
  | _ => none

end SolidArchive.Codec.Lzma
