import SolidArchive.Codec.StreamDecoder

/-!
# Runs of equal bytes

Before anything else a BZip2 encoder shortens runs: four equal bytes in a row are followed by a byte
that says how many more of them there are. Reading is a walk that remembers how many equal bytes it
has just seen; after the fourth the next byte is a count, and after a count nothing is remembered.

A block that ends where a count is due is damaged. The decoder notices only after it has written the
run with the count it finds there, which is the byte that a further step through the block would
give.
-/

namespace SolidArchive.Codec.Bzip2

/-- A walk through the bytes of a block. -/
structure Runs where
  /-- The bytes written so far. -/
  out : Array UInt8 := #[]
  /-- The last byte. -/
  last : UInt8 := 0
  /-- How many times in a row it came; zero at the start and after a count. -/
  seen : Nat := 0

namespace Runs

/-- Takes the next byte of the block. -/
def step (r : Runs) (byte : UInt8) : Runs :=
  if r.seen = 4 then
    { r with out := StreamDecoder.pushAll r.out (List.replicate byte.toNat r.last), seen := 0 }
  else
    { out := r.out.push byte
      last := byte
      seen := if 0 < r.seen ∧ byte = r.last then r.seen + 1 else 1 }

/-- The walk through a whole block. -/
def ofBlock (block : Bytes) : Runs := block.foldl step {}

/-- A count is due. -/
def isOpen (r : Runs) : Bool := r.seen = 4

end Runs

end SolidArchive.Codec.Bzip2
