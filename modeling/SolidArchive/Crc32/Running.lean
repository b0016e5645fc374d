import SolidArchive.Crc32

/-!
# Checksums that run along

A checksum runs along while bytes come in chunk by chunk, and it may be read out at any time and go
on (`Running`). `Crc32` is one that goes through the table (`throughTable`).

Another one leaves the bytes to a library (`throughLibrary`). The library is given the word that it
gave last, which stands for all bytes so far, and some more bytes. It counts these in 32 bits, so a
longer chunk is given to it in pieces; and its word may be wider than a digest, which is the low
half of it.
-/

namespace SolidArchive.Crc32

/-- A running checksum over a state. -/
structure Running (σ : Type) where
  start : σ
  update : σ → Bytes → σ
  finalize : σ → UInt32

namespace Running

variable {σ : Type}

/-- The digest of a byte string that comes in one chunk. -/
def digestOf (r : Running σ) (bytes : Bytes) : UInt32 := r.finalize (r.update r.start bytes)

/-- What is done with a running checksum. -/
inductive Use where
  | update (chunk : Bytes)
  | finalize
  deriving DecidableEq, Repr

/-- What is read out of a running checksum, one use after another. -/
def readings (r : Running σ) : σ → List Use → List UInt32
  | _, [] => []
  | s, .update chunk :: uses => r.readings (r.update s chunk) uses
  | s, .finalize :: uses => r.finalize s :: r.readings s uses

end Running

/-- The checksum that goes through the table. -/
def throughTable : Running Crc32 := ⟨start, update, finalize⟩

/-- The most that a library takes at once. -/
def maxPiece : Nat := 0xFFFFFFFF

/-- Gives a chunk to a library, piece by piece. -/
def feed (crc32 : UInt64 → Bytes → UInt64) (word : UInt64) (chunk : Bytes) : UInt64 :=
  if chunk = [] then word
  else feed crc32 (crc32 word (chunk.take maxPiece)) (chunk.drop maxPiece)
termination_by chunk.length
decreasing_by
  have hlength := List.length_pos_iff.mpr ‹chunk ≠ []›
  rw [List.length_drop]
  exact Nat.sub_lt hlength (by decide)

/-- The checksum that leaves the bytes to a library. -/
def throughLibrary (crc32 : UInt64 → Bytes → UInt64) : Running UInt64 :=
  ⟨0, feed crc32, UInt64.toUInt32⟩

end SolidArchive.Crc32
