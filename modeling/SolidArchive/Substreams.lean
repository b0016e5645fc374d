import SolidArchive.Error

/-!
# Substreams

A folder's output is the contents of its files one after another; each of these is a substream. The
header lists how many substreams each folder has, the size of each, and, for some, a checksum. The
three lists come separately and are put together by a `Substreams.Builder`, whose `freeze` checks
that they agree. What it gives carries that agreement in its type, so no later code has to doubt it.
-/

namespace SolidArchive

/-- The substreams of all folders. -/
structure Substreams where
  /-- How many substreams each folder has. -/
  counts : List UInt64 := []
  /-- The size of each substream, folder after folder. -/
  sizes : List UInt64 := []
  /-- The checksum of each substream, if it has one. -/
  crcs : List (Option UInt32) := []
  counts_sum : counts.foldl (fun total count => total + count.toNat) 0 = sizes.length := by simp
  crcs_length : crcs.length = sizes.length := by simp

namespace Substreams

/-- No folders. -/
def empty : Substreams := {}

/-- The checksum of a substream, if it is in range and has one. -/
def crc (s : Substreams) (substream : Nat) : Option UInt32 := s.crcs[substream]?.join

/-- The lists of a header as they are read. -/
structure Builder where
  counts : List UInt64 := []
  sizes : List UInt64 := []
  digests : List (Option UInt32) := []
  deriving DecidableEq, Repr

namespace Builder

/-- Adds a folder of `count` substreams. -/
def addFolder (b : Builder) (count : UInt64) : Builder := { b with counts := b.counts ++ [count] }

/-- Adds the size of a substream. -/
def addSize (b : Builder) (size : UInt64) : Builder := { b with sizes := b.sizes ++ [size] }

/-- Adds the checksum of a substream. -/
def addCrc (b : Builder) (crc : UInt32) : Builder := { b with digests := b.digests ++ [some crc] }

/-- Adds that a substream has no checksum. -/
def addMissingCrc (b : Builder) : Builder := { b with digests := b.digests ++ [none] }

/-- The sum of the counts, from `total` on, unless it leaves a word. -/
def declared (total : Nat) : List UInt64 → Except StructuralError Nat
  | [] => .ok total
  | count :: counts =>
    if total + count.toNat < 1 <<< 64 then declared (total + count.toNat) counts
    else .error .substreamCountOverflow

/-- A sum that does not leave a word is the exact one. -/
theorem declared_eq_ok {total sum : Nat} {counts : List UInt64}
    (h : declared total counts = .ok sum) :
    sum = counts.foldl (fun total count => total + count.toNat) total := by
  induction counts generalizing total with
  | nil => simp only [declared, Except.ok.injEq] at h; simp [h]
  | cons count counts ih =>
    rw [declared] at h
    split at h
    · rw [List.foldl_cons]
      exact ih h
    · cases h

/-- Checks that the lists agree: there is a size for each substream, and a digest for each or for
none. -/
def freeze (b : Builder) : Except StructuralError Substreams :=
  match hsum : declared 0 b.counts with
  | .error e => .error e
  | .ok total =>
    if hsizes : total = b.sizes.length then
      if b.digests = [] then
        .ok {
          counts := b.counts
          sizes := b.sizes
          crcs := List.replicate b.sizes.length none
          counts_sum := by rw [← hsizes, declared_eq_ok hsum]
          crcs_length := by simp }
      else if hdigests : b.digests.length = b.sizes.length then
        .ok {
          counts := b.counts
          sizes := b.sizes
          crcs := b.digests
          counts_sum := by rw [← hsizes, declared_eq_ok hsum]
          crcs_length := hdigests }
      else .error (.substreamDigestCount b.digests.length b.sizes.length)
    else .error (.substreamSizeCount total b.sizes.length)

end Builder

end Substreams

end SolidArchive
