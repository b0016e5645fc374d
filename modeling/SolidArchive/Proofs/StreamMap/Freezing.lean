import SolidArchive.Proofs.Runs
import SolidArchive.Substreams

/-!
# Freezing the lists of substreams

A builder has its lists as they were read, in whatever order they were added to. What it freezes to
has just these lists (`freeze_ok`), and it is frozen if they agree (`exists_freeze`): the counts add
up to the number of sizes, which fits a word, and there is a digest for each size or for none.
-/

namespace SolidArchive.Substreams.Builder

variable {b : Builder} {s : Substreams} {total : Nat} {counts : List UInt64}

/-- A sum that fits a word is found. -/
theorem declared_eq (h : total + (numbers counts).sum < 2 ^ 64) :
    declared total counts = .ok (total + (numbers counts).sum) := by
  induction counts generalizing total with
  | nil => rfl
  | cons count counts ih =>
    have hsum : (numbers (count :: counts)).sum = count.toNat + (numbers counts).sum := rfl
    rw [hsum, ← Nat.add_assoc] at h ⊢
    rw [declared, if_pos (by omega)]
    exact ih h

/-- What a builder freezes to has its lists; without digests no substream has a checksum. -/
theorem freeze_ok (h : b.freeze = .ok s) :
    s.counts = b.counts ∧ s.sizes = b.sizes ∧
      s.crcs = if b.digests = [] then List.replicate b.sizes.length none else b.digests := by
  unfold freeze at h
  split at h
  · cases h
  · split at h
    · split at h
      · next hnone =>
        cases h
        rw [if_pos hnone]
        exact ⟨rfl, rfl, rfl⟩
      · next hsome =>
        split at h
        · cases h
          rw [if_neg hsome]
          exact ⟨rfl, rfl, rfl⟩
        · cases h
    · cases h

/-- Lists that agree are frozen. -/
theorem exists_freeze (hsum : (numbers b.counts).sum = b.sizes.length)
    (hword : b.sizes.length < 2 ^ 64)
    (hdigests : b.digests = [] ∨ b.digests.length = b.sizes.length) : ∃ s, b.freeze = .ok s := by
  -- the sum does not leave the word, so adding up the counts cannot fail
  have hdeclared : declared 0 b.counts = .ok b.sizes.length := by
    rw [declared_eq (by omega), Nat.zero_add, hsum]
  unfold freeze
  split
  · next error herror =>
    rw [hdeclared] at herror
    cases herror
  · next total htotal =>
    rw [hdeclared] at htotal
    obtain rfl := Except.ok.inj htotal
    rw [dif_pos rfl]
    split
    · exact ⟨_, rfl⟩
    · next hsome =>
      rw [dif_pos (hdigests.resolve_left hsome)]
      exact ⟨_, rfl⟩

end SolidArchive.Substreams.Builder
