import SolidArchive.Proofs.Runs
import SolidArchive.Proofs.Verdict
import SolidArchive.StreamMap.PackRanges

/-!
# The pack region

What the pack ranges come to, in closed form: the offsets are the start of the region and the sums
of the sizes before, and the folder that takes the pack streams from `first` on has the range
`PackRange.tile` of them (`PackRange.ofArchive_decides`).

Of the checks on the way one can never fail. The end of the region is found to fit a word before any
folder is looked at, and the length of a folder is a part of what was added up for that
(`runStart_add_sliceSum_le`).
-/

namespace SolidArchive

namespace PackRange

variable {ground : Prop} {start stream : Nat} {sizes : List UInt64}

/-- The offsets are the start of the region and the sums of the sizes before. -/
theorem offsets_decides (h : start < 2 ^ 64) (sizes : List UInt64) :
    Decides ground (start + (numbers sizes).sum < 2 ^ 64)
      (· = ((List.range sizes.length).map fun k => start + runStart (numbers sizes) k,
        start + (numbers sizes).sum))
      (offsets start sizes) := by
  induction sizes generalizing start with
  | nil => exact Decides.pure (by simpa [numbers] using h) rfl
  | cons size sizes ih =>
    have hsum : (numbers (size :: sizes)).sum = size.toNat + (numbers sizes).sum := rfl
    rw [offsets, hsum]
    refine Decides.bind_eq (Decides.checkedAdd (by trivial)) (fun h => by omega) fun hnext => ?_
    refine ((ih hnext).of_iff (by rw [Nat.add_assoc])).bind_eq id fun hend => ?_
    refine Decides.pure hend ?_
    rw [List.length_cons, List.range_succ_eq_map, List.map_cons, List.map_map]
    simp [numbers, Function.comp_def, Nat.add_assoc]

/-- The length of some pack streams that lie in the region does not leave its word. -/
theorem totalLength_decides {count total : Nat} (hcount : stream + count ≤ sizes.length)
    (hword : total + sliceSum (numbers sizes) stream count < 2 ^ 64) :
    Decides ground True (· = total + sliceSum (numbers sizes) stream count)
      (totalLength sizes stream count total) := by
  induction count generalizing stream total with
  | zero => exact Decides.pure trivial (by simp)
  | succ count ih =>
    have hsize : sizes[stream]? = some sizes[stream] := List.getElem?_eq_getElem (by omega)
    rw [sliceSum_succ (getElem?_numbers_of hsize)] at hword ⊢
    rw [totalLength]
    refine Decides.step_eq (Decides.lookup hsize) ?_
    -- not a check at all: the sum is below one that fits
    have hsum : StructuralError.checkedAdd .packedLength total sizes[stream].toNat =
        .ok (total + sizes[stream].toNat) := if_pos (by omega)
    rw [hsum]
    refine (ih (by omega) (by omega)).congr Iff.rfl ?_
    rintro _ - rfl
    rw [Nat.add_assoc]

/-- The range of a folder that takes `count` streams from `first` on. -/
def tile (start : Nat) (sizes : List UInt64) (first count : Nat) : PackRange where
  first
  count
  offset := start + runStart (numbers sizes) first
  length := sliceSum (numbers sizes) first count

/-- The ranges that folders with `counts` inputs to read take one after another from `stream` on. -/
def tiles (start : Nat) (sizes : List UInt64) (stream : Nat) : List Nat → List PackRange
  | [] => []
  | count :: counts => tile start sizes stream count :: tiles start sizes (stream + count) counts

theorem getElem?_tiles (counts : List Nat) (k : Nat) :
    (tiles start sizes stream counts)[k]? =
      counts[k]?.map (tile start sizes (stream + runStart counts k)) := by
  induction counts generalizing stream k with
  | nil => rfl
  | cons count counts ih =>
    cases k with
    | zero => simp [tiles]
    | succ k => simp [tiles, ih, Nat.add_assoc]

@[simp] theorem length_tiles (counts : List Nat) :
    (tiles start sizes stream counts).length = counts.length := by
  induction counts generalizing stream with
  | nil => rfl
  | cons count counts ih => exact congrArg Nat.succ ih

/-- The number of inputs that each folder reads from the pack region. -/
def packCounts (graphs : List FolderGraph) : List Nat := graphs.map fun g => g.packedInputs.length

/-- The folders take their streams one after another, as long as there are enough. -/
theorem assign_decides (hword : ground → sizes.length < 2 ^ 64)
    (hend : start + (numbers sizes).sum < 2 ^ 64) (folder : Nat) (hstream : stream ≤ sizes.length)
    (graphs : List FolderGraph) :
    Decides ground (stream + (packCounts graphs).sum ≤ sizes.length)
      (· = (tiles start sizes stream (packCounts graphs), stream + (packCounts graphs).sum))
      (assign sizes ((List.range sizes.length).map fun k => start + runStart (numbers sizes) k)
        (start + (numbers sizes).sum) folder stream graphs) := by
  induction graphs generalizing folder stream with
  | nil => exact Decides.pure (by simpa [packCounts] using hstream) rfl
  | cons g graphs ih =>
    have hcounts : packCounts (g :: graphs) = g.packedInputs.length :: packCounts graphs := rfl
    rw [assign, hcounts, List.sum_cons]
    refine Decides.step_eq (Decides.sub hstream) ?_
    refine Decides.guard rfl trivial (fun hshort h => by omega) fun henough => ?_
    -- behind the last stream the offset is the end of the region
    refine Decides.branch (start + runStart (numbers sizes) stream) ?_ ?_ ?_
    · -- in the table
      intro hlt
      refine Decides.lookup ?_
      rw [List.length_map, List.length_range] at hlt
      rw [List.getElem?_map, List.getElem?_range hlt]
      rfl
    · -- behind it
      intro hge
      rw [List.length_map, List.length_range] at hge
      have hlast : stream = (numbers sizes).length := by
        rw [length_numbers]
        omega
      refine Decides.pure trivial ?_
      rw [hlast, runStart_length]
    -- the length is a part of the region, which ends in a word
    have hle := runStart_add_sliceSum_le (numbers sizes) stream g.packedInputs.length
    refine Decides.step_eq (totalLength_decides (by omega) (by omega)) ?_
    refine Decides.step_eq (Decides.add (fun _ => trivial) fun hg => ?_) ?_
    · have := hword hg
      omega
    rw [Nat.zero_add]
    refine ((ih (folder + 1) (by omega)).of_iff (by rw [Nat.add_assoc])).bind_eq id fun hend => ?_
    refine Decides.pure hend ?_
    rw [Nat.add_assoc]
    rfl

/-- **The pack region.** Its streams are handed out just when it ends below the largest word and the
folders have as many inputs to read as there are streams. -/
theorem ofArchive_decides (a : Archive) (graphs : List FolderGraph)
    (hword : ground → a.packSizes.length < 2 ^ 64) :
    Decides ground
      (a.packPosition.toNat + (numbers a.packSizes).sum < 2 ^ 64 ∧
        (packCounts graphs).sum = a.packSizes.length)
      (· = (tiles a.packPosition.toNat a.packSizes 0 (packCounts graphs),
        (List.range a.packSizes.length).map
          fun k => a.packPosition.toNat + runStart (numbers a.packSizes) k,
        a.packPosition.toNat + (numbers a.packSizes).sum))
      (ofArchive a graphs) := by
  unfold ofArchive
  -- first the offsets, then the ranges of the folders, then what is left over
  refine (offsets_decides a.packPosition.toNat_lt a.packSizes).bind_eq And.left fun hend => ?_
  refine (assign_decides hword hend 0 (Nat.zero_le _) graphs).bind_eq
    (fun h => by rw [Nat.zero_add]; exact h.2.le) fun hfits => ?_
  refine Decides.step_eq (Decides.sub hfits) ?_
  rw [Nat.zero_add] at hfits ⊢
  refine Decides.guard rfl trivial (fun hleft h => by omega) fun hleft => ?_
  exact Decides.pure ⟨hend, by omega⟩ rfl

end PackRange

end SolidArchive
