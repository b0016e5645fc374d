import Mathlib

/-!
# Consecutive runs

A list of counts cuts the numbers below its sum into consecutive runs, one for each count: the
coders of a folder cut its input and its output streams so, and the folders of an archive cut its
pack streams and its substreams. `runStart counts k` is where the `k`-th run starts and `InRun
counts k i` says that `i` lies in it. Every number below the sum lies in one run
(`existsUnique_inRun`).
-/

namespace SolidArchive

variable {counts : List Nat} {i k l : Nat}

/-- Where the `k`-th of the consecutive runs starts. -/
def runStart (counts : List Nat) (k : Nat) : Nat := (counts.take k).sum

/-- The number `i` is in the `k`-th of the consecutive runs. -/
def InRun (counts : List Nat) (k i : Nat) : Prop :=
  k < counts.length ∧ runStart counts k ≤ i ∧ i < runStart counts (k + 1)

@[simp] theorem runStart_zero (counts : List Nat) : runStart counts 0 = 0 := by
  simp [runStart]

@[simp] theorem runStart_length (counts : List Nat) :
    runStart counts counts.length = counts.sum := by
  simp [runStart]

@[simp] theorem runStart_cons_succ (n : Nat) (counts : List Nat) (k : Nat) :
    runStart (n :: counts) (k + 1) = n + runStart counts k := by
  simp [runStart]

theorem runStart_succ {count : Nat} (h : counts[k]? = some count) :
    runStart counts (k + 1) = runStart counts k + count := by
  obtain ⟨hk, rfl⟩ := List.getElem?_eq_some_iff.mp h
  exact List.sum_take_succ counts k hk

theorem runStart_succ_getD (counts : List Nat) (k : Nat) :
    runStart counts (k + 1) = runStart counts k + counts[k]?.getD 0 := by
  cases h : counts[k]? with
  | some count => exact runStart_succ h
  | none =>
    rw [List.getElem?_eq_none_iff] at h
    rw [runStart, runStart, List.take_of_length_le h, List.take_of_length_le (by omega)]
    rfl

theorem runStart_mono (counts : List Nat) : Monotone (runStart counts) :=
  List.monotone_sum_take counts

theorem runStart_le_sum (counts : List Nat) (k : Nat) : runStart counts k ≤ counts.sum := by
  rw [← List.sum_take_add_sum_drop counts k]
  exact Nat.le_add_right _ _

theorem InRun.lt_sum (h : InRun counts k i) : i < counts.sum :=
  h.2.2.trans_le (runStart_le_sum counts (k + 1))

/-- A number is behind the starts of the runs up to its own and before those of the later ones. -/
theorem InRun.start_le_iff (h : InRun counts k i) : runStart counts l ≤ i ↔ l ≤ k := by
  refine ⟨?_, ?_⟩
  · intro hl
    by_contra hlk
    have hkl : k + 1 ≤ l := by omega
    have := runStart_mono counts hkl
    have := h.2.2
    omega
  · intro hlk
    exact (runStart_mono counts hlk).trans h.2.1

theorem InRun.unique (hk : InRun counts k i) (hl : InRun counts l i) : k = l :=
  le_antisymm (hl.start_le_iff.mp hk.2.1) (hk.start_le_iff.mp hl.2.1)

/-- Every number below the sum is in one of the runs. -/
theorem exists_inRun (h : i < counts.sum) : ∃ k, InRun counts k i := by
  induction counts generalizing i with
  | nil => simp at h
  | cons n counts ih =>
    by_cases hn : i < n
    · -- the first run holds what is below its count
      refine ⟨0, by simp, by simp, ?_⟩
      simpa using hn
    · -- the runs of the other counts hold the rest, counted from its end
      have hrest : i - n < counts.sum := by
        rw [List.sum_cons] at h
        omega
      obtain ⟨k, hlen, hle, hlt⟩ := ih hrest
      refine ⟨k + 1, by simpa using hlen, ?_, ?_⟩
      · rw [runStart_cons_succ]
        omega
      · rw [runStart_cons_succ]
        omega

/-- The runs are a partition of the numbers below the sum. -/
theorem existsUnique_inRun (h : i < counts.sum) : ∃! k, InRun counts k i := by
  obtain ⟨k, hk⟩ := exists_inRun h
  exact ⟨k, hk, fun l hl => hl.unique hk⟩

/-- Lists as long as the runs together are equal if they are on every run. -/
theorem eq_of_runs {α : Type} {xs ys : List α} (hxs : xs.length = counts.sum)
    (hys : ys.length = counts.sum)
    (h : ∀ k count, counts[k]? = some count → (xs.drop (runStart counts k)).take count =
      (ys.drop (runStart counts k)).take count) : xs = ys := by
  ext1 i
  by_cases hi : i < counts.sum
  · -- they are compared in the run that holds the index
    obtain ⟨k, hk, hstart, hend⟩ := exists_inRun hi
    have hcount := List.getElem?_eq_getElem hk
    rw [runStart_succ hcount] at hend
    have hin : i - runStart counts k < counts[k] := by omega
    have hat : runStart counts k + (i - runStart counts k) = i := Nat.add_sub_cancel' hstart
    have hrun := congrArg (·[i - runStart counts k]?) (h k _ hcount)
    simp only [List.getElem?_take_of_lt hin, List.getElem?_drop, hat] at hrun
    exact hrun
  · rw [List.getElem?_eq_none (by omega), List.getElem?_eq_none (by omega)]

/-- The sum of `count` numbers of a list from `first` on. -/
def sliceSum (sizes : List Nat) (first count : Nat) : Nat := ((sizes.drop first).take count).sum

@[simp] theorem sliceSum_zero (sizes : List Nat) (first : Nat) : sliceSum sizes first 0 = 0 := by
  simp [sliceSum]

theorem sliceSum_succ {sizes : List Nat} {first size : Nat} (h : sizes[first]? = some size)
    (count : Nat) :
    sliceSum sizes first (count + 1) = size + sliceSum sizes (first + 1) count := by
  obtain ⟨hlt, rfl⟩ := List.getElem?_eq_some_iff.mp h
  rw [sliceSum, List.drop_eq_getElem_cons hlt, List.take_succ_cons, List.sum_cons, sliceSum]

/-- A start of a run and the sum behind it are the start of a later run. -/
theorem runStart_add (sizes : List Nat) (first count : Nat) :
    runStart sizes (first + count) = runStart sizes first + sliceSum sizes first count := by
  rw [runStart, List.take_add, List.sum_append, runStart, sliceSum]

theorem runStart_add_sliceSum_le (sizes : List Nat) (first count : Nat) :
    runStart sizes first + sliceSum sizes first count ≤ sizes.sum := by
  rw [← runStart_add]
  exact runStart_le_sum sizes (first + count)

/-- One more number at the end. -/
theorem sliceSum_succ_last {sizes : List Nat} {first count size : Nat}
    (h : sizes[first + count]? = some size) :
    sliceSum sizes first (count + 1) = sliceSum sizes first count + size := by
  have hnext := runStart_succ h
  rw [Nat.add_assoc, runStart_add, runStart_add, Nat.add_assoc] at hnext
  exact Nat.add_left_cancel hnext

theorem sliceSum_mono (sizes : List Nat) (first : Nat) : Monotone (sliceSum sizes first) := by
  intro m n h
  have hle := runStart_mono sizes (Nat.add_le_add_left h first)
  rw [runStart_add, runStart_add] at hle
  exact Nat.le_of_add_le_add_left hle

/-- A run that is not empty holds its start. -/
theorem inRun_start {count : Nat} (h : counts[k]? = some count) (hpos : 0 < count) :
    InRun counts k (runStart counts k) := by
  refine ⟨(List.getElem?_eq_some_iff.mp h).1, le_rfl, ?_⟩
  rw [runStart_succ h]
  omega

/-- A sum is added up from the front. -/
theorem sum_map_eq_foldl {α : Type} (f : α → Nat) (l : List α) :
    (l.map f).sum = l.foldl (fun total a => total + f a) 0 := by
  rw [List.sum_eq_foldl_nat, List.foldl_map]

/-! ### Words as numbers -/

/-- The words of a table of the header as numbers. -/
def numbers (words : List UInt64) : List Nat := words.map UInt64.toNat

@[simp] theorem length_numbers (words : List UInt64) : (numbers words).length = words.length := by
  simp [numbers]

theorem getElem?_numbers (words : List UInt64) (i : Nat) :
    (numbers words)[i]? = words[i]?.map UInt64.toNat := by
  simp [numbers]

theorem getElem?_numbers_of {words : List UInt64} {word : UInt64} (h : words[i]? = some word) :
    (numbers words)[i]? = some word.toNat := by
  rw [getElem?_numbers, h]
  rfl

end SolidArchive
