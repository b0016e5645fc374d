import SolidArchive.Proofs.StreamMap.Contents
import SolidArchive.StreamMap.Placement

/-!
# Where the files are placed

The cursor goes through the folders and the list of all substreams at once, and nothing in the list
says where a folder ends. What keeps the two in step is that the number of substreams taken so far
is always that of the folders passed plus that taken of the folder the cursor is in, and that it is
in a folder only while some of that folder's substreams are left (`Cursor.At`). Passing over a
folder without substreams changes neither side.

So each file gets the next substream, in the folder in whose run that lies, behind the others of the
run (`FileSpan.Fits`). That there is a folder left is the same as that there is a substream left.
-/

namespace SolidArchive

open FolderContent

variable {ground : Prop} {contents : List FolderContent} {substreams : List Substream}

/-- The slice of a file is its substream, in the folder in whose run that lies. -/
structure FileSpan.Fits (contents : List FolderContent) (substreams : List Substream)
    (span : FileSpan) : Prop where
  inRun : InRun (substreamCounts contents) span.folder span.substream
  offset : span.offset = sliceSum (substreams.map Substream.size)
    (runStart (substreamCounts contents) span.folder)
    (span.substream - runStart (substreamCounts contents) span.folder)
  slot : substreams[span.substream]? = some { size := span.size, crc := span.crc }

namespace Cursor

/-- The cursor is where the folders passed and the substreams taken of its folder put it. -/
structure At (contents : List FolderContent) (substreams : List Substream) (c : Cursor) :
    Prop where
  folder_le : c.folder ≤ contents.length
  substream : c.substream = runStart (substreamCounts contents) c.folder + c.taken
  offset : c.offset = sliceSum (substreams.map Substream.size)
    (runStart (substreamCounts contents) c.folder) c.taken
  within : c.taken ≠ 0 →
    ∃ content, contents[c.folder]? = some content ∧ c.taken < content.substreamCount

theorem at_start : ({} : Cursor).At contents substreams where
  folder_le := Nat.zero_le _
  substream := by simp
  offset := by simp
  within h := absurd rfl h

/-! ### Passing over folders without substreams -/

theorem skipEmpty_le {folder : Nat} (h : folder ≤ contents.length) :
    skipEmpty contents folder ≤ contents.length := by
  have hle := (List.takeWhile_prefix (fun c : FolderContent => c.substreamCount = 0)
    (l := contents.drop folder)).length_le
  rw [List.length_drop] at hle
  unfold skipEmpty
  omega

theorem runStart_skipEmpty (contents : List FolderContent) (folder : Nat) :
    runStart (substreamCounts contents) (skipEmpty contents folder) =
      runStart (substreamCounts contents) folder := by
  have hpassed := List.prefix_iff_eq_take.mp
    (List.takeWhile_prefix (fun c : FolderContent => c.substreamCount = 0)
      (l := contents.drop folder))
  unfold skipEmpty
  rw [runStart_add, Nat.add_eq_left]
  -- the counts of the folders passed over are all zero
  unfold sliceSum substreamCounts
  rw [← List.map_drop, ← List.map_take, ← hpassed, List.sum_eq_zero_iff]
  intro count hcount
  obtain ⟨content, hcontent, rfl⟩ := List.mem_map.mp hcount
  simpa using List.mem_takeWhile_imp hcontent

/-- The walk stops at a folder with substreams. -/
theorem skipEmpty_pos {folder : Nat} {content : FolderContent}
    (h : contents[skipEmpty contents folder]? = some content) : 0 < content.substreamCount := by
  rw [skipEmpty, ← List.getElem?_drop] at h
  -- the walk sees nothing but the folders from here on
  generalize contents.drop folder = rest at h
  induction rest with
  | nil => simp at h
  | cons first rest ih =>
    by_cases hfirst : first.substreamCount = 0
    · exact ih (by simpa [hfirst] using h)
    · obtain rfl : first = content := by simpa [hfirst] using h
      exact Nat.pos_of_ne_zero hfirst

/-- The cursor may as well be in the folder of the next file. -/
theorem At.nextFolder {c : Cursor} (h : c.At contents substreams) :
    ({ c with folder := c.nextFolder contents } : Cursor).At contents substreams ∧
      ∀ content, contents[c.nextFolder contents]? = some content →
        c.taken < content.substreamCount := by
  by_cases htaken : c.taken = 0
  · -- between two folders the cursor moves on to one with substreams
    have hnext : c.nextFolder contents = skipEmpty contents c.folder := if_pos htaken
    rw [hnext]
    refine ⟨⟨skipEmpty_le h.folder_le, ?_, ?_, fun hne => absurd htaken hne⟩, ?_⟩
    · rw [runStart_skipEmpty]
      exact h.substream
    · rw [runStart_skipEmpty]
      exact h.offset
    · intro content hcontent
      rw [htaken]
      exact skipEmpty_pos hcontent
  · -- inside a folder it stays, since there is something left
    have hnext : c.nextFolder contents = c.folder := if_neg htaken
    rw [hnext]
    refine ⟨h, fun content hcontent => ?_⟩
    obtain ⟨content', hcontent', hlt⟩ := h.within htaken
    rw [hcontent] at hcontent'
    cases hcontent'
    exact hlt

/-! ### Placing one file -/

theorem getElem?_substreamCounts {k : Nat} {content : FolderContent}
    (h : contents[k]? = some content) :
    (substreamCounts contents)[k]? = some content.substreamCount := by
  rw [substreamCounts, List.getElem?_map, h]
  rfl

/-- Behind the last folder all substreams are taken. -/
theorem At.substream_eq {c : Cursor} (h : c.At contents substreams)
    (hcovers : Covers contents substreams) (hend : contents.length ≤ c.folder) :
    c.substream = substreams.length := by
  -- nothing can be taken of a folder that is not there
  have hzero : c.taken = 0 := by
    by_contra htaken
    obtain ⟨content, hcontent, -⟩ := h.within htaken
    exact Nat.not_le.mpr (List.getElem?_eq_some_iff.mp hcontent).1 hend
  have hlast : c.folder = (substreamCounts contents).length := by
    rw [substreamCounts, List.length_map]
    exact le_antisymm h.folder_le hend
  rw [h.substream, hlast, runStart_length, hzero, Nat.add_zero, hcovers.length]

section Inside

variable {c : Cursor} {content : FolderContent} {slot : Substream}

theorem At.inRun (h : c.At contents substreams) (hcontent : contents[c.folder]? = some content)
    (hlt : c.taken < content.substreamCount) :
    InRun (substreamCounts contents) c.folder c.substream := by
  have hcount := getElem?_substreamCounts hcontent
  refine ⟨(List.getElem?_eq_some_iff.mp hcount).1, ?_, ?_⟩
  · rw [h.substream]
    exact Nat.le_add_right _ _
  · rw [runStart_succ hcount, h.substream]
    exact Nat.add_lt_add_left hlt _

theorem At.getElem?_sizes (h : c.At contents substreams)
    (hslot : substreams[c.substream]? = some slot) :
    (substreams.map Substream.size)[runStart (substreamCounts contents) c.folder + c.taken]? =
      some slot.size := by
  rw [← h.substream, List.getElem?_map, hslot]
  rfl

/-- The bytes taken are no more than the folder has. -/
theorem At.offset_lt (h : c.At contents substreams) (hcovers : Covers contents substreams)
    (hcontent : contents[c.folder]? = some content) (hlt : c.taken < content.substreamCount)
    (hslot : substreams[c.substream]? = some slot) : c.offset + slot.size < 2 ^ 64 := by
  -- the output of a folder with substreams fits a word, and its substreams fill it
  obtain ⟨hword, hlength⟩ := hcovers.filled hcontent (Nat.ne_zero_of_lt hlt)
  refine lt_of_le_of_lt ?_ hword
  rw [h.offset, ← sliceSum_succ_last (h.getElem?_sizes hslot), hlength]
  exact sliceSum_mono _ _ hlt

theorem At.fits (h : c.At contents substreams) (hcontent : contents[c.folder]? = some content)
    (hlt : c.taken < content.substreamCount) (hslot : substreams[c.substream]? = some slot)
    (file : Nat) :
    FileSpan.Fits contents substreams
      { file, folder := c.folder, substream := c.substream, offset := c.offset
        size := slot.size, crc := slot.crc } where
  inRun := h.inRun hcontent hlt
  offset := by simp only [h.offset, h.substream, Nat.add_sub_cancel_left]
  slot := hslot

/-- The last substream of a folder moves the cursor to the next folder. -/
theorem At.moveOn (h : c.At contents substreams) (hcontent : contents[c.folder]? = some content)
    (hlt : c.taken < content.substreamCount) (hlast : content.substreamCount ≤ c.taken + 1) :
    At contents substreams { folder := c.folder + 1, substream := c.substream + 1 } where
  folder_le := (List.getElem?_eq_some_iff.mp hcontent).1
  substream := by
    simp only [runStart_succ (getElem?_substreamCounts hcontent), h.substream]
    omega
  offset := by simp
  within h := absurd rfl h

theorem At.stay (h : c.At contents substreams) (hcontent : contents[c.folder]? = some content)
    (hslot : substreams[c.substream]? = some slot) (hmore : c.taken + 1 < content.substreamCount) :
    At contents substreams
      { folder := c.folder, taken := c.taken + 1, offset := c.offset + slot.size
        substream := c.substream + 1 } where
  folder_le := h.folder_le
  substream := by simp only [h.substream, Nat.add_assoc]
  offset := by simp only [h.offset, sliceSum_succ_last (h.getElem?_sizes hslot)]
  within _ := ⟨content, hcontent, hmore⟩

end Inside

/-- A file gets the next substream, as long as there is one. -/
theorem place_decides (hcovers : Covers contents substreams) {c : Cursor}
    (h : c.At contents substreams) (file : Nat) :
    Decides ground (c.substream < substreams.length)
      (fun r => r.1.Fits contents substreams ∧ r.1.file = file ∧ r.1.substream = c.substream ∧
        r.2.At contents substreams ∧ r.2.substream = c.substream + 1)
      (c.place contents substreams file) := by
  obtain ⟨hat, htaken⟩ := h.nextFolder
  unfold place
  refine Decides.guard rfl trivial ?_ fun hleft => ?_
  · -- refused behind the last folder, where no substream is left
    rintro ⟨-, hend⟩ hlt
    exact Nat.ne_of_lt hlt (hat.substream_eq hcovers hend)
  -- there is a folder left, and so a substream
  have hfolder : c.nextFolder contents < contents.length := by
    by_contra hend
    by_cases hzero : c.taken = 0
    · exact hleft ⟨hzero, Nat.not_lt.mp hend⟩
    · obtain ⟨content, hcontent, -⟩ := hat.within hzero
      exact hend (List.getElem?_eq_some_iff.mp hcontent).1
  have hcontent := List.getElem?_eq_getElem hfolder
  have hlt := htaken _ hcontent
  have hsubstream : c.substream < substreams.length := by
    rw [hcovers.length]
    exact (hat.inRun hcontent hlt).lt_sum
  have hslot := List.getElem?_eq_getElem hsubstream
  refine Decides.step_eq (Decides.lookup hslot) ?_
  refine Decides.step_eq (Decides.lookup hcontent) ?_
  refine Decides.step_eq (Decides.add (fun _ => trivial) fun _ =>
    hat.offset_lt hcovers hcontent hlt hslot) ?_
  have hfits := hat.fits hcontent hlt hslot file
  by_cases hlast : contents[c.nextFolder contents].substreamCount ≤ c.taken + 1
  · rw [if_pos hlast]
    exact Decides.pure hsubstream
      ⟨hfits, rfl, rfl, hat.moveOn hcontent hlt hlast, rfl⟩
  · rw [if_neg hlast]
    exact Decides.pure hsubstream
      ⟨hfits, rfl, rfl, hat.stay hcontent hslot (Nat.not_le.mp hlast), rfl⟩

end Cursor

/-! ### Placing all files -/

/-- The entries from `file` on have their places: those with content have the substreams from
`substream` on, one after another. -/
inductive Placed (contents : List FolderContent) (substreams : List Substream) :
    (substream file : Nat) → List Entry → List (Option FileSpan) → Prop
  | nil {substream file : Nat} : Placed contents substreams substream file [] []
  | skip {substream file : Nat} {entry : Entry} {entries : List Entry}
      {spans : List (Option FileSpan)} (hentry : entry.hasContent = false)
      (rest : Placed contents substreams substream (file + 1) entries spans) :
      Placed contents substreams substream file (entry :: entries) (none :: spans)
  | place {substream file : Nat} {entry : Entry} {entries : List Entry} {span : FileSpan}
      {spans : List (Option FileSpan)} (hentry : entry.hasContent = true)
      (fits : span.Fits contents substreams) (hfile : span.file = file)
      (hsubstream : span.substream = substream)
      (rest : Placed contents substreams (substream + 1) (file + 1) entries spans) :
      Placed contents substreams substream file (entry :: entries) (some span :: spans)

namespace Placed

variable {substream file : Nat} {entries : List Entry} {spans : List (Option FileSpan)}

theorem isSome_eq (h : Placed contents substreams substream file entries spans) :
    spans.map Option.isSome = entries.map Entry.hasContent := by
  induction h with
  | nil => rfl
  | skip hentry _ ih => rw [List.map_cons, List.map_cons, ih, hentry, Option.isSome_none]
  | place hentry _ _ _ _ ih => rw [List.map_cons, List.map_cons, ih, hentry, Option.isSome_some]

/-- The files are the entries with content. -/
theorem map_file (h : Placed contents substreams substream file entries spans) :
    (spans.filterMap id).map FileSpan.file = entries.findIdxs Entry.hasContent file := by
  induction h with
  | nil => rfl
  | skip hentry _ ih => rw [List.findIdxs_cons, hentry, ← ih]; rfl
  | place hentry _ hfile _ _ ih => rw [List.findIdxs_cons, hentry, ← ih, ← hfile]; rfl

/-- The files have consecutive substreams. -/
theorem map_substream (h : Placed contents substreams substream file entries spans) :
    (spans.filterMap id).map FileSpan.substream =
      List.range' substream (entries.countP Entry.hasContent) := by
  induction h with
  | nil => rfl
  | skip hentry _ ih => rw [List.countP_cons_of_neg (by simp [hentry]), ← ih]; rfl
  | place hentry _ _ hsubstream _ ih =>
    rw [List.countP_cons_of_pos hentry, List.range'_succ, ← ih, ← hsubstream]
    rfl

theorem fits (h : Placed contents substreams substream file entries spans) :
    ∀ span ∈ spans.filterMap id, span.Fits contents substreams := by
  induction h with
  | nil => exact fun span hspan => absurd hspan List.not_mem_nil
  | skip _ _ ih => exact ih
  | place _ fits _ _ _ ih => exact List.forall_mem_cons.mpr ⟨fits, ih⟩

/-- The span of an entry says which entry it is of. -/
theorem file_eq (h : Placed contents substreams substream file entries spans) {i : Nat}
    {span : FileSpan} (hi : spans[i]? = some (some span)) : span.file = file + i := by
  induction h generalizing i with
  | nil => simp at hi
  | skip _ _ ih =>
    cases i with
    | zero => simp at hi
    | succ i => rw [ih hi, Nat.add_assoc, Nat.add_comm 1 i]
  | place _ _ hfile _ _ ih =>
    cases i with
    | zero =>
      obtain rfl : _ = span := by simpa using hi
      exact hfile
    | succ i => rw [ih hi, Nat.add_assoc, Nat.add_comm 1 i]

end Placed

theorem Cursor.At.substream_le {c : Cursor} (h : c.At contents substreams)
    (hcovers : Covers contents substreams) : c.substream ≤ substreams.length := by
  rw [hcovers.length]
  by_cases htaken : c.taken = 0
  · rw [h.substream, htaken, Nat.add_zero]
    exact runStart_le_sum _ _
  · obtain ⟨content, hcontent, hlt⟩ := h.within htaken
    exact (h.inRun hcontent hlt).lt_sum.le

/-- The files are placed as long as there are substreams. -/
theorem placeAll_decides (hcovers : Covers contents substreams) {c : Cursor}
    (h : c.At contents substreams) (file : Nat) (entries : List Entry) :
    Decides ground (c.substream + entries.countP Entry.hasContent ≤ substreams.length)
      (fun r => r.2.At contents substreams ∧
        r.2.substream = c.substream + entries.countP Entry.hasContent ∧
        Placed contents substreams c.substream file entries r.1)
      (Cursor.placeAll contents substreams c file entries) := by
  induction entries generalizing c file with
  | nil => exact Decides.pure (h.substream_le hcovers) ⟨h, rfl, .nil⟩
  | cons entry entries ih =>
    rw [Cursor.placeAll]
    by_cases hentry : entry.hasContent
    · -- the file takes a substream, and the rest has to make do with one less
      rw [if_pos hentry, List.countP_cons_of_pos hentry]
      refine (Cursor.place_decides hcovers h file).bind (fun hle => by omega) ?_
      rintro ⟨span, c'⟩ - ⟨hfits, hfile, hsubstream, hat, hnext⟩
      have hcount : c'.substream + entries.countP Entry.hasContent =
          c.substream + (entries.countP Entry.hasContent + 1) := by
        rw [show c'.substream = c.substream + 1 from hnext]
        omega
      refine ((ih hat (file + 1)).of_iff (by rw [hcount])).map ?_
      rintro ⟨spans, c''⟩ - ⟨hat', hend, hplaced⟩
      refine ⟨hat', hend.trans hcount, .place hentry hfits hfile hsubstream ?_⟩
      rwa [← hnext]
    · -- an entry without content leaves the cursor where it is
      rw [if_neg hentry, List.countP_cons_of_neg hentry]
      refine (ih h (file + 1)).map ?_
      rintro ⟨spans, c'⟩ - ⟨hat, hend, hplaced⟩
      exact ⟨hat, hend, .skip (Bool.eq_false_iff.mpr hentry) hplaced⟩

/-- **The places of the files.** Every file finds one just when there are as many files as
substreams. -/
theorem FileSpan.ofEntries_decides (hcovers : Covers contents substreams) (entries : List Entry) :
    Decides ground (entries.countP Entry.hasContent = substreams.length)
      (Placed contents substreams 0 0 entries) (ofEntries contents substreams entries) := by
  unfold ofEntries
  refine (placeAll_decides hcovers Cursor.at_start 0 entries).bind
    (fun h => by rw [Nat.zero_add]; exact h.le) ?_
  rintro ⟨spans, c⟩ - ⟨-, hend, hplaced⟩
  rw [Nat.zero_add] at hend
  refine Decides.guard rfl trivial (fun hne h => hne (hend.trans h)) fun heq => ?_
  exact Decides.pure (hend.symm.trans (not_not.mp heq)) hplaced

end SolidArchive
