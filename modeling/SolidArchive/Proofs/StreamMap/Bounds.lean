import SolidArchive.Proofs.Folder.Lookups
import SolidArchive.Proofs.StreamMap.Building
import SolidArchive.Proofs.StreamMap.Consistency

/-!
# Reading within bounds

The check of a header reads tables, and adds and subtracts numbers, where only earlier checks see to
it that the index is in range and the result in its word. In `StreamMap.derive` every step of that
kind looks at the bounds, and would end in a breach if they were broken. No header in memory comes
to one, whether it is mapped or refused (`StreamMap.derive_inBounds`): a breach is no genuine fault,
and `StreamMap.derive_decides` has followed every way to a refusal.

A few things are done without a look, and of these it is said how they stand between the steps.

* The tables of marks have an entry for each stream however many bind pairs were marked, the
  streams counted are few, and the coder of an output is there (`Folder.StaysInBounds`).
* The checksums of the substreams are one list here and two columns in memory, of which the second
  is read where the first says so. Collecting substreams through the columns is the same as
  collecting them from the list (`Substreams.collect_columns`).
* The cursor of the files counts folders, substreams and bytes, and after any number of entries none
  of them is more than there is (`Cursor.InBounds`).
-/

namespace SolidArchive

/-! ### The streams of a folder -/

namespace FolderGraph

variable {f : Folder} {g : FolderGraph}

/-- Marking streams neither adds entries to the tables nor takes any away. -/
theorem markBound_length {pairs : List BindPair} {inputs outputs inputs' outputs' : List Bool}
    (h : markBound pairs inputs outputs = .ok (inputs', outputs')) :
    inputs'.length = inputs.length ∧ outputs'.length = outputs.length := by
  induction pairs generalizing inputs outputs with
  | nil =>
    cases h
    exact ⟨rfl, rfl⟩
  | cons pair pairs ih =>
    rw [markBound] at h
    dsimp only at h
    split at h
    · cases h
    split at h
    · cases h
    obtain ⟨boundInput, -, h⟩ := exists_of_bind_eq_ok h
    split at h
    · cases h
    obtain ⟨boundOutput, -, h⟩ := exists_of_bind_eq_ok h
    split at h
    · cases h
    -- a mark is written over, so the lists stay as long as they are
    have hrest := ih h
    rwa [List.length_set, List.length_set] at hrest

end FolderGraph

namespace Folder

open FolderGraph

variable {f : Folder}

/-- What the resolver counts and looks up without a check, as far as it gets. -/
structure StaysInBounds (f : Folder) : Prop where
  /-- While the coders keep the limits, few streams have been counted. -/
  counted : f.coders.length ≤ maxCoders → ∀ k,
    (∀ c ∈ f.coders.take k, validStreamCounts c = true) →
      runStart f.inputCounts k ≤ maxCoders * maxStreams ∧
        runStart f.outputCounts k ≤ maxCoders * maxStreams
  /-- However many bind pairs are marked, every stream has its mark. -/
  marked : ∀ k inputs outputs,
    markBound (f.bindPairs.take k) (List.replicate f.totalInputs false)
        (List.replicate f.totalOutputs false) = .ok (inputs, outputs) →
      inputs.length = f.totalInputs ∧ outputs.length = f.totalOutputs
  /-- The inputs of a coder are inputs of the folder. -/
  inputs : ∀ g, layOut f = .ok g → ∀ (coder start : Nat) (c : Coder),
    f.coders[coder]? = some c → g.inputStarts[coder]? = some start →
      start + c.inputs.toNat ≤ f.totalInputs
  /-- Some coder starts up to any output, so that the last of these is there. -/
  owner : ∀ g, layOut f = .ok g → ∀ output : Nat,
    1 ≤ g.outputStarts.countP (fun start => decide (start ≤ output)) ∧
      g.coderOfOutput output < f.coders.length

/-- Coders that keep the limits have few streams together. -/
theorem runStart_le_of_valid (hfew : f.coders.length ≤ maxCoders) {k : Nat} {count : Coder → Nat}
    (hcount : ∀ c ∈ f.coders.take k, count c ≤ maxStreams) :
    runStart (f.coders.map count) k ≤ maxCoders * maxStreams := by
  have hlength : (f.coders.take k).length ≤ maxCoders := (List.length_take_le' ..).trans hfew
  calc runStart (f.coders.map count) k
      = ((f.coders.take k).map count).sum := by rw [runStart, List.map_take]
    _ ≤ ((f.coders.take k).map count).length • maxStreams := by
        apply List.sum_le_card_nsmul
        intro n hn
        obtain ⟨c, hc, rfl⟩ := List.mem_map.mp hn
        exact hcount c hc
    _ ≤ maxCoders * maxStreams := by
        rw [List.length_map, smul_eq_mul]
        exact Nat.mul_le_mul_right _ hlength

/-- **The resolver stays within bounds**, on any folder. -/
theorem staysInBounds (f : Folder) : f.StaysInBounds where
  counted hfew k hvalid := by
    have hlimits : ∀ c ∈ f.coders.take k,
        c.inputs.toNat ≤ maxStreams ∧ c.outputs.toNat ≤ maxStreams := by
      intro c hc
      have h := hvalid c hc
      rw [validStreamCounts, decide_eq_true_iff] at h
      exact ⟨h.2.2.1, h.2.2.2⟩
    exact ⟨runStart_le_of_valid hfew fun c hc => (hlimits c hc).1,
      runStart_le_of_valid hfew fun c hc => (hlimits c hc).2⟩
  marked k inputs outputs h := by
    have hlength := markBound_length h
    rwa [List.length_replicate, List.length_replicate] at hlength
  inputs g hg coder start c hc hstart := by
    obtain ⟨-, hdescribes⟩ := (layOut_decides f).holds hg
    have hlt : coder < f.coders.length := (List.getElem?_eq_some_iff.mp hc).1
    rw [hdescribes.getElem?_inputStarts hlt] at hstart
    obtain rfl := Option.some.inj hstart
    rw [← runStart_succ (getElem?_inputCounts hc), ← sum_inputCounts]
    exact runStart_le_sum _ _
  owner g hg output := by
    obtain ⟨⟨⟨⟨hsome, -⟩, -⟩, -⟩, hdescribes⟩ := (layOut_decides f).holds hg
    -- the first coder starts with the first output
    have hfirst : 0 ∈ g.outputStarts := by
      rw [hdescribes.outputStarts_eq, List.mem_map]
      exact ⟨0, List.mem_range.mpr hsome, runStart_zero _⟩
    have hpos : 1 ≤ g.outputStarts.countP (fun start => decide (start ≤ output)) := by
      apply List.countP_pos_iff.mpr
      exact ⟨0, hfirst, decide_eq_true (Nat.zero_le output)⟩
    exact ⟨hpos, hdescribes.coderOfOutput_lt hsome output⟩

end Folder

/-! ### The columns of the substreams -/

namespace Substreams

variable {s : Substreams}

/-- Reads the checksum of a substream. The first column is read where it has an entry, and the
second one wherever that says that there is a checksum. -/
def Columns.readCrc (c : Columns) (substream : Nat) : Except StructuralError (Option UInt32) :=
  if c.hasCrc.length ≤ substream then .ok none
  else do
    if ← Breach.lookup .breach c.hasCrc substream then
      let crc ← Breach.lookup .breach c.crcs substream
      pure (some crc)
    else pure none

/-- Collects the substreams of a folder through the columns. -/
def Columns.collect (c : Columns) (folderCrc : Option UInt32) (first taken : Nat) :
    (count : Nat) → (total : Nat) → Except StructuralError (List Substream × Nat)
  | 0, total => .ok ([], total)
  | count + 1, total => do
    let index ← Breach.add .breach first taken
    let size ← Breach.lookup .breach c.sizes index
    let total ← StructuralError.checkedAdd .substreamSizes total size.toNat
    let crc ← c.readCrc index
    let (rest, total) ← collect c folderCrc first (taken + 1) count total
    pure ({ size := size.toNat, crc := crc <|> folderCrc } :: rest, total)

/-- The columns agree, so that a checksum is read whatever the substream. -/
theorem readCrc_columns (s : Substreams) (i : Nat) : s.columns.readCrc i = .ok (s.crc i) := by
  obtain ⟨hflags, hcrcs⟩ := s.length_columns
  rw [← crc_columns, Columns.readCrc, Columns.crc]
  by_cases hout : s.columns.hasCrc.length ≤ i
  · rw [if_pos hout, List.getElem?_eq_none hout]
    rfl
  · have hflag : i < s.columns.hasCrc.length := Nat.not_le.mp hout
    have hcrc : i < s.columns.crcs.length := by omega
    rw [if_neg hout, Breach.lookup_eq (List.getElem?_eq_getElem hflag),
      Breach.lookup_eq (List.getElem?_eq_getElem hcrc), List.getElem?_eq_getElem hflag,
      List.getElem?_eq_getElem hcrc]
    cases s.columns.hasCrc[i] <;> rfl

/-- **Collecting through the columns** comes to the same, also where it ends in a fault. -/
theorem collect_columns (folderCrc : Option UInt32) (first taken count total : Nat) :
    s.columns.collect folderCrc first taken count total =
      FolderContent.collect s folderCrc first taken count total := by
  induction count generalizing taken total with
  | zero => rfl
  | succ count ih =>
    rw [Columns.collect, FolderContent.collect]
    congr 1
    funext index
    have hsizes : s.columns.sizes = s.sizes := rfl
    rw [hsizes]
    cases hsize : s.sizes[index]? with
    | none =>
      rw [Breach.lookup, hsize]
      rfl
    | some size =>
      -- a substream that has a size has an entry for its checksum
      have hlt : index < s.crcs.length := by
        rw [s.crcs_length]
        exact (List.getElem?_eq_some_iff.mp hsize).1
      have hcrc : s.crc index = s.crcs[index] := by
        rw [Substreams.crc, List.getElem?_eq_getElem hlt]
        rfl
      simp only [readCrc_columns, hcrc, Breach.lookup_eq (List.getElem?_eq_getElem hlt), ih]

end Substreams

/-! ### The cursor of the files -/

open FolderContent

namespace Cursor

variable {contents : List FolderContent} {substreams : List Substream} {c : Cursor}

/-- The cursor counts no further than there are folders, substreams and bytes. -/
structure InBounds (contents : List FolderContent) (substreams : List Substream) (c : Cursor) :
    Prop where
  folder_le : c.folder ≤ contents.length
  substream_le : c.substream ≤ substreams.length
  taken_lt : c.taken < 2 ^ 64
  offset_lt : c.offset < 2 ^ 64

theorem At.inBounds (h : c.At contents substreams) (hcovers : Covers contents substreams)
    (hword : substreams.length < 2 ^ 64) : c.InBounds contents substreams := by
  have hle := h.substream_le hcovers
  refine ⟨h.folder_le, hle, ?_, ?_⟩
  · -- what is taken of the folder is taken of all substreams
    have hsubstream := h.substream
    omega
  · by_cases htaken : c.taken = 0
    · rw [h.offset, htaken, sliceSum_zero]
      exact Nat.two_pow_pos 64
    · -- what is taken of the output is not more than there is of it
      obtain ⟨content, hcontent, hlt⟩ := h.within htaken
      obtain ⟨hfits, hlength⟩ := hcovers.filled hcontent (Nat.ne_zero_of_lt hlt)
      refine lt_of_le_of_lt ?_ hfits
      rw [h.offset, hlength]
      exact sliceSum_mono _ _ hlt.le

end Cursor

/-! ### The whole check -/

namespace StreamMap

variable {a : Archive} {graphs : List FolderGraph} {ranges : List PackRange}
  {contents : List FolderContent} {substreams : List Substream}

/-- The tables that the files are placed by: each has an entry for every folder, the substreams are
counted in a word, and the cursor never leaves them. -/
structure Measured (a : Archive) (graphs : List FolderGraph) (ranges : List PackRange)
    (contents : List FolderContent) (substreams : List Substream) : Prop where
  length_graphs : graphs.length = a.folders.length
  length_ranges : ranges.length = a.folders.length
  length_contents : contents.length = a.folders.length
  length_substreams : substreams.length < 2 ^ 64
  /-- After any number of entries. -/
  cursor : ∀ k spans c,
    Cursor.placeAll contents substreams {} 0 (a.entries.take k) = .ok (spans, c) →
      c.InBounds contents substreams

/-- Without substreams in the header there are as many as folders, and these are no more than the
pack streams, since each takes one. -/
theorem substreamTotal_lt (h : a.InMemory) (hfew : a.folders.length ≤ a.packSizes.length) :
    a.substreamTotal < 2 ^ 64 := by
  unfold Archive.substreamTotal
  split
  · exact hfew.trans_lt h.packSizes
  · next s hs => exact h.sizes_lt hs

theorem measured (h : a.InMemory) {packOffsets : List Nat} {packEnd : Nat}
    (hgraphs : resolveGraphs 0 a.folders = .ok graphs)
    (hranges : PackRange.ofArchive a graphs = .ok (ranges, packOffsets, packEnd))
    (hcontents : FolderContent.ofArchive a graphs = .ok (contents, substreams)) :
    Measured a graphs ranges contents substreams := by
  -- each step of the derivation has gone well, and its specification says what it has made
  have hresolves : Decides a.InMemory _ _ (resolveGraphs 0 a.folders) :=
    resolveGraphs_decides 0 a.folders
  have hassigns : Decides a.InMemory _ _ (PackRange.ofArchive a graphs) :=
    PackRange.ofArchive_decides a graphs fun h => h.packSizes
  obtain ⟨-, hres⟩ := hresolves.holds hgraphs
  obtain ⟨⟨-, hcounts⟩, hmade⟩ := hassigns.holds hranges
  have hfew : a.folders.length ≤ a.packSizes.length := hcounts ▸ hres.length_le_sum
  have hcollects : Decides a.InMemory _ _ (FolderContent.ofArchive a graphs) :=
    FolderContent.ofArchive_decides a hres.describes fun h =>
      ⟨hfew.trans_lt h.packSizes, fun s hs => h.sizes_lt hs⟩
  obtain ⟨hsized, hmade'⟩ := hcollects.holds hcontents
  rw [Prod.mk.injEq] at hmade hmade'
  obtain ⟨rfl, -⟩ := hmade
  obtain ⟨rfl, rfl⟩ := hmade'
  -- the number of the substreams fits in its word, as each of them has a size in memory
  have hword : (allSubstreams a.substreams (a.folders.zip graphs)).length < 2 ^ 64 := by
    rw [length_substreams hres hsized]
    exact substreamTotal_lt h hfew
  refine ⟨hres.length_eq.symm, ?_, ?_, hword, ?_⟩
  · rw [PackRange.length_tiles, PackRange.packCounts, List.length_map]
    exact hres.length_eq.symm
  · rw [length_folderContents, hres.length_zip]
  · intro k spans c hplaced
    have hplaces : Decides a.InMemory _ _ (Cursor.placeAll _ _ {} 0 (a.entries.take k)) :=
      placeAll_decides hsized.covers Cursor.at_start 0 (a.entries.take k)
    obtain ⟨-, hat, -⟩ := hplaces.holds hplaced
    exact hat.inBounds hsized.covers hword

/-- **Every read is in range and every number in its word**, up to the map or to the refusal. No
step that looks at the bounds finds them broken. What is read without a look keeps them, too, as far
as the check gets: the marks and the numbers of the streams of each folder, the columns of the
substreams, which are empty or were frozen by a builder, and the tables and the cursor by which the
files are placed. -/
theorem derive_inBounds (a : Archive) (h : a.InMemory) :
    (∀ fault, derive a = .error fault → ¬IsBreach fault) ∧
      (∀ f ∈ a.folders, f.StaysInBounds) ∧
      (∀ s ∈ a.substreams,
        (s.columns = {} ∨ ∃ b : Substreams.Builder,
          (Substreams.Builder.freezeColumns.run b.columns).1 = .ok s.columns) ∧
        ∀ folderCrc first taken count total,
          s.columns.collect folderCrc first taken count total =
            FolderContent.collect s folderCrc first taken count total) ∧
      ∀ graphs ranges packOffsets packEnd contents substreams,
        resolveGraphs 0 a.folders = .ok graphs →
        PackRange.ofArchive a graphs = .ok (ranges, packOffsets, packEnd) →
        FolderContent.ofArchive a graphs = .ok (contents, substreams) →
          Measured a graphs ranges contents substreams := by
  refine ⟨?_, ?_, ?_, ?_⟩
  · intro fault hfault
    exact StructuralError.not_isBreach ((derive_decides a).genuine h hfault)
  · intro f _
    exact f.staysInBounds
  · intro s hs
    refine ⟨?_, s.collect_columns⟩
    -- substreams in memory are empty, or a builder has frozen them
    rcases h.substreams s hs with rfl | ⟨b, hb⟩
    · exact .inl rfl
    · right
      refine ⟨b, ?_⟩
      rw [Substreams.Builder.freezeColumns_run, hb]
      rfl
  · intro graphs ranges packOffsets packEnd contents substreams hgraphs hranges hcontents
    exact measured h hgraphs hranges hcontents

/-- A header with a file more than it has substreams: it is refused at this file, after all others
have been placed, and the substreams have been collected through columns of checksums of which one
is missing. -/
theorem derive_inBounds_file_too_many :
    let builder : Substreams.Builder :=
      { counts := [0, 2], sizes := [5, 6], digests := [some 7, none] }
    let folder : Folder :=
      { coders := [{ methodId := [3], inputs := 2 }], packedStreams := [1, 0], unpackSizes := [11] }
    ∃ s : Substreams, builder.freeze = .ok s ∧
      let a : Archive :=
        { packPosition := 32, packSizes := [4, 0, 7]
          folders := [{ coders := [{ methodId := [0] }] }, folder]
          substreams := some s
          entries := [{ name := "a" }, { name := "b" }, { name := "c" }] }
      a.InMemory ∧ derive a = .error (.noSubstreamLeft 2) ∧
        ¬IsBreach (StructuralError.noSubstreamLeft 2) ∧
        s.columns.collect none 0 0 2 0 =
          .ok ([{ size := 5, crc := some 7 }, { size := 6, crc := none }], 11) := by
  intro builder folder
  refine ⟨{ counts := [0, 2], sizes := [5, 6], crcs := [some 7, none] }, rfl, ?_⟩
  intro a
  have hmemory : a.InMemory := by
    refine ⟨by decide, ?_⟩
    rintro _ ⟨⟩
    exact .inr ⟨builder, rfl⟩
  have hrefused : derive a = .error (.noSubstreamLeft 2) := rfl
  obtain ⟨hbreach, -, hcolumns, -⟩ := derive_inBounds a hmemory
  refine ⟨hmemory, hrefused, hbreach _ hrefused, ?_⟩
  rw [(hcolumns _ rfl).2]
  rfl

end StreamMap

end SolidArchive
