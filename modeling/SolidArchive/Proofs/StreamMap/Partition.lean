import SolidArchive.Proofs.StreamMap.Tiling

/-!
# The files and the substreams

The file side of a stream map. The files are the substreams one after another, and each is in the
folder in whose run its substream lies (`FileSpan.Fits`). What the map says of a folder's files then
follows from what is so of runs: numbers of later runs are larger, so the folders of the files never
go back, and the files of a folder are those whose substreams are in its run, in order and without a
gap (`map_substream_filter`). The `i`-th of them has the `i`-th size of the run behind the sum of
those before it.
-/

namespace SolidArchive

open FolderContent

/-! ### Files in the runs of folders -/

section Files

variable {contents : List FolderContent} {substreams : List Substream} {files : List FileSpan}
  {e : FileSpan} {k : Nat}

theorem FileSpan.Fits.folder_eq_iff (h : e.Fits contents substreams) :
    e.folder = k ↔ InRun (substreamCounts contents) k e.substream := by
  refine ⟨?_, ?_⟩
  · rintro rfl
    exact h.inRun
  · exact h.inRun.unique

/-- The files have the substreams, each in its place. -/
structure Partitions (contents : List FolderContent) (substreams : List Substream)
    (files : List FileSpan) : Prop where
  covers : Covers contents substreams
  map_substream : files.map FileSpan.substream = List.range substreams.length
  fits : ∀ e ∈ files, e.Fits contents substreams

theorem Partitions.pairwise_substream (h : Partitions contents substreams files) :
    files.Pairwise fun e e' => e.substream < e'.substream := by
  rw [← List.pairwise_map, h.map_substream]
  exact List.pairwise_lt_range

theorem Partitions.map_size (h : Partitions contents substreams files) :
    files.map FileSpan.size = substreams.map Substream.size := by
  have hlength : files.length = substreams.length := by
    rw [← List.length_map FileSpan.substream, h.map_substream, List.length_range]
  refine List.ext_getElem (by simpa using hlength) fun i hi hi' => ?_
  have hfile : i < files.length := by simpa using hi
  have hi : files[i].substream = i := by
    have hmap := List.getElem_of_eq h.map_substream (by simpa using hfile)
    simpa using hmap
  have hslot := (h.fits files[i] (List.getElem_mem hfile)).slot
  rw [hi] at hslot
  obtain ⟨hlt, hslot⟩ := List.getElem?_eq_some_iff.mp hslot
  rw [List.getElem_map, List.getElem_map, hslot]

/-- A later file is in the same folder or in a later one. -/
theorem Partitions.pairwise_folder (h : Partitions contents substreams files) :
    files.Pairwise fun e e' => e.folder ≤ e'.folder := by
  refine h.pairwise_substream.imp_of_mem fun {e e'} he he' hlt => ?_
  have hrun := (h.fits e he).inRun
  exact (h.fits e' he').inRun.start_le_iff.mp (hrun.2.1.trans hlt.le)

/-- The files of a folder have the substreams of its run. -/
theorem Partitions.map_substream_filter (h : Partitions contents substreams files) {count : Nat}
    (hcount : (substreamCounts contents)[k]? = some count) :
    (files.filter fun e => e.folder = k).map FileSpan.substream =
      List.range' (runStart (substreamCounts contents) k) count := by
  -- both are increasing, so it is enough that they have the same members
  refine List.Pairwise.eq_of_mem_iff (r := (· < ·)) ?_ List.pairwise_lt_range' fun i => ?_
  · exact List.pairwise_map.mpr (h.pairwise_substream.filter _)
  have hin : InRun (substreamCounts contents) k i ↔
      runStart (substreamCounts contents) k ≤ i ∧
        i < runStart (substreamCounts contents) k + count := by
    rw [InRun, runStart_succ hcount]
    exact and_iff_right (List.getElem?_eq_some_iff.mp hcount).1
  rw [List.mem_range'_1, ← hin, List.mem_map]
  refine ⟨?_, ?_⟩
  · rintro ⟨e, he, rfl⟩
    obtain ⟨hmem, hfolder⟩ := List.mem_filter.mp he
    exact (h.fits e hmem).folder_eq_iff.mp (of_decide_eq_true hfolder)
  · intro hrun
    have hmem : i ∈ files.map FileSpan.substream := by
      rw [h.map_substream, List.mem_range, h.covers.length]
      exact hrun.lt_sum
    obtain ⟨e, he, rfl⟩ := List.mem_map.mp hmem
    have hfolder := (h.fits e he).folder_eq_iff.mpr hrun
    exact ⟨e, List.mem_filter.mpr ⟨he, decide_eq_true hfolder⟩, rfl⟩

/-- The `i`-th file of a folder lies behind those before it. -/
theorem Partitions.getElem?_filter (h : Partitions contents substreams files) {i : Nat}
    (hi : (files.filter fun e => e.folder = k)[i]? = some e) :
    e.offset = sliceSum (substreams.map Substream.size) (runStart (substreamCounts contents) k) i ∧
      (substreams.map Substream.size)[runStart (substreamCounts contents) k + i]? =
        some e.size := by
  obtain ⟨hmem, hfolder⟩ := List.mem_filter.mp (List.mem_of_getElem? hi)
  have hfits := h.fits e hmem
  obtain rfl : e.folder = k := of_decide_eq_true hfolder
  have hcount := List.getElem?_eq_getElem hfits.inRun.1
  -- the files of a folder have its substreams in order, so the i-th one is the i-th of the run
  have hsubstream : e.substream = runStart (substreamCounts contents) e.folder + i := by
    have hmap := congrArg (·[i]?) (h.map_substream_filter hcount)
    simp only [List.getElem?_map, hi, Option.map_some] at hmap
    obtain ⟨hlt, hrange⟩ := List.getElem?_eq_some_iff.mp hmap.symm
    rw [← hrange, List.getElem_range', one_mul]
  refine ⟨?_, ?_⟩
  · rw [hfits.offset, hsubstream, Nat.add_sub_cancel_left]
  · rw [← hsubstream, List.getElem?_map, hfits.slot]
    rfl

end Files

namespace StreamMap

/-! ### Finding the file of an entry -/

theorem isSome_numberStreams (stream : Nat) (spans : List (Option FileSpan)) :
    (numberStreams stream spans).map Option.isSome = spans.map Option.isSome := by
  induction spans generalizing stream with
  | nil => rfl
  | cons span spans ih =>
    cases span with
    | none => exact congrArg (false :: ·) (ih stream)
    | some span => exact congrArg (true :: ·) (ih (stream + 1))

/-- A numbered file is at its number, behind the files before. -/
theorem getElem?_numberStreams (before : List FileSpan) (spans : List (Option FileSpan)) (i : Nat) :
    ((numberStreams before.length spans)[i]?.join.bind
      fun stream => (before ++ spans.filterMap id)[stream]?) = spans[i]?.join := by
  -- what has a stream is put behind those that have one already
  induction spans generalizing before i with
  | nil => rfl
  | cons span spans ih =>
    cases span with
    | none =>
      cases i with
      | zero => rfl
      | succ i => exact ih before i
    | some span =>
      cases i with
      | zero => simp [numberStreams]
      | succ i =>
        have hrest := ih (before ++ [span]) i
        rw [List.length_append, List.append_assoc] at hrest
        exact hrest

variable {a : Archive} {graphs : List FolderGraph} {spans : List (Option FileSpan)} {m : StreamMap}
  {k : Nat} {span : FolderSpan} {e : FileSpan}

theorem MadeOf.findFile_eq (h : MadeOf a graphs spans m) (i : Nat) :
    m.findFile i = spans[i]?.join := by
  have hfile := getElem?_numberStreams [] spans i
  rw [List.nil_append, List.length_nil, ← h.fileStreams, ← h.files] at hfile
  rw [← hfile, findFile]
  cases m.fileStreams[i]?.join <;> rfl

/-- The entry of a file is the one that it names. -/
theorem MadeOf.findFile_eq_some_iff (h : MadeOf a graphs spans m) {i : Nat} :
    m.findFile i = some e ↔ e ∈ m.files ∧ e.file = i := by
  rw [h.findFile_eq, h.files, Option.join_eq_some_iff]
  refine ⟨?_, ?_⟩
  · intro hi
    refine ⟨List.mem_filterMap.mpr ⟨some e, List.mem_of_getElem? hi, rfl⟩, ?_⟩
    rw [h.placed.file_eq hi, Nat.zero_add]
  · rintro ⟨hmem, rfl⟩
    obtain ⟨span, hspan, rfl⟩ := List.mem_filterMap.mp hmem
    obtain ⟨j, hj⟩ := List.mem_iff_getElem?.mp hspan
    rw [h.placed.file_eq hj, Nat.zero_add]
    exact hj

theorem MadeOf.partitions (h : MadeOf a graphs spans m) :
    Partitions (folderContents a.substreams (a.folders.zip graphs))
      (allSubstreams a.substreams (a.folders.zip graphs)) m.files where
  covers := h.sized.covers
  map_substream := by
    rw [h.files, h.placed.map_substream, h.files_eq, List.range_eq_range']
  fits := by
    rw [h.files]
    exact h.placed.fits

/-- The entries with content in a folder, as the table of the entries has them. -/
theorem MadeOf.fileFolders_eq_some_iff (h : MadeOf a graphs spans m) {i : Nat} :
    m.fileFolders[i]? = some (some k) ↔ ∃ e ∈ m.files, e.file = i ∧ e.folder = k := by
  rw [h.fileFolders, List.getElem?_map, Option.map_eq_some_iff]
  refine ⟨?_, ?_⟩
  · rintro ⟨span, hi, hfolder⟩
    obtain ⟨e, rfl, hk⟩ := Option.map_eq_some_iff.mp hfolder
    have hfind : m.findFile i = some e := by
      rw [h.findFile_eq, hi]
      rfl
    obtain ⟨hmem, hfile⟩ := h.findFile_eq_some_iff.mp hfind
    exact ⟨e, hmem, hfile, hk⟩
  · rintro ⟨e, hmem, hfile, hk⟩
    have hfind := h.findFile_eq_some_iff.mpr ⟨hmem, hfile⟩
    rw [h.findFile_eq, Option.join_eq_some_iff] at hfind
    exact ⟨some e, hfind, congrArg some hk⟩

/-! ### The files of a folder -/

/-- The files whose content is in a folder. -/
def filesOf (m : StreamMap) (folder : Nat) : List FileSpan :=
  m.files.filter fun e => e.folder = folder

/-- What the record of a folder says of its substreams. -/
theorem MadeOf.substreams_of (h : MadeOf a graphs spans m) (hk : m.folders[k]? = some span) :
    ∃ content, (folderContents a.substreams (a.folders.zip graphs))[k]? = some content ∧
      span.firstSubstream = content.firstSubstream ∧
      span.substreamCount = content.substreamCount ∧ span.unpackLength = content.length ∧
      span.firstFile = (m.filesOf k).head?.map FileSpan.file := by
  obtain ⟨f, g, hfolder, rfl⟩ := h.getElem?_folders hk
  refine ⟨(contentOf a.substreams k f g).1, ?_, rfl, rfl, rfl, ?_⟩
  · rw [getElem?_folderContents, hfolder]
    rfl
  · rw [filesOf, List.head?_filter]
    rfl

theorem MadeOf.map_substream_filesOf (h : MadeOf a graphs spans m)
    (hk : m.folders[k]? = some span) :
    (m.filesOf k).map FileSpan.substream = List.range' span.firstSubstream span.substreamCount := by
  obtain ⟨content, hcontent, hfirst, hcount, -, -⟩ := h.substreams_of hk
  rw [filesOf, h.partitions.map_substream_filter (Cursor.getElem?_substreamCounts hcontent),
    hfirst, h.sized.covers.first hcontent, hcount]

theorem MadeOf.length_filesOf (h : MadeOf a graphs spans m) (hk : m.folders[k]? = some span) :
    (m.filesOf k).length = span.substreamCount := by
  rw [← List.length_map FileSpan.substream, h.map_substream_filesOf hk, List.length_range']

theorem MadeOf.pairwise_file (h : MadeOf a graphs spans m) :
    m.files.Pairwise fun e e' => e.file < e'.file := by
  rw [← List.pairwise_map, h.files, h.placed.map_file]
  exact List.pairwise_findIdxs

/-- The files have the substreams in the order of the entries, and each folder its own. -/
structure PartitionsSubstreams (m : StreamMap) (a : Archive) : Prop where
  /-- The files are the entries with content. -/
  file : m.files.map FileSpan.file = a.entries.findIdxs Entry.hasContent
  substream : m.files.map FileSpan.substream = List.range m.files.length
  size : ∀ s ∈ a.substreams, m.files.map FileSpan.size = numbers s.sizes
  folder_le : m.files.Pairwise fun e e' => e.folder ≤ e'.folder
  folder_lt : ∀ e ∈ m.files, e.folder < m.folders.length
  run : ∀ (k : Nat) (span : FolderSpan), m.folders[k]? = some span →
    (m.filesOf k).map FileSpan.substream = List.range' span.firstSubstream span.substreamCount
  offset_first : ∀ (k : Nat) (e : FileSpan), (m.filesOf k)[0]? = some e → e.offset = 0
  offset_next : ∀ (k i : Nat) (e e' : FileSpan), (m.filesOf k)[i]? = some e →
    (m.filesOf k)[i + 1]? = some e' → e'.offset = e.offset + e.size
  offset_last : ∀ (k : Nat) (span : FolderSpan), m.folders[k]? = some span →
    0 < span.substreamCount →
      ∃ e, (m.filesOf k).getLast? = some e ∧ e.offset + e.size = span.unpackLength
  /-- The first file of a folder is the least of its entries. -/
  firstFile : ∀ (k : Nat) (span : FolderSpan) (i : Nat), m.folders[k]? = some span →
    span.firstFile = some i → IsLeast {i | m.fileFolders[i]? = some (some k)} i
  firstFile_eq_none : ∀ (k : Nat) (span : FolderSpan), m.folders[k]? = some span →
    (span.firstFile = none ↔ span.substreamCount = 0)
  /-- The two tables have a place for each entry, which is filled if the entry has content. -/
  fileFolders : m.fileFolders.map Option.isSome = a.entries.map Entry.hasContent
  fileStreams : m.fileStreams.map Option.isSome = a.entries.map Entry.hasContent
  fileFolder : ∀ i k : Nat, m.fileFolders[i]? = some (some k) ↔
    ∃ e ∈ m.files, e.file = i ∧ e.folder = k
  findFile : ∀ (i : Nat) (e : FileSpan), m.findFile i = some e ↔ e ∈ m.files ∧ e.file = i
  findFile_eq_none : ∀ i : Nat, m.findFile i = none ↔
    ∀ entry, a.entries[i]? = some entry → entry.hasContent = false

theorem MadeOf.partitionsSubstreams (h : MadeOf a graphs spans m) : m.PartitionsSubstreams a where
  file := by rw [h.files, h.placed.map_file]
  substream := by
    have hmap := h.partitions.map_substream
    have hlength := congrArg List.length hmap
    rw [List.length_map, List.length_range] at hlength
    rw [hmap, hlength]
  size s hs := by
    have hsized := h.sized
    rw [h.partitions.map_size]
    obtain hs : a.substreams = some s := hs
    rw [hs] at hsized ⊢
    exact hsized.map_size_allSubstreams
  folder_le := h.partitions.pairwise_folder
  folder_lt e he := by
    have hlt := (h.partitions.fits e he).inRun.1
    rwa [substreamCounts, List.length_map, length_folderContents, h.resolved.length_zip,
      ← h.length_folders] at hlt
  run _ _ hk := h.map_substream_filesOf hk
  offset_first k e he := by
    rw [(h.partitions.getElem?_filter he).1, sliceSum_zero]
  offset_next k i e e' he he' := by
    obtain ⟨hoffset, hsize⟩ := h.partitions.getElem?_filter he
    rw [(h.partitions.getElem?_filter he').1, sliceSum_succ_last hsize, hoffset]
  offset_last k span hk hpos := by
    obtain ⟨content, hcontent, -, hcount, hlength, -⟩ := h.substreams_of hk
    have hfew : (m.filesOf k).length = span.substreamCount := h.length_filesOf hk
    have hlast : span.substreamCount - 1 < (m.filesOf k).length := by omega
    -- the last file ends where the sum of all sizes of the run is reached
    have he := List.getElem?_eq_getElem hlast
    obtain ⟨hoffset, hsize⟩ := h.partitions.getElem?_filter he
    refine ⟨_, by rw [List.getLast?_eq_getElem?, hfew]; exact he, ?_⟩
    rw [hoffset, ← sliceSum_succ_last hsize, Nat.sub_add_cancel hpos, hlength, hcount]
    exact (h.sized.covers.filled hcontent (by omega)).2.symm
  firstFile k span i hk hi := by
    obtain ⟨content, -, -, -, -, hfirst⟩ := h.substreams_of hk
    rw [hfirst] at hi
    obtain ⟨first, hhead, rfl⟩ := Option.map_eq_some_iff.mp hi
    obtain ⟨rest, hrest⟩ := List.head?_eq_some_iff.mp hhead
    -- the files are in the order of their entries, so the others of the folder come later
    have hmem : first ∈ m.filesOf k := List.mem_of_mem_head? hhead
    have hsorted : (m.filesOf k).Pairwise fun e e' => e.file < e'.file := h.pairwise_file.filter _
    rw [hrest, List.pairwise_cons] at hsorted
    refine ⟨?_, ?_⟩
    · obtain ⟨hfiles, hfolder⟩ := List.mem_filter.mp hmem
      exact h.fileFolders_eq_some_iff.mpr ⟨first, hfiles, rfl, of_decide_eq_true hfolder⟩
    · intro j hj
      obtain ⟨e, he, rfl, hfolder⟩ := h.fileFolders_eq_some_iff.mp hj
      have hin : e ∈ m.filesOf k := List.mem_filter.mpr ⟨he, decide_eq_true hfolder⟩
      rw [hrest] at hin
      rcases List.mem_cons.mp hin with rfl | hin
      · exact le_rfl
      · exact (hsorted.1 e hin).le
  firstFile_eq_none k span hk := by
    obtain ⟨content, -, -, -, -, hfirst⟩ := h.substreams_of hk
    rw [hfirst, Option.map_eq_none_iff, List.head?_eq_none_iff, ← List.length_eq_zero_iff,
      h.length_filesOf hk]
  fileFolders := by
    rw [h.fileFolders, List.map_map, ← h.placed.isSome_eq]
    exact List.map_congr_left fun span _ => Option.isSome_map
  fileStreams := by rw [h.fileStreams, isSome_numberStreams, h.placed.isSome_eq]
  fileFolder _ _ := h.fileFolders_eq_some_iff
  findFile _ _ := h.findFile_eq_some_iff
  findFile_eq_none i := by
    have hentry : spans[i]?.map Option.isSome = a.entries[i]?.map Entry.hasContent := by
      rw [← List.getElem?_map, h.placed.isSome_eq, List.getElem?_map]
    rw [h.findFile_eq]
    cases hi : a.entries[i]? with
    | none =>
      -- no entry, and no span
      rw [hi, Option.map_none, Option.map_eq_none_iff] at hentry
      simp [hentry]
    | some entry =>
      -- the entry has a span just when it has content
      rw [hi, Option.map_some] at hentry
      obtain ⟨span, hspan, hsome⟩ := Option.map_eq_some_iff.mp hentry
      rw [hspan, ← Option.not_isSome_iff_eq_none, Option.join_some, hsome]
      simp

/-- A file is found under its number. -/
theorem PartitionsSubstreams.findFile_eq {e : FileSpan} (h : m.PartitionsSubstreams a)
    (he : e ∈ m.files) : m.findFile e.file = some e := (h.findFile e.file e).mpr ⟨he, rfl⟩

/-- No two files have the same number. -/
theorem PartitionsSubstreams.eq_of_file_eq {e e' : FileSpan} (h : m.PartitionsSubstreams a)
    (he : e ∈ m.files) (he' : e' ∈ m.files) (hfile : e'.file = e.file) : e' = e := by
  have hfind := h.findFile_eq he'
  rw [hfile, h.findFile_eq he] at hfind
  exact (Option.some.inj hfind).symm

/-- **The partition.** In the map of a header, the files are the entries with content in their order
and have the substreams in theirs; each folder has the files of its run of substreams, which lie in
its output one behind the other from its start to its end; and each entry with content leads to its
file. -/
theorem derive_partitionsSubstreams (a : Archive) (m : StreamMap) (h : derive a = .ok m) :
    m.PartitionsSubstreams a := by
  obtain ⟨-, graphs, spans, hmade⟩ := (derive_decides a).holds h
  exact hmade.partitionsSubstreams

/-- The second of three folders has no substreams, and an entry without content lies between two
files of the third. -/
theorem derive_partitionsSubstreams_three_folders :
    let copy : Folder := { coders := [{ methodId := [0] }] }
    let a : Archive :=
      { packSizes := [3, 0, 11], folders := [copy, copy, copy]
        substreams := some
          { counts := [1, 0, 2], sizes := [3, 5, 6], crcs := [none, none, none]
            counts_sum := rfl, crcs_length := rfl }
        entries := [{ name := "a" }, { name := "b" }, { name := "c", kind := .directory },
          { name := "d" }] }
    ∃ m, derive a = .ok m ∧ m.files.map FileSpan.folder = [0, 2, 2] ∧
      m.files.map FileSpan.offset = [0, 0, 5] ∧ m.PartitionsSubstreams a := by
  intro copy a
  exact ⟨_, rfl, rfl, rfl, derive_partitionsSubstreams a _ rfl⟩

end StreamMap

end SolidArchive
