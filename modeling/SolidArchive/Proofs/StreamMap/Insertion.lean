import SolidArchive.Proofs.StreamMap.Partition

/-!
# Entries without content

Directories and empty files may stand anywhere among the entries: the map is the same but for the
numbers of the entries (`StreamMap.derive_inserts`).

The walk that places the files keeps a cursor from one file to the next and looks at nothing else,
so it may be told in two parts. All that is found out before the entries are looked at is the
`Layout` of the header. Given that, the header is mapped just when there are as many entries with
content as substreams; and since a file fits its substream in one way only (`FileSpan.Fits.eq`), the
files are known as soon as it is known which entries they are. Inserted entries change those numbers
along an order embedding (`Entry.Inserts.findIdxs_eq`), and that is all they change.
-/

namespace SolidArchive

open FolderContent

variable {ρ ρ' : ℕ ↪o ℕ} {entries entries' entries'' : List Entry}

/-! ### Inserting entries -/

/-- Entries are inserted into a list. The entry at `i` moves to `ρ i` and may get another name; what
stands at the other places has no content. -/
structure Entry.Inserts (ρ : ℕ ↪o ℕ) (entries entries' : List Entry) : Prop where
  kept : ∀ i, (entries'[ρ i]?).map Entry.kind = (entries[i]?).map Entry.kind
  inserted : ∀ j entry, entries'[j]? = some entry → (∀ i, ρ i ≠ j) → entry.hasContent = false

/-- Makes room at `p`. -/
def makeRoom (p : ℕ) : ℕ ↪o ℕ :=
  OrderEmbedding.ofStrictMono (fun i => if i < p then i else i + 1) <| by
    intro i j hlt
    dsimp only
    split <;> split <;> omega

namespace Entry.Inserts

theorem trans (h : Inserts ρ entries entries') (h' : Inserts ρ' entries' entries'') :
    Inserts (ρ.trans ρ') entries entries'' where
  kept i := (h'.kept (ρ i)).trans (h.kept i)
  inserted j entry hj hnew := by
    by_cases hold : ∃ i, ρ' i = j
    · -- the entry was there before the second insertion, and came with the first one
      obtain ⟨i, rfl⟩ := hold
      have hkind := h'.kept i
      rw [hj, Option.map_some] at hkind
      obtain ⟨entry', hentry', hsame⟩ := Option.map_eq_some_iff.mp hkind.symm
      have hplain := h.inserted i entry' hentry' fun k hk => hnew k (congrArg ρ' hk)
      rwa [Entry.hasContent, hsame] at hplain
    · exact h'.inserted j entry hj fun i hi => hold ⟨i, hi⟩

/-- One entry is inserted, anywhere. -/
theorem insertIdx {entry : Entry} {p : ℕ} (hplain : entry.hasContent = false) :
    Inserts (makeRoom p) entries (entries.insertIdx p entry) := by
  have hroom : ∀ i, makeRoom p i = if i < p then i else i + 1 := fun _ => rfl
  refine ⟨fun i => ?_, fun j other hj hnew => ?_⟩
  · rw [hroom, List.getElem?_insertIdx]
    by_cases hi : i < p
    · rw [if_pos hi, if_pos hi]
    · rw [if_neg hi, if_neg (by omega), if_neg (by omega), Nat.add_sub_cancel]
  · -- every place but `p` is taken by an entry from before
    obtain rfl : j = p := by
      by_contra hne
      rcases Nat.lt_or_gt_of_ne hne with hlt | hgt
      · exact hnew j (by rw [hroom, if_pos hlt])
      · exact hnew (j - 1) (by rw [hroom, if_neg (by omega)]; omega)
    rw [List.getElem?_insertIdx_self] at hj
    split at hj
    · obtain rfl := Option.some.inj hj
      exact hplain
    · cases hj

theorem hasContent_eq (h : Inserts ρ entries entries') (i : ℕ) :
    (entries'[ρ i]?).map Entry.hasContent = (entries[i]?).map Entry.hasContent := by
  have hkind := congrArg (Option.map fun kind : EntryKind => decide (kind = .file)) (h.kept i)
  rwa [Option.map_map, Option.map_map] at hkind

/-- The entries with content keep their order. -/
theorem findIdxs_eq (h : Inserts ρ entries entries') :
    entries'.findIdxs Entry.hasContent = (entries.findIdxs Entry.hasContent).map ρ := by
  have hmem : ∀ (l : List Entry) (j : ℕ),
      j ∈ l.findIdxs Entry.hasContent ↔ (l[j]?).map Entry.hasContent = some true := by
    intro l j
    rw [List.mem_findIdxs_iff_exists_getElem_pos, Option.map_eq_some_iff]
    simp only [List.getElem?_eq_some_iff]
    refine ⟨?_, ?_⟩
    · rintro ⟨hlt, hcontent⟩
      exact ⟨_, ⟨hlt, rfl⟩, hcontent⟩
    · rintro ⟨_, ⟨hlt, rfl⟩, hcontent⟩
      exact ⟨hlt, hcontent⟩
  -- both lists are increasing, so it is enough that they have the same members
  refine List.Pairwise.eq_of_mem_iff (r := (· < ·)) List.pairwise_findIdxs ?_ fun j => ?_
  · refine List.pairwise_map.mpr (List.pairwise_findIdxs.imp fun hlt => ?_)
    exact ρ.lt_iff_lt.mpr hlt
  rw [List.mem_map]
  refine ⟨fun hj => ?_, ?_⟩
  · rw [hmem] at hj
    obtain ⟨entry, hentry, hcontent⟩ := Option.map_eq_some_iff.mp hj
    -- an entry with content was not inserted
    have hold : ∃ i, ρ i = j := by
      by_contra hnew
      rw [h.inserted j entry hentry (not_exists.mp hnew)] at hcontent
      cases hcontent
    obtain ⟨i, rfl⟩ := hold
    exact ⟨i, (hmem _ i).mpr ((h.hasContent_eq i).symm.trans hj), rfl⟩
  · rintro ⟨i, hi, rfl⟩
    rw [hmem] at hi ⊢
    exact (h.hasContent_eq i).trans hi

theorem countP_eq (h : Inserts ρ entries entries') :
    entries'.countP Entry.hasContent = entries.countP Entry.hasContent := by
  rw [← List.length_findIdxs, h.findIdxs_eq, List.length_map, List.length_findIdxs]

theorem length_le_iff (h : Inserts ρ entries entries') (i : ℕ) :
    entries'.length ≤ ρ i ↔ entries.length ≤ i := by
  rw [← List.getElem?_eq_none_iff, ← List.getElem?_eq_none_iff,
    ← Option.map_eq_none_iff (f := Entry.kind), h.kept, Option.map_eq_none_iff]

end Entry.Inserts

/-! ### The files under new numbers -/

/-- The same slice for the entry under its new number. -/
def FileSpan.renumber (ρ : ℕ ↪o ℕ) (span : FileSpan) : FileSpan :=
  { span with file := ρ span.file }

/-- The same record of a folder, whose first entry has its new number. -/
def FolderSpan.renumber (ρ : ℕ ↪o ℕ) (span : FolderSpan) : FolderSpan :=
  { span with firstFile := span.firstFile.map ρ }

section Files

variable {contents : List FolderContent} {substreams : List Substream} {e e' : FileSpan}
  {spans spans' : List (Option FileSpan)}

/-- A file fits its substream in one way only. -/
theorem FileSpan.Fits.eq (h : e.Fits contents substreams) (h' : e'.Fits contents substreams)
    (hsame : e'.substream = e.substream) : e' = { e with file := e'.file } := by
  obtain ⟨file, folder, substream, offset, size, crc⟩ := e
  obtain ⟨file', folder', substream', offset', size', crc'⟩ := e'
  obtain rfl : substream' = substream := hsame
  obtain rfl : folder' = folder := h'.inRun.unique h.inRun
  obtain rfl : offset' = offset := h'.offset.trans h.offset.symm
  have hslot := h'.slot.symm.trans h.slot
  simp only [Option.some.injEq, Substream.mk.injEq] at hslot
  obtain ⟨rfl, rfl⟩ := hslot
  rfl

/-- The files are the same but for the numbers of their entries. -/
theorem Placed.files_inserts (hplaced : Placed contents substreams 0 0 entries spans)
    (hplaced' : Placed contents substreams 0 0 entries' spans')
    (h : Entry.Inserts ρ entries entries') :
    spans'.filterMap id = (spans.filterMap id).map (FileSpan.renumber ρ) := by
  have hlength : (spans'.filterMap id).length = (spans.filterMap id).length := by
    have hfiles := congrArg List.length hplaced.map_file
    have hfiles' := congrArg List.length hplaced'.map_file
    rw [List.length_map, List.length_findIdxs] at hfiles hfiles'
    rw [hfiles, hfiles', h.countP_eq]
  refine List.ext_getElem (by rw [List.length_map, hlength]) fun k hk hk' => ?_
  have hlt : k < (spans.filterMap id).length := hlength ▸ hk
  rw [List.getElem_map]
  -- the `k`-th file has the `k`-th substream on either side
  have hsubstream : (spans'.filterMap id)[k].substream = (spans.filterMap id)[k].substream := by
    have hleft := List.getElem_of_eq hplaced'.map_substream (by simpa using hk)
    have hright := List.getElem_of_eq hplaced.map_substream (by simpa using hlt)
    rw [List.getElem_map, List.getElem_range'] at hleft hright
    exact hleft.trans hright.symm
  have hfile : (spans'.filterMap id)[k].file = ρ (spans.filterMap id)[k].file := by
    have hmap : (spans'.filterMap id).map FileSpan.file =
        ((spans.filterMap id).map FileSpan.file).map ρ := by
      rw [hplaced'.map_file, hplaced.map_file, h.findIdxs_eq]
    have hk := List.getElem_of_eq hmap (by simpa using hk)
    simpa using hk
  have heq := (hplaced.fits _ (List.getElem_mem hlt)).eq
    (hplaced'.fits _ (List.getElem_mem hk)) hsubstream
  rw [hfile] at heq
  exact heq

end Files

/-- An entry is placed without a look at its name. -/
theorem Cursor.placeAll_congr {contents : List FolderContent} {substreams : List Substream}
    {c : Cursor} {file : ℕ} (h : entries'.map Entry.kind = entries.map Entry.kind) :
    placeAll contents substreams c file entries' = placeAll contents substreams c file entries := by
  induction entries generalizing entries' c file with
  | nil => rw [List.map_eq_nil_iff.mp h]
  | cons entry entries ih =>
    obtain ⟨entry', rest, rfl, hkind, hrest⟩ := List.map_eq_cons_iff.mp h
    have hcontent : entry'.hasContent = entry.hasContent := by
      rw [Entry.hasContent, Entry.hasContent, hkind]
    simp only [placeAll, hcontent, ih hrest]

/-- A folder has one graph. -/
theorem Resolved.unique {folders : List Folder} {graphs graphs' : List FolderGraph}
    (h : Resolved folders graphs) (h' : Resolved folders graphs') : graphs' = graphs :=
  Relator.RightUnique.forall₂ (fun _ _ _ hg hg' => Except.ok.inj (hg.symm.trans hg')) h' h

namespace StreamMap

variable {a : Archive} {m m' : StreamMap} {graphs : List FolderGraph}
  {spans : List (Option FileSpan)}

/-! ### What does not depend on the entries -/

/-- What is found out about a header before its entries are looked at. -/
structure Layout where
  ranges : List PackRange
  packOffsets : List ℕ
  packEnd : ℕ
  contents : List FolderContent
  substreams : List Substream

/-- Checks a header without its entries. -/
def layout (a : Archive) : Except StructuralError Layout := do
  checkPackCrcs a
  let graphs ← resolveGraphs 0 a.folders
  let (ranges, packOffsets, packEnd) ← PackRange.ofArchive a graphs
  let (contents, substreams) ← FolderContent.ofArchive a graphs
  pure { ranges, packOffsets, packEnd, contents, substreams }

/-- The map of a header with the given layout. -/
def Layout.mapOf (l : Layout) (spans : List (Option FileSpan)) : StreamMap where
  folders := (l.ranges.zip l.contents).mapIdx fun folder p =>
    folderSpan (spans.filterMap id) folder p.1 p.2
  packOffsets := l.packOffsets
  packEnd := l.packEnd
  fileFolders := spans.map (Option.map FileSpan.folder)
  fileStreams := numberStreams 0 spans
  files := spans.filterMap id

theorem layout_covers {l : Layout} (h : layout a = .ok l) : Covers l.contents l.substreams := by
  obtain ⟨-, -, h⟩ := exists_of_bind_eq_ok h
  obtain ⟨graphs, hgraphs, h⟩ := exists_of_bind_eq_ok h
  obtain ⟨ranges, -, h⟩ := exists_of_bind_eq_ok h
  obtain ⟨r, hcontents, h⟩ := exists_of_bind_eq_ok h
  -- the list of the substreams was made from the graphs of the folders
  have hresolves : Decides False _ (Resolved a.folders) (resolveGraphs 0 a.folders) :=
    resolveGraphs_decides 0 a.folders
  have hresolved : Resolved a.folders graphs := (hresolves.holds hgraphs).2
  have hcollects : Decides False _ _ (FolderContent.ofArchive a graphs) :=
    FolderContent.ofArchive_decides a hresolved.describes False.elim
  obtain ⟨hsized, rfl⟩ := hcollects.holds hcontents
  cases h
  exact hsized.covers

/-- The entries come last. -/
theorem derive_eq_layout (a : Archive) :
    derive a = layout a >>= fun l =>
      FileSpan.ofEntries l.contents l.substreams a.entries >>= fun spans =>
        .ok (l.mapOf spans) := by
  simp only [derive, layout, bind_assoc, pure_bind]
  rfl

/-- A header is mapped just when it has a layout and as many files as substreams. -/
theorem exists_derive_iff_countP :
    (∃ m, derive a = .ok m) ↔
      ∃ l, layout a = .ok l ∧ a.entries.countP Entry.hasContent = l.substreams.length := by
  -- placing the entries is the only step that looks at them
  have hplaces : ∀ l, layout a = .ok l → Decides True _ _
      (FileSpan.ofEntries l.contents l.substreams a.entries) := fun l hl =>
    FileSpan.ofEntries_decides (layout_covers hl) a.entries
  rw [derive_eq_layout]
  refine ⟨?_, ?_⟩
  · rintro ⟨m, hm⟩
    obtain ⟨l, hl, hm⟩ := exists_of_bind_eq_ok hm
    obtain ⟨spans, hspans, -⟩ := exists_of_bind_eq_ok hm
    exact ⟨l, hl, ((hplaces l hl).holds hspans).1⟩
  · rintro ⟨l, hl, hcount⟩
    obtain ⟨spans, hspans⟩ := ((hplaces l hl).exists_ok_iff trivial).mpr hcount
    refine ⟨l.mapOf spans, ?_⟩
    rw [hl]
    show FileSpan.ofEntries l.contents l.substreams a.entries >>= _ = _
    rw [hspans]
    rfl

/-! ### The tables of the entries -/

/-- The position of a file, as the table of the entries has it. -/
theorem MadeOf.fileStreams_eq_some_iff (h : MadeOf a graphs spans m) {i k : ℕ} :
    m.fileStreams[i]? = some (some k) ↔ ∃ e, m.files[k]? = some e ∧ e.file = i := by
  -- an entry with a file has a position, at which the file is
  have hposition : ∀ e, m.findFile i = some e →
      ∃ k, m.fileStreams[i]? = some (some k) ∧ m.files[k]? = some e := by
    intro e he
    unfold findFile at he
    split at he
    · next k hk => exact ⟨k, Option.join_eq_some_iff.mp hk, he⟩
    · cases he
  refine ⟨fun hk => ?_, ?_⟩
  · have hsome : (m.findFile i).isSome := by
      have hflags := isSome_numberStreams 0 spans
      rw [← h.fileStreams] at hflags
      have hi := congrArg (·[i]?) hflags
      rw [h.findFile_eq]
      simp only [List.getElem?_map, hk, Option.map_some, Option.isSome_some] at hi
      obtain ⟨span, hspan, hsome⟩ := Option.map_eq_some_iff.mp hi.symm
      rwa [hspan]
    obtain ⟨e, he⟩ := Option.isSome_iff_exists.mp hsome
    obtain ⟨k', hk', hfile⟩ := hposition e he
    obtain rfl : k' = k := by simpa using hk'.symm.trans hk
    exact ⟨e, hfile, (h.findFile_eq_some_iff.mp he).2⟩
  · rintro ⟨e, hfile, rfl⟩
    obtain ⟨k', hk', hfile'⟩ :=
      hposition e (h.findFile_eq_some_iff.mpr ⟨List.mem_of_getElem? hfile, rfl⟩)
    -- no two files are of one entry
    have hnodup : (m.files.map FileSpan.file).Nodup :=
      (List.pairwise_map.mpr h.pairwise_file).imp Nat.ne_of_lt
    have hlt : k' < (m.files.map FileSpan.file).length := by
      rw [List.length_map]
      exact (List.getElem?_eq_some_iff.mp hfile').1
    have hsame : k' = k := (List.getElem?_inj hlt hnodup).mp (by
      rw [List.getElem?_map, List.getElem?_map, hfile, hfile'])
    rwa [← hsame]

theorem MadeOf.length_fileFolders (h : MadeOf a graphs spans m) :
    m.fileFolders.length = a.entries.length := by
  rw [h.fileFolders, List.length_map, ← List.length_map Option.isSome, h.placed.isSome_eq,
    List.length_map]

theorem MadeOf.length_fileStreams (h : MadeOf a graphs spans m) :
    m.fileStreams.length = a.entries.length := by
  rw [h.fileStreams, ← List.length_map Option.isSome, isSome_numberStreams, h.placed.isSome_eq,
    List.length_map]

/-! ### One map under two numberings -/

/-- The map `m'` is `m` for entries that have moved along `ρ`, among others without content that
make them `count` in all. -/
structure Renumbers (ρ : ℕ ↪o ℕ) (count : ℕ) (m m' : StreamMap) : Prop where
  folders : m'.folders = m.folders.map (FolderSpan.renumber ρ)
  packOffsets : m'.packOffsets = m.packOffsets
  packEnd : m'.packEnd = m.packEnd
  files : m'.files = m.files.map (FileSpan.renumber ρ)
  length_fileFolders : m'.fileFolders.length = count
  length_fileStreams : m'.fileStreams.length = count
  fileFolders : ∀ i, m'.fileFolders[ρ i]? = m.fileFolders[i]?
  fileStreams : ∀ i, m'.fileStreams[ρ i]? = m.fileStreams[i]?
  /-- The tables are empty at the entries that were inserted. -/
  fileFolders_new : ∀ j, (∀ i, ρ i ≠ j) → m'.fileFolders[j]?.join = none
  fileStreams_new : ∀ j, (∀ i, ρ i ≠ j) → m'.fileStreams[j]?.join = none

/-- A place of a table is given by whether it is there and what it holds. -/
theorem place_eq {α : Type} {place place' : Option (Option α)}
    (hsome : ∀ k, place' = some (some k) ↔ place = some (some k))
    (hnone : place' = none ↔ place = none) : place' = place := by
  match place, place' with
  | none, _ => exact hnone.mpr rfl
  | some (some k), _ => exact (hsome k).mpr rfl
  | some none, none => exact absurd (hnone.mp rfl) (by simp)
  | some none, some none => rfl
  | some none, some (some k) => exact absurd ((hsome k).mp rfl) (by simp)

theorem firstFile?_renumber (files : List FileSpan) (folder : ℕ) :
    firstFile? (files.map (FileSpan.renumber ρ)) folder = (firstFile? files folder).map ρ := by
  unfold firstFile?
  rw [List.find?_map, Option.map_map, Option.map_map]
  rfl

section Maps

variable {spans' : List (Option FileSpan)} (h : MadeOf a graphs spans m)
  (h' : MadeOf { a with entries := entries' } graphs spans' m')
  (hins : Entry.Inserts ρ a.entries entries')
include h h' hins

theorem MadeOf.files_inserts : m'.files = m.files.map (FileSpan.renumber ρ) := by
  rw [h'.files, h.files]
  exact h.placed.files_inserts h'.placed hins

theorem MadeOf.folders_inserts : m'.folders = m.folders.map (FolderSpan.renumber ρ) := by
  rw [h'.folders, h.folders, h.files_inserts h' hins, List.mapIdx_eq_iff]
  intro folder
  rw [List.getElem?_map, List.getElem?_mapIdx, Option.map_map]
  -- the record of a folder is the same but for its first entry
  refine congrArg (Option.map · _) (funext fun p => ?_)
  exact congrArg (FolderSpan.mk _ _ _ _ _ _ _) (firstFile?_renumber m.files folder).symm

theorem MadeOf.renumbers : Renumbers ρ entries'.length m m' := by
  have hfiles := h.files_inserts h' hins
  refine ⟨h.folders_inserts h' hins, ?_, ?_, hfiles, h'.length_fileFolders, h'.length_fileStreams,
    fun i => ?_, fun i => ?_, fun j hnew => ?_, fun j hnew => ?_⟩
  · exact h'.packOffsets.trans h.packOffsets.symm
  · exact h'.packEnd.trans h.packEnd.symm
  · -- the file of an entry from before is the one that it had
    refine place_eq (fun k => ?_) ?_
    · rw [h'.fileFolders_eq_some_iff, h.fileFolders_eq_some_iff, hfiles]
      refine ⟨?_, ?_⟩
      · rintro ⟨e', he', hfile, hfolder⟩
        obtain ⟨e, he, rfl⟩ := List.mem_map.mp he'
        exact ⟨e, he, ρ.injective hfile, hfolder⟩
      · rintro ⟨e, he, rfl, hfolder⟩
        exact ⟨e.renumber ρ, List.mem_map_of_mem he, rfl, hfolder⟩
    · rw [List.getElem?_eq_none_iff, List.getElem?_eq_none_iff, h'.length_fileFolders,
        h.length_fileFolders]
      exact hins.length_le_iff i
  · refine place_eq (fun k => ?_) ?_
    · rw [h'.fileStreams_eq_some_iff, h.fileStreams_eq_some_iff, hfiles]
      simp only [List.getElem?_map, Option.map_eq_some_iff]
      refine ⟨?_, ?_⟩
      · rintro ⟨_, ⟨e, he, rfl⟩, hfile⟩
        exact ⟨e, he, ρ.injective hfile⟩
      · rintro ⟨e, he, rfl⟩
        exact ⟨_, ⟨e, he, rfl⟩, rfl⟩
    · rw [List.getElem?_eq_none_iff, List.getElem?_eq_none_iff, h'.length_fileStreams,
        h.length_fileStreams]
      exact hins.length_le_iff i
  · -- no file is of an entry that was inserted
    rw [Option.eq_none_iff_forall_ne_some]
    intro k hk
    obtain ⟨e', he', hfile, -⟩ := h'.fileFolders_eq_some_iff.mp (Option.join_eq_some_iff.mp hk)
    rw [hfiles] at he'
    obtain ⟨e, -, rfl⟩ := List.mem_map.mp he'
    exact hnew e.file hfile
  · rw [Option.eq_none_iff_forall_ne_some]
    intro k hk
    obtain ⟨e', he', hfile⟩ := h'.fileStreams_eq_some_iff.mp (Option.join_eq_some_iff.mp hk)
    rw [hfiles, List.getElem?_map] at he'
    obtain ⟨e, -, rfl⟩ := Option.map_eq_some_iff.mp he'
    exact hnew e.file hfile

end Maps

/-- Names are not looked at. -/
theorem derive_congr_kinds (h : entries'.map Entry.kind = a.entries.map Entry.kind) :
    derive { a with entries := entries' } = derive a := by
  rw [derive_eq_layout, derive_eq_layout]
  simp only [FileSpan.ofEntries, Cursor.placeAll_congr h]
  rfl

/-- **Entries without content are transparent.** Let entries without content be inserted into a
header, at any places. It is mapped just if it was mapped before, and then to the same folders, pack
streams and files, in the same order, but for the numbers by which entries are named: these have
changed as the entries have moved, and the tables are empty at the new entries. The names of entries
have no part in the map at all. -/
theorem derive_inserts (h : Entry.Inserts ρ a.entries entries') :
    let a' : Archive := { a with entries := entries' }
    ((∃ m', derive a' = .ok m') ↔ ∃ m, derive a = .ok m) ∧
      (∀ m m', derive a = .ok m → derive a' = .ok m' → Renumbers ρ entries'.length m m') ∧
      ∀ renamed, renamed.map Entry.kind = a.entries.map Entry.kind →
        derive { a with entries := renamed } = derive a := by
  intro a'
  refine ⟨?_, fun m m' hm hm' => ?_, fun renamed hkinds => derive_congr_kinds hkinds⟩
  · have hlayout : layout a' = layout a := rfl
    rw [exists_derive_iff_countP, exists_derive_iff_countP, hlayout, h.countP_eq]
  · obtain ⟨-, graphs, spans, hmade⟩ := (derive_decides a).holds hm
    obtain ⟨-, graphs', spans', hmade'⟩ := (derive_decides a').holds hm'
    -- the folders are the same, and so are their graphs
    obtain rfl : graphs' = graphs := hmade.resolved.unique hmade'.resolved
    exact hmade.renumbers hmade' h

/-- Entries are inserted before the first file, inside a solid folder, between two folders and
behind the last file. -/
theorem derive_inserts_four :
    let copy : Folder := { coders := [{ methodId := [0] }] }
    let directory : Entry := { name := "d", kind := .directory }
    let a : Archive :=
      { packSizes := [5, 2], folders := [copy, copy]
        substreams := some
          { counts := [2, 1], sizes := [2, 3, 2], crcs := [none, none, none]
            counts_sum := rfl, crcs_length := rfl }
        entries := [{ name := "a" }, { name := "b" }, { name := "c" }] }
    let entries' : List Entry :=
      (((a.entries.insertIdx 0 directory).insertIdx 2 directory).insertIdx 4
        { name := "e", kind := .emptyFile }).insertIdx 6 directory
    let ρ := (((makeRoom 0).trans (makeRoom 2)).trans (makeRoom 4)).trans (makeRoom 6)
    Entry.Inserts ρ a.entries entries' ∧ ∃ m m', derive a = .ok m ∧
      derive { a with entries := entries' } = .ok m' ∧ m.files.map FileSpan.file = [0, 1, 2] ∧
      m'.files.map FileSpan.file = [1, 3, 5] ∧ Renumbers ρ entries'.length m m' := by
  intro copy directory a entries' ρ
  have hins : Entry.Inserts ρ a.entries entries' :=
    (((Entry.Inserts.insertIdx rfl).trans (.insertIdx rfl)).trans (.insertIdx rfl)).trans
      (.insertIdx rfl)
  exact ⟨hins, _, _, rfl, rfl, rfl, rfl, (derive_inserts hins).2.1 _ _ rfl rfl⟩

end StreamMap

end SolidArchive
