import SolidArchive.Proofs.StreamMap.Partition

/-!
# The checksums of files

A header may have a checksum for a substream, and one for the output of a folder. What a file is
compared with is its own checksum if it has one. That of the folder stands in where the folder has
one substream and no more (`Archive.promisedCrc`), for then both are about the same bytes.
-/

namespace SolidArchive

open FolderContent

/-! ### What a header promises -/

namespace Archive

/-- The checksum that a substream has of its own. -/
def explicitCrc (a : Archive) (substream : Nat) : Option UInt32 :=
  a.substreams.bind fun s => s.crc substream

/-- How many substreams a folder has, which is one if the header has no list of them. -/
def substreamCount (a : Archive) (folder : Nat) : Nat :=
  match a.substreams with
  | none => 1
  | some s => (numbers s.counts)[folder]?.getD 0

/-- The checksum of a folder's output. -/
def folderCrc (a : Archive) (folder : Nat) : Option UInt32 :=
  a.folders[folder]?.bind Folder.unpackCrc

/-- The checksum that the content of a substream of a folder should have. -/
def promisedCrc (a : Archive) (folder substream : Nat) : Option UInt32 :=
  match a.explicitCrc substream with
  | some crc => some crc
  | none => if a.substreamCount folder = 1 then a.folderCrc folder else none

end Archive

/-! ### What the map says -/

theorem Substreams.crc_of_slots {s : Substreams} {folderCrc : Option UInt32} {first count i : Nat}
    {slot : Substream} (h : (s.slots folderCrc first count)[i]? = some slot) :
    slot.crc = (s.crc (first + i) <|> folderCrc) := by
  unfold Substreams.slots at h
  rw [List.getElem?_map] at h
  obtain ⟨⟨size, crc⟩, hslot, rfl⟩ := Option.map_eq_some_iff.mp h
  have hzip : (s.sizes.zip s.crcs)[first + i]? = some (size, crc) := by
    rw [List.getElem?_take] at hslot
    split at hslot
    · rwa [List.getElem?_drop] at hslot
    · cases hslot
  rw [Substreams.crc, (List.getElem?_zip_eq_some.mp hzip).2]
  rfl

namespace StreamMap

variable {a : Archive} {graphs : List FolderGraph} {spans : List (Option FileSpan)} {m : StreamMap}
  {k : Nat} {span : FolderSpan} {e : FileSpan}

/-- The record of a folder has the number of substreams that the header has. -/
theorem MadeOf.substreamCount_eq (h : MadeOf a graphs spans m) (hk : m.folders[k]? = some span) :
    span.substreamCount = a.substreamCount k := by
  obtain ⟨f, g, -, rfl⟩ := h.getElem?_folders hk
  show (contentOf a.substreams k f g).1.substreamCount = a.substreamCount k
  unfold Archive.substreamCount contentOf
  cases a.substreams with
  | none => rfl
  | some s => rfl

/-- The substream of a file is one of those of its folder. -/
theorem MadeOf.exists_slot (h : MadeOf a graphs spans m) (he : e ∈ m.files) :
    ∃ f g i, a.folders[e.folder]? = some f ∧
      (contentOf a.substreams e.folder f g).1.firstSubstream + i = e.substream ∧
      (contentOf a.substreams e.folder f g).2[i]? = some { size := e.size, crc := e.crc } := by
  have hfits := h.partitions.fits e he
  have hlt : e.folder < (a.folders.zip graphs).length := by
    have hlt := hfits.inRun.1
    rwa [substreamCounts, List.length_map, length_folderContents] at hlt
  obtain ⟨⟨f, g⟩, hfolder⟩ : ∃ p, (a.folders.zip graphs)[e.folder]? = some p :=
    ⟨_, List.getElem?_eq_getElem hlt⟩
  have hpiece : (contentsOf a.substreams 0 (a.folders.zip graphs))[e.folder]? =
      some (contentOf a.substreams e.folder f g) := by
    rw [getElem?_contentsOf, hfolder]
    rfl
  -- the record of the folder begins where its run of substreams does
  have hcontent : (folderContents a.substreams (a.folders.zip graphs))[e.folder]? =
      some (contentOf a.substreams e.folder f g).1 := by
    rw [getElem?_folderContents, hfolder]
    rfl
  have hstart := h.sized.covers.first hcontent
  obtain ⟨-, hle, hend⟩ := hfits.inRun
  rw [runStart_succ (Cursor.getElem?_substreamCounts hcontent), ← hstart] at hend
  rw [← hstart] at hle
  refine ⟨f, g, e.substream - (contentOf a.substreams e.folder f g).1.firstSubstream,
    (List.getElem?_zip_eq_some.mp hfolder).1, Nat.add_sub_cancel' hle, ?_⟩
  -- the substreams of the folder are a piece of all of them
  have hslice := take_drop_flatMap_snd (length_snd_of_mem_contentsOf _ _) hpiece
  rw [← hslice, ← folderContents, ← hstart, List.getElem?_take_of_lt (by omega),
    List.getElem?_drop, Nat.add_sub_cancel' hle]
  exact hfits.slot

/-- **The checksum of a file** in the map is the one that the header promises. -/
theorem MadeOf.crc_eq (h : MadeOf a graphs spans m) (he : e ∈ m.files) :
    e.crc = a.promisedCrc e.folder e.substream := by
  obtain ⟨f, g, i, hfolder, hsubstream, hslot⟩ := h.exists_slot he
  unfold Archive.promisedCrc Archive.explicitCrc Archive.substreamCount Archive.folderCrc
  rw [hfolder]
  cases hs : a.substreams with
  | none =>
    -- the only substream has the checksum of the folder
    rw [hs] at hslot
    obtain ⟨-, hcrc⟩ := Substream.mk.inj (List.mem_singleton.mp (List.mem_of_getElem? hslot))
    exact hcrc
  | some s =>
    rw [hs] at hslot hsubstream
    have hcrc := Substreams.crc_of_slots hslot
    have hfirst : runStart (numbers s.counts) e.folder + i = e.substream := hsubstream
    rw [hfirst] at hcrc
    rw [Option.bind_some]
    -- its own checksum goes before that of the folder
    cases hown : s.crc e.substream with
    | some crc =>
      rw [hown] at hcrc
      exact hcrc
    | none =>
      rw [hown] at hcrc
      exact hcrc

end StreamMap

end SolidArchive
