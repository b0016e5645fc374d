import SolidArchive.Proofs.StreamMap.Consistency

/-!
# The pack region and its folders

The pack side of a stream map. The offsets of the pack streams are the sums of the sizes before
them, and the folders' ranges are the runs that the numbers of their packed inputs cut the pack
streams into. All of it follows from the closed form of the ranges (`PackRange.tile`): a folder
starts at pack stream `runStart counts k`, the next one at `runStart counts (k + 1)`, and the last
one ends at `counts.sum`, which the check has found to be the number of pack streams.

That the length of a folder never overflows is no matter of accepted headers only. The lengths are
added up after the end of the region was found to fit a word, and what lies in the region is no
longer than the region.
-/

namespace SolidArchive.StreamMap

variable {a : Archive} {graphs : List FolderGraph} {spans : List (Option FileSpan)} {m : StreamMap}
  {k : Nat} {span : FolderSpan}

/-! ### The record of a folder -/

theorem MadeOf.length_folders (h : MadeOf a graphs spans m) :
    m.folders.length = a.folders.length := by
  rw [h.folders, List.length_mapIdx, List.length_zip, PackRange.length_tiles,
    FolderContent.length_folderContents, h.resolved.length_zip, PackRange.packCounts,
    List.length_map, h.resolved.length_eq, min_self]

theorem MadeOf.length_packCounts (h : MadeOf a graphs spans m) :
    (PackRange.packCounts graphs).length = m.folders.length := by
  rw [h.length_folders, PackRange.packCounts, List.length_map, h.resolved.length_eq]

/-- A folder has the range and the content at its place. -/
theorem MadeOf.getElem?_folders (h : MadeOf a graphs spans m) (hk : m.folders[k]? = some span) :
    ∃ f g, (a.folders.zip graphs)[k]? = some (f, g) ∧
      span = folderSpan m.files k
        (PackRange.tile a.packPosition.toNat a.packSizes (runStart (PackRange.packCounts graphs) k)
          g.packedInputs.length)
        (FolderContent.contentOf a.substreams k f g).1 := by
  rw [h.folders, List.getElem?_mapIdx] at hk
  obtain ⟨⟨range, content⟩, hpair, rfl⟩ := Option.map_eq_some_iff.mp hk
  obtain ⟨hrange, hcontent⟩ := List.getElem?_zip_eq_some.mp hpair
  rw [PackRange.getElem?_tiles, Nat.zero_add] at hrange
  rw [FolderContent.getElem?_folderContents] at hcontent
  obtain ⟨count, hcount, rfl⟩ := Option.map_eq_some_iff.mp hrange
  obtain ⟨⟨f, g⟩, hfolder, rfl⟩ := Option.map_eq_some_iff.mp hcontent
  have hgraph := (List.getElem?_zip_eq_some.mp hfolder).2
  rw [PackRange.packCounts, List.getElem?_map, hgraph] at hcount
  cases hcount
  exact ⟨f, g, hfolder, rfl⟩

/-! ### The ranges of the folders -/

/-- The pack streams of a header, from the start of the region to its end, each in the range of one
folder. -/
structure TilesPackRegion (m : StreamMap) (a : Archive) : Prop where
  length_packOffsets : m.packOffsets.length = a.packSizes.length
  packOffset : ∀ k < a.packSizes.length,
    m.packOffsets[k]? = some (a.packPosition.toNat + ((numbers a.packSizes).take k).sum)
  packEnd : m.packEnd = a.packPosition.toNat + (numbers a.packSizes).sum
  packEnd_lt : m.packEnd < 2 ^ 64
  length_folders : m.folders.length = a.folders.length
  count_pos : ∀ span ∈ m.folders, 1 ≤ span.packStreamCount
  /-- A folder reads the inputs that its bind pairs do not feed. -/
  count : ∀ (k : Nat) (f : Folder) (span : FolderSpan), a.folders[k]? = some f →
    m.folders[k]? = some span → span.packStreamCount + f.bindPairs.length = f.totalInputs
  length : ∀ span ∈ m.folders, span.packedLength =
    (((numbers a.packSizes).drop span.firstPackStream).take span.packStreamCount).sum
  first : ∀ span : FolderSpan, m.folders[0]? = some span →
    span.firstPackStream = 0 ∧ span.packOffset = a.packPosition.toNat
  next : ∀ (k : Nat) (span span' : FolderSpan),
    m.folders[k]? = some span → m.folders[k + 1]? = some span' →
    span'.firstPackStream = span.firstPackStream + span.packStreamCount ∧
      span'.packOffset = span.packOffset + span.packedLength
  last : ∀ span, m.folders.getLast? = some span →
    span.firstPackStream + span.packStreamCount = a.packSizes.length ∧
      span.packOffset + span.packedLength = m.packEnd
  exists_unique : ∀ stream < a.packSizes.length, ∃! k : Nat, ∃ span : FolderSpan,
    m.folders[k]? = some span ∧ span.firstPackStream ≤ stream ∧
      stream < span.firstPackStream + span.packStreamCount

/-- The range of a folder, as one of the runs. -/
structure IsRun (a : Archive) (counts : List Nat) (k : Nat) (span : FolderSpan) : Prop where
  count : counts[k]? = some span.packStreamCount
  first : span.firstPackStream = runStart counts k
  offset : span.packOffset =
    a.packPosition.toNat + runStart (numbers a.packSizes) (runStart counts k)
  length : span.packedLength =
    sliceSum (numbers a.packSizes) (runStart counts k) span.packStreamCount

theorem MadeOf.isRun (h : MadeOf a graphs spans m) (hk : m.folders[k]? = some span) :
    IsRun a (PackRange.packCounts graphs) k span := by
  obtain ⟨f, g, hfolder, rfl⟩ := h.getElem?_folders hk
  have hgraph := (List.getElem?_zip_eq_some.mp hfolder).2
  refine ⟨?_, rfl, rfl, rfl⟩
  rw [PackRange.packCounts, List.getElem?_map, hgraph]
  rfl

section Run

variable {counts : List Nat}

theorem IsRun.end_eq (h : IsRun a counts k span) :
    span.firstPackStream + span.packStreamCount = runStart counts (k + 1) := by
  rw [runStart_succ h.count, h.first]

theorem IsRun.packEnd_eq (h : IsRun a counts k span) :
    span.packOffset + span.packedLength =
      a.packPosition.toNat + runStart (numbers a.packSizes) (runStart counts (k + 1)) := by
  rw [runStart_succ h.count, runStart_add, h.offset, h.length, Nat.add_assoc]

theorem IsRun.inRun_iff (h : IsRun a counts k span) {stream : Nat} :
    InRun counts k stream ↔ span.firstPackStream ≤ stream ∧
      stream < span.firstPackStream + span.packStreamCount := by
  rw [h.end_eq, h.first]
  exact and_iff_right (List.getElem?_eq_some_iff.mp h.count).1

end Run

theorem MadeOf.tilesPackRegion (h : MadeOf a graphs spans m) : m.TilesPackRegion a where
  length_packOffsets := by rw [h.packOffsets, List.length_map, List.length_range]
  packOffset k hk := by
    rw [h.packOffsets, List.getElem?_map, List.getElem?_range hk]
    rfl
  packEnd := h.packEnd
  packEnd_lt := by
    rw [h.packEnd]
    exact h.packRegion
  length_folders := h.length_folders
  count_pos span hspan := by
    obtain ⟨k, hk⟩ := List.mem_iff_getElem?.mp hspan
    obtain ⟨f, g, hfolder, rfl⟩ := h.getElem?_folders hk
    obtain ⟨hf, hg⟩ := h.resolved.describes_of_getElem? hfolder
    exact hg.packedInputs_pos hf
  count k f span hf hk := by
    obtain ⟨f', g, hfolder, rfl⟩ := h.getElem?_folders hk
    obtain ⟨hcoder, hg⟩ := h.resolved.describes_of_getElem? hfolder
    -- the graph is that of the folder
    obtain rfl : f' = f := by
      rw [(List.getElem?_zip_eq_some.mp hfolder).1] at hf
      exact Option.some.inj hf
    exact hg.packedInputs.length_add hcoder.bindsOnce
  length span hspan := by
    obtain ⟨k, hk⟩ := List.mem_iff_getElem?.mp hspan
    have hrun := h.isRun hk
    rw [hrun.length, hrun.first, sliceSum]
  first span hk := by
    have hrun := h.isRun hk
    rw [hrun.first, hrun.offset, runStart_zero, runStart_zero]
    exact ⟨rfl, rfl⟩
  next k span span' hk hk' := by
    have hrun := h.isRun hk
    have hrun' := h.isRun hk'
    rw [hrun.end_eq, hrun.packEnd_eq, hrun'.first, hrun'.offset]
    exact ⟨rfl, rfl⟩
  last span hlast := by
    rw [List.getLast?_eq_getElem?] at hlast
    -- the run behind the last folder starts where all runs end
    have hrun := h.isRun hlast
    have hend : m.folders.length - 1 + 1 = (PackRange.packCounts graphs).length := by
      have hlt := (List.getElem?_eq_some_iff.mp hlast).1
      rw [h.length_packCounts]
      omega
    have hall := runStart_length (numbers a.packSizes)
    rw [length_numbers] at hall
    rw [hrun.end_eq, hrun.packEnd_eq, hend, runStart_length, h.packCounts, hall, h.packEnd]
    exact ⟨rfl, rfl⟩
  exists_unique stream hstream := by
    -- the runs are a partition, and the ranges are the runs
    rw [← h.packCounts] at hstream
    refine (existsUnique_congr fun k => ?_).mp (existsUnique_inRun hstream)
    refine ⟨?_, ?_⟩
    · intro hin
      have hlt : k < m.folders.length := by
        rw [← h.length_packCounts]
        exact hin.1
      have hk := List.getElem?_eq_getElem hlt
      exact ⟨_, hk, (h.isRun hk).inRun_iff.mp hin⟩
    · rintro ⟨span, hk, hin⟩
      exact (h.isRun hk).inRun_iff.mpr hin

/-- **The pack region.** The pack streams of a header that is mapped lie one behind the other in its
pack region, without a sum that leaves its word, and its folders take them one after the other, each
as many as it reads and at least one. No header at all is refused because the streams of a folder
were too long. -/
theorem derive_tilesPackRegion (a : Archive) :
    (∀ m, derive a = .ok m → m.TilesPackRegion a) ∧
      derive a ≠ .error (.overflow .packedLength) := by
  refine ⟨fun m hm => ?_, fun hoverflow => ?_⟩
  · obtain ⟨-, graphs, spans, hmade⟩ := (derive_decides a).holds hm
    exact hmade.tilesPackRegion
  · -- the fault is neither one that a header may have nor a breach
    exact ((derive_decides a).genuine_or_breach hoverflow).elim id id

/-- Two folders, of which the second takes two of the three pack streams, one of them empty. -/
theorem derive_tilesPackRegion_two_folders :
    let a : Archive :=
      { packPosition := 32, packSizes := [4, 0, 7]
        folders := [{ coders := [{ methodId := [0] }], unpackSizes := [4] },
          { coders := [{ methodId := [3], inputs := 2 }], packedStreams := [1, 0]
            unpackSizes := [11] }]
        entries := [{ name := "a" }, { name := "b" }] }
    ∃ m, derive a = .ok m ∧ m.folders.map FolderSpan.packOffset = [32, 36] ∧
      m.TilesPackRegion a := by
  intro a
  exact ⟨_, rfl, rfl, (derive_tilesPackRegion a).1 _ rfl⟩

end SolidArchive.StreamMap
