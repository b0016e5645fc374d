import SolidArchive.Proofs.StreamMap.PackRegion
import SolidArchive.Proofs.StreamMap.Placement
import SolidArchive.StreamMap.Derive

/-!
# Consistent headers

`Archive.Consistent` says what the parts of a header have to do with each other, in sums of numbers
that leave no word and without an order of steps, and `derive_decides` that a header is mapped just
when it is so. Two of the conditions are looked at in other words on the way. The pack streams are
counted folder by folder against what is left, where a graph gives the number of inputs that a
folder reads (`Resolved.sum_packCounts`); and the size that a folder declares is looked up at the
final output of its graph (`forall_declaredResult_iff`).

That a sum of counts does not leave its word is a matter of what fits in memory
(`Archive.InMemory`). There are no more folders than pack streams, since each takes one, and no more
substreams than a builder could count.
-/

namespace SolidArchive

open FolderContent

variable {ground : Prop} {a : Archive} {folders : List Folder} {graphs : List FolderGraph}

/-! ### What a header has to be -/

/-- The number of substreams in the header; without any in it, each folder is one. -/
def Archive.substreamTotal (a : Archive) : Nat :=
  match a.substreams with
  | none => a.folders.length
  | some s => s.sizes.length

/-- The header says how long the output of the `k`-th folder is: the folder declares it, or it has
substreams, whose sizes have a sum that fits a word and is what the folder declares, if it does. -/
def Archive.SizesOutput (a : Archive) (k : Nat) (f : Folder) : Prop :=
  match a.substreams with
  | none => f.unpackSizes ≠ []
  | some s => ∀ count, (numbers s.counts)[k]? = some count → 1 ≤ count →
    let total := sliceSum (numbers s.sizes) (runStart (numbers s.counts) k) count
    total < 2 ^ 64 ∧ (f.unpackSizes ≠ [] →
      ∃ output, f.UnboundOutput output ∧ (numbers f.unpackSizes)[output]? = some total)

/-- A header whose parts agree. -/
structure Archive.Consistent (a : Archive) : Prop where
  packCrcs : a.packCrcsDefined = [] ∨
    a.packCrcsDefined.length = a.packSizes.length ∧ a.packCrcs.length = a.packSizes.length
  graphs : ∀ f ∈ a.folders, ∃ g, FolderGraph.resolve f = .ok g
  packRegion : a.packPosition.toNat + (numbers a.packSizes).sum < 2 ^ 64
  packStreams : (a.folders.map fun f => (f.totalInputs : ℤ) - f.bindPairs.length).sum =
    a.packSizes.length
  covers : ∀ s ∈ a.substreams, s.counts.length = a.folders.length
  sizes : ∀ k f, a.folders[k]? = some f → a.SizesOutput k f
  files : a.entries.countP Entry.hasContent = a.substreamTotal

/-- A header as it is in memory: its tables are shorter than a word can count, and its substreams
were frozen by a builder, unless they are the empty ones. -/
structure Archive.InMemory (a : Archive) : Prop where
  packSizes : a.packSizes.length < 2 ^ 64
  substreams : ∀ s ∈ a.substreams,
    s = Substreams.empty ∨ ∃ b : Substreams.Builder, b.freeze = .ok s

theorem Substreams.Builder.declared_lt {total sum : Nat} {counts : List UInt64}
    (h : declared total counts = .ok sum) (htotal : total < 2 ^ 64) : sum < 2 ^ 64 := by
  induction counts generalizing total with
  | nil =>
    cases h
    exact htotal
  | cons count counts ih =>
    rw [declared] at h
    split at h
    · next hnext => exact ih h hnext
    · cases h

/-- A builder counts its substreams in a word. -/
theorem Substreams.Builder.freeze_length_lt {b : Builder} {s : Substreams}
    (h : b.freeze = .ok s) : s.sizes.length < 2 ^ 64 := by
  unfold freeze at h
  split at h
  · cases h
  · next total hsum =>
    -- the counts add up within a word, and the sizes are as many
    have htotal := declared_lt hsum (Nat.two_pow_pos 64)
    split at h
    · next hsizes =>
      rw [hsizes] at htotal
      split at h
      · cases h
        exact htotal
      · split at h
        · cases h
          exact htotal
        · cases h
    · cases h

theorem Archive.InMemory.sizes_lt (h : a.InMemory) {s : Substreams} (hs : s ∈ a.substreams) :
    s.sizes.length < 2 ^ 64 := by
  rcases h.substreams s hs with rfl | ⟨b, hb⟩
  · exact Nat.two_pow_pos 64
  · exact Substreams.Builder.freeze_length_lt hb

/-! ### The graphs of the folders -/

/-- Every folder has its graph. -/
def Resolved (folders : List Folder) (graphs : List FolderGraph) : Prop :=
  List.Forall₂ (fun f g => FolderGraph.resolve f = .ok g) folders graphs

theorem Resolved.describes (h : Resolved folders graphs) :
    List.Forall₂ (fun f g => f.IsCoderGraph ∧ g.Describes f) folders graphs :=
  h.imp fun _ _ hg => (FolderGraph.resolve_decides _).holds hg

theorem Resolved.length_zip (h : Resolved folders graphs) :
    (folders.zip graphs).length = folders.length := by
  rw [List.length_zip, h.length_eq, min_self]

theorem Resolved.describes_of_getElem? (h : Resolved folders graphs) {k : Nat} {f : Folder}
    {g : FolderGraph} (hk : (folders.zip graphs)[k]? = some (f, g)) :
    f.IsCoderGraph ∧ g.Describes f :=
  (List.forall₂_iff_zip.mp h.describes).2 (List.mem_of_getElem? hk)

/-- A folder takes as many pack streams as it has inputs that no bind pair names. -/
theorem Resolved.sum_packCounts (h : Resolved folders graphs) :
    ((PackRange.packCounts graphs).sum : ℤ) =
      (folders.map fun f => (f.totalInputs : ℤ) - f.bindPairs.length).sum := by
  induction h with
  | nil => rfl
  | cons hg _ ih =>
    obtain ⟨hf, hdescribes⟩ := (FolderGraph.resolve_decides _).holds hg
    have hlength := hdescribes.packedInputs.length_add hf.bindsOnce
    rw [PackRange.packCounts] at ih
    rw [PackRange.packCounts, List.map_cons, List.map_cons, List.sum_cons, List.sum_cons, ← ih]
    omega

/-- Every folder reads from the pack region. -/
theorem Resolved.length_le_sum (h : Resolved folders graphs) :
    folders.length ≤ (PackRange.packCounts graphs).sum := by
  induction h with
  | nil => exact Nat.zero_le _
  | cons hg _ ih =>
    obtain ⟨hf, hdescribes⟩ := (FolderGraph.resolve_decides _).holds hg
    have hpos := hdescribes.packedInputs_pos hf
    rw [PackRange.packCounts] at ih
    rw [PackRange.packCounts, List.map_cons, List.sum_cons, List.length_cons]
    omega

/-! ### The sizes of the outputs -/

section Sizes

variable {f : Folder} {g : FolderGraph} {k total : Nat}

/-- The size that a folder declares is that of the one output left over. -/
theorem forall_declaredResult_iff (hf : f.IsCoderGraph) (hg : g.Describes f) :
    (∀ size, f.declaredResult g = some size → total = size) ↔
      (f.unpackSizes ≠ [] →
        ∃ output, f.UnboundOutput output ∧ (numbers f.unpackSizes)[output]? = some total) := by
  have hresult : f.declaredResult g = (numbers f.unpackSizes)[g.finalOutput]? :=
    (getElem?_numbers _ _).symm
  have hnone := declaredResult_eq_none_iff hf hg
  refine ⟨?_, ?_⟩
  · -- the final output is one that no bind pair names
    intro h hsome
    obtain ⟨size, hsize⟩ := Option.ne_none_iff_exists'.mp (mt hnone.mp hsome)
    refine ⟨g.finalOutput, (hg.finalOutput _).mpr rfl, ?_⟩
    rw [← hresult, hsize, h size hsize]
  · -- and there is no other
    intro h size hsize
    have hsome : f.unpackSizes ≠ [] := by
      rw [Ne, ← hnone, hsize]
      exact Option.some_ne_none size
    obtain ⟨output, hunbound, htotal⟩ := h hsome
    rw [(hg.finalOutput output).mp hunbound, ← hresult, hsize] at htotal
    exact (Option.some.inj htotal).symm

theorem hasOneSize_iff (hf : f.IsCoderGraph) (hg : g.Describes f) :
    HasOneSize a.substreams k f g ↔ a.SizesOutput k f := by
  unfold HasOneSize Archive.SizesOutput
  cases a.substreams with
  | none => exact Iff.rfl
  | some s =>
    -- a folder that the counts do not cover has no substreams
    cases hcount : (numbers s.counts)[k]? with
    | none => simp [hcount]
    | some count =>
      simp only [hcount, Option.getD_some, Option.some.injEq, forall_eq',
        forall_declaredResult_iff hf hg, Nat.one_le_iff_ne_zero]

theorem Resolved.sized_iff (h : Resolved a.folders graphs) :
    Sized a.substreams (a.folders.zip graphs) ↔
      (∀ s ∈ a.substreams, s.counts.length = a.folders.length) ∧
        ∀ k f, a.folders[k]? = some f → a.SizesOutput k f := by
  refine ⟨?_, ?_⟩
  · -- every folder has a graph, by which its size was found
    intro hsized
    refine ⟨fun s hs => (hsized.length_counts s hs).trans h.length_zip, fun k f hk => ?_⟩
    have hlt : k < graphs.length := by
      rw [← h.length_eq]
      exact (List.getElem?_eq_some_iff.mp hk).1
    have hpair : (a.folders.zip graphs)[k]? = some (f, graphs[k]) :=
      List.getElem?_zip_eq_some.mpr ⟨hk, List.getElem?_eq_getElem hlt⟩
    obtain ⟨hf, hg⟩ := h.describes_of_getElem? hpair
    exact (hasOneSize_iff hf hg).mp (hsized.oneSize hpair)
  · rintro ⟨hcovers, hsizes⟩
    refine ⟨fun s hs => (hcovers s hs).trans h.length_zip.symm, fun {k f g} hk => ?_⟩
    obtain ⟨hf, hg⟩ := h.describes_of_getElem? hk
    exact (hasOneSize_iff hf hg).mpr (hsizes k f (List.getElem?_zip_eq_some.mp hk).1)

end Sizes

namespace StreamMap

theorem resolveGraphs_decides (folder : Nat) (folders : List Folder) :
    Decides ground (∀ f ∈ folders, ∃ g, FolderGraph.resolve f = .ok g) (Resolved folders)
      (resolveGraphs folder folders) := by
  induction folders generalizing folder with
  | nil => exact Decides.pure (fun f hf => absurd hf List.not_mem_nil) .nil
  | cons f folders ih =>
    rw [resolveGraphs, List.forall_mem_cons]
    -- a graph is resolved on any ground
    have hself : Decides ground _ _ (FolderGraph.resolve f) :=
      (FolderGraph.resolve_decides f).self
    have hgraph := hself.mapError (g := StructuralError.graph folder) (fun _ h => h) fun _ h => h
    refine hgraph.bind And.left fun g hf hg => ?_
    refine (ih (folder + 1)).bind And.right fun graphs hfolders hgraphs => ?_
    exact Decides.pure ⟨hf, hfolders⟩ (.cons hg hgraphs)

theorem checkPackCrcs_decides (a : Archive) :
    Decides ground
      (a.packCrcsDefined = [] ∨
        a.packCrcsDefined.length = a.packSizes.length ∧ a.packCrcs.length = a.packSizes.length)
      (fun _ => True) (checkPackCrcs a) := by
  unfold checkPackCrcs
  by_cases hnone : a.packCrcsDefined = []
  · -- no pack stream has a checksum
    rw [if_pos hnone]
    exact Decides.pure (.inl hnone) trivial
  rw [if_neg hnone]
  refine Decides.guard rfl trivial (fun hflags h => ?_) fun hflags => ?_
  · exact h.elim hnone fun h => hflags h.1
  refine Decides.guard rfl trivial (fun hvalues h => ?_) fun hvalues => ?_
  · exact h.elim hnone fun h => hvalues h.2
  exact Decides.pure (.inr ⟨not_not.mp hflags, not_not.mp hvalues⟩) trivial

/-! ### The whole check -/

/-- A map is put together from the graphs of the folders and the spans of the entries. -/
structure MadeOf (a : Archive) (graphs : List FolderGraph) (spans : List (Option FileSpan))
    (m : StreamMap) : Prop where
  resolved : Resolved a.folders graphs
  packRegion : a.packPosition.toNat + (numbers a.packSizes).sum < 2 ^ 64
  packCounts : (PackRange.packCounts graphs).sum = a.packSizes.length
  sized : Sized a.substreams (a.folders.zip graphs)
  files_eq : a.entries.countP Entry.hasContent =
    (allSubstreams a.substreams (a.folders.zip graphs)).length
  placed : Placed (folderContents a.substreams (a.folders.zip graphs))
    (allSubstreams a.substreams (a.folders.zip graphs)) 0 0 a.entries spans
  packOffsets : m.packOffsets = (List.range a.packSizes.length).map
    fun k => a.packPosition.toNat + runStart (numbers a.packSizes) k
  packEnd : m.packEnd = a.packPosition.toNat + (numbers a.packSizes).sum
  folders : m.folders =
    ((PackRange.tiles a.packPosition.toNat a.packSizes 0 (PackRange.packCounts graphs)).zip
      (folderContents a.substreams (a.folders.zip graphs))).mapIdx
        fun folder p => folderSpan m.files folder p.1 p.2
  fileFolders : m.fileFolders = spans.map (Option.map FileSpan.folder)
  fileStreams : m.fileStreams = numberStreams 0 spans
  files : m.files = spans.filterMap id

theorem length_substreams (h : Resolved a.folders graphs)
    (hsized : Sized a.substreams (a.folders.zip graphs)) :
    (allSubstreams a.substreams (a.folders.zip graphs)).length = a.substreamTotal := by
  rw [hsized.covers.length]
  unfold Archive.substreamTotal
  cases hs : a.substreams with
  | none =>
    -- one for each folder
    rw [substreamCounts_none, List.sum_replicate_nat, mul_one, h.length_zip]
  | some s =>
    rw [hs] at hsized
    rw [substreamCounts_some (hsized.length_counts s rfl)]
    exact s.sum_counts

/-- **The stream map.** A header is mapped just when its parts agree. -/
theorem derive_decides (a : Archive) :
    Decides a.InMemory a.Consistent (fun m => ∃ graphs spans, MadeOf a graphs spans m)
      (derive a) := by
  unfold derive
  refine (checkPackCrcs_decides a).bind (fun h => h.packCrcs) fun _ hcrcs _ => ?_
  refine (resolveGraphs_decides 0 a.folders).bind (fun h => h.graphs) fun graphs hgraphs hres => ?_
  -- the graphs say how many pack streams the folders read
  have hpack : (PackRange.packCounts graphs).sum = a.packSizes.length ↔
      (a.folders.map fun f => (f.totalInputs : ℤ) - f.bindPairs.length).sum =
        a.packSizes.length := by
    rw [← hres.sum_packCounts]
    exact Int.natCast_inj.symm
  refine (PackRange.ofArchive_decides a graphs fun hg => hg.packSizes).bind_eq
    (fun h => ⟨h.packRegion, hpack.mpr h.packStreams⟩) fun ⟨hregion, hcounts⟩ => ?_
  -- a folder takes a pack stream, so there are no more folders than those
  have hfew : a.folders.length ≤ a.packSizes.length := hcounts ▸ hres.length_le_sum
  refine (FolderContent.ofArchive_decides a hres.describes fun hg =>
    ⟨hfew.trans_lt hg.packSizes, fun s hs => hg.sizes_lt hs⟩).bind_eq
      (fun h => hres.sized_iff.mpr ⟨h.covers, h.sizes⟩) fun hsized => ?_
  refine (FileSpan.ofEntries_decides hsized.covers a.entries).bind
    (fun h => h.files.trans (length_substreams hres hsized).symm) fun spans hfiles hplaced => ?_
  obtain ⟨hcovers, hsizes⟩ := hres.sized_iff.mp hsized
  refine Decides.pure ?_ ⟨graphs, spans, ?_⟩
  · exact ⟨hcrcs, hgraphs, hregion, hpack.mp hcounts, hcovers, hsizes,
      hfiles.trans (length_substreams hres hsized)⟩
  · exact ⟨hres, hregion, hcounts, hsized, hfiles, hplaced, rfl, rfl, rfl, rfl, rfl, rfl⟩

/-- **Accepted headers.** A header in memory is mapped just when its parts agree, where all sums are
those of numbers and not of words; every other one is refused, and for a fault that it has. -/
theorem derive_ok_iff_consistent (a : Archive) (h : a.InMemory) :
    ((∃ m, derive a = .ok m) ↔ a.Consistent) ∧
      (¬a.Consistent → ∃ e, derive a = .error e ∧ Genuine e) :=
  ⟨(derive_decides a).exists_ok_iff h, (derive_decides a).refuses h⟩

/-- A folder that reads two pack streams, and one without substreams before it. -/
theorem derive_ok_iff_consistent_two_folders :
    let builder : Substreams.Builder := { counts := [0, 2], sizes := [5, 6] }
    let folder : Folder :=
      { coders := [{ methodId := [3], inputs := 2 }], packedStreams := [1, 0], unpackSizes := [11] }
    ∃ s : Substreams, builder.freeze = .ok s ∧
      let a : Archive :=
        { packPosition := 32, packSizes := [4, 0, 7]
          folders := [{ coders := [{ methodId := [0] }] }, folder]
          substreams := some s
          entries := [{ name := "a" }, { name := "b", kind := .directory }, { name := "c" }] }
      a.InMemory ∧ a.Consistent := by
  intro builder folder
  refine ⟨{ counts := [0, 2], sizes := [5, 6], crcs := [none, none] }, rfl, ?_⟩
  intro a
  have hmemory : a.InMemory := by
    refine ⟨by decide, ?_⟩
    rintro _ ⟨⟩
    exact .inr ⟨builder, rfl⟩
  exact ⟨hmemory, (derive_ok_iff_consistent a hmemory).1.mp ⟨_, rfl⟩⟩

end StreamMap

end SolidArchive
