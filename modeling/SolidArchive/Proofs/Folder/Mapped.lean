import SolidArchive.Proofs.Folder.Evaluation
import SolidArchive.Proofs.StreamMap.Tiling

/-!
# Folders of a mapped header

To decode a folder its graph is resolved once more, and its pack streams and the length of its
output are taken from the map. Both were made from the same header, and here is what follows from
that (`StreamMap.MapsFolder`): the graph is the one that the map was made with, so as many pack
streams are read as the graph has packed inputs, each is in the tables, and where the folder
declares sizes of its own, the one of its final output is the length in the map.

That leaves of `decodeFolderBy` the check of the limit, the reading and the evaluation
(`StreamMap.MapsFolder.decodeFolderBy_eq`).
-/

namespace SolidArchive

variable {σ : Type} {a : Archive} {graphs : List FolderGraph} {spans : List (Option FileSpan)}
  {m : StreamMap} {k : Nat} {f : Folder} {g : FolderGraph} {span : FolderSpan}

namespace StreamMap

/-- A folder of a header as the map has it. -/
structure MapsFolder (a : Archive) (m : StreamMap) (k : Nat) (f : Folder) (g : FolderGraph)
    (span : FolderSpan) : Prop where
  folder_eq : a.folders[k]? = some f
  span_eq : m.folders[k]? = some span
  resolved : FolderGraph.resolve f = .ok g
  count : span.packStreamCount = g.packedInputs.length
  packStream : ∀ stream, span.firstPackStream ≤ stream →
    stream < span.firstPackStream + span.packStreamCount →
      stream < a.packSizes.length ∧ m.packOffsets[stream]? =
        some (a.packPosition.toNat + runStart (numbers a.packSizes) stream)
  declared : f.unpackSizes ≠ [] →
    (numbers f.unpackSizes)[g.finalOutput]? = some span.unpackLength

theorem MapsFolder.isCoderGraph (h : MapsFolder a m k f g span) : f.IsCoderGraph :=
  ((FolderGraph.resolve_decides f).holds h.resolved).1

theorem MapsFolder.describes (h : MapsFolder a m k f g span) : g.Describes f :=
  ((FolderGraph.resolve_decides f).holds h.resolved).2

/-- A folder that declares sizes declares the length of its output, whatever its substreams are. -/
theorem MadeOf.declared_eq (h : MadeOf a graphs spans m)
    (hfolder : (a.folders.zip graphs)[k]? = some (f, g)) (hsome : f.unpackSizes ≠ []) :
    f.declaredResult g = some (FolderContent.contentOf a.substreams k f g).1.length := by
  obtain ⟨hf, hg⟩ := h.resolved.describes_of_getElem? hfolder
  obtain ⟨size, hsize⟩ := Option.ne_none_iff_exists'.mp
    (mt (FolderContent.declaredResult_eq_none_iff hf hg).mp hsome)
  have hone := h.sized.oneSize hfolder
  rw [hsize]
  cases hs : a.substreams with
  | none =>
    rw [FolderContent.contentOf, hsize]
    rfl
  | some s =>
    rw [hs] at hone
    simp only [FolderContent.contentOf, hsize]
    split
    · -- without substreams the declared size is all there is
      rfl
    · -- and with some it is their sum
      next hcount => rw [(hone hcount).2 size hsize]

theorem MadeOf.mapsFolder (h : MadeOf a graphs spans m) (hk : a.folders[k]? = some f) :
    ∃ g span, MapsFolder a m k f g span := by
  have hlt : k < m.folders.length := by
    rw [h.length_folders]
    exact (List.getElem?_eq_some_iff.mp hk).1
  have hspan := List.getElem?_eq_getElem hlt
  have hrun := h.isRun hspan
  obtain ⟨f', g, hfolder, heq⟩ := h.getElem?_folders hspan
  obtain ⟨hf', hg⟩ := List.getElem?_zip_eq_some.mp hfolder
  obtain rfl : f' = f := by
    rw [hk] at hf'
    exact (Option.some.inj hf').symm
  refine ⟨g, m.folders[k], hk, hspan, ?_, ?_, ?_, ?_⟩
  · exact (List.forall₂_iff_zip.mp h.resolved).2 (List.mem_of_getElem? hfolder)
  · rw [heq]
    rfl
  · -- the folders' runs of pack streams are all there are
    intro stream hfirst hlast
    have hstream : stream < a.packSizes.length := by
      rw [← h.packCounts]
      exact (hrun.inRun_iff.mpr ⟨hfirst, hlast⟩).lt_sum
    exact ⟨hstream, h.tilesPackRegion.packOffset stream hstream⟩
  · intro hsome
    have hdeclared := h.declared_eq hfolder hsome
    rw [Folder.declaredResult] at hdeclared
    rw [getElem?_numbers, hdeclared, heq]
    rfl

/-- Every folder of a mapped header is one that the map has. -/
theorem derive_mapsFolder (hm : derive a = .ok m) (hk : a.folders[k]? = some f) :
    ∃ g span, MapsFolder a m k f g span := by
  obtain ⟨-, graphs, spans, hmade⟩ := (derive_decides a).holds hm
  exact hmade.mapsFolder hk

/-- The job of decoding a folder. -/
def MapsFolder.job (_ : MapsFolder a m k f g span) : FolderJob where
  index := k
  folder := f
  graph := g
  unpackLength := span.unpackLength

/-- The size of the final output is always known, and it is the length in the map. -/
theorem MapsFolder.knownSize_finalOutput (h : MapsFolder a m k f g span) :
    h.job.knownSize g.finalOutput = some span.unpackLength := by
  unfold FolderJob.knownSize
  split
  · next hsome => exact h.declared hsome
  · exact if_pos rfl

/-- Nothing is cut off the final output, and it is never too short. -/
theorem MapsFolder.run_ensures (h : MapsFolder a m k f g span) {packed : List Bytes}
    {runCoder : FolderJob.CoderRun σ} {inv : List (Option Bytes) → σ → Prop}
    {bad : Nat → FolderFault → σ → Prop} {s : σ}
    (hinv : FolderJob.Invariant h.job packed runCoder inv bad)
    (hstart : inv (List.replicate f.totalOutputs none) s) :
    Ensures (h.job.run runCoder packed) s
      (fun bytes s' => bytes.length = span.unpackLength ∧
        ∃ slots, inv slots s' ∧ slots[g.finalOutput]? = some (some bytes))
      (bad g.finalOutput) := by
  refine (hinv.run h.isCoderGraph h.describes hstart).mono ?_ ?_
  · rintro bytes s' ⟨slots, output, hslots, hslot, hsize, rfl⟩
    have hlength : output.length = span.unpackLength := hsize _ h.knownSize_finalOutput
    have htake : output.take h.job.unpackLength = output := List.take_of_length_le hlength.le
    rw [htake]
    exact ⟨hlength, slots, hslots, hslot⟩
  · rintro fault s' (hbad | ⟨slots, output, -, -, hsize, hshort⟩)
    · exact hbad
    · -- the output has the length in the map, so it is not too short
      exact absurd (hsize _ h.knownSize_finalOutput) hshort.ne

/-- What decoding a folder of a mapped header comes down to. -/
theorem MapsFolder.decodeFolderBy_eq (h : MapsFolder a m k f g span) (source : Source σ)
    (runCoder : FolderJob.CoderRun σ) (config : Config) :
    decodeFolderBy a m source runCoder config k =
      if config.maxFolderBytes < span.unpackLength then
        FolderJob.fail k (.aboveLimit span.unpackLength)
      else
        FolderJob.readPackStreams a m source config.verifyPackCrcs k
          span.packStreamCount span.firstPackStream >>= h.job.run runCoder := by
  unfold decodeFolderBy
  rw [h.folder_eq]
  simp only [FolderJob.lift_lookup h.span_eq, h.resolved, pure_bind]
  split
  · rfl
  · rfl

end StreamMap

namespace FolderJob

/-! ### Reading the pack streams -/

/-- What a failure of the source comes to. -/
def sourceFault (folder stream : Nat) : SourceFault → FolderFault
  | .failure error => .decode { folder, fault := .packStream stream error }
  | .foreign thrown => .foreign thrown

/-- Why a pack stream is not there. -/
inductive ReadFault (a : Archive) (m : StreamMap) (source : Source σ) (folder stream : Nat) :
    FolderFault → Prop where
  | unread {offset length : Nat} {s : σ} {fault : SourceFault}
    (hread : (source.read offset length s).1 = .error fault) :
    ReadFault a m source folder stream (sourceFault folder stream fault)
  | crc : ReadFault a m source folder stream
      (.decode { folder, fault := .packStreamCrc stream })
  | outside (h : a.packSizes[stream]? = none ∨ m.packOffsets[stream]? = none) :
    ReadFault a m source folder stream (.decode { folder, fault := .breach .index })

variable {source : Source σ} {verify : Bool} {folder count stream : Nat} {inv : σ → Prop} {s : σ}

theorem readPackStream_ensures
    (hsource : ∀ offset length s, inv s → inv (source.read offset length s).2) (hinv : inv s) :
    Ensures (readPackStream a m source verify folder stream) s (fun _ s' => inv s')
      (fun fault s' => inv s' ∧ ReadFault a m source folder stream fault) := by
  unfold readPackStream
  -- the look-ups come first, then the source is asked once
  cases hsize : a.packSizes[stream]? with
  | none =>
    rw [lift_lookup_none hsize]
    exact Ensures.throw ⟨hinv, .outside (.inl hsize)⟩
  | some size =>
  cases hoffset : m.packOffsets[stream]? with
  | none =>
    rw [lift_lookup hsize, lift_lookup_none hoffset]
    exact Ensures.throw ⟨hinv, .outside (.inr hoffset)⟩
  | some offset =>
  rw [lift_lookup hsize, lift_lookup hoffset]
  simp only [pure_bind]
  have hread : Ensures (source.read offset size.toNat : FolderM σ (Except SourceFault Bytes)) s
      (fun answer s' => inv s' ∧ (source.read offset size.toNat s).1 = answer)
      (fun fault s' => inv s' ∧ ReadFault a m source folder stream fault) :=
    ⟨hsource offset size.toNat s hinv, rfl⟩
  refine hread.bind fun answer s' hanswer => ?_
  obtain ⟨hinv', hanswer⟩ := hanswer
  match answer with
  | .error (.failure error) => exact Ensures.throw ⟨hinv', .unread hanswer⟩
  | .error (.foreign thrown) => exact Ensures.throw ⟨hinv', .unread hanswer⟩
  | .ok bytes =>
    dsimp only
    split
    · split
      · exact Ensures.throw ⟨hinv', .crc⟩
      · exact Ensures.pure hinv'
    · exact Ensures.pure hinv'

/-- As many streams are read as are asked for, unless one of them is not there. -/
theorem readPackStreams_ensures
    (hsource : ∀ offset length s, inv s → inv (source.read offset length s).2) (hinv : inv s) :
    Ensures (readPackStreams a m source verify folder count stream) s
      (fun packed s' => inv s' ∧ packed.length = count)
      (fun fault s' => inv s' ∧ ∃ i, stream ≤ i ∧ i < stream + count ∧
        ReadFault a m source folder i fault) := by
  -- the invariant holds after every stream, also after the one that fails
  induction count generalizing stream s with
  | zero => exact Ensures.pure ⟨hinv, rfl⟩
  | succ count ih =>
    unfold readPackStreams
    refine ((readPackStream_ensures hsource hinv).mono (fun _ _ h => h) ?_).bind ?_
    · rintro fault s' ⟨hinv', hfault⟩
      exact ⟨hinv', stream, le_rfl, by omega, hfault⟩
    intro bytes s' hinv'
    refine ((ih hinv').mono (fun _ _ h => h) ?_).bind ?_
    · rintro fault s'' ⟨hinv'', i, hfirst, hlast, hfault⟩
      exact ⟨hinv'', i, by omega, by omega, hfault⟩
    rintro rest s'' ⟨hinv'', hlength⟩
    exact Ensures.pure ⟨hinv'', congrArg Nat.succ hlength⟩

end FolderJob

end SolidArchive
