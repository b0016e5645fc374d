import SolidArchive.Proofs.Folder.Mapped

/-!
# Folders do not meet in the pack region

The pack streams of a folder lie in its range, and no byte of the region is in the ranges of two
folders (`StreamMap.MadeOf.outside_of_packStream`). So a change inside one range changes nothing
that is read for another folder, and what is not read for a folder has no part in decoding it
(`StreamMap.MapsFolder.decodeFolder_congr`).

This is so for streams of no bytes and for streams that reach beyond the end of the source as well:
to be refused such a read it is enough to know how long the source is.
-/

namespace SolidArchive

variable {σ : Type}

/-! ### Byte strings that differ in a range -/

/-- Two byte strings of one length that differ in nothing but a range. -/
structure SameOutside (offset length : Nat) (bytes bytes' : Bytes) : Prop where
  length_eq : bytes.length = bytes'.length
  getElem?_eq : ∀ i, ¬(offset ≤ i ∧ i < offset + length) → bytes[i]? = bytes'[i]?

namespace SameOutside

variable {offset length start size : Nat} {bytes bytes' : Bytes}

/-- What is cut out outside of the range is the same. -/
theorem slice_eq (h : SameOutside offset length bytes bytes')
    (hout : ∀ i, start ≤ i → i < start + size → ¬(offset ≤ i ∧ i < offset + length)) :
    (bytes.drop start).take size = (bytes'.drop start).take size := by
  ext1 i
  rw [List.getElem?_take, List.getElem?_take, List.getElem?_drop, List.getElem?_drop]
  split
  · next hi => exact h.getElem?_eq _ (hout _ (Nat.le_add_right _ _) (Nat.add_lt_add_left hi _))
  · rfl

/-- What is read outside of the range is the same, and so is a read that is refused. -/
theorem readRange_eq (h : SameOutside offset length bytes bytes')
    (hout : ∀ i, start ≤ i → i < start + size → ¬(offset ≤ i ∧ i < offset + length)) :
    readRange bytes start size = readRange bytes' start size := by
  unfold readRange
  rw [h.slice_eq hout, h.length_eq]

/-- A wider range may be named. -/
theorem widen (h : SameOutside offset length bytes bytes') (hfirst : start ≤ offset)
    (hlast : offset + length ≤ start + size) : SameOutside start size bytes bytes' where
  length_eq := h.length_eq
  getElem?_eq i hout := h.getElem?_eq i fun hin => hout (by omega)

/-- Byte strings that are the same in the range, too, are the same. -/
theorem eq_of_slice_eq (h : SameOutside offset length bytes bytes')
    (hsame : (bytes.drop offset).take length = (bytes'.drop offset).take length) :
    bytes = bytes' := by
  ext1 i
  by_cases hin : offset ≤ i ∧ i < offset + length
  · have hi := congrArg (·[i - offset]?) hsame
    have hlt : i - offset < length := by omega
    simp only [List.getElem?_take, List.getElem?_drop, if_pos hlt] at hi
    rwa [Nat.add_sub_cancel' hin.1] at hi
  · exact h.getElem?_eq i hin

/-- What is cut out around the range is the same before and after it. -/
theorem exists_slice_eq (h : SameOutside offset length bytes bytes') (hfirst : start ≤ offset)
    (hlast : offset + length ≤ start + size) : ∃ before after,
      (bytes.drop start).take size = before ++ (bytes.drop offset).take length ++ after ∧
      (bytes'.drop start).take size = before ++ (bytes'.drop offset).take length ++ after := by
  -- the slice is what is before the changed part, the part, and what is behind it
  have hsplit : ∀ bytes : Bytes, (bytes.drop start).take size =
      (bytes.drop start).take (offset - start) ++ (bytes.drop offset).take length ++
        (bytes.drop (offset + length)).take (start + size - (offset + length)) := by
    intro bytes
    have hsize : size = offset - start + length + (start + size - (offset + length)) := by omega
    conv_lhs => rw [hsize]
    rw [List.take_add, List.take_add, List.drop_drop, List.drop_drop, Nat.add_sub_cancel' hfirst,
      ← Nat.add_assoc, Nat.add_sub_cancel' hfirst]
  have hbefore : (bytes.drop start).take (offset - start) =
      (bytes'.drop start).take (offset - start) := h.slice_eq fun i _ hi => by omega
  have hafter : (bytes.drop (offset + length)).take (start + size - (offset + length)) =
      (bytes'.drop (offset + length)).take (start + size - (offset + length)) :=
    h.slice_eq fun i hi _ => by omega
  refine ⟨_, _, hsplit bytes, ?_⟩
  rw [hsplit bytes', hbefore, hafter]

end SameOutside

/-! ### Ranges of folders -/

namespace StreamMap

variable {a : Archive} {graphs : List FolderGraph} {spans : List (Option FileSpan)} {m : StreamMap}
  {k other stream i : Nat} {span span' : FolderSpan} {size : UInt64}

/-- **No byte of a folder's pack streams** is in the range of another folder. -/
theorem MadeOf.outside_of_packStream (h : MadeOf a graphs spans m) (hk : m.folders[k]? = some span)
    (hother : m.folders[other]? = some span') (hne : other ≠ k)
    (hfirst : span'.firstPackStream ≤ stream)
    (hlast : stream < span'.firstPackStream + span'.packStreamCount)
    (hsize : a.packSizes[stream]? = some size)
    (hstart : a.packPosition.toNat + runStart (numbers a.packSizes) stream ≤ i)
    (hend : i < a.packPosition.toNat + runStart (numbers a.packSizes) stream + size.toNat) :
    ¬(span.packOffset ≤ i ∧ i < span.packOffset + span.packedLength) := by
  rintro ⟨hoffset, hlength⟩
  have hrun := h.isRun hk
  rw [hrun.offset] at hoffset
  rw [hrun.packEnd_eq] at hlength
  have hnumber : (numbers a.packSizes)[stream]? = some size.toNat := getElem?_numbers_of hsize
  -- where the byte is in the region, only this pack stream is
  have hin : InRun (numbers a.packSizes) stream (i - a.packPosition.toNat) := by
    refine ⟨(List.getElem?_eq_some_iff.mp hnumber).1, ?_, ?_⟩
    · omega
    · rw [runStart_succ hnumber]
      omega
  have hkle : runStart (PackRange.packCounts graphs) k ≤ stream :=
    hin.start_le_iff.mp (by omega)
  have hklt : ¬runStart (PackRange.packCounts graphs) (k + 1) ≤ stream :=
    mt hin.start_le_iff.mpr (by omega)
  -- so the pack stream is one of both folders
  have hmine : InRun (PackRange.packCounts graphs) k stream :=
    ⟨(List.getElem?_eq_some_iff.mp hrun.count).1, hkle, Nat.not_le.mp hklt⟩
  have htheirs := (h.isRun hother).inRun_iff.mpr ⟨hfirst, hlast⟩
  exact hne (htheirs.unique hmine)

end StreamMap

/-! ### Sources that are read alike -/

namespace FolderJob

variable {a a' : Archive} {m m' : StreamMap} {source source' : Source σ}

theorem readPackStream_congr {stream offset : Nat} {size : UInt64}
    (hsize : a.packSizes[stream]? = some size) (hoffset : m.packOffsets[stream]? = some offset)
    (hread : source.read offset size.toNat = source'.read offset size.toNat) (verify : Bool)
    (folder : Nat) :
    readPackStream a m source verify folder stream =
      readPackStream a m source' verify folder stream := by
  unfold readPackStream
  rw [lift_lookup hsize, lift_lookup hoffset, pure_bind, pure_bind, pure_bind, pure_bind, hread]

theorem readPackStreams_congr {verify : Bool} {folder count stream : Nat}
    (h : ∀ i, stream ≤ i → i < stream + count →
      readPackStream a m source verify folder i = readPackStream a' m' source' verify folder i) :
    readPackStreams a m source verify folder count stream =
      readPackStreams a' m' source' verify folder count stream := by
  induction count generalizing stream with
  | zero => rfl
  | succ count ih =>
    have hrest : readPackStreams a m source verify folder count (stream + 1) =
        readPackStreams a' m' source' verify folder count (stream + 1) :=
      ih fun i hfirst hlast => h i (by omega) (by omega)
    unfold readPackStreams
    rw [h stream le_rfl (by omega), hrest]

end FolderJob

namespace StreamMap

variable {a : Archive} {m : StreamMap} {k other : Nat} {f : Folder} {g : FolderGraph}
  {span span' : FolderSpan} {source source' : Source σ}

/-- **What is not read for a folder** has no part in decoding it. -/
theorem MapsFolder.decodeFolder_congr (h : MapsFolder a m k f g span)
    (hread : ∀ stream (size : UInt64), span.firstPackStream ≤ stream →
      stream < span.firstPackStream + span.packStreamCount → a.packSizes[stream]? = some size →
      let offset := a.packPosition.toNat + runStart (numbers a.packSizes) stream
      source.read offset size.toNat = source'.read offset size.toNat)
    (decoder : Decoder σ) (config : Config) :
    decodeFolder a m source decoder config k = decodeFolder a m source' decoder config k := by
  -- only the pack streams of the folder are read
  have hstreams : FolderJob.readPackStreams a m source config.verifyPackCrcs k
        span.packStreamCount span.firstPackStream =
      FolderJob.readPackStreams a m source' config.verifyPackCrcs k span.packStreamCount
        span.firstPackStream := by
    refine FolderJob.readPackStreams_congr fun stream hfirst hlast => ?_
    obtain ⟨hlt, hoffset⟩ := h.packStream stream hfirst hlast
    have hsize := List.getElem?_eq_getElem hlt
    exact FolderJob.readPackStream_congr hsize hoffset (hread stream _ hfirst hlast hsize) _ _
  unfold decodeFolder
  rw [h.decodeFolderBy_eq, h.decodeFolderBy_eq, hstreams]

/-- **A folder is decoded alike** from two byte strings that differ in the range of another. -/
theorem decodeFolder_sameOutside (hm : derive a = .ok m) (hk : m.folders[k]? = some span)
    (hne : other ≠ k) {bytes bytes' : Bytes}
    (hsame : SameOutside span.packOffset span.packedLength bytes bytes') (decoder : Decoder σ)
    (config : Config) :
    decodeFolder a m (.ofBytes bytes) decoder config other =
      decodeFolder a m (.ofBytes bytes') decoder config other := by
  cases hfolder : a.folders[other]? with
  | none =>
    -- there is no such folder
    unfold decodeFolder decodeFolderBy
    rw [hfolder]
  | some f =>
    obtain ⟨-, graphs, spans, hmade⟩ := (derive_decides a).holds hm
    obtain ⟨g, span', h⟩ := hmade.mapsFolder hfolder
    apply h.decodeFolder_congr
    intro stream size hfirst hlast hsize
    -- no byte of the pack stream is one of those that differ
    have hout := fun i =>
      hmade.outside_of_packStream hk h.span_eq hne hfirst hlast hsize (i := i)
    funext s
    exact congrArg (·, s) (hsame.readRange_eq hout)

end StreamMap

end SolidArchive
