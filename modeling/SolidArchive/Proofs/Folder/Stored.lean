import SolidArchive.Proofs.Folder.Meaning

/-!
# Folders of one pack stream and of one coder

A folder that reads a single pack stream, which is not checked, comes to what its graph makes of a
range of the source (`StreamMap.MapsFolder.decodeFolder_unchecked`). The only coder of a folder is
fed by no other, so such a folder comes to what this coder makes of its inputs
(`StreamMap.MapsFolder.meaning_sole`). If the coder copies, that is all: the folder is stored, and
its output is the range (`StreamMap.MapsFolder.decodeFolder_stored`).
-/

namespace SolidArchive

variable {σ : Type}

/-! ### One coder -/

namespace Folder

variable {f : Folder} {c : Coder}

/-- A coder that is alone cannot be fed, since it would feed itself. -/
theorem IsCoderGraph.bindPairs_eq_nil (h : f.IsCoderGraph) (hcoders : f.coders = [c]) :
    f.bindPairs = [] := by
  refine List.eq_nil_iff_forall_not_mem.mpr fun pair hpair => ?_
  obtain ⟨hin, hout⟩ := h.bindsOnce.inRange pair hpair
  obtain ⟨feeder, hfeeder⟩ := exists_hasOutput hout
  obtain ⟨coder, hcoder⟩ := exists_hasInput hin
  have hfeeds : f.Feeds feeder coder := ⟨pair, hpair, hfeeder, hcoder⟩
  have hlength : f.coders.length = 1 := congrArg List.length hcoders
  have hsame : feeder = coder := by
    have hlt := hfeeds.feeder_lt
    have hlt' := hfeeds.coder_lt
    omega
  exact h.acyclic coder (.single (hsame ▸ hfeeds))

/-- It has the one output that is the result. -/
theorem IsCoderGraph.totalOutputs_eq_one (h : f.IsCoderGraph) (hcoders : f.coders = [c]) :
    f.totalOutputs = 1 := by
  have hunbound : ∀ output, f.UnboundOutput output ↔ output < f.totalOutputs := by
    intro output
    rw [UnboundOutput, boundOutputs, h.bindPairs_eq_nil hcoders]
    exact and_iff_left List.not_mem_nil
  obtain ⟨output, hout, hunique⟩ := h.result
  rw [hunbound] at hout
  -- were there two, both would be the result
  by_contra hmany
  have hzero := hunique 0 ((hunbound 0).mpr (by omega))
  have hone := hunique 1 ((hunbound 1).mpr (by omega))
  omega

end Folder

namespace FolderJob

variable {job : FolderJob} {decode : Coder → List Bytes → Option Nat → Except DecoderFault Bytes}
  {packed inputs : List Bytes} {index output : Nat} {c : Coder} {bytes : Bytes}

/-- What an output comes to where the inputs of its coder come to something. -/
theorem meaning_eq_ok_iff (hf : job.folder.IsCoderGraph) (howns : Owns job.folder index c output)
    (hsingle : c.outputs = 1)
    (hinputs : (List.range c.inputs.toNat).mapM (fun i => job.inputMeaning packed
      (job.meaning decode packed) (runStart job.folder.inputCounts index + i)) = .ok inputs) :
    job.meaning decode packed output = .ok bytes ↔
      decode c inputs (job.knownSize output) = .ok bytes ∧
        ∀ size ∈ job.knownSize output, bytes.length = size := by
  rw [meaning_of_inputs hf howns hsingle hinputs]
  cases decode c inputs (job.knownSize output) with
  | error fault => exact ⟨fun h => (nomatch h), fun h => (nomatch h.1)⟩
  | ok produced =>
    -- what is produced is the output, unless it has the wrong size
    rw [Except.ok.injEq]
    dsimp only [Except.mapError, bind, Except.bind]
    cases job.knownSize output with
    | none => exact ⟨fun h => ⟨Except.ok.inj h, nofun⟩, fun h => congrArg _ h.1⟩
    | some size =>
      dsimp only
      split
      · next hne =>
        refine ⟨fun h => (nomatch h), ?_⟩
        rintro ⟨rfl, hsize⟩
        exact absurd (hsize size rfl) hne
      · next heq =>
        constructor
        · intro h
          obtain rfl := Except.ok.inj h
          refine ⟨rfl, ?_⟩
          rintro _ ⟨⟩
          exact not_not.mp heq
        · exact fun h => congrArg _ h.1

end FolderJob

/-- To copy is to give the one input. -/
theorem Decoder.runBuiltin_copy_eq_ok_iff {c : Coder}
    (hcopy : Codec.method c.methodId = .ok .copy) {inputs : List Bytes} {expected : Option Nat}
    {output : Bytes} : runBuiltin c inputs expected = .ok output ↔ inputs = [output] := by
  unfold runBuiltin Codec.decode
  rw [hcopy]
  dsimp only
  split
  · next input =>
    refine ⟨fun h => congrArg (fun input => [input]) (Except.ok.inj h), fun h => ?_⟩
    rw [List.singleton_inj.mp h]
    rfl
  · next hmany =>
    exact ⟨fun h => (nomatch h), fun h => absurd h (hmany output)⟩

theorem readRange_eq_ok_iff {bytes output : Bytes} {offset length : Nat} :
    readRange bytes offset length = .ok output ↔
      offset + length ≤ bytes.length ∧ output = (bytes.drop offset).take length := by
  unfold readRange
  split
  · next hshort =>
    exact ⟨fun h => (nomatch h), fun h => absurd h.1 (Nat.not_le.mpr (pastEnd_iff_lt.mp hshort))⟩
  · next hlong =>
    have hle : offset + length ≤ bytes.length := Nat.not_lt.mp (pastEnd_iff_lt.not.mp hlong)
    rw [and_iff_right hle, Except.ok.injEq, eq_comm]

namespace StreamMap

variable {a : Archive} {m : StreamMap} {k : Nat} {f : Folder} {g : FolderGraph} {span : FolderSpan}
  {c : Coder} {decode : Coder → List Bytes → Option Nat → Except DecoderFault Bytes}
  {packed : List Bytes}

/-- **A folder of one coder** comes to what the coder makes of the pack streams, if that has the
length in the map. -/
theorem MapsFolder.meaning_sole (h : MapsFolder a m k f g span) (hcoders : f.coders = [c])
    {output : Bytes} :
    h.job.meaning decode packed g.finalOutput = .ok output ↔
      decode c ((List.range c.inputs.toNat).map fun input =>
        packed.getD (g.packedInputs.idxOf input) []) (some span.unpackLength) = .ok output ∧
      output.length = span.unpackLength := by
  have hf : f.IsCoderGraph := h.isCoderGraph
  have hnone := hf.bindPairs_eq_nil hcoders
  have houtputs : c.outputs.toNat = 1 := by
    have htotal := hf.totalOutputs_eq_one hcoders
    rwa [Folder.totalOutputs, hcoders, List.foldl_cons, List.foldl_nil, Nat.zero_add] at htotal
  -- the final output is the only output of the only coder
  have hout := ((h.describes.finalOutput _).mpr rfl).1
  obtain ⟨index, c', howns⟩ := FolderJob.exists_owns hout
  have hcoder := howns.coder
  rw [hcoders] at hcoder
  obtain ⟨rfl, rfl⟩ : index = 0 ∧ c' = c := by
    cases index with
    | zero => exact ⟨rfl, (Option.some.inj hcoder).symm⟩
    | succ index => cases hcoder
  have hinputs : (List.range c'.inputs.toNat).mapM (fun i => h.job.inputMeaning packed
      (h.job.meaning decode packed) (runStart f.inputCounts 0 + i)) =
        .ok ((List.range c'.inputs.toNat).map fun input =>
          packed.getD (g.packedInputs.idxOf input) []) := by
    refine mapM_eq_ok_iff.mpr (List.forall₂_map_right_iff.mpr (List.forall₂_same.mpr ?_))
    intro input _
    have hbound : f.boundOutput? input = none := by
      rw [Folder.boundOutput?, hnone]
      rfl
    rw [runStart_zero, Nat.zero_add]
    unfold FolderJob.inputMeaning
    rw [show h.job.folder.boundOutput? input = none from hbound]
    rfl
  have hknown : h.job.knownSize g.finalOutput = some span.unpackLength := h.knownSize_finalOutput
  rw [FolderJob.meaning_eq_ok_iff hf howns (UInt32.toNat_inj.mp houtputs) hinputs, hknown]
  simp only [Option.mem_some_iff, forall_eq']

/-! ### One pack stream -/

/-- **A folder of one pack stream** that is not checked comes to what its graph makes of the range
that the map gives it. -/
theorem MapsFolder.decodeFolder_unchecked (h : MapsFolder a m k f g span) (hm : derive a = .ok m)
    (hcount : span.packStreamCount = 1) {config : Config}
    (hunchecked : config.verifyPackCrcs = false ∨ a.packCrc span.firstPackStream = none)
    (bytes : Bytes) (s : σ) :
    (decodeFolder a m (.ofBytes bytes) (.pure decode) config k).run s =
      (if config.maxFolderBytes < span.unpackLength then
        .error (.decode { folder := k, fault := .aboveLimit span.unpackLength })
      else
        (readRange bytes span.packOffset span.packedLength).mapError
            (FolderJob.sourceFault k span.firstPackStream) >>= fun input =>
        h.job.meaning decode [input] g.finalOutput, s) := by
  obtain ⟨-, graphs, spans, hmade⟩ := (derive_decides a).holds hm
  have hrun := hmade.isRun h.span_eq
  -- the only pack stream of the folder is its whole range
  have hoffset : span.packOffset =
      a.packPosition.toNat + runStart (numbers a.packSizes) span.firstPackStream := by
    rw [hrun.offset, hrun.first]
  obtain ⟨hlt, -⟩ := h.packStream span.firstPackStream le_rfl (by omega)
  have hsize := getElem?_numbers_of (List.getElem?_eq_getElem hlt)
  have hlength : span.packedLength = (numbers a.packSizes).getD span.firstPackStream 0 := by
    rw [hrun.length, hcount, ← hrun.first, sliceSum_succ hsize, sliceSum_zero, Nat.add_zero,
      List.getD_eq_getElem?_getD, hsize, Option.getD_some]
  have hread : FolderJob.packStreamMeaning a (readRange bytes) config.verifyPackCrcs k
      span.firstPackStream = (readRange bytes span.packOffset span.packedLength).mapError
        (FolderJob.sourceFault k span.firstPackStream) := by
    unfold FolderJob.packStreamMeaning
    rw [← hoffset, ← hlength]
    cases readRange bytes span.packOffset span.packedLength with
    | error fault => rfl
    | ok input =>
      refine if_neg ?_
      rintro ⟨hverify, crc, hcrc, -⟩
      -- nobody looks, or there is nothing to compare with
      rcases hunchecked with hoff | hnone
      · exact nomatch hoff.symm.trans hverify
      · exact nomatch hnone.symm.trans hcrc
  obtain ⟨g', span', hresolved, hspan, hmeaning⟩ := decodeFolder_eq_meaning hm h.folder_eq
  obtain rfl : g' = g := Except.ok.inj (hresolved.symm.trans h.resolved)
  obtain rfl : span' = span := Option.some.inj (hspan.symm.trans h.span_eq)
  rw [Source.ofBytes, (hmeaning _ _ decode config).1 σ s, hcount, List.range'_one,
    List.mapM_cons, hread]
  cases readRange bytes span'.packOffset span'.packedLength with
  | error fault => rfl
  | ok input => rfl

/-! ### Stored folders -/

/-- The only coder of a folder reads all its pack streams. -/
theorem MapsFolder.packStreamCount_sole (h : MapsFolder a m k f g span)
    (hcoders : f.coders = [c]) : span.packStreamCount = c.inputs.toNat := by
  have hlength := h.describes.packedInputs.length_add h.isCoderGraph.bindsOnce
  rw [h.isCoderGraph.bindPairs_eq_nil hcoders, List.length_nil, Nat.add_zero, Folder.totalInputs,
    hcoders, List.foldl_cons, List.foldl_nil, Nat.zero_add] at hlength
  exact h.count.trans hlength

/-- A coder that copies gives the pack stream that it reads, and has to read one. -/
theorem MapsFolder.meaning_copy (h : MapsFolder a m k f g span) (hcoders : f.coders = [c])
    (hcopy : Codec.method c.methodId = .ok .copy) {output : Bytes} :
    h.job.meaning Decoder.runBuiltin packed g.finalOutput = .ok output ↔
      (c.inputs = 1 ∧ output = packed.getD 0 []) ∧ output.length = span.unpackLength := by
  rw [h.meaning_sole hcoders, Decoder.runBuiltin_copy_eq_ok_iff hcopy]
  refine and_congr_left fun _ => ?_
  by_cases hone : c.inputs.toNat = 1
  · -- the one input of the coder is the one packed input
    have hlength : g.packedInputs.length = 1 := by
      rw [← h.count, h.packStreamCount_sole hcoders, hone]
    obtain ⟨input, hinput⟩ := List.length_eq_one_iff.mp hlength
    have hunbound :=
      (h.describes.packedInputs.mem_iff input).mp (hinput ▸ List.mem_singleton_self _)
    have htotal : f.totalInputs = 1 := by
      rw [Folder.totalInputs, hcoders, List.foldl_cons, List.foldl_nil, Nat.zero_add, hone]
    obtain rfl : input = 0 := by
      have hlt := hunbound.1
      omega
    rw [hone, hinput, and_iff_right (UInt32.toNat_inj.mp hone)]
    exact List.singleton_inj.trans eq_comm
  · constructor
    · intro hinputs
      have hlength := congrArg List.length hinputs
      rw [List.length_map, List.length_range] at hlength
      exact absurd hlength hone
    · rintro ⟨hinputs, -⟩
      exact absurd (congrArg UInt32.toNat hinputs) hone

/-- **A stored folder**, whose coder copies and whose pack stream is not checked, decodes if it is
not too long and its one pack stream is there and has the right length, and then to this stream. -/
theorem MapsFolder.decodeFolder_stored (h : MapsFolder a m k f g span) (hm : derive a = .ok m)
    (hcoders : f.coders = [c]) (hcopy : Codec.method c.methodId = .ok .copy) {config : Config}
    (hunchecked : config.verifyPackCrcs = false ∨ a.packCrc span.firstPackStream = none)
    {bytes output : Bytes} (s : σ) :
    ((decodeFolder a m (.ofBytes bytes) .builtin config k).run s).1 = .ok output ↔
      (span.unpackLength ≤ config.maxFolderBytes ∧ c.inputs = 1 ∧
        span.packOffset + span.packedLength ≤ bytes.length ∧
        span.packedLength = span.unpackLength) ∧
      output = (bytes.drop span.packOffset).take span.packedLength := by
  by_cases hone : c.inputs = 1
  · have hcount : span.packStreamCount = 1 := by
      rw [h.packStreamCount_sole hcoders, hone]
      rfl
    rw [Decoder.builtin, h.decodeFolder_unchecked hm hcount hunchecked]
    rcases Nat.lt_or_ge config.maxFolderBytes span.unpackLength with hlimit | hlimit
    · rw [if_pos hlimit]
      exact ⟨fun h => (nomatch h), fun h => absurd h.1.1 (Nat.not_le.mpr hlimit)⟩
    rw [if_neg (Nat.not_lt.mpr hlimit)]
    cases hread : readRange bytes span.packOffset span.packedLength with
    | error fault =>
      refine ⟨fun h => (nomatch h), fun h => ?_⟩
      exact nomatch hread.symm.trans (readRange_eq_ok_iff.mpr ⟨h.1.2.2.1, rfl⟩)
    | ok input =>
      obtain ⟨hin, rfl⟩ := readRange_eq_ok_iff.mp hread
      refine (h.meaning_copy hcoders hcopy).trans ?_
      rw [and_iff_right hone, List.getD_cons_zero]
      constructor
      · rintro ⟨rfl, hlength⟩
        rw [List.length_take, List.length_drop] at hlength
        exact ⟨⟨hlimit, hone, hin, by omega⟩, rfl⟩
      · rintro ⟨⟨-, -, -, hlength⟩, rfl⟩
        rw [List.length_take, List.length_drop]
        exact ⟨rfl, by omega⟩
  · -- whatever is read, the coder does not take it
    refine ⟨fun hok => ?_, fun h => absurd h.1.2.1 hone⟩
    obtain ⟨g', span', hresolved, hspan, hmeaning⟩ := decodeFolder_eq_meaning hm h.folder_eq
    obtain rfl : g' = g := Except.ok.inj (hresolved.symm.trans h.resolved)
    obtain rfl : span' = span := Option.some.inj (hspan.symm.trans h.span_eq)
    rw [Source.ofBytes, Decoder.builtin, (hmeaning _ _ Decoder.runBuiltin config).1 σ s] at hok
    split at hok
    · cases hok
    · cases hpacked : (List.range' span'.firstPackStream span'.packStreamCount).mapM
        (FolderJob.packStreamMeaning a (readRange bytes) config.verifyPackCrcs k) with
      | error fault =>
        rw [hpacked] at hok
        cases hok
      | ok packed =>
        rw [hpacked] at hok
        exact absurd ((h.meaning_copy hcoders hcopy).mp hok).1.1 hone

end StreamMap

end SolidArchive
