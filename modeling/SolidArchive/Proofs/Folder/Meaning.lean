import SolidArchive.Proofs.Folder.Mapped

/-!
# What a folder means

When the coders and the source are functions, a folder has a meaning without slots, states or an
order of evaluation: an output is what its coder makes of its inputs, and an input is another output
or a pack stream. `FolderJob.meaning` is this recursion. It ends since the coders upstream of a
feeder are fewer, and `FolderJob.meaning_eq` is its equation.

Decoding the folder comes to the meaning of the final output (`StreamMap.decodeFolder_eq_meaning`).
A slot that is filled holds what its output means, so looking into it is the same as evaluating the
output once more. If the meaning is a failure, it is the one that is met first
(`FolderJob.FirstFailure`): of several inputs that fail the leftmost counts, and a coder whose
inputs are not all there does not run.
-/

namespace SolidArchive

open Relation

variable {σ : Type}

/-! ### Lists of results -/

section Results

variable {ε α β : Type} {g : α → Except ε β}

theorem mapM_congr {m : Type → Type} [Monad m] [LawfulMonad m] {g g' : α → m β} {l : List α}
    (h : ∀ a ∈ l, g a = g' a) : l.mapM g = l.mapM g' := by
  induction l with
  | nil => rfl
  | cons a l ih =>
    rw [List.forall_mem_cons] at h
    rw [List.mapM_cons, List.mapM_cons, h.1, ih h.2]

theorem mapM_eq_ok_iff {l : List α} {results : List β} :
    l.mapM g = .ok results ↔ List.Forall₂ (fun a b => g a = .ok b) l results := by
  induction l generalizing results with
  | nil =>
    rw [List.forall₂_nil_left_iff]
    exact ⟨fun h => (Except.ok.inj h).symm, fun h => h ▸ rfl⟩
  | cons a l ih =>
    rw [List.mapM_cons, List.forall₂_cons_left_iff]
    refine ⟨fun h => ?_, ?_⟩
    · -- a fault of the first or of the rest would be that of the whole
      cases ha : g a with
      | error fault =>
        rw [ha] at h
        cases h
      | ok b =>
        cases hl : l.mapM g with
        | error fault =>
          rw [ha, hl] at h
          cases h
        | ok rest =>
          rw [ha, hl] at h
          cases h
          exact ⟨b, rest, rfl, ih.mp hl, rfl⟩
    · rintro ⟨b, rest, hb, hrest, rfl⟩
      rw [hb, ih.mpr hrest]
      rfl

/-- The first failure is that of the whole list. -/
theorem mapM_append_cons_error {l l' : List α} {a : α} {results : List β} {fault : ε}
    (hl : l.mapM g = .ok results) (ha : g a = .error fault) :
    (l ++ a :: l').mapM g = .error fault := by
  rw [List.mapM_append, List.mapM_cons, hl, ha]
  rfl

end Results

namespace Folder

variable {f : Folder} {index output : Nat}

instance (f : Folder) (coder output : Nat) : Decidable (f.HasOutput coder output) :=
  inferInstanceAs (Decidable (_ ∧ _ ∧ _))

/-- The coder that has an output. -/
def owner? (f : Folder) (output : Nat) : Option Nat :=
  (List.range f.coders.length).find? fun coder => f.HasOutput coder output

theorem HasOutput.owner?_eq (h : f.HasOutput index output) : f.owner? output = some index := by
  have hsome : (f.owner? output).isSome := by
    rw [owner?, List.find?_isSome]
    exact ⟨index, List.mem_range.mpr h.coder_lt, decide_eq_true h⟩
  obtain ⟨found, hfound⟩ := Option.isSome_iff_exists.mp hsome
  rw [hfound]
  rw [owner?] at hfound
  have hout := List.find?_some hfound
  rw [decide_eq_true_iff] at hout
  rw [hout.unique h]

/-- How many coders are upstream of the one that has an output. -/
noncomputable def rank (f : Folder) (output : Nat) : Nat :=
  (f.owner? output).elim 0 fun coder => (f.upstream coder).card

end Folder

namespace FolderJob

/-! ### The meaning of an output -/

section Meaning

variable (job : FolderJob) (decode : Coder → List Bytes → Option Nat → Except DecoderFault Bytes)
  (packed : List Bytes)

/-- What an input means, by what the outputs mean: the output that feeds it, or the pack stream at
its place among the packed inputs. -/
def inputMeaning (value : Nat → Except FolderFault Bytes) (input : Nat) :
    Except FolderFault Bytes :=
  match job.folder.boundOutput? input with
  | some feeder => value feeder
  | none => .ok (packed.getD (job.graph.packedInputs.idxOf input) [])

/-- What an output means, by what the others mean: its coder, which has to have this one output
only, is applied to its inputs, and what it makes of them has to have the known size. -/
def outputMeaning (value : Nat → Except FolderFault Bytes) (output : Nat) :
    Except FolderFault Bytes := do
  let some index := job.folder.owner? output
    | throw (.decode { folder := job.index, fault := .breach .index })
  let some c := job.folder.coders[index]?
    | throw (.decode { folder := job.index, fault := .breach .index })
  if c.outputs ≠ 1 then
    throw (.decode { folder := job.index, fault := .severalOutputs index c.outputs.toNat })
  let inputs ← (List.range c.inputs.toNat).mapM fun i =>
    job.inputMeaning packed value (runStart job.folder.inputCounts index + i)
  let bytes ← (decode c inputs (job.knownSize output)).mapError (coderFault job.index index c)
  match job.knownSize output with
  | none => pure bytes
  | some size =>
    if bytes.length ≠ size then
      throw (.decode { folder := job.index, fault := .outputSize index bytes.length size })
    pure bytes

/-- **The meaning of an output.** In a coder graph every feeder has a smaller rank. -/
noncomputable def meaning (output : Nat) : Except FolderFault Bytes :=
  job.outputMeaning decode packed
    (fun feeder =>
      if job.folder.rank feeder < job.folder.rank output then meaning feeder
      else .error (.decode { folder := job.index, fault := .breach .depth }))
    output
termination_by job.folder.rank output

end Meaning

variable {job : FolderJob} {decode : Coder → List Bytes → Option Nat → Except DecoderFault Bytes}
  {packed : List Bytes} {index output : Nat} {c : Coder}

theorem outputMeaning_of_owns {value : Nat → Except FolderFault Bytes}
    (howns : Owns job.folder index c output) :
    job.outputMeaning decode packed value output =
      if c.outputs ≠ 1 then
        .error (.decode { folder := job.index, fault := .severalOutputs index c.outputs.toNat })
      else
        (List.range c.inputs.toNat).mapM (fun i =>
          job.inputMeaning packed value (runStart job.folder.inputCounts index + i)) >>=
            fun inputs =>
        (decode c inputs (job.knownSize output)).mapError (coderFault job.index index c) >>=
          fun bytes =>
        match job.knownSize output with
        | none => .ok bytes
        | some size =>
          if bytes.length ≠ size then
            .error (.decode { folder := job.index, fault := .outputSize index bytes.length size })
          else .ok bytes := by
  unfold outputMeaning
  rw [howns.hasOutput.owner?_eq]
  simp only [howns.coder]
  split
  · rfl
  · rfl

variable (hf : job.folder.IsCoderGraph)

include hf in
theorem rank_lt_of_feeds {feeder i : Nat} (howns : Owns job.folder index c output)
    (hi : i < c.inputs.toNat)
    (hbound : job.folder.boundOutput? (runStart job.folder.inputCounts index + i) = some feeder) :
    job.folder.rank feeder < job.folder.rank output := by
  have hin : job.folder.HasInput index (runStart job.folder.inputCounts index + i) :=
    (Folder.hasInput_iff howns.coder).mpr ⟨i, hi, rfl⟩
  obtain ⟨coder, hout, hfeeds⟩ := hf.bindsOnce.feeds_of_boundOutput? hin hbound
  rw [Folder.rank, Folder.rank, hout.owner?_eq, howns.hasOutput.owner?_eq]
  exact hf.acyclic.card_upstream_lt hfeeds

include hf in
/-- The equation of the meaning. -/
theorem meaning_eq (hout : output < job.folder.totalOutputs) :
    job.meaning decode packed output =
      job.outputMeaning decode packed (job.meaning decode packed) output := by
  obtain ⟨index, c, howns⟩ := exists_owns hout
  rw [meaning, outputMeaning_of_owns howns, outputMeaning_of_owns howns]
  -- only feeders are asked for, and these have a smaller rank
  rw [mapM_congr]
  intro i hi
  unfold inputMeaning
  split
  · next feeder hbound => exact if_pos (rank_lt_of_feeds hf howns (List.mem_range.mp hi) hbound)
  · rfl

include hf in
/-- What an output means when the inputs of its coder mean something. -/
theorem meaning_of_inputs {inputs : List Bytes} (howns : Owns job.folder index c output)
    (hsingle : c.outputs = 1)
    (hinputs : (List.range c.inputs.toNat).mapM (fun i => job.inputMeaning packed
      (job.meaning decode packed) (runStart job.folder.inputCounts index + i)) = .ok inputs) :
    job.meaning decode packed output =
      (decode c inputs (job.knownSize output)).mapError (coderFault job.index index c) >>=
        fun bytes =>
      match job.knownSize output with
      | none => .ok bytes
      | some size =>
        if bytes.length ≠ size then
          .error (.decode { folder := job.index, fault := .outputSize index bytes.length size })
        else .ok bytes := by
  -- the meaning unfolds once, and the inputs are known
  rw [meaning_eq hf howns.hasOutput.lt_totalOutputs, outputMeaning_of_owns howns,
    if_neg (not_not.mpr hsingle), hinputs]
  rfl

/-- The failure of an output that is met first, when its inputs are evaluated from left to right,
each before those behind it and all before the coder is run. -/
inductive FirstFailure (job : FolderJob)
    (decode : Coder → List Bytes → Option Nat → Except DecoderFault Bytes) (packed : List Bytes) :
    Nat → FolderFault → Prop where
  | severalOutputs {index output : Nat} {c : Coder} (howns : Owns job.folder index c output)
    (hseveral : c.outputs ≠ 1) : FirstFailure job decode packed output
      (.decode { folder := job.index, fault := .severalOutputs index c.outputs.toNat })
  | input {index output i feeder : Nat} {c : Coder} {before : List Bytes} {fault : FolderFault}
    (howns : Owns job.folder index c output) (hsingle : c.outputs = 1) (hi : i < c.inputs.toNat)
    (hbefore : (List.range i).mapM (fun j => job.inputMeaning packed (job.meaning decode packed)
      (runStart job.folder.inputCounts index + j)) = .ok before)
    (hbound : job.folder.boundOutput? (runStart job.folder.inputCounts index + i) = some feeder)
    (hfails : FirstFailure job decode packed feeder fault) :
    FirstFailure job decode packed output fault
  | coder {index output : Nat} {c : Coder} {inputs : List Bytes} {fault : DecoderFault}
    (howns : Owns job.folder index c output) (hsingle : c.outputs = 1)
    (hinputs : (List.range c.inputs.toNat).mapM (fun j => job.inputMeaning packed
      (job.meaning decode packed) (runStart job.folder.inputCounts index + j)) = .ok inputs)
    (hfails : decode c inputs (job.knownSize output) = .error fault) :
    FirstFailure job decode packed output (coderFault job.index index c fault)
  | outputSize {index output size : Nat} {c : Coder} {inputs : List Bytes} {bytes : Bytes}
    (howns : Owns job.folder index c output) (hsingle : c.outputs = 1)
    (hinputs : (List.range c.inputs.toNat).mapM (fun j => job.inputMeaning packed
      (job.meaning decode packed) (runStart job.folder.inputCounts index + j)) = .ok inputs)
    (hbytes : decode c inputs (job.knownSize output) = .ok bytes)
    (hsize : size ∈ job.knownSize output) (hne : bytes.length ≠ size) :
    FirstFailure job decode packed output
      (.decode { folder := job.index, fault := .outputSize index bytes.length size })

include hf in
/-- The failure met first is what the output means. -/
theorem FirstFailure.meaning_eq {fault : FolderFault}
    (h : FirstFailure job decode packed output fault) :
    job.meaning decode packed output = .error fault := by
  induction h with
  | severalOutputs howns hseveral =>
    rw [FolderJob.meaning_eq hf howns.hasOutput.lt_totalOutputs, outputMeaning_of_owns howns,
      if_pos hseveral]
  | @input index output i feeder c before fault howns hsingle hi hbefore hbound _ ih =>
    -- the inputs before mean something, this one fails, and those behind it do not matter
    have hsplit : List.range c.inputs.toNat =
        List.range i ++ i :: (List.range (c.inputs.toNat - (i + 1))).map (i + 1 + ·) := by
      rw [List.append_cons, ← List.range_succ, ← List.range_add]
      congr 1
      omega
    have hfirst : job.inputMeaning packed (job.meaning decode packed)
        (runStart job.folder.inputCounts index + i) = .error fault := by
      rw [inputMeaning, hbound]
      exact ih
    rw [FolderJob.meaning_eq hf howns.hasOutput.lt_totalOutputs, outputMeaning_of_owns howns,
      if_neg (not_not.mpr hsingle), hsplit, mapM_append_cons_error hbefore hfirst]
    rfl
  | coder howns hsingle hinputs hfails =>
    rw [meaning_of_inputs hf howns hsingle hinputs, hfails]
    rfl
  | outputSize howns hsingle hinputs hbytes hsize hne =>
    rw [meaning_of_inputs hf howns hsingle hinputs, hbytes, hsize]
    exact if_pos hne

/-! ### Evaluation comes to the meaning -/

theorem idxOf_eq_of_packedPosition? {g : FolderGraph} {input position : Nat}
    (h : g.packedPosition? input = some position) : g.packedInputs.idxOf input = position := by
  obtain ⟨-, hfind⟩ := List.findIdx?_eq_some_iff_findIdx_eq.mp h
  rw [← hfind, List.idxOf]
  rfl

/-- Bytes that are there are those that the input means, if the slots hold what the outputs mean. -/
theorem Ready.inputMeaning_eq {value : Nat → Except FolderFault Bytes}
    {slots : List (Option Bytes)} {input : Nat} {bytes : Bytes}
    (hslots : ∀ (output : Nat) (bytes : Bytes), slots[output]? = some (some bytes) →
      value output = .ok bytes)
    (h : job.Ready packed slots input bytes) : job.inputMeaning packed value input = .ok bytes := by
  unfold Ready at h
  unfold inputMeaning
  -- an input comes from an output whose meaning is known, or from a pack stream
  split
  · next feeder hbound =>
    rw [hbound] at h
    exact hslots feeder bytes h
  · next hnone =>
    rw [hnone] at h
    obtain ⟨position, hposition, hbytes⟩ := h
    rw [idxOf_eq_of_packedPosition? hposition, List.getD_eq_getElem?_getD, hbytes]
    rfl

/-- The slots hold what the outputs mean, and nothing else happens. -/
structure HoldsMeaning (job : FolderJob)
    (decode : Coder → List Bytes → Option Nat → Except DecoderFault Bytes) (packed : List Bytes)
    (s₀ : σ) (slots : List (Option Bytes)) (s : σ) : Prop where
  state : s = s₀
  slot : ∀ (output : Nat) (bytes : Bytes), slots[output]? = some (some bytes) →
    job.meaning decode packed output = .ok bytes

theorem HoldsMeaning.inputs {s₀ s : σ} {slots : List (Option Bytes)} {is : List Nat}
    {inputs : List Bytes} (h : HoldsMeaning job decode packed s₀ slots s)
    (hready : job.AllReady packed slots index is inputs) :
    is.mapM (fun i => job.inputMeaning packed (job.meaning decode packed)
      (runStart job.folder.inputCounts index + i)) = .ok inputs :=
  mapM_eq_ok_iff.mpr (hready.imp fun _ _ hbytes => hbytes.inputMeaning_eq h.slot)

include hf in
theorem holdsMeaning_invariant (hpacked : packed.length = job.graph.packedInputs.length) (s₀ : σ) :
    Invariant job packed (runBy job.index (Decoder.pure decode))
      (HoldsMeaning job decode packed s₀)
      (fun output fault s => s = s₀ ∧ FirstFailure job decode packed output fault) where
  severalOutputs h howns hseveral := ⟨h.state, .severalOutputs howns hseveral⟩
  input h howns hsingle hi hbefore hbound := by
    rintro ⟨hstate, hfails⟩
    exact ⟨hstate, .input howns hsingle hi (h.inputs hbefore) hbound hfails⟩
  missing _ _ hfew := absurd hpacked hfew.ne
  call {slots s index c inputs output} h hcall := by
    have howns := hcall.toOwns
    have hinputs := h.inputs hcall.ready
    have hrun : Ensures (runBy job.index (Decoder.pure decode) index c inputs
        (job.knownSize output)) s
        (fun bytes s' => s' = s₀ ∧ decode c inputs (job.knownSize output) = .ok bytes)
        (fun fault s' => s' = s₀ ∧ FirstFailure job decode packed output fault) := by
      refine runBy_ensures ?_ ?_
      · intro bytes s' hanswer
        obtain ⟨hbytes, rfl⟩ := Prod.mk.inj hanswer
        exact ⟨h.state, hbytes⟩
      · intro fault s' hanswer
        obtain ⟨hfails, rfl⟩ := Prod.mk.inj hanswer
        exact ⟨h.state, .coder howns hcall.single hinputs hfails⟩
    refine runChecked_ensures hf howns.hasOutput.lt_totalOutputs hrun ?_ ?_
    · rintro bytes s' ⟨hstate, hbytes⟩ hsize
      have hmeaning : job.meaning decode packed output = .ok bytes := by
        rw [meaning_of_inputs hf howns hcall.single hinputs, hbytes]
        show (match job.knownSize output with | none => _ | some size => _) = _
        split
        · rfl
        · next size hknown => exact if_neg (not_not.mpr (hsize size hknown))
      refine ⟨hstate, fun other bytes' hslot => ?_⟩
      -- a slot is the new one or was filled before
      rcases (getElem?_set_slot_iff hcall.empty).mp hslot with ⟨rfl, rfl⟩ | hbefore
      · exact hmeaning
      · exact h.slot other bytes' hbefore
    · rintro bytes s' size hsize ⟨hstate, hbytes⟩ hne
      exact ⟨hstate, .outputSize howns hcall.single hinputs hbytes hsize hne⟩

/-! ### The pack streams -/

section PackStreams

variable {a : Archive} {m : StreamMap} {size : Except SourceFault Nat}
  {read : (offset length : Nat) → Except SourceFault Bytes} {verify : Bool} {folder : Nat}

/-- A pack stream as a pure source has it, if its checksum is right. -/
def packStreamMeaning (a : Archive) (read : (offset length : Nat) → Except SourceFault Bytes)
    (verify : Bool) (folder stream : Nat) : Except FolderFault Bytes :=
  match read (a.packPosition.toNat + runStart (numbers a.packSizes) stream)
      ((numbers a.packSizes).getD stream 0) with
  | .error fault => .error (sourceFault folder stream fault)
  | .ok bytes =>
    if verify ∧ ∃ crc ∈ a.packCrc stream, Crc32.digest bytes ≠ crc then
      .error (.decode { folder, fault := .packStreamCrc stream })
    else .ok bytes

theorem readPackStream_eq {stream : Nat} (hstream : stream < a.packSizes.length)
    (hoffset : m.packOffsets[stream]? =
      some (a.packPosition.toNat + runStart (numbers a.packSizes) stream)) (s : σ) :
    (readPackStream a m (Source.pure size read) verify folder stream).run s =
      (packStreamMeaning a read verify folder stream, s) := by
  have hsize := List.getElem?_eq_getElem hstream
  have hlength : (numbers a.packSizes).getD stream 0 = a.packSizes[stream].toNat := by
    rw [List.getD_eq_getElem?_getD, getElem?_numbers_of hsize]
    rfl
  unfold readPackStream packStreamMeaning
  rw [lift_lookup hsize, lift_lookup hoffset, hlength]
  simp only [pure_bind]
  rw [runExcept_bind, runExcept_liftM]
  -- a pure source leaves the state alone
  dsimp only [Source.pure]
  match read (a.packPosition.toNat + runStart (numbers a.packSizes) stream)
      a.packSizes[stream].toNat with
  | .error (.failure error) => rfl
  | .error (.foreign thrown) => rfl
  | .ok bytes =>
    dsimp only
    cases a.packCrc stream with
    | none =>
      rw [if_neg (by simp)]
      rfl
    | some crc =>
      simp only [Option.mem_some_iff, exists_eq_left']
      split
      · rfl
      · rfl

theorem readPackStreams_eq {count stream : Nat}
    (hstreams : ∀ i, stream ≤ i → i < stream + count → i < a.packSizes.length ∧
      m.packOffsets[i]? = some (a.packPosition.toNat + runStart (numbers a.packSizes) i)) (s : σ) :
    (readPackStreams a m (Source.pure size read) verify folder count stream).run s =
      ((List.range' stream count).mapM (packStreamMeaning a read verify folder), s) := by
  -- the streams are read in order, as the list of their meanings is gone through
  induction count generalizing stream with
  | zero => rfl
  | succ count ih =>
    obtain ⟨hlt, hoffset⟩ := hstreams stream le_rfl (by omega)
    have hrest := @ih (stream + 1) fun i hfirst hlast => hstreams i (by omega) (by omega)
    rw [readPackStreams, List.range'_succ, List.mapM_cons, runExcept_bind,
      readPackStream_eq hlt hoffset]
    cases packStreamMeaning a read verify folder stream with
    | error fault => rfl
    | ok bytes =>
      dsimp only
      rw [runExcept_bind, hrest]
      cases (List.range' (stream + 1) count).mapM (packStreamMeaning a read verify folder) with
      | error fault => rfl
      | ok rest => rfl

end PackStreams

end FolderJob

namespace StreamMap

variable {a : Archive} {m : StreamMap} {k : Nat} {f : Folder} {g : FolderGraph} {span : FolderSpan}
  (decode : Coder → List Bytes → Option Nat → Except DecoderFault Bytes) {packed : List Bytes}

/-- The evaluation of a mapped folder whose coder is a function gives the meaning of the final
output, or fails as the output that fails first. -/
theorem MapsFolder.run_pure_ensures (h : MapsFolder a m k f g span)
    (hpacked : packed.length = g.packedInputs.length) (s : σ) :
    Ensures (h.job.run (FolderJob.runBy k (Decoder.pure decode)) packed) s
      (fun bytes s' => s' = s ∧ h.job.meaning decode packed g.finalOutput = .ok bytes)
      (fun fault s' => s' = s ∧ h.job.FirstFailure decode packed g.finalOutput fault) := by
  have hinv : FolderJob.Invariant h.job packed (FolderJob.runBy k (Decoder.pure decode))
      (FolderJob.HoldsMeaning h.job decode packed s) _ :=
    FolderJob.holdsMeaning_invariant h.isCoderGraph hpacked s
  refine (h.run_ensures hinv ⟨rfl, ?_⟩).mono ?_ fun _ _ hbad => hbad
  · intro output bytes hslot
    exact absurd hslot (FolderJob.getElem?_replicate_ne _ output bytes)
  · rintro bytes s' ⟨-, slots, hslots, hslot⟩
    exact ⟨hslots.state, hslots.slot _ _ hslot⟩

theorem MapsFolder.run_pure_eq (h : MapsFolder a m k f g span)
    (hpacked : packed.length = g.packedInputs.length) (s : σ) :
    (h.job.run (FolderJob.runBy k (Decoder.pure decode)) packed).run s =
      (h.job.meaning decode packed g.finalOutput, s) := by
  have hrun := h.run_pure_ensures decode hpacked s
  unfold Ensures at hrun
  rcases hcase : (h.job.run (FolderJob.runBy k (Decoder.pure decode)) packed).run s with
    ⟨fault | bytes, s'⟩
  · rw [hcase] at hrun
    rw [hrun.1, hrun.2.meaning_eq h.isCoderGraph]
  · rw [hcase] at hrun
    rw [hrun.1, hrun.2]

/-- The final output fails just if there is a failure that is met first. -/
theorem MapsFolder.meaning_eq_error_iff (h : MapsFolder a m k f g span)
    (hpacked : packed.length = g.packedInputs.length) {fault : FolderFault} :
    h.job.meaning decode packed g.finalOutput = .error fault ↔
      h.job.FirstFailure decode packed g.finalOutput fault := by
  refine ⟨fun hmeaning => ?_, fun hfails => hfails.meaning_eq h.isCoderGraph⟩
  have hrun := h.run_pure_ensures decode hpacked ()
  unfold Ensures at hrun
  rw [h.run_pure_eq decode hpacked, hmeaning] at hrun
  exact hrun.2

/-- **A folder is decoded to its meaning.** When source and coders are functions, decoding a folder
of a mapped header comes to this: the limit is checked, the pack streams are read in their order,
and the result is what the final output means. What an output means is given by the recursion
through its coder, and if it is a failure it is the one that is met first. -/
theorem decodeFolder_eq_meaning (hm : derive a = .ok m) (hk : a.folders[k]? = some f) :
    ∃ g span, FolderGraph.resolve f = .ok g ∧ m.folders[k]? = some span ∧
      let job : FolderJob :=
        { index := k, folder := f, graph := g, unpackLength := span.unpackLength }
      ∀ (size : Except SourceFault Nat) (read : (offset length : Nat) → Except SourceFault Bytes)
        (decode : Coder → List Bytes → Option Nat → Except DecoderFault Bytes) (config : Config),
        let packStreams := (List.range' span.firstPackStream span.packStreamCount).mapM
          (FolderJob.packStreamMeaning a read config.verifyPackCrcs k)
        (∀ (σ : Type) (s : σ),
          (decodeFolder a m (.pure size read) (.pure decode) config k).run s =
            (if config.maxFolderBytes < span.unpackLength then
              .error (.decode { folder := k, fault := .aboveLimit span.unpackLength })
            else packStreams >>= fun packed => job.meaning decode packed g.finalOutput, s)) ∧
        ∀ packed, packStreams = .ok packed →
          (∀ output < f.totalOutputs, job.meaning decode packed output =
            job.outputMeaning decode packed (job.meaning decode packed) output) ∧
          ∀ fault, job.meaning decode packed g.finalOutput = .error fault ↔
            job.FirstFailure decode packed g.finalOutput fault := by
  obtain ⟨g, span, h⟩ := derive_mapsFolder hm hk
  refine ⟨g, span, h.resolved, h.span_eq, ?_⟩
  intro job size read decode config packStreams
  -- there are as many pack streams as the graph has packed inputs
  have hlength : ∀ packed, packStreams = .ok packed → packed.length = g.packedInputs.length := by
    intro packed hpacked
    rw [← (mapM_eq_ok_iff.mp hpacked).length_eq, List.length_range', h.count]
  refine ⟨fun σ s => ?_, fun packed hpacked => ⟨fun output hout => ?_, fun fault => ?_⟩⟩
  · unfold decodeFolder
    rw [h.decodeFolderBy_eq]
    by_cases hlimit : config.maxFolderBytes < span.unpackLength
    · rw [if_pos hlimit, if_pos hlimit]
      rfl
    · have hread : (FolderJob.readPackStreams a m (.pure size read) config.verifyPackCrcs k
          span.packStreamCount span.firstPackStream).run s = (packStreams, s) :=
        FolderJob.readPackStreams_eq h.packStream s
      rw [if_neg hlimit, if_neg hlimit, runExcept_bind, hread]
      cases hpacked : packStreams with
      | error fault => rfl
      | ok packed => exact h.run_pure_eq decode (hlength packed hpacked) s
  · exact FolderJob.meaning_eq h.isCoderGraph hout
  · exact h.meaning_eq_error_iff decode (hlength packed hpacked)

/-- A coder with two inputs, of which the first is fed by another coder. The pack streams come in
another order than the inputs that read them. -/
theorem decodeFolder_eq_meaning_two_coders :
    let f : Folder :=
      { coders := [{ methodId := [3], inputs := 2 }, { methodId := [9] }]
        bindPairs := [{ input := 0, output := 1 }]
        packedStreams := [2, 1], unpackSizes := [5, 3] }
    let a : Archive :=
      { packPosition := 1, packSizes := [2, 1], folders := [f], entries := [{ name := "a" }] }
    let decode := fun (c : Coder) (inputs : List Bytes) (_ : Option Nat) =>
      (.ok (c.methodId ++ inputs.flatten) : Except DecoderFault Bytes)
    ∃ m g span, derive a = .ok m ∧ a.folders[0]? = some f ∧ m.folders[0]? = some span ∧
      let job : FolderJob :=
        { index := 0, folder := f, graph := g, unpackLength := span.unpackLength }
      job.meaning decode [[20, 21], [22]] g.finalOutput = .ok [3, 9, 20, 21, 22] := by
  intro f a decode
  obtain ⟨g, span, -, hspan, h⟩ :=
    decodeFolder_eq_meaning (a := a) (k := 0) (f := f) rfl rfl
  refine ⟨_, g, span, rfl, rfl, hspan, ?_⟩
  cases hspan
  have hmeaning := (h (.ok 4) (readRange [0, 20, 21, 22]) decode {}).1 Unit ()
  -- the decode itself can be run
  have hrun : _ = ((.ok [3, 9, 20, 21, 22], ()) : Except FolderFault Bytes × Unit) :=
    hmeaning.symm.trans rfl
  exact (Prod.mk.inj hrun).1

end StreamMap

end SolidArchive
