import SolidArchive.Proofs.Folder.Upstream

/-!
# Folders under other numbers

The streams of a folder are numbered through its coders. If the coders come in another order, each
takes its runs of streams with it, and all numbers change: those in the bind pairs, those of the
packed streams, and the places of the unpack sizes (`Folder.renumber`). That one folder is another
one under new numbers, with the bind pairs in any order, is `Folder.Renumbers`.

The numbers are only names. Nothing that makes a folder a coder graph depends on them
(`Folder.Renumbers.isCoderGraph`), and the graphs of the two folders are the same under the new
numbers.
-/

namespace SolidArchive

open Relation

/-! ### Runs that change places -/

section Runs

variable {counts counts' : List Nat} {place moved : Equiv.Perm ℕ} {k i : Nat}

instance (counts : List Nat) (k i : Nat) : Decidable (InRun counts k i) :=
  inferInstanceAs (Decidable (_ ∧ _ ∧ _))

/-- The `i`-th number of a run lies in it. -/
theorem inRun_add {count : Nat} (hk : counts[k]? = some count) (hi : i < count) :
    InRun counts k (runStart counts k + i) := by
  refine ⟨(List.getElem?_eq_some_iff.mp hk).1, Nat.le_add_right _ _, ?_⟩
  rw [runStart_succ hk]
  exact Nat.add_lt_add_left hi _

/-- A number in a run is one of those behind its start. -/
theorem InRun.exists_eq (h : InRun counts k i) :
    ∃ count j, counts[k]? = some count ∧ j < count ∧ i = runStart counts k + j := by
  have hk := List.getElem?_eq_getElem h.1
  have hfirst := h.2.1
  have hlast := h.2.2
  rw [runStart_succ hk] at hlast
  exact ⟨_, i - runStart counts k, hk, by omega, by omega⟩

/-- The numbers of the runs of `counts` become those of `counts'`, where each run has come to its
place. -/
structure MovesRuns (counts counts' : List Nat) (place moved : Equiv.Perm ℕ) : Prop where
  count : ∀ k, counts'[place k]? = counts[k]?
  moved_eq : ∀ {k count i}, counts[k]? = some count → i < count →
    moved (runStart counts k + i) = runStart counts' (place k) + i

namespace MovesRuns

theorem symm (h : MovesRuns counts counts' place moved) :
    MovesRuns counts' counts place.symm moved.symm := by
  have hcount : ∀ k, counts[place.symm k]? = counts'[k]? := by
    intro k
    rw [← h.count, Equiv.apply_symm_apply]
  refine ⟨hcount, fun {k count i} hk hi => ?_⟩
  have hmoved := h.moved_eq ((hcount k).trans hk) hi
  rw [Equiv.apply_symm_apply] at hmoved
  rw [Equiv.symm_apply_eq, hmoved]

theorem inRun (h : MovesRuns counts counts' place moved) (hin : InRun counts k i) :
    InRun counts' (place k) (moved i) := by
  obtain ⟨count, j, hk, hj, rfl⟩ := hin.exists_eq
  rw [h.moved_eq hk hj]
  exact inRun_add ((h.count k).trans hk) hj

theorem inRun_iff (h : MovesRuns counts counts' place moved) :
    InRun counts' (place k) (moved i) ↔ InRun counts k i := by
  refine ⟨fun hin => ?_, h.inRun⟩
  have hback := h.symm.inRun hin
  rwa [Equiv.symm_apply_apply, Equiv.symm_apply_apply] at hback

theorem lt_sum (h : MovesRuns counts counts' place moved) (hi : i < counts.sum) :
    moved i < counts'.sum := by
  obtain ⟨k, hk⟩ := exists_inRun hi
  exact (h.inRun hk).lt_sum

theorem lt_sum_iff (h : MovesRuns counts counts' place moved) :
    moved i < counts'.sum ↔ i < counts.sum := by
  refine ⟨fun hi => ?_, h.lt_sum⟩
  have hback := h.symm.lt_sum hi
  rwa [Equiv.symm_apply_apply] at hback

end MovesRuns

/-- The new number of `i` when the runs of `counts` have come to other places, where they are the
runs of `counts'`. What is in no run keeps its number. -/
def moveRun (counts counts' : List Nat) (place : Nat → Nat) (i : Nat) : Nat :=
  match (List.range counts.length).find? fun k => InRun counts k i with
  | some k => runStart counts' (place k) + (i - runStart counts k)
  | none => i

theorem moveRun_add {place : Nat → Nat} {count : Nat} (hk : counts[k]? = some count)
    (hi : i < count) :
    moveRun counts counts' place (runStart counts k + i) = runStart counts' (place k) + i := by
  have hin := inRun_add hk hi
  have hsome : ((List.range counts.length).find?
      fun l => InRun counts l (runStart counts k + i)).isSome := by
    rw [List.find?_isSome]
    exact ⟨k, List.mem_range.mpr hin.1, decide_eq_true hin⟩
  obtain ⟨found, hfound⟩ := Option.isSome_iff_exists.mp hsome
  have hfind := List.find?_some hfound
  -- a number is in one run only
  obtain rfl : found = k := (of_decide_eq_true hfind).unique hin
  rw [moveRun, hfound]
  dsimp only
  rw [Nat.add_sub_cancel_left]

theorem moveRun_of_le {place : Nat → Nat} (h : counts.sum ≤ i) :
    moveRun counts counts' place i = i := by
  have hnone : ((List.range counts.length).find? fun k => InRun counts k i) = none := by
    refine List.find?_eq_none.mpr fun k _ hk => ?_
    exact absurd (of_decide_eq_true hk).lt_sum (Nat.not_lt.mpr h)
  rw [moveRun, hnone]

/-- The runs can be moved back. -/
theorem moveRun_moveRun (hcounts : ∀ k, counts'[place k]? = counts[k]?)
    (hsum : counts'.sum = counts.sum) (i : Nat) :
    moveRun counts' counts place.symm (moveRun counts counts' place i) = i := by
  rcases Nat.lt_or_ge i counts.sum with hi | hi
  · obtain ⟨k, hk⟩ := exists_inRun hi
    obtain ⟨count, j, hcount, hj, rfl⟩ := hk.exists_eq
    rw [moveRun_add hcount hj, moveRun_add ((hcounts k).trans hcount) hj, Equiv.symm_apply_apply]
  · -- what is in no run stays where it is
    rw [moveRun_of_le hi, moveRun_of_le (hsum.trans_le hi)]

/-- To move the runs is to permute the numbers. -/
def permRuns (hcounts : ∀ k, counts'[place k]? = counts[k]?) (hsum : counts'.sum = counts.sum) :
    Equiv.Perm ℕ where
  toFun := moveRun counts counts' place
  invFun := moveRun counts' counts place.symm
  left_inv := moveRun_moveRun hcounts hsum
  right_inv := by
    have hback : ∀ k, counts[place.symm k]? = counts'[k]? := by
      intro k
      rw [← hcounts, Equiv.apply_symm_apply]
    exact moveRun_moveRun hback hsum.symm

theorem movesRuns_permRuns (hcounts : ∀ k, counts'[place k]? = counts[k]?)
    (hsum : counts'.sum = counts.sum) :
    MovesRuns counts counts' place (permRuns hcounts hsum) :=
  ⟨hcounts, moveRun_add⟩

/-- A bound on all numbers of the runs is kept. -/
theorem permRuns_lt (hcounts : ∀ k, counts'[place k]? = counts[k]?)
    (hsum : counts'.sum = counts.sum) {n : Nat} (hn : counts.sum ≤ n) (hi : i < n) :
    permRuns hcounts hsum i < n := by
  rcases Nat.lt_or_ge i counts.sum with hin | hout
  · have hlt := (movesRuns_permRuns hcounts hsum).lt_sum hin
    rw [hsum] at hlt
    exact hlt.trans_le hn
  · exact (moveRun_of_le hout).trans_lt hi

end Runs

/-! ### New numbers for a folder -/

/-- New numbers for the coders and the streams of a folder. -/
structure Renumbering where
  coder : Equiv.Perm ℕ
  input : Equiv.Perm ℕ
  output : Equiv.Perm ℕ

/-- Back to the old numbers. -/
def Renumbering.symm (ρ : Renumbering) : Renumbering where
  coder := ρ.coder.symm
  input := ρ.input.symm
  output := ρ.output.symm

namespace Folder

/-- The inputs and the outputs that bind pairs bring together. -/
def boundStreams (f : Folder) : List (Nat × Nat) :=
  f.bindPairs.map fun pair => (pair.input.toNat, pair.output.toNat)

theorem map_fst_boundStreams (f : Folder) : f.boundStreams.map Prod.fst = f.boundInputs := by
  rw [boundStreams, boundInputs, List.map_map]
  rfl

theorem map_snd_boundStreams (f : Folder) : f.boundStreams.map Prod.snd = f.boundOutputs := by
  rw [boundStreams, boundOutputs, List.map_map]
  rfl

/-- The folder `f'` is `f` under new numbers, and its bind pairs come in any order. -/
structure Renumbers (ρ : Renumbering) (f f' : Folder) : Prop where
  perm : f'.coders.Perm f.coders
  coder : ∀ k, f'.coders[ρ.coder k]? = f.coders[k]?
  /-- Each coder takes its inputs and its outputs with it. -/
  input : MovesRuns f.inputCounts f'.inputCounts ρ.coder ρ.input
  output : MovesRuns f.outputCounts f'.outputCounts ρ.coder ρ.output
  boundStreams : f'.boundStreams.Perm (f.boundStreams.map (Prod.map ρ.input ρ.output))
  packedStreams : numbers f'.packedStreams = (numbers f.packedStreams).map ρ.input
  length_unpackSizes : f'.unpackSizes.length = f.unpackSizes.length
  /-- If there is a size for each output, it has its own. -/
  unpackSize : f.unpackSizes.length = f.totalOutputs → ∀ output,
    f'.unpackSizes[ρ.output output]? = f.unpackSizes[output]?
  unpackCrc : f'.unpackCrc = f.unpackCrc

namespace Renumbers

variable {ρ : Renumbering} {f f' : Folder} {k coder feeder input output : Nat} {c : Coder}

theorem totalOutputs_eq (h : f.Renumbers ρ f') : f'.totalOutputs = f.totalOutputs := by
  rw [← sum_outputCounts, ← sum_outputCounts]
  exact (h.perm.map _).sum_eq

/-- The new folder is the old one under the old numbers. -/
theorem symm (h : f.Renumbers ρ f') : f'.Renumbers ρ.symm f where
  perm := h.perm.symm
  coder k := by
    show f.coders[ρ.coder.symm k]? = f'.coders[k]?
    rw [← h.coder, Equiv.apply_symm_apply]
  input := h.input.symm
  output := h.output.symm
  boundStreams := by
    -- the pairs are taken back one by one
    have hback := h.boundStreams.symm.map (Prod.map ρ.symm.input ρ.symm.output)
    have hsame : Prod.map ρ.symm.input ρ.symm.output ∘ Prod.map ρ.input ρ.output = id := by
      rw [Prod.map_comp_map]
      exact congrArg₂ Prod.map (Equiv.symm_comp_self ρ.input) (Equiv.symm_comp_self ρ.output)
    rwa [List.map_map, hsame, List.map_id] at hback
  packedStreams := by
    have hsame : ρ.symm.input ∘ ρ.input = id := Equiv.symm_comp_self ρ.input
    rw [h.packedStreams, List.map_map, hsame, List.map_id]
  length_unpackSizes := h.length_unpackSizes.symm
  unpackSize hlength output := by
    rw [h.length_unpackSizes, h.totalOutputs_eq] at hlength
    show f.unpackSizes[ρ.output.symm output]? = f'.unpackSizes[output]?
    rw [← h.unpackSize hlength, Equiv.apply_symm_apply]
  unpackCrc := h.unpackCrc.symm

/-! ### What does not depend on numbers -/

theorem length_coders (h : f.Renumbers ρ f') : f'.coders.length = f.coders.length :=
  h.perm.length_eq

theorem input_lt_iff (h : f.Renumbers ρ f') :
    ρ.input input < f'.totalInputs ↔ input < f.totalInputs := by
  rw [← sum_inputCounts, ← sum_inputCounts]
  exact h.input.lt_sum_iff

theorem output_lt_iff (h : f.Renumbers ρ f') :
    ρ.output output < f'.totalOutputs ↔ output < f.totalOutputs := by
  rw [← sum_outputCounts, ← sum_outputCounts]
  exact h.output.lt_sum_iff

theorem hasInput_iff (h : f.Renumbers ρ f') :
    f'.HasInput (ρ.coder k) (ρ.input input) ↔ f.HasInput k input := h.input.inRun_iff

theorem hasOutput_iff (h : f.Renumbers ρ f') :
    f'.HasOutput (ρ.coder k) (ρ.output output) ↔ f.HasOutput k output := h.output.inRun_iff

theorem mem_boundStreams_iff (h : f.Renumbers ρ f') :
    (ρ.input input, ρ.output output) ∈ f'.boundStreams ↔ (input, output) ∈ f.boundStreams := by
  rw [h.boundStreams.mem_iff]
  show Prod.map ρ.input ρ.output (input, output) ∈ _ ↔ _
  exact List.mem_map_of_injective (ρ.input.injective.prodMap ρ.output.injective)

theorem boundInputs (h : f.Renumbers ρ f') :
    f'.boundInputs.Perm (f.boundInputs.map ρ.input) := by
  rw [← map_fst_boundStreams, ← map_fst_boundStreams, List.map_map]
  have hfirst := h.boundStreams.map Prod.fst
  rwa [List.map_map] at hfirst

theorem boundOutputs (h : f.Renumbers ρ f') :
    f'.boundOutputs.Perm (f.boundOutputs.map ρ.output) := by
  rw [← map_snd_boundStreams, ← map_snd_boundStreams, List.map_map]
  have hsecond := h.boundStreams.map Prod.snd
  rwa [List.map_map] at hsecond

theorem unboundInput_iff (h : f.Renumbers ρ f') :
    f'.UnboundInput (ρ.input input) ↔ f.UnboundInput input := by
  refine and_congr h.input_lt_iff (not_congr ?_)
  rw [h.boundInputs.mem_iff]
  exact List.mem_map_of_injective ρ.input.injective

theorem unboundOutput_iff (h : f.Renumbers ρ f') :
    f'.UnboundOutput (ρ.output output) ↔ f.UnboundOutput output := by
  refine and_congr h.output_lt_iff (not_congr ?_)
  rw [h.boundOutputs.mem_iff]
  exact List.mem_map_of_injective ρ.output.injective

theorem feeds (h : f.Renumbers ρ f') (hfeeds : f.Feeds feeder coder) :
    f'.Feeds (ρ.coder feeder) (ρ.coder coder) := by
  obtain ⟨pair, hpair, hout, hin⟩ := hfeeds
  have hbound : (pair.input.toNat, pair.output.toNat) ∈ f.boundStreams :=
    List.mem_map_of_mem hpair
  obtain ⟨pair', hpair', heq⟩ := List.mem_map.mp (h.mem_boundStreams_iff.mpr hbound)
  obtain ⟨hin', hout'⟩ := Prod.mk.inj heq
  refine ⟨pair', hpair', ?_, ?_⟩
  · rw [hout']
    exact h.hasOutput_iff.mpr hout
  · rw [hin']
    exact h.hasInput_iff.mpr hin

theorem acyclic (h : f.Renumbers ρ f') (hf : f.Acyclic) : f'.Acyclic := by
  intro coder hcycle
  -- under the old numbers it would be a cycle, too
  exact hf (ρ.coder.symm coder) (hcycle.lift ρ.coder.symm fun _ _ => h.symm.feeds)

theorem bindsOnce (h : f.Renumbers ρ f') (hf : f.BindsOnce) : f'.BindsOnce where
  inRange pair hpair := by
    have hbound : (pair.input.toNat, pair.output.toNat) ∈ f'.boundStreams :=
      List.mem_map_of_mem hpair
    -- it is a pair that there was, under new numbers
    obtain ⟨⟨input, output⟩, hold, heq⟩ := List.mem_map.mp (h.boundStreams.mem_iff.mp hbound)
    obtain ⟨old, hmem, hstreams⟩ := List.mem_map.mp hold
    obtain ⟨rfl, rfl⟩ := Prod.mk.inj hstreams
    obtain ⟨hin, hout⟩ := Prod.mk.inj heq
    rw [← hin, ← hout]
    exact ⟨h.input_lt_iff.mpr (hf.inRange old hmem).1, h.output_lt_iff.mpr (hf.inRange old hmem).2⟩
  inputs_nodup := h.boundInputs.nodup_iff.mpr (hf.inputs_nodup.map ρ.input.injective)
  outputs_nodup := h.boundOutputs.nodup_iff.mpr (hf.outputs_nodup.map ρ.output.injective)

theorem packedStreams_eq_nil_iff (h : f.Renumbers ρ f') :
    f'.packedStreams = [] ↔ f.packedStreams = [] := by
  have hlength := congrArg List.length h.packedStreams
  rw [List.length_map, length_numbers, length_numbers] at hlength
  rw [← List.length_eq_zero_iff, hlength, List.length_eq_zero_iff]

theorem unpackSizes_eq_nil_iff (h : f.Renumbers ρ f') :
    f'.unpackSizes = [] ↔ f.unpackSizes = [] := by
  rw [← List.length_eq_zero_iff, h.length_unpackSizes, List.length_eq_zero_iff]

/-- The inputs that are left over are those that were, and the folder lists them as it did. -/
theorem listsUnbound (h : f.Renumbers ρ f') (hf : f.ListsUnbound) : f'.ListsUnbound := by
  rcases hf with ⟨hnone, hunique⟩ | ⟨hnodup, hall⟩
  · left
    exact ⟨h.packedStreams_eq_nil_iff.mpr hnone,
      (ρ.input.existsUnique_congr fun _ => h.unboundInput_iff.symm).mp hunique⟩
  · right
    constructor
    · rw [← List.nodup_map_iff FolderGraph.toNat_injective]
      show (numbers f'.packedStreams).Nodup
      rw [h.packedStreams]
      exact (hnodup.map FolderGraph.toNat_injective).map ρ.input.injective
    · intro input
      -- every input of the other folder is a renumbered one
      obtain ⟨old, rfl⟩ := ρ.input.surjective input
      rw [h.unboundInput_iff, hall, ← List.mem_map, ← List.mem_map]
      show old ∈ numbers f.packedStreams ↔ ρ.input old ∈ numbers f'.packedStreams
      rw [h.packedStreams, List.mem_map_of_injective ρ.input.injective]

/-- **A coder graph** is one under any numbers. -/
theorem isCoderGraph (h : f.Renumbers ρ f') (hf : f.IsCoderGraph) : f'.IsCoderGraph where
  coders := by
    rw [h.length_coders]
    exact hf.coders
  streams c hc := hf.streams c (h.perm.mem_iff.mp hc)
  bindsOnce := h.bindsOnce hf.bindsOnce
  result := (ρ.output.existsUnique_congr fun _ => h.unboundOutput_iff.symm).mp hf.result
  listsUnbound := h.listsUnbound hf.listsUnbound
  unpackSizes := by
    rw [h.unpackSizes_eq_nil_iff, h.length_unpackSizes, h.totalOutputs_eq]
    exact hf.unpackSizes
  acyclic := h.acyclic hf.acyclic

/-! ### The two graphs -/

variable {g g' : FolderGraph} (h : f.Renumbers ρ f') (hf : f.IsCoderGraph)

include h

/-- What feeds an input is the same. -/
theorem boundOutput?_eq (hb : f.BindsOnce) (input : Nat) :
    f'.boundOutput? (ρ.input input) = (f.boundOutput? input).map ρ.output := by
  have hmem : ∀ {f : Folder}, f.BindsOnce → ∀ {input output : Nat},
      f.boundOutput? input = some output ↔ (input, output) ∈ f.boundStreams := by
    intro f hb input output
    rw [hb.boundOutput?_eq_some_iff, Folder.boundStreams, List.mem_map]
    simp only [Prod.mk.injEq]
  ext output
  obtain ⟨old, rfl⟩ := ρ.output.surjective output
  rw [hmem (h.bindsOnce hb), h.mem_boundStreams_iff, ← hmem hb, Option.map_eq_some_iff]
  simp only [EmbeddingLike.apply_eq_iff_eq, exists_eq_right]

variable (hg : g.Describes f) (hg' : g'.Describes f')

include hg hg'

theorem finalOutput_eq : g'.finalOutput = ρ.output g.finalOutput := by
  refine ((hg'.finalOutput _).mp ?_).symm
  exact h.unboundOutput_iff.mpr ((hg.finalOutput _).mpr rfl)

theorem coderOfOutput_eq (hout : f.HasOutput coder output) :
    g'.coderOfOutput (ρ.output output) = ρ.coder (g.coderOfOutput output) := by
  rw [hg.coderOfOutput_eq hout, hg'.coderOfOutput_eq (h.hasOutput_iff.mpr hout)]

include hf

/-- The packed inputs come in the same order. -/
theorem packedInputs_eq : g'.packedInputs = g.packedInputs.map ρ.input := by
  by_cases hnone : f.packedStreams = []
  · -- there is only one on either side
    obtain ⟨input, hinput, hunbound⟩ := hg.packedInputs_single hf hnone
    obtain ⟨input', hinput', hunbound'⟩ :=
      hg'.packedInputs_single (h.isCoderGraph hf) (h.packedStreams_eq_nil_iff.mpr hnone)
    have hsame : ρ.input input = input' :=
      (hunbound' _).mp (h.unboundInput_iff.mpr ((hunbound input).mpr rfl))
    rw [hinput, hinput', List.map_singleton, hsame]
  · rw [hg.packedInputs.listed hnone,
      hg'.packedInputs.listed (mt h.packedStreams_eq_nil_iff.mp hnone)]
    exact h.packedStreams

theorem packedPosition?_eq (input : Nat) :
    g'.packedPosition? (ρ.input input) = g.packedPosition? input := by
  rw [FolderGraph.packedPosition?, FolderGraph.packedPosition?, h.packedInputs_eq hf hg hg',
    List.findIdx?_map]
  congr 1
  ext other
  simp only [Function.comp_apply, EmbeddingLike.apply_eq_iff_eq]

end Renumbers

/-! ### Coders in another order -/

section

variable (f : Folder) (σ : Equiv.Perm (Fin f.coders.length))

/-- The coders in another order: the coder `σ place` comes to each place. -/
def reordered : List Coder := List.ofFn fun place => f.coders.get (σ place)

/-- The place that each coder comes to. -/
def newPlace : Equiv.Perm ℕ :=
  Equiv.Perm.extendDomain σ.symm Fin.equivSubtype

theorem reordered_perm : (f.reordered σ).Perm f.coders := by
  have hperm := Equiv.Perm.ofFn_comp_perm σ f.coders.get
  rwa [List.ofFn_get] at hperm

theorem getElem?_reordered (k : Nat) : (f.reordered σ)[f.newPlace σ k]? = f.coders[k]? := by
  rcases Nat.lt_or_ge k f.coders.length with hk | hk
  · have hplace : f.newPlace σ k = σ.symm ⟨k, hk⟩ :=
      Equiv.Perm.extendDomain_apply_image σ.symm Fin.equivSubtype ⟨k, hk⟩
    rw [hplace, reordered, List.getElem?_ofFn, dif_pos (σ.symm ⟨k, hk⟩).isLt, Fin.eta,
      Equiv.apply_symm_apply]
    exact (List.getElem?_eq_getElem hk).symm
  · have hplace : f.newPlace σ k = k :=
      Equiv.Perm.extendDomain_apply_not_subtype σ.symm Fin.equivSubtype (Nat.not_lt.mpr hk)
    rw [hplace, List.getElem?_eq_none hk, List.getElem?_eq_none]
    rwa [(f.reordered_perm σ).length_eq]

/-- The numbers of streams of each coder come to its new place. -/
theorem getElem?_map_reordered (count : Coder → Nat) (k : Nat) :
    ((f.reordered σ).map count)[f.newPlace σ k]? = (f.coders.map count)[k]? := by
  rw [List.getElem?_map, getElem?_reordered, List.getElem?_map]

theorem sum_map_reordered (count : Coder → Nat) :
    ((f.reordered σ).map count).sum = (f.coders.map count).sum :=
  ((f.reordered_perm σ).map count).sum_eq

/-- The new numbers of streams of which each coder has as many as `count` says. -/
def permStreams (count : Coder → Nat) : Equiv.Perm ℕ :=
  permRuns (f.getElem?_map_reordered σ count) (f.sum_map_reordered σ count)

/-- The new numbers. -/
def renumbering : Renumbering where
  coder := f.newPlace σ
  input := f.permStreams σ fun c => c.inputs.toNat
  output := f.permStreams σ fun c => c.outputs.toNat

/-- The folder with its coders in another order and all streams under their new numbers. Numbers
that are not those of streams are left alone, and so are the sizes if there is not one for each
output. -/
def renumber : Folder where
  coders := f.reordered σ
  bindPairs := f.bindPairs.map fun pair =>
    { input := UInt64.ofNat ((f.renumbering σ).input pair.input.toNat)
      output := UInt64.ofNat ((f.renumbering σ).output pair.output.toNat) }
  packedStreams := f.packedStreams.map fun stream =>
    UInt64.ofNat ((f.renumbering σ).input stream.toNat)
  unpackSizes :=
    if f.unpackSizes.length = f.totalOutputs then
      (List.range f.totalOutputs).map fun output =>
        f.unpackSizes.getD ((f.renumbering σ).output.symm output) 0
    else f.unpackSizes
  unpackCrc := f.unpackCrc

variable {f σ} {pairs : List BindPair}

theorem movesRuns_permStreams (count : Coder → Nat) :
    MovesRuns (f.coders.map count) ((f.reordered σ).map count) (f.newPlace σ)
      (f.permStreams σ count) := movesRuns_permRuns _ _

theorem permStreams_lt_iff {count : Coder → Nat} {stream : Nat} :
    f.permStreams σ count stream < (f.coders.map count).sum ↔
      stream < (f.coders.map count).sum := by
  have hiff := (movesRuns_permStreams (σ := σ) count).lt_sum_iff (i := stream)
  rwa [sum_map_reordered] at hiff

/-- The new number of a stream is a word if there are no more streams than words. -/
theorem toNat_permStreams {count : Coder → Nat} (hword : (f.coders.map count).sum ≤ 2 ^ 64)
    (stream : UInt64) : (UInt64.ofNat (f.permStreams σ count stream.toNat)).toNat =
      f.permStreams σ count stream.toNat :=
  UInt64.toNat_ofNat_of_lt' (permRuns_lt _ _ hword stream.toNat_lt)

/-- **Coders in another order.** The folder with its coders in another order is the same under new
numbers, if the numbers of all streams are words. -/
theorem renumber_renumbers (hin : f.inputCounts.sum ≤ 2 ^ 64) (hout : f.outputCounts.sum ≤ 2 ^ 64)
    (hpairs : pairs.Perm (f.renumber σ).bindPairs) :
    f.Renumbers (f.renumbering σ) { f.renumber σ with bindPairs := pairs } where
  perm := f.reordered_perm σ
  coder := f.getElem?_reordered σ
  input := movesRuns_permStreams _
  output := movesRuns_permStreams _
  boundStreams := by
    have hmapped := hpairs.map fun pair => (pair.input.toNat, pair.output.toNat)
    have hnew : (f.renumber σ).boundStreams =
        f.boundStreams.map (Prod.map (f.renumbering σ).input (f.renumbering σ).output) := by
      rw [boundStreams, boundStreams, renumber, List.map_map, List.map_map]
      refine List.map_congr_left fun pair _ => ?_
      exact Prod.ext (toNat_permStreams hin pair.input) (toNat_permStreams hout pair.output)
    exact hmapped.trans (.of_eq hnew)
  packedStreams := by
    show numbers (f.renumber σ).packedStreams = _
    rw [numbers, numbers, renumber, List.map_map, List.map_map]
    exact List.map_congr_left fun stream _ => toNat_permStreams hin stream
  length_unpackSizes := by
    show (f.renumber σ).unpackSizes.length = _
    rw [renumber]
    dsimp only
    split
    · next hlength => rw [List.length_map, List.length_range, hlength]
    · rfl
  unpackSize hlength output := by
    show (f.renumber σ).unpackSizes[(f.renumbering σ).output output]? = _
    have hlt : (f.renumbering σ).output output < f.totalOutputs ↔ output < f.totalOutputs := by
      rw [← sum_outputCounts]
      exact permStreams_lt_iff
    rw [renumber]
    dsimp only
    rw [if_pos hlength, List.getElem?_map]
    by_cases hout : output < f.totalOutputs
    · -- the size for the new number is the one at the old number
      rw [List.getElem?_range (hlt.mpr hout), Option.map_some, Equiv.symm_apply_apply,
        List.getD_eq_getElem _ _ (hlength ▸ hout), List.getElem?_eq_getElem (hlength ▸ hout)]
    · -- and behind the last output there is none on either side
      rw [List.getElem?_eq_none (hlength.trans_le (Nat.not_lt.mp hout)), List.getElem?_eq_none]
      · rfl
      · rw [List.length_range]
        exact Nat.not_lt.mp (mt hlt.mp hout)
  unpackCrc := rfl

/-- A coder graph has few streams. -/
theorem IsCoderGraph.sum_le (h : f.IsCoderGraph) :
    f.inputCounts.sum ≤ 2 ^ 64 ∧ f.outputCounts.sum ≤ 2 ^ 64 := by
  have hsum : ∀ counts : List Nat, counts.length = f.coders.length → (∀ n ∈ counts, n ≤ 64) →
      counts.sum ≤ 2 ^ 64 := by
    intro counts hlength hcounts
    have hle := List.sum_le_card_nsmul counts 64 hcounts
    have hfew := h.coders.2
    rw [hlength, smul_eq_mul] at hle
    omega
  constructor
  · exact hsum _ f.length_inputCounts (List.forall_mem_map.mpr fun c hc => (h.streams c hc).1.2)
  · exact hsum _ f.length_outputCounts (List.forall_mem_map.mpr fun c hc => (h.streams c hc).2.2)

/-- **The order of the coders** has no part in whether a folder is a coder graph. -/
theorem renumber_isCoderGraph_iff (hpairs : pairs.Perm (f.renumber σ).bindPairs) :
    ({ f.renumber σ with bindPairs := pairs } : Folder).IsCoderGraph ↔ f.IsCoderGraph := by
  constructor
  · intro h
    obtain ⟨hin, hout⟩ := h.sum_le
    -- there are as many streams as before
    have hin' : f.inputCounts.sum ≤ 2 ^ 64 := (f.sum_map_reordered σ _).symm.trans_le hin
    have hout' : f.outputCounts.sum ≤ 2 ^ 64 := (f.sum_map_reordered σ _).symm.trans_le hout
    exact (renumber_renumbers hin' hout' hpairs).symm.isCoderGraph h
  · intro h
    obtain ⟨hin, hout⟩ := h.sum_le
    exact (renumber_renumbers hin hout hpairs).isCoderGraph h

end

end Folder

end SolidArchive
