import SolidArchive.Proofs.Folder.Grammar

/-!
# Upstream of a coder

The evaluation of a folder goes from the coder of the final output up to the coders that feed it,
and on to those that feed these. Three facts about the way up are what a folder's being a coder
graph comes to for it.

* It ends: the coders upstream of a feeder are fewer than those upstream of the coder that it feeds
  (`Acyclic.card_upstream_lt`), and there are never as many as there are coders.
* It misses nothing: from every coder a way down leads to the final output
  (`IsCoderGraph.reaches_result`). A coder whose outputs are all bound feeds another one, and only
  one output is not bound.
* Every input on it has a source: an input that no output feeds has a place among the packed inputs
  (`PackedInputs.exists_position`).
-/

namespace SolidArchive

open Relation

namespace Folder

variable {f : Folder} {coder feeder input output : Nat}

/-! ### How much is upstream -/

open scoped Classical in
/-- The coders that have to run before a coder. -/
noncomputable def upstream (f : Folder) (coder : Nat) : Finset Nat :=
  (Finset.range f.coders.length).filter fun c => TransGen f.Feeds c coder

theorem lt_of_transGen_feeds (h : TransGen f.Feeds feeder coder) : feeder < f.coders.length := by
  obtain ⟨next, hfeeds, -⟩ := TransGen.head'_iff.mp h
  exact hfeeds.feeder_lt

theorem mem_upstream : feeder ∈ f.upstream coder ↔ TransGen f.Feeds feeder coder := by
  classical
  rw [upstream, Finset.mem_filter, Finset.mem_range]
  exact and_iff_right_of_imp lt_of_transGen_feeds

theorem upstream_subset_range (f : Folder) (coder : Nat) :
    f.upstream coder ⊆ Finset.range f.coders.length := by
  intro c hc
  exact Finset.mem_range.mpr (lt_of_transGen_feeds (mem_upstream.mp hc))

theorem Acyclic.card_upstream_lt (h : f.Acyclic) (hfeeds : f.Feeds feeder coder) :
    (f.upstream feeder).card < (f.upstream coder).card := by
  apply Finset.card_lt_card
  rw [Finset.ssubset_iff_of_subset]
  · -- the feeder itself is upstream of the coder, but not of itself
    refine ⟨feeder, ?_, ?_⟩
    · rw [mem_upstream]
      exact TransGen.single hfeeds
    · rw [mem_upstream]
      exact h feeder
  · intro c hc
    rw [mem_upstream] at hc ⊢
    exact hc.tail hfeeds

/-- A coder is not upstream of itself, so the others are all that can be. -/
theorem Acyclic.card_upstream_lt_length (h : f.Acyclic) (hlt : coder < f.coders.length) :
    (f.upstream coder).card < f.coders.length := by
  have hcard : (f.upstream coder).card < (Finset.range f.coders.length).card := by
    apply Finset.card_lt_card
    rw [Finset.ssubset_iff_of_subset (f.upstream_subset_range coder)]
    refine ⟨coder, Finset.mem_range.mpr hlt, ?_⟩
    rw [mem_upstream]
    exact h coder
  rwa [Finset.card_range] at hcard

/-! ### The way down to the result -/

/-- Every input stream belongs to a coder. -/
theorem exists_hasInput (h : input < f.totalInputs) : ∃ coder, f.HasInput coder input := by
  rw [← sum_inputCounts] at h
  exact exists_inRun h

theorem HasOutput.lt_totalOutputs (h : f.HasOutput coder output) : output < f.totalOutputs := by
  rw [← sum_outputCounts]
  exact h.lt_sum

theorem HasOutput.coder_lt (h : f.HasOutput coder output) : coder < f.coders.length := by
  have hlt := h.1
  rwa [length_outputCounts] at hlt

/-- A coder with one output has no other one. -/
theorem HasOutput.unique_of_single {c : Coder} {other : Nat} (hc : f.coders[coder]? = some c)
    (hsingle : c.outputs = 1) (h : f.HasOutput coder output) (h' : f.HasOutput coder other) :
    output = other := by
  have hnext := runStart_succ (getElem?_outputCounts hc)
  have hone : c.outputs.toNat = 1 := congrArg UInt32.toNat hsingle
  obtain ⟨-, hle, hlt⟩ := h
  obtain ⟨-, hle', hlt'⟩ := h'
  omega

/-- A coder whose first output is bound feeds another one. -/
theorem IsCoderGraph.unboundOutput_or_feeds (h : f.IsCoderGraph) (hlt : coder < f.coders.length) :
    (∃ output, f.HasOutput coder output ∧ f.UnboundOutput output) ∨ ∃ next, f.Feeds coder next := by
  have hc := List.getElem?_eq_getElem hlt
  have hout : f.HasOutput coder (runStart f.outputCounts coder) :=
    inRun_start (getElem?_outputCounts hc) (h.streams _ (List.mem_of_getElem? hc)).2.1
  by_cases hbound : runStart f.outputCounts coder ∈ f.boundOutputs
  · -- the bind pair that names it leads to an input of another coder
    right
    obtain ⟨pair, hmem, hpair⟩ := List.mem_map.mp hbound
    obtain ⟨next, hnext⟩ := exists_hasInput (h.bindsOnce.inRange pair hmem).1
    refine ⟨next, pair, hmem, ?_, hnext⟩
    rw [hpair]
    exact hout
  · left
    exact ⟨_, hout, hout.lt_totalOutputs, hbound⟩

/-- **Nothing is left out.** Every coder is the one of the final output or upstream of it. -/
theorem IsCoderGraph.reaches_result (h : f.IsCoderGraph) {result owner : Nat}
    (hresult : f.UnboundOutput result) (howner : f.HasOutput owner result)
    (hlt : coder < f.coders.length) : ReflTransGen f.Feeds coder owner := by
  -- on the way down more and more coders are upstream, and there are only so many
  induction hn : f.coders.length - (f.upstream coder).card using Nat.strong_induction_on
    generalizing coder with
  | _ n ih =>
    rcases h.unboundOutput_or_feeds hlt with ⟨output, hout, hunbound⟩ | ⟨next, hfeeds⟩
    · -- the only output left over is the result
      obtain rfl : output = result := h.result.unique hunbound hresult
      obtain rfl : coder = owner := hout.unique howner
      exact ReflTransGen.refl
    · have hmore := h.acyclic.card_upstream_lt hfeeds
      have hmost := h.acyclic.card_upstream_lt_length hfeeds.coder_lt
      have hless : f.coders.length - (f.upstream next).card < n := by omega
      exact ReflTransGen.head hfeeds (ih _ hless hfeeds.coder_lt rfl)

/-! ### The sources of the inputs -/

theorem boundOutput?_eq_none_iff : f.boundOutput? input = none ↔ input ∉ f.boundInputs := by
  rw [boundOutput?, Option.map_eq_none_iff, List.find?_eq_none, boundInputs, List.mem_map]
  simp

/-- An output that feeds an input of a coder is one of a coder that feeds this coder. -/
theorem BindsOnce.feeds_of_boundOutput? (h : f.BindsOnce) (hin : f.HasInput coder input)
    (hbound : f.boundOutput? input = some output) :
    ∃ feeder, f.HasOutput feeder output ∧ f.Feeds feeder coder := by
  obtain ⟨pair, hmem, rfl, rfl⟩ := h.boundOutput?_eq_some_iff.mp hbound
  obtain ⟨feeder, hout⟩ := exists_hasOutput (h.inRange pair hmem).2
  exact ⟨feeder, hout, pair, hmem, hout, hin⟩

end Folder

namespace FolderGraph

variable {f : Folder} {g : FolderGraph} {coder input : Nat}

/-- An input that is read from the pack region has a place there, and it is found. -/
theorem PackedInputs.exists_position (h : PackedInputs f g.packedInputs)
    (hunbound : f.UnboundInput input) :
    ∃ position, g.packedPosition? input = some position ∧
      g.packedInputs[position]? = some input := by
  have hmem := (h.mem_iff input).mpr hunbound
  have hsome : (g.packedInputs.findIdx? (· = input)).isSome := by
    rw [List.findIdx?_isSome, List.any_eq_true]
    exact ⟨input, hmem, by simp⟩
  obtain ⟨position, hposition⟩ := Option.isSome_iff_exists.mp hsome
  obtain ⟨hlt, hin, -⟩ := List.findIdx?_eq_some_iff_getElem.mp hposition
  refine ⟨position, hposition, ?_⟩
  rw [List.getElem?_eq_getElem hlt, of_decide_eq_true hin]

end FolderGraph

end SolidArchive
