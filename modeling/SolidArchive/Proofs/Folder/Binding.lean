import SolidArchive.Proofs.Folder.Streams
import SolidArchive.Proofs.Verdict

/-!
# Bound and unbound streams

The resolver marks the bound streams in tables, looks for the unmarked ones, and counts them. Here
the tables are said as what they are, `markTable` of a list of streams, and the steps on them are
shown to decide statements about the bind pairs themselves:

* `markBound_decides` — no stream is bound twice and none is out of range;
* `findFinalOutput_decides` — one output is left over;
* `findPackedInputs_decides` — the packed streams are just the inputs left over.

The last one is an argument by counting. The resolver only finds out that as many streams are listed
as are left over, that each of them is left over, and that none is listed twice; a list of that
length without repetition in the unbound inputs is all of them.
-/

namespace SolidArchive

variable {n m i : Nat} {bound : List Nat}

/-! ### Tables of marks -/

/-- The table of `n` streams in which just those of `bound` are marked. -/
def markTable (n : Nat) (bound : List Nat) : List Bool :=
  (List.range n).map fun i => decide (i ∈ bound)

@[simp] theorem length_markTable (n : Nat) (bound : List Nat) :
    (markTable n bound).length = n := by
  simp [markTable]

theorem getElem?_markTable (hi : i < n) :
    (markTable n bound)[i]? = some (decide (i ∈ bound)) := by
  rw [markTable, List.getElem?_map, List.getElem?_range hi]
  rfl

theorem replicate_false_eq_markTable (n : Nat) : List.replicate n false = markTable n [] := by
  simp [markTable, List.map_const']

theorem set_markTable (n : Nat) (bound : List Nat) (i : Nat) :
    (markTable n bound).set i true = markTable n (i :: bound) := by
  refine List.ext_getElem? fun j => ?_
  by_cases hj : j < n
  · by_cases hij : i = j
    · subst hij
      rw [List.getElem?_set_self (by simpa using hj), getElem?_markTable hj]
      simp
    · rw [List.getElem?_set_ne hij, getElem?_markTable hj, getElem?_markTable hj]
      have hji : j ≠ i := fun h => hij h.symm
      simp [hji]
  · rw [List.getElem?_eq_none (by simpa using hj), List.getElem?_eq_none (by simpa using hj)]

namespace FolderGraph

/-- The unmarked streams are those of the range that are not bound. -/
theorem unmarked_markTable (n : Nat) (bound : List Nat) :
    unmarked (markTable n bound) = (List.range n).filter fun i => decide (i ∉ bound) := by
  rw [unmarked, length_markTable]
  refine List.filter_congr fun i hi => ?_
  rw [List.getD_eq_getElem?_getD, getElem?_markTable (List.mem_range.mp hi)]
  simp

theorem mem_unmarked : i ∈ unmarked (markTable n bound) ↔ i < n ∧ i ∉ bound := by
  rw [unmarked_markTable, List.mem_filter, List.mem_range, decide_eq_true_iff]

theorem nodup_unmarked : (unmarked (markTable n bound)).Nodup := by
  rw [unmarked_markTable]
  exact List.nodup_range.filter _

/-- What is not bound and what is bound make up the range. -/
theorem length_unmarked_add (hnodup : bound.Nodup) (hrange : ∀ i ∈ bound, i < n) :
    (unmarked (markTable n bound)).length + bound.length = n := by
  -- the part of the range that is bound is the bound list in another order
  have hperm : ((List.range n).filter fun i => decide (i ∈ bound)).Perm bound := by
    rw [List.perm_ext_iff_of_nodup (List.nodup_range.filter _) hnodup]
    intro i
    rw [List.mem_filter, List.mem_range, decide_eq_true_iff]
    exact ⟨And.right, fun hi => ⟨hrange i hi, hi⟩⟩
  have hsplit := List.length_eq_length_filter_add (l := List.range n)
    fun i => decide (i ∈ bound)
  have hnot : (fun i => !decide (i ∈ bound)) = fun i => decide (i ∉ bound) := by
    funext i
    rw [decide_not]
  rw [List.length_range, hperm.length_eq, hnot, ← unmarked_markTable] at hsplit
  omega

/-! ### Bind pairs -/

/-- Marking goes through when every stream is in range and is named once. -/
theorem markBound_decides (pairs : List BindPair) {ins outs : List Nat}
    (hins : ins.Nodup) (houts : outs.Nodup) :
    Decides True
      ((∀ pair ∈ pairs, pair.input.toNat < n ∧ pair.output.toNat < m) ∧
        (pairs.map (fun pair => pair.input.toNat) ++ ins).Nodup ∧
        (pairs.map (fun pair => pair.output.toNat) ++ outs).Nodup)
      (fun tables => ∃ ins' outs', tables = (markTable n ins', markTable m outs') ∧
        (∀ i, i ∈ ins' ↔ i ∈ pairs.map (fun pair => pair.input.toNat) ∨ i ∈ ins) ∧
        ∀ o, o ∈ outs' ↔ o ∈ pairs.map (fun pair => pair.output.toNat) ∨ o ∈ outs)
      (markBound pairs (markTable n ins) (markTable m outs)) := by
  induction pairs generalizing ins outs with
  | nil => exact Decides.pure (by simpa using ⟨hins, houts⟩) ⟨ins, outs, rfl, by simp, by simp⟩
  | cons pair pairs ih =>
    rw [markBound]
    simp only [length_markTable, List.map_cons, List.cons_append, List.nodup_cons,
      List.mem_append, List.forall_mem_cons]
    -- both streams are in range
    refine Decides.guard rfl trivial (fun hin h => by omega) fun hin => ?_
    refine Decides.guard rfl trivial (fun hout h => by omega) fun hout => ?_
    -- and neither is marked yet
    refine Decides.step_eq (Decides.lookup (getElem?_markTable (by omega))) ?_
    refine Decides.guard rfl trivial (fun hbound h => h.2.1.1 (.inr (by simpa using hbound)))
      fun hnewIn => ?_
    refine Decides.step_eq (Decides.lookup (getElem?_markTable (by omega))) ?_
    refine Decides.guard rfl trivial (fun hbound h => h.2.2.1 (.inr (by simpa using hbound)))
      fun hnewOut => ?_
    rw [set_markTable, set_markTable]
    have hnewIn' : pair.input.toNat ∉ ins := by simpa using hnewIn
    have hnewOut' : pair.output.toNat ∉ outs := by simpa using hnewOut
    refine (ih (List.nodup_cons.mpr ⟨hnewIn', hins⟩)
      (List.nodup_cons.mpr ⟨hnewOut', houts⟩)).congr ?_ ?_
    · -- the pair moves from the pairs to come to the streams marked
      simp only [List.nodup_middle, List.nodup_cons, List.mem_append]
      refine ⟨?_, ?_⟩
      · rintro ⟨hrange, hin, hout⟩
        exact ⟨⟨by omega, hrange⟩, hin, hout⟩
      · rintro ⟨⟨-, hrange⟩, hin, hout⟩
        exact ⟨hrange, hin, hout⟩
    · rintro tables - ⟨ins', outs', rfl, hin, hout⟩
      refine ⟨ins', outs', rfl, ?_, ?_⟩
      · intro i
        rw [hin, List.mem_cons, List.mem_cons]
        tauto
      · intro o
        rw [hout, List.mem_cons, List.mem_cons]
        tauto

variable {f : Folder}

theorem markTable_congr {bound' : List Nat} (h : ∀ i, i ∈ bound ↔ i ∈ bound') :
    markTable n bound = markTable n bound' := by
  rw [markTable, markTable]
  exact List.map_congr_left fun i _ => by simp only [h]

/-- **Bind pairs.** Marking the streams of a folder goes through just when its bind pairs bind every
stream once at most, and marks the bound ones. -/
theorem markBound_folder_decides (f : Folder) :
    Decides True f.BindsOnce
      (· = (markTable f.totalInputs f.boundInputs, markTable f.totalOutputs f.boundOutputs))
      (markBound f.bindPairs (List.replicate f.totalInputs false)
        (List.replicate f.totalOutputs false)) := by
  rw [replicate_false_eq_markTable, replicate_false_eq_markTable]
  refine (markBound_decides f.bindPairs List.nodup_nil List.nodup_nil).congr ?_ ?_
  · rw [List.append_nil, List.append_nil]
    exact ⟨fun h => ⟨h.1, h.2.1, h.2.2⟩, fun h => ⟨h.inRange, h.inputs_nodup, h.outputs_nodup⟩⟩
  · rintro tables - ⟨ins, outs, rfl, hin, hout⟩
    simp only [List.not_mem_nil, or_false] at hin hout
    rw [markTable_congr hin, markTable_congr hout]
    rfl

/-! ### The output that is left over -/

theorem existsUnique_mem_iff {l : List Nat} (h : l.Nodup) : (∃! a, a ∈ l) ↔ ∃ a, l = [a] := by
  refine ⟨?_, ?_⟩
  · -- without repetition, having one member is being a list of one
    rintro ⟨a, ha, hunique⟩
    refine ⟨a, List.perm_singleton.mp ?_⟩
    rw [List.perm_ext_iff_of_nodup h (List.nodup_singleton a)]
    intro b
    rw [List.mem_singleton]
    exact ⟨fun hb => hunique b hb, fun hb => hb ▸ ha⟩
  · rintro ⟨a, rfl⟩
    exact ⟨a, List.mem_singleton_self a, fun b hb => List.mem_singleton.mp hb⟩

theorem mem_unmarked_inputs {input : Nat} :
    input ∈ unmarked (markTable f.totalInputs f.boundInputs) ↔ f.UnboundInput input :=
  mem_unmarked

/-- One input alone is left over when the marks leave one. -/
theorem existsUnique_unboundInput_iff :
    (∃! input, f.UnboundInput input) ↔
      (unmarked (markTable f.totalInputs f.boundInputs)).length = 1 := by
  rw [List.length_eq_one_iff, ← existsUnique_mem_iff nodup_unmarked]
  simp only [mem_unmarked_inputs]

theorem mem_unmarked_outputs {output : Nat} :
    output ∈ unmarked (markTable f.totalOutputs f.boundOutputs) ↔ f.UnboundOutput output :=
  mem_unmarked

/-- **The result.** The final output is found just when one output is left over. -/
theorem findFinalOutput_decides (f : Folder) :
    Decides True (∃! output, f.UnboundOutput output)
      (fun final => ∀ output, f.UnboundOutput output ↔ output = final)
      (findFinalOutput (markTable f.totalOutputs f.boundOutputs)) := by
  have hnodup : (unmarked (markTable f.totalOutputs f.boundOutputs)).Nodup := nodup_unmarked
  have hone := existsUnique_mem_iff hnodup
  simp only [mem_unmarked_outputs] at hone
  rw [hone, findFinalOutput]
  split
  · next hnone => exact Decides.refuse rfl trivial fun ⟨a, ha⟩ => by simp [hnone] at ha
  · next final hfinal =>
    refine ⟨⟨final, hfinal⟩, fun output => ?_⟩
    rw [← mem_unmarked_outputs, hfinal, List.mem_singleton]
  · next hmany => exact Decides.refuse rfl trivial fun ⟨a, ha⟩ => hmany a ha

/-! ### The inputs that are left over -/

/-- Every stream that is listed has to be in range and unbound, and none may be listed twice. -/
theorem checkPacked_decides (listed : List UInt64) {used : List Nat} (hused : used.Nodup) :
    Decides True
      ((∀ stream ∈ listed, stream.toNat < n ∧ stream.toNat ∉ bound) ∧
        (listed.map UInt64.toNat ++ used).Nodup)
      (fun _ => True) (checkPacked listed (markTable n bound) (markTable n used)) := by
  induction listed generalizing used with
  | nil => exact Decides.pure (by simpa using hused) trivial
  | cons stream listed ih =>
    rw [checkPacked]
    simp only [length_markTable, List.map_cons, List.cons_append, List.nodup_cons,
      List.mem_append, List.forall_mem_cons]
    refine Decides.guard rfl trivial (fun hout h => by omega) fun hout => ?_
    refine Decides.step_eq (Decides.lookup (getElem?_markTable (by omega))) ?_
    refine Decides.guard rfl trivial (fun hbound h => h.1.1.2 (by simpa using hbound))
      fun hunbound => ?_
    refine Decides.step_eq (Decides.lookup (getElem?_markTable (by omega))) ?_
    refine Decides.guard rfl trivial (fun hused h => h.2.1 (.inr (by simpa using hused)))
      fun hnew => ?_
    rw [set_markTable]
    have hunbound' : stream.toNat ∉ bound := by simpa using hunbound
    have hnew' : stream.toNat ∉ used := by simpa using hnew
    refine (ih (List.nodup_cons.mpr ⟨hnew', hused⟩)).congr ?_ fun _ _ _ => trivial
    simp only [List.nodup_middle, List.nodup_cons, List.mem_append]
    -- what the rest asks of its streams, with the first one among those that are used
    refine ⟨?_, ?_⟩
    · rintro ⟨hrange, hlisted⟩
      exact ⟨⟨⟨by omega, hunbound'⟩, hrange⟩, hlisted⟩
    · rintro ⟨⟨-, hrange⟩, hlisted⟩
      exact ⟨hrange, hlisted⟩

/-- The inputs that a folder reads from the pack region, in the order of the pack streams. -/
structure PackedInputs (f : Folder) (inputs : List Nat) : Prop where
  listed : f.packedStreams ≠ [] → inputs = f.packedStreams.map UInt64.toNat
  nodup : inputs.Nodup
  mem_iff : ∀ input, input ∈ inputs ↔ f.UnboundInput input

/-- The inputs of a folder are those that are left over and those that are bound. -/
theorem length_unmarked_inputs_add (hb : f.BindsOnce) :
    (unmarked (markTable f.totalInputs f.boundInputs)).length + f.bindPairs.length =
      f.totalInputs := by
  have hrange : ∀ input ∈ f.boundInputs, input < f.totalInputs := by
    intro input hin
    obtain ⟨pair, hmem, rfl⟩ := List.mem_map.mp hin
    exact (hb.inRange pair hmem).1
  have hcount := length_unmarked_add hb.inputs_nodup hrange
  rwa [Folder.boundInputs, List.length_map] at hcount

/-- A list without repetition in the unbound inputs is as long as there are of them just when it is
all of them. -/
theorem length_eq_iff_unboundInput {inputs : List Nat} (hnodup : inputs.Nodup)
    (hsub : ∀ input ∈ inputs, f.UnboundInput input) :
    inputs.length = (unmarked (markTable f.totalInputs f.boundInputs)).length ↔
      ∀ input, input ∈ inputs ↔ f.UnboundInput input := by
  refine ⟨?_, ?_⟩
  · -- a part as long as the whole
    intro hlength input
    have hsubperm := hnodup.subperm fun i hi => mem_unmarked_inputs.mpr (hsub i hi)
    rw [(hsubperm.perm_of_length_le hlength.ge).mem_iff, mem_unmarked_inputs]
  · intro hmem
    refine List.Perm.length_eq ?_
    rw [List.perm_ext_iff_of_nodup hnodup nodup_unmarked]
    intro input
    rw [hmem, mem_unmarked_inputs]

/-- As many inputs are read from the pack region as are not bound. -/
theorem PackedInputs.length_add {inputs : List Nat} (h : PackedInputs f inputs)
    (hb : f.BindsOnce) : inputs.length + f.bindPairs.length = f.totalInputs := by
  rw [(length_eq_iff_unboundInput h.nodup fun i hi => (h.mem_iff i).mp hi).mpr h.mem_iff]
  exact length_unmarked_inputs_add hb

theorem toNat_injective : Function.Injective UInt64.toNat := fun _ _ h => UInt64.toNat_inj.mp h

/-- The streams that are listed, if any are, have to be the unbound inputs. -/
theorem listsUnbound_iff (h : f.packedStreams ≠ []) :
    f.ListsUnbound ↔ (f.packedStreams.map UInt64.toNat).Nodup ∧
      ∀ input, input ∈ f.packedStreams.map UInt64.toNat ↔ f.UnboundInput input := by
  rw [List.nodup_map_iff toNat_injective]
  simp only [List.mem_map]
  refine ⟨?_, ?_⟩
  · rintro (⟨hnone, -⟩ | ⟨hnodup, hall⟩)
    · exact absurd hnone h
    · exact ⟨hnodup, fun input => (hall input).symm⟩
  · rintro ⟨hnodup, hall⟩
    exact .inr ⟨hnodup, fun input => (hall input).symm⟩

/-- **The packed inputs.** They are found just when something is left to read and the packed streams
are what is left. -/
theorem findPackedInputs_decides (hb : f.BindsOnce) :
    Decides True ((∃ input, f.UnboundInput input) ∧ f.ListsUnbound) (PackedInputs f)
      (findPackedInputs f (markTable f.totalInputs f.boundInputs)) := by
  have hcount := length_unmarked_inputs_add hb
  have hleft : f.totalInputs - f.bindPairs.length =
      (unmarked (markTable f.totalInputs f.boundInputs)).length := by omega
  rw [findPackedInputs, length_markTable]
  refine Decides.step_eq (Decides.sub (by omega)) ?_
  rw [hleft]
  refine Decides.guard rfl trivial ?_ fun hsome => ?_
  · -- refused when nothing is left to read
    rintro hnone ⟨⟨input, hin⟩, -⟩
    rw [← mem_unmarked_inputs, List.length_eq_zero_iff.mp hnone] at hin
    exact absurd hin List.not_mem_nil
  by_cases hlisted : f.packedStreams = []
  · -- none is listed, and there has to be one only
    rw [if_pos hlisted]
    refine Decides.guard rfl trivial ?_ fun hlength => ?_
    · rintro hlength ⟨⟨input, hin⟩, hlists⟩
      rcases hlists with ⟨-, hunique⟩ | ⟨-, hall⟩
      · exact hlength (existsUnique_unboundInput_iff.mp hunique)
      · obtain ⟨stream, hmem, -⟩ := (hall input).mp hin
        rw [hlisted] at hmem
        exact absurd hmem List.not_mem_nil
    · obtain ⟨input, hinput⟩ := List.length_eq_one_iff.mp (not_not.mp hlength)
      have hunique := existsUnique_unboundInput_iff.mpr (not_not.mp hlength)
      refine Decides.pure ⟨hunique.exists, .inl ⟨hlisted, hunique⟩⟩ ⟨absurd hlisted, ?_, ?_⟩
      · rw [hinput]
        exact List.nodup_singleton input
      · intro other
        rw [← mem_unmarked_inputs, hinput]
        rfl
  · -- those listed are as many as are left over, so they are all if they are among them
    rw [if_neg hlisted, listsUnbound_iff hlisted]
    refine Decides.guard rfl trivial ?_ fun hlength => ?_
    · rintro hlength ⟨-, hnodup, hall⟩
      rw [← length_eq_iff_unboundInput hnodup fun i hi => (hall i).mp hi, List.length_map] at hall
      exact hlength hall
    rw [replicate_false_eq_markTable]
    refine (checkPacked_decides f.packedStreams List.nodup_nil).bind ?_ fun _ hchecked _ => ?_
    · rintro ⟨-, hnodup, hall⟩
      rw [List.append_nil]
      exact ⟨fun stream hs => (hall _).mp (List.mem_map_of_mem hs), hnodup⟩
    · obtain ⟨hunbound, hnodup⟩ := hchecked
      rw [List.append_nil] at hnodup
      have hsub : ∀ input ∈ f.packedStreams.map UInt64.toNat, f.UnboundInput input := by
        intro input hin
        obtain ⟨stream, hmem, rfl⟩ := List.mem_map.mp hin
        exact hunbound stream hmem
      have hall := (length_eq_iff_unboundInput hnodup hsub).mp
        (by rw [List.length_map]; exact not_not.mp hlength)
      obtain ⟨stream, hstream⟩ := List.exists_mem_of_ne_nil _ hlisted
      exact Decides.pure ⟨⟨_, hunbound stream hstream⟩, hnodup, hall⟩
        ⟨fun _ => rfl, hnodup, hall⟩

end FolderGraph

end SolidArchive
