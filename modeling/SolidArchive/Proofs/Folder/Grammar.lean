import SolidArchive.Proofs.Folder.Binding
import SolidArchive.Proofs.Folder.Cycles

/-!
# The grammar of folders

`Folder.IsCoderGraph` says what a folder has to be, without tables, counting or walking, and
`resolve_decides` that the resolver accepts just these folders. Each step of the resolver decides
one of the conditions on the ground of those before it. There is one place where this is not the
order of the grammar: the resolver wants an unbound input before it looks at the packed streams, and
in the grammar it is the absence of cycles that gives one
(`Folder.IsCoderGraph.exists_unboundInput`). Were all inputs bound, every coder would be fed by
another one, and there would be no first.

The walk for cycles comes last. `layOut` is what there is before it: it decides everything else that
the grammar asks for (`layOut_decides`), and gives the tables by which the walk goes.
-/

namespace SolidArchive

namespace Folder

/-- A folder that is a coder graph. -/
structure IsCoderGraph (f : Folder) : Prop where
  coders : 1 ≤ f.coders.length ∧ f.coders.length ≤ 64
  streams : ∀ c ∈ f.coders,
    (1 ≤ c.inputs.toNat ∧ c.inputs.toNat ≤ 64) ∧ 1 ≤ c.outputs.toNat ∧ c.outputs.toNat ≤ 64
  bindsOnce : f.BindsOnce
  result : ∃! output, f.UnboundOutput output
  listsUnbound : f.ListsUnbound
  unpackSizes : f.unpackSizes = [] ∨ f.unpackSizes.length = f.totalOutputs
  acyclic : f.Acyclic

variable {f : Folder}

/-- The first coder of those that feed others reads from the pack region. -/
theorem IsCoderGraph.exists_unboundInput (h : f.IsCoderGraph) : ∃ input, f.UnboundInput input := by
  obtain ⟨first, hfirst, hmin⟩ := h.acyclic.wellFounded.has_min
    {coder | coder < f.coders.length} ⟨0, h.coders.1⟩
  obtain ⟨c, hc⟩ : ∃ c, f.coders[first]? = some c := ⟨_, List.getElem?_eq_getElem hfirst⟩
  have hin : f.HasInput first (runStart f.inputCounts first) :=
    inRun_start (getElem?_inputCounts hc) (h.streams c (List.mem_of_getElem? hc)).1.1
  -- were its first input bound, a coder that feeds it would come before it
  refine ⟨_, hin.lt_totalInputs, fun hbound => ?_⟩
  obtain ⟨pair, hmem, hpair⟩ := List.mem_map.mp hbound
  obtain ⟨feeder, hout⟩ := exists_hasOutput (h.bindsOnce.inRange pair hmem).2
  have hfeeds : f.Feeds feeder first := ⟨pair, hmem, hout, hpair ▸ hin⟩
  exact hmin feeder hfeeds.feeder_lt hfeeds

end Folder

namespace FolderGraph

variable {f : Folder} {g : FolderGraph}

/-- The graph says of the folder what is so: its streams are numbered through the coders, its final
output is the one left over, and its packed inputs are those left over, as they are listed. -/
structure Describes (g : FolderGraph) (f : Folder) : Prop extends g.Numbers f where
  finalOutput : ∀ output, f.UnboundOutput output ↔ output = g.finalOutput
  packedInputs : PackedInputs f g.packedInputs

theorem checkCoders_decides (coders : List Coder) :
    Decides True
      ((1 ≤ coders.length ∧ coders.length ≤ 64) ∧ ∀ c ∈ coders,
        (1 ≤ c.inputs.toNat ∧ c.inputs.toNat ≤ 64) ∧ 1 ≤ c.outputs.toNat ∧ c.outputs.toNat ≤ 64)
      (fun _ => True) (checkCoders coders) := by
  unfold checkCoders
  refine Decides.guard rfl trivial (fun hnone h => by simp [hnone] at h) fun hsome => ?_
  refine Decides.guard rfl trivial (fun hmany h => absurd h.1.2 (Nat.not_le.mpr hmany))
    fun hfew => ?_
  have hlength : 1 ≤ coders.length ∧ coders.length ≤ 64 :=
    ⟨List.length_pos_iff.mpr hsome, Nat.not_lt.mp hfew⟩
  have hvalid : ∀ c : Coder, validStreamCounts c = true ↔
      (1 ≤ c.inputs.toNat ∧ c.inputs.toNat ≤ 64) ∧
        1 ≤ c.outputs.toNat ∧ c.outputs.toNat ≤ 64 := by
    intro c
    rw [validStreamCounts, decide_eq_true_iff, maxStreams]
    omega
  split
  · -- the coder that is found breaks the limits
    next i hfound =>
    obtain ⟨hi, hinvalid, -⟩ := List.findIdx?_eq_some_iff_getElem.mp hfound
    refine Decides.refuse rfl trivial fun h => ?_
    rw [(hvalid _).mpr (h.2 _ (List.getElem_mem hi))] at hinvalid
    cases hinvalid
  · -- none is found, so every coder keeps them
    next hnone =>
    refine ⟨⟨hlength, fun c hc => (hvalid c).mp ?_⟩, trivial⟩
    have hnot := List.findIdx?_eq_none_iff.mp hnone c hc
    simpa using hnot

/-- All that the resolver does before it looks for cycles. -/
def layOut (f : Folder) : Except GraphFault FolderGraph := do
  checkCoders f.coders
  let (inputs, outputs) ← markBound f.bindPairs
    (List.replicate f.totalInputs false) (List.replicate f.totalOutputs false)
  let finalOutput ← findFinalOutput outputs
  let packedInputs ← findPackedInputs f inputs
  if f.unpackSizes ≠ [] ∧ f.unpackSizes.length ≠ f.totalOutputs then
    throw (.unpackSizeCount f.unpackSizes.length f.totalOutputs)
  pure
    { inputStarts := starts 0 (f.coders.map fun c => c.inputs.toNat)
      outputStarts := starts 0 (f.coders.map fun c => c.outputs.toNat)
      totalInputs := f.totalInputs
      totalOutputs := f.totalOutputs
      finalOutput
      packedInputs }

/-- The walk for cycles is the last check. -/
theorem resolve_eq (f : Folder) :
    resolve f = layOut f >>= fun g => checkAcyclic f g >>= fun _ => pure g := by
  unfold resolve layOut
  simp only [bind_assoc]
  congr 1
  funext _
  congr 1
  funext tables
  congr 1
  funext final
  congr 1
  funext packed
  split
  · rfl
  · rfl

/-- **Before the walk.** What is laid out is a folder of the grammar, except that it may have
cycles. -/
theorem layOut_decides (f : Folder) :
    Decides True
      (((1 ≤ f.coders.length ∧ f.coders.length ≤ 64) ∧ ∀ c ∈ f.coders,
        (1 ≤ c.inputs.toNat ∧ c.inputs.toNat ≤ 64) ∧ 1 ≤ c.outputs.toNat ∧ c.outputs.toNat ≤ 64) ∧
        f.BindsOnce ∧ (∃! output, f.UnboundOutput output) ∧
        ((∃ input, f.UnboundInput input) ∧ f.ListsUnbound) ∧
        (f.unpackSizes = [] ∨ f.unpackSizes.length = f.totalOutputs))
      (fun g => g.Describes f) (layOut f) := by
  unfold layOut
  -- every check decides one clause of the grammar, for which the ones before may be needed
  refine (checkCoders_decides f.coders).bind And.left fun _ hcoders _ => ?_
  refine (markBound_folder_decides f).bind_eq (fun h => h.2.1) fun hbinds => ?_
  refine (findFinalOutput_decides f).bind (fun h => h.2.2.1) fun final hresult hfinal => ?_
  refine (findPackedInputs_decides hbinds).bind (fun h => h.2.2.2.1) fun packed hlists hpacked => ?_
  refine Decides.guard rfl trivial ?_ fun hsizes => ?_
  · rintro ⟨hsome, hlength⟩ h
    exact h.2.2.2.2.elim hsome hlength
  have hsizes' : f.unpackSizes = [] ∨ f.unpackSizes.length = f.totalOutputs := by tauto
  refine Decides.pure ⟨hcoders, hbinds, hresult, hlists, hsizes'⟩
    ⟨⟨?_, ?_, rfl, rfl⟩, hfinal, hpacked⟩
  · rw [← f.length_inputCounts, ← starts_zero_eq]
    rfl
  · rw [← f.length_outputCounts, ← starts_zero_eq]
    rfl

/-- **The resolver decides the grammar.** -/
theorem resolve_decides (f : Folder) :
    Decides True f.IsCoderGraph (fun g => g.Describes f) (resolve f) := by
  rw [resolve_eq]
  refine (layOut_decides f).bind ?_ fun g hlaid hdescribes => ?_
  · intro h
    exact ⟨⟨h.coders, h.streams⟩, h.bindsOnce, h.result, ⟨h.exists_unboundInput, h.listsUnbound⟩,
      h.unpackSizes⟩
  -- the walk for cycles already uses the tables of the graph
  obtain ⟨⟨hcoders, hstreams⟩, hbinds, hresult, ⟨-, hlists⟩, hsizes⟩ := hlaid
  refine ((hdescribes.toNumbers.checkAcyclic_decides hbinds).of_iff ?_).map fun _ _ _ => hdescribes
  constructor
  · exact fun hacyclic => ⟨hcoders, hstreams, hbinds, hresult, hlists, hsizes, hacyclic⟩
  · exact fun h => h.acyclic

/-- Every folder reads from the pack region. -/
theorem Describes.packedInputs_pos (h : g.Describes f) (hf : f.IsCoderGraph) :
    0 < g.packedInputs.length := by
  obtain ⟨input, hin⟩ := hf.exists_unboundInput
  exact List.length_pos_of_mem ((h.packedInputs.mem_iff input).mpr hin)

/-- A folder that lists no packed streams reads its one unbound input. -/
theorem Describes.packedInputs_single (h : g.Describes f) (hf : f.IsCoderGraph)
    (hnone : f.packedStreams = []) :
    ∃ input, g.packedInputs = [input] ∧ ∀ other, f.UnboundInput other ↔ other = input := by
  have hunique : ∃! input, f.UnboundInput input := by
    rcases hf.listsUnbound with ⟨-, hunique⟩ | ⟨-, hall⟩
    · exact hunique
    · -- a list of none leaves no input to be read, but there is one
      obtain ⟨input, hin⟩ := hf.exists_unboundInput
      obtain ⟨stream, hmem, -⟩ := (hall input).mp hin
      rw [hnone] at hmem
      exact absurd hmem List.not_mem_nil
  have hmem := h.packedInputs.mem_iff
  obtain ⟨input, hinput⟩ := (existsUnique_mem_iff h.packedInputs.nodup).mp
    (by simpa only [hmem] using hunique)
  refine ⟨input, hinput, fun other => ?_⟩
  rw [← hmem, hinput, List.mem_singleton]

/-- **Sound and complete.** The resolver gives a graph just for the folders of the grammar, refuses
every other one with a fault of that folder, and says of a folder what is so: the starts of the
coders are the sums of the counts before them, the final output is the one left over, and the packed
inputs are those listed, or the only one left over, as many as there are inputs that no bind pair
takes. -/
theorem resolve_sound_complete (f : Folder) (folder : Nat) :
    ((∃ g, (resolve f).mapError (StructuralError.graph folder) = .ok g) ↔ f.IsCoderGraph) ∧
      (¬f.IsCoderGraph → ∃ fault : GraphFault,
        (resolve f).mapError (StructuralError.graph folder) = .error (.graph folder fault) ∧
          ∀ breach, fault ≠ .breach breach) ∧
      ∀ g, (resolve f).mapError (StructuralError.graph folder) = .ok g →
        g.Numbers f ∧
          (∀ output, f.UnboundOutput output ↔ output = g.finalOutput) ∧
          (f.packedStreams ≠ [] → g.packedInputs = f.packedStreams.map UInt64.toNat) ∧
          (f.packedStreams = [] →
            ∃ input, g.packedInputs = [input] ∧ ∀ other, f.UnboundInput other ↔ other = input) ∧
          g.packedInputs.length + f.bindPairs.length = f.totalInputs := by
  have hdecides := resolve_decides f
  -- a fault stays what it is under the number of its folder
  have hmapped : Decides True f.IsCoderGraph (fun g => g.Describes f)
      ((resolve f).mapError (StructuralError.graph folder)) :=
    hdecides.mapError (fun _ hreal => hreal) fun _ hbreach => hbreach
  refine ⟨hmapped.exists_ok_iff trivial, fun hnot => ?_, fun g hg => ?_⟩
  · obtain ⟨fault, hfault, hreal⟩ := hdecides.refuses trivial hnot
    refine ⟨fault, ?_, GraphFault.ne_breach hreal⟩
    rw [hfault]
    rfl
  · obtain ⟨hf, hdescribes⟩ := hmapped.holds hg
    exact ⟨hdescribes.toNumbers, hdescribes.finalOutput, hdescribes.packedInputs.listed,
      hdescribes.packedInputs_single hf, hdescribes.packedInputs.length_add hf.bindsOnce⟩

/-- A coder with two inputs, of which the first is fed by another coder: the packed inputs are
listed in another order than they are numbered. -/
theorem resolve_sound_complete_two_coders :
    let f : Folder :=
      { coders := [{ methodId := [3], inputs := 2 }, { methodId := [0] }]
        bindPairs := [{ input := 0, output := 1 }]
        packedStreams := [2, 1] }
    let g : FolderGraph :=
      { inputStarts := [0, 2], outputStarts := [0, 1], totalInputs := 3, totalOutputs := 2
        finalOutput := 0, packedInputs := [2, 1] }
    (resolve f).mapError (StructuralError.graph 7) = .ok g ∧ f.packedStreams ≠ [] ∧
      g.packedInputs = f.packedStreams.map UInt64.toNat := by
  refine ⟨by decide, by decide, ?_⟩
  exact ((resolve_sound_complete _ 7).2.2 _ (by decide)).2.2.1 (by decide)

end FolderGraph

end SolidArchive
