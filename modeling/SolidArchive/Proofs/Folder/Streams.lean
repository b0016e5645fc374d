import SolidArchive.Folder.Graph
import SolidArchive.Proofs.Runs

/-!
# Whose stream it is

The streams of a folder are numbered through its coders in order, so each coder has a run of input
streams and a run of output streams. `Folder.HasInput` and `Folder.HasOutput` say this of the folder
itself. A coder graph keeps the starts of the runs (`starts_eq`) and finds the coder of an output by
counting the starts up to it (`coderOfOutput_eq`).

`Folder.Feeds` is the relation between coders whose cycles are refused.
-/

namespace SolidArchive

namespace Folder

/-- The number of input streams of each coder. -/
def inputCounts (f : Folder) : List Nat := f.coders.map fun c => c.inputs.toNat

/-- The number of output streams of each coder. -/
def outputCounts (f : Folder) : List Nat := f.coders.map fun c => c.outputs.toNat

/-- An input stream of the folder is one of a coder's. -/
def HasInput (f : Folder) (coder input : Nat) : Prop := InRun f.inputCounts coder input

/-- An output stream of the folder is one of a coder's. -/
def HasOutput (f : Folder) (coder output : Nat) : Prop := InRun f.outputCounts coder output

/-- An output of `feeder` is bound to an input of `coder`. -/
def Feeds (f : Folder) (feeder coder : Nat) : Prop :=
  ∃ pair ∈ f.bindPairs, f.HasOutput feeder pair.output.toNat ∧ f.HasInput coder pair.input.toNat

/-- The inputs that bind pairs name. -/
def boundInputs (f : Folder) : List Nat := f.bindPairs.map fun pair => pair.input.toNat

/-- The outputs that bind pairs name. -/
def boundOutputs (f : Folder) : List Nat := f.bindPairs.map fun pair => pair.output.toNat

/-- An input stream that no bind pair names. -/
def UnboundInput (f : Folder) (input : Nat) : Prop := input < f.totalInputs ∧ input ∉ f.boundInputs

/-- An output stream that no bind pair names. -/
def UnboundOutput (f : Folder) (output : Nat) : Prop :=
  output < f.totalOutputs ∧ output ∉ f.boundOutputs

/-- The packed streams are listed once each and are the inputs left over; with a single one of those
they need not be listed. -/
def ListsUnbound (f : Folder) : Prop :=
  (f.packedStreams = [] ∧ ∃! input, f.UnboundInput input) ∨
    (f.packedStreams.Nodup ∧
      ∀ input, f.UnboundInput input ↔ ∃ stream ∈ f.packedStreams, stream.toNat = input)

/-- The bind pairs are between streams of the folder, and none of these is bound twice. -/
structure BindsOnce (f : Folder) : Prop where
  inRange : ∀ pair ∈ f.bindPairs,
    pair.input.toNat < f.totalInputs ∧ pair.output.toNat < f.totalOutputs
  inputs_nodup : f.boundInputs.Nodup
  outputs_nodup : f.boundOutputs.Nodup

variable (f : Folder)

@[simp] theorem length_inputCounts : f.inputCounts.length = f.coders.length := by
  simp [inputCounts]

@[simp] theorem length_outputCounts : f.outputCounts.length = f.coders.length := by
  simp [outputCounts]

theorem sum_inputCounts : f.inputCounts.sum = f.totalInputs := sum_map_eq_foldl _ _

theorem sum_outputCounts : f.outputCounts.sum = f.totalOutputs := sum_map_eq_foldl _ _

variable {f} {coder feeder : Nat}

theorem getElem?_inputCounts {c : Coder} (hc : f.coders[coder]? = some c) :
    f.inputCounts[coder]? = some c.inputs.toNat := by
  rw [inputCounts, List.getElem?_map, hc]
  rfl

theorem getElem?_outputCounts {c : Coder} (hc : f.coders[coder]? = some c) :
    f.outputCounts[coder]? = some c.outputs.toNat := by
  rw [outputCounts, List.getElem?_map, hc]
  rfl

theorem HasInput.lt_totalInputs {input : Nat} (h : f.HasInput coder input) :
    input < f.totalInputs := by
  rw [← sum_inputCounts]
  exact h.lt_sum

/-- Every output stream belongs to a coder. -/
theorem exists_hasOutput {output : Nat} (h : output < f.totalOutputs) :
    ∃ coder, f.HasOutput coder output := by
  rw [← sum_outputCounts] at h
  exact exists_inRun h

theorem Feeds.coder_lt (h : f.Feeds feeder coder) : coder < f.coders.length := by
  obtain ⟨pair, -, -, hin⟩ := h
  simpa using hin.1

theorem Feeds.feeder_lt (h : f.Feeds feeder coder) : feeder < f.coders.length := by
  obtain ⟨pair, -, hout, -⟩ := h
  simpa using hout.1

/-- The inputs of a coder, counted from its first. -/
theorem hasInput_iff {c : Coder} (hc : f.coders[coder]? = some c) {input : Nat} :
    f.HasInput coder input ↔
      ∃ i < c.inputs.toNat, input = runStart f.inputCounts coder + i := by
  have hcount := getElem?_inputCounts hc
  have hlt : coder < f.inputCounts.length := (List.getElem?_eq_some_iff.mp hcount).1
  have hnext := runStart_succ hcount
  refine ⟨?_, ?_⟩
  · rintro ⟨-, hle, hlt⟩
    exact ⟨input - runStart f.inputCounts coder, by omega, by omega⟩
  · rintro ⟨i, hi, rfl⟩
    exact ⟨hlt, by omega, by omega⟩

/-- The output that feeds an input is the one that a bind pair gives for it. -/
theorem BindsOnce.boundOutput?_eq_some_iff (h : f.BindsOnce) {input output : Nat} :
    f.boundOutput? input = some output ↔
      ∃ pair ∈ f.bindPairs, pair.input.toNat = input ∧ pair.output.toNat = output := by
  rw [boundOutput?, Option.map_eq_some_iff]
  refine ⟨?_, ?_⟩
  · rintro ⟨pair, hfind, hout⟩
    have hin := List.find?_some hfind
    exact ⟨pair, List.mem_of_find?_eq_some hfind, by simpa using hin, hout⟩
  · rintro ⟨pair, hmem, rfl, rfl⟩
    have hsome : (f.bindPairs.find? fun p => p.input.toNat = pair.input.toNat).isSome := by
      rw [List.find?_isSome]
      exact ⟨pair, hmem, by simp⟩
    obtain ⟨found, hfind⟩ := Option.isSome_iff_exists.mp hsome
    have hin : found.input.toNat = pair.input.toNat := by simpa using List.find?_some hfind
    -- no input is bound twice, so the first pair for it is the only one
    have hsame : found = pair :=
      List.inj_on_of_nodup_map h.inputs_nodup (List.mem_of_find?_eq_some hfind) hmem hin
    exact ⟨found, hfind, by rw [hsame]⟩

end Folder

namespace FolderGraph

/-! ### The tables of a coder graph -/

/-- The running sums are the starts of the runs. -/
theorem starts_eq (start : Nat) (counts : List Nat) :
    starts start counts = (List.range counts.length).map fun k => start + runStart counts k := by
  induction counts generalizing start with
  | nil => rfl
  | cons n counts ih =>
    rw [starts, ih, List.length_cons, List.range_succ_eq_map, List.map_cons, List.map_map]
    simp [Function.comp_def, Nat.add_assoc]

theorem starts_zero_eq (counts : List Nat) :
    starts 0 counts = (List.range counts.length).map (runStart counts) := by
  rw [starts_eq]
  simp

/-- As many starts are up to a number of the `k`-th run as there are runs up to it. -/
theorem countP_runStart {counts : List Nat} {k i : Nat} (h : InRun counts k i) :
    ((List.range counts.length).map (runStart counts)).countP
      (fun start => decide (start ≤ i)) = k + 1 := by
  have hsplit : counts.length = (k + 1) + (counts.length - (k + 1)) := by
    have := h.1
    omega
  rw [List.countP_map, hsplit, List.range_add, List.countP_append]
  -- the starts of the runs up to the `k`-th count
  have hbefore : (List.range (k + 1)).countP
      ((fun start => decide (start ≤ i)) ∘ runStart counts) = k + 1 := by
    rw [List.countP_eq_length.mpr, List.length_range]
    intro l hl
    have hl' : l ≤ k := by simpa [Nat.lt_succ_iff] using hl
    simpa using h.start_le_iff.mpr hl'
  -- and those of the later runs do not
  have hbehind : ((List.range (counts.length - (k + 1))).map (k + 1 + ·)).countP
      ((fun start => decide (start ≤ i)) ∘ runStart counts) = 0 := by
    rw [List.countP_eq_zero]
    intro l hl
    obtain ⟨j, -, rfl⟩ := List.mem_map.mp hl
    have hnot : ¬runStart counts (k + 1 + j) ≤ i := by
      rw [h.start_le_iff]
      omega
    simpa using hnot
  rw [hbefore, hbehind]

variable {f : Folder} {g : FolderGraph}

/-- The tables of the graph are those of the folder. -/
structure Numbers (g : FolderGraph) (f : Folder) : Prop where
  inputStarts_eq : g.inputStarts = (List.range f.coders.length).map (runStart f.inputCounts)
  outputStarts_eq : g.outputStarts = (List.range f.coders.length).map (runStart f.outputCounts)
  totalInputs_eq : g.totalInputs = f.totalInputs
  totalOutputs_eq : g.totalOutputs = f.totalOutputs

namespace Numbers

theorem getElem?_inputStarts (h : g.Numbers f) {coder : Nat} (hlt : coder < f.coders.length) :
    g.inputStarts[coder]? = some (runStart f.inputCounts coder) := by
  rw [h.inputStarts_eq, List.getElem?_map, List.getElem?_range hlt]
  rfl

theorem getElem?_outputStarts (h : g.Numbers f) {coder : Nat} (hlt : coder < f.coders.length) :
    g.outputStarts[coder]? = some (runStart f.outputCounts coder) := by
  rw [h.outputStarts_eq, List.getElem?_map, List.getElem?_range hlt]
  rfl

/-- The coder found for an output stream is the one that has it. -/
theorem coderOfOutput_eq (h : g.Numbers f) {coder output : Nat} (hout : f.HasOutput coder output) :
    g.coderOfOutput output = coder := by
  rw [coderOfOutput, h.outputStarts_eq, ← f.length_outputCounts, countP_runStart hout]
  rfl

/-- The coders that the walk goes on to are those that feed the coder. -/
theorem feeders_eq (h : g.Numbers f) (hb : f.BindsOnce) {coder : Nat}
    (hlt : coder < f.coders.length) :
    ∃ l, feeders f g coder = .ok l ∧ ∀ feeder, feeder ∈ l ↔ f.Feeds feeder coder := by
  have hc : f.coders[coder]? = some f.coders[coder] := List.getElem?_eq_getElem hlt
  have hstart := h.getElem?_inputStarts hlt
  have hok : feeders f g coder = .ok ((List.range f.coders[coder].inputs.toNat).filterMap fun i =>
      (f.boundOutput? (runStart f.inputCounts coder + i)).map g.coderOfOutput) := by
    rw [feeders, Breach.lookup, Breach.lookup, hc, hstart]
    rfl
  refine ⟨_, hok, ?_⟩
  intro feeder
  rw [List.mem_filterMap]
  refine ⟨?_, ?_⟩
  · -- an output that is looked up belongs to a coder that feeds this one
    rintro ⟨i, hi, hfed⟩
    obtain ⟨output, hbound, rfl⟩ := Option.map_eq_some_iff.mp hfed
    obtain ⟨pair, hmem, hin, rfl⟩ := hb.boundOutput?_eq_some_iff.mp hbound
    obtain ⟨owner, howner⟩ := Folder.exists_hasOutput (hb.inRange pair hmem).2
    rw [h.coderOfOutput_eq howner]
    exact ⟨pair, hmem, howner,
      (Folder.hasInput_iff hc).mpr ⟨i, List.mem_range.mp hi, hin⟩⟩
  · -- and a coder that feeds this one is found at the input that it feeds
    rintro ⟨pair, hmem, hout, hin⟩
    obtain ⟨i, hi, hstart⟩ := (Folder.hasInput_iff hc).mp hin
    refine ⟨i, List.mem_range.mpr hi, Option.map_eq_some_iff.mpr ⟨pair.output.toNat, ?_, ?_⟩⟩
    · exact hb.boundOutput?_eq_some_iff.mpr ⟨pair, hmem, hstart, rfl⟩
    · exact h.coderOfOutput_eq hout

end Numbers

end FolderGraph

end SolidArchive
