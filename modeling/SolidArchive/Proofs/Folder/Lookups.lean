import SolidArchive.Proofs.Folder.Upstream

/-!
# Finding a stream

The evaluation of a folder looks three things up: the coder that has an output, the bind pair that
names an input, and the place of an input among those read from the pack region. For a folder that
is accepted each of the look-ups is total, and has one answer that can be right
(`FolderGraph.resolve_partitionsStreams`).

* The runs of the coders are a partition of the numbers of the streams, and the tables of the graph
  give it: an output lies in the run of the coder found for it and in no other, and an input is the
  `i`-th of a single coder (`FolderGraph.PartitionsStreams`).
* The coder of an output is found by counting the starts up to the output. In a table that is cut in
  two by a number, the entries up to it before those above it, the count can be had by halving the
  table (`firstAbove_eq`), and the starts of the runs are such a table for every output.
* An input is named by a single bind pair and not read from the pack region, or is named by none and
  has a single place there (`FolderGraph.FedBy`, `FolderGraph.ReadFrom`).
-/

namespace SolidArchive

/-! ### Searching by halving -/

/-- Looks for the first entry above a number, in the part of a table that begins at `first` and has
`length` entries: the part is halved, and the search goes on on one side of the middle. -/
def firstAbove (table : List Nat) (number first length : Nat) : Except Breach Nat :=
  if length = 0 then .ok first
  else do
    let half := length / 2
    let entry ← Breach.lookup id table (first + half)
    if number < entry then firstAbove table number first half
    else firstAbove table number (first + half + 1) (length - half - 1)
termination_by length
decreasing_by all_goals omega

/-- **The search finds the cut.** When the entries before `cut` are up to the number and the others
above it, the search of a part around `cut` ends there, and reads no entry outside the table. -/
theorem firstAbove_eq {table : List Nat} {number cut first length : Nat}
    (hcut : ∀ (i entry : Nat), table[i]? = some entry → (entry ≤ number ↔ i < cut))
    (hfirst : first ≤ cut) (hlast : cut ≤ first + length) (hend : first + length ≤ table.length) :
    firstAbove table number first length = .ok cut := by
  -- a part around the cut stays one, whichever half is left
  induction length using Nat.strong_induction_on generalizing first with
  | _ length ih =>
    rw [firstAbove]
    by_cases hnone : length = 0
    · -- nothing is left on either side of the cut
      obtain rfl : first = cut := by omega
      rw [if_pos hnone]
    · have hmiddle : first + length / 2 < table.length := by omega
      have hentry := List.getElem?_eq_getElem hmiddle
      have hside := hcut _ _ hentry
      rw [if_neg hnone]
      dsimp only
      rw [Breach.lookup_eq hentry]
      show (if number < table[first + length / 2] then _ else _) = _
      -- the cut is on the side on which the search goes on
      split
      · next habove =>
        have hbefore : cut ≤ first + length / 2 := by omega
        exact ih _ (by omega) hfirst hbefore (by omega)
      · next hupto =>
        have hbehind : first + length / 2 < cut := hside.mp (Nat.not_lt.mp hupto)
        exact ih _ (by omega) hbehind (by omega) (by omega)

/-! ### Single places -/

/-- The list has the entry at this place and nowhere else. -/
def OnlyAt (l : List Nat) (entry place : Nat) : Prop := ∀ i, l[i]? = some entry ↔ i = place

theorem onlyAt_of_nodup {l : List Nat} {entry place : Nat} (hnodup : l.Nodup)
    (hplace : l[place]? = some entry) : OnlyAt l entry place := by
  intro i
  constructor
  · intro hi
    obtain ⟨hlt, hentry⟩ := List.getElem?_eq_some_iff.mp hi
    obtain ⟨hlt', hentry'⟩ := List.getElem?_eq_some_iff.mp hplace
    exact (hnodup.getElem_inj_iff).mp (hentry.trans hentry'.symm)
  · rintro rfl
    exact hplace

/-- What is looked for is not found just when it is not there. -/
theorem findIdx?_eq_none_iff_notMem {l : List Nat} {entry : Nat} :
    l.findIdx? (· = entry) = none ↔ entry ∉ l := by
  rw [List.findIdx?_eq_none_iff]
  constructor
  · intro hnone hmem
    exact of_decide_eq_false (hnone entry hmem) rfl
  · rintro hnot other hmem
    apply decide_eq_false
    rintro rfl
    exact hnot hmem

/-- When no part is empty, every run starts behind the one before it. -/
theorem pairwise_runStart_lt {α : Type} {count : α → Nat} {parts : List α}
    (hpos : ∀ part ∈ parts, 0 < count part) :
    ((List.range parts.length).map (runStart (parts.map count))).Pairwise (· < ·) := by
  -- the run of an earlier part ends behind its own start, and no later one starts before that
  rw [List.pairwise_map]
  refine List.pairwise_lt_range.imp_of_mem fun {k l} hk _ hkl => ?_
  have hlt : k < parts.length := List.mem_range.mp hk
  have hcount : (parts.map count)[k]? = some (count parts[k]) := by
    rw [List.getElem?_map, List.getElem?_eq_getElem hlt]
    rfl
  calc runStart (parts.map count) k
      < runStart (parts.map count) k + count parts[k] :=
        Nat.lt_add_of_pos_right (hpos _ (List.getElem_mem hlt))
    _ = runStart (parts.map count) (k + 1) := (runStart_succ hcount).symm
    _ ≤ runStart (parts.map count) l := runStart_mono _ hkl

namespace Folder

variable {f : Folder} {coder input : Nat}

/-- No run of outputs starts behind the last output. -/
theorem runStart_outputCounts_le (f : Folder) (coder : Nat) :
    runStart f.outputCounts coder ≤ f.totalOutputs := by
  rw [← sum_outputCounts]
  exact runStart_le_sum _ _

/-- The bind pair of an input is found where the input is named. -/
theorem bindPairOfInput?_eq (f : Folder) (input : Nat) :
    f.bindPairOfInput? input = f.boundInputs.findIdx? (· = input) := by
  rw [bindPairOfInput?, boundInputs, List.findIdx?_map]
  rfl

theorem bindPairOfInput?_eq_none_iff : f.bindPairOfInput? input = none ↔ input ∉ f.boundInputs := by
  rw [bindPairOfInput?_eq, findIdx?_eq_none_iff_notMem]

/-- For an input that is named, the bind pair that is found is the one that names it, and the one
that says what feeds it. -/
theorem BindsOnce.exists_bindPairOfInput? (h : f.BindsOnce) (hbound : input ∈ f.boundInputs) :
    ∃ place pair, f.bindPairOfInput? input = some place ∧ f.bindPairs[place]? = some pair ∧
      OnlyAt f.boundInputs input place ∧ f.boundOutput? input = some pair.output.toNat := by
  have hsome : (f.bindPairOfInput? input).isSome := by
    rw [← Option.ne_none_iff_isSome, Ne, bindPairOfInput?_eq_none_iff]
    exact not_not.mpr hbound
  obtain ⟨place, hplace⟩ := Option.isSome_iff_exists.mp hsome
  obtain ⟨hlt, hnames, -⟩ := List.findIdx?_eq_some_iff_getElem.mp hplace
  have hpair := List.getElem?_eq_getElem hlt
  have hin : f.bindPairs[place].input.toNat = input := of_decide_eq_true hnames
  refine ⟨place, f.bindPairs[place], hplace, hpair, ?_, ?_⟩
  · apply onlyAt_of_nodup h.inputs_nodup
    rw [boundInputs, List.getElem?_map, hpair, Option.map_some, hin]
  · exact h.boundOutput?_eq_some_iff.mpr ⟨_, List.mem_of_getElem? hpair, hin, rfl⟩

end Folder

namespace FolderGraph

variable {f : Folder} {g : FolderGraph} {coder i input output : Nat}

/-! ### The runs in the tables -/

/-- By the tables of the graph, an input is the `i`-th one of a coder. -/
def SpansInput (g : FolderGraph) (f : Folder) (coder i input : Nat) : Prop :=
  ∃ (start : Nat) (c : Coder), g.inputStarts[coder]? = some start ∧ f.coders[coder]? = some c ∧
    i < c.inputs.toNat ∧ input = start + i

/-- By the tables of the graph, an output is one of a coder's. -/
def SpansOutput (g : FolderGraph) (f : Folder) (coder output : Nat) : Prop :=
  ∃ (start : Nat) (c : Coder), g.outputStarts[coder]? = some start ∧ f.coders[coder]? = some c ∧
    start ≤ output ∧ output < start + c.outputs.toNat

namespace Numbers

theorem length_outputStarts (h : g.Numbers f) : g.outputStarts.length = f.coders.length := by
  rw [h.outputStarts_eq, List.length_map, List.length_range]

theorem spansInput_iff (h : g.Numbers f) :
    g.SpansInput f coder i input ↔
      f.HasInput coder input ∧ input = runStart f.inputCounts coder + i := by
  constructor
  · rintro ⟨start, c, hstart, hc, hi, rfl⟩
    rw [h.getElem?_inputStarts (List.getElem?_eq_some_iff.mp hc).1] at hstart
    obtain rfl := Option.some.inj hstart
    exact ⟨(Folder.hasInput_iff hc).mpr ⟨i, hi, rfl⟩, rfl⟩
  · rintro ⟨hin, rfl⟩
    have hlt : coder < f.coders.length := by simpa using hin.1
    have hc := List.getElem?_eq_getElem hlt
    obtain ⟨j, hj, hij⟩ := (Folder.hasInput_iff hc).mp hin
    obtain rfl : i = j := by omega
    exact ⟨_, _, h.getElem?_inputStarts hlt, hc, hj, rfl⟩

/-- Every input has one place among those of the coders. -/
theorem existsUnique_spansInput (h : g.Numbers f) (hin : input < f.totalInputs) :
    ∃! place : Nat × Nat, g.SpansInput f place.1 place.2 input := by
  obtain ⟨coder, hcoder⟩ := Folder.exists_hasInput hin
  have hsplit : input = runStart f.inputCounts coder + (input - runStart f.inputCounts coder) :=
    (Nat.add_sub_cancel' hcoder.2.1).symm
  refine ⟨(coder, input - runStart f.inputCounts coder), ?_, ?_⟩
  · exact h.spansInput_iff.mpr ⟨hcoder, hsplit⟩
  · rintro ⟨other, i⟩ hother
    -- the runs of two coders have no input in common, and the start of the run gives the place
    obtain ⟨hhas, hi⟩ := h.spansInput_iff.mp hother
    obtain rfl := InRun.unique hhas hcoder
    rw [Prod.mk.injEq]
    exact ⟨rfl, by omega⟩

theorem spansOutput_iff (h : g.Numbers f) :
    g.SpansOutput f coder output ↔ f.HasOutput coder output := by
  constructor
  · rintro ⟨start, c, hstart, hc, hle, hlt⟩
    have hcoder := (List.getElem?_eq_some_iff.mp hc).1
    rw [h.getElem?_outputStarts hcoder] at hstart
    obtain rfl := Option.some.inj hstart
    rw [← runStart_succ (Folder.getElem?_outputCounts hc)] at hlt
    exact ⟨by simpa using hcoder, hle, hlt⟩
  · intro hout
    have hcoder := hout.coder_lt
    have hc := List.getElem?_eq_getElem hcoder
    obtain ⟨-, hle, hlt⟩ := hout
    rw [runStart_succ (Folder.getElem?_outputCounts hc)] at hlt
    exact ⟨_, _, h.getElem?_outputStarts hcoder, hc, hle, hlt⟩

/-! ### The coder of an output -/

/-- The coder that is found for an output has it, and is the only one. -/
theorem spansOutput_iff_coderOfOutput (h : g.Numbers f) :
    g.SpansOutput f coder output ↔
      output < f.totalOutputs ∧ coder = g.coderOfOutput output := by
  rw [h.spansOutput_iff]
  constructor
  · exact fun hout => ⟨hout.lt_totalOutputs, (h.coderOfOutput_eq hout).symm⟩
  · rintro ⟨hlt, rfl⟩
    obtain ⟨owner, howner⟩ := Folder.exists_hasOutput hlt
    rwa [h.coderOfOutput_eq howner]

/-- Behind all outputs the last coder is found. -/
theorem coderOfOutput_beyond (h : g.Numbers f) (hout : f.totalOutputs ≤ output) :
    g.coderOfOutput output = f.coders.length - 1 := by
  have hall : ∀ start ∈ g.outputStarts, decide (start ≤ output) = true := by
    intro start hstart
    rw [h.outputStarts_eq, List.mem_map] at hstart
    obtain ⟨k, -, rfl⟩ := hstart
    exact decide_eq_true ((f.runStart_outputCounts_le k).trans hout)
  -- the count runs through the whole table
  rw [coderOfOutput, List.countP_eq_length.mpr hall, h.length_outputStarts]

/-- The coder that is found is one of the folder's. -/
theorem coderOfOutput_lt (h : g.Numbers f) (hsome : 0 < f.coders.length) (output : Nat) :
    g.coderOfOutput output < f.coders.length := by
  have hle : g.outputStarts.countP (fun start => decide (start ≤ output)) ≤ f.coders.length :=
    h.length_outputStarts ▸ List.countP_le_length
  rw [coderOfOutput]
  omega

/-- The coders that start up to an output are those up to the one that is found. -/
theorem start_le_iff (h : g.Numbers f) (hlt : coder < f.coders.length) :
    runStart f.outputCounts coder ≤ output ↔ coder ≤ g.coderOfOutput output := by
  rcases Nat.lt_or_ge output f.totalOutputs with hout | hout
  · obtain ⟨owner, howner⟩ := Folder.exists_hasOutput hout
    rw [h.coderOfOutput_eq howner]
    exact howner.start_le_iff
  · -- all of them start up to there, and the last one is found
    have hle := f.runStart_outputCounts_le coder
    rw [h.coderOfOutput_beyond hout]
    omega

/-- **The coder by halving.** The first start above an output is that of the coder behind the one
that is found. -/
theorem firstAbove_outputStarts (h : g.Numbers f) (hsome : 0 < f.coders.length) (output : Nat) :
    firstAbove g.outputStarts output 0 g.outputStarts.length =
      .ok (g.coderOfOutput output + 1) := by
  have hlength := h.length_outputStarts
  have hlt := h.coderOfOutput_lt hsome output
  apply firstAbove_eq
  · intro coder start hstart
    have hcoder : coder < f.coders.length := hlength ▸ (List.getElem?_eq_some_iff.mp hstart).1
    rw [h.getElem?_outputStarts hcoder] at hstart
    obtain rfl := Option.some.inj hstart
    rw [h.start_le_iff hcoder, Nat.lt_succ_iff]
  · exact Nat.zero_le _
  · omega
  · omega

end Numbers

/-! ### The source of an input -/

/-- The bind pair at `place` is the only one that names the input and the one that is found for it,
and the input is not read from the pack region. -/
structure FedBy (g : FolderGraph) (f : Folder) (input place : Nat) : Prop where
  bindPair : f.bindPairOfInput? input = some place
  only : OnlyAt f.boundInputs input place
  feeder : ∃ pair, f.bindPairs[place]? = some pair ∧ f.boundOutput? input = some pair.output.toNat
  notPacked : g.packedPosition? input = none

/-- No bind pair names the input, and it is read from the pack region, at `place` and nowhere
else. -/
structure ReadFrom (g : FolderGraph) (f : Folder) (input place : Nat) : Prop where
  noBindPair : f.bindPairOfInput? input = none
  notBound : input ∉ f.boundInputs
  noFeeder : f.boundOutput? input = none
  packed : g.packedPosition? input = some place
  only : OnlyAt g.packedInputs input place

/-- An input that is not read from the pack region has no place there. -/
theorem packedPosition?_eq_none_iff :
    g.packedPosition? input = none ↔ input ∉ g.packedInputs := findIdx?_eq_none_iff_notMem

theorem Describes.fedBy_or_readFrom (h : g.Describes f) (hb : f.BindsOnce)
    (hin : input < f.totalInputs) :
    (∃ place, g.FedBy f input place) ∨ ∃ place, g.ReadFrom f input place := by
  by_cases hbound : input ∈ f.boundInputs
  · left
    obtain ⟨place, pair, hplace, hpair, honly, hfeeder⟩ := hb.exists_bindPairOfInput? hbound
    refine ⟨place, hplace, honly, ⟨pair, hpair, hfeeder⟩, ?_⟩
    rw [packedPosition?_eq_none_iff, h.packedInputs.mem_iff]
    exact fun hunbound => hunbound.2 hbound
  · right
    obtain ⟨place, hplace, hentry⟩ := h.packedInputs.exists_position ⟨hin, hbound⟩
    exact ⟨place, Folder.bindPairOfInput?_eq_none_iff.mpr hbound, hbound,
      Folder.boundOutput?_eq_none_iff.mpr hbound, hplace,
      onlyAt_of_nodup h.packedInputs.nodup hentry⟩

/-! ### All look-ups together -/

/-- The coders share the streams out among themselves, and the look-ups find whose a stream is and
where it comes from. -/
structure PartitionsStreams (g : FolderGraph) (f : Folder) : Prop where
  inputStarts_lt : g.inputStarts.Pairwise (· < ·)
  outputStarts_lt : g.outputStarts.Pairwise (· < ·)
  /-- The coder found for an output has it, and no other coder has. -/
  output : ∀ coder output : Nat, g.SpansOutput f coder output ↔
    output < g.totalOutputs ∧ coder = g.coderOfOutput output
  output_beyond : ∀ output : Nat, g.totalOutputs ≤ output →
    g.coderOfOutput output + 1 = f.coders.length
  /-- The coder is found by halving the table of the starts. -/
  search : ∀ output : Nat, firstAbove g.outputStarts output 0 g.outputStarts.length =
    .ok (g.coderOfOutput output + 1)
  /-- Every input is the `i`-th one of a coder, for a single coder and a single `i`. -/
  input : ∀ input < g.totalInputs, ∃! place : Nat × Nat, g.SpansInput f place.1 place.2 input
  input_lt : ∀ coder i input : Nat, g.SpansInput f coder i input → input < g.totalInputs
  /-- Every input comes from one output or from one pack stream. -/
  source : ∀ input < g.totalInputs,
    (∃ place, g.FedBy f input place) ∨ ∃ place, g.ReadFrom f input place

/-- **The coders partition the streams**, and every stream is found. In a folder that is accepted
each output is in the run of the coder found for it and in no other, and behind all outputs the last
coder is found; each input is one of a single coder's, and is either named by a single bind pair,
which is the one found for it, or has a single place among those read from the pack region, which is
the one found for it. -/
theorem resolve_partitionsStreams (f : Folder) (g : FolderGraph) (h : resolve f = .ok g) :
    g.PartitionsStreams f := by
  obtain ⟨hf, hdescribes⟩ := (resolve_decides f).holds h
  have hn := hdescribes.toNumbers
  have hsome : 0 < f.coders.length := hf.coders.1
  refine ⟨?_, ?_, ?_, ?_, hn.firstAbove_outputStarts hsome, ?_, ?_, ?_⟩
  · -- no coder is without inputs
    rw [hn.inputStarts_eq]
    exact pairwise_runStart_lt fun c hc => (hf.streams c hc).1.1
  · -- and none is without outputs
    rw [hn.outputStarts_eq]
    exact pairwise_runStart_lt fun c hc => (hf.streams c hc).2.1
  · intro coder output
    rw [hn.totalOutputs_eq]
    exact hn.spansOutput_iff_coderOfOutput
  · intro output hout
    rw [hn.coderOfOutput_beyond (hn.totalOutputs_eq ▸ hout)]
    omega
  · intro input hin
    exact hn.existsUnique_spansInput (hn.totalInputs_eq ▸ hin)
  · intro coder i input hspans
    rw [hn.totalInputs_eq]
    exact (hn.spansInput_iff.mp hspans).1.lt_totalInputs
  · intro input hin
    exact hdescribes.fedBy_or_readFrom hf.bindsOnce (hn.totalInputs_eq ▸ hin)

/-- Three coders with all kinds of runs: the first takes both outputs of the second, which takes the
output of the third, and the inputs of this one are read from the pack region in another order. -/
theorem resolve_partitionsStreams_three_coders :
    let f : Folder :=
      { coders := [{ methodId := [3], inputs := 2 }, { methodId := [9], outputs := 2 },
          { methodId := [0], inputs := 3 }]
        bindPairs := [{ input := 1, output := 1 }, { input := 2, output := 3 },
          { input := 0, output := 2 }]
        packedStreams := [5, 3, 4] }
    ∃ g, resolve f = .ok g ∧ g.SpansOutput f 1 2 ∧
      firstAbove g.outputStarts 2 0 3 = .ok 2 ∧
      (∃! place : Nat × Nat, g.SpansInput f place.1 place.2 5) ∧
      g.FedBy f 0 2 ∧ g.ReadFrom f 4 2 := by
  intro f
  -- the graph is computed once, and what it says of its streams is read off the theorem
  have hresolve : resolve f = .ok
      { inputStarts := [0, 2, 3], outputStarts := [0, 1, 3], totalInputs := 6, totalOutputs := 4
        finalOutput := 0, packedInputs := [5, 3, 4] } := by decide
  have h := resolve_partitionsStreams f _ hresolve
  refine ⟨_, hresolve, (h.output 1 2).mpr ⟨by decide, by decide⟩, h.search 2,
    h.input 5 (by decide), ?_, ?_⟩
  · -- the first input is named by the last bind pair
    rcases h.source 0 (by decide) with ⟨place, hfed⟩ | ⟨place, hread⟩
    · obtain rfl : 2 = place := Option.some.inj hfed.bindPair
      exact hfed
    · cases hread.noBindPair
  · rcases h.source 4 (by decide) with ⟨place, hfed⟩ | ⟨place, hread⟩
    · cases hfed.bindPair
    · obtain rfl : 2 = place := Option.some.inj hread.packed
      exact hread

end FolderGraph

end SolidArchive
