import SolidArchive.Archive

/-!
# The coder graph of a folder

A folder is a graph when its bind pairs make sense of its streams: every stream is bound at most
once, exactly one output is left over (the folder's result), the inputs left over are just the ones
that are read from the pack region, and no coder waits for itself.

`FolderGraph.resolve` checks this in a fixed order and numbers the streams. The first faults are
found by counting and marking: `markBound` marks the streams that bind pairs name, and the unmarked
ones are compared with what the folder lists. Cycles are found last, by walking from every coder to
the coders that feed it. The walk marks a coder while it is under way and again when it is done;
meeting one that is under way closes a cycle. It is given as much depth as there are coders, and one
more.
-/

namespace SolidArchive

/-- The streams of a folder, numbered and sorted out. -/
structure FolderGraph where
  /-- The first input stream of each coder. -/
  inputStarts : List Nat
  /-- The first output stream of each coder. -/
  outputStarts : List Nat
  totalInputs : Nat
  totalOutputs : Nat
  /-- The output that no bind pair takes: the folder's result. -/
  finalOutput : Nat
  /-- The inputs read from the pack region, in the order of the pack streams. -/
  packedInputs : List Nat
  deriving DecidableEq, Repr

namespace FolderGraph

/-- The coder that has an output stream; the last one for a stream out of range. -/
def coderOfOutput (g : FolderGraph) (output : Nat) : Nat :=
  g.outputStarts.countP (fun start => decide (start ≤ output)) - 1

/-- The position of an input among those read from the pack region. -/
def packedPosition? (g : FolderGraph) (input : Nat) : Option Nat :=
  g.packedInputs.findIdx? (· = input)

/-! ### Coders -/

/-- More coders than this are refused. -/
def maxCoders : Nat := 64

/-- More streams than this on one side of a coder are refused. -/
def maxStreams : Nat := 64

/-- Whether a coder declares a sensible number of streams. -/
def validStreamCounts (c : Coder) : Bool :=
  0 < c.inputs.toNat ∧ 0 < c.outputs.toNat ∧
    c.inputs.toNat ≤ maxStreams ∧ c.outputs.toNat ≤ maxStreams

/-- The running sums of a list, from `start` on, without the last. -/
def starts (start : Nat) : List Nat → List Nat
  | [] => []
  | n :: ns => start :: starts (start + n) ns

/-- Checks the number of coders and of their streams. -/
def checkCoders (coders : List Coder) : Except GraphFault Unit :=
  if coders = [] then .error .noCoders
  else if maxCoders < coders.length then .error (.tooManyCoders coders.length)
  else
    match coders.findIdx? fun c => !validStreamCounts c with
    | some i => .error (.streamCount i)
    | none => .ok ()

/-! ### Bound and unbound streams -/

/-- Marks the streams that bind pairs name, in two tables for inputs and outputs. -/
def markBound : (pairs : List BindPair) → (inputs outputs : List Bool) →
    Except GraphFault (List Bool × List Bool)
  | [], inputs, outputs => .ok (inputs, outputs)
  | pair :: pairs, inputs, outputs => do
    let input := pair.input.toNat
    let output := pair.output.toNat
    if inputs.length ≤ input then throw (.inputOutOfRange input)
    if outputs.length ≤ output then throw (.outputOutOfRange output)
    if ← Breach.lookup .breach inputs input then throw (.inputBoundTwice input)
    if ← Breach.lookup .breach outputs output then throw (.outputBoundTwice output)
    markBound pairs (inputs.set input true) (outputs.set output true)

/-- The indices of the unmarked entries of a table. -/
def unmarked (table : List Bool) : List Nat :=
  (List.range table.length).filter fun i => !table.getD i true

/-- The one output that is not bound. -/
def findFinalOutput (outputs : List Bool) : Except GraphFault Nat :=
  match unmarked outputs with
  | [] => .error .noUnboundOutput
  | [output] => .ok output
  | _ => .error .severalUnboundOutputs

/-- Checks that every packed stream is an unbound input and is listed once; `used` marks those that
came before. -/
def checkPacked : (listed : List UInt64) → (inputs used : List Bool) → Except GraphFault Unit
  | [], _, _ => .ok ()
  | stream :: listed, inputs, used => do
    let input := stream.toNat
    if inputs.length ≤ input then throw (.packedStreamIndex input)
    if ← Breach.lookup .breach inputs input then throw (.packedStreamIndex input)
    if ← Breach.lookup .breach used input then throw (.packedStreamIndex input)
    checkPacked listed inputs (used.set input true)

/-- The inputs that are read from the pack region: those listed, or the only unbound one. -/
def findPackedInputs (f : Folder) (inputs : List Bool) : Except GraphFault (List Nat) := do
  let needed ← Breach.sub .breach inputs.length f.bindPairs.length
  if needed = 0 then throw .everyInputBound
  if f.packedStreams = [] then
    if needed ≠ 1 then throw (.packedStreamsMissing needed)
    pure ((unmarked inputs).take 1)
  else
    if f.packedStreams.length ≠ needed then
      throw (.packedStreamCount f.packedStreams.length needed)
    checkPacked f.packedStreams inputs (List.replicate inputs.length false)
    pure (f.packedStreams.map UInt64.toNat)

/-! ### Cycles -/

/-- How far the walk has come with a coder. -/
inductive Mark where
  | unvisited
  | underWay
  | done
  deriving DecidableEq, Repr

/-- The coders that feed a coder, in the order of its inputs. -/
def feeders (f : Folder) (g : FolderGraph) (coder : Nat) : Except GraphFault (List Nat) := do
  let c ← Breach.lookup .breach f.coders coder
  let start ← Breach.lookup .breach g.inputStarts coder
  pure ((List.range c.inputs.toNat).filterMap fun i =>
    (f.boundOutput? (start + i)).map g.coderOfOutput)

/-- Walks from a coder to all that feed it, directly or not, and marks them. -/
def visit (f : Folder) (g : FolderGraph) :
    (depth : Nat) → (marks : List Mark) → (coder : Nat) → Except GraphFault (List Mark)
  | 0, _, _ => .error (.breach .depth)
  | depth + 1, marks, coder => do
    match ← Breach.lookup .breach marks coder with
    | .done => pure marks
    | .underWay => throw (.cycle coder)
    | .unvisited =>
      -- under way until everything that feeds it is done
      let marks ← (← feeders f g coder).foldlM (visit f g depth) (marks.set coder .underWay)
      pure (marks.set coder .done)

/-- Checks that no coder feeds itself, directly or not. -/
def checkAcyclic (f : Folder) (g : FolderGraph) : Except GraphFault Unit := do
  let _ ← (List.range f.coders.length).foldlM (visit f g (f.coders.length + 1))
    (List.replicate f.coders.length .unvisited)
  pure ()

/-! ### Resolving -/

/-- Checks that a folder is a coder graph and numbers its streams. -/
def resolve (f : Folder) : Except GraphFault FolderGraph := do
  checkCoders f.coders
  let (inputs, outputs) ← markBound f.bindPairs
    (List.replicate f.totalInputs false) (List.replicate f.totalOutputs false)
  let finalOutput ← findFinalOutput outputs
  let packedInputs ← findPackedInputs f inputs
  if f.unpackSizes ≠ [] ∧ f.unpackSizes.length ≠ f.totalOutputs then
    throw (.unpackSizeCount f.unpackSizes.length f.totalOutputs)
  let graph : FolderGraph :=
    { inputStarts := starts 0 (f.coders.map fun c => c.inputs.toNat)
      outputStarts := starts 0 (f.coders.map fun c => c.outputs.toNat)
      totalInputs := f.totalInputs
      totalOutputs := f.totalOutputs
      finalOutput
      packedInputs }
  checkAcyclic f graph
  pure graph

/-- The size that a folder declares for its result, if it declares sizes. -/
def declaredSize (f : Folder) (g : FolderGraph) : Except GraphFault (Option Nat) :=
  if f.unpackSizes = [] then .ok none
  else (Breach.lookup .breach f.unpackSizes g.finalOutput).map fun size => some size.toNat

end FolderGraph

end SolidArchive
