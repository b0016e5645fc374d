import SolidArchive.Crc32
import SolidArchive.Source
import SolidArchive.StreamMap.Derive
import SolidArchive.Decoder

/-!
# Decoding a folder

A folder is decoded in two stages. First all its pack streams are read, and checked against their
checksums if that is asked for; no coder runs before the last of them is there. Then the result is
evaluated: the coder that has the final output is run on its inputs, and each input is a pack stream
or the output of another coder, which is evaluated in the same way, inputs from left to right. Every
output has a slot, which is filled when the output is there, so that no coder runs twice.

An error of the source is reported with the number of the pack stream, and a coder's failure for a
reason of its own with the name of the coder. A decode error of a coder, and anything that is no
error at all, be it from the source or from a coder, is passed on as it is.
-/

namespace SolidArchive

/-! ### Choices of the user -/

/-- What a file with the wrong checksum leads to. -/
inductive CrcPolicy where
  /-- Extracting it is an error. -/
  | refuse
  /-- It is extracted and marked. -/
  | report
  deriving DecidableEq, Repr

/-- What the user of a reader decides. -/
structure Config where
  verifyPackCrcs : Bool := true
  crcPolicy : CrcPolicy := .refuse
  /-- How many folders may be decoded at a time. -/
  concurrency : Int := 1
  /-- Folders with a longer output are not decoded. -/
  maxFolderBytes : Nat := 1 <<< 30
  deriving DecidableEq, Repr

/-! ### Decoding -/

/-- How decoding a folder may end without an output. -/
inductive FolderFault where
  | decode (error : DecodeError)
  | structural (error : StructuralError)
  /-- Something that is no error came from the source or from a coder. -/
  | foreign (thrown : Foreign)
  deriving DecidableEq, Repr

/-- A computation over a state that may end in a folder fault. -/
abbrev FolderM (σ : Type) := ExceptT FolderFault (StateM σ)

/-- The part of an archive that decoding one folder needs. -/
structure FolderJob where
  /-- The number of the folder. -/
  index : Nat
  folder : Folder
  graph : FolderGraph
  /-- The length of the output. -/
  unpackLength : Nat

namespace FolderJob

variable {σ : Type}

/-- Ends with a fault of the folder. -/
def fail {m : Type → Type} [MonadExceptOf FolderFault m] {α : Type} (folder : Nat)
    (fault : DecodeFault) : m α :=
  throwThe FolderFault (.decode { folder, fault })

/-- A computation without a state, as a step of decoding a folder. -/
def lift {m : Type → Type} [Monad m] [MonadExceptOf FolderFault m] {α : Type} (folder : Nat)
    (x : Except DecodeFault α) : m α :=
  match x with
  | .ok a => pure a
  | .error fault => fail folder fault

/-! ### Reading the pack streams -/

/-- Reads a pack stream and checks it. -/
def readPackStream (a : Archive) (map : StreamMap) (source : Source σ) (verify : Bool)
    (folder stream : Nat) : FolderM σ Bytes := do
  let size ← lift folder (Breach.lookup .breach a.packSizes stream)
  let offset ← lift folder (Breach.lookup .breach map.packOffsets stream)
  match ← (source.read offset size.toNat : StateM σ (Except SourceFault Bytes)) with
  | .error (.failure error) => fail folder (.packStream stream error)
  | .error (.foreign thrown) => throw (.foreign thrown)
  | .ok bytes =>
    match a.packCrc stream with
    | some crc =>
      if verify ∧ Crc32.digest bytes ≠ crc then fail folder (.packStreamCrc stream)
      else pure bytes
    | none => pure bytes

/-- Reads `count` pack streams from `stream` on. -/
def readPackStreams (a : Archive) (map : StreamMap) (source : Source σ) (verify : Bool)
    (folder : Nat) : (count stream : Nat) → FolderM σ (List Bytes)
  | 0, _ => pure []
  | count + 1, stream => do
    let bytes ← readPackStream a map source verify folder stream
    let rest ← readPackStreams a map source verify folder count (stream + 1)
    pure (bytes :: rest)

/-! ### Evaluating the coders -/

/-- The size that an output should have, if it is known. -/
def expectedSize (job : FolderJob) (output : Nat) : Except DecodeFault (Option Nat) :=
  if job.folder.unpackSizes ≠ [] then
    (Breach.lookup .breach job.folder.unpackSizes output).map fun size => some size.toNat
  else if output = job.graph.finalOutput then .ok (some job.unpackLength)
  else .ok none

/-- Runs the coder of a given number on its inputs. -/
abbrev CoderRun (σ : Type) : Type :=
  (index : Nat) → Coder → List Bytes → Option Nat → FolderM σ Bytes

/-- Runs coders of a folder by a decoder and passes on its failures. -/
def runBy (folder : Nat) (decoder : Decoder σ) : CoderRun σ :=
  fun index coder inputs expected => do
    match ← (decoder coder inputs expected : StateM σ (Except DecoderFault Bytes)) with
    | .ok bytes => pure bytes
    | .error (.decode error) => throw (.decode error)
    | .error (.failure reason) => fail folder (.coderFailed index coder.methodId reason)
    | .error (.foreign thrown) => throw (.foreign thrown)

/-- A step of evaluating a folder, which may look at the slots of its outputs and fill them. -/
abbrev EvalM (σ : Type) := StateT (List (Option Bytes)) (FolderM σ)

/-- The bytes of an input: those of the output that feeds it, or a pack stream. -/
def inputBytes (job : FolderJob) (packed : List Bytes) (feed : Nat → EvalM σ Bytes) (input : Nat) :
    EvalM σ Bytes :=
  match job.folder.boundOutput? input with
  | some feeder => feed feeder
  | none =>
    match job.graph.packedPosition? input with
    | some position => lift job.index (Breach.lookup .breach packed position)
    | none => fail job.index (.noInputSource input)

/-- Runs a coder for one of its outputs and checks the size of what it gives. -/
def runChecked (job : FolderJob) (runCoder : CoderRun σ) (index : Nat) (coder : Coder)
    (inputs : List Bytes) (output : Nat) : FolderM σ Bytes := do
  let expected ← lift job.index (job.expectedSize output)
  let produced ← runCoder index coder inputs expected
  match expected with
  | some declared =>
    if produced.length ≠ declared then
      fail job.index (.outputSize index produced.length declared)
    else pure produced
  | none => pure produced

/-- Runs the coder that has an output, after everything that feeds that coder. -/
def produce (job : FolderJob) (runCoder : CoderRun σ) (packed : List Bytes)
    (feed : Nat → EvalM σ Bytes) (output : Nat) : EvalM σ Bytes := do
  let index := job.graph.coderOfOutput output
  let coder ← lift job.index (Breach.lookup .breach job.folder.coders index)
  if coder.outputs ≠ 1 then
    fail job.index (.severalOutputs index coder.outputs.toNat)
  let start ← lift job.index (Breach.lookup .breach job.graph.inputStarts index)
  let inputs ← (List.range coder.inputs.toNat).mapM fun i =>
    job.inputBytes packed feed (start + i)
  -- all inputs are there before the coder runs
  job.runChecked runCoder index coder inputs output

/-- Evaluates an output: looks into its slot, or produces it and fills the slot. -/
def evaluate (job : FolderJob) (runCoder : CoderRun σ) (packed : List Bytes) :
    (depth : Nat) → (output : Nat) → EvalM σ Bytes
  | 0, _ => fail job.index (.breach .depth)
  | depth + 1, output => do
    match ← lift job.index (Breach.lookup .breach (← get) output) with
    | some bytes => pure bytes
    | none =>
      let bytes ← job.produce runCoder packed (evaluate job runCoder packed depth) output
      modify fun slots : List (Option Bytes) => slots.set output (some bytes)
      pure bytes

/-- Evaluates the result and cuts it to its length. -/
def run (job : FolderJob) (runCoder : CoderRun σ) (packed : List Bytes) : FolderM σ Bytes := do
  let (output, _) ← (job.evaluate runCoder packed job.folder.coders.length
    job.graph.finalOutput).run (List.replicate job.graph.totalOutputs none)
  if output.length < job.unpackLength then
    fail job.index (.shortOutput output.length job.unpackLength)
  else pure (output.take job.unpackLength)

end FolderJob

/-- Decodes a folder of an archive, whose coders are run by `runCoder`. -/
def decodeFolderBy {σ : Type} (a : Archive) (map : StreamMap) (source : Source σ)
    (runCoder : FolderJob.CoderRun σ) (config : Config) (index : Nat) : FolderM σ Bytes := do
  match a.folders[index]? with
  | none => FolderJob.fail index .folderOutOfRange
  | some folder =>
    let span ← FolderJob.lift index (Breach.lookup .breach map.folders index)
    if config.maxFolderBytes < span.unpackLength then
      FolderJob.fail index (.aboveLimit span.unpackLength)
    let graph ← match FolderGraph.resolve folder with
      | .ok graph => pure graph
      | .error fault => throw (.structural (.graph index fault))
    -- every pack stream is read before any coder runs
    let packed ← FolderJob.readPackStreams a map source config.verifyPackCrcs index
      span.packStreamCount span.firstPackStream
    let job : FolderJob := { index, folder, graph, unpackLength := span.unpackLength }
    job.run runCoder packed

/-- Decodes a folder of an archive. -/
def decodeFolder {σ : Type} (a : Archive) (map : StreamMap) (source : Source σ)
    (decoder : Decoder σ) (config : Config) (index : Nat) : FolderM σ Bytes :=
  decodeFolderBy a map source (FolderJob.runBy index decoder) config index

end SolidArchive
