import SolidArchive.Substreams

/-!
# The header of an archive

An archive is a region of packed bytes and a header that says how to read it. The region is cut into
pack streams. A *folder* is a group of coders that turns some of the pack streams into one output;
its coders have numbered input and output streams, counted through all coders of the folder in
order, and a bind pair feeds an output into an input. An *entry* is a directory, an empty file, or a
file whose content is a substream of some folder's output.

Everything here is as it was read: nothing is known to fit together. `FolderGraph.resolve` and
`StreamMap.derive` find out whether it does.
-/

namespace SolidArchive

/-- One coder of a folder. -/
structure Coder where
  /-- Names the method. -/
  methodId : Bytes
  /-- The number of input streams. -/
  inputs : UInt32 := 1
  /-- The number of output streams. -/
  outputs : UInt32 := 1
  /-- What the method needs to know. -/
  properties : Bytes := []
  deriving DecidableEq, Repr

/-- Feeds an output stream of the folder into an input stream. -/
structure BindPair where
  input : UInt64
  output : UInt64
  deriving DecidableEq, Repr

/-- A group of coders with one result. -/
structure Folder where
  coders : List Coder
  bindPairs : List BindPair := []
  /-- The input streams that are read from the pack region, in the order of the pack streams. May be
  left out if there is only one. -/
  packedStreams : List UInt64 := []
  /-- The size of each output stream; empty if unknown. -/
  unpackSizes : List UInt64 := []
  /-- The checksum of the result. -/
  unpackCrc : Option UInt32 := none
  deriving DecidableEq, Repr

namespace Folder

/-- The number of input streams of all coders. -/
def totalInputs (f : Folder) : Nat := f.coders.foldl (fun total c => total + c.inputs.toNat) 0

/-- The number of output streams of all coders. -/
def totalOutputs (f : Folder) : Nat := f.coders.foldl (fun total c => total + c.outputs.toNat) 0

/-- The position of the bind pair that feeds an input stream. -/
def bindPairOfInput? (f : Folder) (input : Nat) : Option Nat :=
  f.bindPairs.findIdx? fun pair => pair.input.toNat = input

/-- The position of the bind pair that takes from an output stream. -/
def bindPairOfOutput? (f : Folder) (output : Nat) : Option Nat :=
  f.bindPairs.findIdx? fun pair => pair.output.toNat = output

/-- The output stream that feeds an input stream. -/
def boundOutput? (f : Folder) (input : Nat) : Option Nat :=
  (f.bindPairs.find? fun pair => pair.input.toNat = input).map fun pair => pair.output.toNat

end Folder

/-- What an entry of the archive is. -/
inductive EntryKind where
  | directory
  | emptyFile
  /-- A file whose content is a substream. -/
  | file
  deriving DecidableEq, Repr

/-- An entry of the archive. -/
structure Entry where
  name : String
  kind : EntryKind := .file
  deriving DecidableEq, Repr

/-- Whether an entry has a substream. -/
def Entry.hasContent (e : Entry) : Bool := e.kind = .file

/-- The header of an archive. -/
structure Archive where
  /-- Where the pack region starts. -/
  packPosition : UInt64 := 0
  /-- The size of each pack stream. -/
  packSizes : List UInt64 := []
  /-- Which pack streams have a checksum; empty if none has. -/
  packCrcsDefined : List Bool := []
  packCrcs : List UInt32 := []
  folders : List Folder := []
  /-- Without substreams every folder is one substream. -/
  substreams : Option Substreams := none
  entries : List Entry := []

/-- The checksum of a pack stream, if it has one. -/
def Archive.packCrc (a : Archive) (stream : Nat) : Option UInt32 :=
  if a.packCrcsDefined.getD stream false then a.packCrcs[stream]? else none

end SolidArchive
