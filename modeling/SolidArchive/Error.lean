import SolidArchive.Bytes

/-!
# What can be wrong with an archive

An archive fails in one of three ways, each an inductive type of causes with its wording in one
place:

* its header is inconsistent (`StructuralError`), which shows before anything is decoded; a folder
  that is no coder graph is one cause, with causes of its own (`GraphFault`);
* a folder does not decode (`DecodeError`), which names the folder;
* a file decodes to other bytes than the header promises (`IntegrityError`).

`Breach` is a fourth kind that no archive brings about: an entry outside its table, a number outside
its word, a walk deeper than the graph. The computations report such a breach instead of going on
with a made-up value, so that its absence is a theorem about them and not a matter of how they are
written.

Sources and decoders that are not part of the library may also end with something that is no error
at all (`Foreign`). It has no wording, and is passed on to whoever asked.
-/

namespace SolidArchive

/-! ### Breaches -/

/-- A step outside the ground that a computation was checked for. -/
inductive Breach where
  /-- An entry was asked for that its table does not have. -/
  | index
  /-- A number does not fit its 64-bit word. -/
  | word
  /-- A walk through coders went deeper than there are coders. -/
  | depth
  deriving DecidableEq, Repr

namespace Breach

/-- The wording of each breach. -/
def message : Breach → String
  | .index => "index outside its table"
  | .word => "number outside its word"
  | .depth => "walk deeper than the graph"

variable {ε α : Type}

/-- The entry of a table at an index that is expected to be in range. -/
def lookup (breach : Breach → ε) (table : List α) (i : Nat) : Except ε α :=
  match table[i]? with
  | some a => .ok a
  | none => .error (breach .index)

/-- A sum that is expected to fit a word. -/
def add (breach : Breach → ε) (a b : Nat) : Except ε Nat :=
  if a + b < 1 <<< 64 then .ok (a + b) else .error (breach .word)

/-- A difference that is expected not to be negative. -/
def sub (breach : Breach → ε) (a b : Nat) : Except ε Nat :=
  if b ≤ a then .ok (a - b) else .error (breach .word)

end Breach

/-! ### Inconsistent headers -/

/-- Why a folder is not a coder graph. -/
inductive GraphFault where
  | noCoders
  | tooManyCoders (count : Nat)
  | streamCount (coder : Nat)
  | inputOutOfRange (input : Nat)
  | outputOutOfRange (output : Nat)
  | inputBoundTwice (input : Nat)
  | outputBoundTwice (output : Nat)
  | severalUnboundOutputs
  | noUnboundOutput
  | everyInputBound
  | packedStreamsMissing (needed : Nat)
  | packedStreamCount (listed needed : Nat)
  | packedStreamIndex (input : Nat)
  | unpackSizeCount (sizes outputs : Nat)
  | cycle (coder : Nat)
  | breach (breach : Breach)
  deriving DecidableEq, Repr

/-- The wording of each fault of a folder. -/
def GraphFault.message : GraphFault → String
  | .noCoders => "folder has no coders"
  | .tooManyCoders count => s!"too many coders: {count}"
  | .streamCount coder => s!"coder {coder} declares an invalid stream count"
  | .inputOutOfRange input => s!"bind pair input index {input} out of range"
  | .outputOutOfRange output => s!"bind pair output index {output} out of range"
  | .inputBoundTwice input => s!"input stream {input} bound twice"
  | .outputBoundTwice output => s!"output stream {output} bound twice"
  | .severalUnboundOutputs => "more than one unbound output stream"
  | .noUnboundOutput => "no unbound output stream"
  | .everyInputBound => "every input stream is bound, nothing is read from the pack region"
  | .packedStreamsMissing needed => s!"folder needs {needed} packed streams but lists none"
  | .packedStreamCount listed needed =>
    s!"folder lists {listed} packed streams, expected {needed}"
  | .packedStreamIndex input => s!"invalid packed stream index {input}"
  | .unpackSizeCount sizes outputs =>
    s!"folder declares {sizes} unpack sizes for {outputs} output streams"
  | .cycle coder => s!"bind pairs form a cycle through coder {coder}"
  | .breach kind => kind.message

/-- A sum that a header makes, whose overflow is refused. -/
inductive CheckedSum where
  | packRegion
  | packedLength
  | substreamSizes
  deriving DecidableEq, Repr

/-- The name of each sum in messages. -/
def CheckedSum.name : CheckedSum → String
  | .packRegion => "pack region end"
  | .packedLength => "folder packed length"
  | .substreamSizes => "folder substream sizes"

/-- Why a header is inconsistent. -/
inductive StructuralError where
  | graph (folder : Nat) (fault : GraphFault)
  | packCrcFlags (flags streams : Nat)
  | packCrcValues
  | overflow (sum : CheckedSum)
  | packStreamsShort (folder needed left : Nat)
  | packStreamsUnclaimed (count : Nat)
  | substreamFolders (covered folders : Nat)
  | noOutputSize (folder : Nat)
  | substreamTotal (folder total declared : Nat)
  | noSubstreamLeft (file : Nat)
  | substreamsLeft (files substreams : Nat)
  | substreamCountOverflow
  | substreamSizeCount (declared sizes : Nat)
  | substreamDigestCount (digests substreams : Nat)
  /-- Found by a coder that is not part of the library. -/
  | other (text : String)
  | breach (breach : Breach)
  deriving DecidableEq, Repr

namespace StructuralError

/-- What is inconsistent. -/
def detail : StructuralError → String
  | .graph folder fault => s!"folder {folder}: " ++ fault.message
  | .packCrcFlags flags streams =>
    s!"pack CRC presence bits cover {flags} streams but {streams} pack streams exist"
  | .packCrcValues => "pack CRC values are not aligned with pack sizes"
  | .overflow sum => sum.name ++ " overflows"
  | .packStreamsShort folder needed left =>
    s!"folder {folder} needs {needed} pack streams but only {left} remain"
  | .packStreamsUnclaimed count => s!"{count} pack streams are not claimed by any folder"
  | .substreamFolders covered folders =>
    s!"substream info covers {covered} folders but archive has {folders}"
  | .noOutputSize folder => s!"folder {folder} declares no output size"
  | .substreamTotal folder total declared =>
    s!"folder {folder} substreams total {total} bytes but the folder unpacks to {declared}"
  | .noSubstreamLeft file => s!"file {file} has content but no substream is left for it"
  | .substreamsLeft files substreams =>
    s!"{files} files have content but the archive declares {substreams} substreams"
  | .substreamCountOverflow => "substream count overflow"
  | .substreamSizeCount declared sizes =>
    s!"folders declare {declared} substreams but {sizes} unpack sizes were read"
  | .substreamDigestCount digests substreams =>
    s!"substream digest count {digests} does not match substream count {substreams}"
  | .other text => text
  | .breach kind => kind.message

/-- The wording of each inconsistency. -/
def message (error : StructuralError) : String := "7z structural error: " ++ error.detail

/-- A sum that is refused when it does not fit a word. -/
def checkedAdd (sum : CheckedSum) (a b : Nat) : Except StructuralError Nat :=
  if a + b < 1 <<< 64 then .ok (a + b) else .error (.overflow sum)

end StructuralError

/-! ### What is no error -/

/-- Something that was thrown and is no error. Nothing can be read from it; the number tells it from
others, so that to pass it on is to pass on the same one. -/
structure Foreign where
  number : Nat
  deriving DecidableEq, Repr

/-! ### Sources of packed data -/

/-- Why the size of a file is unknown. -/
inductive FileFault where
  | notFound
  | isDirectory
  deriving DecidableEq, Repr

/-- The wording of each file fault. -/
def FileFault.message : FileFault → String
  | .notFound => "No such file or directory"
  | .isDirectory => "Is a directory"

/-- Why a source did not give its bytes. -/
inductive SourceError where
  | shortRead (offset length : Nat)
  | cannotOpen (path : String)
  | sizeUnknown (fault : FileFault)
  /-- Found by a source that is not part of the library. -/
  | other (text : String)
  deriving DecidableEq, Repr

/-- The wording of each source error. -/
def SourceError.message : SourceError → String
  | .shortRead offset length => s!"pack source: short read at offset {offset} length {length}"
  | .cannotOpen path => "pack source: failed to open file for read: " ++ path
  | .sizeUnknown fault => "pack source: failed to read file size: " ++ fault.message
  | .other text => text

/-- How a source may fail. -/
inductive SourceFault where
  /-- With an error that says why. -/
  | failure (error : SourceError)
  /-- With something that is no error. -/
  | foreign (thrown : Foreign)
  deriving DecidableEq, Repr

/-! ### Folders that do not decode -/

/-- Why a folder does not decode. -/
inductive DecodeFault where
  | folderOutOfRange
  | aboveLimit (size : Nat)
  | packStream (stream : Nat) (error : SourceError)
  | packStreamCrc (stream : Nat)
  | severalOutputs (coder outputs : Nat)
  | noInputSource (input : Nat)
  /-- The coder failed for a reason of its own. -/
  | coderFailed (coder : Nat) (methodId : Bytes) (reason : String)
  | outputSize (coder produced declared : Nat)
  | shortOutput (decoded expected : Nat)
  | substreamBeyondOutput (substream : Nat)
  /-- Found by a coder that is not part of the library. -/
  | other (text : String)
  | breach (breach : Breach)
  deriving DecidableEq, Repr

/-- The wording of each fault of a folder. -/
def DecodeFault.message : DecodeFault → String
  | .folderOutOfRange => "folder index out of range"
  | .aboveLimit size => s!"folder unpacks to {size} bytes, above the configured limit"
  | .packStream stream error => s!"pack stream {stream}: " ++ error.message
  | .packStreamCrc stream => s!"pack stream {stream} CRC mismatch"
  | .severalOutputs coder outputs =>
    s!"coder {coder} has {outputs} output streams, only single-output coders are supported"
  | .noInputSource input => s!"input stream {input} has no source"
  | .coderFailed index methodId reason =>
    s!"coder {index} (method " ++ (if methodId = [] then "(empty)" else hexText methodId) ++
      "): " ++ reason
  | .outputSize coder produced declared =>
    s!"coder {coder} produced {produced} bytes, declared {declared}"
  | .shortOutput decoded expected =>
    s!"decoded {decoded} bytes but {expected} were expected"
  | .substreamBeyondOutput substream => s!"substream {substream} extends past the folder output"
  | .other text => text
  | .breach kind => kind.message

/-- A folder that does not decode. -/
structure DecodeError where
  folder : Nat
  fault : DecodeFault
  deriving DecidableEq, Repr

/-- The wording of a decode error. -/
def DecodeError.message (error : DecodeError) : String :=
  s!"7z decode error in folder {error.folder}: " ++ error.fault.message

/-! ### Files that decode to something else -/

/-- A file whose checksum is not the one that the header promises. -/
structure IntegrityError where
  file : Nat
  expected : UInt32
  actual : UInt32
  deriving DecidableEq, Repr

/-- The wording of an integrity error. -/
def IntegrityError.message (error : IntegrityError) : String :=
  s!"7z integrity error for file {error.file}: crc mismatch, expected " ++ hexWord error.expected ++
    " got " ++ hexWord error.actual

end SolidArchive
