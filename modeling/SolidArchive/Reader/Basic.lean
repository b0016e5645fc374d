import SolidArchive.Reader.Cache

/-!
# Archive readers

A reader is an archive whose header has been checked, a source of its packed bytes, a decoder and
the choices of the user. All that changes is in a `Session`: the cache of the reader and, beside it,
whatever the source and the decoder consult. As the decoder works on the session too, it may go back
to the reader that called it.

To get the output of a folder is a `Call`, which takes four steps of its own: it asks the cache, and
then either waits, or decodes, hands out the outcome and records it. Other calls may come between
any two steps. `Reader.folderOutput` takes the steps in a row, which is how a lone caller sees them.
-/

namespace SolidArchive

/-- The cache of a reader and everything outside the reader. -/
structure Session (σ : Type) where
  cache : Cache
  outside : σ

/-- An archive that can be read. -/
structure Reader (σ : Type) where
  archive : Archive
  map : StreamMap
  source : Source (Session σ)
  decoder : Decoder (Session σ)
  config : Config

/-- Why there is no reader for an archive. -/
inductive OpenFault where
  | structural (error : StructuralError)
  | sourceMissing
  deriving DecidableEq, Repr

/-- How using a reader may fail. -/
inductive ReaderFault where
  | folderOutOfRange (folder : Nat)
  | fileOutOfRange (file : Nat)
  | integrity (error : IntegrityError)
  /-- The folder does not decode, or its decode ended with something that is no error. -/
  | folder (fault : FolderFault)
  /-- Everybody waits for somebody else. -/
  | stalled
  deriving DecidableEq, Repr

/-- The wording of what a reader itself finds wrong. -/
def readerMessage (detail : String) : String := "archive_reader: " ++ detail

/-- The wording of a reader that cannot be made. -/
def OpenFault.message : OpenFault → String
  | .structural error => error.message
  | .sourceMissing => readerMessage "pack source is required"

/-- The wording of a fault, unless it is something that is no error. -/
def ReaderFault.message? : ReaderFault → Option String
  | .folderOutOfRange index => some (readerMessage s!"folder index out of range: {index}")
  | .fileOutOfRange index => some (readerMessage s!"file index out of range: {index}")
  | .integrity error => some error.message
  | .folder (.decode error) => some error.message
  | .folder (.structural error) => some error.message
  | .folder (.foreign _) => none
  | .stalled => some (readerMessage "every caller waits for another")

/-- A computation with a reader. -/
abbrev ReaderM (σ : Type) := ExceptT ReaderFault (StateM (Session σ))

namespace Session

variable {σ : Type}

/-- A computation that concerns only what is outside the reader. -/
def onOutside {α : Type} (x : StateM σ α) : StateM (Session σ) α := fun s =>
  let (a, outside) := x s.outside
  (a, { s with outside })

/-- A source outside the reader. -/
def liftSource (source : Source σ) : Source (Session σ) where
  size := onOutside source.size
  read := fun offset length => onOutside (source.read offset length)

end Session

namespace Reader

variable {σ : Type}

/-- Checks the header of an archive and makes a reader for it. -/
def ofArchive (archive : Archive) (source : Option (Source (Session σ)))
    (decoder : Decoder (Session σ)) (config : Config) : Except OpenFault (Reader σ) :=
  match StreamMap.derive archive with
  | .error error => .error (.structural error)
  | .ok map =>
    match source with
    | none => .error .sourceMissing
    | some source => .ok { archive, map, source, decoder, config }

/-- The session in which a reader starts. -/
def start (r : Reader σ) (outside : σ) : Session σ where
  cache := .empty r.archive.folders.length
  outside

/-- Decodes a folder. -/
def decode (r : Reader σ) (folder : Nat) : StateM (Session σ) Outcome :=
  (decodeFolder r.archive r.map r.source r.decoder r.config folder).run

/-! ### Calls -/

/-- How far a call for the output of a folder has come. -/
inductive Call where
  | requesting
  | waiting (ticket : Nat)
  | decoding (ticket : Nat) (generation : UInt64)
  | fulfilling (ticket : Nat) (generation : UInt64) (outcome : Outcome)
  | settling (generation : UInt64) (outcome : Outcome)
  | finished (outcome : Outcome)

/-- The next step of a call. A call that waits stays as it is until the outcome is there. -/
def Call.step (r : Reader σ) (folder : Nat) : Call → StateM (Session σ) Call
  | .requesting => fun s =>
    match s.cache.request folder with
    | (.wait ticket, cache) => (.waiting ticket, { s with cache })
    | (.claim ticket generation, cache) => (.decoding ticket generation, { s with cache })
  | .waiting ticket => fun s =>
    match s.cache.outcome? ticket with
    | some outcome => (.finished outcome, s)
    | none => (.waiting ticket, s)
  | .decoding ticket generation => do
    let outcome ← r.decode folder
    pure (.fulfilling ticket generation outcome)
  | .fulfilling ticket generation outcome => fun s =>
    (.settling generation outcome, { s with cache := s.cache.fulfil ticket outcome })
  | .settling generation outcome => fun s =>
    (.finished outcome, { s with cache := s.cache.settle folder generation outcome })
  | .finished outcome => pure (.finished outcome)

/-- Takes a number of steps of a call in a row. -/
def Call.run (r : Reader σ) (folder : Nat) : (steps : Nat) → Call → StateM (Session σ) Call
  | 0, call => pure call
  | steps + 1, call => do Call.run r folder steps (← call.step r folder)

/-- The outcome of a call, if it has one. -/
def Call.outcome? : Call → Option Outcome
  | .finished outcome => some outcome
  | _ => none

/-- The steps that a call needs. -/
def Call.length : Nat := 4

/-- What the output of a folder comes to, from the cache or by a decode. -/
def folderOutcome (r : Reader σ) (folder : Nat) : StateM (Session σ) (Option Outcome) := do
  return (← Call.run r folder Call.length .requesting).outcome?

/-- The output of a folder, from the cache or by a decode. -/
def folderOutput (r : Reader σ) (folder : Nat) : ReaderM σ Bytes := do
  match ← (r.folderOutcome folder : StateM (Session σ) (Option Outcome)) with
  | none => throw .stalled
  | some (.error fault) => throw (.folder fault)
  | some (.ok bytes) => pure bytes

/-! ### Folders -/

/-- Decodes a folder past the cache. -/
def decodeUncached (r : Reader σ) (folder : Nat) : ReaderM σ Bytes := do
  if r.archive.folders.length ≤ folder then
    throw (.folderOutOfRange folder)
  else
    match ← (r.decode folder : StateM (Session σ) Outcome) with
    | .ok bytes => pure bytes
    | .error fault => throw (.folder fault)

/-- Forgets the output of a folder. -/
def releaseFolder (_ : Reader σ) (folder : Nat) : ReaderM σ Unit := do
  let s ← get
  if s.cache.slots.length ≤ folder then
    throw (.folderOutOfRange folder)
  else
    set { s with cache := s.cache.release folder }

end Reader

/-- The number of folders whose output is held. -/
def Session.cachedFolders {σ : Type} (s : Session σ) : Nat := s.cache.decodedCount

end SolidArchive
