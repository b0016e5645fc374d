import SolidArchive.Reader.Basic

/-!
# Extracting a file

The content of a file is a slice of its folder's output, and its checksum is compared with the one
that the header promises. An entry without content is extracted without decoding anything.
-/

namespace SolidArchive

/-- What became of the checksum of a file. -/
inductive CrcStatus where
  | verified
  | mismatch
  /-- The header promises no checksum. -/
  | unverifiable
  deriving DecidableEq, Repr

/-- A file with its content. -/
structure ExtractedFile where
  file : Nat
  content : Bytes := []
  /-- The checksum that the header promises. -/
  expectedCrc : Option UInt32 := none
  /-- The checksum of the content; that of no bytes is zero. -/
  actualCrc : UInt32 := 0
  deriving DecidableEq, Repr

namespace ExtractedFile

/-- Compares the checksums. -/
def crcStatus (f : ExtractedFile) : CrcStatus :=
  match f.expectedCrc with
  | none => .unverifiable
  | some crc => if crc = f.actualCrc then .verified else .mismatch

/-- The error that a wrong checksum is. -/
def integrityError? (f : ExtractedFile) : Option IntegrityError :=
  match f.expectedCrc with
  | none => none
  | some crc =>
    if crc = f.actualCrc then none
    else some { file := f.file, expected := crc, actual := f.actualCrc }

end ExtractedFile

/-- Cuts the content of a file out of the output of its folder. -/
def FileSpan.cut (span : FileSpan) (output : Bytes) : Except DecodeError ExtractedFile :=
  if output.length < span.offset ∨ output.length - span.offset < span.size then
    .error { folder := span.folder, fault := .substreamBeyondOutput span.substream }
  else
    let content := (output.drop span.offset).take span.size
    .ok
      { file := span.file
        content
        expectedCrc := span.crc
        actualCrc := Crc32.digest content }

namespace Reader

variable {σ : Type}

/-- Extracts a file. -/
def extract (r : Reader σ) (file : Nat) : ReaderM σ ExtractedFile := do
  if r.archive.entries.length ≤ file then
    throw (.fileOutOfRange file)
  else
    match r.map.findFile file with
    -- no content, so nothing to decode
    | none => pure { file }
    | some span =>
      let output ← r.folderOutput span.folder
      match span.cut output with
      | .error error => throw (.folder (.decode error))
      | .ok extracted =>
        match extracted.integrityError?, r.config.crcPolicy with
        | some error, .refuse => throw (.integrity error)
        | _, _ => pure extracted

end Reader

end SolidArchive
