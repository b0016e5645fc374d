import SolidArchive.Reader.Extract
import SolidArchive.Reader.Workers

/-!
# Extracting all files

All folders that have files are decoded, and then each file is cut out of what its folder came to.
A file whose folder failed, was cancelled, or gave the wrong bytes has a result that says so; the
others are not affected.
-/

namespace SolidArchive

/-- What became of a file in an extraction. -/
inductive Extraction where
  | extracted (file : ExtractedFile)
  /-- The folder failed. Without an error nobody has come to it. -/
  | decodeFailed (error : Option DecodeError)
  /-- The content has the wrong checksum. -/
  | integrityFailed (file : ExtractedFile) (error : IntegrityError)
  /-- The extraction was cancelled before the folder's turn. -/
  | cancelled (folder : Nat)
  deriving DecidableEq, Repr

namespace Extraction

/-- What went wrong; empty if nothing did. -/
def errorText : Extraction → String
  | .extracted _ => ""
  | .decodeFailed none => ""
  | .decodeFailed (some error) => error.message
  | .integrityFailed _ error => error.message
  | .cancelled folder => s!"folder {folder} skipped: extraction cancelled"

/-- The file with its content, whether or not the checksum is right. -/
def file? : Extraction → Option ExtractedFile
  | .extracted file => some file
  | .integrityFailed file _ => some file
  | _ => none

end Extraction

/-- The result of a file in an extraction. -/
structure ExtractResult where
  file : Nat
  extraction : Extraction
  deriving DecidableEq, Repr

/-- The result of a file from the result of its folder. -/
def FileSpan.extraction (span : FileSpan) : FolderResult → Except DecodeError Extraction
  | .untouched => .ok (.decodeFailed none)
  | .cancelled => .ok (.cancelled span.folder)
  | .failed error => .ok (.decodeFailed (some error))
  | .decoded output =>
    match span.cut output with
    | .error error => .error error
    | .ok file =>
      match file.integrityError? with
      | some error => .ok (.integrityFailed file error)
      | none => .ok (.extracted file)

/-- The results of files from the results of the folders. -/
def collectFiles (results : List FolderResult) :
    List FileSpan → Except DecodeError (List ExtractResult)
  | [] => .ok []
  | span :: spans => do
    let extraction ← span.extraction (results.getD span.folder .untouched)
    let rest ← collectFiles results spans
    pure ({ file := span.file, extraction } :: rest)

namespace Reader

variable {σ : Type}

/-- Extracts all files with content. Before each folder `cancelled` is asked whether to go on. -/
def extractAll (r : Reader σ) (cancelled : StateM σ Bool) : ReaderM σ (List ExtractResult) := do
  let results ← r.decodeAll cancelled
  match collectFiles results r.map.files with
  | .ok results => pure results
  | .error error => throw (.folder (.decode error))

end Reader

end SolidArchive
