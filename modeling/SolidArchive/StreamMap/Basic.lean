import SolidArchive.Bytes

/-!
# The stream map of an archive

The stream map is what the header comes to: where in the pack region each folder's streams lie, how
long each folder's output is, and which slice of which output is the content of each file.
-/

namespace SolidArchive

/-- The pack streams, the output and the substreams of a folder. -/
structure FolderSpan where
  firstPackStream : Nat
  packStreamCount : Nat
  /-- Where the folder's pack streams start. -/
  packOffset : Nat
  /-- The length of the folder's pack streams together. -/
  packedLength : Nat
  /-- The length of the folder's output. -/
  unpackLength : Nat
  firstSubstream : Nat
  substreamCount : Nat
  /-- The first entry whose content is in this folder. -/
  firstFile : Option Nat
  deriving DecidableEq, Repr

/-- The slice of a folder's output that is the content of a file. -/
structure FileSpan where
  /-- The entry. -/
  file : Nat
  folder : Nat
  substream : Nat
  /-- Where in the folder's output the content starts. -/
  offset : Nat
  size : Nat
  /-- The checksum that the header promises, if any. -/
  crc : Option UInt32
  deriving DecidableEq, Repr

/-- Where everything in an archive is. -/
structure StreamMap where
  folders : List FolderSpan
  /-- Where each pack stream starts. -/
  packOffsets : List Nat
  /-- Where the pack region ends. -/
  packEnd : Nat
  /-- The folder of each entry that has content. -/
  fileFolders : List (Option Nat)
  /-- The position in `files` of each entry that has content. -/
  fileStreams : List (Option Nat)
  /-- The files with content, in the order of the entries. -/
  files : List FileSpan
  deriving DecidableEq, Repr

/-- The span of an entry, if it is in range and has content. -/
def StreamMap.findFile (map : StreamMap) (file : Nat) : Option FileSpan :=
  match map.fileStreams[file]?.join with
  | some stream => map.files[stream]?
  | none => none

end SolidArchive
