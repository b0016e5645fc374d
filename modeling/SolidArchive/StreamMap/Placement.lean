import SolidArchive.StreamMap.Basic
import SolidArchive.StreamMap.Contents

/-!
# Placing files

The files with content take the substreams one after another, in the order of the entries. A cursor
goes through the folders along with them: the folder it is in, how many substreams of that folder
are taken, and how many bytes. Folders without substreams are passed over when the next file needs a
place. In the end there must be a substream for every file and a file for every substream.
-/

namespace SolidArchive

/-- Where the next file goes. -/
structure Cursor where
  folder : Nat := 0
  /-- The substreams of the folder that are taken. -/
  taken : Nat := 0
  /-- The bytes of the folder's output that are taken. -/
  offset : Nat := 0
  substream : Nat := 0
  deriving DecidableEq, Repr

namespace Cursor

/-- The first folder from `folder` on that has substreams, or the number of folders. -/
def skipEmpty (contents : List FolderContent) (folder : Nat) : Nat :=
  folder + ((contents.drop folder).takeWhile fun c => c.substreamCount = 0).length

/-- The folder of the next file. -/
def nextFolder (contents : List FolderContent) (c : Cursor) : Nat :=
  if c.taken = 0 then skipEmpty contents c.folder else c.folder

/-- Places the file `file` and moves on. -/
def place (contents : List FolderContent) (substreams : List Substream) (c : Cursor) (file : Nat) :
    Except StructuralError (FileSpan × Cursor) := do
  let folder := c.nextFolder contents
  if c.taken = 0 ∧ contents.length ≤ folder then throw (.noSubstreamLeft file)
  let substream ← Breach.lookup .breach substreams c.substream
  let content ← Breach.lookup .breach contents folder
  let span : FileSpan :=
    { file, folder, substream := c.substream, offset := c.offset, size := substream.size
      crc := substream.crc }
  let offset ← Breach.add .breach c.offset substream.size
  let taken := c.taken + 1
  let next := c.substream + 1
  -- the last substream of a folder moves the cursor to the next folder
  if content.substreamCount ≤ taken then
    pure (span, { folder := folder + 1, taken := 0, offset := 0, substream := next })
  else
    pure (span, { folder, taken, offset, substream := next })

/-- Places the entries from `file` on. Gives a span for each that has content, and the cursor behind
the last. -/
def placeAll (contents : List FolderContent) (substreams : List Substream) :
    (c : Cursor) → (file : Nat) → List Entry →
      Except StructuralError (List (Option FileSpan) × Cursor)
  | c, _, [] => .ok ([], c)
  | c, file, entry :: entries =>
    if entry.hasContent then do
      let (span, c) ← c.place contents substreams file
      let (rest, c) ← placeAll contents substreams c (file + 1) entries
      pure (some span :: rest, c)
    else do
      let (rest, c) ← placeAll contents substreams c (file + 1) entries
      pure (none :: rest, c)

end Cursor

namespace FileSpan

/-- The span of every entry that has content. -/
def ofEntries (contents : List FolderContent) (substreams : List Substream)
    (entries : List Entry) : Except StructuralError (List (Option FileSpan)) := do
  let (spans, c) ← Cursor.placeAll contents substreams {} 0 entries
  if c.substream ≠ substreams.length then
    throw (.substreamsLeft (spans.filterMap id).length substreams.length)
  pure spans

end FileSpan

end SolidArchive
