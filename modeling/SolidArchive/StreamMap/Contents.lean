import SolidArchive.Folder.Graph

/-!
# The contents of folders

The output of a folder is cut into substreams. Without substreams in the header each folder is one
substream of the size that it declares. With them the sizes come from the header, and a folder that
declares a size must declare their sum.

The checksum of a substream is its own if it has one. A folder's checksum covers its whole output,
so it stands in only for the single substream of a folder.
-/

namespace SolidArchive

/-- A substream as it lies in the output of its folder. -/
structure Substream where
  size : Nat
  crc : Option UInt32
  deriving DecidableEq, Repr

/-- The output of a folder. -/
structure FolderContent where
  length : Nat
  firstSubstream : Nat
  substreamCount : Nat
  deriving DecidableEq, Repr

namespace FolderContent

/-- The size that a folder declares for its result. -/
def declared (folder : Nat) (f : Folder) (g : FolderGraph) :
    Except StructuralError (Option Nat) :=
  (g.declaredSize f).mapError (.graph folder)

/-- The `count` substreams from the `taken`-th one of a folder on, whose substreams start with
`first`, and the sum of their sizes, after `total`. A folder checksum is given where it may stand
in. -/
def collect (s : Substreams) (folderCrc : Option UInt32) (first taken : Nat) :
    (count : Nat) → (total : Nat) → Except StructuralError (List Substream × Nat)
  | 0, total => .ok ([], total)
  | count + 1, total => do
    let index ← Breach.add .breach first taken
    let size ← Breach.lookup .breach s.sizes index
    let total ← StructuralError.checkedAdd .substreamSizes total size.toNat
    let crc ← Breach.lookup .breach s.crcs index
    let (rest, total) ← collect s folderCrc first (taken + 1) count total
    pure ({ size := size.toNat, crc := crc <|> folderCrc } :: rest, total)

/-- The contents of the folders from `folder` on, whose substreams start with `substream`. -/
def ofFolders (substreams : Option Substreams) :
    (folder substream : Nat) → List (Folder × FolderGraph) →
      Except StructuralError (List FolderContent × List Substream)
  | _, _, [] => .ok ([], [])
  | folder, substream, (f, g) :: folders => do
    let declared ← declared folder f g
    match substreams with
    | none =>
      let some size := declared | throw (.noOutputSize folder)
      let next ← Breach.add .breach substream 1
      let (contents, rest) ← ofFolders substreams (folder + 1) next folders
      pure ({ length := size, firstSubstream := substream, substreamCount := 1 } :: contents,
        { size, crc := f.unpackCrc } :: rest)
    | some s =>
      let count ← Breach.lookup .breach s.counts folder
      let count := count.toNat
      if count = 0 then
        let (contents, rest) ← ofFolders substreams (folder + 1) substream folders
        pure ({ length := declared.getD 0, firstSubstream := substream, substreamCount := 0 } ::
          contents, rest)
      else
        -- a folder's checksum says nothing about a part of its output
        let folderCrc := if count = 1 then f.unpackCrc else none
        let (own, total) ← collect s folderCrc substream 0 count 0
        if let some size := declared then
          if total ≠ size then throw (.substreamTotal folder total size)
        let next ← Breach.add .breach substream count
        let (contents, rest) ← ofFolders substreams (folder + 1) next folders
        pure ({ length := total, firstSubstream := substream, substreamCount := count } ::
          contents, own ++ rest)

/-- The contents of all folders and all their substreams. -/
def ofArchive (a : Archive) (graphs : List FolderGraph) :
    Except StructuralError (List FolderContent × List Substream) := do
  if let some s := a.substreams then
    if s.counts.length ≠ a.folders.length then
      throw (.substreamFolders s.counts.length a.folders.length)
  ofFolders a.substreams 0 0 (a.folders.zip graphs)

end FolderContent

end SolidArchive
