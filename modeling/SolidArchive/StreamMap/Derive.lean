import SolidArchive.StreamMap.PackRanges
import SolidArchive.StreamMap.Placement

/-!
# Deriving the stream map

The header is checked and mapped in five steps, each of which may refuse it: the checksums of the
pack streams, the coder graphs, the pack ranges, the contents of the folders, and the places of the
files.
-/

namespace SolidArchive.StreamMap

/-- Checks that the checksums of the pack streams, if there are any, are one for each. -/
def checkPackCrcs (a : Archive) : Except StructuralError Unit :=
  if a.packCrcsDefined = [] then .ok ()
  else if a.packCrcsDefined.length ≠ a.packSizes.length then
    .error (.packCrcFlags a.packCrcsDefined.length a.packSizes.length)
  else if a.packCrcs.length ≠ a.packSizes.length then .error .packCrcValues
  else .ok ()

/-- The coder graphs of the folders from `folder` on. -/
def resolveGraphs (folder : Nat) : List Folder → Except StructuralError (List FolderGraph)
  | [] => .ok []
  | f :: folders => do
    let graph ← (FolderGraph.resolve f).mapError (.graph folder)
    let graphs ← resolveGraphs (folder + 1) folders
    pure (graph :: graphs)

/-- Numbers the entries that have content. -/
def numberStreams (stream : Nat) : List (Option FileSpan) → List (Option Nat)
  | [] => []
  | some _ :: spans => some stream :: numberStreams (stream + 1) spans
  | none :: spans => none :: numberStreams stream spans

/-- The first file whose content is in a folder. -/
def firstFile? (files : List FileSpan) (folder : Nat) : Option Nat :=
  (files.find? fun span => span.folder = folder).map FileSpan.file

/-- Puts what was found out about a folder together. -/
def folderSpan (files : List FileSpan) (folder : Nat) (range : PackRange)
    (content : FolderContent) : FolderSpan where
  firstPackStream := range.first
  packStreamCount := range.count
  packOffset := range.offset
  packedLength := range.length
  unpackLength := content.length
  firstSubstream := content.firstSubstream
  substreamCount := content.substreamCount
  firstFile := firstFile? files folder

/-- Checks a header and maps it. -/
def derive (a : Archive) : Except StructuralError StreamMap := do
  checkPackCrcs a
  let graphs ← resolveGraphs 0 a.folders
  let (ranges, packOffsets, packEnd) ← PackRange.ofArchive a graphs
  let (contents, substreams) ← FolderContent.ofArchive a graphs
  let spans ← FileSpan.ofEntries contents substreams a.entries
  let files := spans.filterMap id
  pure
    { folders := (ranges.zip contents).mapIdx fun folder (range, content) =>
        folderSpan files folder range content
      packOffsets
      packEnd
      fileFolders := spans.map (Option.map FileSpan.folder)
      fileStreams := numberStreams 0 spans
      files }

end SolidArchive.StreamMap
