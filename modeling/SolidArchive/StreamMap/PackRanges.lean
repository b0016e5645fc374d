import SolidArchive.Folder.Graph
import SolidArchive.StreamMap.Basic

/-!
# Pack ranges

The pack streams follow each other without gaps from the start of the pack region, and each folder
takes the next few of them: as many as it has inputs to read. In the end every stream must have been
taken.
-/

namespace SolidArchive

/-- The pack streams of a folder. -/
structure PackRange where
  first : Nat
  count : Nat
  offset : Nat
  length : Nat
  deriving DecidableEq, Repr

namespace PackRange

/-- Where each pack stream starts, and where the last one ends, from `offset` on. -/
def offsets (offset : Nat) : (sizes : List UInt64) → Except StructuralError (List Nat × Nat)
  | [] => .ok ([], offset)
  | size :: sizes => do
    let next ← StructuralError.checkedAdd .packRegion offset size.toNat
    let (rest, packEnd) ← offsets next sizes
    pure (offset :: rest, packEnd)

/-- The length of the `count` pack streams from `stream` on, after `total`. -/
def totalLength (sizes : List UInt64) (stream : Nat) :
    (count : Nat) → (total : Nat) → Except StructuralError Nat
  | 0, total => .ok total
  | count + 1, total => do
    let size ← Breach.lookup .breach sizes stream
    let total ← StructuralError.checkedAdd .packedLength total size.toNat
    totalLength sizes (stream + 1) count total

/-- Hands out the pack streams from `stream` on to the folders from `folder` on. Gives the first
stream not taken. -/
def assign (sizes : List UInt64) (offsets : List Nat) (packEnd : Nat) :
    (folder stream : Nat) → (graphs : List FolderGraph) →
      Except StructuralError (List PackRange × Nat)
  | _, stream, [] => .ok ([], stream)
  | folder, stream, graph :: graphs => do
    let count := graph.packedInputs.length
    let left ← Breach.sub .breach sizes.length stream
    if left < count then throw (.packStreamsShort folder count left)
    let offset ← if stream < offsets.length then Breach.lookup .breach offsets stream
      else pure packEnd
    let length ← totalLength sizes stream count 0
    let next ← Breach.add .breach stream count
    let (rest, unclaimed) ← assign sizes offsets packEnd (folder + 1) next graphs
    pure ({ first := stream, count, offset, length } :: rest, unclaimed)

/-- The pack ranges of all folders, with the table of offsets and the end of the region. -/
def ofArchive (a : Archive) (graphs : List FolderGraph) :
    Except StructuralError (List PackRange × List Nat × Nat) := do
  let (offsets, packEnd) ← offsets a.packPosition.toNat a.packSizes
  let (ranges, unclaimed) ← assign a.packSizes offsets packEnd 0 0 graphs
  let left ← Breach.sub .breach a.packSizes.length unclaimed
  if left ≠ 0 then throw (.packStreamsUnclaimed left)
  pure (ranges, offsets, packEnd)

end PackRange

end SolidArchive
