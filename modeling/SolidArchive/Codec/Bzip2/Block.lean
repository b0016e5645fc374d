import SolidArchive.Codec.PrefixCode
import SolidArchive.Codec.Bzip2.Scramble
import SolidArchive.Codec.Bzip2.RunLength

/-!
# The blocks of a BZip2 stream

A block of text is sorted by the Burrows–Wheeler transform, written as indices into a list that
moves each byte to its front when it comes, with runs of the front byte written as numbers, and
packed by up to six prefix codes that change every fifty words. `Block.read` undoes the packing;
`Block.shortened` undoes the sorting, and leaves the runs of equal bytes shortened.

A block ends in the word that follows all indices. A code need not fill its tree: a walk that leaves
the code reads on to one bit more than the longest possible word before it gives up.
-/

namespace SolidArchive.Codec.Bzip2

/-- What can be wrong with a BZip2 stream. -/
inductive Corruption where
  /-- It does not start as a BZip2 stream does. -/
  | signature
  /-- It is damaged further on. -/
  | data
  deriving DecidableEq, Repr

/-- BZip2 packs bits from the high end of each byte. -/
abbrev Input := BitReader .highFirst

/-- A read of a BZip2 stream. -/
abbrev Read := Reads (@BitReader.bitsLeft .highFirst) (Halt Corruption)

/-- A read of a BZip2 stream that consumes at least one bit. -/
abbrev Advance := Advances (@BitReader.bitsLeft .highFirst) (Halt Corruption)

/-- Stops because the stream is damaged. -/
def damaged {α : Type} : Read α := Reads.stop (.corrupt .data)

/-- Stops unless `condition` holds. -/
def require (condition : Prop) [Decidable condition] : Read Unit :=
  if condition then pure () else damaged

/-! ### Codes -/

/-- The longest word that a code may have. -/
def maxWordLength : Nat := 20

/-- The number of words for which a code is used before the next one is chosen. -/
def groupSize : Nat := 50

/-- No more choices of a code than this are kept. -/
def maxSelectors : Nat := 18002

/-- Reads a flag for each of sixteen things and gives the positions of those set. -/
def readFlags : Read (List Nat) := do
  let value ← BitReader.bits 16
  pure ((List.range 16).filter fun i => value.testBit (15 - i))

/-- Reads which bytes occur in a block: which high digits they have, then, for each of these, which
low digits go with it. -/
def readBytesInUse : Read Bytes := do
  let highs ← readFlags
  highs.foldlM (fun bytes high => do
    let lows ← readFlags
    pure (bytes ++ lows.map fun low => UInt8.ofNat (16 * high + low))) []

/-- Counts the ones before the next zero, of which there are fewer than `limit`. -/
def readOnes (limit : Nat) : Advance Nat :=
  Advances.loop (fun count =>
    BitReader.bit.andThen fun one =>
      if one then
        if count + 1 < limit then pure (.inl (count + 1)) else damaged
      else pure (.inr count)) 0

/-- The list with the element at `i` moved to its front. -/
def moveToFront {α : Type} (list : List α) (i : Nat) : List α :=
  match list[i]? with
  | some a => a :: list.eraseIdx i
  | none => list

/-- Reads which code each group of words uses, out of `codeCount` codes. Only the choices that are
kept are undone; the others are read and dropped. -/
def readSelectors (codeCount count : Nat) : Read (List Nat) := do
  let (chosen, _) ← Reads.times count
    (fun (chosen, order) => do
      let i ← (readOnes codeCount).toReads
      let order := moveToFront order i
      pure (chosen.push (order.headD 0), order))
    ((#[] : Array Nat), List.range codeCount)
  pure (chosen.toList.take maxSelectors)

/-- Reads one word length, which is given as steps up or down from `length`. -/
def readWordLength (length : Nat) : Advance Nat :=
  Advances.loop (fun length =>
    if 1 ≤ length ∧ length ≤ maxWordLength then
      BitReader.bit.andThen fun more => do
        if more then
          let down ← BitReader.bit.toReads
          pure (.inl (if down then length - 1 else length + 1))
        else pure (.inr length)
    else Advances.stop (.corrupt .data)) length

/-- Reads a code for `symbolCount` symbols. -/
def readCode (symbolCount : Nat) : Read PrefixCode := do
  let start ← BitReader.bits 5
  let (lengths, _) ← Reads.times symbolCount
    (fun (lengths, length) => do
      let length ← (readWordLength length).toReads
      pure (lengths.push length, length))
    ((#[] : Array Nat), start)
  pure (.ofLengths maxWordLength lengths.toList)

/-- Reads a word of a code. Bits that no word starts with are damage, but are read on to one more
than the longest possible word. -/
def readWord (code : PrefixCode) : Advance Nat :=
  code.read.andThen fun
    | .symbol symbol => pure symbol
    | .unassigned depth => do
      let _ ← BitReader.bits (maxWordLength + 1 - depth)
      damaged

/-! ### The words of a block -/

/-- A block being unpacked. -/
structure Unpacking where
  /-- The code in use. -/
  code : PrefixCode
  /-- How many words of the group are left. -/
  left : Nat := 0
  /-- The codes of the groups to come. -/
  codes : List PrefixCode
  /-- The bytes in use, the latest first. -/
  recent : Bytes
  /-- What the next digit of a run counts for. -/
  weight : Nat := 1
  /-- The length of the run so far. -/
  run : Nat := 0
  /-- The sorted text so far. -/
  sorted : Array UInt8 := #[]

namespace Unpacking

/-- Turns to the code of the next word, unless no code is left for it. -/
def nextGroup (u : Unpacking) : Option Unpacking :=
  if u.left = 0 then
    match u.codes with
    | [] => none
    | code :: codes => some { u with code, left := groupSize, codes }
  else some u

/-- Writes the run of the front byte that has been counted. -/
def endRun (capacity : Nat) (u : Unpacking) : Option Unpacking :=
  if u.sorted.size + u.run ≤ capacity then
    some { u with
      sorted := StreamDecoder.pushAll u.sorted (List.replicate u.run (u.recent.headD 0))
      weight := 1
      run := 0 }
  else none

/-- Runs are shorter than this, which bounds the number of their digits. -/
def maxWeight : Nat := 2 * 1024 * 1024

/-- Takes a digit of a run. -/
def digit (u : Unpacking) (value : Nat) : Option Unpacking :=
  if u.weight < maxWeight then
    some { u with run := u.run + value * u.weight, weight := 2 * u.weight }
  else none

/-- Writes the byte at index `i` of the list and moves it to the front. -/
def write (capacity : Nat) (u : Unpacking) (i : Nat) : Option Unpacking :=
  if u.sorted.size < capacity then
    let recent := moveToFront u.recent i
    some { u with recent, sorted := u.sorted.push (recent.headD 0) }
  else none

/-- Takes a word: the sorted text if the block ends. -/
def take (capacity lastSymbol : Nat) (u : Unpacking) (symbol : Nat) :
    Option (Unpacking ⊕ Array UInt8) :=
  if symbol < 2 then
    (u.digit (symbol + 1)).map .inl
  else do
    let u ← u.endRun capacity
    if symbol = lastSymbol then pure (.inr u.sorted)
    else (u.write capacity (symbol - 1)).map .inl

/-- Reads a word and takes it. -/
def turn (capacity lastSymbol : Nat) (u : Unpacking) : Advance (Unpacking ⊕ Array UInt8) :=
  match u.nextGroup with
  | none => Advances.stop (.corrupt .data)
  | some u =>
    (readWord u.code).andThen fun symbol =>
      match take capacity lastSymbol { u with left := u.left - 1 } symbol with
      | none => damaged
      | some next => pure next

end Unpacking

/-- A block as it is written: sorted, with what it takes to undo the sorting. -/
structure Block where
  /-- The checksum of the text. -/
  checksum : UInt32
  /-- The lowest bits of some bytes are flipped. -/
  scrambled : Bool
  /-- Where in the sorted text the text starts. -/
  origin : Nat
  /-- The sorted text. -/
  sorted : Array UInt8

/-- The number of bytes that a block of a stream of the given level may hold. -/
def blockCapacity (level : Nat) : Nat := 100000 * level

/-- Reads a block behind its signature. -/
def Block.read (level : Nat) : Read Block := do
  let capacity := blockCapacity level
  let checksum ← BitReader.bits 32
  let scrambled ← BitReader.bits 1
  let origin ← BitReader.bits 24
  require (origin ≤ 10 + capacity)
  let inUse ← readBytesInUse
  require (inUse ≠ [])
  let codeCount ← BitReader.bits 3
  require (2 ≤ codeCount ∧ codeCount ≤ 6)
  let selectorCount ← BitReader.bits 15
  require (1 ≤ selectorCount)
  let chosen ← readSelectors codeCount selectorCount
  let codes ← Reads.times codeCount
    (fun codes => do
      let code ← readCode (inUse.length + 2)
      pure (codes.push code)) #[]
  -- stands for a code before the first group and for one that was chosen but not sent
  let unused : PrefixCode := { zero := .dead, one := .dead }
  let sorted ← (Advances.loop (Unpacking.turn capacity (inUse.length + 1))
    { code := unused
      codes := chosen.map fun i => codes.getD i unused
      recent := inUse }).toReads
  require (origin < sorted.size)
  pure { checksum := UInt32.ofNat checksum, scrambled := scrambled = 1, origin, sorted }

/-! ### Undoing the sort -/

/-- For each place of the sorted text the place of the byte that follows it in the text. Equal bytes
follow each other in the order in which they stand. -/
def successors (sorted : Array UInt8) : Array Nat :=
  -- how often each byte occurs, then where the first of each stands among the sorted ones
  let counts := sorted.foldl (fun counts byte => counts.modify byte.toNat (· + 1))
    (Array.replicate 256 0)
  let (firsts, _) := counts.foldl (fun (firsts, total) count => (firsts.push total, total + count))
    ((#[] : Array Nat), 0)
  let (next, _, _) := sorted.foldl
    (fun (next, firsts, i) byte =>
      (next.setIfInBounds (firsts.getD byte.toNat 0) i, firsts.modify byte.toNat (· + 1), i + 1))
    (Array.replicate sorted.size 0, firsts, 0)
  next

/-- The `count` bytes that a walk along `next` passes from `place` on, after `out`. -/
def walk (sorted : Array UInt8) (next : Array Nat) : (count place : Nat) → Array UInt8 → Array UInt8
  | 0, _, out => out
  | count + 1, place, out =>
    walk sorted next count (next.getD place 0) (out.push (sorted.getD place 0))

/-- The bytes of a block, still shortened, and the one that a further step would give. -/
def Block.shortened (b : Block) : Bytes × UInt8 :=
  let next := successors b.sorted
  let bytes := (walk b.sorted next (b.sorted.size + 1) (next.getD b.origin 0) #[]).toList
  let bytes := if b.scrambled then unscramble bytes else bytes
  (bytes.dropLast, bytes.getLastD 0)

end SolidArchive.Codec.Bzip2
