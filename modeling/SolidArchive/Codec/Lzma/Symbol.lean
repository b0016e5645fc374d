import SolidArchive.Codec.Lzma.RangeDecoder
import SolidArchive.Codec.Lzma.Properties

/-!
# The symbols of an LZMA stream

LZMA describes its output by literals, copies from a distance written out, and copies from one of
the four distances used last. Each bit of a symbol is predicted from its context: the kinds of the
symbols before it, low bits of the position, the byte before, and, in a literal that follows a copy,
the byte at which the copy would have gone on.

All probabilities live in one array; `Slot` says where each kind of bit has its own. `Registers` is
what the symbols before have left: a state that tells the last few kinds apart and the four
distances. `readSymbol` reads one symbol; its first bit tells literals from copies, so reading a
symbol is an advance.
-/

namespace SolidArchive.Codec.Lzma

open RangeDecoder

/-! ### Where the probabilities are kept -/

namespace Slot

/-- Literal or copy, by state and position. -/
def isCopy (state position : Nat) : Nat := 16 * state + position

/-- New or recent distance. -/
def isRecent (state : Nat) : Nat := 192 + state

/-- Not the last distance. -/
def notFirst (state : Nat) : Nat := 204 + state

/-- Nor the one before. -/
def notSecond (state : Nat) : Nat := 216 + state

/-- Nor the one before that. -/
def notThird (state : Nat) : Nat := 228 + state

/-- Longer than one byte, for a copy from the last distance. -/
def isLong (state position : Nat) : Nat := 240 + 16 * state + position

/-- The class of a new distance, by the length of the copy. -/
def distanceClass (length : Nat) : Nat := 432 + 64 * min (length - 2) 3

/-- The low bits of a distance of a middle class. -/
def middleDistance : Nat := 688

/-- The four lowest bits of a distance of a high class. -/
def alignment : Nat := 816

/-- The length of a copy from a new distance. -/
def newLength : Nat := 832

/-- The length of a copy from a recent distance. -/
def recentLength : Nat := 1346

/-- A literal, by the number of its context. -/
def literal (context : Nat) : Nat := 1860 + 0x300 * context

end Slot

/-- All probabilities before anything is read. -/
def untrained (p : Parameters) : Array Probability :=
  Array.replicate (Slot.literal (1 <<< (p.literalContext + p.literalPosition))) .even

/-! ### What the symbols before have left -/

/-- The output since the dictionary was reset, of which copies may reach `capacity` bytes back. -/
structure Window where
  /-- Everything decoded so far. -/
  bytes : Array UInt8 := #[]
  /-- Where the dictionary starts. -/
  start : Nat := 0
  capacity : Nat

namespace Window

/-- The number of bytes since the dictionary was reset. -/
def position (w : Window) : Nat := w.bytes.size - w.start

/-- How far back a copy may start. -/
def reach (w : Window) : Nat := min w.position w.capacity

/-- The byte `distance` bytes before the end, or zero before the start of the dictionary. -/
def back (w : Window) (distance : Nat) : UInt8 :=
  if distance ≤ w.position then w.bytes.getD (w.bytes.size - distance) 0 else 0

/-- Appends decoded bytes. -/
def push (w : Window) (bytes : Bytes) : Window :=
  { w with bytes := StreamDecoder.pushAll w.bytes bytes }

/-- Forgets the dictionary. -/
def reset (w : Window) : Window := { w with start := w.bytes.size }

end Window

/-- What the symbols read so far leave for the next one. -/
structure Registers where
  /-- The kinds of the last symbols, as a number below twelve; from seven on the last was a copy. -/
  state : Nat := 0
  /-- The distances used last, the latest first. -/
  first : Nat := 1
  second : Nat := 1
  third : Nat := 1
  fourth : Nat := 1
  deriving DecidableEq, Repr

namespace Registers

/-- After a literal. -/
def afterLiteral (g : Registers) : Registers :=
  { g with state := if g.state < 4 then 0 else if g.state < 10 then g.state - 3 else g.state - 6 }

/-- After a copy from a new distance. -/
def afterNew (g : Registers) (distance : Nat) : Registers where
  state := if g.state < 7 then 7 else 10
  first := distance
  second := g.first
  third := g.second
  fourth := g.third

/-- After a copy from a recent distance. Making that distance the latest is up to `recallSecond`,
`recallThird` and `recallFourth`. -/
def afterRecent (g : Registers) : Registers :=
  { g with state := if g.state < 7 then 8 else 11 }

/-- After a copy of a single byte from the last distance. -/
def afterSingle (g : Registers) : Registers :=
  { g with state := if g.state < 7 then 9 else 11 }

/-- Makes the second distance the latest. -/
def recallSecond (g : Registers) : Registers :=
  { g with first := g.second, second := g.first }

/-- Makes the third distance the latest. -/
def recallThird (g : Registers) : Registers :=
  { g with first := g.third, second := g.first, third := g.second }

/-- Makes the fourth distance the latest. -/
def recallFourth (g : Registers) : Registers :=
  { g with first := g.fourth, second := g.first, third := g.second, fourth := g.third }

end Registers

/-! ### Reading a symbol -/

/-- A symbol of an LZMA stream. -/
inductive Symbol where
  | literal (byte : UInt8)
  | copy (distance length : Nat)
  /-- Says that the stream ends. -/
  | endMarker
  deriving DecidableEq, Repr

/-- Reads the rest of a literal after a copy. As long as its bits agree with those of the byte
`matched` they have probabilities of their own. -/
def readLiteralBeside (base matched : Nat) : (count : Nat) → (node : Nat) → Read Nat
  | 0, node => pure node
  | count + 1, node => do
    let expected := matched.testBit count
    let one ← (bit (base + 0x100 + (if expected then 0x100 else 0) + node)).toReads
    if one = expected then readLiteralBeside base matched count (2 * node + one.toNat)
    else treeFrom base count (2 * node + one.toNat)

/-- Reads a literal. -/
def readLiteral (p : Parameters) (w : Window) (g : Registers) : Read UInt8 := do
  let before := (w.back 1).toNat
  -- low bits of the position and high bits of the byte before
  let context :=
    (w.position % (1 <<< p.literalPosition)) <<< p.literalContext +
      before >>> (8 - p.literalContext)
  let base := Slot.literal context
  let node ←
    if g.state < 7 then treeFrom base 8 1
    else readLiteralBeside base (w.back g.first).toNat 8 1
  pure (UInt8.ofNat (node - 256))

/-- Reads the length of a copy. -/
def readLength (base position : Nat) : Read Nat := do
  -- short and middle lengths are predicted by the position, too
  if ← (bit base).toReads then
    if ← (bit (base + 1)).toReads then
      let rest ← tree (base + 258) 8
      pure (18 + rest)
    else
      let rest ← tree (base + 130 + 8 * position) 3
      pure (10 + rest)
  else
    let rest ← tree (base + 2 + 8 * position) 3
    pure (2 + rest)

/-- The distance that the end marker is written with. -/
def endDistance : Nat := 1 <<< 32

/-- Reads the distance of a copy of the given length. -/
def readDistance (length : Nat) : Read Nat := do
  let distanceClass ← tree (Slot.distanceClass length) 6
  -- the class is the distance, or gives its two highest bits and how many follow
  if distanceClass < 4 then
    pure (distanceClass + 1)
  else
    let low := distanceClass / 2 - 1
    let high := 2 + distanceClass % 2
    if distanceClass < 14 then
      let rest ← reverseTree (Slot.middleDistance + high <<< low - distanceClass - 1) low
      pure (high <<< low + rest + 1)
    else
      -- only the four lowest bits are predicted
      let middle ← evenBits (low - 4) high
      let rest ← reverseTree Slot.alignment 4
      pure (middle * 16 + rest + 1)

/-- Reads a copy from a new distance, or the end marker. -/
def readNewCopy (p : Parameters) (w : Window) (g : Registers) : Read (Symbol × Registers) := do
  let length ← readLength Slot.newLength (w.position % (1 <<< p.position))
  let distance ← readDistance length
  if distance = endDistance then pure (.endMarker, g)
  else if distance ≤ w.reach then pure (.copy distance length, g.afterNew distance)
  else damaged

/-- Reads a copy from a recent distance. -/
def readRecentCopy (p : Parameters) (w : Window) (g : Registers) : Read (Symbol × Registers) := do
  let position := w.position % (1 <<< p.position)
  if w.reach = 0 then
    damaged
  else if ← (bit (Slot.notFirst g.state)).toReads then
    let recalled ←
      if ← (bit (Slot.notSecond g.state)).toReads then
        if ← (bit (Slot.notThird g.state)).toReads then pure g.recallFourth
        else pure g.recallThird
      else pure g.recallSecond
    let length ← readLength Slot.recentLength position
    pure (.copy recalled.first length, recalled.afterRecent)
  else if ← (bit (Slot.isLong g.state position)).toReads then
    let length ← readLength Slot.recentLength position
    pure (.copy g.first length, g.afterRecent)
  else
    pure (.copy g.first 1, g.afterSingle)

/-- Reads a symbol. -/
def readSymbol (p : Parameters) (w : Window) (g : Registers) : Advance (Symbol × Registers) :=
  (bit (Slot.isCopy g.state (w.position % (1 <<< p.position)))).andThen fun isCopy => do
    if isCopy then
      if ← (bit (Slot.isRecent g.state)).toReads then readRecentCopy p w g
      else readNewCopy p w g
    else
      let byte ← readLiteral p w g
      pure (.literal byte, g.afterLiteral)

/-- The bytes that a copy appends. -/
def Window.copied (w : Window) (distance length : Nat) : Bytes :=
  repeated w.bytes distance length

end SolidArchive.Codec.Lzma
