import SolidArchive.Codec.Reads
import SolidArchive.Codec.StreamDecoder

/-!
# The adaptive binary range decoder

A range decoder keeps an interval of `range` codes and the position `code` within it. To read a bit
of known probability it cuts the interval in two in that proportion and goes on with the half that
holds the position; an interval that became short is stretched by a byte of input.

The size of a decoder is its input and its interval read as one number, the input in units of
`2 ^ 32`. Cutting the interval makes it smaller because both halves are never empty: a probability
stays between 31 and 2017 of 2048 (`Probability.lower` and `upper`), and the interval is at least
`2 ^ 24` long when it is cut. Stretching makes the interval 256 times as long and takes away a whole
unit, which is more. So every bit is an advance, although most bits consume no input.

In a stream that is cut into chunks a decoder may read only its own chunk. Reading past the chunk is
damage; running out of input is truncation, also inside the chunk.
-/

namespace SolidArchive.Codec.Lzma

/-- The probability, in 2048ths, that a bit is zero. It starts at one half and moves a 32nd of the
way toward the bit that came, so it never reaches zero or one. -/
structure Probability where
  value : Nat
  lower : 31 ≤ value
  upper : value ≤ 2017

namespace Probability

/-- Both bits are equally likely. -/
def even : Probability := ⟨1024, by decide, by decide⟩

/-- The probability after a zero. -/
def afterZero (p : Probability) : Probability :=
  ⟨p.value + (2048 - p.value) / 32, by have := p.lower; omega, by have := p.upper; omega⟩

/-- The probability after a one. -/
def afterOne (p : Probability) : Probability :=
  ⟨p.value - p.value / 32, by have := p.lower; omega, by have := p.upper; omega⟩

end Probability

/-- A range decoder and the probabilities it learns. -/
structure RangeDecoder where
  /-- The input from here on. -/
  input : Bytes
  /-- How many bytes of the input belong to the chunk being read; `none` where all do. -/
  quota : Option Nat := none
  /-- The length of the interval. -/
  range : Nat := 0xFFFFFFFF
  /-- The position within the interval. In a damaged stream it may lie outside. -/
  code : Nat := 0
  /-- The probability of each kind of bit. -/
  probabilities : Array Probability
  lower : 1 <<< 16 ≤ range := by decide
  upper : range < 1 <<< 32 := by decide

namespace RangeDecoder

/-- A decoder with a whole interval. -/
def whole (input : Bytes) (probabilities : Array Probability) (quota : Option Nat := none) :
    RangeDecoder where
  input := input
  quota := quota
  probabilities := probabilities

/-- The input and the interval as one number. -/
def size (d : RangeDecoder) : Nat := d.input.length <<< 32 + d.range

/-- A read through a range decoder. -/
abbrev Read := Reads RangeDecoder.size (Halt Unit)

/-- A read through a range decoder that takes away at least a part of its interval. -/
abbrev Advance := Advances RangeDecoder.size (Halt Unit)

/-- Stops because the stream is damaged. -/
def damaged {α : Type} : Read α := Reads.stop (.corrupt ())

/-- Takes the next byte of the chunk. -/
def nextByte (d : RangeDecoder) :
    Except (Halt Unit) (UInt8 × { t : RangeDecoder // t.input.length + 1 = d.input.length ∧
      t.range = d.range }) :=
  match h : d.input with
  | [] => .error .truncated
  | byte :: rest =>
    match d.quota with
    | some 0 => .error (.corrupt ())
    | some (left + 1) =>
      .ok (byte, ⟨{ d with input := rest, quota := some left }, by simp, rfl⟩)
    | none => .ok (byte, ⟨{ d with input := rest }, by simp, rfl⟩)

/-- Takes the next byte as it is. -/
def byte : Advance UInt8 := fun d =>
  match d.nextByte with
  | .error why => .error why
  | .ok (byte, ⟨t, shorter, same⟩) => .ok (byte, ⟨t, by simp only [size]; omega⟩)

/-- Stretches an interval that became shorter than `2 ^ 24`. -/
def stretched (d : RangeDecoder) :
    Except (Halt Unit) { t : RangeDecoder // t.size ≤ d.size ∧ 1 <<< 24 ≤ t.range } :=
  if long : 1 <<< 24 ≤ d.range then
    .ok ⟨d, Nat.le_refl _, long⟩
  else
    match d.nextByte with
    | .error why => .error why
    | .ok (byte, ⟨t, shorter, same⟩) =>
      .ok ⟨{ t with
        range := t.range * 256
        code := (t.code * 256 + byte.toNat) % (1 <<< 32)
        lower := by have := t.lower; omega
        upper := by have := t.upper; omega },
        by have := d.lower; constructor <;> simp only [size] <;> omega⟩

/-- Stretches the interval and asks whether the position is at its start, where an encoder leaves it
when it has written everything. -/
def atEnd : Read Bool := fun d =>
  match d.stretched with
  | .error why => .error why
  | .ok ⟨t, smaller, _⟩ => .ok (t.code = 0, ⟨t, smaller⟩)

/-- Takes `count` bytes as the lowest digits of the position. -/
def takePosition : (count : Nat) → (d : RangeDecoder) →
    Except (Halt Unit) { t : RangeDecoder // t.input.length + count = d.input.length }
  | 0, d => .ok ⟨d, rfl⟩
  | count + 1, d =>
    match d.nextByte with
    | .error why => .error why
    | .ok (byte, ⟨t, shorter, _⟩) =>
      match takePosition count { t with code := (t.code * 256 + byte.toNat) % (1 <<< 32) } with
      | .error why => .error why
      | .ok ⟨u, shorter'⟩ => .ok ⟨u, by simp only at shorter'; omega⟩

/-- A decoder with a whole interval, at the start of a chunk of the given length. -/
def fresh (d : RangeDecoder) (quota : Option Nat) : RangeDecoder :=
  whole d.input d.probabilities quota

/-- Starts a new interval in a chunk of the given length: a zero byte and then the position in four
bytes. -/
def restart (quota : Option Nat) : Advance Unit := fun d =>
  match (d.fresh quota).nextByte with
  | .error why => .error why
  | .ok (first, ⟨t, shorter, _⟩) =>
    if first = 0 then
      match takePosition 4 t with
      | .error why => .error why
      | .ok ⟨u, shorter'⟩ =>
        .ok ((), ⟨u, by have := u.upper; simp only [size, fresh, whole] at shorter ⊢; omega⟩)
    else .error (.corrupt ())

/-- The part of an interval that stands for a zero. -/
def zeroPart (range : Nat) (p : Probability) : Nat := range / 2048 * p.value

/-- Neither half of a long enough interval is empty or the whole. -/
theorem zeroPart_bounds {range : Nat} (p : Probability) (long : 1 <<< 24 ≤ range) :
    1 <<< 16 ≤ zeroPart range p ∧ zeroPart range p + 1 <<< 16 ≤ range := by
  have hlower := p.lower
  have hupper := p.upper
  have hdiv : range / 2048 * 2048 ≤ range := Nat.div_mul_le_self range 2048
  -- a 2048th of the interval is long, and either side has at least 31 of them
  have hbig : 8192 ≤ range / 2048 := by omega
  have hlow : range / 2048 * 31 ≤ range / 2048 * p.value := Nat.mul_le_mul_left _ hlower
  have hhigh : range / 2048 * p.value ≤ range / 2048 * 2017 := Nat.mul_le_mul_left _ hupper
  constructor <;> simp only [zeroPart] <;> omega

/-- Reads a bit of the kind `slot`. -/
def bit (slot : Nat) : Advance Bool := fun d =>
  match d.stretched with
  | .error why => .error why
  | .ok ⟨t, smaller, long⟩ =>
    let p := t.probabilities.getD slot .even
    let part := zeroPart t.range p
    have bounds := zeroPart_bounds p long
    if t.code < part then
      .ok (false, ⟨{ t with
        range := part
        probabilities := t.probabilities.setIfInBounds slot p.afterZero
        lower := bounds.1
        upper := by have := t.upper; omega },
        by simp only [size] at smaller ⊢; omega⟩)
    else
      .ok (true, ⟨{ t with
        range := t.range - part
        code := t.code - part
        probabilities := t.probabilities.setIfInBounds slot p.afterOne
        lower := by omega
        upper := by have := t.upper; omega },
        by simp only [size] at smaller ⊢; omega⟩)

/-- Reads a bit whose two values are equally likely and nothing is learned of. -/
def evenBit : Advance Bool := fun d =>
  match d.stretched with
  | .error why => .error why
  | .ok ⟨t, smaller, long⟩ =>
    let half := t.range / 2
    -- the position moves back by a half, and the highest bit says whether it went below zero
    let code := (t.code + 1 <<< 32 - half) % (1 <<< 32)
    let one : Bool := code < 1 <<< 31
    .ok (one, ⟨{ t with
      range := half
      code := if one then code else t.code
      lower := by omega
      upper := by have := t.upper; omega },
      by simp only [size] at smaller ⊢; omega⟩)

/-- Reads `count` even bits, the highest first, after `value`. -/
def evenBits : (count : Nat) → (value : Nat) → Read Nat
  | 0, value => pure value
  | count + 1, value => do
    let one ← evenBit.toReads
    evenBits count (2 * value + one.toNat)

/-- Walks down a tree of bits from `node`: the bits read, the highest first, after `node`. -/
def treeFrom (base : Nat) : (count : Nat) → (node : Nat) → Read Nat
  | 0, node => pure node
  | count + 1, node => do
    let one ← (bit (base + node)).toReads
    treeFrom base count (2 * node + one.toNat)

/-- Reads a number of `count` bits through a tree of bits, the highest first. -/
def tree (base count : Nat) : Read Nat := do
  let node ← treeFrom base count 1
  pure (node - 1 <<< count)

/-- Walks down a tree of bits from `node`: the number made of the bits, the lowest first. -/
def reverseTreeFrom (base : Nat) : (count : Nat) → (node : Nat) → Read Nat
  | 0, _ => pure 0
  | count + 1, node => do
    let one ← (bit (base + node)).toReads
    let rest ← reverseTreeFrom base count (2 * node + one.toNat)
    pure (one.toNat + 2 * rest)

/-- Reads a number of `count` bits through a tree of bits, the lowest first. -/
def reverseTree (base count : Nat) : Read Nat := reverseTreeFrom base count 1

end RangeDecoder

end SolidArchive.Codec.Lzma
