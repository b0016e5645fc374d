import SolidArchive.Codec.Reads
import SolidArchive.Codec.StreamDecoder

/-!
# Reading bits

A bit reader walks through the bits of a byte string. Formats differ in which end of a byte comes
first and in how several bits make a number, always together: where the lowest bit of a byte comes
first, so does the lowest bit of a number. The order is a parameter of the reader's type, so a
decoder cannot mix the two.

Every bit read makes `bitsLeft` smaller by one; that is what the decoders' termination rests on.
-/

namespace SolidArchive.Codec

/-- Which bit of a byte, and of a number, is read first. -/
inductive BitOrder where
  | lowFirst
  | highFirst
  deriving DecidableEq, Repr

/-- A position in the bits of a byte string. -/
structure BitReader (order : BitOrder) where
  /-- The bytes not yet begun. -/
  rest : Bytes
  /-- The byte begun, shifted so that its next bit stands at the reading end. -/
  held : UInt8 := 0
  /-- How many bits of the byte begun are left. -/
  heldBits : Nat := 0
  deriving Repr

namespace BitReader

variable {order : BitOrder} {ε : Type}

/-- The number of bits not yet read. -/
def bitsLeft (r : BitReader order) : Nat := 8 * r.rest.length + r.heldBits

/-- The bit at the reading end of a byte. -/
def leadingBit : BitOrder → UInt8 → Bool
  | .lowFirst, byte => byte &&& 1 = 1
  | .highFirst, byte => byte &&& 0x80 = 0x80

/-- A byte moved on by one bit toward its reading end. -/
def shift : BitOrder → UInt8 → UInt8
  | .lowFirst, byte => byte >>> 1
  | .highFirst, byte => byte <<< 1

/-- Reads one bit. -/
def bit : Advances (@bitsLeft order) (Halt ε) Bool
  | ⟨rest, held, heldBits + 1⟩ =>
    .ok (leadingBit order held,
      ⟨⟨rest, shift order held, heldBits⟩, by simp only [bitsLeft]; omega⟩)
  | ⟨byte :: rest, _, 0⟩ =>
    .ok (leadingBit order byte,
      ⟨⟨rest, shift order byte, 7⟩, by simp only [bitsLeft, List.length_cons]; omega⟩)
  | ⟨[], _, 0⟩ => .error .truncated

/-- The number that a first bit and the number made of the `count` bits after it make together. -/
def joinBit (order : BitOrder) (first : Bool) (count rest : Nat) : Nat :=
  match order with
  | .lowFirst => first.toNat + 2 * rest
  | .highFirst => first.toNat <<< count + rest

/-- Reads a number of `count` bits. -/
def bits : (count : Nat) → Reads (@bitsLeft order) (Halt ε) Nat
  | 0 => pure 0
  | count + 1 => do
    let first ← bit.toReads
    let rest ← bits count
    pure (joinBit order first count rest)

/-- Reads a number of `count + 1` bits, which is at least one bit. -/
def someBits (count : Nat) : Advances (@bitsLeft order) (Halt ε) Nat :=
  bit.andThen fun first => do
    let rest ← bits count
    pure (joinBit order first count rest)

/-- Reads eight bits as a byte. -/
def byte : Advances (@bitsLeft order) (Halt ε) UInt8 := fun r =>
  match someBits 7 r with
  | .error why => .error why
  | .ok (value, next) => .ok (UInt8.ofNat value, next)

/-- Skips what is left of the byte begun. -/
def align : Reads (@bitsLeft order) (Halt ε) Unit := fun r =>
  .ok ((), ⟨{ r with heldBits := 0 }, by simp only [bitsLeft]; omega⟩)

end BitReader

end SolidArchive.Codec
