import SolidArchive.Codec.Bzip2.Block

/-!
# BZip2 streams

A stream starts with a signature that holds the block size, goes on with blocks, each behind a
signature of its own, and ends with a further signature and a checksum over the checksums of the
blocks. The text of a block comes out only after the whole block has been read, and its checksum is
compared after that, whether or not there is room for more.

A block that ends in the middle of a run is written out and then found to be damaged: at once, or,
if the block is scrambled, when there is room for another byte.
-/

namespace SolidArchive.Codec.Bzip2

/-! ### Checksums -/

/-- Takes the highest bit out of a checksum register. -/
def shiftBit (register : UInt32) : UInt32 :=
  if register &&& 0x80000000 = 0x80000000 then (register <<< 1) ^^^ 0x04C11DB7 else register <<< 1

/-- What eight steps leave of each register that holds a single byte at its high end. -/
def checksumTable : Array UInt32 :=
  Array.ofFn fun i : Fin 256 => (List.range 8).foldl (fun r _ => shiftBit r) (UInt32.ofNat i <<< 24)

/-- The checksum of the text of a block. -/
def checksum (text : Array UInt8) : UInt32 :=
  ~~~ text.foldl
    (fun register byte =>
      (register <<< 8) ^^^ checksumTable.getD ((register >>> 24) ^^^ byte.toUInt32).toNat 0)
    0xFFFFFFFF

/-- The checksum over the checksums of the blocks, continued by another block. -/
def combine (combined block : UInt32) : UInt32 :=
  ((combined <<< 1) ||| (combined >>> 31)) ^^^ block

/-! ### The decoder -/

/-- Where in a BZip2 stream a decoder is. -/
inductive State where
  /-- At the start. -/
  | start (input : Input)
  /-- Between blocks, in a stream of the given level and checksum so far. -/
  | between (input : Input) (level : Nat) (combined : UInt32)
  /-- Behind a block that was written out and is damaged; `waits` says that this shows only when
  there is room for another byte. -/
  | spoiled (waits : Bool)

/-- The bits left. -/
def State.size : State → Nat
  | .start input => input.bitsLeft + 1
  | .between input _ _ => input.bitsLeft + 1
  | .spoiled waits => waits.toNat

/-- Reads a byte and stops unless it is the given one. -/
def expect (fault : Corruption) (expected : UInt8) : Advance Unit :=
  BitReader.byte.andThen fun byte =>
    if byte = expected then pure () else Reads.stop (.corrupt fault)

/-- Reads the start of a stream and gives its level. -/
def readSignature : Advance Nat :=
  (expect .signature 0x42).andThen fun () => do
    (expect .signature 0x5A).toReads
    (expect .signature 0x68).toReads
    let digit ← BitReader.byte.toReads
    if 0x31 ≤ digit ∧ digit ≤ 0x39 then pure (digit.toNat - 0x30)
    else Reads.stop (.corrupt .signature)

/-- What stands between two blocks. -/
inductive Section where
  | block (block : Block)
  | endOfStream (checksum : UInt32)

/-- Reads a block with its signature, or the end of the stream. -/
def readSection (level : Nat) : Advance Section :=
  BitReader.byte.andThen fun byte => do
    -- the two signatures are the first digits of π and of its square root
    if byte = 0x31 then
      [0x41, 0x59, 0x26, 0x53, 0x59].forM fun byte => (expect .data byte).toReads
      let block ← Block.read level
      pure (.block block)
    else if byte = 0x17 then
      [0x72, 0x45, 0x38, 0x50, 0x90].forM fun byte => (expect .data byte).toReads
      let checksum ← BitReader.bits 32
      pure (.endOfStream (UInt32.ofNat checksum))
    else damaged

/-- The next move: the start of the stream, or one block. -/
def step (s : State) : Move State.size Corruption s.size :=
  match s with
  | .start input =>
    match readSignature input with
    | .error why => .halt why
    | .ok (level, ⟨input, smaller⟩) =>
      .emit [] (.between input level 0) (by simp only [State.size]; omega)
  | .between input level combined =>
    match readSection level input with
    | .error why => .halt why
    | .ok (.endOfStream checksum, _) =>
      if checksum = combined then .finish else .halt (.corrupt .data)
    | .ok (.block block, ⟨input, smaller⟩) =>
      let (shortened, beyond) := block.shortened
      let runs := Runs.ofBlock shortened
      if runs.isOpen then
        -- the missing count is taken from beyond the block
        .emit (runs.step beyond).out.toList (.spoiled block.scrambled)
          (by have := block.scrambled.toNat_le; simp only [State.size]; omega)
      else
        let found := checksum runs.out
        if found = block.checksum then
          .emit runs.out.toList (.between input level (combine combined found))
            (by simp only [State.size]; omega)
        else
          .emit runs.out.toList (.spoiled false) (by simp [State.size])
  | .spoiled true => .await (.spoiled false) (by simp [State.size])
  | .spoiled false => .halt (.corrupt .data)

/-- The BZip2 decoder. -/
def decoder : StreamDecoder State Corruption where
  size := State.size
  step := step

/-- Decodes a BZip2 stream up to its declared size, or to its end. -/
def decode (input : Bytes) (expected : Option Nat) : Except (Halt Corruption) Bytes :=
  decoder.decode (.start { rest := input }) expected

end SolidArchive.Codec.Bzip2
