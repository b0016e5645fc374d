import SolidArchive.Codec.PrefixCode

/-!
# Deflate

A Deflate stream is a sequence of blocks; each is stored as it is, or is a sequence of words of two
prefix codes, one for literals, lengths and the end of the block, one for the distances of copies.
The codes are fixed by the format or sent ahead of the block, themselves packed by a third code.

`Deflate.decoder` is a stream decoder whose state is the reader, everything decoded so far (which
copies refer to) and the block it is in. Every read consumes at least a bit, and entering and
leaving a block is accounted for by one unit, so its size falls with every move.

Damage is met in the order of the stream, with one exception: whether a copy starts before the
output's beginning is asked when its first byte is to be stored, so a copy for which there is no
room is not looked at.
-/

namespace SolidArchive.Codec.Deflate

/-- What can be wrong with a Deflate stream. -/
inductive Corruption where
  | blockType
  | storedLengths
  | tooManySymbols
  | codeLengthCode
  | lengthRepeat
  | noEndOfBlock
  | literalCode
  | distanceCode
  | literalWord
  | distanceWord
  | farDistance
  deriving DecidableEq, Repr

/-- The wording of each kind of damage. -/
def Corruption.message : Corruption → String
  | .blockType => "invalid block type"
  | .storedLengths => "invalid stored block lengths"
  | .tooManySymbols => "too many length or distance symbols"
  | .codeLengthCode => "invalid code lengths set"
  | .lengthRepeat => "invalid bit length repeat"
  | .noEndOfBlock => "invalid code -- missing end-of-block"
  | .literalCode => "invalid literal/lengths set"
  | .distanceCode => "invalid distances set"
  | .literalWord => "invalid literal/length code"
  | .distanceWord => "invalid distance code"
  | .farDistance => "invalid distance too far back"

/-- Deflate packs bits from the low end of each byte. -/
abbrev Input := BitReader .lowFirst

/-- A read of a Deflate stream. -/
abbrev Read := Reads (@BitReader.bitsLeft .lowFirst) (Halt Corruption)

/-- A read of a Deflate stream that consumes at least one bit. -/
abbrev Advance := Advances (@BitReader.bitsLeft .lowFirst) (Halt Corruption)

/-- Stops because the stream is damaged. -/
def damaged {α : Type} (fault : Corruption) : Read α := Reads.stop (.corrupt fault)

/-! ### Codes -/

/-- The two codes of a compressed block. -/
structure Codes where
  /-- Literals, lengths and the end of the block. -/
  literals : PrefixCode
  /-- Distances of copies. -/
  distances : PrefixCode

/-- No code word is longer than this. -/
def maxWordLength : Nat := 15

/-- The codes of a block that sends none. -/
def fixedCodes : Codes where
  literals := .ofLengths maxWordLength
    (List.replicate 144 8 ++ List.replicate 112 9 ++ List.replicate 24 7 ++ List.replicate 8 8)
  distances := .ofLengths maxWordLength (List.replicate 32 5)

/-- The order in which the lengths of the code for code lengths are sent. -/
def lengthOrder : List Nat :=
  [16, 17, 18, 0, 8, 7, 9, 6, 10, 5, 11, 4, 12, 3, 13, 2, 14, 1, 15]

/-- The code for code lengths. It has to fill its tree, but may also be empty: then each single bit
stands for the length zero. -/
def codeLengthCode? (lengths : List Nat) : Option PrefixCode :=
  if lengths.all (· = 0) then
    some { zero := .leaf 0, one := .leaf 0 }
  else
    match PrefixCode.fullness maxWordLength lengths with
    | .full => some (.ofLengths maxWordLength lengths)
    | _ => none

/-- The code of the given word lengths, which has to fill its tree unless its words are single
bits or it has none. -/
def code? (lengths : List Nat) : Option PrefixCode :=
  match PrefixCode.fullness maxWordLength lengths with
  | .full => some (.ofLengths maxWordLength lengths)
  | .underfull =>
    if lengths.all (· ≤ 1) then some (.ofLengths maxWordLength lengths) else none
  | .overfull => none

/-- Appends `count` times the length `value`, which must not lead past `total` lengths. -/
def repeatLength (total : Nat) (lengths : Array Nat) (value count : Nat) : Read (Array Nat) :=
  if lengths.size + count ≤ total then
    pure (StreamDecoder.pushAll lengths (List.replicate count value))
  else
    damaged .lengthRepeat

/-- Reads one word of the code for code lengths: a length, or a repetition of one. -/
def readCodeLength (code : PrefixCode) (total : Nat) (lengths : Array Nat) : Read (Array Nat) := do
  if lengths.size < total then
    -- the last length is repeated, or zero is, a few times or many times
    match ← code.read.toReads with
    | .symbol 16 =>
      let extra ← BitReader.bits 2
      match lengths.back? with
      | some previous => repeatLength total lengths previous (3 + extra)
      | none => damaged .lengthRepeat
    | .symbol 17 => do
      let extra ← BitReader.bits 3
      repeatLength total lengths 0 (3 + extra)
    | .symbol 18 => do
      let extra ← BitReader.bits 7
      repeatLength total lengths 0 (11 + extra)
    | .symbol length => pure (lengths.push length)
    | .unassigned _ => damaged .codeLengthCode
  else
    pure lengths

/-- Reads `total` code lengths. Each turn gives at least one of them. -/
def readCodeLengths (code : PrefixCode) (total : Nat) : Read (List Nat) := do
  let lengths ← Reads.times total (readCodeLength code total) #[]
  pure lengths.toList

/-- Reads the lengths, three bits each, of the code for code lengths. -/
def readLengthCode (count : Nat) : Read (List Nat) := do
  let sent ← Reads.times count
    (fun sent => do
      let length ← BitReader.bits 3
      pure (sent.push length)) #[]
  pure ((List.range 19).map fun symbol => sent.getD (lengthOrder.idxOf symbol) 0)

/-- Reads the codes of a block that sends them. -/
def readCodes : Read Codes := do
  let literalCount ← BitReader.bits 5
  let distanceCount ← BitReader.bits 5
  let lengthCount ← BitReader.bits 4
  let literalCount := literalCount + 257
  let distanceCount := distanceCount + 1
  if 286 < literalCount ∨ 30 < distanceCount then
    damaged .tooManySymbols
  else
    let some code := codeLengthCode? (← readLengthCode (lengthCount + 4))
      | damaged .codeLengthCode
    let lengths ← readCodeLengths code (literalCount + distanceCount)
    -- a block that could not end is damaged, whatever its codes are
    if lengths.getD 256 0 = 0 then
      damaged .noEndOfBlock
    else
      let some literals := code? (lengths.take literalCount)
        | damaged .literalCode
      let some distances := code? (lengths.drop literalCount)
        | damaged .distanceCode
      pure { literals, distances }

/-! ### Blocks -/

/-- The block a decoder is in. -/
inductive Block where
  /-- The next `left` bytes are stored as they are. -/
  | stored (left : Nat)
  /-- Words of the given codes follow. -/
  | compressed (codes : Codes)
  /-- A copy starts before the beginning of the output. -/
  | beyond

/-- Reads the head of a block: whether it is the last one, and what it holds. -/
def readBlockHead : Advance (Bool × Block) :=
  BitReader.bit.andThen fun last => do
    match ← BitReader.bits 2 with
    | 0 =>
      BitReader.align
      let length ← BitReader.bits 16
      let complement ← BitReader.bits 16
      if length + complement = 0xFFFF then pure (last, .stored length)
      else damaged .storedLengths
    | 1 => pure (last, .compressed fixedCodes)
    | 2 => do
      let codes ← readCodes
      pure (last, .compressed codes)
    | _ => damaged .blockType

/-- What a word of a compressed block stands for. -/
inductive Item where
  | literal (byte : UInt8)
  | endOfBlock
  | copy (distance length : Nat)

/-- The shortest length of each length word and the number of extra bits that follow it. -/
def lengthTable : Array (Nat × Nat) :=
  #[(3, 0), (4, 0), (5, 0), (6, 0), (7, 0), (8, 0), (9, 0), (10, 0), (11, 1), (13, 1), (15, 1),
    (17, 1), (19, 2), (23, 2), (27, 2), (31, 2), (35, 3), (43, 3), (51, 3), (59, 3), (67, 4),
    (83, 4), (99, 4), (115, 4), (131, 5), (163, 5), (195, 5), (227, 5), (258, 0)]

/-- The shortest distance of each distance word and the number of extra bits that follow it. -/
def distanceTable : Array (Nat × Nat) :=
  #[(1, 0), (2, 0), (3, 0), (4, 0), (5, 1), (7, 1), (9, 2), (13, 2), (17, 3), (25, 3), (33, 4),
    (49, 4), (65, 5), (97, 5), (129, 6), (193, 6), (257, 7), (385, 7), (513, 8), (769, 8),
    (1025, 9), (1537, 9), (2049, 10), (3073, 10), (4097, 11), (6145, 11), (8193, 12),
    (12289, 12), (16385, 13), (24577, 13)]

/-- Reads the distance of a copy. -/
def readDistance (codes : Codes) : Read Nat := do
  let .symbol symbol ← codes.distances.read.toReads | damaged .distanceWord
  let some (base, extraBits) := distanceTable[symbol]? | damaged .distanceWord
  let extra ← BitReader.bits extraBits
  pure (base + extra)

/-- Reads one item of a compressed block. -/
def readItem (codes : Codes) : Advance Item :=
  codes.literals.read.andThen fun
    | .unassigned _ => damaged .literalWord
    | .symbol symbol =>
      if symbol < 256 then pure (.literal (UInt8.ofNat symbol))
      else if symbol = 256 then pure .endOfBlock
      else
        match lengthTable[symbol - 257]? with
        | none => damaged .literalWord
        | some (base, extraBits) => do
          let extra ← BitReader.bits extraBits
          let distance ← readDistance codes
          pure (.copy distance (base + extra))

/-! ### The decoder -/

/-- A Deflate stream being decoded. -/
structure State where
  /-- The stream from here on. -/
  input : Input
  /-- Everything decoded so far. -/
  history : Array UInt8 := #[]
  /-- The block the stream is in; `none` between blocks. -/
  block : Option Block := none
  /-- The block it is in, or has just left, is the last one. -/
  last : Bool := false

/-- The bits left, with one unit for being inside a block. -/
def State.size (s : State) : Nat :=
  2 * s.input.bitsLeft + if s.block.isSome then 1 else 0

/-- The next move: one block head, one stored byte or one item of a compressed block. -/
def step (s : State) : Move State.size Corruption s.size :=
  match s with
  | ⟨_, _, none, true⟩ => .finish
  | ⟨input, history, none, false⟩ =>
    match readBlockHead input with
    | .error why => .halt why
    | .ok ((last, block), ⟨input, smaller⟩) =>
      .emit [] ⟨input, history, some block, last⟩ (by simp [State.size]; omega)
  | ⟨input, history, some (.stored 0), last⟩ =>
    .emit [] ⟨input, history, none, last⟩ (by simp [State.size])
  | ⟨input, history, some (.stored (left + 1)), last⟩ =>
    match BitReader.byte input with
    | .error why => .halt why
    | .ok (byte, ⟨input, smaller⟩) =>
      .emit [byte] ⟨input, history.push byte, some (.stored left), last⟩
        (by simp [State.size]; omega)
  | ⟨input, history, some (.compressed codes), last⟩ =>
    match readItem codes input with
    | .error why => .halt why
    | .ok (.literal byte, ⟨input, smaller⟩) =>
      .emit [byte] ⟨input, history.push byte, some (.compressed codes), last⟩
        (by simp [State.size]; omega)
    | .ok (.endOfBlock, ⟨input, smaller⟩) =>
      .emit [] ⟨input, history, none, last⟩ (by simp [State.size]; omega)
    | .ok (.copy distance length, ⟨input, smaller⟩) =>
      if distance ≤ history.size then
        let bytes := repeated history distance length
        .emit bytes
          ⟨input, StreamDecoder.pushAll history bytes, some (.compressed codes), last⟩
          (by simp [State.size]; omega)
      else
        -- the copy would have to store a byte first
        .await ⟨input, history, some .beyond, last⟩ (by simp [State.size]; omega)
  | ⟨_, _, some .beyond, _⟩ => .halt (.corrupt .farDistance)

/-- The Deflate decoder. -/
def decoder : StreamDecoder State Corruption where
  size := State.size
  step := step

/-- Decodes a Deflate stream up to its declared size, or to its end. -/
def decode (input : Bytes) (expected : Option Nat) : Except (Halt Corruption) Bytes :=
  decoder.decode { input := { rest := input } } expected

end SolidArchive.Codec.Deflate
