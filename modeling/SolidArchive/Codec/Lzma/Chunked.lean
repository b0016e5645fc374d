import SolidArchive.Codec.Lzma.Symbol

/-!
# LZMA2 streams

LZMA2 cuts an LZMA stream into chunks, each with a control byte in front. A chunk is stored as it
is, or is a run of the range decoder of its own that says how many bytes it takes and how many it
gives. The control byte also says what is carried over from the chunk before: the dictionary, the
parameters, the state of the symbol coder. A stream ends with the control byte zero.

Resetting the dictionary hands everything decoded so far to the output, so a decoder that has no
room left stops there and does not look at the chunk.

A compressed chunk has to give exactly what it announced and take exactly what it announced: when it
has given its last byte the range decoder must be at its end and the chunk used up, and a copy that
would give more is damage, which shows before the question of room arises.
-/

namespace SolidArchive.Codec.Lzma.Chunked

open RangeDecoder

/-- What is carried from chunk to chunk. -/
structure Memory where
  /-- The input and the probabilities learned. -/
  decoder : RangeDecoder
  window : Window
  registers : Registers := {}
  parameters : Parameters := ⟨0, 0, 0⟩
  /-- A dictionary has been started. -/
  hasDictionary : Bool := false
  /-- Parameters have been sent since the dictionary was reset. -/
  hasParameters : Bool := false

/-- Where in an LZMA2 stream a decoder is. -/
inductive Place where
  /-- Before a control byte. -/
  | control
  /-- Behind a control byte. -/
  | head (control : Nat)
  /-- In a stored chunk that has `left` bytes to go. -/
  | stored (left : Nat)
  /-- In a compressed chunk that has `left` bytes to give. -/
  | compressed (left : Nat)
  /-- Behind a chunk that would give more than it announced. -/
  | overfull
  deriving DecidableEq, Repr

/-- An LZMA2 stream being decoded. -/
structure State where
  memory : Memory
  place : Place := .control

/-- What is left to do at a place beside reading the input. -/
def Place.rank : Place → Nat
  | .control | .head _ => 0
  | .stored _ | .compressed _ => 1
  | .overfull => 0

theorem Place.rank_le (place : Place) : place.rank ≤ 1 := by
  cases place <;> simp [rank]

/-- What is left to do in an LZMA2 stream. -/
def State.size (s : State) : Nat := 2 * s.memory.decoder.size + s.place.rank

/-- Reading through the range decoder makes the state smaller, whatever place it leads to. -/
theorem State.size_lt {s t : State} (smaller : t.memory.decoder.size < s.memory.decoder.size) :
    t.size < s.size := by
  have := t.place.rank_le
  simp only [State.size]
  omega

/-- Leaving a chunk makes the state smaller, as long as the input does not grow. -/
theorem State.size_lt_of_rank {s t : State} (le : t.memory.decoder.size ≤ s.memory.decoder.size)
    (lower : t.place.rank < s.place.rank) : t.size < s.size := by
  simp only [State.size]
  omega

/-- What a control byte asks for: whether the stream goes on with a chunk, and what it resets. -/
inductive Control where
  | endOfStream
  /-- The dictionary and everything else starts anew. -/
  | reset
  /-- The chunk goes on with what is there. -/
  | plain
  | invalid
  deriving DecidableEq, Repr

/-- What a control byte asks for, given what is there. -/
def Control.ofByte (hasDictionary hasParameters : Bool) (control : Nat) : Control :=
  if control = 0 then .endOfStream
  else if 0xE0 ≤ control ∨ control = 1 then .reset
  else if !hasDictionary then .invalid
  else if 0x80 ≤ control then
    if control < 0xC0 ∧ !hasParameters then .invalid else .plain
  else if control = 2 then .plain
  else .invalid

/-- The head of a chunk. -/
inductive Head where
  | stored (length : Nat)
  /-- What the chunk gives and takes, and the parameters it sends. -/
  | compressed (gives takes : Nat) (parameters : Option Parameters)

/-- Reads a number of two bytes, the higher first. -/
def readWord : Read Nat := do
  let high ← byte.toReads
  let low ← byte.toReads
  pure (256 * high.toNat + low.toNat)

/-- Reads the head of a chunk behind its control byte. -/
def readHead (control : Nat) : Advance Head :=
  byte.andThen fun high => do
    let low ← byte.toReads
    let length := 256 * high.toNat + low.toNat + 1
    if control < 0x80 then
      pure (.stored length)
    else
      let takes ← readWord
      let gives := control % 32 * 0x10000 + length
      if control < 0xC0 then
        pure (.compressed gives (takes + 1) none)
      else
        let packed ← byte.toReads
        let some parameters := Parameters.ofByte? packed | damaged
        pure (.compressed gives (takes + 1) (some parameters))

/-- The symbol coder as a compressed chunk starts it: new parameters and a reset clear what was
learned. -/
def Memory.prepare (m : Memory) (control : Nat) (parameters : Option Parameters) : Memory :=
  match parameters with
  | some parameters =>
    { m with
      decoder := { m.decoder with probabilities := untrained parameters }
      registers := {}
      parameters
      hasParameters := true }
  | none =>
    if 0xA0 ≤ control then
      { m with
        decoder := { m.decoder with probabilities := untrained m.parameters }
        registers := {} }
    else m

@[simp] theorem Memory.size_prepare (m : Memory) (control : Nat)
    (parameters : Option Parameters) :
    (m.prepare control parameters).decoder.size = m.decoder.size := by
  unfold Memory.prepare
  split
  · rfl
  · split <;> rfl

/-- The next move: one control byte, one chunk head, one stored byte or one symbol. -/
def step (s : State) : Move State.size Unit s.size :=
  match s with
  | ⟨⟨decoder, window, registers, parameters, hasDictionary, hasParameters⟩, .control⟩ =>
    match byte decoder with
    | .error why => .halt why
    | .ok (control, ⟨decoder, smaller⟩) =>
      match Control.ofByte hasDictionary hasParameters control.toNat with
      | .endOfStream => .finish
      | .invalid => .halt (.corrupt ())
      | .plain =>
        .emit []
          ⟨⟨decoder, window, registers, parameters, hasDictionary, hasParameters⟩,
            .head control.toNat⟩
          (State.size_lt smaller)
      | .reset =>
        -- what was decoded so far is handed out before the dictionary is forgotten
        .await
          ⟨⟨decoder, window.reset, registers, parameters, true, false⟩, .head control.toNat⟩
          (State.size_lt smaller)
  | ⟨⟨decoder, window, registers, parameters, hasDictionary, hasParameters⟩, .head control⟩ =>
    match readHead control decoder with
    | .error why => .halt why
    | .ok (.stored length, ⟨decoder, smaller⟩) =>
      .emit []
        ⟨⟨decoder, window, registers, parameters, hasDictionary, hasParameters⟩, .stored length⟩
        (State.size_lt smaller)
    | .ok (.compressed gives takes sent, ⟨decoder, smaller⟩) =>
      -- the range decoder starts anew, in the bytes that the chunk announces
      let m : Memory := ⟨decoder, window, registers, parameters, hasDictionary, hasParameters⟩
      match RangeDecoder.restart (some takes) (m.prepare control sent).decoder with
      | .error why => .halt why
      | .ok ((), ⟨decoder, smaller'⟩) =>
        .emit []
          ⟨{ m.prepare control sent with decoder }, .compressed gives⟩
          (State.size_lt (Nat.lt_trans smaller' (by simpa [m] using smaller)))
  | ⟨⟨decoder, window, registers, parameters, hasDictionary, hasParameters⟩, .stored 0⟩ =>
    .emit []
      ⟨⟨decoder, window, registers, parameters, hasDictionary, hasParameters⟩, .control⟩
      (State.size_lt_of_rank (Nat.le_refl _) Nat.zero_lt_one)
  | ⟨⟨decoder, window, registers, parameters, hasDictionary, hasParameters⟩,
      .stored (left + 1)⟩ =>
    match byte decoder with
    | .error why => .halt why
    | .ok (byte, ⟨decoder, smaller⟩) =>
      .emit [byte]
        ⟨⟨decoder, window.push [byte], registers, parameters, hasDictionary, hasParameters⟩,
          .stored left⟩
        (State.size_lt smaller)
  | ⟨⟨decoder, window, registers, parameters, hasDictionary, hasParameters⟩, .compressed 0⟩ =>
    match atEnd decoder with
    | .error why => .halt why
    | .ok (atEnd, ⟨decoder, smaller⟩) =>
      if atEnd ∧ decoder.quota = some 0 then
        .emit []
          ⟨⟨{ decoder with quota := none }, window, registers, parameters, hasDictionary,
            hasParameters⟩, .control⟩
          (State.size_lt_of_rank smaller Nat.zero_lt_one)
      else .halt (.corrupt ())
  | ⟨⟨decoder, window, registers, parameters, hasDictionary, hasParameters⟩,
      .compressed (left + 1)⟩ =>
    match readSymbol parameters window registers decoder with
    | .error why => .halt why
    | .ok ((.literal byte, registers), ⟨decoder, smaller⟩) =>
      .emit [byte]
        ⟨⟨decoder, window.push [byte], registers, parameters, hasDictionary, hasParameters⟩,
          .compressed left⟩
        (State.size_lt smaller)
    | .ok ((.copy distance length, registers), ⟨decoder, smaller⟩) =>
      -- the part that was announced comes out, also if the copy is too long
      let bytes := window.copied distance (min length (left + 1))
      .emit bytes
        ⟨⟨decoder, window.push bytes, registers, parameters, hasDictionary, hasParameters⟩,
          if length ≤ left + 1 then .compressed (left + 1 - length) else .overfull⟩
        (State.size_lt smaller)
    | .ok ((.endMarker, _), _) => .halt (.corrupt ())
  | ⟨_, .overfull⟩ => .halt (.corrupt ())

/-- The LZMA2 decoder. -/
def decoder : StreamDecoder State Unit where
  size := State.size
  step := step

/-- Decodes an LZMA2 stream up to its declared size, or to its end. -/
def decode (capacity : Nat) (input : Bytes) (expected : Option Nat) :
    Except (Halt Unit) Bytes :=
  decoder.decode
    { memory := { decoder := .whole input #[], window := { capacity } } } expected

end SolidArchive.Codec.Lzma.Chunked
