import SolidArchive.Codec.Lzma.Symbol

/-!
# LZMA streams

An LZMA stream is one run of the range decoder; its only end is the marker, after which nothing may
be left in the range decoder.
-/

namespace SolidArchive.Codec.Lzma

/-- An LZMA stream being decoded. -/
structure State where
  decoder : RangeDecoder
  window : Window
  registers : Registers := {}
  parameters : Parameters
  /-- The range decoder has been started. -/
  started : Bool := false

/-- What is left to do in an LZMA stream. -/
def State.size (s : State) : Nat := s.decoder.size

/-- The next move: the start of the range decoder, or one symbol. -/
def step (s : State) : Move State.size Unit s.size :=
  match s with
  | ⟨decoder, window, registers, parameters, false⟩ =>
    match RangeDecoder.restart none decoder with
    | .error why => .halt why
    | .ok ((), ⟨decoder, smaller⟩) =>
      .emit [] ⟨decoder, window, registers, parameters, true⟩ smaller
  | ⟨decoder, window, registers, parameters, true⟩ =>
    match readSymbol parameters window registers decoder with
    | .error why => .halt why
    | .ok ((.literal byte, registers), ⟨decoder, smaller⟩) =>
      .emit [byte] ⟨decoder, window.push [byte], registers, parameters, true⟩ smaller
    | .ok ((.copy distance length, registers), ⟨decoder, smaller⟩) =>
      let bytes := window.copied distance length
      .emit bytes ⟨decoder, window.push bytes, registers, parameters, true⟩ smaller
    | .ok ((.endMarker, _), ⟨decoder, _⟩) =>
      match RangeDecoder.atEnd decoder with
      | .error why => .halt why
      | .ok (true, _) => .finish
      | .ok (false, _) => .halt (.corrupt ())

/-- The LZMA decoder. -/
def decoder : StreamDecoder State Unit where
  size := State.size
  step := step

/-- Decodes an LZMA stream up to its declared size, or to its end. -/
def decode (parameters : Parameters) (capacity : Nat) (input : Bytes) (expected : Option Nat) :
    Except (Halt Unit) Bytes :=
  decoder.decode
    { decoder := .whole input (untrained parameters)
      window := { capacity }
      parameters }
    expected

end SolidArchive.Codec.Lzma
