import SolidArchive.Codec.Method

/-!
# Decoding through a library

The compressed methods may be left to libraries, each of which decodes a stream call by call. A call
is shown some input and has room for so many bytes, its window. It takes of the input what it likes,
stores what it has, and reports that all is well, that the stream has ended, or that it cannot go
on.

Around a library there is a loop (`Library.turn`, `Library.Ends`). It asks for windows of
`outputChunk` bytes, and for a smaller last one when the size of the output is declared, and stops
as soon as that size is reached, the stream ends or something is wrong. Two libraries count their
input in 32 bits and are shown long inputs in pieces. One of them never reports that its input ran
out, so its loop is guarded: a call that stored nothing and left no input is an error.

A library is a parameter here: nothing is said about what it stores. The loop need not end, so what
it ends with is a relation.
-/

namespace SolidArchive.Codec

/-- What a call reports. -/
inductive Status (ε : Type) where
  | ok
  | streamEnd
  | halted (why : Halt ε)
  deriving DecidableEq, Repr

/-- What a call leaves, stores and reports. -/
structure Answer (σ ε : Type) where
  state : σ
  bytes : Bytes
  status : Status ε

/-- A decoder of a library, as it is set up for a stream. -/
structure Library (ε : Type) where
  State : Type
  start : State
  /-- Goes on with the input that is shown and room for `window` bytes. Tells how many bytes of the
  input were taken as well. -/
  call : State → (shown : Bytes) → (window : Nat) → Answer State ε × Nat

namespace Library

variable {ε : Type}

/-- A stream in the hands of a library. -/
structure Stream (L : Library ε) where
  state : L.State
  /-- The input that is shown and was not taken. -/
  shown : Bytes
  /-- The input that is not shown yet. -/
  hidden : Bytes

/-- The most that is shown at once to a library that counts its input in 32 bits. -/
def maxInput : Nat := 0xFFFFFFFF

/-- The largest window. -/
def outputChunk : Nat := 0x10000

variable {L : Library ε}

namespace Stream

/-- A stream that is shown at once. -/
def whole (L : Library ε) (input : Bytes) : L.Stream := ⟨L.start, input, []⟩

/-- A stream that is shown in pieces. -/
def inPieces (L : Library ε) (input : Bytes) : L.Stream := ⟨L.start, [], input⟩

/-- Shows the next piece when the one before it was taken. -/
def fed (s : L.Stream) : L.Stream :=
  if s.shown = [] then ⟨s.state, s.hidden.take maxInput, s.hidden.drop maxInput⟩ else s

/-- Nothing is left of the input. -/
def Exhausted (s : L.Stream) : Prop := s.shown = [] ∧ s.hidden = []

instance (s : L.Stream) : Decidable s.Exhausted := inferInstanceAs (Decidable (_ ∧ _))

/-- Calls the library with room for `window` bytes. -/
def send (s : L.Stream) (window : Nat) : Answer L.Stream ε :=
  let (answer, taken) := L.call s.fed.state s.fed.shown window
  { answer with state := ⟨answer.state, s.fed.shown.drop taken, s.fed.hidden⟩ }

end Stream

/-! ### The loop -/

/-- All that is wanted has been stored. -/
def Finished (produced : Nat) : (expected : Option Nat) → Prop
  | none => False
  | some size => size ≤ produced

instance (produced : Nat) : (expected : Option Nat) → Decidable (Finished produced expected)
  | none => inferInstanceAs (Decidable False)
  | some size => inferInstanceAs (Decidable (size ≤ produced))

/-- The room for the next call. -/
def nextWindow (produced : Nat) : (expected : Option Nat) → Nat
  | none => outputChunk
  | some size => min outputChunk (size - produced)

/-- A turn of the loop, after `out`: another call, or the result. -/
def turn (guarded : Bool) (expected : Option Nat) (s : L.Stream) (out : Bytes) :
    (L.Stream × Bytes) ⊕ Except (Halt ε) Bytes :=
  if Finished out.length expected then .inr (.ok out)
  else
    let answer := s.send (nextWindow out.length expected)
    match answer.status with
    | .streamEnd => .inr (.ok (out ++ answer.bytes))
    | .halted why => .inr (.error why)
    | .ok =>
      if guarded ∧ answer.bytes = [] ∧ answer.state.Exhausted then .inr (.error .truncated)
      else .inl (answer.state, out ++ answer.bytes)

/-- The loop ends with a result. -/
inductive Ends (guarded : Bool) (expected : Option Nat) :
    L.Stream → (out : Bytes) → Except (Halt ε) Bytes → Prop where
  | last {s : L.Stream} {out : Bytes} {result : Except (Halt ε) Bytes}
    (h : turn guarded expected s out = .inr result) : Ends guarded expected s out result
  | more {s s' : L.Stream} {out out' : Bytes} {result : Except (Halt ε) Bytes}
    (h : turn guarded expected s out = .inl (s', out'))
    (rest : Ends guarded expected s' out' result) : Ends guarded expected s out result

end Library

/-! ### Coders -/

/-- The libraries of the methods. The one of LZMA and LZMA2, which is `chunked`, has to understand
the properties. -/
structure Libraries where
  lzma : (chunked : Bool) → (properties : Bytes) → Option (Library Unit)
  deflate : Library Deflate.Corruption
  bzip2 : Library Bzip2.Corruption

namespace Libraries

open Library

/-- Decoding an LZMA or LZMA2 stream ends with a result. -/
def DecodesLzma (L : Libraries) (chunked : Bool) (properties input : Bytes) (expected : Option Nat)
    (result : Except Fault Bytes) : Prop :=
  match L.lzma chunked properties with
  | some lib => ∃ r, Ends false expected (.whole lib input) [] r ∧ r.mapError .lzma = result
  | none => .error .lzmaProperties = result

/-- Decoding the single input of a coder of the given method ends with a result. -/
def DecodesInput (L : Libraries) (method : Method) (properties input : Bytes)
    (expected : Option Nat) (result : Except Fault Bytes) : Prop :=
  match method with
  | .copy | .delta => decodeInput method properties input expected = result
  | .lzma => L.DecodesLzma false properties input expected result
  | .lzma2 => L.DecodesLzma true properties input expected result
  | .deflate =>
    ∃ r, Ends false expected (.inPieces L.deflate input) [] r ∧ r.mapError .deflate = result
  | .bzip2 => ∃ r, Ends true expected (.inPieces L.bzip2 input) [] r ∧ r.mapError .bzip2 = result

/-- Running a coder of the method `id` on its inputs ends with a result. -/
def Decodes (L : Libraries) (id properties : Bytes) (inputs : List Bytes) (expected : Option Nat)
    (result : Except Fault Bytes) : Prop :=
  match method id with
  | .error fault => .error fault = result
  | .ok method =>
    match inputs with
    | [input] => L.DecodesInput method properties input expected result
    | inputs => .error (.inputCount method inputs.length) = result

end Libraries

end SolidArchive.Codec
