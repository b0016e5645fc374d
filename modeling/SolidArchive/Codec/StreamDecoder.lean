import SolidArchive.Bytes

/-!
# Stream decoders

A stream decoder is a deterministic machine that turns a compressed stream into bytes. It makes one
`Move` at a time: it hands out bytes, asks whether there is room for more, reports the end of its
stream, or halts. Every move that goes on leads to a state of smaller `size`, so a run ends whatever
the input holds.

How much of the stream is wanted is not the machine's business. `StreamDecoder.run` is given the
room for its output and stops in one of four ways:

* the stream ends;
* a byte is to be stored, or room is asked for, and there is none: everything wanted is there;
* the input runs out: an error, unless everything wanted is there already;
* the stream is corrupt: an error, also when the room is used up, because the decoder met the
  damage before it had another byte to store.

An unlimited room never ends a run, so a run with room for `n` bytes follows the unlimited run until
that has handed out `n` bytes.

The decoders of dictionary coders share `repeated`: a copy of length `n` from distance `d` takes the
bytes that start `d` before the end. It may be longer than its distance, and then it repeats the
last `d` bytes over and over, which `repeated` says directly.
-/

namespace SolidArchive.Codec

/-- Why a decoder cannot go on. -/
inductive Halt (ε : Type) where
  /-- The input ran out inside the stream. -/
  | truncated
  /-- The stream is damaged. -/
  | corrupt (fault : ε)
  deriving DecidableEq, Repr

/-- One move of a stream decoder that is in a state of the given size. -/
inductive Move {σ : Type} (size : σ → Nat) (ε : Type) (bound : Nat) where
  /-- Hands out bytes, perhaps none, and goes on. -/
  | emit (bytes : Bytes) (next : σ) (smaller : size next < bound)
  /-- Goes on if there is room for another byte. -/
  | await (next : σ) (smaller : size next < bound)
  /-- The stream is complete. -/
  | finish
  /-- The stream ends in an error. -/
  | halt (why : Halt ε)

/-- A machine that turns a compressed stream, held in its state, into bytes. -/
structure StreamDecoder (σ ε : Type) where
  /-- What is left to do; every move makes it smaller. -/
  size : σ → Nat
  /-- The next move. -/
  step : (s : σ) → Move size ε (size s)

namespace StreamDecoder

variable {σ ε : Type}

/-- Appends a list to an array, one element after another. -/
def pushAll {α : Type} (out : Array α) (items : List α) : Array α :=
  items.foldl Array.push out

@[simp] theorem toList_pushAll {α : Type} (out : Array α) (items : List α) :
    (pushAll out items).toList = out.toList ++ items := by
  induction items generalizing out with
  | nil => simp [pushAll]
  | cons a items ih => simp [pushAll]

/-- Runs a decoder with the given room for its output (`none`: as much as it likes), after `out`. -/
def run (d : StreamDecoder σ ε) (room : Option Nat) (out : Array UInt8) (s : σ) :
    Except (Halt ε) (Array UInt8) :=
  match d.step s with
  | .finish => .ok out
  | .halt (.corrupt fault) => .error (.corrupt fault)
  | .halt .truncated => if room = some 0 then .ok out else .error .truncated
  | .await next _ => if room = some 0 then .ok out else d.run room out next
  | .emit bytes next _ =>
    match room with
    | none => d.run none (pushAll out bytes) next
    | some space =>
      if bytes.length ≤ space then
        d.run (some (space - bytes.length)) (pushAll out bytes) next
      else
        .ok (pushAll out (bytes.take space))
termination_by d.size s

/-- Decodes a stream up to its declared size, or to its end when no size is declared. With a size
of zero nothing is wanted and the stream is not looked at. -/
def decode (d : StreamDecoder σ ε) (start : σ) (expected : Option Nat) :
    Except (Halt ε) Bytes :=
  if expected = some 0 then .ok [] else (d.run expected #[] start).map Array.toList

end StreamDecoder

/-! ### The bytes already decoded -/

/-- The `length` bytes that a copy from `distance` bytes before the end of `history` appends. A copy
from before the start of `history` takes zeros from there. -/
def repeated (history : Array UInt8) (distance length : Nat) : Bytes :=
  (List.range length).map fun i =>
    if distance ≤ history.size then history.getD (history.size - distance + i % distance) 0 else 0

@[simp] theorem length_repeated (history : Array UInt8) (distance length : Nat) :
    (repeated history distance length).length = length := by
  simp [repeated]

end SolidArchive.Codec
