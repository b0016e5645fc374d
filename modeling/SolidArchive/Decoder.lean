import SolidArchive.Archive
import SolidArchive.Codec.Method

/-!
# Decoders

A decoder runs one coder on its inputs. It may consult a state `σ` and change it, so a decoder that
keeps a log, fails now and then, or goes back to the reader that called it is one too. It fails in
one of three ways, which are treated differently by whoever runs it.
-/

namespace SolidArchive

/-- How a coder may fail. -/
inductive DecoderFault where
  /-- With a decode error of its own. -/
  | decode (error : DecodeError)
  /-- For a reason given as text. -/
  | failure (reason : String)
  /-- With something that is no error. -/
  | foreign (thrown : Foreign)
  deriving DecidableEq, Repr

/-- Runs coders: takes a coder, its inputs and, if known, the size of its output. -/
def Decoder (σ : Type) : Type :=
  Coder → List Bytes → Option Nat → StateM σ (Except DecoderFault Bytes)

namespace Decoder

variable {σ : Type}

/-- A decoder whose answers depend on nothing. -/
def pure (decode : Coder → List Bytes → Option Nat → Except DecoderFault Bytes) : Decoder σ :=
  fun coder inputs expected s => (decode coder inputs expected, s)

/-- Runs a coder by the methods of the library. -/
def runBuiltin (coder : Coder) (inputs : List Bytes) (expected : Option Nat) :
    Except DecoderFault Bytes :=
  (Codec.decode coder.methodId coder.properties inputs expected).mapError fun fault =>
    .failure fault.message

/-- The decoder of the methods of the library. -/
def builtin : Decoder σ := pure runBuiltin

end Decoder

end SolidArchive
