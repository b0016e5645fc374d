import SolidArchive.Codec.Deflate
import SolidArchive.Codec.Lzma.Stream
import SolidArchive.Codec.Lzma.Chunked
import SolidArchive.Codec.Bzip2.Stream

/-!
# Compression methods

A coder names its method by up to eight bytes, which are shifted into a word one after another. So
leading zeros do not matter, and an identifier that is longer is refused.

There are two places where such a number is looked at. `supports` knows the numbers that are
understood, and `method` finds the method that a coder is run by; that the two agree is a theorem
(`supports_eq`).

`Codec.decode` runs one coder. The faults are met in a fixed order: first the method, then the
number of inputs, then the properties, then the data.

One method is small enough to stand here. The delta filter replaces each byte by its difference from
the byte a fixed distance before it, modulo 256; the bytes that have none before them stay.
`Delta.difference` is the filter and `Delta.decode` undoes it by adding up: each byte of the result
is the sum of the given bytes at its own place and at every multiple of the distance before it.
-/

namespace SolidArchive.Codec

/-! ### Differences -/

namespace Delta

/-- Each byte less the one `distance` places before it. -/
def difference (distance : Nat) (bytes : Bytes) : Bytes :=
  List.zipWith (· - ·) bytes (List.replicate distance 0 ++ bytes)

/-- Adds the next byte to the one `distance` places before it. -/
def accumulate (distance : Nat) (out : Array UInt8) (byte : UInt8) : Array UInt8 :=
  out.push (if distance ≤ out.size then byte + out.getD (out.size - distance) 0 else byte)

/-- Restores the bytes of which the differences are given. -/
def decode (distance : Nat) (bytes : Bytes) : Bytes :=
  (bytes.foldl (accumulate distance) #[]).toList

/-- Reads the distance from the properties of a delta coder, which are one byte. -/
def distance? : Bytes → Option Nat
  | [byte] => some (byte.toNat + 1)
  | _ => none

end Delta

/-! ### Methods and their numbers -/

/-- The methods that are understood. -/
inductive Method where
  | copy
  | delta
  | lzma
  | lzma2
  | deflate
  | bzip2
  deriving DecidableEq, Repr

namespace Method

/-- The name of a method in messages. -/
def name : Method → String
  | .copy => "copy"
  | .delta => "delta"
  | .lzma => "lzma"
  | .lzma2 => "lzma2"
  | .deflate => "deflate"
  | .bzip2 => "bzip2"

/-- The number that stands for a method. -/
def number : Method → Nat
  | .copy => 0x00
  | .delta => 0x03
  | .lzma2 => 0x21
  | .lzma => 0x030101
  | .deflate => 0x040108
  | .bzip2 => 0x040202

/-- Every method, each once. -/
def all : List Method := [.copy, .delta, .lzma2, .lzma, .deflate, .bzip2]

/-- The method that a number stands for. -/
def ofNumber? (number : Nat) : Option Method :=
  all.find? fun method => method.number = number

end Method

/-- Why a coder did not give its output. -/
inductive Fault where
  /-- The identifier of the method has more than eight bytes. -/
  | longMethodId
  | unsupportedMethod (id : Bytes)
  | inputCount (method : Method) (count : Nat)
  | deltaProperties
  | lzmaProperties
  | lzma (why : Halt Unit)
  | deflate (why : Halt Deflate.Corruption)
  | bzip2 (why : Halt Bzip2.Corruption)
  deriving DecidableEq, Repr

namespace Fault

/-- What is wrong, without saying who found it. -/
def detail : Fault → String
  | .longMethodId => "method id longer than 8 bytes"
  | .unsupportedMethod id => "unsupported compression method 0x" ++ hexText id
  | .inputCount method count => method.name ++ s!" expects one input stream, got {count}"
  | .deltaProperties => "delta properties must be exactly one byte"
  | .lzmaProperties => "invalid LZMA properties: unsupported options"
  | .lzma .truncated => "lzma_code failed: truncated input"
  | .lzma (.corrupt ()) => "lzma_code failed: corrupt data"
  | .deflate .truncated => "truncated deflate stream"
  | .deflate (.corrupt fault) => "inflate failed: " ++ fault.message
  | .bzip2 .truncated => "truncated bzip2 stream"
  | .bzip2 (.corrupt .signature) => "BZ2_bzDecompress failed with code -5"
  | .bzip2 (.corrupt .data) => "BZ2_bzDecompress failed with code -4"

/-- The wording of each fault. -/
def message (fault : Fault) : String := "builtin decoder: " ++ fault.detail

end Fault

/-- Shifts a byte into a word. -/
def shiftIn (word : UInt64) (byte : UInt8) : UInt64 := word <<< 8 ||| byte.toUInt64

/-- The value of a method identifier. -/
def methodNumber (id : Bytes) : Except Fault Nat :=
  if 8 < id.length then .error .longMethodId else .ok (id.foldl shiftIn 0).toNat

/-- The method that an identifier names. -/
def method (id : Bytes) : Except Fault Method :=
  match methodNumber id with
  | .error fault => .error fault
  | .ok number =>
    match Method.ofNumber? number with
    | some method => .ok method
    | none => .error (.unsupportedMethod id)

/-- Whether an identifier names a method that is understood. -/
def supports (id : Bytes) : Bool :=
  if 8 < id.length then false
  else
    match methodNumber id with
    | .error _ => false
    | .ok number =>
      number = Method.copy.number ∨ number = Method.delta.number ∨ number = Method.lzma2.number ∨
        number = Method.lzma.number ∨ number = Method.deflate.number ∨
        number = Method.bzip2.number

/-- Decodes the single input of a coder of the given method. -/
def decodeInput (method : Method) (properties input : Bytes) (expected : Option Nat) :
    Except Fault Bytes :=
  match method with
  | .copy => .ok input
  | .delta =>
    match Delta.distance? properties with
    | some distance => .ok (Delta.decode distance input)
    | none => .error .deltaProperties
  | .lzma =>
    match Lzma.properties? properties with
    | some (parameters, capacity) =>
      (Lzma.decode parameters capacity input expected).mapError .lzma
    | none => .error .lzmaProperties
  | .lzma2 =>
    match Lzma.chunkedProperties? properties with
    | some capacity => (Lzma.Chunked.decode capacity input expected).mapError .lzma
    | none => .error .lzmaProperties
  | .deflate => (Deflate.decode input expected).mapError .deflate
  | .bzip2 => (Bzip2.decode input expected).mapError .bzip2

/-- Runs a coder of the method `id` on its inputs. -/
def decode (id properties : Bytes) (inputs : List Bytes) (expected : Option Nat) :
    Except Fault Bytes :=
  match method id with
  | .error fault => .error fault
  | .ok method =>
    match inputs with
    | [input] => decodeInput method properties input expected
    | inputs => .error (.inputCount method inputs.length)

end SolidArchive.Codec
