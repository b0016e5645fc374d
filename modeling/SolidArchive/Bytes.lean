/-!
# Byte strings

Archive data is a list of bytes. This module holds what the other modules read out of a byte string
and print from it: its value as a big- or little-endian number and its hexadecimal text.
-/

namespace SolidArchive

/-- A byte string. -/
abbrev Bytes := List UInt8

/-! ### Numbers written in bytes -/

/-- The number whose base-256 digits are `bytes`, most significant first. -/
def bigEndian (bytes : Bytes) : Nat :=
  bytes.foldl (fun value byte => value * 256 + byte.toNat) 0

/-- The number whose base-256 digits are `bytes`, least significant first. -/
def littleEndian (bytes : Bytes) : Nat :=
  bytes.foldr (fun byte value => byte.toNat + 256 * value) 0

@[simp] theorem bigEndian_nil : bigEndian [] = 0 := rfl

@[simp] theorem littleEndian_nil : littleEndian [] = 0 := rfl

@[simp] theorem littleEndian_cons (byte : UInt8) (bytes : Bytes) :
    littleEndian (byte :: bytes) = byte.toNat + 256 * littleEndian bytes := rfl

/-! ### Hexadecimal text -/

/-- The lower-case hexadecimal digit of a number below sixteen. -/
def hexDigit (n : Nat) : Char :=
  Char.ofNat (if n < 10 then 48 + n else 87 + n)

/-- The last `width` hexadecimal digits of `n`. -/
def hexDigits : (width : Nat) → (n : Nat) → List Char
  | 0, _ => []
  | width + 1, n => hexDigits width (n / 16) ++ [hexDigit (n % 16)]

/-- Two lower-case digits for every byte. -/
def hexText (bytes : Bytes) : String :=
  String.ofList (bytes.flatMap fun byte => hexDigits 2 byte.toNat)

/-- A 32-bit word as `0x` and eight digits. -/
def hexWord (word : UInt32) : String :=
  "0x" ++ String.ofList (hexDigits 8 word.toNat)

end SolidArchive
