import Mathlib.Data.Nat.Bitwise
import Mathlib.Tactic.Common
import SolidArchive.Crc32.Running

/-!
# The algebra of the checksum

Dividing a bit out of the register respects exclusive or (`shiftBit_xor`) and loses nothing
(`shiftBit_injective`), so the same holds of whole bytes. From the first it follows that a byte can
be taken in through the table (`absorb_eq`), and that the library's digest is the CRC-32 by its
definition (`digest_eq_reference`).

Up to four bytes fit the register. Taking them in is dividing after they were added all at once
(`foldl_absorbBits_eq`), so four bytes that differ leave different registers behind, and whatever
comes after them cannot make these equal again (`digest_window_injective`).

A checksum that runs along stands for the bytes so far at any time (`Running.Tracks`), since the
digest that it holds is complemented back into the register before the next chunk. So it makes no
difference how the bytes are cut into chunks and how often it is read out (`Running.IsCrc`).
-/

namespace SolidArchive

/-! ### Bytes as numbers -/

theorem littleEndian_lt (bytes : Bytes) : littleEndian bytes < 256 ^ bytes.length := by
  induction bytes with
  | nil => exact Nat.one_pos
  | cons byte bytes ih =>
    have hbyte : byte.toNat < 256 := byte.toNat_lt
    rw [littleEndian_cons, List.length_cons, Nat.pow_succ]
    omega

/-- Byte strings of one length are told apart by their numbers. -/
theorem littleEndian_injective {bytes bytes' : Bytes} (hlength : bytes.length = bytes'.length)
    (h : littleEndian bytes = littleEndian bytes') : bytes = bytes' := by
  induction bytes generalizing bytes' with
  | nil => exact (List.eq_nil_of_length_eq_zero hlength.symm).symm
  | cons byte bytes ih =>
    obtain ⟨byte', bytes', rfl⟩ := List.exists_cons_of_length_eq_add_one hlength.symm
    have hbyte : byte.toNat < 256 := byte.toNat_lt
    have hbyte' : byte'.toNat < 256 := byte'.toNat_lt
    rw [littleEndian_cons, littleEndian_cons] at h
    rw [UInt8.toNat_inj.mp (by omega : byte.toNat = byte'.toNat),
      ih (Nat.succ.inj hlength) (by omega)]

namespace Crc32

variable {register register' : UInt32} {byte : UInt8} {bytes bytes' before after : Bytes}

/-! ### One bit -/

theorem and_one_eq_one_iff : register &&& 1 = 1 ↔ register.toNat % 2 = 1 := by
  rw [← UInt32.toNat_inj, UInt32.toNat_and]
  exact (Nat.and_one_is_mod register.toNat).congr_left

theorem toNat_shiftRight_one (register : UInt32) : (register >>> 1).toNat = register.toNat / 2 := by
  rw [UInt32.toNat_shiftRight]
  exact Nat.shiftRight_one _

theorem shiftBit_of_even (h : register.toNat % 2 = 0) : shiftBit register = register >>> 1 :=
  if_neg fun hodd => absurd (and_one_eq_one_iff.mp hodd) (by omega)

theorem shiftBit_of_odd (h : register.toNat % 2 = 1) :
    shiftBit register = (register >>> 1) ^^^ polynomial :=
  if_pos (and_one_eq_one_iff.mpr h)

theorem shiftBit_xor (register register' : UInt32) :
    shiftBit (register ^^^ register') = shiftBit register ^^^ shiftBit register' := by
  have hparity : (register ^^^ register').toNat % 2 = (register.toNat + register'.toNat) % 2 := by
    rw [UInt32.toNat_xor, Nat.xor_mod_two_eq]
  have hshift : (register ^^^ register') >>> 1 = register >>> 1 ^^^ register' >>> 1 :=
    UInt32.shiftRight_xor
  rcases Nat.mod_two_eq_zero_or_one register.toNat with h | h <;>
    rcases Nat.mod_two_eq_zero_or_one register'.toNat with h' | h'
  · rw [shiftBit_of_even h, shiftBit_of_even h', shiftBit_of_even (by omega), hshift]
  · rw [shiftBit_of_even h, shiftBit_of_odd h', shiftBit_of_odd (by omega), hshift,
      UInt32.xor_assoc]
  · rw [shiftBit_of_odd h, shiftBit_of_even h', shiftBit_of_odd (by omega), hshift,
      UInt32.xor_assoc, UInt32.xor_assoc, UInt32.xor_comm polynomial]
  · -- the polynomial is taken away twice
    rw [shiftBit_of_odd h, shiftBit_of_odd h', shiftBit_of_even (by omega), hshift,
      UInt32.xor_comm (register' >>> 1), ← UInt32.xor_assoc, UInt32.xor_assoc (register >>> 1),
      UInt32.xor_self, UInt32.xor_zero]

/-- Only the register of zeros becomes one, since the top bit of the polynomial is set. -/
theorem eq_zero_of_shiftBit (h : shiftBit register = 0) : register = 0 := by
  have hlt : register.toNat < 2 ^ 32 := register.toNat_lt
  rcases Nat.mod_two_eq_zero_or_one register.toNat with heven | hodd
  · rw [shiftBit_of_even heven, ← UInt32.toNat_inj, toNat_shiftRight_one] at h
    have hzero : register.toNat / 2 = 0 := h
    exact UInt32.toNat_inj.mp (show register.toNat = 0 by omega)
  · rw [shiftBit_of_odd hodd, UInt32.xor_eq_zero_iff, ← UInt32.toNat_inj,
      toNat_shiftRight_one] at h
    have htop : register.toNat / 2 = 0xEDB88320 := h
    omega

theorem shiftBit_injective (h : shiftBit register = shiftBit register') : register = register' := by
  rw [← UInt32.xor_eq_zero_iff, ← shiftBit_xor] at h
  exact UInt32.xor_eq_zero_iff.mp (eq_zero_of_shiftBit h)

/-! ### Many bits -/

theorem shiftBits_xor (count : Nat) (register register' : UInt32) :
    shiftBits count (register ^^^ register') =
      shiftBits count register ^^^ shiftBits count register' := by
  induction count generalizing register register' with
  | zero => rfl
  | succ count ih => rw [shiftBits_succ, shiftBit_xor, ih, ← shiftBits_succ, ← shiftBits_succ]

theorem shiftBits_add (count more : Nat) (register : UInt32) :
    shiftBits (count + more) register = shiftBits more (shiftBits count register) := by
  induction count generalizing register with
  | zero => rw [Nat.zero_add, shiftBits_zero]
  | succ count ih => rw [Nat.succ_add, shiftBits_succ, shiftBits_succ, ih]

theorem shiftBits_injective {count : Nat}
    (h : shiftBits count register = shiftBits count register') :
    register = register' := by
  induction count generalizing register register' with
  | zero => exact h
  | succ count ih => exact shiftBit_injective (ih h)

/-- Zeros at the low end are divided out without a remainder. -/
theorem shiftBits_two_pow_mul {count n : Nat} (h : 2 ^ count * n < 2 ^ 32) :
    shiftBits count (UInt32.ofNat (2 ^ count * n)) = UInt32.ofNat n := by
  induction count with
  | zero => rw [Nat.pow_zero, Nat.one_mul, shiftBits_zero]
  | succ count ih =>
    have hdouble : 2 ^ (count + 1) * n = 2 * (2 ^ count * n) := by
      rw [Nat.pow_succ', Nat.mul_assoc]
    rw [hdouble] at h ⊢
    have hnat : (UInt32.ofNat (2 * (2 ^ count * n))).toNat = 2 * (2 ^ count * n) :=
      UInt32.toNat_ofNat'.trans (Nat.mod_eq_of_lt h)
    -- an even register is halved, and nothing is fed back
    have hhalf : shiftBit (UInt32.ofNat (2 * (2 ^ count * n))) = UInt32.ofNat (2 ^ count * n) := by
      rw [shiftBit_of_even (by rw [hnat, Nat.mul_mod_right]), ← UInt32.toNat_inj,
        toNat_shiftRight_one, hnat, UInt32.toNat_ofNat', Nat.mod_eq_of_lt (by omega)]
      exact Nat.mul_div_cancel_left _ Nat.two_pos
    rw [shiftBits_succ, hhalf]
    exact ih (by omega)

/-! ### One byte -/

theorem toNat_shiftRight_eight (register : UInt32) :
    (register >>> 8).toNat = register.toNat / 2 ^ 8 := by
  rw [UInt32.toNat_shiftRight]
  exact Nat.shiftRight_eq_div_pow _ 8

/-- A number is its lowest byte and the rest. -/
theorem ofNat_byte_add {low : Nat} (high : Nat) (h : low < 2 ^ 8) :
    UInt32.ofNat (low + 2 ^ 8 * high) = UInt32.ofNat low ^^^ UInt32.ofNat (2 ^ 8 * high) := by
  have hxor : low + 2 ^ 8 * high = low ^^^ 2 ^ 8 * high := by
    apply Nat.eq_of_testBit_eq
    intro i
    rw [Nat.add_comm, Nat.testBit_two_pow_mul_add high h, Nat.testBit_xor, Nat.testBit_two_pow_mul]
    by_cases hi : i < 8
    · rw [if_pos hi, decide_eq_false (Nat.not_le.mpr hi), Bool.false_and, Bool.xor_false]
    · have hlow : low.testBit i = false :=
        Nat.testBit_lt_two_pow (h.trans_le (Nat.pow_le_pow_right Nat.two_pos (Nat.not_lt.mp hi)))
      rw [if_neg hi, hlow, decide_eq_true (Nat.not_lt.mp hi), Bool.true_and, Bool.false_xor]
  rw [hxor, UInt32.ofNat_xor]

/-- Eight divisions work on the lowest byte only; the others move down. -/
theorem shiftBits_eight (register : UInt32) :
    shiftBits 8 register = shiftBits 8 (register &&& 0xFF) ^^^ (register >>> 8) := by
  have hlt : register.toNat < 2 ^ 32 := register.toNat_lt
  have hlow : register &&& 0xFF = UInt32.ofNat (register.toNat % 2 ^ 8) := by
    rw [← UInt32.toNat_inj, UInt32.toNat_and, UInt32.toNat_ofNat', Nat.mod_eq_of_lt (by omega)]
    exact Nat.and_two_pow_sub_one_eq_mod register.toNat 8
  have hhigh : register >>> 8 = UInt32.ofNat (register.toNat / 2 ^ 8) := by
    rw [← UInt32.toNat_inj, toNat_shiftRight_eight, UInt32.toNat_ofNat',
      Nat.mod_eq_of_lt (by omega)]
  -- the low byte and the others do not meet, so the register is their exclusive or
  have hsplit : register = UInt32.ofNat (register.toNat % 2 ^ 8) ^^^
      UInt32.ofNat (2 ^ 8 * (register.toNat / 2 ^ 8)) := by
    rw [← ofNat_byte_add _ (Nat.mod_lt _ (Nat.two_pow_pos 8)), Nat.mod_add_div, UInt32.ofNat_toNat]
  calc shiftBits 8 register
      = shiftBits 8 (UInt32.ofNat (register.toNat % 2 ^ 8)) ^^^
        shiftBits 8 (UInt32.ofNat (2 ^ 8 * (register.toNat / 2 ^ 8))) := by
        rw [← shiftBits_xor, ← hsplit]
    _ = shiftBits 8 (register &&& 0xFF) ^^^ (register >>> 8) := by
        rw [shiftBits_two_pow_mul (by omega), ← hlow, ← hhigh]

/-- A byte can be taken in through the table. -/
theorem absorb_eq (register : UInt32) (byte : UInt8) :
    absorb register byte = absorbBits register byte := by
  have hbyte : byte.toUInt32 >>> 8 = 0 := by
    rw [← UInt32.toNat_inj, toNat_shiftRight_eight, UInt8.toNat_toUInt32]
    exact Nat.div_eq_of_lt byte.toNat_lt
  have hhigh : (register ^^^ byte.toUInt32) >>> 8 = register >>> 8 := by
    rw [UInt32.shiftRight_xor, hbyte, UInt32.xor_zero]
  have hlow : ((register ^^^ byte.toUInt32) &&& 0xFF).toNat < 256 := by
    rw [UInt32.toNat_and]
    exact Nat.lt_succ_of_le Nat.and_le_right
  have htable : table.getD ((register ^^^ byte.toUInt32) &&& 0xFF).toNat 0 =
      shiftBits 8 ((register ^^^ byte.toUInt32) &&& 0xFF) := by
    rw [Array.getD_eq_getD_getElem?, table, Array.getElem?_ofFn, dif_pos hlow, Option.getD_some,
      UInt32.ofNat_toNat]
  rw [absorb, absorbBits, htable, shiftBits_eight (register ^^^ _), hhigh]

theorem absorb_eq_absorbBits : absorb = absorbBits := by
  funext register byte
  exact absorb_eq register byte

/-- The library's digest is the CRC-32. -/
theorem digest_eq_reference (bytes : Bytes) : digest bytes = reference bytes := by
  show ~~~ bytes.foldl absorb 0xFFFFFFFF = ~~~ bytes.foldl absorbBits 0xFFFFFFFF
  rw [absorb_eq_absorbBits]

theorem absorbBits_injective (h : absorbBits register byte = absorbBits register' byte) :
    register = register' :=
  (UInt32.xor_left_inj _).mp (shiftBits_injective h)

/-! ### Four bytes -/

/-- Bytes that fit the register can be added to it all at once. -/
theorem foldl_absorbBits_eq (h : bytes.length ≤ 4) (register : UInt32) :
    bytes.foldl absorbBits register =
      shiftBits (8 * bytes.length) (register ^^^ UInt32.ofNat (littleEndian bytes)) := by
  induction bytes generalizing register with
  | nil =>
    show register = register ^^^ 0
    rw [UInt32.xor_zero]
  | cons byte bytes ih =>
    have hshort : bytes.length ≤ 3 := Nat.le_of_succ_le_succ h
    have hfits : 2 ^ 8 * littleEndian bytes < 2 ^ 32 := by
      have hlt := (littleEndian_lt bytes).trans_le (Nat.pow_le_pow_right (by decide) hshort)
      omega
    have hnumber : UInt32.ofNat (littleEndian (byte :: bytes)) =
        byte.toUInt32 ^^^ UInt32.ofNat (2 ^ 8 * littleEndian bytes) := by
      rw [littleEndian_cons, ← UInt32.ofNat_uInt8ToNat byte]
      exact ofNat_byte_add _ byte.toNat_lt
    -- the later bytes wait above the first one while it is divided out
    rw [List.foldl_cons, ih (hshort.trans (Nat.le_succ 3)), hnumber, ← UInt32.xor_assoc,
      List.length_cons, Nat.mul_succ, Nat.add_comm, shiftBits_add, shiftBits_xor 8,
      shiftBits_two_pow_mul hfits]
    rfl

theorem foldl_absorbBits_injective (hlength : bytes.length = bytes'.length) (h : bytes.length ≤ 4)
    (hsame : bytes.foldl absorbBits register = bytes'.foldl absorbBits register) :
    bytes = bytes' := by
  have hlt {bytes : Bytes} (h : bytes.length ≤ 4) : littleEndian bytes < 2 ^ 32 :=
    (littleEndian_lt bytes).trans_le (Nat.pow_le_pow_right (by decide) h)
  rw [foldl_absorbBits_eq h, foldl_absorbBits_eq (hlength ▸ h), ← hlength] at hsame
  have hnumber := congrArg UInt32.toNat ((UInt32.xor_right_inj _).mp (shiftBits_injective hsame))
  rw [UInt32.toNat_ofNat', UInt32.toNat_ofNat', Nat.mod_eq_of_lt (hlt h),
    Nat.mod_eq_of_lt (hlt (hlength ▸ h))] at hnumber
  exact littleEndian_injective hlength hnumber

/-- What comes after it does not make up for a difference. -/
theorem foldl_absorbBits_register (h : bytes.foldl absorbBits register =
    bytes.foldl absorbBits register') : register = register' := by
  induction bytes generalizing register register' with
  | nil => exact h
  | cons byte bytes ih => exact absorbBits_injective (ih h)

/-- **Bursts.** Up to four bytes in a row cannot be changed under the same digest, whatever is
before and after them. -/
theorem digest_window_injective (hlength : bytes.length = bytes'.length) (h : bytes.length ≤ 4)
    (hsame : digest (before ++ bytes ++ after) = digest (before ++ bytes' ++ after)) :
    bytes = bytes' := by
  rw [digest_eq_reference, digest_eq_reference, reference, reference, UInt32.not_inj,
    List.foldl_append, List.foldl_append, List.foldl_append, List.foldl_append] at hsame
  exact foldl_absorbBits_injective hlength h (foldl_absorbBits_register hsame)

/-! ### Chunks -/

namespace Running

variable {σ : Type} {r : Running σ} {stands : Bytes → σ → Prop} {seen : Bytes} {s : σ}

/-- What is to be read out, use by use, behind the bytes `seen`: the CRC-32 of all bytes so far. -/
def referenceReadings (seen : Bytes) : List Use → List UInt32
  | [] => []
  | .update chunk :: uses => referenceReadings (seen ++ chunk) uses
  | .finalize :: uses => reference seen :: referenceReadings seen uses

/-- A running checksum is the CRC-32 of the bytes, however they are cut into chunks. It may be read
out in between, and every time it is the CRC-32 of the bytes so far. -/
structure IsCrc (r : Running σ) : Prop where
  chunks (chunks : List Bytes) :
    r.finalize (chunks.foldl r.update r.start) = r.digestOf chunks.flatten
  digestOf (bytes : Bytes) : r.digestOf bytes = reference bytes
  readings (uses : List Use) : r.readings r.start uses = referenceReadings [] uses

/-- The state of a running checksum `stands` for the bytes so far. -/
structure Tracks (r : Running σ) (stands : Bytes → σ → Prop) : Prop where
  start : stands [] r.start
  update {seen : Bytes} {s : σ} (h : stands seen s) (chunk : Bytes) :
    stands (seen ++ chunk) (r.update s chunk)
  finalize {seen : Bytes} {s : σ} (h : stands seen s) : r.finalize s = reference seen

namespace Tracks

theorem foldl_update (h : r.Tracks stands) (hs : stands seen s) (chunks : List Bytes) :
    stands (seen ++ chunks.flatten) (chunks.foldl r.update s) := by
  induction chunks generalizing seen s with
  | nil => rwa [List.flatten_nil, List.append_nil]
  | cons chunk chunks ih =>
    rw [List.flatten_cons, ← List.append_assoc, List.foldl_cons]
    exact ih (h.update hs chunk)

theorem readings_eq (h : r.Tracks stands) (hs : stands seen s) (uses : List Use) :
    r.readings s uses = referenceReadings seen uses := by
  induction uses generalizing seen s with
  | nil => rfl
  | cons use uses ih =>
    cases use with
    | update chunk => exact ih (h.update hs chunk)
    | finalize => rw [readings, referenceReadings, h.finalize hs, ih hs]

/-- **A state that stands for the bytes so far** is all that it takes. -/
theorem isCrc (h : r.Tracks stands) : r.IsCrc where
  chunks chunks := by
    rw [digestOf, h.finalize (h.foldl_update h.start chunks),
      h.finalize (h.update h.start chunks.flatten)]
  digestOf bytes := h.finalize (h.update h.start bytes)
  readings uses := h.readings_eq h.start uses

end Tracks

end Running

/-- The register is what it was before the digest was made. -/
theorem throughTable_tracks :
    throughTable.Tracks fun seen crc => crc.value = reference seen where
  start := rfl
  update {seen crc} h chunk := by
    show ~~~ chunk.foldl absorb (~~~ crc.value) = ~~~ (seen ++ chunk).foldl absorbBits 0xFFFFFFFF
    rw [h, reference, UInt32.not_not, List.foldl_append, absorb_eq_absorbBits]
  finalize h := h

/-- A library goes on from a word that stands for some bytes. -/
def Continues (crc32 : UInt64 → Bytes → UInt64) : Prop :=
  ∀ seen piece, piece.length ≤ maxPiece →
    crc32 (reference seen).toUInt64 piece = (reference (seen ++ piece)).toUInt64

variable {crc32 : UInt64 → Bytes → UInt64}

/-- The pieces of a chunk are given one after another. -/
theorem Continues.feed_eq (h : Continues crc32) (seen chunk : Bytes) :
    feed crc32 (reference seen).toUInt64 chunk = (reference (seen ++ chunk)).toUInt64 := by
  induction hlength : chunk.length using Nat.strongRecOn generalizing seen chunk with
  | ind length ih =>
    subst hlength
    rw [feed]
    split
    · next hempty => rw [hempty, List.append_nil]
    · next hsome =>
      have hpos := List.length_pos_iff.mpr hsome
      have hless : (chunk.drop maxPiece).length < chunk.length := by
        rw [List.length_drop]
        exact Nat.sub_lt hpos (by decide)
      rw [h seen _ (List.length_take_le _ _), ih _ hless _ _ rfl, List.append_assoc,
        List.take_append_drop]

theorem Continues.throughLibrary_tracks (h : Continues crc32) :
    (throughLibrary crc32).Tracks fun seen word => word = (reference seen).toUInt64 where
  start := rfl
  update {seen word} hword chunk := by
    rw [hword]
    exact h.feed_eq seen chunk
  finalize {seen word} hword := by
    rw [hword]
    exact UInt32.toUInt32_toUInt64 _

/-- **A running checksum is the CRC-32**, bit by bit, of all the bytes that came in, however they
were cut into chunks and whenever it was read out: the one that goes through the table, and one that
leaves the bytes to a library that goes on from its last word. -/
theorem running_isCrc : throughTable.IsCrc ∧
    ∀ crc32 : UInt64 → Bytes → UInt64, Continues crc32 → (throughLibrary crc32).IsCrc :=
  ⟨throughTable_tracks.isCrc, fun _ h => h.throughLibrary_tracks.isCrc⟩

/-- The digits from one to nine in three chunks, of which one is empty, read out twice. -/
theorem running_isCrc_digits :
    let library := fun (word : UInt64) (bytes : Bytes) =>
      ((Crc32.mk word.toUInt32).update bytes).value.toUInt64
    let uses : List Running.Use := [.update [49, 50], .finalize, .update [], .finalize,
      .update [51, 52, 53, 54, 55, 56, 57], .finalize]
    Continues library ∧ digest [49, 50, 51, 52, 53, 54, 55, 56, 57] = 0xCBF43926 ∧
      throughTable.readings start uses = (throughLibrary library).readings 0 uses ∧
      (throughLibrary library).digestOf [49, 50, 51, 52, 53, 54, 55, 56, 57] = 0xCBF43926 := by
  intro library uses
  have hlibrary : Continues library := by
    intro seen piece _
    show UInt32.toUInt64 (~~~ piece.foldl absorb (~~~ (reference seen).toUInt64.toUInt32)) = _
    rw [UInt32.toUInt32_toUInt64, absorb_eq_absorbBits, reference, UInt32.not_not, reference,
      List.foldl_append]
  obtain ⟨htable, hthrough⟩ := running_isCrc
  have hdigits : digest [49, 50, 51, 52, 53, 54, 55, 56, 57] = 0xCBF43926 := by decide +kernel
  refine ⟨hlibrary, hdigits, ?_, ?_⟩
  · exact (htable.readings uses).trans ((hthrough library hlibrary).readings uses).symm
  · rw [(hthrough library hlibrary).digestOf, ← digest_eq_reference]
    exact hdigits

/-! ### Bursts -/

/-- The byte strings differ nowhere but at the `width` positions from `start` on. -/
def SameBeside (start width : Nat) (bytes bytes' : Bytes) : Prop :=
  ∀ i : Nat, bytes[i]? ≠ bytes'[i]? → start ≤ i ∧ i < start + width

section Burst

variable {start width : Nat}

/-- A byte string is what is before a window, what is in it and what is after it. -/
theorem window_eq (start width : Nat) (bytes : Bytes) :
    bytes.take start ++ (bytes.drop start).take width ++ bytes.drop (start + width) = bytes := by
  rw [List.append_assoc, ← List.drop_drop, List.take_append_drop, List.take_append_drop]

theorem SameBeside.take_eq (h : SameBeside start width bytes bytes') :
    bytes.take start = bytes'.take start := by
  apply List.ext_getElem?
  intro i
  rw [List.getElem?_take, List.getElem?_take]
  split
  · next hi =>
    by_contra hne
    have := (h i hne).1
    omega
  · rfl

theorem SameBeside.drop_eq (h : SameBeside start width bytes bytes') :
    bytes.drop (start + width) = bytes'.drop (start + width) := by
  apply List.ext_getElem?
  intro i
  rw [List.getElem?_drop, List.getElem?_drop]
  by_contra hne
  have := (h _ hne).2
  omega

/-- **Bursts are found.** Byte strings of one length that differ, but only within four bytes in a
row, have different digests, wherever these bytes are and whatever is before and after them. So it
is with the digest that goes through the table, with the CRC-32 by its definition, and with the
digest of any library that goes on from its last word. -/
theorem digest_ne_of_burst (hlength : bytes.length = bytes'.length) (hne : bytes ≠ bytes')
    (hburst : SameBeside start 4 bytes bytes') :
    digest bytes ≠ digest bytes' ∧ reference bytes ≠ reference bytes' ∧
      ∀ crc32 : UInt64 → Bytes → UInt64, Continues crc32 →
        (throughLibrary crc32).digestOf bytes ≠ (throughLibrary crc32).digestOf bytes' := by
  have hdigest : digest bytes ≠ digest bytes' := by
    intro hsame
    -- the windows are all that is left to differ
    rw [← window_eq start 4 bytes, ← window_eq start 4 bytes', hburst.take_eq,
      hburst.drop_eq] at hsame
    have hwindow : (bytes.drop start).take 4 = (bytes'.drop start).take 4 := by
      refine digest_window_injective ?_ (List.length_take_le _ _) hsame
      rw [List.length_take, List.length_take, List.length_drop, List.length_drop, hlength]
    apply hne
    calc bytes
        = bytes.take start ++ (bytes.drop start).take 4 ++ bytes.drop (start + 4) :=
          (window_eq start 4 bytes).symm
      _ = bytes'.take start ++ (bytes'.drop start).take 4 ++ bytes'.drop (start + 4) := by
          rw [hburst.take_eq, hwindow, hburst.drop_eq]
      _ = bytes' := window_eq start 4 bytes'
  have hreference : reference bytes ≠ reference bytes' := by
    rwa [← digest_eq_reference, ← digest_eq_reference]
  refine ⟨hdigest, hreference, fun crc32 h => ?_⟩
  have hcrc := h.throughLibrary_tracks.isCrc
  rwa [hcrc.digestOf, hcrc.digestOf]

/-- The first and the last of four bytes in the middle are changed. -/
theorem digest_ne_of_burst_middle :
    let bytes : Bytes := [7, 1, 2, 3, 4, 7]
    let bytes' : Bytes := [7, 5, 2, 3, 6, 7]
    bytes.length = bytes'.length ∧ bytes ≠ bytes' ∧ SameBeside 1 4 bytes bytes' ∧
      digest bytes ≠ digest bytes' := by
  intro bytes bytes'
  have hburst : SameBeside 1 4 bytes bytes' := by
    intro i hi
    by_contra hout
    apply hi
    obtain rfl | hlast : i = 0 ∨ 5 ≤ i := by omega
    · rfl
    · obtain ⟨j, rfl⟩ := Nat.exists_eq_add_of_le' hlast
      cases j <;> rfl
  have hlength : bytes.length = bytes'.length := rfl
  have hne : bytes ≠ bytes' := by decide
  obtain ⟨hdigest, -, -⟩ := digest_ne_of_burst hlength hne hburst
  exact ⟨hlength, hne, hburst, hdigest⟩

end Burst

end Crc32

end SolidArchive
