import Mathlib.Algebra.BigOperators.Fin
import Mathlib.Tactic.Ring
import SolidArchive.Codec.Library
import SolidArchive.Proofs.Crc32

/-!
# Identifiers of methods

An identifier is read by shifting its bytes into a word. Eight bytes fill the word and no more are
taken, so nothing is shifted out and the word is the number whose digits the bytes are
(`toNat_foldl_shiftIn`). The number is therefore as good as the identifier, up to zeros in front
(`bigEndian_eq_iff`).

Two places look at the number: `supports` compares it with the numbers that are understood, and
`method` finds a method by it. `supports_eq` says that they agree. What is left is the order in
which a coder fails: for its identifier first, then for the number of its inputs, and only then for
its properties and its data (`Dispatches`). This does not depend on what decodes the data, so it is
shown of the stream decoders and of any libraries at once.
-/

namespace SolidArchive

variable {bytes bytes' : Bytes}

/-! ### Big-endian numbers -/

theorem bigEndian_eq_littleEndian_reverse (bytes : Bytes) :
    bigEndian bytes = littleEndian bytes.reverse := by
  rw [littleEndian, List.foldr_reverse, bigEndian]
  simp only [Nat.add_comm, Nat.mul_comm]

/-- Digits behind a number move it up by their places. -/
theorem foldl_bigEndian (value : Nat) (bytes : Bytes) :
    bytes.foldl (fun value byte => value * 256 + byte.toNat) value =
      value * 256 ^ bytes.length + bigEndian bytes := by
  induction bytes generalizing value with
  | nil => simp
  | cons byte bytes ih =>
    rw [bigEndian, List.foldl_cons, List.foldl_cons, ih, ih, List.length_cons, Nat.pow_succ]
    ring

theorem bigEndian_cons (byte : UInt8) (bytes : Bytes) :
    bigEndian (byte :: bytes) = byte.toNat * 256 ^ bytes.length + bigEndian bytes := by
  rw [bigEndian, List.foldl_cons, foldl_bigEndian, Nat.zero_mul, Nat.zero_add]

/-- Every byte counts for its place. -/
theorem bigEndian_eq_sum (bytes : Bytes) :
    bigEndian bytes = ∑ i : Fin bytes.length, bytes[i].toNat * 256 ^ (bytes.length - 1 - i) := by
  induction bytes with
  | nil => rfl
  | cons byte bytes ih =>
    rw [bigEndian_cons, ih]
    simp only [List.length_cons]
    rw [Fin.sum_univ_succ]
    -- the first byte is in the highest place, and the others are where they were
    congr 1
    apply Finset.sum_congr rfl
    intro i _
    have hplace : bytes.length + 1 - 1 - (i.succ : Nat) = bytes.length - 1 - i := by
      rw [Fin.val_succ]
      omega
    rw [hplace]
    rfl

theorem bigEndian_injective (hlength : bytes.length = bytes'.length)
    (h : bigEndian bytes = bigEndian bytes') : bytes = bytes' := by
  rw [bigEndian_eq_littleEndian_reverse, bigEndian_eq_littleEndian_reverse] at h
  exact List.reverse_injective (littleEndian_injective (by simpa using hlength) h)

/-- Zeros in front do not count. -/
@[simp] theorem bigEndian_replicate_append (count : Nat) (bytes : Bytes) :
    bigEndian (List.replicate count 0 ++ bytes) = bigEndian bytes := by
  induction count with
  | zero => rfl
  | succ count ih =>
    rw [List.replicate_succ, List.cons_append, bigEndian_cons, ih]
    simp

/-- **Zeros in front** are all that a number does not tell. -/
theorem bigEndian_eq_iff : bigEndian bytes = bigEndian bytes' ↔
    bytes.dropWhile (· = 0) = bytes'.dropWhile (· = 0) := by
  have hstrip : ∀ (count : Nat) (bytes : Bytes),
      (List.replicate count 0 ++ bytes).dropWhile (· = 0) = bytes.dropWhile (· = 0) := by
    intro count bytes
    apply List.dropWhile_append_of_pos
    intro byte hbyte
    simpa using List.eq_of_mem_replicate hbyte
  have hvalue : ∀ bytes : Bytes, bigEndian bytes = bigEndian (bytes.dropWhile (· = 0)) := by
    intro bytes
    induction bytes with
    | nil => rfl
    | cons byte bytes ih =>
      rw [List.dropWhile_cons]
      split
      · next hzero =>
        rw [bigEndian_cons, of_decide_eq_true hzero, ih]
        simp
      · rfl
  constructor
  · intro h
    -- with as many zeros in front as the other one is longer, both have one length
    have hlength : (List.replicate (bytes'.length - bytes.length) 0 ++ bytes).length =
        (List.replicate (bytes.length - bytes'.length) 0 ++ bytes').length := by
      simp only [List.length_append, List.length_replicate]
      omega
    have hpadded := bigEndian_injective hlength (by simpa using h)
    calc bytes.dropWhile (· = 0)
        = (List.replicate (bytes'.length - bytes.length) 0 ++ bytes).dropWhile (· = 0) :=
          (hstrip _ _).symm
      _ = (List.replicate (bytes.length - bytes'.length) 0 ++ bytes').dropWhile (· = 0) := by
          rw [hpadded]
      _ = bytes'.dropWhile (· = 0) := hstrip _ _
  · intro h
    rw [hvalue bytes, h, ← hvalue bytes']

namespace Codec

variable {id id' : Bytes}

/-! ### The word of an identifier -/

/-- A byte that is shifted in becomes the lowest digit, as long as nothing is shifted out. -/
theorem toNat_shiftIn {word : UInt64} (byte : UInt8) (h : word.toNat < 2 ^ 56) :
    (shiftIn word byte).toNat = word.toNat * 256 + byte.toNat := by
  have hbyte : byte.toNat < 2 ^ 8 := byte.toNat_lt
  have hshift : (word <<< 8).toNat = word.toNat <<< 8 := by
    have hfits : word.toNat <<< 8 < 2 ^ 64 := by
      rw [Nat.shiftLeft_eq]
      omega
    rw [UInt64.toNat_shiftLeft]
    exact Nat.mod_eq_of_lt hfits
  rw [shiftIn, UInt64.toNat_or, hshift, UInt8.toNat_toUInt64,
    ← Nat.shiftLeft_add_eq_or_of_lt hbyte, Nat.shiftLeft_eq]

/-- Bytes that the word has room for become its lowest digits. -/
theorem toNat_foldl_shiftIn {word : UInt64} (bytes : Bytes)
    (h : (word.toNat + 1) * 256 ^ bytes.length ≤ 2 ^ 64) :
    (bytes.foldl shiftIn word).toNat =
      bytes.foldl (fun value byte => value * 256 + byte.toNat) word.toNat := by
  induction bytes generalizing word with
  | nil => rfl
  | cons byte bytes ih =>
    have hbyte : byte.toNat < 256 := byte.toNat_lt
    have hpos : 0 < 256 ^ bytes.length := Nat.pow_pos (by decide)
    have hword : (word.toNat + 1) * 256 * 256 ^ bytes.length ≤ 2 ^ 64 := by
      rwa [List.length_cons, Nat.pow_succ', ← Nat.mul_assoc] at h
    -- there is room for another byte, so nothing is shifted out
    have htop : word.toNat < 2 ^ 56 := by
      have hle := (Nat.le_mul_of_pos_right ((word.toNat + 1) * 256) hpos).trans hword
      omega
    have hnext := toNat_shiftIn byte htop
    rw [List.foldl_cons, List.foldl_cons, ih, hnext]
    rw [hnext]
    refine le_trans (Nat.mul_le_mul_right _ ?_) hword
    omega

/-- An identifier that is not too long is read as a number. -/
theorem methodNumber_eq (h : id.length ≤ 8) : methodNumber id = .ok (bigEndian id) := by
  have hroom : ((0 : UInt64).toNat + 1) * 256 ^ id.length ≤ 2 ^ 64 := by
    show 1 * 256 ^ id.length ≤ 256 ^ 8
    rw [Nat.one_mul]
    exact Nat.pow_le_pow_right (by decide) h
  rw [methodNumber, if_neg (Nat.not_lt.mpr h), toNat_foldl_shiftIn id hroom]
  rfl

theorem methodNumber_of_lt (h : 8 < id.length) : methodNumber id = .error .longMethodId :=
  if_pos h

theorem methodNumber_eq_error_iff {fault : Fault} :
    methodNumber id = .error fault ↔ fault = .longMethodId ∧ 8 < id.length := by
  by_cases h : id.length ≤ 8
  · rw [methodNumber_eq h]
    simp [h]
  · rw [methodNumber_of_lt (Nat.not_le.mp h), Except.error.injEq, eq_comm]
    simp [Nat.not_le.mp h]

theorem methodNumber_eq_ok_iff {number : Nat} :
    methodNumber id = .ok number ↔ id.length ≤ 8 ∧ number = bigEndian id := by
  by_cases h : id.length ≤ 8
  · rw [methodNumber_eq h, Except.ok.injEq, eq_comm]
    simp [h]
  · rw [methodNumber_of_lt (Nat.not_le.mp h)]
    simp [h]

theorem methodNumber_eq_iff (h : id.length ≤ 8) (h' : id'.length ≤ 8) :
    methodNumber id = methodNumber id' ↔ bigEndian id = bigEndian id' := by
  rw [methodNumber_eq h, methodNumber_eq h', Except.ok.injEq]

/-! ### The two places -/

/-- A number stands for a method just when it is one of the numbers that are understood. -/
theorem isSome_ofNumber? (number : Nat) : (Method.ofNumber? number).isSome ↔
    number = Method.copy.number ∨ number = Method.delta.number ∨ number = Method.lzma2.number ∨
      number = Method.lzma.number ∨ number = Method.deflate.number ∨
      number = Method.bzip2.number := by
  rw [Method.ofNumber?, List.find?_isSome]
  simp [Method.all, eq_comm]

/-- **The two places agree.** An identifier is supported just when it names a method. -/
theorem supports_eq (id : Bytes) : supports id = (method id).isOk := by
  unfold supports method
  by_cases h : id.length ≤ 8
  · rw [if_neg (Nat.not_lt.mpr h), methodNumber_eq h]
    dsimp only
    rw [Bool.eq_iff_iff, decide_eq_true_iff, ← isSome_ofNumber?]
    cases Method.ofNumber? (bigEndian id) <;> simp [Except.isOk, Except.toBool]
  · have hlong := Nat.not_le.mp h
    rw [if_pos hlong, methodNumber_of_lt hlong]
    rfl

theorem supports_iff : supports id = true ↔ ∃ m, method id = .ok m := by
  rw [supports_eq]
  cases method id <;> simp [Except.isOk, Except.toBool]

/-! ### Failing in order -/

namespace Fault

/-- The identifier is refused. -/
def RefusesId : Fault → Prop
  | .longMethodId | .unsupportedMethod _ => True
  | _ => False

/-- The coder has another number of inputs than one. -/
def CountsInputs : Fault → Prop
  | .inputCount _ _ => True
  | _ => False

/-- The identifier was understood and there is one input. -/
def IsOfContent (fault : Fault) : Prop := ¬fault.RefusesId ∧ ¬fault.CountsInputs

end Fault

/-- A coder that has no method fails for that. -/
theorem refusesId_of_method {fault : Fault} (h : method id = .error fault) : fault.RefusesId := by
  unfold method at h
  cases hnumber : methodNumber id with
  | error why =>
    rw [hnumber] at h
    cases h
    rw [(methodNumber_eq_error_iff.mp hnumber).1]
    trivial
  | ok number =>
    rw [hnumber] at h
    dsimp only at h
    split at h
    · cases h
    · cases h
      trivial

theorem isOfContent_of_mapError {ε : Type} {heading : ε → Fault} {x : Except ε Bytes}
    {fault : Fault} (h : x.mapError heading = .error fault)
    (hheading : ∀ why, (heading why).IsOfContent) : fault.IsOfContent := by
  cases x with
  | error why =>
    cases h
    exact hheading why
  | ok _ => cases h

/-- With one input a coder of a method fails for its properties or its data only. -/
theorem isOfContent_of_decodeInput {m : Method} {properties input : Bytes} {expected : Option Nat}
    {fault : Fault} (h : decodeInput m properties input expected = .error fault) :
    fault.IsOfContent := by
  have hlzma : Fault.lzmaProperties.IsOfContent := ⟨not_false, not_false⟩
  unfold decodeInput at h
  cases m with
  | copy => cases h
  | delta =>
    dsimp only at h
    split at h
    · cases h
    · cases h
      exact ⟨not_false, not_false⟩
  | lzma =>
    dsimp only at h
    split at h
    · exact isOfContent_of_mapError h fun _ => ⟨not_false, not_false⟩
    · cases h
      exact hlzma
  | lzma2 =>
    dsimp only at h
    split at h
    · exact isOfContent_of_mapError h fun _ => ⟨not_false, not_false⟩
    · cases h
      exact hlzma
  | deflate => exact isOfContent_of_mapError h fun _ => ⟨not_false, not_false⟩
  | bzip2 => exact isOfContent_of_mapError h fun _ => ⟨not_false, not_false⟩

open Library in
/-- The same of any libraries. -/
theorem Libraries.isOfContent_of_decodesInput {L : Libraries} {m : Method}
    {properties input : Bytes} {expected : Option Nat} {fault : Fault}
    (h : L.DecodesInput m properties input expected (.error fault)) : fault.IsOfContent := by
  -- both kinds of properties are refused in the same way
  have hlzma : ∀ chunked, L.DecodesLzma chunked properties input expected (.error fault) →
      fault.IsOfContent := by
    intro chunked h
    unfold DecodesLzma at h
    split at h
    · obtain ⟨r, -, hr⟩ := h
      exact isOfContent_of_mapError hr fun _ => ⟨not_false, not_false⟩
    · cases h
      exact ⟨not_false, not_false⟩
  cases m with
  | copy => exact isOfContent_of_decodeInput h
  | delta => exact isOfContent_of_decodeInput h
  | lzma => exact hlzma false h
  | lzma2 => exact hlzma true h
  | deflate =>
    obtain ⟨r, -, hr⟩ := h
    exact isOfContent_of_mapError hr fun _ => ⟨not_false, not_false⟩
  | bzip2 =>
    obtain ⟨r, -, hr⟩ := h
    exact isOfContent_of_mapError hr fun _ => ⟨not_false, not_false⟩

/-- How coders with the identifier `id` end, by a relation between what they are run with and the
result: first the identifier is looked at, then the number of inputs, then the rest. -/
structure Dispatches (id : Bytes)
    (decodes : (properties : Bytes) → List Bytes → Option Nat → Except Fault Bytes → Prop) :
    Prop where
  supports_iff : supports id = true ↔ ∀ properties inputs expected fault,
    decodes properties inputs expected (.error fault) → ¬fault.RefusesId
  /-- With another number of inputs than one, nothing else matters. -/
  counts : supports id = true → ∃ m, method id = .ok m ∧
    ∀ properties inputs expected, inputs.length ≠ 1 → ∀ result,
      decodes properties inputs expected result ↔ result = .error (.inputCount m inputs.length)
  counts_iff : supports id = true → ∀ properties inputs expected,
    (∃ fault, fault.CountsInputs ∧ decodes properties inputs expected (.error fault)) ↔
      inputs.length ≠ 1

/-- A coder is run in three steps. -/
theorem Dispatches.of_steps
    {decodes : (properties : Bytes) → List Bytes → Option Nat → Except Fault Bytes → Prop}
    (hrefused : ∀ {fault}, method id = .error fault → ∀ properties inputs expected result,
      decodes properties inputs expected result ↔ result = .error fault)
    (hcount : ∀ {m}, method id = .ok m → ∀ properties inputs expected, inputs.length ≠ 1 →
      ∀ result, decodes properties inputs expected result ↔
        result = .error (.inputCount m inputs.length))
    (hcontent : ∀ {m}, method id = .ok m → ∀ properties input expected fault,
      decodes properties [input] expected (.error fault) → fault.IsOfContent) :
    Dispatches id decodes where
  supports_iff := by
    rw [Codec.supports_iff]
    constructor
    · rintro ⟨m, hm⟩ properties inputs expected fault hdecodes
      by_cases hone : inputs.length = 1
      · obtain ⟨input, rfl⟩ := List.length_eq_one_iff.mp hone
        exact (hcontent hm _ _ _ _ hdecodes).1
      · cases (hcount hm _ _ _ hone _).mp hdecodes
        exact not_false
    · intro h
      cases hm : method id with
      | ok m => exact ⟨m, rfl⟩
      | error fault =>
        -- a coder without a method would fail for its identifier
        have hfails := (hrefused hm [] [] none (.error fault)).mpr rfl
        exact absurd (refusesId_of_method hm) (h _ _ _ _ hfails)
  counts h := by
    obtain ⟨m, hm⟩ := Codec.supports_iff.mp h
    exact ⟨m, hm, hcount hm⟩
  counts_iff h properties inputs expected := by
    obtain ⟨m, hm⟩ := Codec.supports_iff.mp h
    constructor
    · rintro ⟨fault, hcounts, hdecodes⟩ hone
      obtain ⟨input, rfl⟩ := List.length_eq_one_iff.mp hone
      exact (hcontent hm _ _ _ _ hdecodes).2 hcounts
    · intro hmany
      have hfails := (hcount hm properties inputs expected hmany _).mpr rfl
      exact ⟨.inputCount m inputs.length, True.intro, hfails⟩

theorem decode_dispatches (id : Bytes) :
    Dispatches id fun properties inputs expected result =>
      decode id properties inputs expected = result := by
  apply Dispatches.of_steps
  · intro fault hm properties inputs expected result
    rw [decode, hm]
    exact eq_comm
  · intro m hm properties inputs expected hmany result
    rw [decode, hm]
    match inputs with
    | [] => exact eq_comm
    | [_] => exact absurd rfl hmany
    | _ :: _ :: _ => exact eq_comm
  · intro m hm properties input expected fault hdecodes
    rw [decode, hm] at hdecodes
    exact isOfContent_of_decodeInput hdecodes

theorem Libraries.dispatches (L : Libraries) (id : Bytes) : Dispatches id (L.Decodes id) := by
  apply Dispatches.of_steps
  · intro fault hm properties inputs expected result
    rw [Libraries.Decodes, hm]
    exact eq_comm
  · intro m hm properties inputs expected hmany result
    rw [Libraries.Decodes, hm]
    match inputs with
    | [] => exact eq_comm
    | [_] => exact absurd rfl hmany
    | _ :: _ :: _ => exact eq_comm
  · intro m hm properties input expected fault hdecodes
    rw [Libraries.Decodes, hm] at hdecodes
    exact isOfContent_of_decodesInput hdecodes

/-- **Identifiers.** An identifier is refused as too long just when it has more than eight bytes,
and is read as the number of its bytes otherwise. Two identifiers of at most eight bytes are the
same number just when they are the same but for zeros in front, and so just when they are the same
if they have one length. What is supported is what coders are run by: an identifier is supported
just when no coder with it is refused for it, whatever it is run with; and if it is, a coder fails
for the number of its inputs just when that is not one, without regard to its properties or its
data. This is so of the decoders that are used here, and of any libraries. -/
theorem supports_tells_decoding (id : Bytes) :
    (∀ fault, methodNumber id = .error fault ↔ fault = .longMethodId ∧ 8 < id.length) ∧
      (∀ number, methodNumber id = .ok number ↔ id.length ≤ 8 ∧
        number = ∑ i : Fin id.length, id[i].toNat * 256 ^ (id.length - 1 - i)) ∧
      (∀ id', id.length ≤ 8 → id'.length ≤ 8 →
        (methodNumber id = methodNumber id' ↔
          id.dropWhile (· = 0) = id'.dropWhile (· = 0)) ∧
        (id.length = id'.length → (methodNumber id = methodNumber id' ↔ id = id'))) ∧
      (Dispatches id fun properties inputs expected result =>
        decode id properties inputs expected = result) ∧
      ∀ L : Libraries, Dispatches id (L.Decodes id) := by
  refine ⟨fun fault => methodNumber_eq_error_iff, fun number => ?_, fun id' h h' => ⟨?_, ?_⟩,
    decode_dispatches id, fun L => L.dispatches id⟩
  · rw [← bigEndian_eq_sum]
    exact methodNumber_eq_ok_iff
  · rw [methodNumber_eq_iff h h', bigEndian_eq_iff]
  · intro hlength
    rw [methodNumber_eq_iff h h']
    exact ⟨bigEndian_injective hlength, congrArg bigEndian⟩

/-- The identifier of Delta with zeros in front that fill the word, and with one zero more; and a
coder without inputs whose properties are wrong as well. -/
theorem supports_tells_decoding_padded :
    let id : Bytes := [0, 0, 0, 0, 0, 0, 0, 3]
    methodNumber id = methodNumber [3] ∧ methodNumber id ≠ methodNumber [4] ∧
      methodNumber (0 :: id) = .error .longMethodId ∧ supports id = true ∧
      decode id [] [] none = .error (.inputCount .delta 0) ∧
      ∀ L : Libraries, L.Decodes id [] [] none (.error (.inputCount .delta 0)) := by
  intro id
  obtain ⟨-, -, hsame, hdecodes, hlibraries⟩ := supports_tells_decoding id
  have hsupports : supports id = true := by decide
  have hmethod : method id = .ok .delta := by decide
  refine ⟨(hsame [3] (by decide) (by decide)).1.mpr (by decide),
    fun h => absurd ((hsame [4] (by decide) (by decide)).1.mp h) (by decide),
    ((supports_tells_decoding (0 :: id)).1 _).mpr ⟨rfl, by decide⟩, hsupports, ?_, fun L => ?_⟩
  · obtain ⟨m, hm, hcounts⟩ := hdecodes.counts hsupports
    cases hmethod.symm.trans hm
    exact (hcounts [] [] none (by decide) _).mpr rfl
  · obtain ⟨m, hm, hcounts⟩ := (hlibraries L).counts hsupports
    cases hmethod.symm.trans hm
    exact (hcounts [] [] none (by decide) _).mpr rfl

end Codec

end SolidArchive
