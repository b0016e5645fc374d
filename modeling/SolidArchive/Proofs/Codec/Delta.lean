import Mathlib.Algebra.BigOperators.Intervals
import Mathlib.Data.List.GetD
import Mathlib.Data.List.Induction
import Mathlib.Tactic.Common
import SolidArchive.Codec.Method

/-!
# Differences and sums

Taking differences and adding up go through a byte string from the left, and both look back at the
byte a fixed distance before the next one (`Delta.lookBack`): the one in what is given
(`difference_concat`) and the other in what it has made so far (`decode_concat`). One behind the
other they look back at the same byte, which is taken away and added again, or added and taken away
(`decode_difference`, `difference_decode`).

A byte of the result is not changed by those behind it (`decode_take`), so it is found where the
result ended when it was made (`getElem_decode`). It is the given byte and the one the distance
before it, which is a sum already; so it is the sum of all the bytes on its track
(`toNat_getElem_decode`).
-/

namespace SolidArchive.Codec.Delta

variable {distance : Nat}

/-- The byte that is `distance` places before the next one, or zero if there is none. -/
def lookBack (distance : Nat) (bytes : Bytes) : UInt8 :=
  if distance ≤ bytes.length then bytes.getD (bytes.length - distance) 0 else 0

/-- Another byte is added to the one that lies the distance before it. -/
theorem decode_concat (distance : Nat) (bytes : Bytes) (byte : UInt8) :
    decode distance (bytes ++ [byte]) =
      decode distance bytes ++ [byte + lookBack distance (decode distance bytes)] := by
  unfold decode lookBack
  rw [List.foldl_append, List.foldl_cons, List.foldl_nil]
  generalize bytes.foldl (accumulate distance) #[] = out
  rw [accumulate, Array.toList_push, Array.length_toList]
  congr 2
  split
  · rw [Array.getD_eq_getD_getElem?, List.getD_eq_getElem?_getD, Array.getElem?_toList]
  · exact (UInt8.add_zero byte).symm

/-- Another byte is replaced by its difference from the one that lies the distance before it. -/
theorem difference_concat (h : 0 < distance) (bytes : Bytes) (byte : UInt8) :
    difference distance (bytes ++ [byte]) =
      difference distance bytes ++ [byte - lookBack distance bytes] := by
  -- the bytes to be taken away are those before, moved up by the distance
  let moved := List.replicate distance 0 ++ bytes
  have hlength : bytes.length < moved.length := by
    rw [List.length_append, List.length_replicate]
    omega
  have hnext : moved[bytes.length] = lookBack distance bytes := by
    unfold lookBack
    split
    · next hle =>
      rw [List.getElem_append_right (by rwa [List.length_replicate]),
        List.getD_eq_getElem _ _ (by omega)]
      simp only [List.length_replicate]
    · next hgt =>
      rw [List.getElem_append_left (by rw [List.length_replicate]; omega), List.getElem_replicate]
  have htake : (moved.take bytes.length).length = bytes.length := by
    rw [List.length_take]
    omega
  have hmoved : moved = moved.take bytes.length ++
      lookBack distance bytes :: moved.drop (bytes.length + 1) := by
    rw [← hnext, ← List.drop_eq_getElem_cons hlength, List.take_append_drop]
  have hbefore : difference distance bytes =
      List.zipWith (· - ·) bytes (moved.take bytes.length) :=
    calc List.zipWith (· - ·) bytes moved
        = List.zipWith (· - ·) (bytes ++ []) (moved.take bytes.length ++
            lookBack distance bytes :: moved.drop (bytes.length + 1)) := by
          rw [List.append_nil, ← hmoved]
      _ = List.zipWith (· - ·) bytes (moved.take bytes.length) := by
          rw [List.zipWith_append htake.symm, List.zipWith_nil_left, List.append_nil]
  have hafter : List.replicate distance 0 ++ (bytes ++ [byte]) = moved ++ [byte] :=
    (List.append_assoc _ _ _).symm
  rw [hbefore, difference, hafter]
  conv_lhs => rw [hmoved]
  rw [List.append_assoc, List.zipWith_append htake.symm]
  rfl

/-- **Adding up undoes taking differences.** -/
theorem decode_difference (h : 0 < distance) (bytes : Bytes) :
    decode distance (difference distance bytes) = bytes := by
  induction bytes using List.reverseRecOn with
  | nil => rfl
  | append_singleton bytes byte ih =>
    rw [difference_concat h, decode_concat, ih, UInt8.sub_add_cancel]

/-- **Taking differences undoes adding up.** -/
theorem difference_decode (h : 0 < distance) (bytes : Bytes) :
    difference distance (decode distance bytes) = bytes := by
  induction bytes using List.reverseRecOn with
  | nil => rfl
  | append_singleton bytes byte ih =>
    rw [decode_concat, difference_concat h, ih, UInt8.add_sub_cancel]

/-- There are as many differences as there are bytes. -/
theorem length_difference (distance : Nat) (bytes : Bytes) :
    (difference distance bytes).length = bytes.length := by
  rw [difference, List.length_zipWith, List.length_append]
  omega

/-- There are as many sums as there are bytes. -/
theorem length_decode (distance : Nat) (bytes : Bytes) :
    (decode distance bytes).length = bytes.length := by
  induction bytes using List.reverseRecOn with
  | nil => rfl
  | append_singleton bytes byte ih =>
    rw [decode_concat, List.length_append, List.length_append, ih]
    rfl

/-- Each byte is replaced by its difference from the one before it, if there is one. -/
theorem getElem?_difference (distance : Nat) (bytes : Bytes) (i : Nat) :
    (difference distance bytes)[i]? = bytes[i]?.map fun byte =>
      if distance ≤ i then byte - bytes.getD (i - distance) 0 else byte := by
  rw [difference, List.getElem?_zipWith]
  by_cases hi : i < bytes.length
  · -- the shifted copy has zeros first, and then the bytes from before
    have hmoved : (List.replicate distance 0 ++ bytes)[i]? =
        some (if distance ≤ i then bytes.getD (i - distance) 0 else 0) := by
      by_cases hle : distance ≤ i
      · have hbefore : i - distance < bytes.length := (Nat.sub_le _ _).trans_lt hi
        rw [if_pos hle, List.getElem?_append_right (by rwa [List.length_replicate]),
          List.length_replicate, List.getElem?_eq_getElem hbefore, List.getD_eq_getElem _ _ hbefore]
      · have hin : i < (List.replicate distance (0 : UInt8)).length := by
          rw [List.length_replicate]
          exact Nat.not_le.mp hle
        rw [if_neg hle, List.getElem?_append_left hin, List.getElem?_eq_getElem hin,
          List.getElem_replicate]
    rw [hmoved, List.getElem?_eq_getElem hi, Option.map_some]
    dsimp only
    split
    · rfl
    · rw [UInt8.sub_zero]
  · rw [List.getElem?_eq_none (Nat.not_lt.mp hi)]
    rfl

/-! ### Each byte of a sum -/

/-- What is given later does not change what there is. -/
theorem decode_isPrefix (distance : Nat) (bytes more : Bytes) :
    decode distance bytes <+: decode distance (bytes ++ more) := by
  induction more using List.reverseRecOn with
  | nil => rw [List.append_nil]
  | append_singleton more byte ih =>
    rw [← List.append_assoc, decode_concat]
    exact ih.trans (List.prefix_append _ _)

/-- **A prefix is decoded to the same prefix.** -/
theorem decode_take (distance : Nat) (bytes : Bytes) (count : Nat) :
    decode distance (bytes.take count) = (decode distance bytes).take count := by
  have hbegin := decode_isPrefix distance (bytes.take count) (bytes.drop count)
  rw [List.take_append_drop, List.prefix_iff_eq_take, length_decode, List.length_take] at hbegin
  rw [hbegin, ← length_decode distance bytes, List.take_eq_take_iff]
  omega

/-- A byte of the result is the given one and the one that lies the distance before it. -/
theorem getElem_decode (h : 0 < distance) {bytes : Bytes} {i : Nat}
    (hi : i < (decode distance bytes).length) (hi' : i < bytes.length) :
    (decode distance bytes)[i] =
      bytes[i] + if distance ≤ i then (decode distance bytes).getD (i - distance) 0 else 0 := by
  -- it was the last byte when it was made
  have hlast : (decode distance bytes).take (i + 1) = (decode distance bytes).take i ++
      [bytes[i] + lookBack distance ((decode distance bytes).take i)] := by
    rw [← decode_take, ← decode_take, List.take_succ_eq_append_getElem hi', decode_concat]
  rw [List.take_succ_eq_append_getElem hi, List.append_cancel_left_eq, List.singleton_inj] at hlast
  rw [hlast, lookBack, List.length_take_of_le hi.le]
  congr 1
  split
  · rw [List.getD_eq_getElem?_getD, List.getD_eq_getElem?_getD,
      List.getElem?_take_of_lt (by omega)]
  · rfl

/-- The sum of the bytes at a place and at every multiple of the distance before it. -/
def total (distance : Nat) (bytes : Bytes) (i : Nat) : Nat :=
  ∑ k ∈ Finset.range (i / distance + 1), (bytes.getD (i - k * distance) 0).toNat

theorem total_of_lt {bytes : Bytes} {i : Nat} (h : i < distance) :
    total distance bytes i = (bytes.getD i 0).toNat := by
  rw [total, Nat.div_eq_of_lt h, Finset.sum_range_one, Nat.zero_mul, Nat.sub_zero]

theorem total_of_le (hpos : 0 < distance) {bytes : Bytes} {i : Nat} (h : distance ≤ i) :
    total distance bytes i = total distance bytes (i - distance) + (bytes.getD i 0).toNat := by
  have hbefore : ∀ k, i - (k + 1) * distance = i - distance - k * distance := by
    intro k
    rw [Nat.succ_mul, Nat.add_comm, Nat.sub_add_eq]
  rw [total, Nat.div_eq_sub_div hpos h, Finset.sum_range_succ', Nat.zero_mul, Nat.sub_zero, total]
  simp only [hbefore]

/-- **Each byte of the result is a sum modulo 256.** -/
theorem toNat_getElem_decode (hpos : 0 < distance) {bytes : Bytes} {i : Nat}
    (hi : i < (decode distance bytes).length) :
    (decode distance bytes)[i].toNat = total distance bytes i % 256 := by
  -- a byte adds to the one a distance before it, so the sum grows by one term
  induction i using Nat.strongRecOn with
  | ind i ih =>
    have hi' : i < bytes.length := by rwa [length_decode] at hi
    have hbyte : bytes[i].toNat < 256 := bytes[i].toNat_lt
    rw [getElem_decode hpos hi hi', UInt8.toNat_add]
    split
    · next hle =>
      have hbefore := ih (i - distance) (by omega) (by omega)
      rw [List.getD_eq_getElem _ _ (by omega), hbefore, total_of_le hpos hle,
        List.getD_eq_getElem _ _ hi', Nat.add_mod_mod, Nat.add_comm]
    · next hgt =>
      rw [total_of_lt (Nat.not_le.mp hgt), List.getD_eq_getElem _ _ hi', UInt8.toNat_zero,
        Nat.add_zero]

/-- **A delta coder is the inverse of taking differences.** Its properties give the distance less
one. What it makes of the differences of a byte string is that byte string, and the differences of
what it makes of a byte string are that byte string again; so no two are decoded alike. There are as
many bytes as before, each the sum of the given bytes on its track, and a prefix of what is given
comes to a prefix of the result. -/
theorem decode_inverts_difference (distance : Nat) (hpos : 0 < distance) (hle : distance ≤ 256) :
    (∀ input expected, decodeInput .delta [UInt8.ofNat (distance - 1)] input expected =
      .ok (decode distance input)) ∧
    (∀ bytes i, (difference distance bytes)[i]? = bytes[i]?.map fun byte =>
      if distance ≤ i then byte - bytes.getD (i - distance) 0 else byte) ∧
    (∀ bytes, decode distance (difference distance bytes) = bytes) ∧
    (∀ bytes, difference distance (decode distance bytes) = bytes) ∧
    (∀ bytes, (decode distance bytes).length = bytes.length) ∧
    (∀ bytes i (hi : i < (decode distance bytes).length),
      (decode distance bytes)[i].toNat =
        (∑ k ∈ Finset.range (i / distance + 1), (bytes.getD (i - k * distance) 0).toNat) % 256) ∧
    Function.Injective (decode distance) ∧
    ∀ bytes count, decode distance (bytes.take count) = (decode distance bytes).take count := by
  -- the property byte is the distance less one
  have hdistance : distance? [UInt8.ofNat (distance - 1)] = some distance := by
    rw [distance?, UInt8.toNat_ofNat', Nat.mod_eq_of_lt (by omega), Nat.sub_add_cancel hpos]
  have hinjective : Function.LeftInverse (difference distance) (decode distance) :=
    difference_decode hpos
  refine ⟨fun input expected => ?_, getElem?_difference distance, decode_difference hpos,
    difference_decode hpos, length_decode distance, fun bytes i hi => toNat_getElem_decode hpos hi,
    hinjective.injective, decode_take distance⟩
  rw [decodeInput, hdistance]

/-- The sums wrap around, and the first three bytes have none before them. -/
theorem decode_inverts_difference_three :
    let bytes : Bytes := [250, 1, 2, 10, 255, 3, 0]
    decodeInput .delta [2] bytes none = .ok [250, 1, 2, 4, 0, 5, 4] ∧
      difference 3 [250, 1, 2, 4, 0, 5, 4] = bytes ∧
      decode 3 (difference 3 bytes) = bytes := by
  intro bytes
  obtain ⟨hcoder, -, hdecode, hdifference, -⟩ :=
    decode_inverts_difference 3 (by decide) (by decide)
  have hsums : decode 3 bytes = [250, 1, 2, 4, 0, 5, 4] := by decide
  refine ⟨hsums ▸ hcoder bytes none, hsums ▸ hdifference bytes, hdecode bytes⟩

end SolidArchive.Codec.Delta
