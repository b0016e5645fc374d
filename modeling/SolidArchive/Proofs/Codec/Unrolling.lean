import Mathlib
import SolidArchive.Codec.StreamDecoder

/-!
# What a stream decoder comes to

A stream decoder that is given all the room it likes hands out some bytes and then ends, either at
the end of its stream or in an error. That is all there is to it (`StreamDecoder.unroll`), but for
one thing: when just as much room was given as there are bytes, an error may or may not be met,
since some errors show only when there is room for another byte. With that noted down as well, what
a run gives can be read off (`StreamDecoder.run_eq`, `StreamDecoder.decode_eq`).
-/

namespace SolidArchive.Codec

variable {σ ε : Type}

/-- How a stream decoder ends. -/
inductive Ending (ε : Type) where
  | finish
  | truncated
  /-- With damage, which may show only when there is room for another byte. -/
  | corrupt (fault : ε) (waits : Bool)
  deriving DecidableEq, Repr

/-- What is wrong at the end, as far as it shows; there may be room for `more` bytes. -/
def Ending.fault? (more : Bool) : Ending ε → Option (Halt ε)
  | .finish => none
  | .truncated => if more then some .truncated else none
  | .corrupt fault waits => if more ∨ ¬waits then some (.corrupt fault) else none

/-- What a stream decoder hands out, and how it ends. -/
structure Unrolled (ε : Type) where
  bytes : Bytes
  ending : Ending ε
  deriving DecidableEq, Repr

namespace Unrolled

/-- Behind some other bytes. -/
def after (bytes : Bytes) (u : Unrolled ε) : Unrolled ε := { u with bytes := bytes ++ u.bytes }

/-- Behind a question for room. Damage that comes without a byte before it waits for the answer. -/
def awaited : Unrolled ε → Unrolled ε
  | ⟨[], .corrupt fault _⟩ => ⟨[], .corrupt fault true⟩
  | u => u

/-- All there is, unless something is wrong. -/
def all (u : Unrolled ε) (more : Bool) : Except (Halt ε) Bytes :=
  match u.ending.fault? more with
  | none => .ok u.bytes
  | some why => .error why

/-- What there is for the given room. -/
def upTo (u : Unrolled ε) : (room : Option ℕ) → Except (Halt ε) Bytes
  | none => u.all true
  | some space =>
    if space < u.bytes.length then .ok (u.bytes.take space) else u.all (u.bytes.length < space)

variable {u : Unrolled ε} {room : Option ℕ} {space : ℕ} {o : Bytes} {more : Bool}

theorem eq_bytes_of_all (h : u.all more = .ok o) : o = u.bytes := by
  unfold all at h
  split at h
  · exact (Except.ok.inj h).symm
  · cases h

theorem all_of_finish (h : u.ending = .finish) (more : Bool) : u.all more = .ok u.bytes := by
  rw [all, h]
  rfl

/-- All is had only if nothing is wrong. -/
theorem finish_of_upTo_none (h : u.upTo none = .ok o) : u.ending = .finish := by
  unfold upTo all at h
  cases hending : u.ending with
  | finish => rfl
  | truncated =>
    rw [hending] at h
    cases h
  | corrupt fault waits =>
    rw [hending] at h
    simp [Ending.fault?] at h

/-- What is had for some room is a prefix of all there is. -/
theorem eq_take_of_upTo (h : u.upTo (some space) = .ok o) : o = u.bytes.take space := by
  unfold upTo at h
  dsimp only at h
  split at h
  · exact (Except.ok.inj h).symm
  · next hspace =>
    rw [List.take_of_length_le (Nat.not_lt.mp hspace)]
    exact eq_bytes_of_all h

/-- If nothing is wrong then there is something for any room. -/
theorem upTo_of_finish (h : u.ending = .finish) (space : ℕ) :
    u.upTo (some space) = .ok (u.bytes.take space) := by
  unfold upTo
  dsimp only
  split
  · rfl
  · next hspace => rw [all_of_finish h, List.take_of_length_le (Nat.not_lt.mp hspace)]

theorem upTo_awaited (h : room ≠ some 0) : u.awaited.upTo room = u.upTo room := by
  obtain ⟨_ | ⟨byte, bytes⟩, _ | _ | ⟨fault, waits⟩⟩ := u <;> try rfl
  -- there is room, so the damage shows
  cases room with
  | none => simp [awaited, upTo, all, Ending.fault?]
  | some space =>
    have hspace : 0 < space := Nat.pos_of_ne_zero fun hzero => h (congrArg some hzero)
    simp [awaited, upTo, all, Ending.fault?, hspace]

/-- Behind a question for room that is answered with no, nothing is wrong. -/
theorem upTo_awaited_zero : u.awaited.upTo (some 0) = .ok [] := by
  obtain ⟨_ | ⟨byte, bytes⟩, _ | _ | ⟨fault, waits⟩⟩ := u <;> rfl

theorem all_after (bytes : Bytes) (more : Bool) :
    (u.after bytes).all more = (u.all more).map (bytes ++ ·) := by
  show (match u.ending.fault? more with | none => _ | some why => _) = _
  unfold all
  cases u.ending.fault? more <;> rfl

theorem upTo_after_none (bytes : Bytes) :
    (u.after bytes).upTo none = (u.upTo none).map (bytes ++ ·) := all_after bytes true

theorem upTo_after_of_le {bytes : Bytes} (h : bytes.length ≤ space) :
    (u.after bytes).upTo (some space) =
      (u.upTo (some (space - bytes.length))).map (bytes ++ ·) := by
  have hlength : (u.after bytes).bytes.length = bytes.length + u.bytes.length := List.length_append
  unfold upTo
  dsimp only
  rw [hlength]
  by_cases hspace : space - bytes.length < u.bytes.length
  · have htake : (bytes ++ u.bytes).take space = bytes ++ u.bytes.take (space - bytes.length) := by
      rw [List.take_append, List.take_of_length_le h]
    rw [if_pos hspace, if_pos (by omega)]
    exact congrArg Except.ok htake
  · have hmore : bytes.length + u.bytes.length < space ↔ u.bytes.length < space - bytes.length := by
      omega
    rw [if_neg hspace, if_neg (by omega), all_after, decide_eq_decide.mpr hmore]

theorem upTo_after_of_lt {bytes : Bytes} (h : space < bytes.length) :
    (u.after bytes).upTo (some space) = .ok (bytes.take space) := by
  have htake : (bytes ++ u.bytes).take space = bytes.take space :=
    List.take_append_of_le_length h.le
  have hlength : (u.after bytes).bytes.length = bytes.length + u.bytes.length := List.length_append
  unfold upTo
  dsimp only
  rw [if_pos (by omega)]
  exact congrArg Except.ok htake

end Unrolled

namespace StreamDecoder

variable {d : StreamDecoder σ ε}

/-- What a stream decoder comes to from a state on. -/
def unroll (d : StreamDecoder σ ε) (s : σ) : Unrolled ε :=
  match d.step s with
  | .finish => ⟨[], .finish⟩
  | .halt .truncated => ⟨[], .truncated⟩
  | .halt (.corrupt fault) => ⟨[], .corrupt fault false⟩
  | .await next _ => (d.unroll next).awaited
  | .emit bytes next _ => (d.unroll next).after bytes
termination_by d.size s

/-- What is put before two times. -/
theorem map_append_append (out bytes : Bytes) (x : Except (Halt ε) Bytes) :
    x.map (out ++ bytes ++ ·) = (x.map (bytes ++ ·)).map (out ++ ·) := by
  cases x with
  | error why => rfl
  | ok rest => exact congrArg Except.ok (List.append_assoc out bytes rest)

/-- **What a run gives** can be read off from what the decoder comes to. -/
theorem run_eq (room : Option ℕ) (out : Array UInt8) (s : σ) :
    (d.run room out s).map Array.toList =
      ((d.unroll s).upTo room).map (out.toList ++ ·) := by
  fun_induction d.run room out s with
  | case1 room out s hstep =>
    -- the stream is at its end
    rw [unroll, hstep]
    cases room <;> exact congrArg Except.ok (List.append_nil _).symm
  | case2 room out s fault hstep =>
    -- it is damaged
    rw [unroll, hstep]
    have hall : ∀ more, (⟨[], .corrupt fault false⟩ : Unrolled ε).all more =
        .error (.corrupt fault) := by
      simp [Unrolled.all, Ending.fault?]
    cases room <;> simp only [Unrolled.upTo, hall] <;> rfl
  | case3 out s hstep =>
    rw [unroll, hstep]
    exact congrArg Except.ok (List.append_nil _).symm
  | case4 room out s hstep hroom =>
    -- the input has run out, and more is wanted
    rw [unroll, hstep]
    cases room with
    | none => rfl
    | some space =>
      have hspace : 0 < space := Nat.pos_of_ne_zero fun hzero => hroom (congrArg some hzero)
      simp [Unrolled.upTo, Unrolled.all, Ending.fault?, hspace, Except.map]
  | case5 out s next smaller hstep =>
    rw [unroll, hstep]
    dsimp only
    rw [Unrolled.upTo_awaited_zero]
    exact congrArg Except.ok (List.append_nil _).symm
  | case6 room out s next smaller hstep hroom ih =>
    rw [unroll, hstep, ih]
    dsimp only
    rw [Unrolled.upTo_awaited hroom]
  | case7 out s bytes next smaller hstep ih =>
    rw [unroll, hstep, ih, toList_pushAll, map_append_append]
    dsimp only
    rw [Unrolled.upTo_after_none]
  | case8 out s bytes next smaller hstep space hspace ih =>
    rw [unroll, hstep, ih, toList_pushAll, map_append_append]
    dsimp only
    rw [Unrolled.upTo_after_of_le hspace]
  | case9 out s bytes next smaller hstep space hspace =>
    rw [unroll, hstep]
    dsimp only
    rw [Unrolled.upTo_after_of_lt (Nat.not_le.mp hspace)]
    exact congrArg Except.ok (toList_pushAll ..)

/-- What decoding gives; a stream of which nothing is wanted is not looked at. -/
theorem decode_eq (start : σ) (expected : Option ℕ) :
    d.decode start expected =
      if expected = some 0 then .ok [] else (d.unroll start).upTo expected := by
  unfold decode
  rw [run_eq]
  congr 1
  cases (d.unroll start).upTo expected <;> rfl

end StreamDecoder

end SolidArchive.Codec
