import Mathlib
import SolidArchive.Error

/-!
# Checks that decide a property

A check of the header gives a value or refuses. Of each check three things are of interest: which
headers it accepts, what it gives for those, and that it refuses the others with a fault of the
header and not with a breach, which would mean that a table was read outside its bounds or that a
word was left. `Decides` states the three at once, so that a check made of smaller ones needs one
proof that follows its steps, and not one proof for each direction.

A proof goes along the steps of a check with the property that the whole of it decides, and shows of
each step that what it looks for is necessary (`Decides.bind`, `Decides.guard`) or that it cannot
fail (`Decides.step_eq`). At the end everything that was found out is there, and shows the property.

That a check ends in no breach holds on some `ground` only, such as that the tables of the header
are shorter than a word can count. What it gives is right on any ground, and so is what a refusal is
for, if it is for a fault of the header at all.
-/

namespace SolidArchive

/-! ### Genuine faults -/

/-- Types of faults, some of which are breaches. -/
class Fault (ε : Type) where
  /-- The fault is one that a header may have. -/
  Genuine : ε → Prop
  IsBreach : ε → Prop

export Fault (Genuine IsBreach)

instance : Fault GraphFault where
  Genuine
    | .breach _ => False
    | _ => True
  IsBreach
    | .breach _ => True
    | _ => False

/-- A fault of a folder is genuine when it is in the graph. The pack streams of a folder lie in the
pack region, so no header makes their length alone overflow. -/
instance : Fault StructuralError where
  Genuine
    | .graph _ fault => Genuine fault
    | .overflow .packedLength => False
    | .breach _ => False
    | _ => True
  IsBreach
    | .graph _ fault => IsBreach fault
    | .breach _ => True
    | _ => False

theorem GraphFault.ne_breach {fault : GraphFault} (h : Genuine fault) (breach : Breach) :
    fault ≠ .breach breach := by
  rintro rfl
  exact h

/-- A genuine fault is no breach. -/
theorem StructuralError.not_isBreach {fault : StructuralError} (h : Genuine fault) :
    ¬IsBreach fault := by
  intro hbreach
  cases fault with
  | graph folder fault =>
    cases fault with
    | breach _ => exact h
    | _ => exact hbreach
  | breach _ => exact h
  | _ => exact hbreach

/-! ### Steps that give a value -/

/-- A step that led to a value gave one, and so did the next. -/
theorem exists_of_bind_eq_ok {ε α β : Type} {x : Except ε α} {f : α → Except ε β} {b : β}
    (h : x >>= f = .ok b) : ∃ a, x = .ok a ∧ f a = .ok b := by
  cases x with
  | error fault => cases h
  | ok a => exact ⟨a, rfl, h⟩

/-- A table is read where it has an entry. -/
theorem Breach.lookup_eq {ε α : Type} {breach : Breach → ε} {table : List α} {i : Nat} {x : α}
    (h : table[i]? = some x) : Breach.lookup breach table i = .ok x := by
  rw [Breach.lookup, h]

/-! ### Deciding -/

variable {ε ε' α β : Type} [Fault ε] [Fault ε'] {ground p q : Prop}

/-- A check **decides** `p`: it gives a value only if `p` holds, and then one with `post`; it
refuses for a genuine fault or a breach; and, on `ground`, it refuses only if `p` fails, and never
for a breach. -/
def Decides (ground p : Prop) (post : α → Prop) : Except ε α → Prop
  | .ok a => p ∧ post a
  | .error fault => (Genuine fault ∨ IsBreach fault) ∧ (ground → ¬p ∧ Genuine fault)

namespace Decides

variable {post : α → Prop} {post' : β → Prop} {x : Except ε α} {f : α → Except ε β} {fault : ε}

theorem holds {a : α} (h : Decides ground p post x) (ok : x = .ok a) : p ∧ post a := by
  subst ok
  exact h

/-- What is accepted, on the ground. -/
theorem exists_ok_iff (h : Decides ground p post x) (hg : ground) : (∃ a, x = .ok a) ↔ p := by
  cases x with
  | ok a => exact ⟨fun _ => h.1, fun _ => ⟨a, rfl⟩⟩
  | error fault =>
    refine ⟨?_, fun hp => absurd hp (h.2 hg).1⟩
    rintro ⟨a, ha⟩
    cases ha

/-- What is not accepted is refused for a genuine fault. -/
theorem refuses (h : Decides ground p post x) (hg : ground) (hp : ¬p) :
    ∃ fault, x = .error fault ∧ Genuine fault := by
  cases x with
  | ok a => exact absurd h.1 hp
  | error fault => exact ⟨fault, rfl, (h.2 hg).2⟩

/-- On the ground a refusal is for a genuine fault. -/
theorem genuine (h : Decides ground p post x) (hg : ground) (hx : x = .error fault) :
    Genuine fault := by
  subst hx
  exact (h.2 hg).2

/-- Off the ground, too, a refusal is for nothing but a genuine fault or a breach. -/
theorem genuine_or_breach (h : Decides ground p post x) (hx : x = .error fault) :
    Genuine fault ∨ IsBreach fault := by
  subst hx
  exact h.1

theorem congr {post₁ : α → Prop} (h : Decides ground p post x) (hp : p ↔ q)
    (hpost : ∀ a, p → post a → post₁ a) : Decides ground q post₁ x := by
  cases x with
  | ok a => exact ⟨hp.mp h.1, hpost a h.1 h.2⟩
  | error fault => exact ⟨h.1, fun hg => ⟨fun hq => (h.2 hg).1 (hp.mpr hq), (h.2 hg).2⟩⟩

theorem of_iff (h : Decides ground p post x) (hp : p ↔ q) : Decides ground q post x :=
  h.congr hp fun _ _ ha => ha

/-- A check that never ends in a breach decides whether it gives a value. -/
theorem self (h : Decides True p post x) :
    Decides ground (∃ a, x = .ok a) (fun a => x = .ok a) x := by
  cases x with
  | ok a => exact ⟨⟨a, rfl⟩, rfl⟩
  | error fault =>
    refine ⟨h.1, fun _ => ⟨?_, (h.2 trivial).2⟩⟩
    rintro ⟨a, ha⟩
    cases ha

/-! ### Steps of a check -/

theorem pure {a : α} (hp : p) (hpost : post a) :
    Decides ground p post (Pure.pure a : Except ε α) := ⟨hp, hpost⟩

theorem refuse (hx : x = .error fault) (real : Genuine fault) (hp : ¬p) :
    Decides ground p post x := by
  subst hx
  exact ⟨.inl real, fun _ => ⟨hp, real⟩⟩

/-- Two checks one behind the other. What the first one decides has to be necessary for what both
decide, and the second one may rely on it. -/
theorem bind (hx : Decides ground q post x) (necessary : p → q)
    (hf : ∀ a, q → post a → Decides ground p post' (f a)) : Decides ground p post' (x >>= f) := by
  cases x with
  | ok a => exact hf a hx.1 hx.2
  | error fault => exact ⟨hx.1, fun hg => ⟨fun hp => (hx.2 hg).1 (necessary hp), (hx.2 hg).2⟩⟩

theorem bind_eq {b : α} (hx : Decides ground q (· = b) x) (necessary : p → q)
    (hf : q → Decides ground p post' (f b)) : Decides ground p post' (x >>= f) :=
  hx.bind necessary fun _ hq ha => ha ▸ hf hq

/-- A step that cannot fail, before a check. -/
theorem step_eq {b : α} (hx : Decides ground True (· = b) x)
    (hf : Decides ground p post' (f b)) : Decides ground p post' (x >>= f) :=
  hx.bind_eq (fun _ => trivial) fun _ => hf

/-- A step that goes one of two ways, both of which give `b`. -/
theorem branch {c : Prop} [Decidable c] {y : Except ε α} (b : α)
    (hx : c → Decides ground True (· = b) x) (hy : ¬c → Decides ground True (· = b) y)
    (hf : Decides ground p post' (f b)) :
    Decides ground p post' (if c then x >>= f else y >>= f) := by
  by_cases hc : c
  · rw [if_pos hc]
    exact (hx hc).step_eq hf
  · rw [if_neg hc]
    exact (hy hc).step_eq hf

/-- A check, after which a result is put together. -/
theorem map {f : α → β} (hx : Decides ground p post x) (hf : ∀ a, p → post a → post' (f a)) :
    Decides ground p post' (x >>= fun a => Pure.pure (f a)) :=
  hx.bind id fun a hp ha => Decides.pure hp (hf a hp ha)

/-- A check that is refused under a condition. -/
theorem guard {c : Prop} [Decidable c] {refused k : Except ε α}
    (hr : refused = .error fault) (real : Genuine fault) (hnot : c → ¬p)
    (hk : ¬c → Decides ground p post k) : Decides ground p post (if c then refused else k) := by
  by_cases hc : c
  · rw [if_pos hc]
    exact Decides.refuse hr real (hnot hc)
  · rw [if_neg hc]
    exact hk hc

/-- The faults of a check under another heading. -/
theorem mapError {g : ε → ε'} (hx : Decides ground p post x)
    (real : ∀ fault, Genuine fault → Genuine (g fault))
    (breach : ∀ fault, IsBreach fault → IsBreach (g fault)) :
    Decides ground p post (x.mapError g) := by
  cases x with
  | ok a => exact hx
  | error fault =>
    exact ⟨hx.1.imp (real fault) (breach fault),
      fun hg => ⟨(hx.2 hg).1, real fault (hx.2 hg).2⟩⟩

/-! ### Steps on tables and words -/

variable {breach : Breach → ε} {table : List α} {i m n : Nat}

theorem lookup {a : α} (h : table[i]? = some a) :
    Decides ground True (· = a) (Breach.lookup breach table i) := by
  rw [Breach.lookup_eq h]
  exact ⟨trivial, rfl⟩

theorem sub (h : n ≤ m) : Decides ground True (· = m - n) (Breach.sub breach m n) := by
  rw [Breach.sub, if_pos h]
  exact ⟨trivial, rfl⟩

/-- A sum that fits its word, on the ground. -/
theorem add (hbreach : ∀ kind, IsBreach (breach kind)) (h : ground → m + n < 2 ^ 64) :
    Decides ground True (· = m + n) (Breach.add breach m n) := by
  unfold Breach.add
  split
  · exact ⟨trivial, rfl⟩
  · next big => exact ⟨.inr (hbreach _), fun hg => absurd (h hg) big⟩

theorem checkedAdd {sum : CheckedSum} (real : Genuine (StructuralError.overflow sum)) :
    Decides ground (m + n < 2 ^ 64) (· = m + n) (StructuralError.checkedAdd sum m n) := by
  unfold StructuralError.checkedAdd
  split
  · next small => exact ⟨small, rfl⟩
  · next big => exact Decides.refuse rfl real big

end Decides

end SolidArchive
