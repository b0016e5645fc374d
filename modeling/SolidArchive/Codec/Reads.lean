import SolidArchive.Bytes

/-!
# Reads that consume their input

Every decoder of this library takes its input apart step by step and has to end on each input,
also on a damaged one. The measure that makes it end is the amount of input left, and the types
here keep that measure in view:

* `Reads size ε α` is a read over states `σ` that gives an `α` or stops with an `ε`, and never
  leaves a larger state than it found;
* `Advances size ε α` is a read that leaves a strictly smaller one.

Reads form a monad, so a header is read by a `do` block and needs no further argument. An advance
followed by reads is an advance (`Advances.andThen`), and an advance may be repeated for as long as
it asks for another turn (`Advances.loop`), which ends because each turn makes the state smaller.
-/

namespace SolidArchive.Codec

/-- A read that never leaves more than it found, as measured by `size`. -/
def Reads {σ : Type} (size : σ → Nat) (ε α : Type) : Type :=
  (s : σ) → Except ε (α × { t : σ // size t ≤ size s })

/-- A read that leaves less than it found, as measured by `size`. -/
def Advances {σ : Type} (size : σ → Nat) (ε α : Type) : Type :=
  (s : σ) → Except ε (α × { t : σ // size t < size s })

namespace Reads

variable {σ ε α β γ : Type} {size : σ → Nat}

/-- Reads nothing. -/
@[always_inline, inline]
def pure (a : α) : Reads size ε α := fun s => .ok (a, ⟨s, Nat.le_refl _⟩)

/-- Runs one read after another. -/
@[always_inline, inline]
def bind (m : Reads size ε α) (f : α → Reads size ε β) : Reads size ε β := fun s =>
  match m s with
  | .error e => .error e
  | .ok (a, ⟨t, ht⟩) =>
    match f a t with
    | .error e => .error e
    | .ok (b, ⟨u, hu⟩) => .ok (b, ⟨u, Nat.le_trans hu ht⟩)

@[always_inline]
instance : Monad (Reads size ε) where
  pure := Reads.pure
  bind := Reads.bind

protected theorem bind_pure (m : Reads size ε α) : m.bind Reads.pure = m := by
  funext s
  simp only [Reads.bind, Reads.pure]
  cases m s with
  | error e => rfl
  | ok result => rfl

protected theorem pure_bind (a : α) (f : α → Reads size ε β) : (Reads.pure a).bind f = f a := by
  funext s
  simp only [Reads.bind, Reads.pure]
  cases f a s with
  | error e => rfl
  | ok result => rfl

protected theorem bind_assoc (m : Reads size ε α) (f : α → Reads size ε β)
    (g : β → Reads size ε γ) : (m.bind f).bind g = m.bind fun a => (f a).bind g := by
  funext s
  simp only [Reads.bind]
  cases m s with
  | error e => rfl
  | ok result =>
    obtain ⟨a, t, ht⟩ := result
    simp only
    cases f a t with
    | error e => rfl
    | ok result =>
      obtain ⟨b, u, hu⟩ := result
      simp only
      cases g b u with
      | error e => rfl
      | ok result => rfl

/-- Nothing depends on how reads are grouped. -/
instance : LawfulMonad (Reads size ε) :=
  LawfulMonad.mk' _ Reads.bind_pure Reads.pure_bind Reads.bind_assoc

/-- Stops with `e`. -/
@[always_inline, inline]
def stop (e : ε) : Reads size ε α := fun _ => .error e

/-- The loop of `times`, with the property of its last state as an argument. -/
@[specialize]
def timesFrom (P : σ → Prop) (turn : α → Reads size ε α) :
    (count : Nat) → α → (s : σ) → (∀ t, size t ≤ size s → P t) → Except ε (α × { t : σ // P t })
  | 0, a, s, hP => .ok (a, ⟨s, hP s (Nat.le_refl _)⟩)
  | count + 1, a, s, hP =>
    match turn a s with
    | .error e => .error e
    | .ok (b, ⟨t, ht⟩) =>
      timesFrom P turn count b t fun u hu => hP u (Nat.le_trans hu ht)

/-- Runs `turn` a fixed number of times, each on what the one before gave. -/
@[always_inline, inline]
def times (count : Nat) (turn : α → Reads size ε α) (a : α) : Reads size ε α := fun s =>
  timesFrom (fun t => size t ≤ size s) turn count a s fun _ h => h

end Reads

namespace Advances

variable {σ ε α β : Type} {size : σ → Nat}

/-- Forgets that the state became smaller. -/
@[always_inline, inline]
def toReads (m : Advances size ε α) : Reads size ε α := fun s =>
  match m s with
  | .error e => .error e
  | .ok (a, ⟨t, ht⟩) => .ok (a, ⟨t, Nat.le_of_lt ht⟩)

/-- An advance and then any read is an advance. -/
@[always_inline, inline]
def andThen (m : Advances size ε α) (f : α → Reads size ε β) : Advances size ε β := fun s =>
  match m s with
  | .error e => .error e
  | .ok (a, ⟨t, ht⟩) =>
    match f a t with
    | .error e => .error e
    | .ok (b, ⟨u, hu⟩) => .ok (b, ⟨u, Nat.lt_of_le_of_lt hu ht⟩)

/-- Stops with `e`. -/
@[always_inline, inline]
def stop (e : ε) : Advances size ε α := fun _ => .error e

/-- The loop of `loop`, with the property of its last state as an argument. -/
@[specialize]
def loopFrom (P : σ → Prop) (turn : α → Advances size ε (α ⊕ β)) (a : α) (s : σ)
    (hP : ∀ t, size t < size s → P t) : Except ε (β × { t : σ // P t }) :=
  match turn a s with
  | .error e => .error e
  | .ok (.inr b, ⟨t, ht⟩) => .ok (b, ⟨t, hP t ht⟩)
  | .ok (.inl b, ⟨t, ht⟩) => loopFrom P turn b t fun u hu => hP u (Nat.lt_trans hu ht)
termination_by size s

/-- Repeats an advance until it gives a result (`.inr`) instead of another turn (`.inl`). -/
@[always_inline, inline]
def loop (turn : α → Advances size ε (α ⊕ β)) (a : α) : Advances size ε β := fun s =>
  loopFrom (fun t => size t < size s) turn a s fun _ h => h

end Advances

end SolidArchive.Codec
