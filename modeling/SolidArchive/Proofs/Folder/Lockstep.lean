import SolidArchive.Proofs.Folder.Renumbering
import SolidArchive.Proofs.Folder.Trace

/-!
# Decoding under other numbers

Two folders of which one is the other under new numbers are decoded in lockstep
(`FolderJob.run_mirrors`): the same coders are run on the same inputs, one after the other, and in
the end both give the same bytes or both fail. What differs is the number by which a coder is called
and the slot in which an output is kept.

So what is compared are two runs that have different states and may fail with different faults, but
neither can go on where the other fails (`Mirrors`). The evaluation of an output is followed on
both sides at once, and all that it looks up is the same on both, once it is named by its number
there.
-/

namespace SolidArchive

variable {σ τ α α' β β' : Type}

/-- Two tables are looked up alike where they have the same entry, or none. -/
theorem Breach.lookup_congr {ε : Type} {breach : Breach → ε} {table table' : List α} {i i' : Nat}
    (h : table'[i']? = table[i]?) : lookup breach table' i' = lookup breach table i := by
  unfold lookup
  rw [h]

/-! ### Runs in lockstep -/

/-- Two results are related, or both are failures. -/
inductive SameEnd (rel : α → α' → Prop) :
    Except FolderFault α → Except FolderFault α' → Prop where
  | ok {a : α} {a' : α'} (h : rel a a') : SameEnd rel (.ok a) (.ok a')
  | error (fault fault' : FolderFault) : SameEnd rel (.error fault) (.error fault')

theorem SameEnd.toOption_eq {r r' : Except FolderFault α}
    (h : SameEnd (fun a a' => a' = a) r r') : r'.toOption = r.toOption := by
  cases h with
  | ok h => exact congrArg some h
  | error fault fault' => rfl

/-- From states that correspond by `get`, two runs come to such states and to the same end. -/
def Mirrors (get : τ → σ) (rel : α → α' → Prop) (x : FolderM τ α) (x' : FolderM σ α') : Prop :=
  ∀ t, (x'.run (get t)).2 = get (x.run t).2 ∧ SameEnd rel (x.run t).1 (x'.run (get t)).1

namespace Mirrors

variable {get : τ → σ} {rel : α → α' → Prop} {rel' : β → β' → Prop} {x : FolderM τ α}
  {x' : FolderM σ α'}

theorem pure {a : α} {a' : α'} (h : rel a a') :
    Mirrors get rel (Pure.pure a : FolderM τ α) (Pure.pure a') := fun _ => ⟨rfl, .ok h⟩

theorem throw (fault fault' : FolderFault) :
    Mirrors get rel (MonadExcept.throw fault : FolderM τ α) (MonadExcept.throw fault') :=
  fun _ => ⟨rfl, .error fault fault'⟩

theorem bind {f : α → FolderM τ β} {f' : α' → FolderM σ β'} (hx : Mirrors get rel x x')
    (hf : ∀ a a', rel a a' → Mirrors get rel' (f a) (f' a')) :
    Mirrors get rel' (x >>= f) (x' >>= f') := by
  intro t
  obtain ⟨hstate, hend⟩ := hx t
  rw [runExcept_bind, runExcept_bind]
  rcases hrun : x.run t with ⟨r, s⟩
  rcases hrun' : x'.run (get t) with ⟨r', s'⟩
  rw [hrun, hrun'] at hstate hend
  obtain rfl : s' = get s := hstate
  cases hend with
  | ok h => exact hf _ _ h s
  | error fault fault' => exact ⟨rfl, .error fault fault'⟩

/-- What acts on a part of a state goes in lockstep with what acts on that alone. -/
theorem of_lowers {y : FolderM σ α} (h : Lowers get x y) :
    Mirrors get (fun a a' => a' = a) x y := by
  intro t
  rw [← h t]
  refine ⟨rfl, ?_⟩
  cases (x.run t).1 with
  | ok a => exact .ok rfl
  | error fault => exact .error fault fault

end Mirrors

namespace FolderJob

/-- The slots of the outputs, which have other numbers. -/
def SameSlots (ρ : Renumbering) (slots slots' : List (Option Bytes)) : Prop :=
  ∀ output, slots'[ρ.output output]? = slots[output]?

/-- The slot of an output is filled on both sides. -/
theorem SameSlots.set {ρ : Renumbering} {slots slots' : List (Option Bytes)}
    (h : SameSlots ρ slots slots') (output : Nat) (slot : Option Bytes) :
    SameSlots ρ (slots.set output slot) (slots'.set (ρ.output output) slot) := by
  intro other
  by_cases hother : output = other
  · subst hother
    rw [List.getElem?_set_self', List.getElem?_set_self', h]
  · rw [List.getElem?_set_ne hother, List.getElem?_set_ne (ρ.output.injective.ne hother), h]

/-- A step on slots goes in lockstep with a step on the same slots under new numbers. -/
def EvalMirrors (get : τ → σ) (ρ : Renumbering) (rel : α → α' → Prop) (x : EvalM τ α)
    (x' : EvalM σ α') : Prop :=
  ∀ slots slots', SameSlots ρ slots slots' →
    Mirrors get (fun r r' => rel r.1 r'.1 ∧ SameSlots ρ r.2 r'.2) (x.run slots) (x'.run slots')

namespace EvalMirrors

variable {get : τ → σ} {ρ : Renumbering} {rel : α → α' → Prop} {rel' : β → β' → Prop}
  {x : EvalM τ α} {x' : EvalM σ α'} {folder : Nat}

theorem bind {f : α → EvalM τ β} {f' : α' → EvalM σ β'} (hx : EvalMirrors get ρ rel x x')
    (hf : ∀ a a', rel a a' → EvalMirrors get ρ rel' (f a) (f' a')) :
    EvalMirrors get ρ rel' (x >>= f) (x' >>= f') := by
  intro slots slots' hslots
  rw [StateT.run_bind, StateT.run_bind]
  exact (hx slots slots' hslots).bind fun r r' h => hf _ _ h.1 _ _ h.2

theorem pure {a : α} {a' : α'} (h : rel a a') :
    EvalMirrors get ρ rel (Pure.pure a : EvalM τ α) (Pure.pure a') :=
  fun _ _ hslots => Mirrors.pure ⟨h, hslots⟩

theorem fail (fault fault' : DecodeFault) :
    EvalMirrors get ρ rel (FolderJob.fail folder fault : EvalM τ α)
      (FolderJob.fail folder fault') :=
  fun _ _ _ => Mirrors.throw _ _

theorem lift (r : Except DecodeFault α) :
    EvalMirrors get ρ (fun a a' => a' = a) (FolderJob.lift folder r : EvalM τ α)
      (FolderJob.lift folder r) := by
  cases r with
  | ok a => exact EvalMirrors.pure rfl
  | error fault => exact EvalMirrors.fail fault fault

/-- Steps for the members of a list, each in lockstep with its own. -/
theorem mapM {γ : Type} {f : γ → EvalM τ α} {f' : γ → EvalM σ α} {l : List γ}
    (hf : ∀ c ∈ l, EvalMirrors get ρ (fun a a' => a' = a) (f c) (f' c)) :
    EvalMirrors get ρ (fun as as' => as' = as) (l.mapM f) (l.mapM f') := by
  induction l with
  | nil => exact EvalMirrors.pure rfl
  | cons c l ih =>
    rw [List.forall_mem_cons] at hf
    rw [List.mapM_cons, List.mapM_cons]
    refine hf.1.bind fun a a' ha => (ih hf.2).bind fun as as' has => ?_
    rw [ha, has]
    exact EvalMirrors.pure rfl

end EvalMirrors

/-! ### Evaluating an output -/

/-- A job and the same job under new numbers. -/
structure Renumbers (ρ : Renumbering) (job job' : FolderJob) : Prop where
  index : job'.index = job.index
  unpackLength : job'.unpackLength = job.unpackLength
  folder : job.folder.Renumbers ρ job'.folder
  isCoderGraph : job.folder.IsCoderGraph
  describes : job.graph.Describes job.folder
  describes' : job'.graph.Describes job'.folder

section

variable {get : τ → σ} {ρ : Renumbering} {job job' : FolderJob} {packed : List Bytes}
  {runCoder : CoderRun τ} {runCoder' : CoderRun σ} {output : Nat}
  (h : job.Renumbers ρ job')

include h

/-- The size that an output should have is the same. -/
theorem Renumbers.expectedSize_eq (output : Nat) :
    job'.expectedSize (ρ.output output) = job.expectedSize output := by
  unfold expectedSize
  by_cases hnone : job.folder.unpackSizes = []
  · have hnone' := h.folder.unpackSizes_eq_nil_iff.mpr hnone
    rw [if_neg (not_not.mpr hnone), if_neg (not_not.mpr hnone'), h.unpackLength,
      h.folder.finalOutput_eq h.describes h.describes']
    simp only [EmbeddingLike.apply_eq_iff_eq]
  · have hsome' := mt h.folder.unpackSizes_eq_nil_iff.mp hnone
    have hsize := h.folder.unpackSize (h.isCoderGraph.unpackSizes.resolve_left hnone) output
    rw [if_pos hnone, if_pos hsome', Breach.lookup_congr hsize]

theorem inputBytes_mirrors {feed : Nat → EvalM τ Bytes} {feed' : Nat → EvalM σ Bytes}
    (hfeed : ∀ output < job.folder.totalOutputs,
      EvalMirrors get ρ (fun a a' => a' = a) (feed output) (feed' (ρ.output output)))
    (input : Nat) :
    EvalMirrors get ρ (fun a a' => a' = a) (job.inputBytes packed feed input)
      (job'.inputBytes packed feed' (ρ.input input)) := by
  have hbinds := h.isCoderGraph.bindsOnce
  unfold inputBytes
  rw [h.folder.boundOutput?_eq hbinds,
    h.folder.packedPosition?_eq h.isCoderGraph h.describes h.describes', h.index]
  -- the same kind of source on both sides, under the number that it has there
  cases hbound : job.folder.boundOutput? input with
  | some feeder =>
    obtain ⟨pair, hpair, -, rfl⟩ := hbinds.boundOutput?_eq_some_iff.mp hbound
    exact hfeed _ (hbinds.inRange pair hpair).2
  | none =>
    cases job.graph.packedPosition? input with
    | some position => exact EvalMirrors.lift _
    | none => exact EvalMirrors.fail _ _

variable (hcoder : ∀ index c inputs expected, Mirrors get (fun a a' => a' = a)
  (runCoder index c inputs expected) (runCoder' (ρ.coder index) c inputs expected))

include hcoder

theorem runChecked_mirrors (index : Nat) (c : Coder) (inputs : List Bytes) (output : Nat) :
    Mirrors get (fun a a' => a' = a) (job.runChecked runCoder index c inputs output)
      (job'.runChecked runCoder' (ρ.coder index) c inputs (ρ.output output)) := by
  unfold runChecked
  rw [h.expectedSize_eq, h.index]
  cases job.expectedSize output with
  | error fault => exact Mirrors.throw _ _
  | ok expected =>
    refine (hcoder index c inputs expected).bind fun bytes bytes' hbytes => ?_
    rw [hbytes]
    cases expected with
    | none => exact Mirrors.pure rfl
    | some size =>
      dsimp only
      split
      · exact Mirrors.throw _ _
      · exact Mirrors.pure rfl

theorem produce_mirrors {feed : Nat → EvalM τ Bytes} {feed' : Nat → EvalM σ Bytes}
    (hfeed : ∀ output < job.folder.totalOutputs,
      EvalMirrors get ρ (fun a a' => a' = a) (feed output) (feed' (ρ.output output)))
    (hout : output < job.folder.totalOutputs) :
    EvalMirrors get ρ (fun a a' => a' = a) (job.produce runCoder packed feed output)
      (job'.produce runCoder' packed feed' (ρ.output output)) := by
  obtain ⟨index, c, howns⟩ := exists_owns hout
  -- the coder of the output is at its new place, and its inputs start elsewhere
  have hcoder' : job'.folder.coders[ρ.coder index]? = some c :=
    (h.folder.coder index).trans howns.coder
  have hstart := h.describes.getElem?_inputStarts (List.getElem?_eq_some_iff.mp howns.coder).1
  have hstart' := h.describes'.getElem?_inputStarts (List.getElem?_eq_some_iff.mp hcoder').1
  unfold produce
  simp only [h.folder.coderOfOutput_eq h.describes h.describes' howns.hasOutput,
    h.describes.coderOfOutput_eq howns.hasOutput, lift_lookup howns.coder, lift_lookup hcoder',
    lift_lookup hstart, lift_lookup hstart', pure_bind]
  by_cases hsingle : c.outputs = 1
  · rw [if_neg (not_not.mpr hsingle), if_neg (not_not.mpr hsingle)]
    have hcount := Folder.getElem?_inputCounts howns.coder
    refine (EvalMirrors.mapM fun i hi => ?_).bind fun inputs inputs' hinputs => ?_
    · rw [← h.folder.input.moved_eq hcount (List.mem_range.mp hi)]
      exact inputBytes_mirrors h hfeed _
    · rw [hinputs]
      intro slots slots' hslots
      refine (runChecked_mirrors h hcoder index c inputs output).bind fun bytes bytes' hbytes => ?_
      exact Mirrors.pure ⟨hbytes, hslots⟩
  · rw [if_pos hsingle, if_pos hsingle]
    exact fun _ _ _ => Mirrors.throw _ _

/-- **An output is evaluated in lockstep** with the output that it is under new numbers. -/
theorem evaluate_mirrors {depth : Nat} (hout : output < job.folder.totalOutputs) :
    EvalMirrors get ρ (fun a a' => a' = a) (job.evaluate runCoder packed depth output)
      (job'.evaluate runCoder' packed depth (ρ.output output)) := by
  induction depth generalizing output with
  | zero =>
    unfold evaluate
    exact fun _ _ _ => Mirrors.throw _ _
  | succ depth ih =>
    unfold evaluate
    have hslots : EvalMirrors get ρ (SameSlots ρ) (MonadState.get : EvalM τ _) MonadState.get :=
      fun _ _ hslots => Mirrors.pure ⟨hslots, hslots⟩
    refine hslots.bind fun slots slots' hslots => ?_
    rw [Breach.lookup_congr (hslots output), h.index]
    refine (EvalMirrors.lift _).bind fun slot slot' hslot => ?_
    rw [hslot]
    -- both have the output already, or both produce it
    cases slot with
    | some bytes => exact EvalMirrors.pure rfl
    | none =>
      refine (produce_mirrors h hcoder (fun _ ho => ih ho) hout).bind fun bytes bytes' hbytes => ?_
      have hset : EvalMirrors get ρ (fun _ _ => True)
          (modify fun slots => slots.set output (some bytes) : EvalM τ PUnit)
          (modify fun slots => slots.set (ρ.output output) (some bytes) : EvalM σ PUnit) :=
        fun _ _ hslots₁ => Mirrors.pure ⟨trivial, hslots₁.set output (some bytes)⟩
      rw [hbytes]
      exact hset.bind fun _ _ _ => EvalMirrors.pure rfl

/-- **A folder is evaluated in lockstep** with the folder that it is under new numbers. -/
theorem run_mirrors : Mirrors get (fun a a' => a' = a) (job.run runCoder packed)
    (job'.run runCoder' packed) := by
  have hfinal := h.folder.finalOutput_eq h.describes h.describes'
  have hout := ((h.describes.finalOutput _).mpr rfl).1
  -- no slot is filled on either side
  have hslots : SameSlots ρ (List.replicate job.graph.totalOutputs none)
      (List.replicate job'.graph.totalOutputs none) := by
    intro output
    rw [h.describes.totalOutputs_eq, h.describes'.totalOutputs_eq, List.getElem?_replicate,
      List.getElem?_replicate]
    simp only [h.folder.output_lt_iff]
  unfold FolderJob.run
  rw [h.folder.length_coders, hfinal, h.index, h.unpackLength]
  refine (evaluate_mirrors h hcoder hout _ _ hslots).bind ?_
  rintro ⟨output, slots⟩ ⟨output', slots'⟩ ⟨rfl, -⟩
  dsimp only
  split
  · exact Mirrors.throw _ _
  · exact Mirrors.pure rfl

end

end FolderJob

end SolidArchive
