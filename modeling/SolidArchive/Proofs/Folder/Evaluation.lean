import SolidArchive.Folder.Decode
import SolidArchive.Proofs.Folder.Upstream

/-!
# Evaluating a folder

What holds of every evaluation of a coder graph, whatever its coders do and whatever state they
keep. The recursion of `FolderJob.evaluate` is followed once, in `Invariant.evaluate`; everything
else that is shown of it is an `Invariant`, which says what a run of a single coder preserves.

Two facts carry the recursion. One is the depth: it goes down by one from a coder to those that feed
it, and so does the number of coders upstream, which was smaller than the depth to begin with. The
other is that while the inputs of a coder are got, only slots of coders upstream of it are filled
(`Filled`). Its own slot is not among these, so when the coder is run its slot is still empty, and
the inputs that were got first are still there.
-/

namespace SolidArchive

open Relation

variable {σ ε α β : Type}

/-! ### What a step ensures -/

/-- From `s` a step ends with `post` if it gives a value, and with `bad` if it fails. -/
def Ensures (x : ExceptT ε (StateM σ) α) (s : σ) (post : α → σ → Prop) (bad : ε → σ → Prop) :
    Prop :=
  match x.run s with
  | (.ok a, s') => post a s'
  | (.error fault, s') => bad fault s'

theorem runExcept_bind (x : ExceptT ε (StateM σ) α) (f : α → ExceptT ε (StateM σ) β) (s : σ) :
    (x >>= f).run s = match x.run s with
      | (.ok a, s') => (f a).run s'
      | (.error fault, s') => (.error fault, s') := by
  unfold ExceptT.run
  simp only [bind, ExceptT.bind, ExceptT.mk, StateT.bind, ExceptT.bindCont]
  rcases x s with ⟨_ | _, _⟩ <;> rfl

theorem runExcept_liftM (x : StateM σ α) (s : σ) :
    (liftM x : ExceptT ε (StateM σ) α).run s = (.ok (x s).1, (x s).2) := rfl

namespace Ensures

variable {x : ExceptT ε (StateM σ) α} {f : α → ExceptT ε (StateM σ) β} {s : σ}
  {mid post : α → σ → Prop} {post' : β → σ → Prop} {bad : ε → σ → Prop} {bad' : ε → σ → Prop}

theorem pure {a : α} (h : post a s) : Ensures (Pure.pure a) s post bad := h

theorem throw {fault : ε} (h : bad fault s) :
    Ensures (MonadExcept.throw fault : ExceptT ε (StateM σ) α) s post bad := h

theorem bind (hx : Ensures x s mid bad)
    (hf : ∀ a s', mid a s' → Ensures (f a) s' post' bad) : Ensures (x >>= f) s post' bad := by
  unfold Ensures at hx ⊢
  rw [runExcept_bind]
  rcases hcase : x.run s with ⟨fault | a, s'⟩
  · rw [hcase] at hx
    exact hx
  · rw [hcase] at hx
    exact hf a s' hx

theorem mono (hx : Ensures x s mid bad) (hpost : ∀ a s', mid a s' → post a s')
    (hbad : ∀ fault s', bad fault s' → bad' fault s') : Ensures x s post bad' := by
  unfold Ensures at hx ⊢
  rcases hcase : x.run s with ⟨fault | a, s'⟩
  · rw [hcase] at hx
    exact hbad fault s' hx
  · rw [hcase] at hx
    exact hpost a s' hx

theorem and {post₂ : α → σ → Prop} (hx : Ensures x s post bad) (hx' : Ensures x s post₂ bad') :
    Ensures x s (fun a s' => post a s' ∧ post₂ a s')
      (fun fault s' => bad fault s' ∧ bad' fault s') := by
  unfold Ensures at hx hx' ⊢
  rcases hcase : x.run s with ⟨fault | a, s'⟩
  · rw [hcase] at hx hx'
    exact ⟨hx, hx'⟩
  · rw [hcase] at hx hx'
    exact ⟨hx, hx'⟩

theorem ok {a : α} (hx : Ensures x s post bad) (ha : (x.run s).1 = .ok a) :
    post a (x.run s).2 := by
  unfold Ensures at hx
  rcases hcase : x.run s with ⟨r, s'⟩
  rw [hcase] at hx ha
  subst ha
  exact hx

theorem error {fault : ε} (hx : Ensures x s post bad)
    (hfault : (x.run s).1 = .error fault) : bad fault (x.run s).2 := by
  unfold Ensures at hx
  rcases hcase : x.run s with ⟨r, s'⟩
  rw [hcase] at hx hfault
  subst hfault
  exact hx

/-- To keep a property, whether or not the step fails, is to have it afterwards. -/
theorem always_iff {P : σ → Prop} :
    Ensures x s (fun _ => P) (fun _ => P) ↔ P (x.run s).2 := by
  unfold Ensures
  rcases x.run s with ⟨fault | a, s'⟩
  · exact Iff.rfl
  · exact Iff.rfl

/-- A step ends as its run does. -/
theorem run_eq (x : ExceptT ε (StateM σ) α) (s : σ) :
    Ensures x s (fun a s' => x.run s = (.ok a, s'))
      (fun fault s' => x.run s = (.error fault, s')) := by
  unfold Ensures
  rcases x.run s with ⟨fault | a, s'⟩
  · exact rfl
  · exact rfl

/-- Any step ends somehow. -/
theorem trivial (x : ExceptT ε (StateM σ) α) (s : σ) :
    Ensures x s (fun _ _ => True) (fun _ _ => True) := by
  unfold Ensures
  rcases x.run s with ⟨fault | a, s'⟩
  · exact True.intro
  · exact True.intro

end Ensures

namespace FolderJob

/-- A table is read where it has an entry. -/
theorem lift_lookup {m : Type → Type} [Monad m] [MonadExceptOf FolderFault m] {folder i : Nat}
    {table : List α} {a : α} (h : table[i]? = some a) :
    (lift folder (Breach.lookup .breach table i) : m α) = pure a := by
  rw [Breach.lookup, h]
  rfl

theorem lift_lookup_none {m : Type → Type} [Monad m] [MonadExceptOf FolderFault m] {folder i : Nat}
    {table : List α} (h : table[i]? = none) :
    (lift folder (Breach.lookup .breach table i) : m α) = fail folder (.breach .index) := by
  rw [Breach.lookup, h]
  rfl

/-! ### Slots -/

/-- More slots are filled than before, and those by coders that have `ran`. -/
structure Filled (f : Folder) (ran : Nat → Prop) (slots slots' : List (Option Bytes)) : Prop where
  length_eq : slots'.length = slots.length
  kept : ∀ {output : Nat} {bytes : Bytes}, slots[output]? = some (some bytes) →
    slots'[output]? = some (some bytes)
  byRan : ∀ {output : Nat} {bytes : Bytes},
    slots[output]? = some none → slots'[output]? = some (some bytes) →
    ∃ coder, f.HasOutput coder output ∧ ran coder

namespace Filled

variable {f : Folder} {ran ran' : Nat → Prop} {slots slots' slots'' : List (Option Bytes)}
  {output coder : Nat} {bytes : Bytes}

theorem refl (f : Folder) (ran : Nat → Prop) (slots : List (Option Bytes)) :
    Filled f ran slots slots where
  length_eq := rfl
  kept h := h
  byRan hnone hsome := by
    rw [hnone] at hsome
    cases hsome

theorem mono (h : Filled f ran slots slots') (hran : ∀ c, ran c → ran' c) :
    Filled f ran' slots slots' where
  length_eq := h.length_eq
  kept := h.kept
  byRan hnone hsome := by
    obtain ⟨c, hout, hc⟩ := h.byRan hnone hsome
    exact ⟨c, hout, hran c hc⟩

/-- A slot stays empty if the coder that has the output is none of those that have run. -/
theorem empty (h : Filled f ran slots slots') (hnone : slots[output]? = some none)
    (hout : f.HasOutput coder output) (hran : ¬ran coder) : slots'[output]? = some none := by
  have hlt : output < slots'.length := by
    rw [h.length_eq]
    exact (List.getElem?_eq_some_iff.mp hnone).1
  rw [List.getElem?_eq_getElem hlt, Option.some_inj]
  cases hcase : slots'[output] with
  | none => rfl
  | some bytes =>
    have hsome : slots'[output]? = some (some bytes) := by
      rw [List.getElem?_eq_getElem hlt, hcase]
    obtain ⟨c, hout', hc⟩ := h.byRan hnone hsome
    rw [hout.unique hout'] at hran
    exact absurd hc hran

theorem trans (h : Filled f ran slots slots') (h' : Filled f ran slots' slots'') :
    Filled f ran slots slots'' where
  length_eq := h'.length_eq.trans h.length_eq
  kept hsome := h'.kept (h.kept hsome)
  byRan {output bytes} hnone hsome := by
    have hlt : output < slots'.length := by
      rw [h.length_eq]
      exact (List.getElem?_eq_some_iff.mp hnone).1
    -- it was filled in the first part or in the second
    cases hcase : slots'[output] with
    | none => exact h'.byRan (by rw [List.getElem?_eq_getElem hlt, hcase]) hsome
    | some bytes' => exact h.byRan hnone (by rw [List.getElem?_eq_getElem hlt, hcase])

theorem set (hnone : slots[output]? = some none) (hout : f.HasOutput coder output)
    (hran : ran coder) (bytes : Bytes) : Filled f ran slots (slots.set output (some bytes)) where
  length_eq := List.length_set
  kept {other bytes'} hsome := by
    -- the slot was empty, so nothing is written over
    have hne : output ≠ other := by
      rintro rfl
      rw [hnone] at hsome
      cases hsome
    rw [List.getElem?_set_ne hne]
    exact hsome
  byRan {other bytes'} hnone' hsome := by
    by_cases hother : output = other
    · subst hother
      exact ⟨coder, hout, hran⟩
    · rw [List.getElem?_set_ne hother, hnone'] at hsome
      cases hsome

end Filled

/-- At first no slot is filled. -/
theorem getElem?_replicate_ne (n output : Nat) (bytes : Bytes) :
    (List.replicate n (none : Option Bytes))[output]? ≠ some (some bytes) := by
  rw [List.getElem?_replicate]
  split
  · exact fun h => nomatch h
  · exact fun h => nomatch h

/-- After an output has come to its slot, it is there beside those that were there before. -/
theorem getElem?_set_slot_iff {slots : List (Option Bytes)} {output other : Nat}
    {bytes bytes' : Bytes} (hempty : slots[output]? = some none) :
    (slots.set output (some bytes))[other]? = some (some bytes') ↔
      (other = output ∧ bytes' = bytes) ∨ slots[other]? = some (some bytes') := by
  by_cases hother : output = other
  · subst hother
    rw [List.getElem?_set_self (List.getElem?_eq_some_iff.mp hempty).1, hempty]
    simp [eq_comm]
  · have hne : other ≠ output := Ne.symm hother
    rw [List.getElem?_set_ne hother]
    simp [hne]

/-! ### Coders and their inputs -/

variable {job : FolderJob} {packed : List Bytes} {runCoder : CoderRun σ}

/-- An output and the coder that is run for it. -/
structure Owns (f : Folder) (index : Nat) (c : Coder) (output : Nat) : Prop where
  coder : f.coders[index]? = some c
  hasOutput : f.HasOutput index output

theorem exists_owns {f : Folder} {output : Nat} (h : output < f.totalOutputs) :
    ∃ index c, Owns f index c output := by
  obtain ⟨index, hout⟩ := Folder.exists_hasOutput h
  exact ⟨index, _, List.getElem?_eq_getElem hout.coder_lt, hout⟩

/-- The bytes of an input are there: in the slot of the output that feeds it, or in its pack
stream. -/
def Ready (job : FolderJob) (packed : List Bytes) (slots : List (Option Bytes)) (input : Nat)
    (bytes : Bytes) : Prop :=
  match job.folder.boundOutput? input with
  | some feeder => slots[feeder]? = some (some bytes)
  | none => ∃ position, job.graph.packedPosition? input = some position ∧
      packed[position]? = some bytes

/-- The bytes of the inputs of a coder that `is` counts from its first are there. -/
def AllReady (job : FolderJob) (packed : List Bytes) (slots : List (Option Bytes)) (index : Nat)
    (is : List Nat) (inputs : List Bytes) : Prop :=
  List.Forall₂ (fun i => job.Ready packed slots (runStart job.folder.inputCounts index + i)) is
    inputs

theorem AllReady.mono {ran : Nat → Prop} {slots slots' : List (Option Bytes)} {index : Nat}
    {is : List Nat} {inputs : List Bytes} (h : job.AllReady packed slots index is inputs)
    (hfilled : Filled job.folder ran slots slots') :
    job.AllReady packed slots' index is inputs := by
  refine h.imp fun i bytes hready => ?_
  unfold Ready at hready ⊢
  split
  · next feeder hbound =>
    rw [hbound] at hready
    exact hfilled.kept hready
  · next hnone =>
    rw [hnone] at hready
    exact hready

/-- How things stand when a coder is run for an output: it has no other output, this one is not
there yet, and all inputs are. -/
structure CallSite (job : FolderJob) (packed : List Bytes) (slots : List (Option Bytes))
    (index : Nat) (c : Coder) (inputs : List Bytes) (output : Nat) : Prop extends
    Owns job.folder index c output where
  single : c.outputs = 1
  empty : slots[output]? = some none
  ready : job.AllReady packed slots index (List.range c.inputs.toNat) inputs

/-! ### Running a coder -/

/-- The size that an output has to have, if one is known: the declared one, or else, for the final
output, the length of the folder's output. -/
def knownSize (job : FolderJob) (output : Nat) : Option Nat :=
  if job.folder.unpackSizes ≠ [] then (numbers job.folder.unpackSizes)[output]?
  else if output = job.graph.finalOutput then some job.unpackLength
  else none

/-- The expected size of an output is looked up where it is. -/
theorem expectedSize_eq (hf : job.folder.IsCoderGraph) {output : Nat}
    (hout : output < job.folder.totalOutputs) :
    job.expectedSize output = .ok (job.knownSize output) := by
  unfold expectedSize knownSize
  by_cases hsome : job.folder.unpackSizes = []
  · rw [if_neg (not_not.mpr hsome), if_neg (not_not.mpr hsome)]
    split
    · rfl
    · rfl
  · rw [← hf.unpackSizes.resolve_left hsome] at hout
    rw [if_pos hsome, if_pos hsome, getElem?_numbers, Breach.lookup,
      List.getElem?_eq_getElem hout]
    rfl

/-- What a failure of a coder comes to. -/
def coderFault (folder index : Nat) (c : Coder) : DecoderFault → FolderFault
  | .decode error => .decode error
  | .failure reason => .decode { folder, fault := .coderFailed index c.methodId reason }
  | .foreign thrown => .foreign thrown

/-- A coder is run by a decoder. -/
theorem runBy_ensures {decoder : Decoder σ} {folder index : Nat} {c : Coder} {inputs : List Bytes}
    {expected : Option Nat} {s : σ} {post : Bytes → σ → Prop} {bad : FolderFault → σ → Prop}
    (hok : ∀ bytes s', decoder c inputs expected s = (.ok bytes, s') → post bytes s')
    (herror : ∀ fault s', decoder c inputs expected s = (.error fault, s') →
      bad (coderFault folder index c fault) s') :
    Ensures (runBy folder decoder index c inputs expected) s post bad := by
  have hrun : Ensures (decoder c inputs expected : FolderM σ (Except DecoderFault Bytes)) s
      (fun answer s' => decoder c inputs expected s = (answer, s')) bad := rfl
  refine hrun.bind fun answer s' hanswer => ?_
  match answer with
  | .ok bytes => exact Ensures.pure (hok bytes s' hanswer)
  | .error (.decode error) => exact Ensures.throw (herror _ s' hanswer)
  | .error (.failure reason) => exact Ensures.throw (herror _ s' hanswer)
  | .error (.foreign thrown) => exact Ensures.throw (herror _ s' hanswer)

/-- What a coder gives is kept if it has the size that is known. -/
theorem runChecked_ensures (hf : job.folder.IsCoderGraph) {index output : Nat} {c : Coder}
    {inputs : List Bytes} {s : σ} {mid post : Bytes → σ → Prop} {bad : FolderFault → σ → Prop}
    (hout : output < job.folder.totalOutputs)
    (hrun : Ensures (runCoder index c inputs (job.knownSize output)) s mid bad)
    (hpost : ∀ bytes s', mid bytes s' → (∀ size ∈ job.knownSize output, bytes.length = size) →
      post bytes s')
    (hsize : ∀ bytes s', ∀ size ∈ job.knownSize output, mid bytes s' → bytes.length ≠ size →
      bad (.decode { folder := job.index, fault := .outputSize index bytes.length size }) s') :
    Ensures (job.runChecked runCoder index c inputs output) s post bad := by
  unfold runChecked
  rw [expectedSize_eq hf hout]
  refine hrun.bind fun bytes s' hmid => ?_
  -- without a known size every answer passes
  cases hknown : job.knownSize output with
  | none => exact Ensures.pure (hpost bytes s' hmid fun size h => by rw [hknown] at h; cases h)
  | some size =>
    dsimp only
    split
    · next hne => exact Ensures.throw (hsize bytes s' size hknown hmid hne)
    · next heq =>
      refine Ensures.pure (hpost bytes s' hmid fun size' h => ?_)
      rw [hknown] at h
      cases h
      exact not_not.mp heq

/-! ### The invariant rule -/

/-- What the run of a coder preserves, and what is so when the evaluation of an output fails. -/
structure Invariant (job : FolderJob) (packed : List Bytes) (runCoder : CoderRun σ)
    (inv : List (Option Bytes) → σ → Prop) (bad : Nat → FolderFault → σ → Prop) : Prop where
  severalOutputs : ∀ {slots s index c output}, inv slots s → Owns job.folder index c output →
    c.outputs ≠ 1 →
      bad output (.decode { folder := job.index, fault := .severalOutputs index c.outputs.toNat }) s
  /-- What feeds an input fails, and those before it are there. -/
  input : ∀ {slots s index c output i inputs feeder fault s'}, inv slots s →
    Owns job.folder index c output → c.outputs = 1 → i < c.inputs.toNat →
    job.AllReady packed slots index (List.range i) inputs →
    job.folder.boundOutput? (runStart job.folder.inputCounts index + i) = some feeder →
    bad feeder fault s' → bad output fault s'
  /-- There are fewer pack streams than inputs that are read from them. -/
  missing : ∀ {slots s index c output}, inv slots s → Owns job.folder index c output →
    packed.length < job.graph.packedInputs.length →
      bad output (.decode { folder := job.index, fault := .breach .index }) s
  call : ∀ {slots s index c inputs output}, inv slots s →
    job.CallSite packed slots index c inputs output →
    Ensures (job.runChecked runCoder index c inputs output) s
      (fun bytes s' => inv (slots.set output (some bytes)) s') (bad output)

namespace Invariant

variable {inv : List (Option Bytes) → σ → Prop} {bad : Nat → FolderFault → σ → Prop}

/-- What the evaluation of an output does: the invariant goes on, the slot is filled, and no slot of
another coder than those upstream is. -/
def Evaluates (job : FolderJob) (inv : List (Option Bytes) → σ → Prop)
    (bad : Nat → FolderFault → σ → Prop) (feed : Nat → EvalM σ Bytes) (index output : Nat) : Prop :=
  ∀ slots s, slots.length = job.folder.totalOutputs → inv slots s →
    Ensures ((feed output).run slots) s
      (fun r s' => inv r.2 s' ∧ r.2[output]? = some (some r.1) ∧
        Filled job.folder (ReflTransGen job.folder.Feeds · index) slots r.2)
      (bad output)

variable (h : Invariant job packed runCoder inv bad) (hf : job.folder.IsCoderGraph)
  (hg : job.graph.Describes job.folder)

include h hf hg in
/-- The bytes of an input are got. -/
theorem inputBytes {feed : Nat → EvalM σ Bytes} {slots : List (Option Bytes)} {s : σ}
    {index i output : Nat} {c : Coder} {inputs : List Bytes}
    (howns : Owns job.folder index c output)
    (hsingle : c.outputs = 1) (hi : i < c.inputs.toNat)
    (hfeed : ∀ feeder o, job.folder.Feeds feeder index → job.folder.HasOutput feeder o →
      Evaluates job inv bad feed feeder o)
    (hlength : slots.length = job.folder.totalOutputs) (hinv : inv slots s)
    (hready : job.AllReady packed slots index (List.range i) inputs) :
    Ensures ((job.inputBytes packed feed (runStart job.folder.inputCounts index + i)).run slots) s
      (fun r s' => inv r.2 s' ∧
        job.Ready packed r.2 (runStart job.folder.inputCounts index + i) r.1 ∧
        Filled job.folder (TransGen job.folder.Feeds · index) slots r.2)
      (bad output) := by
  have hin : job.folder.HasInput index (runStart job.folder.inputCounts index + i) :=
    (Folder.hasInput_iff howns.coder).mpr ⟨i, hi, rfl⟩
  unfold FolderJob.inputBytes Ready
  cases hbound : job.folder.boundOutput? (runStart job.folder.inputCounts index + i) with
  | some o =>
    -- another coder feeds the input, and whatever is upstream of that one is upstream of this one
    obtain ⟨feeder, hout, hfeeds⟩ := hf.bindsOnce.feeds_of_boundOutput? hin hbound
    refine (hfeed feeder o hfeeds hout slots s hlength hinv).mono ?_ ?_
    · rintro r s' ⟨hinv', hslot, hfilled⟩
      exact ⟨hinv', hslot, hfilled.mono fun _ hc => TransGen.tail' hc hfeeds⟩
    · intro fault s' hbad
      exact h.input hinv howns hsingle hi hready hbound hbad
  | none =>
    -- nothing feeds it, so it has a place among the packed inputs
    have hunbound : job.folder.UnboundInput (runStart job.folder.inputCounts index + i) :=
      ⟨hin.lt_totalInputs, Folder.boundOutput?_eq_none_iff.mp hbound⟩
    obtain ⟨position, hposition, hplace⟩ := hg.packedInputs.exists_position hunbound
    simp only [hposition]
    cases hbytes : packed[position]? with
    | some bytes =>
      rw [lift_lookup hbytes]
      exact Ensures.pure ⟨hinv, ⟨position, rfl, hbytes⟩, Filled.refl _ _ _⟩
    | none =>
      have hfew : packed.length < job.graph.packedInputs.length :=
        (List.getElem?_eq_none_iff.mp hbytes).trans_lt (List.getElem?_eq_some_iff.mp hplace).1
      rw [lift_lookup_none hbytes]
      exact Ensures.throw (h.missing hinv howns hfew)

include h hf hg in
/-- The bytes of the inputs from the `k`-th on are got, after those before it. -/
theorem inputsFrom {feed : Nat → EvalM σ Bytes} {slots : List (Option Bytes)} {s : σ}
    {index k left output : Nat} {c : Coder} {got : List Bytes}
    (howns : Owns job.folder index c output)
    (hsingle : c.outputs = 1) (hk : k + left = c.inputs.toNat)
    (hfeed : ∀ feeder o, job.folder.Feeds feeder index → job.folder.HasOutput feeder o →
      Evaluates job inv bad feed feeder o)
    (hlength : slots.length = job.folder.totalOutputs) (hinv : inv slots s)
    (hready : job.AllReady packed slots index (List.range k) got) :
    Ensures (((List.range' k left).mapM fun i =>
        job.inputBytes packed feed (runStart job.folder.inputCounts index + i)).run slots) s
      (fun r s' => inv r.2 s' ∧
        job.AllReady packed r.2 index (List.range c.inputs.toNat) (got ++ r.1) ∧
        Filled job.folder (TransGen job.folder.Feeds · index) slots r.2)
      (bad output) := by
  induction left generalizing k got slots s with
  | zero =>
    obtain rfl : k = c.inputs.toNat := hk
    rw [List.range'_zero, List.mapM_nil]
    refine Ensures.pure ⟨hinv, ?_, Filled.refl _ _ _⟩
    rw [List.append_nil]
    exact hready
  | succ left ih =>
    rw [List.range'_succ, List.mapM_cons, StateT.run_bind]
    refine (h.inputBytes hf hg howns hsingle (by omega) hfeed hlength hinv hready).bind ?_
    rintro ⟨bytes, slots₁⟩ s₁ ⟨hinv₁, hbytes, hfilled⟩
    -- the inputs before are still there, and now there is one more
    have hready₁ : job.AllReady packed slots₁ index (List.range (k + 1)) (got ++ [bytes]) := by
      rw [List.range_succ]
      exact List.rel_append (hready.mono hfilled) (.cons hbytes .nil)
    have hlength₁ := hfilled.length_eq.trans hlength
    rw [StateT.run_bind]
    refine (ih (by omega) hlength₁ hinv₁ hready₁).bind ?_
    rintro ⟨rest, slots₂⟩ s₂ ⟨hinv₂, hready₂, hfilled₂⟩
    rw [List.append_assoc] at hready₂
    exact Ensures.pure ⟨hinv₂, hready₂, hfilled.trans hfilled₂⟩

include h hf hg in
/-- An output that is not there is produced. -/
theorem produce {feed : Nat → EvalM σ Bytes} {slots : List (Option Bytes)} {s : σ}
    {index output : Nat} {c : Coder} (howns : Owns job.folder index c output)
    (hfeed : ∀ feeder o, job.folder.Feeds feeder index → job.folder.HasOutput feeder o →
      Evaluates job inv bad feed feeder o)
    (hlength : slots.length = job.folder.totalOutputs) (hinv : inv slots s)
    (hempty : slots[output]? = some none) :
    Ensures ((job.produce runCoder packed feed output).run slots) s
      (fun r s' => inv (r.2.set output (some r.1)) s' ∧ r.2[output]? = some none ∧
        Filled job.folder (TransGen job.folder.Feeds · index) slots r.2)
      (bad output) := by
  have hstart := hg.getElem?_inputStarts (List.getElem?_eq_some_iff.mp howns.coder).1
  unfold FolderJob.produce
  simp only [hg.coderOfOutput_eq howns.hasOutput, lift_lookup howns.coder, lift_lookup hstart,
    pure_bind]
  by_cases hsingle : c.outputs = 1
  · rw [if_neg (not_not.mpr hsingle), StateT.run_bind, List.range_eq_range']
    refine (h.inputsFrom hf hg howns hsingle (Nat.zero_add _) hfeed hlength hinv .nil).bind ?_
    rintro ⟨inputs, slots₁⟩ s₁ ⟨hinv₁, hready₁, hfilled⟩
    -- no coder is upstream of itself
    have hempty₁ := hfilled.empty hempty howns.hasOutput (hf.acyclic index)
    refine (h.call hinv₁ ⟨howns, hsingle, hempty₁, hready₁⟩).bind fun bytes s₂ hinv₂ => ?_
    exact Ensures.pure ⟨hinv₂, hempty₁, hfilled⟩
  · rw [if_pos hsingle]
    exact Ensures.throw (h.severalOutputs hinv howns hsingle)

include h hf hg in
/-- **The evaluation of an output.** What the run of a coder preserves is preserved, and the output
is in its slot. The depth suffices if there are fewer coders upstream. -/
theorem evaluate {depth index output : Nat} (hout : job.folder.HasOutput index output)
    (hdepth : (job.folder.upstream index).card < depth) :
    Evaluates job inv bad (job.evaluate runCoder packed depth) index output := by
  induction depth generalizing index output with
  | zero => exact absurd hdepth (Nat.not_lt_zero _)
  | succ depth ih =>
    intro slots s hlength hinv
    have hslot : output < slots.length := by
      rw [hlength]
      exact hout.lt_totalOutputs
    have hlookup := List.getElem?_eq_getElem hslot
    unfold FolderJob.evaluate
    rw [StateT.run_bind, StateT.run_get, pure_bind, lift_lookup hlookup, pure_bind]
    cases hcase : slots[output] with
    | some bytes =>
      rw [hcase] at hlookup
      exact Ensures.pure ⟨hinv, hlookup, Filled.refl _ _ _⟩
    | none =>
      rw [hcase] at hlookup
      have hlt := hout.coder_lt
      -- what feeds the coder has fewer coders upstream, so the depth suffices for it
      have hfeed : ∀ feeder o, job.folder.Feeds feeder index → job.folder.HasOutput feeder o →
          Evaluates job inv bad (job.evaluate runCoder packed depth) feeder o := by
        intro feeder o hfeeds hout'
        have hless := hf.acyclic.card_upstream_lt hfeeds
        exact ih hout' (by omega)
      have howns : Owns job.folder index job.folder.coders[index] output :=
        ⟨List.getElem?_eq_getElem hlt, hout⟩
      refine (h.produce hf hg howns hfeed hlength hinv hlookup).bind ?_
      rintro ⟨bytes, slots₁⟩ s₁ ⟨hinv₁, hempty, hfilled⟩
      have hslot₁ := (List.getElem?_eq_some_iff.mp hempty).1
      have hset : Filled job.folder (ReflTransGen job.folder.Feeds · index) slots₁
          (slots₁.set output (some bytes)) := by
        refine Filled.set hempty hout ?_ bytes
        exact ReflTransGen.refl
      refine Ensures.pure ⟨hinv₁, List.getElem?_set_self hslot₁, ?_⟩
      exact (hfilled.mono fun _ => TransGen.to_reflTransGen).trans hset

/-- What is in a slot has the size that is known of the output. -/
def HasSizes (job : FolderJob) (slots : List (Option Bytes)) : Prop :=
  ∀ (output : Nat) (bytes : Bytes), slots[output]? = some (some bytes) →
    ∀ size ∈ job.knownSize output, bytes.length = size

include h hf in
/-- The sizes are a part of every invariant, whatever the coders give. -/
theorem hasSizes : Invariant job packed runCoder
    (fun slots s => inv slots s ∧ HasSizes job slots) bad where
  severalOutputs hinv := h.severalOutputs hinv.1
  input hinv := h.input hinv.1
  missing hinv := h.missing hinv.1
  call {slots s index c inputs output} hinv hcall := by
    -- the check of the call is all that the new slot needs
    have hsize : Ensures (job.runChecked runCoder index c inputs output) s
        (fun bytes _ => ∀ size ∈ job.knownSize output, bytes.length = size) (fun _ _ => True) :=
      runChecked_ensures hf hcall.hasOutput.lt_totalOutputs (Ensures.trivial _ s)
        (fun _ _ _ hknown => hknown) fun _ _ _ _ _ _ => True.intro
    refine ((h.call hinv.1 hcall).and hsize).mono ?_ fun _ _ hbad => hbad.1
    rintro bytes s' ⟨hinv', hknown⟩
    refine ⟨hinv', fun other bytes' hslot => ?_⟩
    rcases (getElem?_set_slot_iff hcall.empty).mp hslot with ⟨rfl, rfl⟩ | hbefore
    · exact hknown
    · exact hinv.2 other bytes' hbefore

include h hf hg in
/-- **The evaluation of a folder.** It gives what is in the slot of the final output in the end, cut
to its length, and fails if that is too short. -/
theorem run {s : σ} (hinv : inv (List.replicate job.folder.totalOutputs none) s) :
    Ensures (job.run runCoder packed) s
      (fun bytes s' => ∃ slots output, inv slots s' ∧
        slots[job.graph.finalOutput]? = some (some output) ∧
        (∀ size ∈ job.knownSize job.graph.finalOutput, output.length = size) ∧
        bytes = output.take job.unpackLength)
      (fun fault s' => bad job.graph.finalOutput fault s' ∨
        ∃ slots output, inv slots s' ∧ slots[job.graph.finalOutput]? = some (some output) ∧
          (∀ size ∈ job.knownSize job.graph.finalOutput, output.length = size) ∧
          output.length < job.unpackLength) := by
  obtain ⟨owner, hout⟩ := Folder.exists_hasOutput ((hg.finalOutput _).mpr rfl).1
  -- the depth is enough, since fewer coders are upstream than there are
  have heval := (h.hasSizes hf).evaluate hf hg hout
    (hf.acyclic.card_upstream_lt_length hout.coder_lt)
  have hsizes : HasSizes job (List.replicate job.folder.totalOutputs none) :=
    fun output bytes hslot => absurd hslot (getElem?_replicate_ne _ output bytes)
  unfold FolderJob.run
  rw [hg.totalOutputs_eq]
  refine ((heval _ s List.length_replicate ⟨hinv, hsizes⟩).mono (fun _ _ hr => hr)
    fun _ _ => .inl).bind ?_
  rintro ⟨output, slots⟩ s₁ ⟨⟨hinv₁, hsizes₁⟩, hslot, -⟩
  dsimp only at hinv₁ hsizes₁ hslot ⊢
  have hknown := hsizes₁ _ _ hslot
  -- a longer output than was declared is cut, and a shorter one is a fault
  by_cases hshort : output.length < job.unpackLength
  · rw [if_pos hshort]
    exact Ensures.throw (.inr ⟨slots, output, hinv₁, hslot, hknown, hshort⟩)
  · rw [if_neg hshort]
    exact Ensures.pure ⟨slots, output, hinv₁, hslot, hknown, rfl⟩

end Invariant

end FolderJob

end SolidArchive
