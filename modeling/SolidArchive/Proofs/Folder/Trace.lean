import SolidArchive.Proofs.Folder.Evaluation

/-!
# Keeping a record of the calls

To speak of the calls that a decode makes, the state is put beside a list of them. The decoder
`Decoder.logged` is run on the first part and writes the call into the second, and nobody reads the
second part. So the decode with the record is the one without it as far as anybody can see
(`decodeFolderLogged_lowers`), whatever the decoder and the source do with their state.

That is a case of a simulation. Two runs are compared of which one acts on a larger state, and it is
enough to compare what the source and the coders do (`decodeFolderBy_lowers`).
-/

namespace SolidArchive

variable {σ τ α β : Type}

/-! ### Acting on a part of a state -/

/-- A step acts on a part of a state as another one does on that alone. -/
def Lowers (get : τ → σ) (x : FolderM τ α) (y : FolderM σ α) : Prop :=
  ∀ t, ((x.run t).1, get (x.run t).2) = y.run (get t)

namespace Lowers

variable {get : τ → σ} {x : FolderM τ α} {y : FolderM σ α}

theorem pure (a : α) : Lowers get (Pure.pure a : FolderM τ α) (Pure.pure a) := fun _ => rfl

theorem throw (fault : FolderFault) :
    Lowers get (MonadExcept.throw fault : FolderM τ α) (MonadExcept.throw fault) := fun _ => rfl

theorem bind {f : α → FolderM τ β} {f' : α → FolderM σ β} (hx : Lowers get x y)
    (hf : ∀ a, Lowers get (f a) (f' a)) : Lowers get (x >>= f) (y >>= f') := by
  intro t
  rw [runExcept_bind, runExcept_bind, ← hx t]
  rcases x.run t with ⟨fault | a, t'⟩
  · rfl
  · exact hf a t'

theorem liftM {x : StateM τ α} {y : StateM σ α} (h : ∀ t, ((x t).1, get (x t).2) = y (get t)) :
    Lowers get (MonadLift.monadLift x : FolderM τ α) (MonadLift.monadLift y) := by
  intro t
  show (Except.ok (x t).1, get (x t).2) = (Except.ok (y (get t)).1, (y (get t)).2)
  rw [← h t]

end Lowers

namespace FolderJob

variable {get : τ → σ} {job : FolderJob} {packed : List Bytes} {a : Archive} {m : StreamMap}
  {folder : Nat}

theorem lift_lowers (x : Except DecodeFault α) :
    Lowers get (lift folder x : FolderM τ α) (lift folder x) := by
  cases x with
  | ok a => exact Lowers.pure a
  | error fault => exact Lowers.throw _

section Reading

variable {source : Source τ} {source' : Source σ} {verify : Bool}
  (hsource : ∀ offset length t, ((source.read offset length t).1,
    get (source.read offset length t).2) = source'.read offset length (get t))

include hsource in
theorem readPackStream_lowers (stream : Nat) :
    Lowers get (readPackStream a m source verify folder stream)
      (readPackStream a m source' verify folder stream) := by
  unfold readPackStream
  refine (lift_lowers _).bind fun size => (lift_lowers _).bind fun offset => ?_
  refine (Lowers.liftM (hsource offset size.toNat)).bind fun answer => ?_
  match answer with
  | .error (.failure error) => exact Lowers.throw _
  | .error (.foreign thrown) => exact Lowers.throw _
  | .ok bytes =>
    dsimp only
    split
    · split
      · exact Lowers.throw _
      · exact Lowers.pure _
    · exact Lowers.pure _

include hsource in
theorem readPackStreams_lowers (count stream : Nat) :
    Lowers get (readPackStreams a m source verify folder count stream)
      (readPackStreams a m source' verify folder count stream) := by
  induction count generalizing stream with
  | zero => exact Lowers.pure _
  | succ count ih =>
    refine (readPackStream_lowers hsource stream).bind fun bytes => ?_
    exact (ih (stream + 1)).bind fun rest => Lowers.pure _

end Reading

section Evaluation

variable {runCoder : CoderRun τ} {runCoder' : CoderRun σ}
  (hcoder : ∀ index c inputs expected,
    Lowers get (runCoder index c inputs expected) (runCoder' index c inputs expected))

include hcoder in
theorem runChecked_lowers (index : Nat) (c : Coder) (inputs : List Bytes) (output : Nat) :
    Lowers get (job.runChecked runCoder index c inputs output)
      (job.runChecked runCoder' index c inputs output) := by
  unfold runChecked
  refine (lift_lowers _).bind fun expected => (hcoder index c inputs expected).bind fun bytes => ?_
  cases expected with
  | none => exact Lowers.pure _
  | some size =>
    dsimp only
    split
    · exact Lowers.throw _
    · exact Lowers.pure _

/-- A step on the slots acts so from all slots. -/
def EvalLowers (get : τ → σ) (x : EvalM τ α) (y : EvalM σ α) : Prop :=
  ∀ slots, Lowers get (x.run slots) (y.run slots)

namespace EvalLowers

theorem bind {x : EvalM τ α} {y : EvalM σ α} {f : α → EvalM τ β} {f' : α → EvalM σ β}
    (hx : EvalLowers get x y) (hf : ∀ a, EvalLowers get (f a) (f' a)) :
    EvalLowers get (x >>= f) (y >>= f') := by
  intro slots
  rw [StateT.run_bind, StateT.run_bind]
  exact (hx slots).bind fun r => hf r.1 r.2

theorem pure (a : α) : EvalLowers get (Pure.pure a : EvalM τ α) (Pure.pure a) :=
  fun _ => Lowers.pure _

theorem fail (fault : DecodeFault) :
    EvalLowers get (FolderJob.fail folder fault : EvalM τ α) (FolderJob.fail folder fault) :=
  fun _ => Lowers.throw _

theorem lift (x : Except DecodeFault α) :
    EvalLowers get (FolderJob.lift folder x : EvalM τ α) (FolderJob.lift folder x) := by
  cases x with
  | ok a => exact EvalLowers.pure a
  | error fault => exact EvalLowers.fail fault

theorem mapM {f : α → EvalM τ β} {f' : α → EvalM σ β} (hf : ∀ a, EvalLowers get (f a) (f' a))
    (l : List α) : EvalLowers get (l.mapM f) (l.mapM f') := by
  induction l with
  | nil => exact EvalLowers.pure _
  | cons a l ih =>
    rw [List.mapM_cons, List.mapM_cons]
    exact (hf a).bind fun b => ih.bind fun rest => EvalLowers.pure _

end EvalLowers

theorem inputBytes_lowers {feed : Nat → EvalM τ Bytes} {feed' : Nat → EvalM σ Bytes}
    (hfeed : ∀ output, EvalLowers get (feed output) (feed' output)) (input : Nat) :
    EvalLowers get (job.inputBytes packed feed input) (job.inputBytes packed feed' input) := by
  unfold inputBytes
  split
  · exact hfeed _
  · split
    · exact EvalLowers.lift _
    · exact EvalLowers.fail _

include hcoder in
theorem produce_lowers {feed : Nat → EvalM τ Bytes} {feed' : Nat → EvalM σ Bytes}
    (hfeed : ∀ output, EvalLowers get (feed output) (feed' output)) (output : Nat) :
    EvalLowers get (job.produce runCoder packed feed output)
      (job.produce runCoder' packed feed' output) := by
  unfold produce
  refine (EvalLowers.lift _).bind fun c => ?_
  split
  · exact fun _ _ => rfl
  · refine (EvalLowers.lift _).bind fun start => ?_
    refine (EvalLowers.mapM (fun i => inputBytes_lowers hfeed _) _).bind fun inputs slots => ?_
    exact (runChecked_lowers hcoder _ _ _ _).bind fun bytes => Lowers.pure _

include hcoder in
theorem evaluate_lowers (depth output : Nat) :
    EvalLowers get (job.evaluate runCoder packed depth output)
      (job.evaluate runCoder' packed depth output) := by
  induction depth generalizing output with
  | zero => exact EvalLowers.fail _
  | succ depth ih =>
    unfold evaluate
    -- the slots are the same on both sides, so the same branch is taken
    refine EvalLowers.bind (fun slots => Lowers.pure _) fun slots => ?_
    refine (EvalLowers.lift _).bind fun slot => ?_
    cases slot with
    | some bytes => exact EvalLowers.pure bytes
    | none =>
      refine (produce_lowers hcoder ih output).bind fun bytes => ?_
      exact EvalLowers.bind (fun slots => Lowers.pure _) fun _ => EvalLowers.pure bytes

include hcoder in
theorem run_lowers : Lowers get (job.run runCoder packed) (job.run runCoder' packed) := by
  unfold FolderJob.run
  refine (evaluate_lowers hcoder _ _ _).bind fun r => ?_
  dsimp only
  split
  · exact Lowers.throw _
  · exact Lowers.pure _

end Evaluation

end FolderJob

/-- Two decodes of which the sources and the coders act alike do so themselves. -/
theorem decodeFolderBy_lowers (get : τ → σ) (a : Archive) (m : StreamMap) {source : Source τ}
    {source' : Source σ} {runCoder : FolderJob.CoderRun τ} {runCoder' : FolderJob.CoderRun σ}
    (hsource : ∀ offset length t, ((source.read offset length t).1,
      get (source.read offset length t).2) = source'.read offset length (get t))
    (hcoder : ∀ index c inputs expected,
      Lowers get (runCoder index c inputs expected) (runCoder' index c inputs expected))
    (config : Config) (k : Nat) :
    Lowers get (decodeFolderBy a m source runCoder config k)
      (decodeFolderBy a m source' runCoder' config k) := by
  unfold decodeFolderBy
  split
  · exact Lowers.throw _
  · next f hf =>
    refine (FolderJob.lift_lowers _).bind fun span => ?_
    dsimp only
    by_cases hlimit : config.maxFolderBytes < span.unpackLength
    · -- above the limit nothing is called on either side
      rw [if_pos hlimit, if_pos hlimit]
      exact fun _ => rfl
    · rw [if_neg hlimit, if_neg hlimit]
      cases FolderGraph.resolve f with
      | error fault => exact fun _ => rfl
      | ok g =>
        refine (FolderJob.readPackStreams_lowers hsource _ _).bind fun packed => ?_
        exact FolderJob.run_lowers hcoder

theorem FolderJob.runBy_lowers {get : τ → σ} {decoder : Decoder τ} {decoder' : Decoder σ}
    {c : Coder}
    {inputs : List Bytes} {expected : Option Nat}
    (hdecoder : ∀ t, ((decoder c inputs expected t).1, get (decoder c inputs expected t).2) =
      decoder' c inputs expected (get t)) (folder index : Nat) :
    Lowers get (runBy folder decoder index c inputs expected)
      (runBy folder decoder' index c inputs expected) := by
  refine Lowers.bind (Lowers.liftM hdecoder) fun answer => ?_
  match answer with
  | .ok bytes => exact Lowers.pure bytes
  | .error (.decode error) => exact Lowers.throw _
  | .error (.failure reason) => exact Lowers.throw _
  | .error (.foreign thrown) => exact Lowers.throw _

theorem decodeFolder_lowers (get : τ → σ) (a : Archive) (m : StreamMap) {source : Source τ}
    {source' : Source σ} {decoder : Decoder τ} {decoder' : Decoder σ}
    (hsource : ∀ offset length t, ((source.read offset length t).1,
      get (source.read offset length t).2) = source'.read offset length (get t))
    (hdecoder : ∀ c inputs expected t, ((decoder c inputs expected t).1,
      get (decoder c inputs expected t).2) = decoder' c inputs expected (get t))
    (config : Config) (k : Nat) :
    Lowers get (decodeFolder a m source decoder config k)
      (decodeFolder a m source' decoder' config k) :=
  decodeFolderBy_lowers get a m hsource
    (fun index c inputs expected => FolderJob.runBy_lowers (hdecoder c inputs expected) k index)
    config k

/-! ### The record -/

/-- A call of a decoder for a coder of a folder, with what it answered. -/
structure CoderCall where
  /-- The number of the coder in the folder. -/
  index : Nat
  coder : Coder
  inputs : List Bytes
  expected : Option Nat
  answer : Except DecoderFault Bytes

/-- A decoder that records that it is called for the coder of a number. -/
def Decoder.logged (decoder : Decoder σ) (index : Nat) : Decoder (σ × List CoderCall) :=
  fun coder inputs expected t =>
    let (answer, s) := decoder coder inputs expected t.1
    (answer, s, t.2 ++ [{ index, coder, inputs, expected, answer }])

/-- A source beside a record. -/
def Source.unlogged (source : Source σ) : Source (σ × List CoderCall) :=
  source.onPart Prod.fst fun s t => (s, t.2)

/-- Runs coders of a folder by a decoder that records each call. -/
def FolderJob.runLogged (folder : Nat) (decoder : Decoder σ) :
    FolderJob.CoderRun (σ × List CoderCall) :=
  fun index => FolderJob.runBy folder (decoder.logged index) index

/-- Decodes a folder and records the calls of the decoder. -/
def decodeFolderLogged (a : Archive) (m : StreamMap) (source : Source σ) (decoder : Decoder σ)
    (config : Config) (k : Nat) : FolderM (σ × List CoderCall) Bytes :=
  decodeFolderBy a m source.unlogged (FolderJob.runLogged k decoder) config k

/-- **The record changes nothing.** -/
theorem decodeFolderLogged_lowers (a : Archive) (m : StreamMap) (source : Source σ)
    (decoder : Decoder σ) (config : Config) (k : Nat) :
    Lowers Prod.fst (decodeFolderLogged a m source decoder config k)
      (decodeFolder a m source decoder config k) :=
  decodeFolderBy_lowers Prod.fst a m (fun _ _ _ => rfl)
    (fun index _ _ _ => FolderJob.runBy_lowers (fun _ => rfl) k index) config k

end SolidArchive
