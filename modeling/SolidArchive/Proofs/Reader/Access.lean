import SolidArchive.Proofs.Reader.Slices
import SolidArchive.Proofs.Reader.Uses

/-!
# What uses come to

Whatever a reader is used for, as long as one worker does it, is put together from four things that
are done with folders: their output is got, they are decoded past the cache, they are forgotten, and
the outside is asked whether to go on. An `Access` is any way of doing these four over any state,
and `Access.use` puts together what a use comes to from them. The reader itself is an access, over
its sessions (`Reader.access`), and uses of it are put together so (`Reader.Use.answer_eq`).

So readers can be compared with something simpler by comparing the four: if two ways of access keep
to each other (`Access.KeepsTo`), any number of uses comes to the same by both
(`Access.KeepsTo.answers`). Folders outside the archive are never asked for, and need not be looked
at.
-/

namespace SolidArchive

variable {σ τ υ α β : Type}

/-! ### Two computations that agree -/

/-- From states that are related, two computations come to the same and to related states. -/
def Agree (R : τ → υ → Prop) (x : StateM τ α) (y : StateM υ α) : Prop :=
  ∀ t u, R t u → (x t).1 = (y u).1 ∧ R (x t).2 (y u).2

namespace Agree

variable {R : τ → υ → Prop} {x : StateM τ α} {y : StateM υ α} {f : α → StateM τ β}
  {g : α → StateM υ β}

theorem pure (a : α) : Agree R (Pure.pure a) (Pure.pure a) := fun _ _ h => ⟨rfl, h⟩

theorem bind (h : Agree R x y) (hf : ∀ a, Agree R (f a) (g a)) :
    Agree R (x >>= f) (y >>= g) := by
  intro t u hR
  obtain ⟨hanswer, hR'⟩ := h t u hR
  rw [runState_bind, runState_bind, ← hanswer]
  exact hf _ _ _ hR'

theorem trans {ρ : Type} {R' : υ → ρ → Prop} {z : StateM ρ α} (h : Agree R x y)
    (h' : Agree R' y z) : Agree (Relation.Comp R R') x z := by
  rintro t w ⟨u, hR, hR'⟩
  obtain ⟨hanswer, hnext⟩ := h t u hR
  obtain ⟨hanswer', hnext'⟩ := h' u w hR'
  exact ⟨hanswer.trans hanswer', _, hnext, hnext'⟩

theorem map (h : Agree R x y) (f : α → β) : Agree R (f <$> x) (f <$> y) := by
  intro t u hR
  obtain ⟨hanswer, hR'⟩ := h t u hR
  exact ⟨congrArg f hanswer, hR'⟩

/-- A computation agrees with itself, and keeps what it keeps. -/
theorem self {P : τ → Prop} (h : ∀ t, P t → P (x t).2) :
    Agree (fun t t' => t = t' ∧ P t) x x := by
  rintro t _ ⟨rfl, hP⟩
  exact ⟨rfl, rfl, h t hP⟩

theorem mapM {ι : Type} {f : ι → StateM τ α} {g : ι → StateM υ α} (h : ∀ i, Agree R (f i) (g i))
    (is : List ι) : Agree R (is.mapM f) (is.mapM g) := by
  induction is with
  | nil => exact pure []
  | cons i is ih =>
    rw [List.mapM_cons, List.mapM_cons]
    exact (h i).bind fun a => ih.bind fun as => pure (a :: as)

end Agree

/-! ### Uses by some access -/

namespace Reader

theorem lt_of_mem_backedFolders {r : Reader σ} (hmap : StreamMap.derive r.archive = .ok r.map)
    {folder : Nat} (h : folder ∈ r.map.backedFolders) : folder < r.archive.folders.length := by
  have hlt := List.mem_range.mp (List.mem_filter.mp h).1
  rwa [length_map_folders hmap] at hlt

theorem nodup_backedFolders (map : StreamMap) : map.backedFolders.Nodup :=
  List.nodup_range.filter _

/-- A way to get at the folders of a reader, over a state of any kind. -/
structure Access (τ σ : Type) where
  /-- The output of a folder, if one does not wait for it for ever. -/
  output : Nat → StateM τ (Option Outcome)
  decode : Nat → StateM τ Outcome
  release : Nat → StateM τ (Except ReaderFault Unit)
  ask : StateM σ Bool → StateM τ Bool

/-- What a use comes to. -/
inductive Answer where
  | file (answer : Except ReaderFault ExtractedFile)
  | files (answer : Except ReaderFault (List ExtractResult))
  | output (answer : Except ReaderFault Bytes)
  | released (answer : Except ReaderFault Unit)
  deriving DecidableEq

end Reader

open Reader

/-- What extracting a file comes to, from what its folder has come to. -/
def FileSpan.answer (e : FileSpan) (policy : CrcPolicy) :
    Option Outcome → Except ReaderFault ExtractedFile
  | none => .error .stalled
  | some (.error fault) => .error (.folder fault)
  | some (.ok output) =>
    match e.cut output with
    | .error error => .error (.folder (.decode error))
    | .ok extracted =>
      match extracted.integrityError?, policy with
      | some error, .refuse => .error (.integrity error)
      | _, _ => .ok extracted

namespace Reader

namespace Access

/-- Extracts a file. -/
def extract (x : Access τ σ) (r : Reader σ) (file : Nat) :
    StateM τ (Except ReaderFault ExtractedFile) :=
  if r.archive.entries.length ≤ file then pure (.error (.fileOutOfRange file))
  else
    match r.map.findFile file with
    | none => pure (.ok { file })
    | some e => e.answer r.config.crcPolicy <$> x.output e.folder

/-- Gets folders one after another. -/
def gather (x : Access τ σ) (cancelled : StateM σ Bool) :
    List Nat → List FolderResult → StateM τ (Except ReaderFault (List FolderResult))
  | [], results => pure (.ok results)
  | folder :: folders, results => do
    if ← x.ask cancelled then
      gather x cancelled folders (results.set folder .cancelled)
    else
      match ← x.output folder with
      | none => pure (.error .stalled)
      | some outcome =>
        match FolderResult.ofOutcome outcome with
        | .ok result => gather x cancelled folders (results.set folder result)
        | .error fault => pure (.error (.folder fault))

/-- What is cut out of the folders in the end. -/
def collect (r : Reader σ) : Except ReaderFault (List FolderResult) →
    Except ReaderFault (List ExtractResult)
  | .error fault => .error fault
  | .ok results => (collectFiles results r.map.files).mapError fun error => .folder (.decode error)

/-- Extracts all files. -/
def extractAll (x : Access τ σ) (r : Reader σ) (cancelled : StateM σ Bool) :
    StateM τ (Except ReaderFault (List ExtractResult)) :=
  collect r <$> x.gather cancelled r.map.backedFolders
    (List.replicate r.archive.folders.length .untouched)

/-- Decodes a folder past the cache. -/
def decodeUncached (x : Access τ σ) (r : Reader σ) (folder : Nat) :
    StateM τ (Except ReaderFault Bytes) :=
  if r.archive.folders.length ≤ folder then pure (.error (.folderOutOfRange folder))
  else (Except.mapError .folder) <$> x.decode folder

/-- A use of the reader. -/
def use (x : Access τ σ) (r : Reader σ) : Use σ → StateM τ Answer
  | .extract file => .file <$> x.extract r file
  | .extractAll cancelled => .files <$> x.extractAll r cancelled
  | .decodeUncached folder => .output <$> x.decodeUncached r folder
  | .releaseFolder folder => .released <$> x.release folder

/-- What uses come to, one after another. -/
def answers (x : Access τ σ) (r : Reader σ) (uses : List (Use σ)) : StateM τ (List Answer) :=
  uses.mapM (x.use r)

/-! ### Access that keeps to another -/

/-- Two ways of access do the same from related states, with folders of the archive. -/
structure KeepsTo (x : Access τ σ) (y : Access υ σ) (r : Reader σ) (R : τ → υ → Prop) : Prop where
  output : ∀ folder < r.archive.folders.length, Agree R (x.output folder) (y.output folder)
  decode : ∀ folder < r.archive.folders.length, Agree R (x.decode folder) (y.decode folder)
  release : ∀ folder, Agree R (x.release folder) (y.release folder)
  ask : ∀ cancelled, Agree R (x.ask cancelled) (y.ask cancelled)

namespace KeepsTo

variable {x : Access τ σ} {y : Access υ σ} {r : Reader σ} {R : τ → υ → Prop}

theorem trans {ρ : Type} {R' : υ → ρ → Prop} {z : Access ρ σ} (h : x.KeepsTo y r R)
    (h' : y.KeepsTo z r R') : x.KeepsTo z r (Relation.Comp R R') where
  output folder hfolder := (h.output folder hfolder).trans (h'.output folder hfolder)
  decode folder hfolder := (h.decode folder hfolder).trans (h'.decode folder hfolder)
  release folder := (h.release folder).trans (h'.release folder)
  ask cancelled := (h.ask cancelled).trans (h'.ask cancelled)

theorem extract (h : x.KeepsTo y r R) (hmap : StreamMap.derive r.archive = .ok r.map)
    (file : Nat) : Agree R (x.extract r file) (y.extract r file) := by
  have hpart := map_partitions hmap
  unfold Access.extract
  split
  · exact .pure _
  · split
    · exact .pure _
    · next e hfile =>
      have he := ((hpart.findFile file e).mp hfile).1
      have hlt := hpart.folder_lt e he
      rw [length_map_folders hmap] at hlt
      exact (h.output e.folder hlt).map _

theorem gather (h : x.KeepsTo y r R) (cancelled : StateM σ Bool) {folders : List Nat}
    (hfolders : ∀ folder ∈ folders, folder < r.archive.folders.length)
    (results : List FolderResult) :
    Agree R (x.gather cancelled folders results) (y.gather cancelled folders results) := by
  -- both are told the same, get the same, and stop at the same folder
  induction folders generalizing results with
  | nil => exact .pure _
  | cons folder folders ih =>
    obtain ⟨hfolder, hrest⟩ := List.forall_mem_cons.mp hfolders
    refine (h.ask cancelled).bind fun stop => ?_
    cases stop with
    | true => exact ih hrest _
    | false =>
      refine (h.output folder hfolder).bind fun outcome => ?_
      cases outcome with
      | none => exact .pure _
      | some outcome =>
        dsimp only
        cases FolderResult.ofOutcome outcome with
        | ok result => exact ih hrest _
        | error fault => exact .pure _

/-- **A use** comes to the same by both. -/
theorem use (h : x.KeepsTo y r R) (hmap : StreamMap.derive r.archive = .ok r.map)
    (use : Use σ) : Agree R (x.use r use) (y.use r use) := by
  cases use with
  | extract file => exact (h.extract hmap file).map _
  | extractAll cancelled =>
    exact ((h.gather cancelled (fun _ => lt_of_mem_backedFolders hmap) _).map _).map _
  | decodeUncached folder =>
    refine Agree.map ?_ _
    unfold Access.decodeUncached
    split
    · exact .pure _
    · next hfolder => exact (h.decode folder (Nat.not_le.mp hfolder)).map _
  | releaseFolder folder => exact (h.release folder).map _

/-- And so does any number of them. -/
theorem answers (h : x.KeepsTo y r R) (hmap : StreamMap.derive r.archive = .ok r.map)
    (uses : List (Use σ)) : Agree R (x.answers r uses) (y.answers r uses) :=
  Agree.mapM (h.use hmap) uses

end KeepsTo

end Access

/-! ### The reader itself -/

/-- A reader as a way to get at its folders. -/
def access (r : Reader σ) : Access (Session σ) σ where
  output := r.folderOutcome
  decode := r.decode
  release folder := (r.releaseFolder folder).run
  ask := Session.onOutside

/-- What a use of a reader comes to. -/
def Use.answer (r : Reader σ) : Use σ → StateM (Session σ) Answer
  | .extract file => .file <$> (r.extract file).run
  | .extractAll cancelled => .files <$> (r.extractAll cancelled).run
  | .decodeUncached folder => .output <$> (r.decodeUncached folder).run
  | .releaseFolder folder => .released <$> (r.releaseFolder folder).run

/-- What uses of a reader come to, one after another. -/
def answers (r : Reader σ) (uses : List (Use σ)) : StateM (Session σ) (List Answer) :=
  uses.mapM (Use.answer r)

variable {r : Reader σ} {s : Session σ}

theorem Use.answer_snd (use : Use σ) : (use.answer r s).2 = use.after r s := by
  cases use with
  | _ => rfl

theorem answers_snd (uses : List (Use σ)) : (r.answers uses s).2 = r.after s uses := by
  induction uses generalizing s with
  | nil => rfl
  | cons use uses ih =>
    unfold answers
    rw [List.mapM_cons, runState_bind, runState_bind]
    show (r.answers uses (use.answer r s).2).2 = r.after s (use :: uses)
    rw [ih, Use.answer_snd]
    rfl

/-- The output of a folder is what there is of it. -/
theorem folderOutput_run (r : Reader σ) (folder : Nat) (s : Session σ) :
    (r.folderOutput folder).run s = (match (r.folderOutcome folder s).1 with
      | none => .error .stalled
      | some (.error fault) => .error (.folder fault)
      | some (.ok output) => .ok output, (r.folderOutcome folder s).2) := by
  unfold folderOutput
  rw [runExcept_bind, runExcept_liftM]
  dsimp only
  match (r.folderOutcome folder s).1 with
  | none => rfl
  | some (.error fault) => rfl
  | some (.ok output) => rfl

theorem extract_access (r : Reader σ) (file : Nat) (s : Session σ) :
    (r.extract file).run s = r.access.extract r file s := by
  unfold extract Access.extract
  split
  · rfl
  · cases r.map.findFile file with
    | none => rfl
    | some e =>
      show _ = (e.answer r.config.crcPolicy (r.folderOutcome e.folder s).1,
        (r.folderOutcome e.folder s).2)
      rw [runExcept_bind, folderOutput_run]
      -- what is done with an outcome does not come back to the cache
      match (r.folderOutcome e.folder s).1 with
      | none => rfl
      | some (.error fault) => rfl
      | some (.ok output) =>
        dsimp only [FileSpan.answer]
        cases e.cut output with
        | error error => rfl
        | ok extracted =>
          dsimp only
          cases extracted.integrityError? with
          | none => rfl
          | some error =>
            cases r.config.crcPolicy with
            | refuse => rfl
            | report => rfl

theorem decodeOne_run (r : Reader σ) (cancelled : StateM σ Bool) (folder : Nat) (s : Session σ) :
    (r.decodeOne cancelled folder).run s =
      if (cancelled s.outside).1 then (.ok .cancelled, (Session.onOutside cancelled s).2)
      else
        let got := r.folderOutcome folder (Session.onOutside cancelled s).2
        (match got.1 with
          | none => .error .stalled
          | some outcome => (FolderResult.ofOutcome outcome).mapError .folder, got.2) := by
  unfold decodeOne
  rw [runExcept_bind, runExcept_liftM]
  dsimp only
  have hasked : (Session.onOutside cancelled s).1 = (cancelled s.outside).1 := rfl
  rw [hasked]
  cases (cancelled s.outside).1 with
  | true => rfl
  | false =>
    rw [if_neg nofun, if_neg nofun, runExcept_bind, runExcept_liftM]
    dsimp only
    cases (r.folderOutcome folder (Session.onOutside cancelled s).2).1 with
    | none => rfl
    | some outcome =>
      dsimp only
      cases FolderResult.ofOutcome outcome with
      | ok result => rfl
      | error fault => rfl

/-- One worker gets folders one after another. -/
theorem decodeInOrder_access (r : Reader σ) (cancelled : StateM σ Bool) (folders : List Nat)
    (results : List FolderResult) (s : Session σ) :
    (r.decodeInOrder cancelled folders results).run s =
      r.access.gather cancelled folders results s := by
  induction folders generalizing results s with
  | nil => rfl
  | cons folder folders ih =>
    rw [decodeInOrder, runExcept_bind, decodeOne_run, Access.gather, runState_bind]
    show _ = (if (cancelled s.outside).1 = true then _ else _ : StateM (Session σ) _) _
    -- a folder is skipped, decoded, or ends it, on both sides
    cases (cancelled s.outside).1 with
    | true => exact ih _ _
    | false =>
      have hgot : r.access.output folder (r.access.ask cancelled s).2 =
          r.folderOutcome folder (Session.onOutside cancelled s).2 := rfl
      rw [if_neg nofun, if_neg nofun, runState_bind, hgot]
      rcases r.folderOutcome folder (Session.onOutside cancelled s).2 with ⟨_ | outcome, s'⟩
      · rfl
      · dsimp only
        cases FolderResult.ofOutcome outcome with
        | ok result => exact ih _ _
        | error fault => rfl

theorem extractAll_access (r : Reader σ) (hworkers : r.workerCount r.map.backedFolders.length ≤ 1)
    (cancelled : StateM σ Bool) (s : Session σ) :
    (r.extractAll cancelled).run s = r.access.extractAll r cancelled s := by
  have hall : (r.decodeAll cancelled).run s = r.access.gather cancelled r.map.backedFolders
      (List.replicate r.archive.folders.length .untouched) s := by
    rw [decodeAll, if_pos hworkers, decodeInOrder_access]
  unfold extractAll Access.extractAll
  rw [runExcept_bind, hall]
  show _ = (Access.collect r (r.access.gather cancelled _ _ s).1,
    (r.access.gather cancelled _ _ s).2)
  rcases r.access.gather cancelled r.map.backedFolders
    (List.replicate r.archive.folders.length .untouched) s with ⟨fault | results, s'⟩
  · rfl
  · dsimp only [Access.collect]
    cases collectFiles results r.map.files with
    | error error => rfl
    | ok extracted => rfl

theorem decodeUncached_access (r : Reader σ) (folder : Nat) (s : Session σ) :
    (r.decodeUncached folder).run s = r.access.decodeUncached r folder s := by
  unfold decodeUncached Access.decodeUncached
  split
  · rfl
  · show _ = ((r.decode folder s).1.mapError ReaderFault.folder, (r.decode folder s).2)
    rw [runExcept_bind, runExcept_liftM]
    dsimp only
    cases (r.decode folder s).1 with
    | error fault => rfl
    | ok output => rfl

/-- Releasing a folder changes the cache and nothing else. -/
theorem releaseFolder_run (r : Reader σ) (folder : Nat) (s : Session σ) :
    (r.releaseFolder folder).run s =
      if s.cache.slots.length ≤ folder then (.error (.folderOutOfRange folder), s)
      else (.ok (), { s with cache := s.cache.release folder }) := by
  have hget : (get : ReaderM σ (Session σ)).run s = (.ok s, s) := rfl
  unfold releaseFolder
  rw [runExcept_bind, hget]
  dsimp only
  split
  · rfl
  · rfl

/-- **Uses of a reader** are put together from what is done with folders, unless several workers are
needed. -/
theorem Use.answer_eq_use (r : Reader σ) (use : Use σ)
    (hworkers : (∃ cancelled, use = .extractAll cancelled) →
      r.workerCount r.map.backedFolders.length ≤ 1) : use.answer r = r.access.use r use := by
  funext s
  cases use with
  | extract file =>
    show (Answer.file ((r.extract file).run s).1, ((r.extract file).run s).2) = _
    rw [extract_access]
    rfl
  | extractAll cancelled =>
    show (Answer.files ((r.extractAll cancelled).run s).1, ((r.extractAll cancelled).run s).2) = _
    rw [extractAll_access r (hworkers ⟨cancelled, rfl⟩)]
    rfl
  | decodeUncached folder =>
    show (Answer.output ((r.decodeUncached folder).run s).1,
      ((r.decodeUncached folder).run s).2) = _
    rw [decodeUncached_access]
    rfl
  | releaseFolder folder => rfl

/-- All uses of a reader with one worker are. -/
theorem Use.answer_eq (r : Reader σ) (hworkers : r.workerCount r.map.backedFolders.length ≤ 1)
    (use : Use σ) : use.answer r = r.access.use r use :=
  use.answer_eq_use r fun _ => hworkers

theorem answers_eq (r : Reader σ) (hworkers : r.workerCount r.map.backedFolders.length ≤ 1)
    (uses : List (Use σ)) : r.answers uses = r.access.answers r uses := by
  have huse : Use.answer r = r.access.use r := funext (Use.answer_eq r hworkers)
  rw [answers, huse]
  rfl

end Reader

end SolidArchive
