import SolidArchive.Proofs.Reader.Scene
import SolidArchive.Reader.Workers

/-!
# The results of workers

All folders that have files are decoded, by one worker or by several under some schedule. In the end
every one of them has a result, and the result stands for the folder: it is an outcome that decoding
the folder can have, or somebody has said that the extraction is cancelled
(`Reader.decodeAll_ensures`).

With several workers these are two invariants of the pool, and `Pool.Move` says once what a step of
a worker can be. Nothing untrue is written (`Pool.Sound`), for the calls of the workers are sound
among each other as all calls are. And nothing is forgotten (`Pool.Accounts`): a folder that has
been taken has a result, or somebody is at it, or there is a fault, and in the last case the pool
gives no results at all.
-/

namespace SolidArchive

open Relation

variable {σ : Type} {r : Reader σ} {cancelled : StateM σ Bool} {c c' : Scene σ}

/-- The second part of a computation starts in the state in which the first one ends. -/
theorem runState_bind {τ α β : Type} (x : StateM τ α) (f : α → StateM τ β) (t : τ) :
    (x >>= f) t = f (x t).1 (x t).2 := rfl

/-! ### Results -/

/-- What the result of a folder says. Bytes and errors are outcomes that decoding the folder can
have (`Reader.CanDecode`), `.cancelled` says that `cancelled` answers yes in some state, and
`.untouched` says nothing. -/
def FolderResult.Stands (r : Reader σ) (cancelled : StateM σ Bool) (folder : Nat) :
    FolderResult → Prop
  | .untouched => True
  | .cancelled => ∃ outside, (cancelled outside).1 = true
  | .failed error => r.CanDecode folder (.error (.decode error))
  | .decoded output => r.CanDecode folder (.ok output)

/-- The result into which `FolderResult.ofOutcome` turns an outcome of the folder stands for it. -/
theorem FolderResult.stands_of_ofOutcome {folder : Nat} {outcome : Outcome} {result : FolderResult}
    (h : FolderResult.ofOutcome outcome = .ok result) (hcan : r.CanDecode folder outcome) :
    result.Stands r cancelled folder := by
  match outcome with
  | .ok output =>
    cases h
    exact hcan
  | .error (.decode error) =>
    cases h
    exact hcan
  | .error (.structural error) => cases h
  | .error (.foreign thrown) => cases h

/-- Only bytes and decode errors become results; structural errors and foreign throws end the
extraction. -/
theorem FolderResult.ofOutcome_ok {outcome : Outcome} {result : FolderResult}
    (h : FolderResult.ofOutcome outcome = .ok result) :
    (∃ output, result = .decoded output) ∨ ∃ error, result = .failed error := by
  match outcome with
  | .ok output => exact .inl ⟨output, (Except.ok.inj h).symm⟩
  | .error (.decode error) => exact .inr ⟨error, (Except.ok.inj h).symm⟩
  | .error (.structural error) => cases h
  | .error (.foreign thrown) => cases h

/-- So `.untouched` marks the folders that nobody has decoded or skipped, -/
theorem FolderResult.ne_untouched_of_ofOutcome {outcome : Outcome} {result : FolderResult}
    (h : FolderResult.ofOutcome outcome = .ok result) : result ≠ .untouched := by
  obtain ⟨output, rfl⟩ | ⟨error, rfl⟩ := ofOutcome_ok h
  · exact nofun
  · exact nofun

/-- and `.cancelled` marks those that were skipped. -/
theorem FolderResult.ne_cancelled_of_ofOutcome {outcome : Outcome} {result : FolderResult}
    (h : FolderResult.ofOutcome outcome = .ok result) : result ≠ .cancelled := by
  obtain ⟨output, rfl⟩ | ⟨error, rfl⟩ := ofOutcome_ok h
  · exact nofun
  · exact nofun

/-- What ends the extraction is passed on as it is. -/
theorem FolderResult.ofOutcome_error {outcome : Outcome} {fault : FolderFault}
    (h : FolderResult.ofOutcome outcome = .error fault) : outcome = .error fault := by
  match outcome with
  | .ok output => cases h
  | .error (.decode error) => cases h
  | .error (.structural error) =>
    cases h
    rfl
  | .error (.foreign thrown) =>
    cases h
    rfl

namespace Reader

/-- A fault that ends the extraction of some folders: one of them can come to it, and it is no
decode error. -/
def Ends (r : Reader σ) (folders : List Nat) (fault : FolderFault) : Prop :=
  ∃ folder ∈ folders, r.CanDecode folder (.error fault) ∧
    FolderResult.ofOutcome (.error fault) = .error fault

/-- How decoding many folders may fail: as one of them does, or because it waits for others. -/
def Fails (r : Reader σ) (folders : List Nat) (fault : ReaderFault) : Prop :=
  fault = .stalled ∨ ∃ own, fault = .folder own ∧ r.Ends folders own

/-- The results of all folders stand (`FolderResult.Stands`), and each of those that were to be
decoded has one. -/
structure Gathered (r : Reader σ) (cancelled : StateM σ Bool) (folders : List Nat)
    (results : List FolderResult) : Prop where
  /-- There is a place for each folder of the archive, not only for those to be decoded. -/
  length_eq : results.length = r.archive.folders.length
  stands : ∀ {folder : Nat} {result : FolderResult}, results[folder]? = some result →
    result.Stands r cancelled folder
  done : ∀ folder ∈ folders, results[folder]? ≠ some .untouched

/-- The results with which an extraction begins: they say nothing, and none has been asked for. -/
theorem Gathered.none (r : Reader σ) (cancelled : StateM σ Bool) :
    r.Gathered cancelled [] (List.replicate r.archive.folders.length .untouched) where
  length_eq := List.length_replicate
  stands {folder result} h := by
    obtain ⟨-, rfl⟩ := List.mem_replicate.mp (List.mem_of_getElem? h)
    trivial
  done _ h := nomatch h

/-- When a result that stands is written, its folder is one more of those that have one. -/
theorem Gathered.set {folders : List Nat} {results : List FolderResult} {folder : Nat}
    {result : FolderResult} (h : r.Gathered cancelled folders results)
    (hstands : result.Stands r cancelled folder) (hresult : result ≠ .untouched) :
    r.Gathered cancelled (folder :: folders) (results.set folder result) where
  length_eq := List.length_set.trans h.length_eq
  stands {other result'} hother := by
    -- the result is the new one, or one of another folder that stood before
    rw [List.getElem?_set] at hother
    split at hother
    · next heq =>
      subst heq
      split at hother
      · obtain rfl := Option.some.inj hother
        exact hstands
      · cases hother
    · exact h.stands hother
  done other hother huntouched := by
    rw [List.getElem?_set] at huntouched
    split at huntouched
    · split at huntouched
      · exact hresult (Option.some.inj huntouched)
      · cases huntouched
    · next hne =>
      rcases List.mem_cons.mp hother with rfl | hother
      · exact hne rfl
      · exact h.done other hother huntouched

/-- `Gathered` asks for less when fewer folders were to be decoded. -/
theorem Gathered.mono {folders folders' : List Nat} {results : List FolderResult}
    (h : r.Gathered cancelled folders results) (hsub : ∀ folder ∈ folders', folder ∈ folders) :
    r.Gathered cancelled folders' results where
  length_eq := h.length_eq
  stands := h.stands
  done folder hfolder := h.done folder (hsub folder hfolder)

/-! ### One worker -/

/-- Asking whether the extraction is cancelled leaves the cache alone. -/
theorem leadsTo_onOutside (c : Scene σ) {α : Type} (x : StateM σ α) :
    r.LeadsTo c (Session.onOutside x c.session).2 :=
  ⟨c.setOutside (x c.session.outside).2, rfl, .single (.outside c _)⟩

/-- `Reader.decodeOne` gives a result that stands for the folder, `.cancelled` if the flag is up and
that of an outcome otherwise; it throws only if it has to wait (`.stalled`), or if the outcome ends
the extraction (`Reader.Fails`). -/
theorem decodeOne_ensures (hr : r.ActsByAdvances) (hc : r.Reachable c) {folder : Nat}
    {folders : List Nat} (hmem : folder ∈ folders) :
    Ensures (r.decodeOne cancelled folder) c.session
      (fun result s' => r.LeadsTo c s' ∧ result.Stands r cancelled folder ∧ result ≠ .untouched)
      (fun fault s' => r.LeadsTo c s' ∧ r.Fails folders fault) := by
  obtain ⟨c₁, hsession₁, hadvances₁⟩ := leadsTo_onOutside (r := r) c cancelled
  -- first it is asked whether to stop
  have hask : Ensures ((Session.onOutside cancelled : StateM (Session σ) Bool) : ReaderM σ Bool)
      c.session (fun answer s' => answer = (cancelled c.session.outside).1 ∧ s' = c₁.session)
      (fun fault s' => r.LeadsTo c s' ∧ r.Fails folders fault) := ⟨rfl, hsession₁.symm⟩
  unfold decodeOne
  refine hask.bind ?_
  rintro answer s₁ ⟨hanswer, rfl⟩
  cases answer with
  | true => exact Ensures.pure ⟨hadvances₁.leadsTo, ⟨_, hanswer.symm⟩, nofun⟩
  | false =>
    obtain ⟨c₂, hsession₂, hadvances₂, hsound⟩ :=
      folderOutcome_sound hr (hc.advances hadvances₁) folder
    have hleads : r.LeadsTo c c₂.session := Advances.leadsTo (hadvances₁.trans hadvances₂)
    -- then the folder is asked for, and what comes is what decoding it can give
    have hget : Ensures (r.folderOutcome folder : ReaderM σ (Option Outcome)) c₁.session
        (fun got s' => (∀ outcome, got = some outcome → r.CanDecode folder outcome) ∧
          s' = c₂.session)
        (fun fault s' => r.LeadsTo c s' ∧ r.Fails folders fault) := ⟨hsound, hsession₂.symm⟩
    refine hget.bind ?_
    rintro got s₂ ⟨hcan, rfl⟩
    cases got with
    | none => exact Ensures.throw ⟨hleads, .inl rfl⟩
    | some outcome =>
      dsimp only
      cases hresult : FolderResult.ofOutcome outcome with
      | error fault =>
        obtain rfl := FolderResult.ofOutcome_error hresult
        exact Ensures.throw ⟨hleads, .inr ⟨fault, rfl, folder, hmem, hcan _ rfl, hresult⟩⟩
      | ok result =>
        have hstands : result.Stands r cancelled folder :=
          FolderResult.stands_of_ofOutcome hresult (hcan outcome rfl)
        exact Ensures.pure ⟨hleads, hstands, FolderResult.ne_untouched_of_ofOutcome hresult⟩

/-- `Reader.decodeInOrder` goes on from results that stand for the folders in `before`. -/
theorem decodeInOrder_ensures (hr : r.ActsByAdvances) (hc : r.Reachable c) {folders all : List Nat}
    (hall : ∀ folder ∈ folders, folder ∈ all) {before : List Nat} {results : List FolderResult}
    (h : r.Gathered cancelled before results) :
    Ensures (r.decodeInOrder cancelled folders results) c.session
      (fun results' s' => r.LeadsTo c s' ∧
        r.Gathered cancelled (folders.reverse ++ before) results')
      (fun fault s' => r.LeadsTo c s' ∧ r.Fails all fault) := by
  -- after each folder the results stand for one folder more
  induction folders generalizing c before results with
  | nil => exact Ensures.pure ⟨Advances.leadsTo .refl, h⟩
  | cons folder folders ih =>
    obtain ⟨hfolder, hfolders⟩ := List.forall_mem_cons.mp hall
    refine (decodeOne_ensures hr hc hfolder).bind ?_
    rintro result s₁ ⟨⟨c₁, rfl, hadvances⟩, hstands, hresult⟩
    refine (ih (hc.advances hadvances) hfolders (h.set hstands hresult)).mono ?_ ?_
    · rintro results' s₂ ⟨hleads, hgathered⟩
      rw [List.reverse_cons, List.append_assoc]
      exact ⟨hleads.after hadvances, hgathered⟩
    · rintro fault s₂ ⟨hleads, hfails⟩
      exact ⟨hleads.after hadvances, hfails⟩

/-- A single worker that comes through all folders has a result of each of them. -/
theorem decodeInOrder_gathers (hr : r.ActsByAdvances) (hc : r.Reachable c) (folders : List Nat) :
    Ensures (r.decodeInOrder cancelled folders (List.replicate r.archive.folders.length .untouched))
      c.session
      (fun results s' => r.LeadsTo c s' ∧ r.Gathered cancelled folders results)
      (fun fault s' => r.LeadsTo c s' ∧ r.Fails folders fault) := by
  have hnone := Gathered.none r cancelled
  refine (decodeInOrder_ensures hr hc (fun _ h => h) hnone).mono ?_ fun _ _ h => h
  rintro results s' ⟨hleads, hgathered⟩
  refine ⟨hleads, hgathered.mono fun folder hfolder => ?_⟩
  exact List.mem_append_left _ (List.mem_reverse.mpr hfolder)

end Reader

/-! ### Steps of workers -/

namespace Pool

variable {folders : List Nat} {p p' : Pool} {number : Nat} {s s' : Session σ} {worker : Worker}

@[simp] theorem workers_setWorker (p : Pool) (number : Nat) (worker : Worker) :
    (p.setWorker number worker).workers = p.workers.set number worker := rfl

@[simp] theorem next_setWorker (p : Pool) (number : Nat) (worker : Worker) :
    (p.setWorker number worker).next = p.next := rfl

/-- What a worker does next, with the pool and the session that it leaves. -/
inductive Move (r : Reader σ) (cancelled : StateM σ Bool) (folders : List Nat) (p : Pool)
    (number : Nat) (s : Session σ) : Worker → Pool → Session σ → Prop where
  /-- Another worker has raised the flag `Pool.stop`: it is done. -/
  | heed (h : p.stop = true) :
    Move r cancelled folders p number s .checking (p.setWorker number .idle) s
  /-- Nobody has raised the flag: it goes for the next folder. -/
  | goOn (h : p.stop = false) :
    Move r cancelled folders p number s .checking (p.setWorker number .taking) s
  /-- It counts on, and has the folder at which the counter was. -/
  | take {folder : Nat} (h : folders[p.next]? = some folder) :
    Move r cancelled folders p number s .taking
      ({ p with next := p.next + 1 }.setWorker number (.starting folder)) s
  /-- The counter has passed the last folder: it is done. -/
  | leave (h : folders[p.next]? = none) :
    Move r cancelled folders p number s .taking
      ({ p with next := p.next + 1 }.setWorker number .idle) s
  /-- The extraction is cancelled, which becomes the result of the folder. -/
  | skip {folder : Nat} (h : (cancelled s.outside).1 = true) :
    Move r cancelled folders p number s (.starting folder)
      ((p.setResult folder .cancelled).setWorker number .checking) (Session.onOutside cancelled s).2
  /-- It is not, and the worker makes a call. -/
  | call {folder : Nat} (h : (cancelled s.outside).1 = false) :
    Move r cancelled folders p number s (.starting folder)
      (p.setWorker number (.calling folder .requesting)) (Session.onOutside cancelled s).2
  /-- It takes a step of its call, which is not over yet. -/
  | carryOn {folder : Nat} {call : Reader.Call} (h : (call.step r folder s).1.outcome? = none) :
    Move r cancelled folders p number s (.calling folder call)
      (p.setWorker number (.calling folder (call.step r folder s).1)) (call.step r folder s).2
  /-- The call is over, and its outcome becomes the result of the folder. -/
  | result {folder : Nat} {call : Reader.Call} {outcome : Outcome} {result : FolderResult}
    (h : (call.step r folder s).1.outcome? = some outcome)
    (hresult : FolderResult.ofOutcome outcome = .ok result) :
    Move r cancelled folders p number s (.calling folder call)
      ((p.setResult folder result).setWorker number .checking) (call.step r folder s).2
  /-- The call is over, and its outcome ends the extraction. -/
  | fault {folder : Nat} {call : Reader.Call} {fault : FolderFault}
    (h : (call.step r folder s).1.outcome? = some (.error fault))
    (hfault : FolderResult.ofOutcome (.error fault) = .error fault) :
    Move r cancelled folders p number s (.calling folder call)
      (p.setWorker number (.noting fault)) (call.step r folder s).2
  /-- The fault is kept if it is the first. -/
  | note (fault : FolderFault) :
    Move r cancelled folders p number s (.noting fault)
      ({ p with firstFault := p.firstFault <|> some fault }.setWorker number .stopping) s
  /-- The flag is raised, after the fault was kept. -/
  | halt :
    Move r cancelled folders p number s .stopping ({ p with stop := true }.setWorker number .idle) s

/-- **A step of a pool is a move of its worker**, or nothing if there is none or it is idle. -/
theorem step_move (r : Reader σ) (cancelled : StateM σ Bool) (folders : List Nat) (p : Pool)
    (number : Nat) (s : Session σ) :
    ((∀ worker, p.workers[number]? = some worker → worker = .idle) ∧
        p.step r cancelled folders number s = (p, s)) ∨
      ∃ worker p' s', p.workers[number]? = some worker ∧
        p.step r cancelled folders number s = (p', s') ∧
        Move r cancelled folders p number s worker p' s' := by
  cases hworker : p.workers[number]? with
  | none =>
    refine .inl ⟨nofun, ?_⟩
    rw [step, List.getD_eq_getElem?_getD, hworker]
    rfl
  | some worker =>
    have hget : p.workers.getD number .idle = worker := by
      rw [List.getD_eq_getElem?_getD, hworker]
      rfl
    rw [step, hget]
    -- one move, or two, for each thing that a worker can be about to do
    cases worker with
    | idle => exact .inl ⟨fun _ h => (Option.some.inj h).symm, rfl⟩
    | checking =>
      refine .inr ⟨_, _, _, rfl, Prod.mk.eta.symm, ?_⟩
      cases hstop : p.stop with
      | true => exact .heed hstop
      | false => exact .goOn hstop
    | taking =>
      refine .inr ⟨_, _, _, rfl, Prod.mk.eta.symm, ?_⟩
      dsimp only
      cases hnext : folders[p.next]? with
      | none => exact .leave hnext
      | some folder => exact .take hnext
    | starting folder =>
      refine .inr ⟨_, _, _, rfl, Prod.mk.eta.symm, ?_⟩
      dsimp only
      rw [runState_bind]
      cases hasked : (cancelled s.outside).1 with
      | true =>
        have hanswer : (Session.onOutside cancelled s).1 = true := hasked
        rw [hanswer]
        exact .skip hasked
      | false =>
        have hanswer : (Session.onOutside cancelled s).1 = false := hasked
        rw [hanswer]
        exact .call hasked
    | calling folder call =>
      refine .inr ⟨_, _, _, rfl, Prod.mk.eta.symm, ?_⟩
      dsimp only
      rw [runState_bind]
      cases houtcome : (call.step r folder s).1.outcome? with
      | none => exact .carryOn houtcome
      | some outcome =>
        dsimp only
        unfold finishCall
        cases hresult : FolderResult.ofOutcome outcome with
        | ok result => exact .result houtcome hresult
        | error fault =>
          obtain rfl := FolderResult.ofOutcome_error hresult
          exact .fault houtcome hresult
    | noting fault => exact .inr ⟨_, _, _, rfl, rfl, .note fault⟩
    | stopping => exact .inr ⟨_, _, _, rfl, rfl, .halt⟩

end Pool

/-! ### Nothing untrue is written -/

/-- What is so of a worker: the folder that it is at is one of those to be decoded, its call is
sound, and what it notes is a reason to end. -/
def Worker.Sound (r : Reader σ) (owners folders : List Nat) : Worker → Prop
  | .starting folder => folder ∈ folders
  | .calling folder call => folder ∈ folders ∧ call.Sound r owners folder
  | .noting fault => r.Ends folders fault
  | _ => True

namespace Pool

variable {folders : List Nat} {p : Pool} {worker : Worker}

/-- The invariant of what is written: each worker is sound (`Worker.Sound`), the fault that is kept
is one that a folder can come to (`Reader.Ends`), and all results stand (`Reader.Gathered`, of no
folders, as it is not said which of them have one). -/
structure Sound (r : Reader σ) (cancelled : StateM σ Bool) (folders : List Nat) (c : Scene σ)
    (p : Pool) : Prop where
  workers : ∀ worker ∈ p.workers, worker.Sound r c.owners folders
  firstFault : ∀ fault ∈ p.firstFault, r.Ends folders fault
  results : r.Gathered cancelled [] p.results

/-- A pool that starts has written nothing. -/
theorem Sound.start (r : Reader σ) (cancelled : StateM σ Bool) (folders : List Nat) (c : Scene σ)
    (workers : Nat) : (start workers r.archive.folders.length).Sound r cancelled folders c where
  workers worker hworker := by
    rw [(List.mem_replicate.mp hworker).2]
    trivial
  firstFault _ h := nomatch h
  results := Reader.Gathered.none r cancelled

/-- `Sound` looks at the scene only for the owners of tickets, by which it knows that calls are
sound, and advances of others only add owners (`Reader.Advances.owners_mono`). -/
theorem Sound.advances (h : p.Sound r cancelled folders c) (hadvances : r.Advances c c') :
    p.Sound r cancelled folders c' where
  workers worker hworker := by
    have hsound := h.workers worker hworker
    cases worker with
    | calling folder call =>
      exact ⟨hsound.1, hsound.2.mono (Reader.Advances.owners_mono hadvances)⟩
    | _ => exact hsound
  firstFault := h.firstFault
  results := h.results

/-- One worker changes, to another one that is sound. -/
theorem Sound.setWorker (h : p.Sound r cancelled folders c) (number : Nat)
    (hworker : worker.Sound r c.owners folders) :
    (p.setWorker number worker).Sound r cancelled folders c where
  workers other hother := by
    rcases List.mem_or_eq_of_mem_set hother with hother | rfl
    · exact h.workers other hother
    · exact hworker
  firstFault := h.firstFault
  results := h.results

/-- The result of one folder is written, and it stands. -/
theorem Sound.setResult (h : p.Sound r cancelled folders c) {folder : Nat} {result : FolderResult}
    (hstands : result.Stands r cancelled folder) (hresult : result ≠ .untouched) :
    (p.setResult folder result).Sound r cancelled folders c where
  workers := h.workers
  firstFault := h.firstFault
  results := (h.results.set hstands hresult).mono nofun

/-- A step of a sound pool is an advance of the scene, or none, and leaves the pool sound. By
`step_move` it is a move of one worker; the moves `skip` and `call` ask the flag, and those of a
worker that is `.calling` take a step of its call (`Reader.Call.step_sound`). -/
theorem Sound.step (hr : r.ActsByAdvances) (hc : r.Reachable c) (h : p.Sound r cancelled folders c)
    (number : Nat) :
    ∃ c', c'.session = (p.step r cancelled folders number c.session).2 ∧ r.Advances c c' ∧
      (p.step r cancelled folders number c.session).1.Sound r cancelled folders c' := by
  rcases step_move r cancelled folders p number c.session with
    ⟨-, hnone⟩ | ⟨worker, p', s', hworker, hstep, hmove⟩
  · rw [hnone]
    exact ⟨c, rfl, .refl, h⟩
  · have hown := h.workers worker (List.mem_of_getElem? hworker)
    rw [hstep]
    -- a worker that neither asks nor calls leaves the scene as it is
    have hquiet : ∀ {p' : Pool}, p'.Sound r cancelled folders c → ∃ c', c'.session = c.session ∧
        r.Advances c c' ∧ p'.Sound r cancelled folders c' := fun h' => ⟨c, rfl, .refl, h'⟩
    obtain ⟨asked, hasked, hasks⟩ := Reader.leadsTo_onOutside (r := r) c cancelled
    cases hmove with
    | heed hstop => exact hquiet (h.setWorker number trivial)
    | goOn hstop => exact hquiet (h.setWorker number trivial)
    | @take folder hnext =>
      have hcounted : ({ p with next := p.next + 1 } : Pool).Sound r cancelled folders c :=
        ⟨h.workers, h.firstFault, h.results⟩
      exact hquiet
        (hcounted.setWorker number (show folder ∈ folders from List.mem_of_getElem? hnext))
    | leave hnext =>
      have hcounted : ({ p with next := p.next + 1 } : Pool).Sound r cancelled folders c :=
        ⟨h.workers, h.firstFault, h.results⟩
      exact hquiet (hcounted.setWorker number trivial)
    | note fault =>
      have hnoted : ({ p with firstFault := p.firstFault <|> some fault } : Pool).Sound r cancelled
          folders c := by
        refine ⟨h.workers, fun first hfirst => ?_, h.results⟩
        have hfirst : (p.firstFault <|> some fault) = some first := hfirst
        cases hbefore : p.firstFault with
        | none =>
          rw [hbefore] at hfirst
          obtain rfl : fault = first := Option.some.inj hfirst
          exact hown
        | some earlier =>
          rw [hbefore] at hfirst
          obtain rfl : earlier = first := Option.some.inj hfirst
          exact h.firstFault earlier hbefore
      exact hquiet (hnoted.setWorker number trivial)
    | halt =>
      have hhalted : ({ p with stop := true } : Pool).Sound r cancelled folders c :=
        ⟨h.workers, h.firstFault, h.results⟩
      exact hquiet (hhalted.setWorker number trivial)
    | @skip folder htrue =>
      -- somebody has said so
      have hstands : FolderResult.cancelled.Stands r cancelled folder := ⟨_, htrue⟩
      have hskipped := (h.advances hasks).setResult hstands nofun
      exact ⟨asked, hasked, hasks, hskipped.setWorker number trivial⟩
    | call hfalse =>
      exact ⟨asked, hasked, hasks, (h.advances hasks).setWorker number ⟨hown, trivial⟩⟩
    | carryOn hnone =>
      obtain ⟨c', hsession, hadvances, hsound⟩ := Reader.Call.step_sound hr hc hown.2
      exact ⟨c', hsession, hadvances, (h.advances hadvances).setWorker number ⟨hown.1, hsound⟩⟩
    | result houtcome hresult =>
      obtain ⟨c', hsession, hadvances, hsound⟩ := Reader.Call.step_sound hr hc hown.2
      have hdone := (h.advances hadvances).setResult
        (FolderResult.stands_of_ofOutcome hresult (hsound.canDecode houtcome))
        (FolderResult.ne_untouched_of_ofOutcome hresult)
      exact ⟨c', hsession, hadvances, hdone.setWorker number trivial⟩
    | fault houtcome hfault =>
      obtain ⟨c', hsession, hadvances, hsound⟩ := Reader.Call.step_sound hr hc hown.2
      exact ⟨c', hsession, hadvances, (h.advances hadvances).setWorker number
        ⟨_, hown.1, hsound.canDecode houtcome, hfault⟩⟩

/-- Whatever the schedule, what the workers do is sound. -/
theorem Sound.run (hr : r.ActsByAdvances) (hc : r.Reachable c) (h : p.Sound r cancelled folders c)
    (schedule : List Nat) :
    ∃ c', c'.session = (Pool.run r cancelled folders schedule p c.session).2 ∧ r.Advances c c' ∧
      (Pool.run r cancelled folders schedule p c.session).1.Sound r cancelled folders c' := by
  induction schedule generalizing c p with
  | nil => exact ⟨c, rfl, .refl, h⟩
  | cons number schedule ih =>
    obtain ⟨c₁, hsession, hadvances, h₁⟩ := h.step hr hc number
    obtain ⟨c₂, hsession₂, hadvances₂, h₂⟩ := ih (hc.advances hadvances) h₁
    rw [Pool.run, runState_bind, ← hsession]
    exact ⟨c₂, hsession₂, hadvances.trans hadvances₂, h₂⟩

end Pool

/-! ### Nothing is forgotten -/

/-- A worker answers for a folder if it is at it, or has met with what ends the extraction. -/
def Worker.AnswersFor (folder : Nat) : Worker → Prop
  | .starting own => own = folder
  | .calling own _ => own = folder
  | .noting _ => True
  | _ => False

namespace Pool

variable {folders : List Nat} {p : Pool} {number : Nat} {s : Session σ} {worker : Worker}

/-- A folder that has been taken is not forgotten. -/
def Covers (p : Pool) (folder : Nat) : Prop :=
  p.results[folder]? ≠ some .untouched ∨ p.firstFault ≠ none ∨
    ∃ (number : Nat) (worker : Worker), p.workers[number]? = some worker ∧ worker.AnswersFor folder

/-- The invariant by which no folder is forgotten: what is taken is covered (`Covers`), and a worker
is idle, is about to stop or has raised the flag only for a reason. -/
structure Accounts (folders : List Nat) (p : Pool) : Prop where
  /-- A pool without workers would be done at once, with nothing taken. -/
  workers : p.workers ≠ []
  taken : ∀ {i folder : Nat}, i < p.next → folders[i]? = some folder → p.Covers folder
  /-- Workers go idle when all is taken, or when they are told to stop. -/
  idle : ∀ {number : Nat}, p.workers[number]? = some .idle → p.stop = true ∨ folders.length ≤ p.next
  stopping : ∀ {number : Nat}, p.workers[number]? = some .stopping → p.firstFault ≠ none
  stop : p.stop = true → p.firstFault ≠ none

/-- A pool with at least one worker starts with nothing taken and nobody idle. -/
theorem Accounts.start {workers : Nat} (hworkers : 0 < workers) (folders : List Nat)
    (count : Nat) : (Pool.start workers count).Accounts folders where
  workers hnone := by
    have hlength : (Pool.start workers count).workers.length = workers := List.length_replicate
    rw [hnone, List.length_nil] at hlength
    exact hworkers.ne hlength
  taken h := absurd h (Nat.not_lt_zero _)
  idle h := nomatch (List.mem_replicate.mp (List.mem_of_getElem? h)).2
  stopping h := nomatch (List.mem_replicate.mp (List.mem_of_getElem? h)).2
  stop h := nomatch h

/-- A folder stays covered when its worker hands it on. -/
theorem Covers.setWorker {folder : Nat} {old : Worker} (hold : p.workers[number]? = some old)
    (h : p.Covers folder)
    (hnew : old.AnswersFor folder → (p.setWorker number worker).Covers folder) :
    (p.setWorker number worker).Covers folder := by
  rcases h with hresult | hfault | ⟨other, at', hother, hanswers⟩
  · exact .inl hresult
  · exact .inr (.inl hfault)
  · by_cases heq : number = other
    · subst heq
      rw [hold] at hother
      cases hother
      exact hnew hanswers
    · refine .inr (.inr ⟨other, at', ?_, hanswers⟩)
      rw [workers_setWorker, List.getElem?_set_ne heq]
      exact hother

/-- A folder is covered by a worker that comes to answer for it. -/
theorem covers_setWorker_self {folder : Nat} {old : Worker}
    (hold : p.workers[number]? = some old) (hnew : worker.AnswersFor folder) :
    (p.setWorker number worker).Covers folder := by
  refine .inr (.inr ⟨number, worker, ?_, hnew⟩)
  exact List.getElem?_set_self (List.getElem?_eq_some_iff.mp hold).1

/-- `Pool.setWorker` changes only the worker of that number. -/
theorem getElem?_setWorker_ne {other : Nat} (h : other ≠ number) :
    (p.setWorker number worker).workers[other]? = p.workers[other]? :=
  List.getElem?_set_ne (Ne.symm h)

/-- A worker is the one that was put there, or it is another one and was there before. -/
theorem getElem?_setWorker {other : Nat} {w : Worker}
    (h : (p.setWorker number worker).workers[other]? = some w) :
    other = number ∧ w = worker ∨ other ≠ number ∧ p.workers[other]? = some w := by
  by_cases hother : other = number
  · subst hother
    rw [workers_setWorker, List.getElem?_set, if_pos rfl] at h
    split at h
    · exact .inl ⟨rfl, (Option.some.inj h).symm⟩
    · cases h
  · rw [getElem?_setWorker_ne hother] at h
    exact .inr ⟨hother, h⟩

/-- One worker changes. Every folder for which it answered must be covered in another way, and it
may go idle or stop only for a reason. -/
theorem Accounts.setWorker {old : Worker} (h : p.Accounts folders)
    (hold : p.workers[number]? = some old)
    (hanswers : ∀ folder, old.AnswersFor folder → (p.setWorker number worker).Covers folder)
    (hidle : worker = .idle → p.stop = true ∨ folders.length ≤ p.next)
    (hstopping : worker = .stopping → p.firstFault ≠ none) :
    (p.setWorker number worker).Accounts folders where
  workers := mt (List.set_eq_nil_iff _ _).mp h.workers
  taken hi hfolder := (h.taken hi hfolder).setWorker hold (hanswers _)
  idle hother := by
    -- this worker by assumption, the others as before
    rcases getElem?_setWorker hother with ⟨-, heq⟩ | ⟨-, hother⟩
    · exact hidle heq.symm
    · exact h.idle hother
  stopping hother := by
    rcases getElem?_setWorker hother with ⟨-, heq⟩ | ⟨-, hother⟩
    · exact hstopping heq.symm
    · exact h.stopping hother
  stop := h.stop

/-- The counter moves on when the next folder has somebody who answers for it. -/
theorem Accounts.count (h : p.Accounts folders)
    (hnext : ∀ folder, folders[p.next]? = some folder → p.Covers folder) :
    ({ p with next := p.next + 1 } : Pool).Accounts folders where
  workers := h.workers
  taken {i folder} hi hfolder := by
    rcases Nat.lt_succ_iff_lt_or_eq.mp hi with hi | rfl
    · exact h.taken hi hfolder
    · exact hnext folder hfolder
  idle hidle := (h.idle hidle).imp_right Nat.le_succ_of_le
  stopping := h.stopping
  stop := h.stop

/-- A folder that gets a result is not untouched, also if it has no place among the results. -/
theorem getElem?_setResult_ne {folder : Nat} {result : FolderResult} (hresult : result ≠ .untouched)
    (p : Pool) : (p.setResult folder result).results[folder]? ≠ some .untouched := by
  intro huntouched
  have hset : (p.results.set folder result)[folder]? = some .untouched := huntouched
  rw [List.getElem?_set] at hset
  split at hset
  · split at hset
    · exact hresult (Option.some.inj hset)
    · cases hset
  · next hne => exact hne rfl

/-- A result is written, and no other folder loses its own. -/
theorem Accounts.setResult (h : p.Accounts folders) {folder : Nat} {result : FolderResult}
    (hresult : result ≠ .untouched) : (p.setResult folder result).Accounts folders where
  workers := h.workers
  taken {i other} hi hother := by
    by_cases heq : folder = other
    · subst heq
      exact .inl (getElem?_setResult_ne hresult p)
    · refine (h.taken hi hother).imp_left fun hdone => ?_
      show (p.results.set folder result)[other]? ≠ some .untouched
      rw [List.getElem?_set_ne heq]
      exact hdone
  idle := h.idle
  stopping := h.stopping
  stop := h.stop

/-- No move of a worker lets go of a folder: it hands it from one of its stages to the next, writes
its result, or meets with a fault, for which it answers until the fault is kept. -/
theorem Accounts.step (h : p.Accounts folders) (r : Reader σ) (cancelled : StateM σ Bool)
    (number : Nat) (s : Session σ) : (p.step r cancelled folders number s).1.Accounts folders := by
  rcases step_move r cancelled folders p number s with
    ⟨-, hnone⟩ | ⟨worker, p', s', hworker, hstep, hmove⟩
  · rw [hnone]
    exact h
  · rw [hstep]
    cases hmove with
    | heed hstop => exact h.setWorker hworker nofun (fun _ => .inl hstop) nofun
    | goOn hstop => exact h.setWorker hworker nofun nofun nofun
    | @take folder hnext =>
      -- the worker answers for the folder before the counter moves on
      have htaken : (p.setWorker number (.starting folder)).Accounts folders :=
        h.setWorker hworker nofun nofun nofun
      refine htaken.count fun other hother => ?_
      have hsame : some folder = some other := hnext.symm.trans hother
      obtain rfl := Option.some.inj hsame
      exact covers_setWorker_self hworker rfl
    | leave hnext =>
      have hall : folders.length ≤ p.next := List.getElem?_eq_none_iff.mp hnext
      have hleft : (p.setWorker number .idle).Accounts folders :=
        h.setWorker hworker nofun (fun _ => .inr hall) nofun
      refine hleft.count fun other hother => ?_
      have hnone : none = some other := hnext.symm.trans hother
      cases hnone
    | @skip folder hasked =>
      have hne : FolderResult.cancelled ≠ .untouched := nofun
      refine (h.setResult hne).setWorker hworker (fun other hother => ?_) nofun nofun
      obtain rfl : folder = other := hother
      exact .inl (getElem?_setResult_ne hne p)
    | @call folder hasked =>
      refine h.setWorker hworker (fun other hother => ?_) nofun nofun
      exact covers_setWorker_self hworker (show folder = other from hother)
    | @carryOn folder call hnone =>
      refine h.setWorker hworker (fun other hother => ?_) nofun nofun
      exact covers_setWorker_self hworker (show folder = other from hother)
    | @result folder call outcome result houtcome hresult =>
      have hne := FolderResult.ne_untouched_of_ofOutcome hresult
      refine (h.setResult hne).setWorker hworker (fun other hother => ?_) nofun nofun
      obtain rfl : folder = other := hother
      exact .inl (getElem?_setResult_ne hne p)
    | fault houtcome hfault =>
      -- the worker answers for every folder until the fault is noted
      exact h.setWorker hworker (fun _ _ => covers_setWorker_self hworker trivial) nofun nofun
    | note fault =>
      have hfault : (p.firstFault <|> some fault) ≠ none := by
        cases p.firstFault with
        | none => exact nofun
        | some first => exact nofun
      have hnoted : ({ p with firstFault := p.firstFault <|> some fault } : Pool).Accounts
          folders := ⟨h.workers, fun _ _ => .inr (.inl hfault), h.idle, fun _ => hfault,
            fun _ => hfault⟩
      exact hnoted.setWorker hworker (fun _ _ => .inr (.inl hfault)) nofun fun _ => hfault
    | halt =>
      have hfault := h.stopping hworker
      have hhalted : ({ p with stop := true } : Pool).Accounts folders :=
        ⟨h.workers, h.taken, fun _ => .inl rfl, h.stopping, fun _ => hfault⟩
      exact hhalted.setWorker hworker nofun (fun _ => .inl rfl) nofun

/-- Whatever the schedule, no folder is forgotten. -/
theorem Accounts.run (h : p.Accounts folders) (r : Reader σ) (cancelled : StateM σ Bool)
    (schedule : List Nat) (s : Session σ) :
    (Pool.run r cancelled folders schedule p s).1.Accounts folders := by
  induction schedule generalizing p s with
  | nil => exact h
  | cons number schedule ih =>
    rw [Pool.run, runState_bind]
    exact ih (h.step r cancelled number s) _

/-! ### The end of a pool -/

/-- A pool is done when all its workers are idle. -/
theorem isDone_iff : p.isDone = true ↔ ∀ worker ∈ p.workers, worker = .idle := by
  rw [isDone, List.all_eq_true]
  refine forall₂_congr fun worker _ => ?_
  cases worker with
  | idle => exact ⟨fun _ => rfl, fun _ => rfl⟩
  | _ => exact ⟨nofun, nofun⟩

/-- A pool gives results if all workers are done and nobody has met with a fault. -/
theorem finish_ok {results : List FolderResult} (h : p.finish = .ok results) :
    p.isDone = true ∧ p.firstFault = none ∧ results = p.results := by
  unfold Pool.finish at h
  split at h
  · next hdone =>
    cases hfault : p.firstFault with
    | some fault =>
      rw [hfault] at h
      cases h
    | none =>
      rw [hfault] at h
      exact ⟨hdone, rfl, (Except.ok.inj h).symm⟩
  · cases h

/-- `.stalled` is what becomes of a pool whose schedule is too short. -/
theorem finish_ne_stalled (h : p.isDone = true) : p.finish ≠ .error .stalled := by
  unfold Pool.finish
  rw [if_pos h]
  cases p.firstFault with
  | none => exact nofun
  | some fault => exact nofun

/-- What a sound pool fails with is its first fault, or `.stalled`. -/
theorem Sound.finish_error (h : p.Sound r cancelled folders c) {fault : ReaderFault}
    (hfinish : p.finish = .error fault) : r.Fails folders fault := by
  unfold Pool.finish at hfinish
  split at hfinish
  · cases hfault : p.firstFault with
    | some first =>
      rw [hfault] at hfinish
      cases hfinish
      exact .inr ⟨first, rfl, h.firstFault first hfault⟩
    | none =>
      rw [hfault] at hfinish
      cases hfinish
  · cases hfinish
    exact .inl rfl

/-- If the pool gives results, all folders have been taken: the first worker is idle, and by
`Accounts.idle` it is so because the counter has passed the last of them. -/
theorem Accounts.all_taken (h : p.Accounts folders) {results : List FolderResult}
    (hfinish : p.finish = .ok results) : folders.length ≤ p.next := by
  obtain ⟨hdone, hfault, -⟩ := finish_ok hfinish
  obtain ⟨first, others, hworkers⟩ := List.exists_cons_of_ne_nil h.workers
  have hidle : first = .idle := isDone_iff.mp hdone first (hworkers ▸ List.mem_cons_self)
  have hfirst : p.workers[0]? = some .idle := by
    rw [hworkers, List.getElem?_cons_zero, hidle]
  -- an idle worker was told to stop, which takes a fault, or has found nothing to take
  exact (h.idle hfirst).resolve_left fun hstop => h.stop hstop hfault

/-- If the pool gives results, all folders have theirs, as nobody answers for them any more and
there is no fault (`Covers`). -/
theorem Accounts.finish (h : p.Accounts folders) {results : List FolderResult}
    (hfinish : p.finish = .ok results) :
    results = p.results ∧ ∀ folder ∈ folders, p.results[folder]? ≠ some .untouched := by
  obtain ⟨hdone, hfault, hresults⟩ := finish_ok hfinish
  refine ⟨hresults, fun folder hfolder => ?_⟩
  obtain ⟨i, hi⟩ := List.mem_iff_getElem?.mp hfolder
  have hlt := (List.getElem?_eq_some_iff.mp hi).1
  rcases h.taken (hlt.trans_le (h.all_taken hfinish)) hi with
    hresult | hsome | ⟨number, worker, hworker, hanswers⟩
  · exact hresult
  · exact absurd hfault hsome
  · rw [isDone_iff.mp hdone worker (List.mem_of_getElem? hworker)] at hanswers
    cases hanswers

end Pool

namespace Reader

/-! ### All folders -/

variable (cancelled) in
/-- Under every schedule the results of several workers are complete and stand for their folders
(`Reader.Gathered`), as those of one worker are. -/
theorem decodeInPool_ensures (hr : r.ActsByAdvances) (hc : r.Reachable c)
    (folders schedule : List Nat) {workers : Nat} (hworkers : 0 < workers) :
    Ensures (r.decodeInPool cancelled folders schedule workers) c.session
      (fun results s' => r.LeadsTo c s' ∧ r.Gathered cancelled folders results)
      (fun fault s' => r.LeadsTo c s' ∧ r.Fails folders fault) := by
  have hstart := Pool.Sound.start r cancelled folders c workers
  obtain ⟨c₁, hsession, hadvances, hsound⟩ := hstart.run hr hc schedule
  have haccounts := (Pool.Accounts.start hworkers folders r.archive.folders.length).run r cancelled
    schedule c.session
  -- both invariants hold when the schedule is over, and the cache has been led there
  have hrun : Ensures ((Pool.run r cancelled folders schedule
      (.start workers r.archive.folders.length) : StateM (Session σ) Pool) : ReaderM σ Pool)
      c.session
      (fun p s' => p.Sound r cancelled folders c₁ ∧ p.Accounts folders ∧ s' = c₁.session)
      (fun fault s' => r.LeadsTo c s' ∧ r.Fails folders fault) := ⟨hsound, haccounts, hsession.symm⟩
  unfold decodeInPool
  refine hrun.bind ?_
  rintro p s₁ ⟨hsound, haccounts, rfl⟩
  cases hfinish : p.finish with
  | error fault => exact Ensures.throw ⟨hadvances.leadsTo, hsound.finish_error hfinish⟩
  | ok results =>
    -- a pool without a fault has done all its folders
    obtain ⟨rfl, hdone⟩ := haccounts.finish hfinish
    exact Ensures.pure ⟨hadvances.leadsTo, { hsound.results with done := hdone }⟩

variable (cancelled) in
/-- **The results of workers.** If decoding all folders gives results, each folder with files has
one, and it stands for the folder (`Reader.Gathered`). -/
theorem decodeAll_ensures (hr : r.ActsByAdvances) (hc : r.Reachable c) :
    Ensures (r.decodeAll cancelled) c.session
      (fun results s' => r.LeadsTo c s' ∧ r.Gathered cancelled r.map.backedFolders results)
      (fun fault s' => r.LeadsTo c s' ∧ r.Fails r.map.backedFolders fault) := by
  unfold decodeAll
  dsimp only
  split
  · exact decodeInOrder_gathers hr hc _
  · next hworkers =>
    exact decodeInPool_ensures cancelled hr hc _ _
      (Nat.zero_lt_one.trans (Nat.lt_of_not_le hworkers))

end Reader

end SolidArchive
