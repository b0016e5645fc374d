import SolidArchive.Proofs.Reader.Schedules

/-!
# Folders that are skipped

Before a worker gets a folder it asks whether the extraction is cancelled, and if so the folder is
skipped. Asking is the only thing that a worker does about a folder before the call for it, and the
call is the only thing that it does to the cache and with the decoder. So to say which folders are
left alone it is enough to record for which folders calls take steps (`Pool.calls`, and
`Reader.callsInOrder` for a single worker):

* whatever is not called for stays in the cache as it was, and
* whatever is called for is not skipped, neither before nor after.

For a pool the first is a frame property of its steps (`Pool.Undisturbed.sameAt_run`). The second is
about the time before and after a step, so it has an invariant of its own: of a folder for which a
call was made, nobody will ask again (`Pool.Begun`), as no folder is taken twice.

An answer may be a matter of time. If it is for good (`Sticky`), then a single worker skips all that
is behind the first folder that it skips, and if it is there from the start, nobody does anything.
-/

namespace SolidArchive

/-- Once the answer is yes it stays so. -/
def Sticky {σ : Type} (cancelled : StateM σ Bool) : Prop :=
  ∀ outside, (cancelled outside).1 = true → (cancelled (cancelled outside).2).1 = true

variable {σ : Type} {r : Reader σ} {cancelled : StateM σ Bool} {outcomes : Nat → Outcome}
  {entries : Nat → Holding} {s : Session σ} {folders : List Nat} {folder : Nat}

/-- How a computation that decodes folders treats those that it skips, if it makes the calls
`calls`. -/
structure SkipsUncalled (calls : List Nat) (c : Cache) (results : List FolderResult) (c' : Cache) :
    Prop where
  called : ∀ folder ∈ calls, results[folder]? ≠ some .cancelled
  uncalled : ∀ folder, folder ∉ calls → c.SameAt folder c'

/-! ### Several workers -/

/-- The folder that a worker makes a call for. -/
def Worker.call? : Worker → Option Nat
  | .calling folder _ => some folder
  | _ => none

namespace Pool

variable {p p' : Pool} {number : Nat} {worker new : Worker}

/-- The folder for which a call takes a step if the worker of the given number has its turn. -/
def call? (p : Pool) (number : Nat) : Option Nat := (p.workers.getD number .idle).call?

/-- The folders for which calls take steps, turn by turn. -/
def calls (r : Reader σ) (cancelled : StateM σ Bool) (folders : List Nat) :
    List Nat → Pool → Session σ → List Nat
  | [], _, _ => []
  | number :: schedule, p, s =>
    let next := p.step r cancelled folders number s
    (p.call? number).toList ++ calls r cancelled folders schedule next.1 next.2

theorem call?_eq (h : p.workers[number]? = some worker) : p.call? number = worker.call? := by
  rw [call?, List.getD_eq_getElem?_getD, h]
  rfl

/-! #### What is not called for -/

section

variable (hr : r.Determined outcomes)
  (hkept : ∀ (folder : Nat) (kept : Kept), (entries folder).kept = some kept →
    kept.outcome = outcomes folder)
  (hlt : ∀ folder ∈ folders, folder < s.cache.slots.length)
  (h : p.Undisturbed outcomes entries folders s.cache)

include hr hkept hlt h

/-- A turn concerns no folder but the one that is called for. -/
theorem Undisturbed.sameAt_step (hcall : p.call? number ≠ some folder) :
    s.cache.SameAt folder (p.step r cancelled folders number s).2.cache := by
  rcases step_move r cancelled folders p number s with
    ⟨-, hnone⟩ | ⟨worker, p', s', hworker, hstep, hmove⟩
  · rw [hnone]
    exact .refl folder _
  · rw [call?_eq hworker] at hcall
    -- only a call looks at the cache, and it is undisturbed
    have hother : ∀ {own : Nat} {call : Reader.Call}, worker = .calling own call →
        s.cache.SameAt folder (call.step r own s).2.cache := by
      rintro own call rfl
      refine (h.goesOn hr hkept hlt hworker).sameAt folder fun heq => ?_
      exact hcall (congrArg some heq.symm)
    rw [hstep]
    cases hmove with
    | carryOn hnone => exact hother rfl
    | result houtcome hresult => exact hother rfl
    | fault houtcome hfault => exact hother rfl
    | _ => exact .refl folder _

/-- **What is not called for stays as it was.** -/
theorem Undisturbed.sameAt_run (hnodup : folders.Nodup) {schedule : List Nat}
    (hcalls : folder ∉ calls r cancelled folders schedule p s) :
    s.cache.SameAt folder (Pool.run r cancelled folders schedule p s).2.cache := by
  induction schedule generalizing p s with
  | nil => exact .refl folder _
  | cons turn schedule ih =>
    rw [calls, List.mem_append, Option.mem_toList, not_or] at hcalls
    obtain ⟨h₁, hlength⟩ := h.step cancelled hr hkept hlt hnodup turn
    have hfirst : s.cache.SameAt folder (p.step r cancelled folders turn s).2.cache :=
      h.sameAt_step hr hkept hlt hcalls.1
    refine hfirst.trans (ih (fun own hown => ?_) h₁ hcalls.2)
    exact (hlt own hown).trans_eq hlength.symm

end

/-! #### What is called for -/

/-- The folder has been taken, and nobody is going to skip it. -/
structure Begun (folders : List Nat) (folder : Nat) (p : Pool) : Prop where
  taken : folder ∈ folders.take p.next
  nobody : ∀ number : Nat, p.workers[number]? ≠ some (.starting folder)
  unskipped : ¬p.Skipped folder

theorem Begun.change (h : p.Begun folders folder)
    (hworkers : p'.workers = (p.setWorker number new).workers) (hnext : p.next ≤ p'.next)
    (hnew : new ≠ .starting folder) (hskipped : ¬p'.Skipped folder) :
    p'.Begun folders folder where
  taken := (List.take_prefix_take_left hnext).subset h.taken
  nobody other hother := by
    rw [hworkers] at hother
    rcases getElem?_setWorker hother with ⟨-, heq⟩ | ⟨-, hbefore⟩
    · exact hnew heq.symm
    · exact h.nobody other hbefore
  unskipped := hskipped

/-- A folder that is begun (`Pool.Begun`) stays begun in a step of any worker. -/
theorem Begun.step (h : p.Begun folders folder) (hnodup : folders.Nodup) (number : Nat)
    (s : Session σ) : (p.step r cancelled folders number s).1.Begun folders folder := by
  rcases step_move r cancelled folders p number s with
    ⟨-, hnone⟩ | ⟨worker, p', s', hworker, hstep, hmove⟩
  · rw [hnone]
    exact h
  · rw [hstep]
    cases hmove with
    | @take other hnext =>
      -- the folder is not taken again
      refine h.change rfl (Nat.le_succ _) (fun heq => ?_) h.unskipped
      obtain rfl : other = folder := Worker.starting.inj heq
      exact not_mem_take hnodup hnext h.taken
    | leave hnext => exact h.change rfl (Nat.le_succ _) nofun h.unskipped
    | @skip other htrue =>
      -- another folder is skipped, as nobody is about to look after this one
      have hne : folder ≠ other := by
        rintro rfl
        exact h.nobody number hworker
      refine h.change rfl le_rfl nofun fun hskipped => h.unskipped ?_
      exact (skipped_setResult_ne hne).mp hskipped
    | @result other call outcome result houtcome hresult =>
      refine h.change rfl le_rfl nofun fun hskipped => ?_
      by_cases hown : folder = other
      · subst hown
        exact not_skipped_setResult (FolderResult.ne_cancelled_of_ofOutcome hresult) hskipped
      · exact h.unskipped ((skipped_setResult_ne hown).mp hskipped)
    | _ => exact h.change rfl le_rfl nofun h.unskipped

theorem Begun.run (h : p.Begun folders folder) (hnodup : folders.Nodup) (schedule : List Nat)
    (s : Session σ) : (Pool.run r cancelled folders schedule p s).1.Begun folders folder := by
  induction schedule generalizing p s with
  | nil => exact h
  | cons number schedule ih => exact ih (h.step hnodup number s) _

/-- Nobody is going to skip a folder while somebody calls for it. -/
theorem Undisturbed.begun {c : Cache} (h : p.Undisturbed outcomes entries folders c)
    (hcall : p.call? number = some folder) : p.Begun folders folder := by
  obtain ⟨call, hworker⟩ : ∃ call, p.workers[number]? = some (.calling folder call) := by
    cases hworker : p.workers[number]? with
    | none =>
      rw [call?, List.getD_eq_getElem?_getD, hworker] at hcall
      cases hcall
    | some worker =>
      rw [call?_eq hworker] at hcall
      cases worker with
      | calling own call =>
        obtain rfl : own = folder := Option.some.inj hcall
        exact ⟨call, rfl⟩
      | _ => cases hcall
  constructor
  case taken => exact h.taken hworker rfl
  case nobody =>
    intro other hother
    -- there is only one worker at the folder, and that one is past the question
    obtain rfl : number = other := h.alone hworker hother rfl rfl
    cases hworker.symm.trans hother
  case unskipped => exact h.not_skipped hworker rfl

/-- **What is called for is not skipped**, whenever the call is made. -/
theorem Undisturbed.not_skipped_of_mem_calls (hr : r.Determined outcomes)
    (hkept : ∀ (folder : Nat) (kept : Kept), (entries folder).kept = some kept →
      kept.outcome = outcomes folder)
    (hlt : ∀ folder ∈ folders, folder < s.cache.slots.length)
    (h : p.Undisturbed outcomes entries folders s.cache) (hnodup : folders.Nodup)
    {schedule : List Nat} (hcalls : folder ∈ calls r cancelled folders schedule p s) :
    ¬(Pool.run r cancelled folders schedule p s).1.Skipped folder := by
  induction schedule generalizing p s with
  | nil => cases hcalls
  | cons turn schedule ih =>
    rw [calls, List.mem_append, Option.mem_toList] at hcalls
    -- the call begins now, or in a later turn
    rcases hcalls with hcall | hcalls
    · exact ((h.begun hcall).run hnodup (turn :: schedule) s).unskipped
    · obtain ⟨h₁, hlength⟩ := h.step cancelled hr hkept hlt hnodup turn
      refine ih (fun own hown => ?_) h₁ hcalls
      exact (hlt own hown).trans_eq hlength.symm

/-! #### Cancelled from the start -/

/-- Nobody has done anything but skip folders. -/
structure OnlySkips (p : Pool) : Prop where
  workers : ∀ worker ∈ p.workers, worker.call? = none
  results : ∀ result ∈ p.results, result = .untouched ∨ result = .cancelled

theorem onlySkips_start (workers count : Nat) : (start workers count).OnlySkips where
  workers worker hworker := by
    rw [(List.mem_replicate.mp hworker).2]
    rfl
  results result hresult := .inl (List.mem_replicate.mp hresult).2

theorem OnlySkips.change (h : p.OnlySkips)
    (hworkers : p'.workers = (p.setWorker number new).workers) (hnew : new.call? = none)
    (hresults : ∀ result ∈ p'.results, result ∈ p.results ∨ result = .cancelled) :
    p'.OnlySkips where
  workers worker hworker := by
    rw [hworkers] at hworker
    rcases List.mem_or_eq_of_mem_set hworker with hbefore | rfl
    · exact h.workers worker hbefore
    · exact hnew
  results result hresult := (hresults result hresult).elim (h.results result) .inr

variable (r folders) in
/-- Whoever has the next turn, nobody does anything else while the answer is yes. -/
theorem OnlySkips.step (h : p.OnlySkips) (hsticky : Sticky cancelled)
    (htold : (cancelled s.outside).1 = true) (number : Nat) :
    let next := p.step r cancelled folders number s
    next.1.OnlySkips ∧ next.2.cache = s.cache ∧ (cancelled next.2.outside).1 = true := by
  intro next
  rcases step_move r cancelled folders p number s with
    ⟨-, hnone⟩ | ⟨worker, p', s', hworker, hstep, hmove⟩
  · have hnext : next = (p, s) := hnone
    rw [hnext]
    exact ⟨h, rfl, htold⟩
  · have huncalled := h.workers worker (List.mem_of_getElem? hworker)
    have hnext : next = (p', s') := hstep
    rw [hnext]
    cases hmove with
    | skip htrue =>
      refine ⟨h.change rfl rfl fun result hresult => ?_, rfl, hsticky _ htold⟩
      exact List.mem_or_eq_of_mem_set hresult
    -- a call would be made only after the answer no
    | call hfalse => cases htold.symm.trans hfalse
    | carryOn hnone => cases huncalled
    | result houtcome hresult => cases huncalled
    | fault houtcome hfault => cases huncalled
    | _ => exact ⟨h.change rfl rfl fun _ => .inl, rfl, htold⟩

variable (r folders) in
/-- **Whatever the schedule**, nobody does anything but skip folders. -/
theorem OnlySkips.run (h : p.OnlySkips) (hsticky : Sticky cancelled)
    (htold : (cancelled s.outside).1 = true) (schedule : List Nat) :
    (Pool.run r cancelled folders schedule p s).1.OnlySkips ∧
      (Pool.run r cancelled folders schedule p s).2.cache = s.cache := by
  induction schedule generalizing p s with
  | nil => exact ⟨h, rfl⟩
  | cons number schedule ih =>
    obtain ⟨h₁, hcache, htold₁⟩ := h.step r folders hsticky htold number
    obtain ⟨h₂, hcache₂⟩ := ih h₁ htold₁
    exact ⟨h₂, hcache₂.trans hcache⟩

end Pool

/-! ### One worker -/

namespace Reader

variable {results : List FolderResult}

/-- The folders that a single worker calls for, until one of them ends the extraction. -/
def callsInOrder (r : Reader σ) (cancelled : StateM σ Bool) : List Nat → Session σ → List Nat
  | [], _ => []
  | folder :: folders, s =>
    (if (cancelled s.outside).1 then [] else [folder]) ++
      match (r.decodeOne cancelled folder).run s with
      | (.ok _, s') => callsInOrder r cancelled folders s'
      | (.error _, _) => []

variable (r) in
theorem decodeOne_told (htold : (cancelled s.outside).1 = true) (folder : Nat) :
    (r.decodeOne cancelled folder).run s = (.ok .cancelled, (Session.onOutside cancelled s).2) := by
  rw [decodeOne_run, if_pos htold]

variable (r) in
theorem decodeOne_ne_cancelled (huntold : (cancelled s.outside).1 = false) (folder : Nat) :
    Ensures (r.decodeOne cancelled folder) s (fun result _ => result ≠ .cancelled)
      (fun _ _ => True) := by
  unfold Ensures
  rw [decodeOne_run, huntold, if_neg nofun]
  dsimp only
  cases (r.folderOutcome folder (Session.onOutside cancelled s).2).1 with
  | none => trivial
  | some outcome =>
    dsimp only
    cases hresult : FolderResult.ofOutcome outcome with
    | error fault => trivial
    | ok result => exact FolderResult.ne_cancelled_of_ofOutcome hresult

/-- A worker that is not told to skip the folder gets what it comes to, and the cache keeps what it
can of that. -/
theorem decodeOne_untold (hr : r.Determined outcomes) (h : s.cache.Settled outcomes entries)
    (hlt : folder < s.cache.slots.length) (huntold : (cancelled s.outside).1 = false) :
    ∃ s', (r.decodeOne cancelled folder).run s =
        ((FolderResult.ofOutcome (outcomes folder)).mapError .folder, s') ∧
      s'.cache.Settled outcomes (Holding.after [folder] outcomes entries) ∧
      s'.cache.slots.length = s.cache.slots.length ∧
      ∀ other ≠ folder, s.cache.SameAt other s'.cache := by
  have hasked : (Session.onOutside cancelled s).2.cache.Settled outcomes entries := h
  obtain ⟨s', hget, hsettled⟩ := folderOutcome_settled hr hasked hlt
  refine ⟨s', ?_, hsettled⟩
  have hnot : ¬(cancelled s.outside).1 = true := by
    rw [huntold]
    exact nofun
  rw [decodeOne_run, if_neg hnot, hget]

variable (r cancelled folders) in
/-- Only the results of the folders are written. -/
theorem decodeInOrder_getElem? (s : Session σ) (results : List FolderResult) :
    Ensures (r.decodeInOrder cancelled folders results) s
      (fun results' _ => ∀ other ∉ folders, results'[other]? = results[other]?)
      (fun _ _ => True) := by
  induction folders generalizing s results with
  | nil => exact Ensures.pure fun _ _ => rfl
  | cons folder folders ih =>
    have hone : Ensures (r.decodeOne cancelled folder) s (fun _ _ => True) (fun _ _ => True) :=
      Ensures.trivial _ _
    -- whatever the first folder comes to, it is written in its own place
    refine hone.bind fun result s₁ _ => ?_
    refine (ih s₁ (results.set folder result)).mono (fun results' _ h other hother => ?_)
      fun _ _ h => h
    obtain ⟨hne, hnot⟩ := not_or.mp (mt List.mem_cons.mpr hother)
    rw [h other hnot, List.getElem?_set_ne (Ne.symm hne)]

/-- **What a single worker does not call for** stays as it was, and what it calls for is not
skipped. -/
theorem decodeInOrder_skips (hr : r.Determined outcomes) (h : s.cache.Settled outcomes entries)
    (hlt : ∀ folder ∈ folders, folder < s.cache.slots.length) (hnodup : folders.Nodup) :
    Ensures (r.decodeInOrder cancelled folders results) s
      (fun results' s' =>
        SkipsUncalled (r.callsInOrder cancelled folders s) s.cache results' s'.cache)
      (fun _ _ => True) := by
  induction folders generalizing s entries results with
  | nil => exact Ensures.pure ⟨nofun, fun other _ => .refl other _⟩
  | cons folder folders ih =>
    obtain ⟨hfolder, hfolders⟩ := List.forall_mem_cons.mp hlt
    obtain ⟨hnew, hrest⟩ := List.nodup_cons.mp hnodup
    refine ((Ensures.run_eq (r.decodeOne cancelled folder) s).mono (fun _ _ h => h)
      fun _ _ _ => trivial).bind ?_
    intro result s₁ hrun
    -- the other calls are those that the rest makes from where this folder has left the session
    have hcalls : r.callsInOrder cancelled (folder :: folders) s =
        (if (cancelled s.outside).1 then [] else [folder]) ++
          r.callsInOrder cancelled folders s₁ := by
      rw [callsInOrder, hrun]
    rw [hcalls]
    cases htold : (cancelled s.outside).1 with
    | true =>
      -- the folder is skipped, and to ask leaves the cache alone
      rw [decodeOne_told r htold] at hrun
      obtain ⟨-, rfl⟩ := Prod.mk.inj hrun
      rw [if_pos rfl]
      exact ih h hfolders hrest
    | false =>
      obtain ⟨s', hget, hsettled, hlength, hsame⟩ := decodeOne_untold hr h hfolder htold
      have hne := (decodeOne_ne_cancelled r htold folder).ok (congrArg Prod.fst hrun)
      obtain ⟨-, rfl⟩ := Prod.mk.inj (hget.symm.trans hrun)
      have hothers : Ensures (r.decodeInOrder cancelled folders (results.set folder result)) s'
          _ _ :=
        ih hsettled (fun other hother => (hfolders other hother).trans_eq hlength.symm) hrest
      have hwritten := decodeInOrder_getElem? r cancelled folders s' (results.set folder result)
      refine (hothers.and hwritten).mono ?_ fun _ _ h => h.1
      rintro results' s₂ ⟨hskips, hkeeps⟩
      constructor
      case called =>
        intro other hother
        rcases List.mem_cons.mp hother with rfl | hother
        · -- the rest does not write the result of this folder again
          rw [hkeeps other hnew]
          exact Pool.getElem?_set_ne_cancelled hne results
        · exact hskips.called other hother
      case uncalled =>
        intro other hother
        obtain ⟨hother, hlater⟩ := not_or.mp (mt List.mem_cons.mpr hother)
        exact (hsame other hother).trans (hskips.uncalled other hlater)

/-- **If it is cancelled from the start**, a single worker does nothing. -/
theorem decodeInOrder_told (hsticky : Sticky cancelled) (htold : (cancelled s.outside).1 = true)
    (hplaces : ∀ folder ∈ folders, folder < results.length) :
    Ensures (r.decodeInOrder cancelled folders results) s
      (fun results' s' => s'.cache = s.cache ∧
        ∀ folder ∈ folders, results'[folder]? = some .cancelled)
      (fun _ _ => False) := by
  induction folders generalizing s results with
  | nil => exact Ensures.pure ⟨rfl, nofun⟩
  | cons folder folders ih =>
    obtain ⟨hplace, hrest⟩ := List.forall_mem_cons.mp hplaces
    -- the first folder is skipped, and the answer stays the same for the others
    have hone : Ensures (r.decodeOne cancelled folder) s
        (fun result s' => result = .cancelled ∧ s' = (Session.onOutside cancelled s).2)
        (fun _ _ => False) := by
      unfold Ensures
      rw [decodeOne_told r htold]
      exact ⟨rfl, rfl⟩
    refine hone.bind ?_
    rintro result s₁ ⟨rfl, rfl⟩
    have hothers : Ensures (r.decodeInOrder cancelled folders (results.set folder .cancelled))
        (Session.onOutside cancelled s).2 _ _ :=
      ih (hsticky _ htold) fun other hother => (hrest other hother).trans_eq List.length_set.symm
    have hwritten := decodeInOrder_getElem? r cancelled folders (Session.onOutside cancelled s).2
      (results.set folder .cancelled)
    refine (hothers.and hwritten).mono ?_ fun _ _ h => h.1
    rintro results' s₂ ⟨⟨hcache, hall⟩, hkeeps⟩
    refine ⟨hcache, fun other hother => ?_⟩
    by_cases hlater : other ∈ folders
    · exact hall other hlater
    · obtain rfl := (List.mem_cons.mp hother).resolve_right hlater
      rw [hkeeps other hlater]
      exact List.getElem?_set_self hplace

/-- **A single worker skips all that is behind** the first folder that it skips. -/
theorem decodeInOrder_suffix (hsticky : Sticky cancelled) (hnodup : folders.Nodup)
    (hplaces : ∀ folder ∈ folders, folder < results.length) :
    Ensures (r.decodeInOrder cancelled folders results) s
      (fun results' _ => ∃ skipped, skipped <:+ folders ∧
        ∀ folder ∈ folders, (results'[folder]? = some .cancelled ↔ folder ∈ skipped))
      (fun _ _ => True) := by
  induction folders generalizing s results with
  | nil => exact Ensures.pure ⟨[], List.suffix_refl _, nofun⟩
  | cons folder folders ih =>
    cases htold : (cancelled s.outside).1 with
    | true =>
      -- from here on all is skipped
      refine (decodeInOrder_told hsticky htold hplaces).mono ?_ fun _ _ _ => trivial
      rintro results' s₁ ⟨-, hall⟩
      refine ⟨folder :: folders, List.suffix_refl _, fun other hother => ?_⟩
      exact iff_of_true (hall other hother) hother
    | false =>
      obtain ⟨hplace, hrest⟩ := List.forall_mem_cons.mp hplaces
      obtain ⟨hnew, hnodup⟩ := List.nodup_cons.mp hnodup
      refine (decodeOne_ne_cancelled r htold folder).bind fun result s₁ hne => ?_
      have hothers : Ensures (r.decodeInOrder cancelled folders (results.set folder result)) s₁
          _ _ := ih hnodup fun other hother => (hrest other hother).trans_eq List.length_set.symm
      have hwritten := decodeInOrder_getElem? r cancelled folders s₁ (results.set folder result)
      refine (hothers.and hwritten).mono ?_ fun _ _ h => h.1
      rintro results' s₂ ⟨⟨skipped, hsuffix, hiff⟩, hkeeps⟩
      -- this folder is not skipped, so what the rest skips is all
      refine ⟨skipped, hsuffix.trans (List.suffix_cons _ _), fun other hother => ?_⟩
      rcases List.mem_cons.mp hother with rfl | hlater
      · refine iff_of_false ?_ fun hmem => hnew (hsuffix.subset hmem)
        rw [hkeeps other hnew]
        exact Pool.getElem?_set_ne_cancelled hne results
      · exact hiff other hlater

end Reader

end SolidArchive
