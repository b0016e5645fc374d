import SolidArchive.Proofs.Reader.Undisturbed

/-!
# Workers under any schedule

The workers of a pool share a cache, a counter, a flag and the place for the first fault, and
nothing is said of the order in which they take their steps. What keeps them apart is the counter:
it gives each folder to one worker, once. So all calls of the workers are undisturbed ones, and this
is the invariant of the pool (`Pool.Undisturbed`). It says of each folder where it stands: before it
is taken the cache has what it had in the beginning, while a worker is at it the call of that worker
says how far it has come, and after that the cache has what is to be kept of it. A folder that is
skipped, since its worker was told that the extraction is cancelled, stays as it was.

From the invariant everything follows that a schedule might have had a say in:

* each turn of a worker that is not idle brings it nearer to its end, and the turns of others take
  nothing from that (`Pool.Undisturbed.left_step`), so that all schedules in which every worker has
  enough turns bring the pool to its end (`Pool.isDone_run`);
* the folders are taken in order, each one once (`Pool.folders_takes`);
* a pool that has taken them all, and skipped none, leaves the cache as one worker would have
  (`Pool.settled_run`).
-/

namespace SolidArchive

variable {σ : Type} {r : Reader σ} {cancelled : StateM σ Bool} {outcomes : Nat → Outcome}
  {entries : Nat → Holding} {c c' : Cache}

/-! ### Workers that nobody disturbs -/

namespace Worker

/-- A worker has taken a folder and is not done with it. -/
def IsAt (folder : Nat) : Worker → Prop
  | .starting own => own = folder
  | .calling own _ => own = folder
  | _ => False

/-- How a worker that nobody disturbs stands to the folder that it is at. -/
def Undisturbed (outcomes : Nat → Outcome) (entries : Nat → Holding) (c : Cache) :
    Worker → Prop
  | .starting folder => c.Has folder (entries folder)
  | .calling folder call => call.Undisturbed (outcomes folder) (entries folder) folder c
  | _ => True

/-- A worker is not disturbed by what happens to other folders. -/
theorem Undisturbed.of_sameAt {worker : Worker} (h : worker.Undisturbed outcomes entries c)
    (hsame : ∀ folder, worker.IsAt folder → c.SameAt folder c') :
    worker.Undisturbed outcomes entries c' := by
  cases worker with
  | starting folder => exact Cache.Has.of_sameAt h (hsame folder rfl)
  | calling folder call => exact Reader.Call.Undisturbed.of_sameAt h (hsame folder rfl)
  | _ => trivial

/-- A worker that is at no folder is not disturbed at all. -/
theorem undisturbed_of_not_isAt {worker : Worker} (h : ∀ folder, ¬worker.IsAt folder) :
    worker.Undisturbed outcomes entries c := by
  cases worker with
  | starting folder => exact absurd rfl (h folder)
  | calling folder call => exact absurd rfl (h folder)
  | _ => trivial

end Worker

namespace Pool

variable {folders : List Nat} {p p' : Pool} {number folder other : Nat} {s s' : Session σ}
  {old new : Worker} {result : FolderResult}

/-- No worker is at the folder. -/
def NobodyAt (p : Pool) (folder : Nat) : Prop :=
  ∀ (number : Nat) (worker : Worker), p.workers[number]? = some worker → ¬worker.IsAt folder

/-- The folder has been skipped, as the extraction is cancelled. -/
def Skipped (p : Pool) (folder : Nat) : Prop := p.results[folder]? = some .cancelled

theorem skipped_setResult_ne (h : other ≠ folder) :
    (p.setResult folder result).Skipped other ↔ p.Skipped other := by
  show (p.results.set folder result)[other]? = _ ↔ _
  rw [List.getElem?_set_ne (Ne.symm h)]
  rfl

theorem getElem?_set_ne_cancelled (h : result ≠ .cancelled) (results : List FolderResult) :
    (results.set folder result)[folder]? ≠ some .cancelled := by
  intro hset
  obtain ⟨hlt, hget⟩ := List.getElem?_eq_some_iff.mp hset
  rw [List.getElem_set_self] at hget
  exact h hget

theorem not_skipped_setResult (h : result ≠ .cancelled) :
    ¬(p.setResult folder result).Skipped folder := getElem?_set_ne_cancelled h p.results

theorem not_skipped_start (workers count : Nat) : ¬(start workers count).Skipped folder :=
  fun h => nomatch (List.mem_replicate.mp (List.mem_of_getElem? h)).2

/-- Nobody is at the same folder as another, and every folder is where it should be. -/
structure Undisturbed (outcomes : Nat → Outcome) (entries : Nat → Holding) (folders : List Nat)
    (p : Pool) (c : Cache) : Prop where
  apart : c.Apart
  /-- There is a place for every result. -/
  places : ∀ folder ∈ folders, folder < p.results.length
  workers : ∀ {number : Nat} {worker : Worker}, p.workers[number]? = some worker →
    worker.Undisturbed outcomes entries c
  taken : ∀ {number folder : Nat} {worker : Worker}, p.workers[number]? = some worker →
    worker.IsAt folder → folder ∈ folders.take p.next
  alone : ∀ {number other folder : Nat} {worker worker' : Worker},
    p.workers[number]? = some worker → p.workers[other]? = some worker' → worker.IsAt folder →
    worker'.IsAt folder → number = other
  /-- What is skipped has been taken by somebody who has left it. -/
  deserted : ∀ {folder : Nat}, p.Skipped folder → folder ∈ folders.take p.next ∧ p.NobodyAt folder
  skipped : ∀ {folder : Nat}, p.Skipped folder → c.Has folder (entries folder)
  /-- The other folders that nobody is at are those that are done, and those that are not taken. -/
  others : ∀ {folder : Nat}, ¬p.Skipped folder → p.NobodyAt folder →
    c.Has folder (Holding.after (folders.take p.next) outcomes entries folder)

/-- Nobody is at a folder that has not been taken. -/
theorem Undisturbed.nobodyAt (h : p.Undisturbed outcomes entries folders c)
    (hnew : folder ∉ folders.take p.next) : p.NobodyAt folder :=
  fun _ _ hworker hat => hnew (h.taken hworker hat)

/-- A folder is not skipped while somebody is at it. -/
theorem Undisturbed.not_skipped (h : p.Undisturbed outcomes entries folders c)
    (hworker : p.workers[number]? = some old) (hat : old.IsAt folder) : ¬p.Skipped folder :=
  fun hskipped => (h.deserted hskipped).2 number old hworker hat

theorem undisturbed_start (workers : Nat) {count : Nat}
    (hcount : ∀ folder ∈ folders, folder < count)
    (h : c.Settled outcomes entries) :
    (start workers count).Undisturbed outcomes entries folders c := by
  -- everybody is about to look whether to stop
  have hchecking : ∀ {number : Nat} {worker : Worker},
      (start workers count).workers[number]? = some worker → worker = .checking :=
    fun hworker => (List.mem_replicate.mp (List.mem_of_getElem? hworker)).2
  constructor
  case apart => exact h.apart
  case places =>
    exact fun folder hfolder => (hcount folder hfolder).trans_eq List.length_replicate.symm
  case workers =>
    intro number worker hworker
    obtain rfl := hchecking hworker
    trivial
  case taken =>
    intro number folder worker hworker hat
    obtain rfl := hchecking hworker
    exact hat.elim
  case alone =>
    intro number other folder worker worker' hworker hworker' hat
    obtain rfl := hchecking hworker
    exact hat.elim
  case deserted => exact fun hskipped => absurd hskipped (not_skipped_start workers count)
  case skipped => exact fun hskipped => absurd hskipped (not_skipped_start workers count)
  case others => exact fun _ _ => h.has _

/-- Who is at a folder after a worker has changed was there before, or has changed. -/
theorem nobodyAt_of_set (hworkers : p'.workers = (p.setWorker number new).workers)
    (hold : p.workers[number]? = some old) (h : p'.NobodyAt folder) (hnot : ¬old.IsAt folder) :
    p.NobodyAt folder := by
  intro other worker hworker
  by_cases hother : other = number
  · subst hother
    obtain rfl := Option.some.inj (hold.symm.trans hworker)
    exact hnot
  · refine h other worker ?_
    rwa [hworkers, getElem?_setWorker_ne hother]

/-- A worker goes on with its folder, or is done with it. The others are not concerned. -/
theorem Undisturbed.change (h : p.Undisturbed outcomes entries folders c)
    (hold : p.workers[number]? = some old)
    (hworkers : p'.workers = (p.setWorker number new).workers) (hnext : p'.next = p.next)
    (hlength : p'.results.length = p.results.length) (hnew : new.Undisturbed outcomes entries c')
    (hat : ∀ folder, new.IsAt folder → old.IsAt folder ∧ ¬p'.Skipped folder) (hapart : c'.Apart)
    (hsame : ∀ folder, ¬old.IsAt folder →
      c.SameAt folder c' ∧ (p'.Skipped folder ↔ p.Skipped folder))
    (hdone : ∀ folder, old.IsAt folder → ¬new.IsAt folder →
      (p'.Skipped folder → c'.Has folder (entries folder)) ∧
      (¬p'.Skipped folder → c'.Has folder ((entries folder).got (outcomes folder)))) :
    p'.Undisturbed outcomes entries folders c' := by
  have hself : p'.workers[number]? = some new := by
    rw [hworkers]
    exact List.getElem?_set_self (List.getElem?_eq_some_iff.mp hold).1
  have hbefore : ∀ {other : Nat} {worker : Worker}, p'.workers[other]? = some worker →
      other = number ∧ worker = new ∨ other ≠ number ∧ p.workers[other]? = some worker :=
    fun hworker => getElem?_setWorker (hworkers ▸ hworker)
  constructor
  case apart => exact hapart
  case places => exact fun folder hfolder => (h.places folder hfolder).trans_eq hlength.symm
  case workers =>
    intro other worker hworker
    rcases hbefore hworker with ⟨-, rfl⟩ | ⟨hne, hbefore⟩
    · exact hnew
    · -- nobody else was at the folder of this worker
      refine (h.workers hbefore).of_sameAt fun folder hfolder => (hsame folder fun hown => ?_).1
      exact hne (h.alone hbefore hold hfolder hown)
  case taken =>
    intro other folder worker hworker hfolder
    rw [hnext]
    rcases hbefore hworker with ⟨-, rfl⟩ | ⟨-, hbefore⟩
    · exact h.taken hold (hat folder hfolder).1
    · exact h.taken hbefore hfolder
  case alone =>
    intro other other' folder worker worker' hworker hworker' hfolder hfolder'
    rcases hbefore hworker with ⟨rfl, rfl⟩ | ⟨-, hother⟩
    · rcases hbefore hworker' with ⟨rfl, -⟩ | ⟨-, hother'⟩
      · rfl
      · exact h.alone hold hother' (hat folder hfolder).1 hfolder'
    · rcases hbefore hworker' with ⟨rfl, rfl⟩ | ⟨-, hother'⟩
      · exact h.alone hother hold hfolder (hat folder hfolder').1
      · exact h.alone hother hother' hfolder hfolder'
  case deserted =>
    -- a worker leaves what it skips, and nobody else was at it
    intro folder hskipped
    rw [hnext]
    by_cases hown : old.IsAt folder
    · refine ⟨h.taken hold hown, fun other worker hworker hfolder => ?_⟩
      rcases hbefore hworker with ⟨-, rfl⟩ | ⟨hne, hother⟩
      · exact (hat folder hfolder).2 hskipped
      · exact hne (h.alone hother hold hfolder hown)
    · obtain ⟨htaken, hnobody⟩ := h.deserted ((hsame folder hown).2.mp hskipped)
      refine ⟨htaken, fun other worker hworker hfolder => ?_⟩
      rcases hbefore hworker with ⟨-, rfl⟩ | ⟨-, hother⟩
      · exact hown (hat folder hfolder).1
      · exact hnobody other worker hother hfolder
  case skipped =>
    intro folder hskipped
    by_cases hown : old.IsAt folder
    · exact (hdone folder hown fun hfolder => (hat folder hfolder).2 hskipped).1 hskipped
    · obtain ⟨hsameAt, hiff⟩ := hsame folder hown
      exact (h.skipped (hiff.mp hskipped)).of_sameAt hsameAt
  case others =>
    intro folder hskipped hnobody
    rw [hnext]
    by_cases hown : old.IsAt folder
    · -- the worker is done with the folder
      rw [Holding.after_of_mem (h.taken hold hown)]
      exact (hdone folder hown (hnobody number new hself)).2 hskipped
    · obtain ⟨hsameAt, hiff⟩ := hsame folder hown
      exact (h.others (mt hiff.mpr hskipped) (nobodyAt_of_set hworkers hold hnobody hown)).of_sameAt
        hsameAt

/-- A worker that is at no folder goes on to something else that is no folder. -/
theorem Undisturbed.change_idly (h : p.Undisturbed outcomes entries folders c)
    (hold : p.workers[number]? = some old)
    (hworkers : p'.workers = (p.setWorker number new).workers) (hnext : p'.next = p.next)
    (hresults : p'.results = p.results) (hnew : ∀ folder, ¬new.IsAt folder)
    (hleft : ∀ folder, ¬old.IsAt folder) : p'.Undisturbed outcomes entries folders c := by
  have hlength := congrArg List.length hresults
  refine h.change hold hworkers hnext hlength (Worker.undisturbed_of_not_isAt hnew) ?_ h.apart ?_ ?_
  · exact fun folder hat => absurd hat (hnew folder)
  · refine fun folder _ => ⟨.refl folder c, ?_⟩
    rw [Skipped, Skipped, hresults]
  · exact fun folder hat => absurd hat (hleft folder)

theorem take_next {next : Nat} (hnext : folders[next]? = some folder) :
    folders.take (next + 1) = folders.take next ++ [folder] := by
  rw [List.take_add_one, hnext]
  rfl

/-- The counter has not given the next folder to anybody. -/
theorem not_mem_take (hnodup : folders.Nodup) {next : Nat} (hnext : folders[next]? = some folder) :
    folder ∉ folders.take next := by
  have htake := take_next hnext
  have hparts : (folders.take next ++ [folder]).Nodup := by
    rw [← htake]
    exact hnodup.sublist (List.take_sublist _ _)
  exact fun hmem => (List.nodup_append.mp hparts).2.2 _ hmem _ List.mem_cons_self rfl

/-- **A folder is taken.** The counter has not given it to anybody before. -/
theorem Undisturbed.take (h : p.Undisturbed outcomes entries folders c) (hnodup : folders.Nodup)
    (hold : p.workers[number]? = some .taking) (hnext : folders[p.next]? = some folder) :
    ({ p with next := p.next + 1 }.setWorker number (.starting folder)).Undisturbed outcomes entries
      folders c := by
  have htake := take_next hnext
  have hnew := not_mem_take hnodup hnext
  -- so nobody is at it, and it has not been skipped
  have hfree := h.nobodyAt hnew
  have hunskipped : ¬p.Skipped folder := fun hskipped => hnew (h.deserted hskipped).1
  constructor
  case apart => exact h.apart
  case places => exact h.places
  case workers =>
    intro other worker hworker
    rcases getElem?_setWorker hworker with ⟨-, rfl⟩ | ⟨-, hbefore⟩
    · have hhas := h.others hunskipped hfree
      rw [Holding.after_of_not_mem hnew] at hhas
      exact hhas
    · exact h.workers hbefore
  case taken =>
    intro other own worker hworker hat
    show own ∈ folders.take (p.next + 1)
    rw [htake]
    rcases getElem?_setWorker hworker with ⟨-, rfl⟩ | ⟨-, hbefore⟩
    · obtain rfl : folder = own := hat
      exact List.mem_append_right _ List.mem_cons_self
    · exact List.mem_append_left _ (h.taken hbefore hat)
  case alone =>
    -- whoever is at a folder is not at this one
    intro other other' own worker worker' hworker hworker' hat hat'
    rcases getElem?_setWorker hworker with ⟨rfl, rfl⟩ | ⟨-, hbefore⟩
    · rcases getElem?_setWorker hworker' with ⟨rfl, -⟩ | ⟨-, hbefore'⟩
      · rfl
      · obtain rfl : folder = own := hat
        exact absurd hat' (hfree other' worker' hbefore')
    · rcases getElem?_setWorker hworker' with ⟨rfl, rfl⟩ | ⟨-, hbefore'⟩
      · obtain rfl : folder = own := hat'
        exact absurd hat (hfree other worker hbefore)
      · exact h.alone hbefore hbefore' hat hat'
  case deserted =>
    intro own hskipped
    obtain ⟨htaken, hnobody⟩ := h.deserted hskipped
    refine ⟨?_, fun other worker hworker hat => ?_⟩
    · show own ∈ folders.take (p.next + 1)
      rw [htake]
      exact List.mem_append_left _ htaken
    · rcases getElem?_setWorker hworker with ⟨-, rfl⟩ | ⟨-, hbefore⟩
      · obtain rfl : folder = own := hat
        exact hunskipped hskipped
      · exact hnobody other worker hbefore hat
  case skipped => exact h.skipped
  case others =>
    intro own hskipped hnobody
    have hnumber := (List.getElem?_eq_some_iff.mp hold).1
    have hne : own ≠ folder := by
      rintro rfl
      exact hnobody number _ (List.getElem?_set_self hnumber) rfl
    -- the folder that is taken is another one
    have hsame : Holding.after (folders.take (p.next + 1)) outcomes entries own =
        Holding.after (folders.take p.next) outcomes entries own := by
      rw [htake]
      simp only [Holding.after, List.mem_append, List.mem_singleton, hne, or_false]
    show c.Has own (Holding.after (folders.take (p.next + 1)) outcomes entries own)
    rw [hsame]
    exact h.others hskipped (nobodyAt_of_set rfl hold hnobody id)

/-- The counter moves on when nothing is left to take. -/
theorem Undisturbed.pass (h : p.Undisturbed outcomes entries folders c)
    (hold : p.workers[number]? = some .taking) (hnext : folders[p.next]? = none) :
    ({ p with next := p.next + 1 }.setWorker number .idle).Undisturbed outcomes entries folders
      c := by
  -- the counter is behind all folders already
  have hall : folders.length ≤ p.next := List.getElem?_eq_none_iff.mp hnext
  have htake : folders.take (p.next + 1) = folders.take p.next := by
    rw [List.take_of_length_le hall, List.take_of_length_le (Nat.le_succ_of_le hall)]
  have hcounted :
      ({ p with next := p.next + 1 } : Pool).Undisturbed outcomes entries folders c := by
    constructor
    case apart => exact h.apart
    case places => exact h.places
    case workers => exact h.workers
    case taken => exact fun hworker hat => htake ▸ h.taken hworker hat
    case alone => exact h.alone
    case deserted => exact fun hskipped => htake ▸ h.deserted hskipped
    case skipped => exact h.skipped
    case others => exact fun hskipped hnobody => htake ▸ h.others hskipped hnobody
  exact hcounted.change_idly hold rfl rfl rfl (fun _ => id) fun _ => id

/-- A folder is skipped, and stays as it was. -/
theorem Undisturbed.skip (h : p.Undisturbed outcomes entries folders c)
    (hold : p.workers[number]? = some (.starting folder)) :
    ((p.setResult folder .cancelled).setWorker number .checking).Undisturbed outcomes entries
      folders c := by
  have hhas : c.Has folder (entries folder) := h.workers hold
  have hplace : folder < p.results.length :=
    h.places folder (List.mem_of_mem_take (h.taken hold rfl))
  refine h.change hold rfl rfl List.length_set trivial (fun _ => False.elim) h.apart ?_ ?_
  · intro other hother
    exact ⟨.refl other c, skipped_setResult_ne (Ne.symm hother)⟩
  · rintro other rfl -
    exact ⟨fun _ => hhas, fun hnot => absurd (List.getElem?_set_self hplace) hnot⟩

/-! ### Steps and schedules -/

section

variable (hr : r.Determined outcomes)
  (hkept : ∀ (folder : Nat) (kept : Kept), (entries folder).kept = some kept →
    kept.outcome = outcomes folder)
  (hlt : ∀ folder ∈ folders, folder < s.cache.slots.length)
  (h : p.Undisturbed outcomes entries folders s.cache)

include hr hkept hlt h

/-- What the calls of the workers do, they do undisturbed. -/
theorem Undisturbed.goesOn {call : Reader.Call}
    (hworker : p.workers[number]? = some (.calling folder call)) :
    call.GoesOn (outcomes folder) (entries folder) folder s (call.step r folder s) := by
  have hmem : folder ∈ folders := List.mem_of_mem_take (h.taken hworker rfl)
  exact Reader.Call.step_undisturbed hr (hkept folder) h.apart (hlt folder hmem)
    (h.workers hworker)

/-- A call that has come to its end leaves what can be kept, whatever its worker does next. -/
theorem Undisturbed.leave {call : Reader.Call} {own : Outcome}
    (hworker : p.workers[number]? = some (.calling folder call))
    (houtcome : (call.step r folder s).1.outcome? = some own)
    (hworkers : p'.workers = (p.setWorker number new).workers) (hnext : p'.next = p.next)
    (hresults : p'.results = p.results ∨
      ∃ result ≠ .cancelled, p'.results = p.results.set folder result)
    (hnew : ∀ folder, ¬new.IsAt folder) :
    p'.Undisturbed outcomes entries folders (call.step r folder s).2.cache := by
  have hgoesOn := h.goesOn hr hkept hlt hworker
  obtain ⟨-, hhas⟩ := hgoesOn.undisturbed.ended houtcome
  have hunskipped := h.not_skipped hworker rfl
  -- a result that is written is no skip, and it is that of the folder
  obtain ⟨hlength, hothers, hown⟩ : p'.results.length = p.results.length ∧
      (∀ other ≠ folder, (p'.Skipped other ↔ p.Skipped other)) ∧ ¬p'.Skipped folder := by
    unfold Skipped at hunskipped ⊢
    rcases hresults with hresults | ⟨result, hne, hresults⟩
    · rw [hresults]
      exact ⟨rfl, fun _ _ => Iff.rfl, hunskipped⟩
    · rw [hresults]
      exact ⟨List.length_set, fun _ hother => skipped_setResult_ne hother,
        not_skipped_setResult hne⟩
  refine h.change hworker hworkers hnext hlength (Worker.undisturbed_of_not_isAt hnew)
    (fun other hat => absurd hat (hnew other)) hgoesOn.apart ?_ ?_
  · exact fun other hother =>
      ⟨hgoesOn.sameAt other (Ne.symm hother), hothers other (Ne.symm hother)⟩
  · rintro other rfl -
    exact ⟨fun hskipped => absurd hskipped hown, fun _ => hhas⟩

variable (cancelled) in
/-- **Whoever has the next turn**, the workers do not disturb each other. -/
theorem Undisturbed.step (hnodup : folders.Nodup) (number : Nat) :
    (p.step r cancelled folders number s).1.Undisturbed outcomes entries folders
        (p.step r cancelled folders number s).2.cache ∧
      (p.step r cancelled folders number s).2.cache.slots.length = s.cache.slots.length := by
  rcases step_move r cancelled folders p number s with
    ⟨-, hnone⟩ | ⟨worker, p', s', hworker, hstep, hmove⟩
  · rw [hnone]
    exact ⟨h, rfl⟩
  · rw [hstep]
    -- a worker at a folder changes what is known of it, and of no other folder
    cases hmove with
    | heed hstop => exact ⟨h.change_idly hworker rfl rfl rfl (fun _ => id) fun _ => id, rfl⟩
    | goOn hstop => exact ⟨h.change_idly hworker rfl rfl rfl (fun _ => id) fun _ => id, rfl⟩
    | take hnext => exact ⟨h.take hnodup hworker hnext, rfl⟩
    | leave hnext => exact ⟨h.pass hworker hnext, rfl⟩
    | skip htrue => exact ⟨h.skip hworker, rfl⟩
    | @call folder hfalse =>
      have hhas : s.cache.Has folder (entries folder) := h.workers hworker
      refine ⟨h.change hworker rfl rfl rfl hhas (fun other hat => ?_) h.apart ?_ ?_, rfl⟩
      · exact ⟨hat, h.not_skipped hworker hat⟩
      · exact fun other _ => ⟨.refl other _, Iff.rfl⟩
      · exact fun _ hat hnot => absurd hat hnot
    | @carryOn folder call hnone =>
      have hgoesOn := h.goesOn hr hkept hlt hworker
      refine ⟨h.change hworker rfl rfl rfl hgoesOn.undisturbed (fun other hat => ?_) hgoesOn.apart
        ?_ ?_, hgoesOn.length_slots⟩
      · exact ⟨hat, h.not_skipped hworker hat⟩
      · exact fun other hother => ⟨hgoesOn.sameAt other (Ne.symm hother), Iff.rfl⟩
      · exact fun _ hat hnot => absurd hat hnot
    | @result folder call outcome result houtcome hresult =>
      have hne := FolderResult.ne_cancelled_of_ofOutcome hresult
      exact ⟨h.leave hr hkept hlt hworker houtcome rfl rfl (.inr ⟨result, hne, rfl⟩) fun _ => id,
        (h.goesOn hr hkept hlt hworker).length_slots⟩
    | fault houtcome hfault =>
      exact ⟨h.leave hr hkept hlt hworker houtcome rfl rfl (.inl rfl) fun _ => id,
        (h.goesOn hr hkept hlt hworker).length_slots⟩
    | note fault => exact ⟨h.change_idly hworker rfl rfl rfl (fun _ => id) fun _ => id, rfl⟩
    | halt => exact ⟨h.change_idly hworker rfl rfl rfl (fun _ => id) fun _ => id, rfl⟩

variable (cancelled) in
/-- A turn is one step less for the worker that has it, and none more for the others. -/
theorem Undisturbed.left_step (number other : Nat) :
    (p.step r cancelled folders number s).1.left folders other ≤
      p.left folders other - if other = number then 1 else 0 := by
  rcases step_move r cancelled folders p number s with
    ⟨hidle, hnone⟩ | ⟨worker, p', s', hworker, hstep, hmove⟩
  · rw [hnone]
    split
    · next heq =>
      subst heq
      -- there is no such worker, or it has nothing left to do
      cases hworker : p.workers[other]? with
      | none =>
        rw [left, List.getD_eq_getElem?_getD, hworker]
        exact Nat.zero_le _
      | some worker =>
        rw [left_eq hworker, hidle worker hworker]
        exact Nat.zero_le _
    · exact le_rfl
  · rw [hstep]
    refine hmove.left_le hworker (fun folder call heq => ?_) other
    subst heq
    exact (h.goesOn hr hkept hlt hworker).left_le

variable (cancelled) in
/-- **Under every schedule** the workers do not disturb each other, and every turn counts. -/
theorem Undisturbed.run (hnodup : folders.Nodup) (schedule : List Nat) :
    let ended := Pool.run r cancelled folders schedule p s
    ended.1.Undisturbed outcomes entries folders ended.2.cache ∧
      ended.2.cache.slots.length = s.cache.slots.length ∧
      ∀ number, ended.1.left folders number ≤ p.left folders number - schedule.count number := by
  induction schedule generalizing p s with
  | nil => exact ⟨h, rfl, fun _ => le_rfl⟩
  | cons turn schedule ih =>
    obtain ⟨h₁, hlength⟩ := h.step cancelled hr hkept hlt hnodup turn
    have hless := h.left_step cancelled hr hkept hlt turn
    have hlt₁ : ∀ folder ∈ folders,
        folder < (p.step r cancelled folders turn s).2.cache.slots.length := by
      intro folder hfolder
      exact (hlt folder hfolder).trans_eq hlength.symm
    obtain ⟨h₂, hlength₂, hless₂⟩ := ih hlt₁ h₁
    refine ⟨h₂, hlength₂.trans hlength, fun number => ?_⟩
    -- the turn is one of those that are counted
    calc (Pool.run r cancelled folders schedule _ _).1.left folders number
        ≤ (p.step r cancelled folders turn s).1.left folders number - schedule.count number :=
          hless₂ number
      _ ≤ p.left folders number - (if number = turn then 1 else 0) - schedule.count number :=
          Nat.sub_le_sub_right (hless number) _
      _ = p.left folders number - (turn :: schedule).count number := by
          by_cases hnumber : number = turn
          · subst hnumber
            rw [if_pos rfl, List.count_cons_self, Nat.sub_sub, Nat.add_comm]
          · rw [if_neg hnumber, List.count_cons_of_ne (Ne.symm hnumber), Nat.sub_zero]

end

/-! ### The end of a schedule -/

/-- Every worker has as many turns as it may need. -/
def Fair (workers folders : Nat) (schedule : List Nat) : Prop :=
  ∀ number < workers, stepsPerFolder * (folders + 1) ≤ schedule.count number

theorem fair_schedule (workers folders : Nat) :
    Fair workers folders (schedule workers folders) := by
  intro number hnumber
  -- the turns of the worker are there one after another
  have hturns : List.replicate (stepsPerFolder * (folders + 1)) number ∈
      (List.range workers).map fun number =>
        List.replicate (stepsPerFolder * (folders + 1)) number :=
    List.mem_map_of_mem (List.mem_range.mpr hnumber)
  calc stepsPerFolder * (folders + 1)
      = (List.replicate (stepsPerFolder * (folders + 1)) number).count number :=
        List.count_replicate_self.symm
    _ ≤ (schedule workers folders).count number :=
        (List.sublist_flatten_of_mem hturns).count_le number

/-- A schedule that goes on after a fair one is fair. -/
theorem Fair.append {workers count : Nat} {later : List Nat} (h : Fair workers count later)
    (before : List Nat) : Fair workers count (before ++ later) := by
  intro number hnumber
  rw [List.count_append]
  exact (h number hnumber).trans (Nat.le_add_left _ _)

/-- Nobody has more to do in the beginning than a fair schedule has turns for. -/
theorem Fair.left_start_le {workers : Nat} {schedule : List Nat}
    (h : Fair workers folders.length schedule) (count number : Nat) :
    (start workers count).left folders number ≤ schedule.count number := by
  by_cases hnumber : number < workers
  · refine le_trans ?_ (h number hnumber)
    rw [left_eq (List.getElem?_replicate_of_lt hnumber)]
    simp only [Worker.left, start, stepsPerFolder]
    omega
  · have hnone : (start workers count).workers.getD number .idle = .idle := by
      rw [List.getD_eq_getElem?_getD, List.getElem?_eq_none]
      · rfl
      · exact List.length_replicate.trans_le (Nat.not_lt.mp hnumber)
    rw [left, hnone]
    exact Nat.zero_le _

theorem isDone_of_left (h : ∀ number, p.left folders number = 0) : p.isDone = true := by
  refine isDone_iff.mpr fun worker hworker => ?_
  obtain ⟨number, hnumber⟩ := List.mem_iff_getElem?.mp hworker
  have hleft := h number
  rw [left_eq hnumber] at hleft
  exact Worker.eq_idle_of_left hleft

section

variable (hr : r.Determined outcomes) (h : s.cache.Settled outcomes entries)
  (hnodup : folders.Nodup)
  (hlt : ∀ folder ∈ folders, folder < s.cache.slots.length) {count : Nat}
  (hcount : ∀ folder ∈ folders, folder < count) {workers : Nat} {schedule : List Nat}

include hr h hnodup hlt hcount

variable (cancelled) in
/-- **A fair schedule comes to an end**, whatever is cancelled. -/
theorem isDone_run (hfair : Fair workers folders.length schedule) :
    (Pool.run r cancelled folders schedule (start workers count) s).1.isDone = true := by
  have hstart := undisturbed_start workers hcount h
  obtain ⟨-, -, hleft⟩ := hstart.run cancelled hr (fun _ _ => h.kept) hlt hnodup schedule
  have hnone : ∀ number,
      (Pool.run r cancelled folders schedule (start workers count) s).1.left folders number =
        0 := by
    intro number
    refine Nat.le_zero.mp ((hleft number).trans_eq ?_)
    exact Nat.sub_eq_zero_of_le (hfair.left_start_le count number)
  exact isDone_of_left hnone

/-- **A pool that has taken all folders, skipped none and is done** has left in the cache what can
be kept of them, as one worker would have. -/
theorem settled_run :
    let ended := Pool.run r cancelled folders schedule (start workers count) s
    ended.1.isDone = true → folders.length ≤ ended.1.next → (∀ folder, ¬ended.1.Skipped folder) →
    ended.2.cache.Settled outcomes (Holding.after folders outcomes entries) ∧
      ended.2.cache.slots.length = s.cache.slots.length := by
  intro ended hdone hall hskipped
  have hstart := undisturbed_start workers hcount h
  obtain ⟨hundisturbed, hlength, -⟩ := hstart.run cancelled hr (fun _ _ => h.kept) hlt hnodup
    schedule
  have hidle := isDone_iff.mp hdone
  refine ⟨⟨hundisturbed.apart, fun folder => ?_, fun {folder kept} => ?_⟩, hlength⟩
  · -- nobody is at any folder, and all have been taken
    rw [← List.take_of_length_le hall]
    refine hundisturbed.others (hskipped folder) fun number worker hworker => ?_
    rw [hidle worker (List.mem_of_getElem? hworker)]
    exact id
  · exact Holding.outcome_of_after fun _ _ => h.kept

end

/-! ### Who takes what -/

/-- What the worker whose turn it is takes. -/
def take? (folders : List Nat) (p : Pool) (number : Nat) : Option (Nat × Nat) :=
  match p.workers.getD number .idle with
  | .taking => folders[p.next]?.map fun folder => (number, folder)
  | _ => none

/-- Who takes which folder, turn by turn. -/
def takes (r : Reader σ) (cancelled : StateM σ Bool) (folders : List Nat) :
    List Nat → Pool → Session σ → List (Nat × Nat)
  | [], _, _ => []
  | number :: schedule, p, s =>
    let next := p.step r cancelled folders number s
    (p.take? folders number).toList ++ takes r cancelled folders schedule next.1 next.2

/-- Only a worker that is about to take a folder takes one, the next one. -/
theorem Move.folders_take? (hmove : Move r cancelled folders p number s old p' s')
    (hold : p.workers[number]? = some old) :
    folders.take p.next ++ (p.take? folders number).toList.map Prod.snd =
      folders.take p'.next := by
  have hget : p.workers.getD number .idle = old := by
    rw [List.getD_eq_getElem?_getD, hold]
    rfl
  unfold take?
  rw [hget]
  -- only a worker that takes a folder moves the counter
  cases hmove with
  | take hnext =>
    show _ = folders.take (p.next + 1)
    rw [hnext, List.take_add_one, hnext]
    rfl
  | leave hnext =>
    show _ = folders.take (p.next + 1)
    rw [hnext, List.take_add_one, hnext]
    rfl
  | _ => exact List.append_nil _

/-- **The counter gives out the folders in order**, whoever asks. -/
theorem folders_takes (r : Reader σ) (cancelled : StateM σ Bool) (folders schedule : List Nat)
    (p : Pool) (s : Session σ) :
    folders.take p.next ++ (takes r cancelled folders schedule p s).map Prod.snd =
      folders.take (Pool.run r cancelled folders schedule p s).1.next := by
  induction schedule generalizing p s with
  | nil => exact List.append_nil _
  | cons number schedule ih =>
    -- a turn gives out the next folder, or none
    have hone : folders.take p.next ++ (p.take? folders number).toList.map Prod.snd =
        folders.take (p.step r cancelled folders number s).1.next := by
      rcases step_move r cancelled folders p number s with
        ⟨hidle, hnone⟩ | ⟨worker, p', s', hworker, hstep, hmove⟩
      · have hget : p.workers.getD number .idle = .idle := by
          rw [List.getD_eq_getElem?_getD]
          cases hworker : p.workers[number]? with
          | none => rfl
          | some worker => exact hidle worker hworker
        rw [hnone, take?, hget]
        exact List.append_nil _
      · rw [hstep]
        exact hmove.folders_take? hworker
    rw [takes, Pool.run, runState_bind, List.map_append, ← List.append_assoc, hone]
    exact ih _ _

end Pool

end SolidArchive
