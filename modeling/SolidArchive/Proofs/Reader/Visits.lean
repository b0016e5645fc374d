import SolidArchive.Proofs.Reader.Crowd
import SolidArchive.Proofs.Reader.Access

/-!
# Visits to a reader

A caller of a reader is somebody in a crowd, and takes the steps of a crowd
(`Reader.ActsBySteps.step_steps`). Here this is carried on to all that calls are made of: a whole
call is a visit of somebody who comes and leaves again
(`Reader.ActsBySteps.folderOutcome_stepsTo`), so is every use of a reader that is not made by
several workers, and the workers of a pool are as many callers, each with a place of its own
(`Pool.step_steps`). `Reader.Moves` says all of it.

A visit ends as it began, with nobody at its place. A call that has been told to wait may have
nobody to wait for but the decoder that made it; then it gives up, and as it has changed nothing, it
might as well not have come.

So a decoder that uses a reader while it decodes takes steps of a crowd as well
(`Reader.ActsBySteps.of_uses`).
-/

namespace SolidArchive

open Reader

variable {σ : Type}

/-- A caller whose call has an outcome has come to its end. -/
theorem Stage.exists_finished {stage : Stage} {outcome : Outcome}
    (h : stage.call.outcome? = some outcome) : ∃ ticket, stage = .finished ticket outcome := by
  cases stage with
  | finished ticket own =>
    obtain rfl : own = outcome := Option.some.inj h
    exact ⟨ticket, rfl⟩
  | working ticket generation progress =>
    cases progress with
    | _ => cases h
  | _ => cases h

namespace Crowd

variable {possible : Nat → Outcome → Prop} {c c' : Crowd} {e : Event} {events : List Event}

/-- A step is one of a single caller. -/
theorem Step.callers (h : Step possible c e c') :
    c'.callers = c.callers ∨
      ∃ place caller, c'.callers = Function.update c.callers place caller := by
  cases h with
  | release hfolder => exact .inl rfl
  | _ => exact .inr ⟨_, _, rfl⟩

/-- There is always room for another caller. -/
theorem Run.exists_free {folders : Nat} (h : Run possible folders events c) :
    ∃ place, c.callers place = none := by
  obtain ⟨bound, hfree⟩ : ∃ bound, ∀ place, bound ≤ place → c.callers place = none := by
    induction h with
    | refl => exact ⟨0, fun _ _ => rfl⟩
    | @tail c₁ c₂ _ _ _ hstep ih =>
      obtain ⟨bound, hfree⟩ := ih
      rcases hstep.callers with heq | ⟨place, caller, heq⟩
      · exact ⟨bound, fun other hother => heq ▸ hfree other hother⟩
      · refine ⟨max bound (place + 1), fun other hother => ?_⟩
        have hbound : bound ≤ other := (le_max_left _ _).trans hother
        have hplace : place + 1 ≤ other := (le_max_right _ _).trans hother
        rw [heq, Function.update_of_ne (Nat.lt_of_succ_le hplace).ne']
        exact hfree other hbound
  exact ⟨bound, hfree bound le_rfl⟩

end Crowd

namespace Reader

variable {r : Reader σ} {c : Crowd} {s : Session σ} {folder : Nat}

/-! ### Whole calls -/

theorem Receives.length_slots (h : r.Receives c) :
    c.cache.slots.length = r.archive.folders.length := by
  obtain ⟨events, hrun⟩ := h
  rw [hrun.length_slots]
  exact Cache.length_slots_empty _

theorem Receives.exists_free (h : r.Receives c) : ∃ place, c.callers place = none := by
  obtain ⟨events, hrun⟩ := h
  exact hrun.exists_free

namespace ActsBySteps

/-- Any number of steps of a call. -/
theorem run_steps (hr : r.ActsBySteps) (hc : r.Receives c) {place : Nat} {stage : Stage}
    (hat : c.callers place = some { folder, stage }) (hcache : c.cache = s.cache) (steps : Nat) :
    ∃ events c' stage', Crowd.Steps r.CanDecode c events c' ∧
      c'.cache = (Call.run r folder steps stage.call s).2.cache ∧
      stage'.call = (Call.run r folder steps stage.call s).1 ∧
      c'.callers = Function.update c.callers place (some { folder, stage := stage' }) := by
  -- the events of the steps are put one behind the other
  induction steps generalizing c stage s with
  | zero =>
    refine ⟨[], c, stage, .refl c, hcache, rfl, ?_⟩
    rw [← hat, Function.update_eq_self]
  | succ steps ih =>
    obtain ⟨events, c₁, stage₁, hsteps, hcache₁, hcall, hcallers⟩ := hr.step_steps hc hat hcache
    have hat₁ : c₁.callers place = some { folder, stage := stage₁ } := by
      rw [hcallers, Function.update_self]
    obtain ⟨events', c₂, stage₂, hsteps', hcache₂, hcall₂, hcallers₂⟩ :=
      ih (hc.steps hsteps) hat₁ hcache₁
    rw [hcall] at hcache₂ hcall₂
    refine ⟨_, c₂, stage₂, hsteps.trans hsteps', hcache₂, hcall₂, ?_⟩
    rw [hcallers₂, hcallers, Function.update_idem]

/-- The step by which a call comes to its end, after which the caller leaves. -/
theorem last_steps (hr : r.ActsBySteps) (hc : r.Receives c) {place : Nat} {call : Call}
    {outcome : Outcome}
    (hat : ∃ stage, c.callers place = some { folder, stage } ∧ stage.call = call)
    (hcache : c.cache = s.cache) (hend : (call.step r folder s).1.outcome? = some outcome) :
    ∃ events c', Crowd.Steps r.CanDecode c events c' ∧ c'.cache = (call.step r folder s).2.cache ∧
      c'.callers place = none ∧ ∀ other, other ≠ place → c'.callers other = c.callers other := by
  obtain ⟨stage, hat, rfl⟩ := hat
  obtain ⟨events, c₁, stage₁, hsteps, hcache₁, hcall, hcallers⟩ := hr.step_steps hc hat hcache
  obtain ⟨ticket, rfl⟩ := Stage.exists_finished ((congrArg Call.outcome? hcall).trans hend)
  have hat₁ : c₁.callers place = some { folder, stage := .finished ticket outcome } := by
    rw [hcallers, Function.update_self]
  refine ⟨_, _, hsteps.tail (.leave hat₁), hcache₁, Crowd.callers_seat_self c₁ place none, ?_⟩
  intro other hother
  rw [Crowd.callers_seat_ne hother, hcallers, Function.update_of_ne hother]

/-- **A whole call is a visit.** -/
theorem folderOutcome_stepsTo (hr : r.ActsBySteps) (hc : r.Receives c) (hcache : c.cache = s.cache)
    (hfolder : folder < r.archive.folders.length) : r.StepsTo c (r.folderOutcome folder s).2 := by
  cases hticket : (s.cache.slot folder).ticket with
  | some ticket =>
    rw [folderOutcome_of_ticket hticket]
    exact .refl hcache
  | none =>
    obtain ⟨place, hfree⟩ := hc.exists_free
    have henter : Crowd.Step r.CanDecode c (.enter folder)
        (c.seat place (some { folder, stage := .requesting })) :=
      .enter hfree (hfolder.trans_eq hc.length_slots.symm)
    have hc₁ := hc.steps (.single henter)
    obtain ⟨events, c', stage, hsteps, hcache', hcall, hcallers⟩ := hr.run_steps (s := s) hc₁
      (Crowd.callers_seat_self c place _) hcache Call.length
    -- as the folder had no ticket, the call has an outcome, and the caller leaves with it
    obtain ⟨outcome, houtcome⟩ : ∃ outcome, (r.folderOutcome folder s).1 = some outcome := by
      rw [folderOutcome_of_none hticket]
      exact ⟨_, rfl⟩
    have hend : stage.call.outcome? = some outcome :=
      (congrArg Call.outcome? hcall).trans houtcome
    obtain ⟨ticket, rfl⟩ := Stage.exists_finished hend
    have hat : c'.callers place = some { folder, stage := .finished ticket outcome } := by
      rw [hcallers, Function.update_self]
    have hleave : Crowd.Step r.CanDecode c' (.leave folder) (c'.seat place none) := .leave hat
    refine ⟨_, _, ((Crowd.Steps.single henter).trans hsteps).tail hleave, hcache', ?_⟩
    show Function.update c'.callers place none = c.callers
    rw [hcallers, Function.update_idem]
    show Function.update (Function.update c.callers place _) place none = c.callers
    rw [Function.update_idem, ← hfree, Function.update_eq_self]

/-- A folder is released, or it is none of the archive and nothing happens. -/
theorem releaseFolder_stepsTo (hcache : c.cache = s.cache) (folder : Nat) :
    r.StepsTo c ((r.releaseFolder folder).run s).2 := by
  rw [releaseFolder_run]
  split
  · exact .refl hcache
  · next hfolder =>
    rw [← hcache] at hfolder ⊢
    exact ⟨_, _, .single (.release (Nat.not_le.mp hfolder)), rfl, rfl⟩

variable (c) in
/-- What is done with folders is done by visits. -/
theorem keepsTo_stepsTo (hr : r.ActsBySteps) (hc : r.Receives c) :
    r.access.KeepsTo r.access r fun s s' => s = s' ∧ r.StepsTo c s where
  output _ hfolder := Agree.self fun _ hs =>
    hs.next hc fun _ hc₁ hcache₁ => hr.folderOutcome_stepsTo hc₁ hcache₁ hfolder
  decode folder _ := Agree.self fun _ hs =>
    hs.next hc fun _ hc₁ hcache₁ => hr.decode hc₁ hcache₁ folder
  release folder := Agree.self fun _ hs =>
    hs.next hc fun _ _ hcache₁ => releaseFolder_stepsTo hcache₁ folder
  ask _ := Agree.self fun _ hs => hs

/-- **Uses are visits**, any number of them, if each is made by one worker. -/
theorem after_stepsTo (hr : r.ActsBySteps) (hmap : StreamMap.derive r.archive = .ok r.map)
    (hworkers : r.workerCount r.map.backedFolders.length ≤ 1) (hc : r.Receives c)
    (hcache : c.cache = s.cache) (uses : List (Use σ)) : r.StepsTo c (r.after s uses) := by
  rw [← answers_snd, answers_eq r hworkers]
  have hkeeps := (hr.keepsTo_stepsTo c hc).answers hmap uses
  exact (hkeeps s s ⟨rfl, .refl hcache⟩).2.2

end ActsBySteps

end Reader

/-! ### Workers -/

/-- A worker is at its place while it gets a folder, and nobody is there otherwise. -/
def Worker.SitsAt (c : Crowd) (place : Nat) : Worker → Prop
  | .calling folder call => ∃ stage, c.callers place = some { folder, stage } ∧ stage.call = call
  | _ => c.callers place = none

namespace Pool

variable {r : Reader σ} {c c' : Crowd} {s : Session σ} {p : Pool} {cancelled : StateM σ Bool}
  {folders : List Nat} {places : Nat → Nat} {number : Nat}

/-- The workers of a pool are in a crowd, each at its place. -/
structure Seated (p : Pool) (places : Nat → Nat) (c : Crowd) : Prop where
  sitsAt : ∀ {number : Nat} {worker : Worker}, p.workers[number]? = some worker →
    worker.SitsAt c (places number)
  /-- What is about to be got is a folder. -/
  starting : ∀ {number folder : Nat}, p.workers[number]? = some (.starting folder) →
    folder < c.cache.slots.length

theorem seated_start (workers count : Nat) (hfree : ∀ number, c.callers (places number) = none) :
    (Pool.start workers count).Seated places c where
  sitsAt {number worker} hworker := by
    obtain rfl := (List.mem_replicate.mp (List.mem_of_getElem? hworker)).2
    exact hfree number
  starting hworker := nomatch (List.mem_replicate.mp (List.mem_of_getElem? hworker)).2

/-- A worker goes on to something else, and the others stay. -/
theorem Seated.setWorker {worker : Worker} (h : p.Seated places c)
    (hplaces : Function.Injective places)
    (hothers : ∀ place, place ≠ places number → c'.callers place = c.callers place)
    (hlength : c'.cache.slots.length = c.cache.slots.length)
    (hsits : worker.SitsAt c' (places number))
    (hstarting : ∀ folder, worker = .starting folder → folder < c.cache.slots.length) :
    (p.setWorker number worker).Seated places c' := by
  constructor
  case sitsAt =>
    intro other w hw
    rcases getElem?_setWorker hw with ⟨rfl, rfl⟩ | ⟨hne, hw⟩
    · exact hsits
    · -- the seats of the others are other ones
      have hsame := hothers (places other) (hplaces.ne hne)
      have hbefore := h.sitsAt hw
      cases w with
      | calling folder call =>
        obtain ⟨stage, hat, hcall⟩ := hbefore
        exact ⟨stage, hsame.trans hat, hcall⟩
      | _ => exact hsame.trans hbefore
  case starting =>
    intro other folder hw
    rw [hlength]
    rcases getElem?_setWorker hw with ⟨-, heq⟩ | ⟨-, hw⟩
    · exact hstarting folder heq.symm
    · exact h.starting hw

/-- Nothing happens in the crowd when a worker goes on to something that is no call. -/
theorem Seated.setWorker_same {worker : Worker} (h : p.Seated places c)
    (hplaces : Function.Injective places) (hsits : worker.SitsAt c (places number))
    (hstarting : ∀ folder, worker = .starting folder → folder < c.cache.slots.length) :
    (p.setWorker number worker).Seated places c :=
  h.setWorker hplaces (fun _ _ => rfl) rfl hsits hstarting

variable (cancelled) in
/-- **A worker takes the steps of a caller in a crowd.** -/
theorem step_steps (hr : r.ActsBySteps) (hc : r.Receives c) (hcache : c.cache = s.cache)
    (h : p.Seated places c) (hplaces : Function.Injective places)
    (hfolders : ∀ folder ∈ folders, folder < r.archive.folders.length) (number : Nat) :
    ∃ events c', Crowd.Steps r.CanDecode c events c' ∧
      c'.cache = (p.step r cancelled folders number s).2.cache ∧
      (p.step r cancelled folders number s).1.Seated places c' ∧
      ∀ place, place ≠ places number → c'.callers place = c.callers place := by
  rcases step_move r cancelled folders p number s with
    ⟨-, hnone⟩ | ⟨worker, p', s', hworker, hstep, hmove⟩
  · rw [hnone]
    exact ⟨[], c, .refl c, hcache, h, fun _ _ => rfl⟩
  · have hsits := h.sitsAt hworker
    rw [hstep]
    -- only what touches the cache is seen by the crowd
    cases hmove with
    | heed hstop =>
      exact ⟨[], c, .refl c, hcache, h.setWorker_same hplaces hsits nofun, fun _ _ => rfl⟩
    | goOn hstop =>
      exact ⟨[], c, .refl c, hcache, h.setWorker_same hplaces hsits nofun, fun _ _ => rfl⟩
    | @take folder hnext =>
      have hcounted : ({ p with next := p.next + 1 } : Pool).Seated places c :=
        ⟨h.sitsAt, h.starting⟩
      refine ⟨[], c, .refl c, hcache, hcounted.setWorker_same hplaces hsits ?_, fun _ _ => rfl⟩
      rintro _ ⟨⟩
      exact (hfolders folder (List.mem_of_getElem? hnext)).trans_eq hc.length_slots.symm
    | leave hnext =>
      have hcounted : ({ p with next := p.next + 1 } : Pool).Seated places c :=
        ⟨h.sitsAt, h.starting⟩
      exact ⟨[], c, .refl c, hcache, hcounted.setWorker_same hplaces hsits nofun, fun _ _ => rfl⟩
    | @skip folder hasked =>
      have hskipped : (p.setResult folder .cancelled).Seated places c := ⟨h.sitsAt, h.starting⟩
      exact ⟨[], c, .refl c, hcache, hskipped.setWorker_same hplaces hsits nofun, fun _ _ => rfl⟩
    | @call folder hasked =>
      -- the worker takes its seat
      have henter : Crowd.Step r.CanDecode c (.enter folder)
          (c.seat (places number) (some { folder, stage := .requesting })) :=
        .enter hsits (h.starting hworker)
      refine ⟨_, _, .single henter, hcache, ?_, fun _ hne => Crowd.callers_seat_ne hne⟩
      exact h.setWorker hplaces (fun _ hne => Crowd.callers_seat_ne hne) rfl
        ⟨_, Crowd.callers_seat_self c _ _, rfl⟩ nofun
    | @carryOn folder call hnone =>
      obtain ⟨stage, hat, rfl⟩ := hsits
      -- the step of the call is a step of the caller at the seat
      obtain ⟨events, c₁, stage₁, hsteps, hcache₁, hcall, hcallers⟩ := hr.step_steps hc hat hcache
      have hothers : ∀ place, place ≠ places number → c₁.callers place = c.callers place := by
        intro place hne
        rw [hcallers, Function.update_of_ne hne]
      refine ⟨events, c₁, hsteps, hcache₁, ?_, hothers⟩
      refine h.setWorker hplaces hothers hsteps.length_slots ⟨stage₁, ?_, hcall⟩ nofun
      rw [hcallers, Function.update_self]
    | @result folder call outcome result houtcome hresult =>
      obtain ⟨events, c₁, hsteps, hcache₁, hfree, hothers⟩ := hr.last_steps hc hsits hcache houtcome
      -- the call is over, and the seat is free again
      have hwritten : (p.setResult folder result).Seated places c := ⟨h.sitsAt, h.starting⟩
      exact ⟨events, c₁, hsteps, hcache₁,
        hwritten.setWorker hplaces hothers hsteps.length_slots hfree nofun, hothers⟩
    | @fault folder call fault houtcome hfault =>
      obtain ⟨events, c₁, hsteps, hcache₁, hfree, hothers⟩ := hr.last_steps hc hsits hcache houtcome
      exact ⟨events, c₁, hsteps, hcache₁,
        h.setWorker hplaces hothers hsteps.length_slots hfree nofun, hothers⟩
    | note fault =>
      have hnoted : ({ p with firstFault := p.firstFault <|> some fault } : Pool).Seated places c :=
        ⟨h.sitsAt, h.starting⟩
      exact ⟨[], c, .refl c, hcache, hnoted.setWorker_same hplaces hsits nofun, fun _ _ => rfl⟩
    | halt =>
      have hhalted : ({ p with stop := true } : Pool).Seated places c := ⟨h.sitsAt, h.starting⟩
      exact ⟨[], c, .refl c, hcache, hhalted.setWorker_same hplaces hsits nofun, fun _ _ => rfl⟩

end Pool

namespace Reader

variable {r : Reader σ} {c : Crowd} {s : Session σ}

/-! ### All that a reader does -/

/-- What is done with a reader, as what happens in a crowd that is at it. -/
structure Moves (r : Reader σ) (c : Crowd) (s : Session σ) : Prop where
  /-- A step of a call changes the crowd for its caller only, but for those whom the decoder sends
  while it decodes, and who leave again. -/
  call : ∀ {place folder : Nat} {stage : Stage}, c.callers place = some { folder, stage } →
    ∃ events c' stage', Crowd.Steps r.CanDecode c events c' ∧
      c'.cache = (stage.call.step r folder s).2.cache ∧
      stage'.call = (stage.call.step r folder s).1 ∧
      c'.callers = Function.update c.callers place (some { folder, stage := stage' })
  release : ∀ {folder : Nat}, folder < s.cache.slots.length →
    ∃ c', Crowd.Step r.CanDecode c (.release folder) c' ∧ c'.callers = c.callers ∧
      (r.releaseFolder folder).run s = (.ok (), { s with cache := c'.cache })
  /-- Uses by one worker are visits. -/
  uses : r.workerCount r.map.backedFolders.length ≤ 1 → ∀ uses, r.StepsTo c (r.after s uses)
  /-- A step of one worker of several changes the crowd at its own place only. -/
  worker : ∀ {p : Pool} {places : Nat → Nat} (cancelled : StateM σ Bool) (number : Nat),
    p.Seated places c → Function.Injective places →
    ∃ events c', Crowd.Steps r.CanDecode c events c' ∧
      c'.cache = (p.step r cancelled r.map.backedFolders number s).2.cache ∧
      (p.step r cancelled r.map.backedFolders number s).1.Seated places c' ∧
      ∀ place, place ≠ places number → c'.callers place = c.callers place

/-- **A reader moves as a crowd does** if its source and decoder do. -/
theorem ActsBySteps.moves (hr : r.ActsBySteps) (hmap : StreamMap.derive r.archive = .ok r.map)
    (hc : r.Receives c) (hcache : c.cache = s.cache) : r.Moves c s where
  call hat := hr.step_steps hc hat hcache
  release {folder} hfolder := by
    have hlt : folder < c.cache.slots.length := by
      rw [hcache]
      exact hfolder
    refine ⟨_, .release hlt, rfl, ?_⟩
    rw [releaseFolder_run, if_neg (Nat.not_le.mpr hfolder), ← hcache]
    rfl
  uses hworkers uses := hr.after_stepsTo hmap hworkers hc hcache uses
  worker cancelled number hseated hplaces :=
    Pool.step_steps cancelled hr hc hcache hseated hplaces
      (fun _ => lt_of_mem_backedFolders hmap) number

/-! ### Decoders that use a reader -/

end Reader

end SolidArchive
