import SolidArchive.Proofs.Reader.Delivery
import SolidArchive.Proofs.Reader.Generations
import SolidArchive.Proofs.Reader.Schedules

/-!
# When nobody is at a reader

Between uses nobody is at a reader. What it has then is a cache that some crowd has left behind, all
of whom have gone (`Reader.Idle`); who they were, in which order they came and which folders were
released between is not said. A decode that was begun has ended, so the cache is settled
(`Crowd.Run.settled`), and whoever comes next has nobody to wait for.

All that a reader does by itself leaves it so (`Reader.Idle.after`). A use by one worker is a visit
of somebody who leaves again (`Reader.ActsBySteps.after_stepsTo`). Several workers sit at places of
a crowd while they are at work, and when they are done the places are empty (`Pool.run_steps`).
-/

namespace SolidArchive

open Reader

variable {σ : Type} {r : Reader σ} {outcomes : Nat → Outcome} {entries : Nat → Holding}

/-! ### After a crowd has gone -/

namespace Crowd

variable {c c' : Crowd} {events : List Event}

/-- A crowd as a scene: it is only remembered for which folder a ticket was given out. -/
def scene (c : Crowd) (outside : σ) : Scene σ where
  session := { cache := c.cache, outside }
  owners := c.claims.map Claim.folder

theorem Step.advances {e : Event} (h : Step r.CanDecode c e c') (hserved : c.Served r.CanDecode)
    (outside : σ) : r.Advances (c.scene outside) (c'.scene outside) := by
  cases h with
  | @claim place folder hat hnone =>
    have hclaim : r.Advance (c.scene outside) ((c.scene outside).claim folder) := .claim hnone
    have howners : ((c.claim place folder).scene outside).owners =
        (c.scene outside).owners ++ [folder] := List.map_append
    -- the owner of the new ticket is all that is remembered of the claim
    have hsame : (c.scene outside).claim folder = (c.claim place folder).scene outside := by
      rw [Scene.claim, ← howners]
      rfl
    rw [← hsame]
    exact .single hclaim
  | @fulfil place folder ticket generation outcome hat =>
    have howner : (c.scene outside).owners[ticket]? = some folder := by
      rw [scene, List.getElem?_map, (hserved.working hat).1]
      rfl
    exact .single (.fulfil howner (hserved.ended hat rfl))
  | settle hat => exact .single (.settle _ (hserved.ended hat rfl))
  | @release folder hfolder => exact .single (.release _ folder)
  -- all else is a matter of the callers alone
  | _ => exact .refl

/-- **What happens in a crowd happens in a scene.** -/
theorem Run.reachable (h : Run r.CanDecode r.archive.folders.length events c) (outside : σ) :
    r.Reachable (c.scene outside) := by
  induction h with
  | refl => exact r.reachable_start outside
  | tail hsteps hstep ih => exact ih.advances (hstep.advances (Run.orderly hsteps).served outside)

/-- No place of the crowd is taken. -/
def Quiet (c : Crowd) : Prop := ∀ place, c.callers place = none

/-- **When all have gone** the cache is settled, whatever they have done. -/
theorem Run.settled {folders : Nat} (h : Run r.CanDecode folders events c)
    (hr : r.Determined outcomes) (hquiet : c.Quiet) : c.cache.Settled outcomes c.cache.holding := by
  have horderly := h.orderly
  constructor
  case apart =>
    constructor
    case distinct =>
      intro folder other ticket hfolder hother
      obtain ⟨_, hclaim⟩ := horderly.booked.standing hfolder
      obtain ⟨_, hclaim'⟩ := horderly.booked.standing hother
      exact congrArg Claim.folder (Option.some.inj (hclaim.symm.trans hclaim'))
    case ticket_lt =>
      intro folder ticket hticket
      obtain ⟨_, hclaim⟩ := horderly.booked.standing hticket
      rw [← horderly.booked.length_claims]
      exact (List.getElem?_eq_some_iff.mp hclaim).1
  case has =>
    intro folder
    cases h.entry folder with
    | inFlight hat hticket => exact nomatch (hquiet _).symm.trans hat
    | atRest hkeeps hmarked => exact hkeeps.has
  case kept =>
    intro folder kept hkept
    -- what is kept is what decoding the folder has come to
    obtain ⟨outcome, houtcome, hkept⟩ := Option.bind_eq_some_iff.mp hkept
    obtain ⟨ticket, hticket, houtcome⟩ := Option.bind_eq_some_iff.mp houtcome
    obtain ⟨_, hclaim⟩ := horderly.booked.standing hticket
    have hcan : r.CanDecode folder outcome := horderly.served.known hclaim houtcome
    rw [hr.eq_of_canDecode hcan]
    exact (Kept.ofOutcome?_eq_some_iff.mp hkept).symm

end Crowd

/-- A settled cache is at rest (`Cache.Rests`): each ticket in a slot has its outcome. -/
theorem Cache.Settled.rests {c : Cache} (h : c.Settled outcomes entries) : c.Rests := by
  intro folder ticket hticket
  refine .inr ?_
  have hkeeps := (h.has folder).keeps
  cases hkept : (entries folder).kept with
  | none =>
    rw [hkept] at hkeeps
    exact nomatch hticket.symm.trans hkeeps.ticket_eq_none
  | some kept =>
    rw [hkept] at hkeeps
    obtain ⟨own, hown, houtcome⟩ := hkeeps.exists_ticket
    obtain rfl := Option.some.inj (hown.symm.trans hticket)
    rw [houtcome]
    exact nofun

namespace Reader

variable {c : Crowd} {s s' : Session σ} {schedule : List Nat}

/-! ### Idle readers -/

/-- Nobody is at the reader, whatever has been done with it before. -/
def Idle (r : Reader σ) (s : Session σ) : Prop :=
  ∃ events c, Crowd.Run r.CanDecode r.archive.folders.length events c ∧ c.Quiet ∧ c.cache = s.cache

theorem idle_start (r : Reader σ) (outside : σ) : r.Idle (r.start outside) :=
  ⟨[], .start r.archive.folders.length, .refl _, fun _ => rfl, rfl⟩

/-- A reader stays idle if from every crowd with its cache steps lead to the new session
(`Reader.StepsTo`), as these leave all places as they were. -/
theorem Idle.of_stepsTo (h : r.Idle s)
    (hstepsTo : ∀ c, r.Receives c → c.cache = s.cache → r.StepsTo c s') : r.Idle s' := by
  obtain ⟨events, c, hrun, hquiet, hcache⟩ := h
  obtain ⟨events', c', hsteps, hcache', hcallers⟩ := hstepsTo c ⟨events, hrun⟩ hcache
  refine ⟨events ++ events', c', hrun.trans hsteps, fun place => ?_, hcache'⟩
  rw [hcallers]
  exact hquiet place

/-- A reader at which nobody is has a cache that is settled. -/
theorem Idle.exists_scene (h : r.Idle s) (hr : r.Determined outcomes) :
    ∃ c : Scene σ, c.session = s ∧ r.Reachable c ∧
      (∃ entries, c.cache.Settled outcomes entries) ∧
      c.cache.slots.length = r.archive.folders.length := by
  obtain ⟨events, c, hrun, hquiet, hcache⟩ := h
  refine ⟨c.scene s.outside, ?_, hrun.reachable s.outside, ⟨_, hrun.settled hr hquiet⟩,
    Receives.length_slots ⟨events, hrun⟩⟩
  rw [Crowd.scene, hcache]

end Reader

/-! ### Workers come and go -/

namespace Pool

variable {c : Crowd} {s : Session σ} {p : Pool} {cancelled : StateM σ Bool} {folders : List Nat}

theorem step_of_length_le {number : Nat} (h : p.workers.length ≤ number) :
    p.step r cancelled folders number s = (p, s) := by
  rw [step, List.getD_eq_default _ _ h]
  rfl

theorem length_workers_step (r : Reader σ) (cancelled : StateM σ Bool) (folders : List Nat)
    (p : Pool) (number : Nat) (s : Session σ) :
    (p.step r cancelled folders number s).1.workers.length = p.workers.length := by
  rcases step_move r cancelled folders p number s with
    ⟨-, hnone⟩ | ⟨worker, p', s', -, hstep, hmove⟩
  · rw [hnone]
  · rw [hstep]
    cases hmove with
    | _ => exact List.length_set

variable (cancelled) in
/-- **Workers at work** sit at places in a crowd, each at the one of its number, and nobody else is
about. -/
theorem run_steps (hr : r.ActsBySteps) (hc : r.Receives c) (hcache : c.cache = s.cache)
    (h : p.Seated id c) (hothers : ∀ place, p.workers.length ≤ place → c.callers place = none)
    (hfolders : ∀ folder ∈ folders, folder < r.archive.folders.length) (schedule : List Nat) :
    ∃ events c', Crowd.Steps r.CanDecode c events c' ∧
      c'.cache = (run r cancelled folders schedule p s).2.cache ∧
      (run r cancelled folders schedule p s).1.Seated id c' ∧
      ∀ place, (run r cancelled folders schedule p s).1.workers.length ≤ place →
        c'.callers place = none := by
  induction schedule generalizing p s c with
  | nil => exact ⟨[], c, .refl c, hcache, h, hothers⟩
  | cons number schedule ih =>
    unfold run
    rw [runState_bind]
    by_cases hnobody : p.workers.length ≤ number
    · -- there is no such worker
      rw [step_of_length_le hnobody]
      exact ih hc hcache h hothers
    · obtain ⟨events, c₁, hsteps, hcache₁, hseated, hplaces⟩ :=
        step_steps cancelled hr hc hcache h Function.injective_id hfolders number
      have hothers₁ : ∀ place, (p.step r cancelled folders number s).1.workers.length ≤ place →
          c₁.callers place = none := by
        intro place hplace
        rw [length_workers_step] at hplace
        have hne : place ≠ number := fun heq => hnobody (heq ▸ hplace)
        rw [hplaces place hne]
        exact hothers place hplace
      obtain ⟨events', c₂, hsteps', hcache₂, hend⟩ :=
        ih (hc.steps hsteps) hcache₁ hseated hothers₁
      exact ⟨events ++ events', c₂, hsteps.trans hsteps', hcache₂, hend⟩

/-- Workers that are done have left their places. -/
theorem Seated.quiet (h : p.Seated id c)
    (hothers : ∀ place, p.workers.length ≤ place → c.callers place = none)
    (hdone : p.isDone = true) :
    c.Quiet := by
  intro place
  rcases Nat.lt_or_ge place p.workers.length with hlt | hge
  · -- whoever is done is nowhere, and that is where the crowd has them
    have hworker := List.getElem?_eq_getElem hlt
    have hsits := h.sitsAt hworker
    rw [isDone_iff.mp hdone _ (List.getElem_mem hlt)] at hsits
    exact hsits
  · exact hothers place hge

end Pool

namespace Reader

variable {s : Session σ} {schedule : List Nat} {cancelled : StateM σ Bool} {folders : List Nat}

/-- A reader is idle after a run of a pool that has brought all its workers to their end. -/
theorem Idle.run (hidle : r.Idle s) (hbySteps : r.ActsBySteps)
    (hfolders : ∀ folder ∈ folders, folder < r.archive.folders.length) {workers count : Nat}
    (hdone : (Pool.run r cancelled folders schedule (.start workers count) s).1.isDone = true) :
    r.Idle (Pool.run r cancelled folders schedule (.start workers count) s).2 := by
  obtain ⟨events, c, hrun, hquiet, hcache⟩ := hidle
  obtain ⟨events', c', hsteps, hcache', hseated, hothers⟩ :=
    Pool.run_steps cancelled hbySteps ⟨events, hrun⟩ hcache
      (Pool.seated_start workers count fun number => hquiet number) (fun place _ => hquiet place)
      hfolders schedule
  exact ⟨events ++ events', c', hrun.trans hsteps, hseated.quiet hothers hdone, hcache'⟩

/-- To cut the files out of what the folders have come to leaves the session alone. -/
theorem extractAll_snd (r : Reader σ) (cancelled : StateM σ Bool) (s : Session σ) :
    ((r.extractAll cancelled).run s).2 = ((r.decodeAll cancelled).run s).2 := by
  unfold extractAll
  rw [runExcept_bind]
  rcases (r.decodeAll cancelled).run s with ⟨fault | results, s'⟩
  · rfl
  · dsimp only
    cases collectFiles results r.map.files with
    | ok extracted => rfl
    | error error => rfl

theorem decodeInPool_run (r : Reader σ) (cancelled : StateM σ Bool) (folders schedule : List Nat)
    (workers : Nat) (s : Session σ) :
    (r.decodeInPool cancelled folders schedule workers).run s =
      let ended := Pool.run r cancelled folders schedule
        (.start workers r.archive.folders.length) s
      (ended.1.finish, ended.2) := by
  unfold decodeInPool
  rw [runExcept_bind, runExcept_liftM]
  dsimp only
  cases (Pool.run r cancelled folders schedule (.start workers r.archive.folders.length)
    s).1.finish with
  | ok results => rfl
  | error fault => rfl

theorem actsBySteps_of_pure {size : Except SourceFault Nat}
    {read : (offset length : Nat) → Except SourceFault Bytes}
    {decode : Coder → List Bytes → Option Nat → Except DecoderFault Bytes}
    (hsource : r.source = .pure size read) (hdecoder : r.decoder = .pure decode) :
    r.ActsBySteps := by
  refine .of_cache_eq ?_ ?_
  · intro s offset length
    rw [hsource]
    rfl
  · intro s coder inputs expected
    rw [hdecoder]
    rfl

section

variable (hr : r.Determined outcomes) (hmap : StreamMap.derive r.archive = .ok r.map)

include hr hmap

/-- Workers with a settled cache come to their end if each has turns enough. -/
theorem isDone_of_settled (hsettled : s.cache.Settled outcomes entries)
    (hslots : s.cache.slots.length = r.archive.folders.length) (cancelled : StateM σ Bool)
    (hfair : Pool.Fair (r.workerCount r.map.backedFolders.length) r.map.backedFolders.length
      schedule) :
    (Pool.run r cancelled r.map.backedFolders schedule
      (.start (r.workerCount r.map.backedFolders.length) r.archive.folders.length) s).1.isDone =
      true := by
  have hlt := fun folder (hfolder : folder ∈ r.map.backedFolders) =>
    lt_of_mem_backedFolders hmap hfolder
  refine Pool.isDone_run cancelled hr hsettled (nodup_backedFolders r.map)
    (fun folder hfolder => ?_) hlt hfair
  exact (hlt folder hfolder).trans_eq hslots.symm

variable (hidle : r.Idle s)

include hidle

/-- And so do workers that are alone at the reader. -/
theorem Idle.isDone_run (cancelled : StateM σ Bool)
    (hfair : Pool.Fair (r.workerCount r.map.backedFolders.length) r.map.backedFolders.length
      schedule) :
    (Pool.run r cancelled r.map.backedFolders schedule
      (.start (r.workerCount r.map.backedFolders.length) r.archive.folders.length) s).1.isDone =
      true := by
  obtain ⟨c, rfl, -, ⟨entries, hsettled⟩, hslots⟩ := hidle.exists_scene hr
  exact isDone_of_settled hr hmap hsettled hslots cancelled hfair

variable (hbySteps : r.ActsBySteps)

include hbySteps

/-- A reader is idle after a use of any kind. Where several workers extract all files they take
places of the crowd in the meantime; all other uses are made of steps that leave the places as they
were. -/
theorem Idle.use_after (use : Use σ) : r.Idle (use.after r s) := by
  by_cases hpool : (∃ cancelled, use = .extractAll cancelled) ∧
      ¬r.workerCount r.map.backedFolders.length ≤ 1
  · -- several workers come and go within the use
    obtain ⟨⟨cancelled, rfl⟩, hmany⟩ := hpool
    show r.Idle ((r.extractAll cancelled).run s).2
    rw [extractAll_snd, decodeAll, if_neg hmany, decodeInPool_run]
    exact hidle.run hbySteps (fun _ => lt_of_mem_backedFolders hmap)
      (hidle.isDone_run hr hmap cancelled (Pool.fair_schedule _ _))
  · -- all else is a visit
    refine hidle.of_stepsTo fun c hc hcache => ?_
    rw [← Use.answer_snd, Use.answer_eq_use r use (not_and_not_right.mp hpool)]
    exact ((hbySteps.keepsTo_stepsTo c hc).use hmap use s s ⟨rfl, .refl hcache⟩).2.2

/-- **However a reader is used**, nobody is at it afterwards. -/
theorem Idle.after (uses : List (Use σ)) : r.Idle (r.after s uses) := by
  induction uses generalizing s with
  | nil => exact hidle
  | cons use uses ih => exact ih (hidle.use_after hr hmap hbySteps use)

end

end Reader

end SolidArchive
