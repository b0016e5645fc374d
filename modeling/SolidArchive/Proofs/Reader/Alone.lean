import SolidArchive.Proofs.Reader.Workers

/-!
# Callers that nobody disturbs

A call waits for somebody else only while a decode of its folder is under way. In a session where
none is (`Cache.Rests`) and where decoding does not go back to the reader, a caller that takes all
its steps gets an outcome, and leaves the session at rest again (`Reader.folderOutcome_alone`).

The workers of an extraction are such callers under the schedule `Pool.schedule`, by which one
worker after another takes its steps: each step brings a worker nearer to its end (`Worker.left`),
and it gets as many as it may need. So the workers never end up waiting for each other, and an
extraction of all files that fails does so for what came of one of the folders
(`Reader.decodeAll_alone`).
-/

namespace SolidArchive

variable {σ : Type} {r : Reader σ} {outcomes : Nat → Outcome} {cancelled : StateM σ Bool}

/-! ### Decodes under way -/

namespace Cache

variable {c : Cache} {folder other ticket : Nat} {outcome : Outcome}

/-- No decode is under way but perhaps that of one ticket. -/
def RestsBut (c : Cache) (but : Option Nat) : Prop :=
  ∀ folder ticket : Nat, (c.slot folder).ticket = some ticket →
    some ticket = but ∨ c.outcome? ticket ≠ none

/-- No decode is under way. -/
def Rests (c : Cache) : Prop := c.RestsBut none

theorem Rests.outcome_ne_none (h : c.Rests) (hticket : (c.slot folder).ticket = some ticket) :
    c.outcome? ticket ≠ none :=
  (h folder ticket hticket).resolve_left nofun

theorem rests_empty (folders : Nat) : (Cache.empty folders).Rests := by
  intro folder ticket hticket
  rw [slot_empty] at hticket
  cases hticket

/-- An outcome that is there stays when tickets are added. -/
theorem outcome?_append {c' : Cache} {more : List (Option Outcome)}
    (h : c.outcome? ticket ≠ none) (htickets : c'.tickets = c.tickets ++ more) :
    c'.outcome? ticket ≠ none := by
  unfold outcome? at h ⊢
  rw [htickets]
  have hlt : ticket < c.tickets.length := by
    by_contra hle
    rw [List.getElem?_eq_none (Nat.not_lt.mp hle)] at h
    exact h rfl
  rwa [List.getElem?_append_left hlt]

/-- In a cache at rest a claim is of the only decode under way, that of the new ticket. -/
theorem Rests.request (h : c.Rests) (hnone : (c.slot folder).ticket = none) :
    (c.request folder).2.RestsBut (some c.tickets.length) := by
  rw [request_of_none hnone]
  intro other ticket hticket
  rcases slot_modifySlot c folder other (fun slot => { slot with ticket := some c.tickets.length })
    with heq | ⟨-, heq⟩
  · have hbefore : (c.slot other).ticket = some ticket :=
      (congrArg Slot.ticket heq).symm.trans hticket
    exact .inr (outcome?_append (h.outcome_ne_none hbefore) rfl)
  · exact .inl (hticket.symm.trans (congrArg Slot.ticket heq))

/-- A cache comes to rest when the outcome is handed out. -/
theorem RestsBut.fulfil (h : c.RestsBut (some ticket)) (hlt : ticket < c.tickets.length)
    (outcome : Outcome) : (c.fulfil ticket outcome).Rests := by
  intro folder other hother
  refine .inr ?_
  show (c.tickets.set ticket (some outcome))[other]?.join ≠ none
  by_cases heq : ticket = other
  · subst heq
    rw [List.getElem?_set_self hlt]
    exact nofun
  · rw [List.getElem?_set_ne heq]
    refine (h folder other hother).resolve_left fun hsame => ?_
    exact heq (Option.some.inj hsame).symm

theorem Rests.modifySlot (h : c.Rests) {f : Slot → Slot}
    (hf : ∀ s t, (f s).ticket = some t → s.ticket = some t) : (c.modifySlot folder f).Rests :=
  fun _ _ hticket => .inr (h.outcome_ne_none (ticket_modifySlot hf hticket))

theorem Rests.settle (h : c.Rests) (folder : Nat) (generation : UInt64) (outcome : Outcome) :
    (c.settle folder generation outcome).Rests := by
  refine h.modifySlot fun slot ticket hticket => ?_
  split at hticket
  · exact Slot.ticket_settle hticket
  · exact hticket

end Cache

namespace Reader

/-- Decoding changes nothing, and what comes of it depends on the folder alone. -/
def Determined (r : Reader σ) (outcomes : Nat → Outcome) : Prop :=
  ∀ folder s, r.decode folder s = (outcomes folder, s)

theorem Determined.eq_of_canDecode (h : r.Determined outcomes) {folder : Nat} {outcome : Outcome}
    (hcan : r.CanDecode folder outcome) : outcomes folder = outcome := by
  obtain ⟨s, hs⟩ := hcan
  rwa [h folder s] at hs

/-! ### One call -/

namespace Call

/-- A call is the only one that may be at a decode. -/
def Alone (cache : Cache) : Call → Prop
  | .waiting ticket => cache.Rests ∧ cache.outcome? ticket ≠ none
  | .decoding ticket _ => ticket < cache.tickets.length ∧ cache.RestsBut (some ticket)
  | .fulfilling ticket _ _ => ticket < cache.tickets.length ∧ cache.RestsBut (some ticket)
  | _ => cache.Rests

theorem Alone.rests {cache : Cache} {call : Call} {outcome : Outcome} (h : call.Alone cache)
    (hend : call.outcome? = some outcome) : cache.Rests := by
  cases call with
  | finished outcome' => exact h
  | _ => cases hend

/-- The steps that a call has before it if nobody makes it wait. -/
def left : Call → Nat
  | .requesting => 4
  | .decoding _ _ => 3
  | .fulfilling _ _ _ => 2
  | .settling _ _ => 1
  | .waiting _ => 1
  | .finished _ => 0

/-- Each step of a lone call is one step less. -/
theorem step_alone (hr : r.Determined outcomes) {s : Session σ} {call : Call}
    (h : call.Alone s.cache) (folder : Nat) :
    (call.step r folder s).1.Alone (call.step r folder s).2.cache ∧
      (call.step r folder s).1.left ≤ call.left - 1 := by
  cases call with
  | requesting =>
    cases hticket : (s.cache.slot folder).ticket with
    | some ticket =>
      -- nobody is at this decode, so its outcome is there and the call will not wait
      simp only [step, Cache.request_of_ticket hticket]
      exact ⟨⟨h, Cache.Rests.outcome_ne_none h hticket⟩, (by decide : 1 ≤ 3)⟩
    | none =>
      have hbut := Cache.Rests.request h hticket
      have hrequest := Cache.request_of_none hticket
      rw [hrequest] at hbut
      simp only [step, hrequest]
      refine ⟨⟨?_, hbut⟩, le_rfl⟩
      rw [List.length_append]
      exact Nat.lt_succ_self _
  | waiting ticket =>
    obtain ⟨outcome, houtcome⟩ := Option.ne_none_iff_exists'.mp h.2
    simp only [step, houtcome]
    exact ⟨h.1, le_rfl⟩
  | decoding ticket generation =>
    rw [step, runState_bind, hr folder s]
    exact ⟨h, le_rfl⟩
  | fulfilling ticket generation outcome => exact ⟨h.2.fulfil h.1 outcome, le_rfl⟩
  | settling generation outcome => exact ⟨Cache.Rests.settle h folder generation outcome, le_rfl⟩
  | finished outcome => exact ⟨h, le_rfl⟩

/-- A lone call that takes all its steps has an outcome. -/
theorem run_alone (hr : r.Determined outcomes) {s : Session σ} {call : Call}
    (h : call.Alone s.cache) (folder : Nat) {steps : Nat} (hsteps : call.left ≤ steps) :
    (Call.run r folder steps call s).2.cache.Rests ∧
      (Call.run r folder steps call s).1.outcome? ≠ none := by
  induction steps generalizing call s with
  | zero =>
    cases call with
    | finished outcome => exact ⟨h, nofun⟩
    | _ => exact absurd hsteps (Nat.not_succ_le_zero _)
  | succ steps ih =>
    obtain ⟨halone, hless⟩ := step_alone hr h folder
    exact ih halone (hless.trans (Nat.sub_le_of_le_add hsteps))

end Call

/-- A lone caller gets an outcome, and leaves the session at rest. -/
theorem folderOutcome_rests (hr : r.Determined outcomes) {s : Session σ} (hrests : s.cache.Rests)
    (folder : Nat) :
    (r.folderOutcome folder s).2.cache.Rests ∧ (r.folderOutcome folder s).1 ≠ none := by
  have hstart : Call.requesting.Alone s.cache := hrests
  have hsteps : Call.requesting.left ≤ Call.length := le_rfl
  obtain ⟨hrests', hend⟩ := Call.run_alone hr hstart folder hsteps
  exact ⟨hrests', hend⟩

/-- **A caller that nobody disturbs** gets what decoding the folder comes to. -/
theorem folderOutcome_alone (hr : r.Determined outcomes) (hacts : r.ActsByAdvances) {c : Scene σ}
    (hc : r.Reachable c) (hrests : c.cache.Rests) (folder : Nat) :
    ∃ c', r.folderOutcome folder c.session = (some (outcomes folder), c'.session) ∧
      r.Advances c c' ∧ c'.cache.Rests := by
  obtain ⟨c', hsession, hadvances, hcan⟩ := folderOutcome_sound hacts hc folder
  obtain ⟨hrests', hend⟩ := folderOutcome_rests hr hrests folder
  obtain ⟨outcome, houtcome⟩ := Option.ne_none_iff_exists'.mp hend
  rw [← hsession] at hrests'
  refine ⟨c', Prod.ext ?_ hsession.symm, hadvances, hrests'⟩
  rw [hr.eq_of_canDecode (hcan outcome houtcome), houtcome]

end Reader

/-! ### One worker after another -/

namespace Worker

/-- A worker is the only one that may be at a decode. -/
def Alone (cache : Cache) : Worker → Prop
  | .calling _ call => call.Alone cache
  | _ => cache.Rests

/-- The steps that a worker may have before it, with so many folders left to take. -/
def left (folders : Nat) : Worker → Nat
  | .checking => Pool.stepsPerFolder * folders + 2
  | .taking => Pool.stepsPerFolder * folders + 1
  | .starting _ => Pool.stepsPerFolder * folders + 8
  | .calling _ call => Pool.stepsPerFolder * folders + 3 + call.left
  | .noting _ => 2
  | .stopping => 1
  | .idle => 0

theorem eq_idle_of_left {folders : Nat} {worker : Worker} (h : worker.left folders = 0) :
    worker = .idle := by
  cases worker with
  | idle => rfl
  | _ => simp only [left] at h; omega

/-- With fewer folders to take there is less to do. -/
theorem left_mono (worker : Worker) {fewer folders : Nat} (h : fewer ≤ folders) :
    worker.left fewer ≤ worker.left folders := by
  cases worker with
  | noting fault => exact le_rfl
  | stopping => exact le_rfl
  | idle => exact le_rfl
  | _ => simp only [left, Pool.stepsPerFolder]; omega

end Worker

namespace Pool

variable {folders : List Nat} {p p' : Pool} {number : Nat} {s s' : Session σ} {worker : Worker}

/-- The steps that the worker of the given number may have before it. -/
def left (folders : List Nat) (p : Pool) (number : Nat) : Nat :=
  (p.workers.getD number .idle).left (folders.length - p.next)

theorem left_eq (h : p.workers[number]? = some worker) :
    p.left folders number = worker.left (folders.length - p.next) := by
  rw [left, List.getD_eq_getElem?_getD, h]
  rfl

/-- Each move of a worker is one step less for it, if its calls get on, and no step more for
others. -/
theorem Move.left_le (hmove : Move r cancelled folders p number s worker p' s')
    (hworker : p.workers[number]? = some worker)
    (hcall : ∀ folder call, worker = .calling folder call →
      (call.step r folder s).1.left ≤ call.left - 1) (other : Nat) :
    p'.left folders other ≤ p.left folders other - if other = number then 1 else 0 := by
  obtain ⟨worker', hset, hnext, hless⟩ : ∃ worker', p'.workers = p.workers.set number worker' ∧
      p.next ≤ p'.next ∧ worker'.left (folders.length - p'.next) ≤
        worker.left (folders.length - p.next) - 1 := by
    cases hmove with
    | heed hstop => exact ⟨_, rfl, le_rfl, Nat.zero_le _⟩
    | goOn hstop => exact ⟨_, rfl, le_rfl, le_rfl⟩
    | take hnext =>
      -- there is one folder less to take, and with it go the steps for it
      have hlt : p.next < folders.length := (List.getElem?_eq_some_iff.mp hnext).1
      refine ⟨_, rfl, Nat.le_succ _, ?_⟩
      simp only [Worker.left, next_setWorker, stepsPerFolder]
      omega
    | leave hnext => exact ⟨_, rfl, Nat.le_succ _, Nat.zero_le _⟩
    | skip htrue =>
      refine ⟨_, rfl, le_rfl, ?_⟩
      show stepsPerFolder * (folders.length - p.next) + 2 ≤ _
      simp only [Worker.left]
      omega
    | call hfalse => exact ⟨_, rfl, le_rfl, le_rfl⟩
    | @carryOn folder call hnone =>
      have hless := hcall folder call rfl
      refine ⟨_, rfl, le_rfl, ?_⟩
      -- a call that has no step left has its outcome
      have hpos : 0 < call.left := by
        cases call with
        | finished outcome => cases hnone
        | _ => exact Nat.succ_pos _
      simp only [Worker.left, next_setWorker]
      omega
    | result houtcome hresult =>
      refine ⟨_, rfl, le_rfl, ?_⟩
      show stepsPerFolder * (folders.length - p.next) + 2 ≤ _
      simp only [Worker.left]
      omega
    | fault houtcome hfault =>
      refine ⟨_, rfl, le_rfl, ?_⟩
      simp only [Worker.left]
      omega
    | note fault => exact ⟨_, rfl, le_rfl, le_rfl⟩
    | halt => exact ⟨_, rfl, le_rfl, le_rfl⟩
  by_cases hother : other = number
  · subst hother
    have hworker' : p'.workers[other]? = some worker' := by
      rw [hset, List.getElem?_set_self (List.getElem?_eq_some_iff.mp hworker).1]
    rw [if_pos rfl, left_eq hworker, left_eq hworker']
    exact hless
  · have hsame : p'.workers.getD other .idle = p.workers.getD other .idle := by
      rw [hset, List.getD_eq_getElem?_getD, List.getElem?_set_ne (Ne.symm hother),
        ← List.getD_eq_getElem?_getD]
    rw [if_neg hother, left, hsame]
    exact Worker.left_mono _ (Nat.sub_le_sub_left hnext _)

variable (cancelled folders) in
/-- Each step of a lone worker is one step less. -/
theorem step_alone (hr : r.Determined outcomes) (hworker : p.workers[number]? = some worker)
    (h : worker.Alone s.cache) :
    ∃ worker', (p.step r cancelled folders number s).1.workers = p.workers.set number worker' ∧
      worker'.Alone (p.step r cancelled folders number s).2.cache ∧
      (p.step r cancelled folders number s).1.left folders number ≤ p.left folders number - 1 := by
  rcases step_move r cancelled folders p number s with
    ⟨hidle, hnone⟩ | ⟨worker', p', s', hworker', hstep, hmove⟩
  · obtain rfl := hidle worker hworker
    rw [hnone, left_eq hworker]
    refine ⟨.idle, ?_, h, Nat.zero_le _⟩
    obtain ⟨hlt, hget⟩ := List.getElem?_eq_some_iff.mp hworker
    rw [← hget, List.set_getElem_self]
  · obtain rfl : worker' = worker := by
      rw [hworker] at hworker'
      exact (Option.some.inj hworker').symm
    have hless := hmove.left_le hworker (fun folder call heq => by
      subst heq
      exact (Reader.Call.step_alone hr h folder).2) number
    rw [if_pos rfl] at hless
    rw [hstep]
    -- only a call touches the cache
    cases hmove with
    | carryOn hnone => exact ⟨_, rfl, (Reader.Call.step_alone hr h _).1, hless⟩
    | result houtcome hresult =>
      exact ⟨_, rfl, (Reader.Call.step_alone hr h _).1.rests houtcome, hless⟩
    | fault houtcome hfault =>
      exact ⟨_, rfl, (Reader.Call.step_alone hr h _).1.rests houtcome, hless⟩
    | _ => exact ⟨_, rfl, h, hless⟩

variable (cancelled) in
/-- A lone worker that takes all its steps is done. -/
theorem run_replicate_alone (hr : r.Determined outcomes)
    (hworker : p.workers[number]? = some worker)
    (h : worker.Alone s.cache) {steps : Nat} (hsteps : p.left folders number ≤ steps) :
    (Pool.run r cancelled folders (List.replicate steps number) p s).1.workers =
        p.workers.set number .idle ∧
      (Pool.run r cancelled folders (List.replicate steps number) p s).2.cache.Rests := by
  -- turn by turn there is less left to do, and nobody to wait for
  induction steps generalizing p s worker with
  | zero =>
    rw [left_eq hworker] at hsteps
    obtain rfl := Worker.eq_idle_of_left (Nat.le_zero.mp hsteps)
    refine ⟨?_, h⟩
    obtain ⟨hlt, hget⟩ := List.getElem?_eq_some_iff.mp hworker
    rw [← hget, List.set_getElem_self]
    rfl
  | succ steps ih =>
    obtain ⟨worker', hset, halone, hless⟩ :=
      step_alone cancelled folders hr hworker h
    have hlt := (List.getElem?_eq_some_iff.mp hworker).1
    have hworker' : (p.step r cancelled folders number s).1.workers[number]? = some worker' := by
      rw [hset, List.getElem?_set_self hlt]
    obtain ⟨hworkers, hrests⟩ := ih hworker' halone (hless.trans (Nat.sub_le_of_le_add hsteps))
    rw [List.replicate_succ, Pool.run, runState_bind]
    rw [hset, List.set_set] at hworkers
    exact ⟨hworkers, hrests⟩

theorem run_append (r : Reader σ) (cancelled : StateM σ Bool) (folders first second : List Nat)
    (p : Pool) (s : Session σ) :
    Pool.run r cancelled folders (first ++ second) p s =
      Pool.run r cancelled folders second (Pool.run r cancelled folders first p s).1
        (Pool.run r cancelled folders first p s).2 := by
  induction first generalizing p s with
  | nil => rfl
  | cons number first ih => exact ih _ _

/-- **One worker after another.** Those that had their turn are done, and the others have not
begun. -/
theorem run_turns_alone (hr : r.Determined outcomes) {numbers : List Nat}
    (hnumbers : ∀ number ∈ numbers, number < p.workers.length)
    (hworkers : ∀ (i : Nat) (worker : Worker), p.workers[i]? = some worker →
      worker = .idle ∨ worker = .checking ∧ i ∈ numbers)
    (hrests : s.cache.Rests) :
    ∃ (p' : Pool) (s' : Session σ),
      Pool.run r cancelled folders (numbers.flatMap fun number =>
        List.replicate (stepsPerFolder * (folders.length + 1)) number) p s = (p', s') ∧
      (∀ worker ∈ p'.workers, worker = .idle) ∧ s'.cache.Rests := by
  induction numbers generalizing p s with
  | nil =>
    refine ⟨p, s, rfl, fun worker hworker => ?_, hrests⟩
    obtain ⟨i, hi⟩ := List.mem_iff_getElem?.mp hworker
    exact (hworkers i worker hi).resolve_right fun h => nomatch h.2
  | cons number numbers ih =>
    rw [List.flatMap_cons, run_append]
    obtain ⟨hnumber, hothers⟩ := List.forall_mem_cons.mp hnumbers
    have hworker := List.getElem?_eq_getElem hnumber
    have hrun : (p.workers[number]).Alone s.cache ∧
        (p.workers[number]).left (folders.length - p.next) ≤
          stepsPerFolder * (folders.length + 1) := by
      rcases hworkers number _ hworker with heq | ⟨heq, -⟩
      · rw [heq]
        exact ⟨hrests, Nat.zero_le _⟩
      · rw [heq]
        refine ⟨hrests, ?_⟩
        simp only [Worker.left, stepsPerFolder]
        omega
    rw [← left_eq hworker] at hrun
    obtain ⟨hset, hrests'⟩ := run_replicate_alone cancelled hr hworker hrun.1 hrun.2
    -- this worker is idle now, and those to come are as they were
    refine ih ?_ ?_ hrests'
    · intro other hother
      rw [hset, List.length_set]
      exact hothers other hother
    · intro i worker hi
      rw [hset, List.getElem?_set] at hi
      split at hi
      · exact .inl (Option.some.inj hi).symm
      · next hne =>
        refine (hworkers i worker hi).imp_right fun ⟨heq, hmem⟩ => ⟨heq, ?_⟩
        exact (List.mem_cons.mp hmem).resolve_left (Ne.symm hne)

end Pool

namespace Reader

variable {folders : List Nat} {s : Session σ}

theorem decodeInPool_alone (hr : r.Determined outcomes) (hrests : s.cache.Rests)
    (folders : List Nat) (workers : Nat) :
    Ensures (r.decodeInPool cancelled folders (Pool.schedule workers folders.length) workers) s
      (fun _ s' => s'.cache.Rests) (fun fault s' => s'.cache.Rests ∧ fault ≠ .stalled) := by
  -- by this schedule the workers have their turns one after another, each to its end
  have hturns : ∃ (p : Pool) (s' : Session σ),
      Pool.run r cancelled folders (Pool.schedule workers folders.length)
        (.start workers r.archive.folders.length) s = (p, s') ∧
      (∀ worker ∈ p.workers, worker = .idle) ∧ s'.cache.Rests := by
    refine Pool.run_turns_alone hr ?_ ?_ hrests
    · intro number hnumber
      rw [Pool.start, List.length_replicate]
      exact List.mem_range.mp hnumber
    · intro i worker hi
      obtain ⟨hlt, hget⟩ := List.getElem?_eq_some_iff.mp hi
      refine .inr ⟨?_, List.mem_range.mpr (hlt.trans_eq List.length_replicate)⟩
      rw [← hget]
      exact List.getElem_replicate _
  obtain ⟨p, s', hrun, hidle, hrests'⟩ := hturns
  have hdone : p.isDone = true := Pool.isDone_iff.mpr hidle
  have hpool : Ensures ((Pool.run r cancelled folders (Pool.schedule workers folders.length)
      (.start workers r.archive.folders.length) : StateM (Session σ) Pool) : ReaderM σ Pool) s
      (fun p' s'' => p' = p ∧ s'' = s') (fun fault s' => s'.cache.Rests ∧ fault ≠ .stalled) :=
    ⟨congrArg Prod.fst hrun, congrArg Prod.snd hrun⟩
  unfold decodeInPool
  refine hpool.bind ?_
  rintro p s' ⟨rfl, rfl⟩
  unfold Pool.finish
  rw [if_pos hdone]
  cases p.firstFault with
  | none => exact Ensures.pure hrests'
  | some fault => exact Ensures.throw ⟨hrests', nofun⟩

theorem decodeOne_alone (hr : r.Determined outcomes) (hrests : s.cache.Rests) (folder : Nat) :
    Ensures (r.decodeOne cancelled folder) s
      (fun _ s' => s'.cache.Rests) (fun fault s' => s'.cache.Rests ∧ fault ≠ .stalled) := by
  have hask : Ensures ((Session.onOutside cancelled : StateM (Session σ) Bool) : ReaderM σ Bool) s
      (fun _ s' => s'.cache.Rests) (fun fault s' => s'.cache.Rests ∧ fault ≠ .stalled) := hrests
  unfold decodeOne
  refine hask.bind fun answer s₁ hrests₁ => ?_
  cases answer with
  | true => exact Ensures.pure hrests₁
  | false =>
    obtain ⟨hrests₂, hend⟩ := folderOutcome_rests hr hrests₁ folder
    -- the outcome is there, since nobody is at work on another claim
    have hget : Ensures (r.folderOutcome folder : ReaderM σ (Option Outcome)) s₁
        (fun got s' => got ≠ none ∧ s'.cache.Rests)
        (fun fault s' => s'.cache.Rests ∧ fault ≠ .stalled) := ⟨hend, hrests₂⟩
    refine hget.bind ?_
    rintro got s₂ ⟨hgot, hrests₂⟩
    obtain ⟨outcome, rfl⟩ := Option.ne_none_iff_exists'.mp hgot
    dsimp only
    cases FolderResult.ofOutcome outcome with
    | error fault => exact Ensures.throw ⟨hrests₂, nofun⟩
    | ok result => exact Ensures.pure hrests₂

theorem decodeInOrder_alone (hr : r.Determined outcomes) (hrests : s.cache.Rests)
    (results : List FolderResult) :
    Ensures (r.decodeInOrder cancelled folders results) s
      (fun _ s' => s'.cache.Rests) (fun fault s' => s'.cache.Rests ∧ fault ≠ .stalled) := by
  induction folders generalizing s results with
  | nil => exact Ensures.pure hrests
  | cons folder folders ih =>
    exact (decodeOne_alone hr hrests folder).bind fun result s₁ hrests₁ => ih hrests₁ _

variable (cancelled) in
/-- **Workers that nobody disturbs** do not wait for each other, and leave the session at rest. -/
theorem decodeAll_alone (hr : r.Determined outcomes) (hrests : s.cache.Rests) :
    Ensures (r.decodeAll cancelled) s
      (fun _ s' => s'.cache.Rests) (fun fault s' => s'.cache.Rests ∧ fault ≠ .stalled) := by
  unfold decodeAll
  dsimp only
  split
  · exact decodeInOrder_alone hr hrests _
  · exact decodeInPool_alone hr hrests _ _

end Reader

end SolidArchive
