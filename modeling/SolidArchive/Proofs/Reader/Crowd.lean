import SolidArchive.Proofs.Reader.Entry

/-!
# Callers in a crowd

Any number of callers may be at a reader at a time: those who extract a file, the workers of an
extraction of all files, and those whom a decoder sends back to the reader while it decodes. Each
gets the output of a folder by a call, and each step of a call is one indivisible step on the cache.
A `Crowd` is the cache together with all callers, each at its own stage, and `Crowd.Step` lists what
may happen next. Nothing is said of when it happens, so a run of a crowd (`Crowd.Run`) is any
interleaving of any number of calls, with releases between them.

A decode is not one step but two, its start and its end, with anything between them, and what it
comes to is left open: any outcome that is `possible`. Against the cache this is all that a decode
is, as it works outside of it.

A crowd also has what nobody looks at: how often each folder has been forgotten, of which its slot
knows no more than a word of 64 bits (`Crowd.Counted`), and for each ticket the claim for which it
was given out, that is the folder, the generation of the folder at that time, and the caller. The
stages of callers say which ticket a caller has to the end of the call.

That a call of a reader takes such steps is `Reader.ActsBySteps.step_steps`. Source and decoder may
go back to the reader in any way that is itself made of calls and releases (`Reader.ActsBySteps`).
-/

namespace SolidArchive

open Reader

/-- How far a decode has come. -/
inductive Progress where
  /-- It is claimed but has not begun. -/
  | ahead
  | underWay
  /-- It has ended, and nobody else knows. -/
  | ended (outcome : Outcome)
  /-- The outcome is handed out, and the slot knows nothing of it. -/
  | handedOut (outcome : Outcome)

/-- The outcome of a decode that has ended. -/
def Progress.outcome? : Progress → Option Outcome
  | .ahead => none
  | .underWay => none
  | .ended outcome => some outcome
  | .handedOut outcome => some outcome

/-- The outcome that a ticket has while its decode has come so far. -/
def Progress.handedOut? : Progress → Option Outcome
  | .handedOut outcome => some outcome
  | _ => none

/-- How far a caller has come, and by which ticket. -/
inductive Stage where
  | requesting
  | waiting (ticket : Nat)
  | working (ticket generation : Nat) (progress : Progress)
  | finished (ticket : Nat) (outcome : Outcome)

/-- The call of a caller. It has of the generation only the word, it does not tell a decode that has
not begun from one under way, and in the end it forgets the ticket. -/
def Stage.call : Stage → Call
  | .requesting => .requesting
  | .waiting ticket => .waiting ticket
  | .working ticket generation .ahead => .decoding ticket (UInt64.ofNat generation)
  | .working ticket generation .underWay => .decoding ticket (UInt64.ofNat generation)
  | .working ticket generation (.ended outcome) =>
    .fulfilling ticket (UInt64.ofNat generation) outcome
  | .working _ generation (.handedOut outcome) => .settling (UInt64.ofNat generation) outcome
  | .finished _ outcome => .finished outcome

/-- The ticket that a caller has. -/
def Stage.ticket? : Stage → Option Nat
  | .requesting => none
  | .waiting ticket => some ticket
  | .working ticket _ _ => some ticket
  | .finished ticket _ => some ticket

/-- Somebody who wants the output of a folder. -/
structure Caller where
  folder : Nat
  stage : Stage

/-- A decode that was claimed, and by whom. -/
structure Claim where
  folder : Nat
  generation : Nat
  caller : Nat
  deriving DecidableEq, Repr

/-- The cache of a reader and all who are at it. -/
structure Crowd where
  cache : Cache
  /-- Who is at each of the places that callers take. -/
  callers : Nat → Option Caller
  /-- The claim of each ticket. -/
  claims : List Claim
  /-- How often each folder has been forgotten. -/
  generation : Nat → Nat

namespace Crowd

/-- Nobody has come yet. -/
def start (folders : Nat) : Crowd where
  cache := .empty folders
  callers := fun _ => none
  claims := []
  generation := fun _ => 0

/-- Changes who is at a place. -/
def seat (c : Crowd) (place : Nat) (caller : Option Caller) : Crowd :=
  { c with callers := Function.update c.callers place caller }

/-- A crowd with another cache. A folder whose generation is another one there has been forgotten
once more. -/
def setCache (c : Crowd) (cache : Cache) : Crowd :=
  { c with
    cache
    generation := fun folder =>
      if (cache.slot folder).generation = (c.cache.slot folder).generation then c.generation folder
      else c.generation folder + 1 }

/-- A caller claims a decode, for a new ticket. -/
def claim (c : Crowd) (place folder : Nat) : Crowd where
  cache := (c.cache.request folder).2
  callers := Function.update c.callers place (some
    { folder, stage := .working c.cache.tickets.length (c.generation folder) .ahead })
  claims := c.claims ++ [{ folder, generation := c.generation folder, caller := place }]
  generation := c.generation

/-- What happens in a crowd. -/
inductive Event where
  | enter (folder : Nat)
  | join (folder ticket : Nat)
  | claim (folder generation : Nat)
  | start (folder generation : Nat)
  | complete (folder generation : Nat) (outcome : Outcome)
  | fulfil (folder generation : Nat) (outcome : Outcome)
  | settle (folder generation : Nat) (outcome : Outcome)
  | receive (folder ticket : Nat) (outcome : Outcome)
  | leave (folder : Nat)
  | release (folder : Nat)
  deriving DecidableEq

/-- What may happen next, if decoding a folder may come to what is `possible`. -/
inductive Step (possible : Nat → Outcome → Prop) : Crowd → Event → Crowd → Prop where
  /-- Somebody comes for the output of a folder. -/
  | enter {c : Crowd} {place folder : Nat} (hfree : c.callers place = none)
    (hfolder : folder < c.cache.slots.length) :
    Step possible c (.enter folder) (c.seat place (some { folder, stage := .requesting }))
  /-- The folder has a ticket: the caller will wait for its outcome. -/
  | join {c : Crowd} {place folder ticket : Nat}
    (hat : c.callers place = some { folder, stage := .requesting })
    (hticket : (c.cache.slot folder).ticket = some ticket) :
    Step possible c (.join folder ticket)
      (c.seat place (some { folder, stage := .waiting ticket }))
  /-- The folder has none: the caller will decode it. -/
  | claim {c : Crowd} {place folder : Nat}
    (hat : c.callers place = some { folder, stage := .requesting })
    (hnone : (c.cache.slot folder).ticket = none) :
    Step possible c (.claim folder (c.generation folder)) (c.claim place folder)
  | start {c : Crowd} {place folder ticket generation : Nat}
    (hat : c.callers place = some { folder, stage := .working ticket generation .ahead }) :
    Step possible c (.start folder generation)
      (c.seat place (some { folder, stage := .working ticket generation .underWay }))
  | complete {c : Crowd} {place folder ticket generation : Nat} {outcome : Outcome}
    (hat : c.callers place = some { folder, stage := .working ticket generation .underWay })
    (hpossible : possible folder outcome) :
    Step possible c (.complete folder generation outcome)
      (c.seat place (some { folder, stage := .working ticket generation (.ended outcome) }))
  /-- The outcome is handed to everybody who has the ticket. -/
  | fulfil {c : Crowd} {place folder ticket generation : Nat} {outcome : Outcome}
    (hat : c.callers place =
      some { folder, stage := .working ticket generation (.ended outcome) }) :
    Step possible c (.fulfil folder generation outcome)
      ((c.setCache (c.cache.fulfil ticket outcome)).seat place
        (some { folder, stage := .working ticket generation (.handedOut outcome) }))
  /-- The end of the decode is recorded. -/
  | settle {c : Crowd} {place folder ticket generation : Nat} {outcome : Outcome}
    (hat : c.callers place =
      some { folder, stage := .working ticket generation (.handedOut outcome) }) :
    Step possible c (.settle folder generation outcome)
      ((c.setCache (c.cache.settle folder (UInt64.ofNat generation) outcome)).seat place
        (some { folder, stage := .finished ticket outcome }))
  | receive {c : Crowd} {place folder ticket : Nat} {outcome : Outcome}
    (hat : c.callers place = some { folder, stage := .waiting ticket })
    (houtcome : c.cache.outcome? ticket = some outcome) :
    Step possible c (.receive folder ticket outcome)
      (c.seat place (some { folder, stage := .finished ticket outcome }))
  /-- A caller that has the outcome goes. -/
  | leave {c : Crowd} {place folder ticket : Nat} {outcome : Outcome}
    (hat : c.callers place = some { folder, stage := .finished ticket outcome }) :
    Step possible c (.leave folder) (c.seat place none)
  | release {c : Crowd} {folder : Nat} (hfolder : folder < c.cache.slots.length) :
    Step possible c (.release folder) (c.setCache (c.cache.release folder))

/-- What may happen from one crowd to another. -/
inductive Steps (possible : Nat → Outcome → Prop) : Crowd → List Event → Crowd → Prop where
  | refl (c : Crowd) : Steps possible c [] c
  | tail {c c' c'' : Crowd} {events : List Event} {e : Event} (hsteps : Steps possible c events c')
    (hstep : Step possible c' e c'') : Steps possible c (events ++ [e]) c''

/-- What may happen from the beginning, with so many folders. -/
abbrev Run (possible : Nat → Outcome → Prop) (folders : Nat) (events : List Event) (c : Crowd) :
    Prop :=
  Steps possible (.start folders) events c

variable {possible : Nat → Outcome → Prop} {c c' c'' : Crowd} {e : Event}
  {events events' : List Event} {place other folder : Nat} {caller : Option Caller}

@[simp] theorem cache_seat : (c.seat place caller).cache = c.cache := rfl

@[simp] theorem claims_seat : (c.seat place caller).claims = c.claims := rfl

@[simp] theorem generation_seat : (c.seat place caller).generation = c.generation := rfl

@[simp] theorem cache_setCache (c : Crowd) (cache : Cache) : (c.setCache cache).cache = cache := rfl

@[simp] theorem claims_setCache (c : Crowd) (cache : Cache) :
    (c.setCache cache).claims = c.claims := rfl

@[simp] theorem callers_setCache (c : Crowd) (cache : Cache) :
    (c.setCache cache).callers = c.callers := rfl

theorem callers_seat_self (c : Crowd) (place : Nat) (caller : Option Caller) :
    (c.seat place caller).callers place = caller := by
  show Function.update c.callers place caller place = caller
  rw [Function.update_self]

/-- Who is anywhere is who was there before, or has just been put there. -/
theorem callers_seat {k : Caller} (h : (c.seat place caller).callers other = some k) :
    other = place ∧ caller = some k ∨ other ≠ place ∧ c.callers other = some k := by
  have hupdate : Function.update c.callers place caller other = some k := h
  by_cases hother : other = place
  · subst hother
    rw [Function.update_self] at hupdate
    exact .inl ⟨rfl, hupdate⟩
  · rw [Function.update_of_ne hother] at hupdate
    exact .inr ⟨hother, hupdate⟩

/-- The others stay where they are. -/
theorem callers_seat_ne (h : other ≠ place) :
    (c.seat place caller).callers other = c.callers other := by
  show Function.update c.callers place caller other = c.callers other
  rw [Function.update_of_ne h]

namespace Steps

theorem single (h : Step possible c e c') : Steps possible c [e] c' := .tail (.refl c) h

theorem trans (h : Steps possible c events c') (h' : Steps possible c' events' c'') :
    Steps possible c (events ++ events') c'' := by
  induction h' with
  | refl => rwa [List.append_nil]
  | tail _ hstep ih =>
    rw [← List.append_assoc]
    exact ih.tail hstep

/-- The number of folders stays the same. -/
theorem length_slots (h : Steps possible c events c') :
    c'.cache.slots.length = c.cache.slots.length := by
  induction h with
  | refl => rfl
  | tail _ hstep ih =>
    rw [← ih]
    cases hstep with
    | claim hat hnone => exact Cache.length_slots_request _ _
    | settle hat => exact Cache.length_slots_settle _ _ _ _
    | release hfolder => exact Cache.length_slots_release _ _
    | _ => rfl

end Steps

/-! ### Counting generations -/

/-- A slot has the number of its generation, as far as a word can tell. -/
def Counted (c : Crowd) : Prop :=
  ∀ folder, (c.cache.slot folder).generation = UInt64.ofNat (c.generation folder)

theorem counted_start (folders : Nat) : (start folders).Counted := by
  intro folder
  show ((Cache.empty folders).slot folder).generation = 0
  rw [Cache.slot_empty]

theorem generation_setCache_of_eq {cache : Cache}
    (h : (cache.slot folder).generation = (c.cache.slot folder).generation) :
    (c.setCache cache).generation folder = c.generation folder := if_pos h

theorem generation_setCache_of_succ {cache : Cache}
    (h : (cache.slot folder).generation = (c.cache.slot folder).generation + 1) :
    (c.setCache cache).generation folder = c.generation folder + 1 := by
  refine if_neg ?_
  rw [h]
  simp

/-- `Crowd.setCache` counts on for the folders whose word has changed, so the number stays right if
each word is the one before or the next. -/
theorem Counted.setCache (h : c.Counted) {cache : Cache}
    (hword : ∀ folder, (cache.slot folder).generation = (c.cache.slot folder).generation ∨
      (cache.slot folder).generation = (c.cache.slot folder).generation + 1) :
    (c.setCache cache).Counted := by
  intro folder
  show (cache.slot folder).generation = _
  rcases hword folder with hsame | hnext
  · rw [generation_setCache_of_eq hsame, hsame, h folder]
  · rw [generation_setCache_of_succ hnext, hnext, h folder, UInt64.ofNat_add]
    rfl

theorem Counted.step (h : c.Counted) (hstep : Step possible c e c') : c'.Counted := by
  cases hstep with
  | claim hat hnone =>
    intro other
    exact (Cache.generation_request _ _ other).trans (h other)
  | fulfil hat => exact h.setCache fun _ => .inl rfl
  | settle hat => exact h.setCache (Cache.generation_settle _ _ _ _)
  | release hfolder => exact h.setCache (Cache.generation_release _ _)
  | _ => exact h

theorem Run.counted {folders : Nat} (h : Run possible folders events c) : c.Counted := by
  induction h with
  | refl => exact counted_start folders
  | tail _ hstep ih => exact ih.step hstep

end Crowd

/-! ### The calls of a reader -/

namespace Reader

variable {σ : Type} {r : Reader σ} {c c' : Crowd} {s : Session σ} {folder : Nat}

/-- The crowds that a reader may have. -/
def Receives (r : Reader σ) (c : Crowd) : Prop :=
  ∃ events, Crowd.Run r.CanDecode r.archive.folders.length events c

/-- A session to which steps lead from a crowd, at the end of which all callers are where they were
in the beginning: those who have come in between are gone. -/
def StepsTo (r : Reader σ) (c : Crowd) (s : Session σ) : Prop :=
  ∃ events c', Crowd.Steps r.CanDecode c events c' ∧ c'.cache = s.cache ∧ c'.callers = c.callers

theorem Receives.steps {events : List Crowd.Event} (h : r.Receives c)
    (hsteps : Crowd.Steps r.CanDecode c events c') : r.Receives c' := by
  obtain ⟨before, hrun⟩ := h
  exact ⟨_, hrun.trans hsteps⟩

theorem Receives.counted (h : r.Receives c) : c.Counted := by
  obtain ⟨events, hrun⟩ := h
  exact hrun.counted

theorem StepsTo.refl (h : c.cache = s.cache) : r.StepsTo c s := ⟨[], c, .refl c, h, rfl⟩

/-- Steps that lead to a session and from there to another one lead to that one. -/
theorem StepsTo.next {s' : Session σ} (h : r.StepsTo c s) (hc : r.Receives c)
    (hgoesOn : ∀ c', r.Receives c' → c'.cache = s.cache → r.StepsTo c' s') : r.StepsTo c s' := by
  obtain ⟨events, c₁, hsteps, hcache₁, hcallers⟩ := h
  obtain ⟨events', c₂, hsteps', hcache₂, hcallers'⟩ := hgoesOn c₁ (hc.steps hsteps) hcache₁
  exact ⟨_, c₂, hsteps.trans hsteps', hcache₂, hcallers'.trans hcallers⟩

/-- A reader whose source and decoder do with the cache only what calls and releases do, and who let
every call come to its end before they go on themselves. -/
structure ActsBySteps (r : Reader σ) : Prop where
  read : ∀ (c : Crowd) (s : Session σ) (offset length : Nat), r.Receives c → c.cache = s.cache →
    r.StepsTo c (r.source.read offset length s).2
  run : ∀ (c : Crowd) (s : Session σ) (coder : Coder) (inputs : List Bytes)
    (expected : Option Nat), r.Receives c → c.cache = s.cache →
    r.StepsTo c (r.decoder coder inputs expected s).2

namespace ActsBySteps

/-- Source and decoder that leave the cache alone take no step at all. -/
theorem of_cache_eq
    (hread : ∀ s offset length, (r.source.read offset length s).2.cache = s.cache)
    (hrun : ∀ s coder inputs expected, (r.decoder coder inputs expected s).2.cache = s.cache) :
    r.ActsBySteps where
  read _ s offset length _ hcache := .refl (hcache.trans (hread s offset length).symm)
  run _ s coder inputs expected _ hcache := .refl (hcache.trans (hrun s coder inputs expected).symm)

/-- What source and decoder do one after another while a folder is decoded is done by steps, as what
each of them does is. -/
theorem decode (hr : r.ActsBySteps) (hc : r.Receives c) (hcache : c.cache = s.cache)
    (folder : Nat) : r.StepsTo c (r.decode folder s).2 := by
  have hkeeps : Ensures (decodeFolder r.archive r.map r.source r.decoder r.config folder) s
      (fun _ => r.StepsTo c) (fun _ => r.StepsTo c) := by
    refine decodeFolder_keeps r.decoder r.config ?_ ?_ (.refl hcache)
    · intro offset length s₁ hs₁
      exact hs₁.next hc fun c₁ hc₁ hcache₁ => hr.read c₁ s₁ offset length hc₁ hcache₁
    · intro coder inputs expected s₁ hs₁
      exact hs₁.next hc fun c₁ hc₁ hcache₁ => hr.run c₁ s₁ coder inputs expected hc₁ hcache₁
  exact Ensures.always_iff.mp hkeeps

/-- The step in which a call decodes. The decode may have been begun before. -/
theorem decode_steps (hr : r.ActsBySteps) (hc : r.Receives c) {place ticket generation : Nat}
    (hat : c.callers place = some { folder, stage := .working ticket generation .underWay })
    (hcache : c.cache = s.cache) :
    ∃ events c', Crowd.Steps r.CanDecode c events c' ∧ c'.cache = (r.decode folder s).2.cache ∧
      c'.callers = Function.update c.callers place (some
        { folder, stage := .working ticket generation (.ended (r.decode folder s).1) }) := by
  -- those whom the decoder sends come and go while the caller decodes
  obtain ⟨events, c₁, hsteps, hcache₁, hcallers⟩ := hr.decode hc hcache folder
  have hat₁ : c₁.callers place =
      some { folder, stage := .working ticket generation .underWay } := by
    rw [hcallers]
    exact hat
  have hcan : r.CanDecode folder (r.decode folder s).1 := ⟨s, rfl⟩
  refine ⟨_, _, hsteps.tail (.complete hat₁ hcan), hcache₁, ?_⟩
  show Function.update c₁.callers place _ = _
  rw [hcallers]

/-- **A call takes the steps of a caller in a crowd**, also if the decoder goes back to the
reader. -/
theorem step_steps (hr : r.ActsBySteps) (hc : r.Receives c) {place : Nat} {stage : Stage}
    (hat : c.callers place = some { folder, stage }) (hcache : c.cache = s.cache) :
    ∃ events c' stage', Crowd.Steps r.CanDecode c events c' ∧
      c'.cache = (stage.call.step r folder s).2.cache ∧
      stage'.call = (stage.call.step r folder s).1 ∧
      c'.callers = Function.update c.callers place (some { folder, stage := stage' }) := by
  have hstays : c.callers = Function.update c.callers place (some { folder, stage }) := by
    rw [← hat, Function.update_eq_self]
  cases stage with
  | requesting =>
    cases hticket : (c.cache.slot folder).ticket with
    | some ticket =>
      refine ⟨_, _, .waiting ticket, .single (.join hat hticket), ?_⟩
      rw [hcache] at hticket
      simp only [Stage.call, Call.step, Cache.request_of_ticket hticket]
      exact ⟨hcache, trivial, rfl⟩
    | none =>
      refine ⟨_, _, .working c.cache.tickets.length (c.generation folder) .ahead,
        .single (.claim hat hticket), ?_⟩
      -- the call is given the word, and the number is that word
      have hword := hc.counted folder
      rw [hcache] at hticket hword
      simp only [Stage.call, Call.step, Cache.request_of_none hticket, Crowd.claim, hcache, hword]
      exact ⟨trivial, trivial, trivial⟩
  | waiting ticket =>
    cases houtcome : c.cache.outcome? ticket with
    | some outcome =>
      refine ⟨_, _, .finished ticket outcome, .single (.receive hat houtcome), ?_⟩
      rw [hcache] at houtcome
      simp only [Stage.call, Call.step, houtcome]
      exact ⟨hcache, trivial, rfl⟩
    | none =>
      -- the call goes on waiting
      refine ⟨_, _, .waiting ticket, .refl c, ?_⟩
      rw [hcache] at houtcome
      simp only [Stage.call, Call.step, houtcome]
      exact ⟨hcache, trivial, hstays⟩
  | working ticket generation progress =>
    cases progress with
    | ahead =>
      have hstart : Crowd.Step r.CanDecode c _ _ := .start hat
      obtain ⟨events, c', hsteps, hcache', hcallers⟩ := hr.decode_steps
        (hc.steps (.single hstart)) (Crowd.callers_seat_self c place _) hcache
      refine ⟨_, c', .working ticket generation (.ended (r.decode folder s).1),
        (Crowd.Steps.single hstart).trans hsteps, hcache', rfl, ?_⟩
      rw [hcallers]
      exact Function.update_idem _ _ _
    | underWay =>
      obtain ⟨events, c', hsteps, hcache', hcallers⟩ := hr.decode_steps hc hat hcache
      exact ⟨_, c', .working ticket generation (.ended (r.decode folder s).1), hsteps, hcache', rfl,
        hcallers⟩
    | ended outcome =>
      refine ⟨_, _, .working ticket generation (.handedOut outcome), .single (.fulfil hat), ?_, rfl,
        rfl⟩
      show c.cache.fulfil ticket outcome = s.cache.fulfil ticket outcome
      rw [hcache]
    | handedOut outcome =>
      refine ⟨_, _, .finished ticket outcome, .single (.settle hat), ?_, rfl, rfl⟩
      show c.cache.settle folder _ outcome = s.cache.settle folder _ outcome
      rw [hcache]
  | finished ticket outcome => exact ⟨_, _, .finished ticket outcome, .refl c, hcache, rfl, hstays⟩

end ActsBySteps

end Reader

end SolidArchive
