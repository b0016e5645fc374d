import SolidArchive.Proofs.Reader.Crowd

/-!
# Slots, claims and callers

What a step of a crowd does to a slot is said once (`Crowd.Step.change`): a slot stays, it is
claimed, it notes that there are bytes, or it is cleared. Only the last changes the generation.

Two invariants follow, each about two things that must agree:

* `Crowd.Booked`, slots and claims: no generation is claimed twice, and the ticket in a slot is that
  of the claim in the current generation;
* `Crowd.Served`, callers and tickets: a ticket without an outcome has somebody who works on it, and
  nobody else does.
-/

namespace SolidArchive

open Reader

namespace Crowd

variable {possible : Nat → Outcome → Prop} {c c' : Crowd} {e : Event} {folder folders : Nat}

/-! ### What becomes of slots -/

/-- What clears the slot of a folder that is in the given generation: a release, and the end of a
decode of that generation of whose outcome nothing is kept. -/
def Event.Empties (folder generation : Nat) : Event → Prop
  | .release released => released = folder
  | .settle ended own outcome =>
    ended = folder ∧ own = generation ∧ Kept.ofOutcome? outcome = none
  | _ => False

/-- What clears a slot that has the given word for its generation. This differs from `Empties` in
that the decode that ends needs to be of the right generation only up to a multiple of 2 ^ 64, which
is all that `Cache.settle` sees of it. -/
def Event.Clears (folder : Nat) (word : UInt64) : Event → Prop
  | .release released => released = folder
  | .settle ended own outcome =>
    ended = folder ∧ UInt64.ofNat own = word ∧ Kept.ofOutcome? outcome = none
  | _ => False

/-- What may become of the slot of a folder. -/
inductive Change (c : Crowd) (folder : Nat) (e : Event) : Slot → Prop where
  /-- It stays as it is, and no decode ends that has the word in the slot. -/
  | same (hkeeps : ¬e.Clears folder (c.cache.slot folder).generation)
    (hgoesOn : ∀ generation outcome, e = .settle folder generation outcome →
      UInt64.ofNat generation ≠ (c.cache.slot folder).generation) :
    Change c folder e (c.cache.slot folder)
  /-- It gets a new ticket. -/
  | claimed (hclaim : e = .claim folder (c.generation folder))
    (hnone : (c.cache.slot folder).ticket = none) :
    Change c folder e { c.cache.slot folder with ticket := some c.cache.tickets.length }
  /-- It is told what a decode has come to, of which something is kept. -/
  | noted {generation : Nat} {outcome : Outcome} {kept : Kept}
    (hend : e = .settle folder generation outcome)
    (hcurrent : UInt64.ofNat generation = (c.cache.slot folder).generation)
    (hkept : Kept.ofOutcome? outcome = some kept) :
    Change c folder e { c.cache.slot folder with
      decoded := kept.hasBytes || (c.cache.slot folder).decoded }
  /-- It is emptied, and its generation goes on by one. -/
  | cleared (hclears : e.Clears folder (c.cache.slot folder).generation) :
    Change c folder e (c.cache.slot folder).clear

/-- All callers want folders of the archive. Without this a claim would give out a ticket that
stands in no slot. -/
def InRange (c : Crowd) : Prop :=
  ∀ place caller, c.callers place = some caller → caller.folder < c.cache.slots.length

theorem inRange_start (folders : Nat) : (start folders).InRange := nofun

/-- Only the caller who is put at a place has to be looked at. -/
theorem InRange.seat {place : Nat} {caller : Option Caller} (h : c.InRange)
    (hnew : ∀ k, caller = some k → k.folder < c.cache.slots.length) :
    (c.seat place caller).InRange := by
  intro other k hk
  rcases callers_seat hk with ⟨-, hsome⟩ | ⟨-, hold⟩
  · exact hnew k hsome
  · exact h other k hold

/-- `Step.enter` asks for a folder of the archive, and no step changes the folder of a caller. -/
theorem InRange.step (h : c.InRange) (hstep : Step possible c e c') : c'.InRange := by
  -- a caller wants the folder that it came for
  have hstays : ∀ {place folder : Nat} {stage stage' : Stage},
      c.callers place = some { folder, stage } →
      (c.seat place (some { folder, stage := stage' })).InRange := by
    intro place folder stage stage' hat
    have hfolder : folder < c.cache.slots.length := h place _ hat
    refine h.seat fun k hk => ?_
    cases hk
    exact hfolder
  cases hstep with
  | enter hfree hfolder =>
    refine h.seat fun k hk => ?_
    cases hk
    exact hfolder
  | join hat hticket => exact hstays hat
  | @claim place folder hat hnone =>
    intro other k hk
    show k.folder < (c.cache.request folder).2.slots.length
    rw [Cache.length_slots_request]
    exact (hstays hat) other k hk
  | start hat => exact hstays hat
  | complete hat hpossible => exact hstays hat
  | fulfil hat => exact hstays hat
  | @settle place folder ticket generation outcome hat =>
    intro other k hk
    show k.folder < (c.cache.settle folder _ outcome).slots.length
    rw [Cache.length_slots_settle]
    exact (hstays hat) other k hk
  | receive hat houtcome => exact hstays hat
  | leave hat => exact h.seat nofun
  | @release folder hfolder =>
    intro other k hk
    show k.folder < (c.cache.release folder).slots.length
    rw [Cache.length_slots_release]
    exact h other k hk

/-- **What a step does to a slot.** What follows about slots, claims and entries is read off these
four cases. -/
theorem Step.change (h : Step possible c e c') (hrange : c.InRange) (folder : Nat) :
    c.Change folder e (c'.cache.slot folder) := by
  cases h with
  | enter hfree hfolder => exact .same nofun nofun
  | join hat hticket => exact .same nofun nofun
  | @claim place own hat hnone =>
    -- the slot of the folder gets the ticket, and the other slots are not touched
    by_cases hfolder : folder = own
    · subst hfolder
      have hslot := Cache.slot_request_self hnone (hrange place _ hat)
      show c.Change folder _ ((c.cache.request folder).2.slot folder)
      rw [hslot]
      exact .claimed rfl hnone
    · show c.Change folder _ ((c.cache.request own).2.slot folder)
      rw [Cache.slot_request_ne hfolder]
      exact .same nofun nofun
  | start hat => exact .same nofun nofun
  | complete hat hpossible => exact .same nofun nofun
  | fulfil hat => exact .same nofun nofun
  | @settle place own ticket generation outcome hat =>
    show c.Change folder _ ((c.cache.settle own (UInt64.ofNat generation) outcome).slot folder)
    -- the slot of the folder is settled, if it has the word of the generation of the decode
    by_cases hfolder : folder = own
    · subst hfolder
      by_cases hword : UInt64.ofNat generation = (c.cache.slot folder).generation
      · have hlt : folder < c.cache.slots.length := hrange place _ hat
        rw [Cache.slot_settle_self hlt hword.symm]
        cases hkept : Kept.ofOutcome? outcome with
        | none =>
          rw [Slot.settle_of_none hkept]
          exact .cleared ⟨rfl, hword, hkept⟩
        | some kept =>
          rw [Slot.settle_of_some hkept]
          exact .noted rfl hword hkept
      · -- the decode is of another generation
        rw [Cache.settle_of_ne (Ne.symm hword)]
        refine .same (fun hclears => hword hclears.2.1) fun generation' outcome' heq => ?_
        cases heq
        exact hword
    · rw [Cache.slot_settle_ne hfolder]
      refine .same (fun hclears => hfolder hclears.1.symm) fun generation' outcome' heq => ?_
      cases heq
      exact absurd rfl hfolder
  | receive hat houtcome => exact .same nofun nofun
  | leave hat => exact .same nofun nofun
  | @release own hfolder =>
    show c.Change folder _ ((c.cache.release own).slot folder)
    by_cases heq : folder = own
    · subst heq
      rw [Cache.slot_release_self hfolder]
      exact .cleared rfl
    · rw [Cache.slot_release_ne heq]
      exact .same (fun hclears => heq hclears.symm) nofun

/-- The number of a generation goes on whenever its word does. -/
theorem Step.generation_eq_ite (h : Step possible c e c') (folder : Nat) :
    c'.generation folder =
      if (c'.cache.slot folder).generation = (c.cache.slot folder).generation then
        c.generation folder
      else c.generation folder + 1 := by
  cases h with
  | claim hat hnone => exact (if_pos (Cache.generation_request _ _ folder)).symm
  | fulfil hat => rfl
  | settle hat => rfl
  | release hfolder => rfl
  | _ => exact (if_pos rfl).symm

/-- The number of a generation grows by one if the slot is cleared, in which case its word is
another one than before. -/
theorem Step.generation_succ (h : Step possible c e c') (hrange : c.InRange)
    (hclears : e.Clears folder (c.cache.slot folder).generation) :
    c'.generation folder = c.generation folder + 1 := by
  have hchange := h.change hrange folder
  rw [h.generation_eq_ite]
  generalize c'.cache.slot folder = slot at hchange ⊢
  cases hchange with
  | same hkeeps hgoesOn => exact absurd hclears hkeeps
  | claimed hclaim hnone =>
    subst hclaim
    exact hclears.elim
  | noted hend hcurrent hkept =>
    subst hend
    rw [hclears.2.2] at hkept
    cases hkept
  | cleared hclears => exact if_neg (by simp [Slot.clear])

/-- It stays as it is if the slot is not cleared, as no other `Change` touches the word. -/
theorem Step.generation_eq (h : Step possible c e c') (hrange : c.InRange)
    (hkeeps : ¬e.Clears folder (c.cache.slot folder).generation) :
    c'.generation folder = c.generation folder := by
  have hchange := h.change hrange folder
  rw [h.generation_eq_ite]
  generalize c'.cache.slot folder = slot at hchange ⊢
  cases hchange with
  | same hkeeps hgoesOn => exact if_pos rfl
  | claimed hclaim hnone => exact if_pos rfl
  | noted hend hcurrent hkept => exact if_pos rfl
  | cleared hclears => exact absurd hclears hkeeps

/-- No step takes a generation back, while its word may well become a smaller one. -/
theorem Step.generation_le (h : Step possible c e c') (hrange : c.InRange) (folder : Nat) :
    c.generation folder ≤ c'.generation folder := by
  by_cases hclears : e.Clears folder (c.cache.slot folder).generation
  · rw [h.generation_succ hrange hclears]
    exact Nat.le_succ _
  · rw [h.generation_eq hrange hclears]

/-! ### Claims -/

/-- The claims are those there were, and perhaps a new one. -/
theorem Step.claims (h : Step possible c e c') :
    c'.claims = c.claims ∧ c'.cache.tickets.length = c.cache.tickets.length ∨
      ∃ place folder, e = .claim folder (c.generation folder) ∧
        c.callers place = some { folder, stage := .requesting } ∧
        (c.cache.slot folder).ticket = none ∧ c' = c.claim place folder := by
  cases h with
  | claim hat hnone => exact .inr ⟨_, _, rfl, hat, hnone, rfl⟩
  | fulfil hat => exact .inl ⟨rfl, Cache.length_tickets_fulfil _ _ _⟩
  | _ => exact .inl ⟨rfl, rfl⟩

/-- Claims are only added, behind all others. -/
theorem Step.claims_prefix (h : Step possible c e c') : c.claims <+: c'.claims := by
  rcases h.claims with ⟨heq, -⟩ | ⟨place, folder, -, -, -, rfl⟩
  · rw [heq]
  · exact List.prefix_append _ _

/-- Slots and claims agree: the ticket in a slot is the one whose claim is of the current generation
of the folder, and there is no other such claim. -/
structure Booked (c : Crowd) : Prop where
  /-- There is a claim for each ticket. -/
  length_claims : c.claims.length = c.cache.tickets.length
  /-- No generation of a folder is claimed twice. -/
  unique : ∀ {i j : Nat} {a b : Claim}, c.claims[i]? = some a → c.claims[j]? = some b →
    a.folder = b.folder → a.generation = b.generation → i = j
  /-- A claim is of a generation that the folder has come to. -/
  generation_le : ∀ {ticket : Nat} {a : Claim}, c.claims[ticket]? = some a →
    a.generation ≤ c.generation a.folder
  /-- The ticket in a slot was given out in the current generation. -/
  standing : ∀ {folder ticket : Nat}, (c.cache.slot folder).ticket = some ticket →
    ∃ place, c.claims[ticket]? = some { folder, generation := c.generation folder, caller := place }
  /-- A claim of the current generation stands in the slot. -/
  current : ∀ {ticket : Nat} {a : Claim}, c.claims[ticket]? = some a →
    a.generation = c.generation a.folder → (c.cache.slot a.folder).ticket = some ticket

/-- In the beginning there are neither claims nor tickets. -/
theorem booked_start (folders : Nat) : (start folders).Booked where
  length_claims := rfl
  unique h := nomatch h
  generation_le h := nomatch h
  standing {folder ticket} h := by
    have hticket : ((Cache.empty folders).slot folder).ticket = some ticket := h
    rw [Cache.slot_empty] at hticket
    cases hticket
  current h := nomatch h

/-- A claim is the last one or was there before. -/
theorem getElem?_claim {place ticket : Nat} {a : Claim}
    (hlength : c.claims.length = c.cache.tickets.length)
    (h : (c.claim place folder).claims[ticket]? = some a) :
    c.claims[ticket]? = some a ∨ ticket = c.cache.tickets.length ∧
      a = { folder, generation := c.generation folder, caller := place } := by
  have happend : (c.claims ++ [({ folder, generation := c.generation folder, caller := place } :
    Claim)])[ticket]? = some a := h
  rcases Nat.lt_trichotomy ticket c.claims.length with hlt | rfl | hlt
  · rw [List.getElem?_append_left hlt] at happend
    exact .inl happend
  · rw [List.getElem?_concat_length] at happend
    exact .inr ⟨hlength, (Option.some.inj happend).symm⟩
  · rw [List.getElem?_eq_none] at happend
    · cases happend
    · rw [List.length_append]
      exact hlt

/-- The new claim is that of the new ticket. -/
theorem getElem?_claim_last (hlength : c.claims.length = c.cache.tickets.length)
    (place folder : Nat) : (c.claim place folder).claims[c.cache.tickets.length]? =
      some { folder, generation := c.generation folder, caller := place } := by
  rw [← hlength]
  exact List.getElem?_concat_length

/-- The other claims are where they were. -/
theorem getElem?_claim_of_some {place ticket : Nat} {a : Claim}
    (ha : c.claims[ticket]? = some a) : (c.claim place folder).claims[ticket]? = some a := by
  show (c.claims ++ [_])[ticket]? = some a
  rw [List.getElem?_append_left (List.getElem?_eq_some_iff.mp ha).1]
  exact ha

/-- A claim is made when the slot has no ticket. By `Booked.current` there is no claim of the
current generation then, so the new one is the only one. -/
theorem Booked.claim {place : Nat} (h : c.Booked) (hrange : folder < c.cache.slots.length)
    (hnone : (c.cache.slot folder).ticket = none) : (c.claim place folder).Booked := by
  have hlength := h.length_claims
  have hgeneration : ∀ other, (c.claim place folder).generation other = c.generation other :=
    fun _ => rfl
  -- no claim of the current generation stands, so there is none
  have hnew : ∀ {i : Nat} {a : Claim}, c.claims[i]? = some a → a.folder = folder →
      a.generation ≠ c.generation folder := by
    rintro i a ha rfl heq
    have hstands := h.current ha heq
    rw [hnone] at hstands
    cases hstands
  have hslot := Cache.slot_request_self hnone hrange
  constructor
  case length_claims =>
    show (c.claims ++ [_]).length = (c.cache.request folder).2.tickets.length
    rw [List.length_append, Cache.length_tickets_request hnone, hlength]
    rfl
  case unique =>
    intro i j a b hi hj hfolder hsame
    -- both claims stood before, or one of them is the new one
    rcases getElem?_claim hlength hi with hi | ⟨rfl, rfl⟩
    · rcases getElem?_claim hlength hj with hj | ⟨rfl, rfl⟩
      · exact h.unique hi hj hfolder hsame
      · exact absurd hsame (hnew hi hfolder)
    · rcases getElem?_claim hlength hj with hj | ⟨rfl, -⟩
      · exact absurd hsame.symm (hnew hj hfolder.symm)
      · rfl
  case generation_le =>
    intro ticket a ha
    rw [hgeneration]
    rcases getElem?_claim hlength ha with ha | ⟨-, rfl⟩
    · exact h.generation_le ha
    · exact le_rfl
  case standing =>
    intro other ticket hticket
    rw [hgeneration]
    by_cases hother : other = folder
    · subst hother
      have hown : ((c.cache.request other).2.slot other).ticket = some ticket := hticket
      rw [hslot] at hown
      obtain rfl := Option.some.inj hown
      exact ⟨place, getElem?_claim_last hlength place _⟩
    · have hold : ((c.cache.request folder).2.slot other).ticket = some ticket := hticket
      rw [Cache.slot_request_ne hother] at hold
      obtain ⟨owner, howner⟩ := h.standing hold
      exact ⟨owner, getElem?_claim_of_some howner⟩
  case current =>
    intro ticket a ha hcurrent
    rw [hgeneration] at hcurrent
    show ((c.cache.request folder).2.slot a.folder).ticket = some ticket
    rcases getElem?_claim hlength ha with ha | ⟨rfl, rfl⟩
    · -- a claim of before that is current is of another folder
      have hother : a.folder ≠ folder := fun heq => hnew ha heq (heq ▸ hcurrent)
      rw [Cache.slot_request_ne hother]
      exact h.current ha hcurrent
    · rw [hslot]

/-- If no claim is made, the claims are the same, and a slot that has lost its ticket is in a
generation of which there is no claim yet (`Booked.generation_le`). -/
theorem Booked.step (h : c.Booked) (hrange : c.InRange) (hstep : Step possible c e c') :
    c'.Booked := by
  rcases hstep.claims with ⟨hclaims, hlength⟩ | ⟨place, folder, -, hat, hnone, rfl⟩
  · have hgeneration := hstep.generation_le hrange
    -- without a new claim, a ticket that stands has stood before, in the same generation
    have hbefore : ∀ {folder ticket : Nat}, (c'.cache.slot folder).ticket = some ticket →
        (c.cache.slot folder).ticket = some ticket ∧
          c'.generation folder = c.generation folder := by
      intro folder ticket hticket
      have hchange := hstep.change hrange folder
      rw [hstep.generation_eq_ite]
      generalize c'.cache.slot folder = slot at hchange hticket ⊢
      cases hchange with
      | same hkeeps hgoesOn => exact ⟨hticket, if_pos rfl⟩
      | claimed hclaim hnone =>
        obtain rfl := Option.some.inj hticket
        subst hclaim
        cases hstep with
        | claim hat _ =>
          have hmore : (c.claims ++ [_]).length = c.claims.length := congrArg List.length hclaims
          simp at hmore
      | noted hend hcurrent hkept => exact ⟨hticket, if_pos rfl⟩
      | cleared hclears => cases hticket
    constructor
    case length_claims => rw [hclaims, hlength, h.length_claims]
    case unique =>
      intro i j a b hi hj
      rw [hclaims] at hi hj
      exact h.unique hi hj
    case generation_le =>
      intro ticket a ha
      rw [hclaims] at ha
      exact (h.generation_le ha).trans (hgeneration a.folder)
    case standing =>
      intro folder ticket hticket
      obtain ⟨hticket, hsame⟩ := hbefore hticket
      rw [hclaims, hsame]
      exact h.standing hticket
    case current =>
      intro ticket a ha hcurrent
      rw [hclaims] at ha
      -- the generation is still that of the claim, so the slot has not been cleared
      have hsame : c.generation a.folder = c'.generation a.folder :=
        le_antisymm (hgeneration a.folder) (hcurrent.symm.trans_le (h.generation_le ha))
      have hstands := h.current ha (hcurrent.trans hsame.symm)
      have hchange := hstep.change hrange a.folder
      generalize c'.cache.slot a.folder = slot at hchange ⊢
      cases hchange with
      | same hkeeps hgoesOn => exact hstands
      | claimed hclaim hnone =>
        rw [hnone] at hstands
        cases hstands
      | noted hend hcurrent hkept => exact hstands
      | cleared hclears =>
        exact absurd (hsame.trans (hstep.generation_succ hrange hclears)) (Nat.lt_succ_self _).ne
  · exact h.claim (hrange place _ hat) hnone

/-! ### Callers and tickets -/

/-- Who has which ticket, and what is known of the outcomes. Of each ticket it is `attended` that
matters in the end: as long as there is no outcome, somebody will hand one out. -/
structure Served (possible : Nat → Outcome → Prop) (c : Crowd) : Prop where
  /-- A ticket is for the folder that the caller wants. -/
  ticket : ∀ {place ticket : Nat} {caller : Caller}, c.callers place = some caller →
    caller.stage.ticket? = some ticket →
    ∃ generation owner,
      c.claims[ticket]? = some { folder := caller.folder, generation, caller := owner }
  /-- Whoever works on a ticket has claimed it, and has handed out what there is for it. -/
  working : ∀ {place folder ticket generation : Nat} {progress : Progress},
    c.callers place = some { folder, stage := .working ticket generation progress } →
    c.claims[ticket]? = some { folder, generation, caller := place } ∧
      c.cache.outcome? ticket = progress.handedOut?
  /-- Whoever has an outcome has the one of the ticket. -/
  finished : ∀ {place folder ticket : Nat} {outcome : Outcome},
    c.callers place = some { folder, stage := .finished ticket outcome } →
    c.cache.outcome? ticket = some outcome
  /-- While a ticket has no outcome, the caller who claimed it works on it. -/
  attended : ∀ {ticket : Nat} {a : Claim}, c.claims[ticket]? = some a →
    c.cache.outcome? ticket = none →
    ∃ progress, c.callers a.caller =
      some { folder := a.folder, stage := .working ticket a.generation progress }
  /-- A decode ends with what is possible for the folder, -/
  ended : ∀ {place folder ticket generation : Nat} {progress : Progress} {outcome : Outcome},
    c.callers place = some { folder, stage := .working ticket generation progress } →
    progress.outcome? = some outcome → possible folder outcome
  /-- and this is what is handed out. -/
  known : ∀ {ticket : Nat} {a : Claim} {outcome : Outcome}, c.claims[ticket]? = some a →
    c.cache.outcome? ticket = some outcome → possible a.folder outcome

/-- In the beginning there is nobody. -/
theorem served_start (possible : Nat → Outcome → Prop) (folders : Nat) :
    (start folders).Served possible where
  ticket h := nomatch h
  working h := nomatch h
  finished h := nomatch h
  attended h := nomatch h
  ended h := nomatch h
  known h := nomatch h

namespace Served

/-- A change of the cache that hands out nothing: `Served` does not look at the slots. -/
theorem setCache (h : c.Served possible) {cache : Cache}
    (houtcome : ∀ ticket, cache.outcome? ticket = c.cache.outcome? ticket) :
    (c.setCache cache).Served possible where
  ticket := h.ticket
  working hat := by
    rw [cache_setCache, houtcome]
    exact h.working hat
  finished hat := by
    rw [cache_setCache, houtcome]
    exact h.finished hat
  attended ha hnone := by
    rw [cache_setCache, houtcome] at hnone
    exact h.attended ha hnone
  ended := h.ended
  known ha hknown := by
    rw [cache_setCache, houtcome] at hknown
    exact h.known ha hknown

/-- A caller comes to another stage. Whoever works on a ticket without an outcome goes on with
it. -/
theorem seat (h : c.Served possible) {place : Nat} {caller : Option Caller}
    (hticket : ∀ (k : Caller) (ticket : Nat), caller = some k → k.stage.ticket? = some ticket →
      ∃ generation owner,
        c.claims[ticket]? = some { folder := k.folder, generation, caller := owner })
    (hworking : ∀ folder ticket generation progress,
      caller = some { folder, stage := .working ticket generation progress } →
      (c.claims[ticket]? = some { folder, generation, caller := place } ∧
        c.cache.outcome? ticket = progress.handedOut?) ∧
        ∀ outcome, progress.outcome? = some outcome → possible folder outcome)
    (hfinished : ∀ folder ticket outcome,
      caller = some { folder, stage := .finished ticket outcome } →
      c.cache.outcome? ticket = some outcome)
    (hattended : ∀ folder ticket generation progress,
      c.callers place = some { folder, stage := .working ticket generation progress } →
      c.cache.outcome? ticket = none →
      ∃ progress', caller = some { folder, stage := .working ticket generation progress' }) :
    (c.seat place caller).Served possible where
  ticket hat hsome := by
    rcases callers_seat hat with ⟨-, hnew⟩ | ⟨-, hold⟩
    · exact hticket _ _ hnew hsome
    · exact h.ticket hold hsome
  working hat := by
    rcases callers_seat hat with ⟨rfl, hnew⟩ | ⟨-, hold⟩
    · exact (hworking _ _ _ _ hnew).1
    · exact h.working hold
  finished hat := by
    rcases callers_seat hat with ⟨-, hnew⟩ | ⟨-, hold⟩
    · exact hfinished _ _ _ hnew
    · exact h.finished hold
  attended {ticket a} ha hnone := by
    obtain ⟨progress, hat⟩ := h.attended ha hnone
    -- whoever worked at this place goes on with the ticket
    by_cases hplace : a.caller = place
    · rw [hplace] at hat ⊢
      obtain ⟨progress', hnew⟩ := hattended _ _ _ _ hat hnone
      exact ⟨progress', (callers_seat_self c place caller).trans hnew⟩
    · exact ⟨progress, (callers_seat_ne hplace).trans hat⟩
  ended hat hsome := by
    rcases callers_seat hat with ⟨-, hnew⟩ | ⟨-, hold⟩
    · exact (hworking _ _ _ _ hnew).2 _ hsome
    · exact h.ended hold hsome
  known := h.known

/-- An outcome is handed out by the caller who works on the ticket. The ticket had none before
(`Served.working`), so nobody who has an outcome sees it change. -/
theorem fulfil (h : c.Served possible) (hbooked : c.Booked) {place ticket generation : Nat}
    {outcome : Outcome}
    (hat : c.callers place =
      some { folder, stage := .working ticket generation (.ended outcome) }) :
    ((c.setCache (c.cache.fulfil ticket outcome)).seat place
      (some { folder, stage := .working ticket generation (.handedOut outcome) })).Served
        possible := by
  obtain ⟨hclaim, hnone⟩ := h.working hat
  have hlt : ticket < c.cache.tickets.length := by
    rw [← hbooked.length_claims]
    exact (List.getElem?_eq_some_iff.mp hclaim).1
  have hself := Cache.outcome?_fulfil_self hlt outcome
  -- no other ticket is touched
  have hothers : ∀ {other : Nat}, other ≠ ticket →
      (c.cache.fulfil ticket outcome).outcome? other = c.cache.outcome? other :=
    fun hne => Cache.outcome?_fulfil_ne hne outcome
  constructor
  case ticket =>
    intro other own k hk hsome
    rcases callers_seat hk with ⟨-, hnew⟩ | ⟨-, hold⟩
    · cases hnew
      cases hsome
      exact ⟨generation, place, hclaim⟩
    · exact h.ticket hold hsome
  case working =>
    intro other own own' generation' progress hk
    rcases callers_seat hk with ⟨rfl, hnew⟩ | ⟨hne, hold⟩
    · cases hnew
      exact ⟨hclaim, hself⟩
    · -- somebody else works on another ticket
      obtain ⟨hclaim', houtcome⟩ := h.working hold
      refine ⟨hclaim', (hothers ?_).trans houtcome⟩
      rintro rfl
      rw [hclaim] at hclaim'
      cases hclaim'
      exact hne rfl
  case finished =>
    intro other own own' outcome' hk
    rcases callers_seat hk with ⟨-, hnew⟩ | ⟨-, hold⟩
    · cases hnew
    · have houtcome := h.finished hold
      -- what is known already is not handed out now
      refine (hothers ?_).trans houtcome
      rintro rfl
      rw [hnone] at houtcome
      cases houtcome
  case attended =>
    intro own a ha hnone'
    have hne : own ≠ ticket := by
      rintro rfl
      have hsome : (c.cache.fulfil own outcome).outcome? own = none := hnone'
      rw [hself] at hsome
      cases hsome
    obtain ⟨progress, hold⟩ := h.attended ha ((hothers hne).symm.trans hnone')
    refine ⟨progress, (callers_seat_ne fun hplace => ?_).trans hold⟩
    rw [hplace] at hold
    rw [hat] at hold
    cases hold
    exact hne rfl
  case ended =>
    intro other own own' generation' progress outcome' hk hsome
    rcases callers_seat hk with ⟨-, hnew⟩ | ⟨-, hold⟩
    · cases hnew
      cases hsome
      exact h.ended hat rfl
    · exact h.ended hold hsome
  case known =>
    intro own a outcome' ha hknown
    by_cases hne : own = ticket
    · subst hne
      have hsame : (c.cache.fulfil own outcome).outcome? own = some outcome' := hknown
      rw [hself] at hsame
      cases hsame
      have hsame : c.claims[own]? = some a := ha
      rw [hclaim] at hsame
      cases hsame
      exact h.ended hat rfl
    · exact h.known ha ((hothers hne).symm.trans hknown)

/-- A new ticket has no outcome, and the caller who has claimed it works on it. -/
theorem claim (h : c.Served possible) (hbooked : c.Booked) {place : Nat}
    (hat : c.callers place = some { folder, stage := .requesting }) :
    (c.claim place folder).Served possible := by
  have hlength := hbooked.length_claims
  have houtcome : ∀ ticket,
      (c.claim place folder).cache.outcome? ticket = c.cache.outcome? ticket :=
    Cache.outcome?_request c.cache folder
  have hnew := getElem?_claim_last hlength place folder
  -- the new ticket is open
  have hunknown : c.cache.outcome? c.cache.tickets.length = none := by
    rw [Cache.outcome?, List.getElem?_eq_none le_rfl]
    rfl
  constructor
  case ticket =>
    intro other own k hk hsome
    rcases callers_seat hk with ⟨-, heq⟩ | ⟨-, hbefore⟩
    · cases heq
      cases hsome
      exact ⟨_, place, hnew⟩
    · obtain ⟨generation, owner, hclaim⟩ := h.ticket hbefore hsome
      exact ⟨generation, owner, getElem?_claim_of_some hclaim⟩
  case working =>
    intro other own own' generation' progress hk
    rw [houtcome]
    rcases callers_seat hk with ⟨rfl, heq⟩ | ⟨-, hbefore⟩
    · cases heq
      exact ⟨hnew, hunknown⟩
    · obtain ⟨hclaim, hsame⟩ := h.working hbefore
      exact ⟨getElem?_claim_of_some hclaim, hsame⟩
  case finished =>
    intro other own own' outcome hk
    rw [houtcome]
    rcases callers_seat hk with ⟨-, heq⟩ | ⟨-, hbefore⟩
    · cases heq
    · exact h.finished hbefore
  case attended =>
    intro own a ha hnone
    rw [houtcome] at hnone
    rcases getElem?_claim hlength ha with hbefore | ⟨rfl, rfl⟩
    · -- the caller who claims was at no work before
      obtain ⟨progress, hworks⟩ := h.attended hbefore hnone
      refine ⟨progress, (callers_seat_ne fun hplace => ?_).trans hworks⟩
      rw [hplace, hat] at hworks
      cases hworks
    · exact ⟨.ahead, callers_seat_self c place _⟩
  case ended =>
    intro other own own' generation' progress outcome hk hsome
    rcases callers_seat hk with ⟨-, heq⟩ | ⟨-, hbefore⟩
    · cases heq
      cases hsome
    · exact h.ended hbefore hsome
  case known =>
    intro own a outcome ha hknown
    rw [houtcome] at hknown
    rcases getElem?_claim hlength ha with hbefore | ⟨rfl, -⟩
    · exact h.known hbefore hknown
    · rw [hunknown] at hknown
      cases hknown

/-- Whoever was not `.working` on an open ticket may come to any stage that is not `.working`. -/
theorem seat_idle (h : c.Served possible) {place : Nat} {caller : Option Caller}
    (hidle : ∀ folder ticket generation progress,
      c.callers place = some { folder, stage := .working ticket generation progress } →
      c.cache.outcome? ticket ≠ none)
    (hticket : ∀ (k : Caller) (ticket : Nat), caller = some k → k.stage.ticket? = some ticket →
      ∃ generation owner,
        c.claims[ticket]? = some { folder := k.folder, generation, caller := owner })
    (hidle' : ∀ folder ticket generation progress,
      caller ≠ some { folder, stage := .working ticket generation progress })
    (hfinished : ∀ folder ticket outcome,
      caller = some { folder, stage := .finished ticket outcome } →
      c.cache.outcome? ticket = some outcome) : (c.seat place caller).Served possible :=
  h.seat hticket (fun _ _ _ _ hworks => absurd hworks (hidle' _ _ _ _)) hfinished
    fun _ _ _ _ hworks hnone => absurd hnone (hidle _ _ _ _ hworks)

/-- Whoever works on a ticket comes from one `Progress` to another and hands nothing out. -/
theorem workOn (h : c.Served possible) {place ticket generation : Nat}
    {progress progress' : Progress}
    (hat : c.callers place = some { folder, stage := .working ticket generation progress })
    (hsame : progress'.handedOut? = progress.handedOut?)
    (hended : ∀ outcome, progress'.outcome? = some outcome → possible folder outcome) :
    (c.seat place (some { folder, stage := .working ticket generation progress' })).Served
      possible := by
  obtain ⟨hclaim, hnone⟩ := h.working hat
  refine h.seat (fun k own hk hsome => ?_) (fun _ _ _ _ hk => ?_) nofun fun _ _ _ _ hk _ => ?_
  · cases hk
    cases hsome
    exact ⟨generation, place, hclaim⟩
  · cases hk
    exact ⟨⟨hclaim, hnone.trans hsame.symm⟩, hended⟩
  · rw [hat] at hk
    cases hk
    exact ⟨_, rfl⟩

/-- Each step moves one caller: `enter`, `join`, `settle`, `receive` and `leave` are no work on an
open ticket (`seat_idle`), `start` and `complete` go on with it (`workOn`), and `claim` and `fulfil`
open and close it. -/
theorem step (h : c.Served possible) (hbooked : c.Booked) (hstep : Step possible c e c') :
    c'.Served possible := by
  cases hstep with
  | enter hfree hfolder =>
    refine h.seat_idle (fun _ _ _ _ hworks => ?_) (fun k ticket hk hsome => ?_) nofun nofun
    · rw [hfree] at hworks
      cases hworks
    · cases hk
      cases hsome
  | join hat hticket =>
    obtain ⟨owner, hclaim⟩ := hbooked.standing hticket
    refine h.seat_idle (fun _ _ _ _ hworks => ?_) (fun k ticket hk hsome => ?_) nofun nofun
    · rw [hat] at hworks
      cases hworks
    · cases hk
      cases hsome
      exact ⟨_, owner, hclaim⟩
  | claim hat hnone => exact h.claim hbooked hat
  | start hat => exact h.workOn hat rfl nofun
  | complete hat hpossible =>
    refine h.workOn hat rfl fun outcome hsome => ?_
    cases hsome
    exact hpossible
  | fulfil hat => exact h.fulfil hbooked hat
  | @settle place folder ticket generation outcome hat =>
    -- the outcome has been handed out, so nobody needs to go on with the ticket
    obtain ⟨hclaim, houtcome⟩ := h.working hat
    have hsettled : (c.setCache (c.cache.settle folder (UInt64.ofNat generation)
        outcome)).Served possible := h.setCache fun _ => rfl
    refine hsettled.seat_idle (fun _ _ _ _ hworks => ?_) (fun k own hk hsome => ?_) nofun
      fun _ _ _ hk => ?_
    · rw [callers_setCache, hat] at hworks
      cases hworks
      exact fun hnone => nomatch houtcome.symm.trans hnone
    · cases hk
      cases hsome
      exact ⟨generation, place, hclaim⟩
    · cases hk
      exact houtcome
  | @receive place folder ticket outcome hat houtcome =>
    obtain ⟨generation, owner, hclaim⟩ := h.ticket hat rfl
    refine h.seat_idle (fun _ _ _ _ hworks => ?_) (fun k own hk hsome => ?_) nofun
      fun _ _ _ hk => ?_
    · rw [hat] at hworks
      cases hworks
    · cases hk
      cases hsome
      exact ⟨generation, owner, hclaim⟩
    · cases hk
      exact houtcome
  | leave hat =>
    refine h.seat_idle (fun _ _ _ _ hworks => ?_) nofun nofun nofun
    rw [hat] at hworks
    cases hworks
  | release hfolder => exact h.setCache fun _ => rfl

end Served

end Crowd

end SolidArchive
