import SolidArchive.Proofs.Reader.Tickets
import SolidArchive.Proofs.Reader.Visits

/-!
# Single flight

However many callers want a folder, it is decoded once in each of its generations, and everybody who
has come by the ticket of that decode gets its outcome (`Reader.single_flight`).

What has become of the decode of a folder in a generation is its `Crowd.trail` in what has happened:
nothing, its start, or its start and its end. The invariant `Crowd.Recorded` says that this is what
callers know. While the decode is claimed it has one caller who works on it, so the trail grows only
where that caller is, and once the outcome is handed out nobody works on it again.
-/

namespace SolidArchive

open Reader

namespace Crowd

variable {possible : Nat → Outcome → Prop} {c c' : Crowd} {e : Event} {events : List Event}
  {folder folders generation : Nat}

/-! ### What has happened -/

/-- Whether something is the start or the end of the decode of a folder in a generation. -/
def Event.concerns (folder generation : Nat) : Event → Bool
  | .start own own' => own = folder ∧ own' = generation
  | .complete own own' _ => own = folder ∧ own' = generation
  | _ => false

/-- What has become of the decode of a folder in a generation. -/
def trail (folder generation : Nat) (events : List Event) : List Event :=
  events.filter (Event.concerns folder generation)

/-- What has become of it if it has come so far. -/
def soFar (folder generation : Nat) : Progress → List Event
  | .ahead => []
  | .underWay => [.start folder generation]
  | .ended outcome => [.start folder generation, .complete folder generation outcome]
  | .handedOut outcome => [.start folder generation, .complete folder generation outcome]

/-- A ticket was given out for the folder in that generation. -/
def Claimed (c : Crowd) (folder generation : Nat) : Prop :=
  ∃ (ticket owner : Nat), c.claims[ticket]? = some { folder, generation, caller := owner }

/-- What has happened is what callers know. -/
structure Recorded (events : List Event) (c : Crowd) : Prop where
  unclaimed : ∀ {folder generation : Nat}, ¬c.Claimed folder generation →
    trail folder generation events = []
  working : ∀ {place folder ticket generation : Nat} {progress : Progress},
    c.callers place = some { folder, stage := .working ticket generation progress } →
    trail folder generation events = soFar folder generation progress
  known : ∀ {ticket : Nat} {a : Claim} {outcome : Outcome}, c.claims[ticket]? = some a →
    c.cache.outcome? ticket = some outcome →
    trail a.folder a.generation events = soFar a.folder a.generation (.handedOut outcome)

theorem trail_append (folder generation : Nat) (events events' : List Event) :
    trail folder generation (events ++ events') =
      trail folder generation events ++ trail folder generation events' := List.filter_append _ _

theorem trail_append_of_not (h : e.concerns folder generation = false) :
    trail folder generation (events ++ [e]) = trail folder generation events := by
  have hnone : trail folder generation [e] = [] := List.filter_cons_of_neg (h ▸ nofun)
  rw [trail_append, hnone, List.append_nil]

theorem trail_append_of (h : e.concerns folder generation = true) :
    trail folder generation (events ++ [e]) = trail folder generation events ++ [e] := by
  have hone : trail folder generation [e] = [e] := List.filter_cons_of_pos h
  rw [trail_append, hone]

theorem recorded_start (folders : Nat) : (start folders).Recorded [] where
  unclaimed _ := rfl
  working h := nomatch h
  known h := nomatch h

namespace Recorded

/-- Nothing becomes of a decode, nothing is handed out, and nobody comes to work. -/
theorem quiet (h : c.Recorded events)
    (hquiet : ∀ folder generation, e.concerns folder generation = false)
    (hclaims : c'.claims = c.claims)
    (houtcome : ∀ ticket, c'.cache.outcome? ticket = c.cache.outcome? ticket)
    (hcallers : ∀ place folder ticket generation progress,
      c'.callers place = some { folder, stage := .working ticket generation progress } →
      c.callers place = some { folder, stage := .working ticket generation progress }) :
    c'.Recorded (events ++ [e]) where
  -- the event is on no trail, and what the record speaks of has not changed
  unclaimed {folder generation} hnone := by
    unfold Claimed at hnone
    rw [hclaims] at hnone
    rw [trail_append_of_not (hquiet _ _), h.unclaimed hnone]
  working hat := by
    rw [trail_append_of_not (hquiet _ _), h.working (hcallers _ _ _ _ _ hat)]
  known ha hknown := by
    rw [hclaims] at ha
    rw [houtcome] at hknown
    rw [trail_append_of_not (hquiet _ _), h.known ha hknown]

/-- An event that concerns no decode (`Event.concerns`) makes no trail longer, and a caller who is
not `.working` is none of those of whom `Recorded` speaks. -/
theorem quiet_seat (h : c.Recorded events) {place : Nat} {caller : Option Caller}
    (hquiet : ∀ folder generation, e.concerns folder generation = false)
    (hidle : ∀ folder ticket generation progress,
      caller ≠ some { folder, stage := .working ticket generation progress }) :
    (c.seat place caller).Recorded (events ++ [e]) := by
  refine h.quiet hquiet rfl (fun _ => rfl) fun other own ticket generation progress hk => ?_
  rcases callers_seat hk with ⟨-, hnew⟩ | ⟨-, hold⟩
  · exact absurd hnew (hidle own ticket generation progress)
  · exact hold

theorem claim (h : c.Recorded events) (hbooked : c.Booked) {place : Nat}
    (hnone : (c.cache.slot folder).ticket = none) :
    (c.claim place folder).Recorded (events ++ [.claim folder (c.generation folder)]) := by
  have hlength := hbooked.length_claims
  -- a claim is on no trail
  have hquiet : ∀ own generation,
      (Event.claim folder (c.generation folder)).concerns own generation = false := fun _ _ => rfl
  constructor
  case unclaimed =>
    intro own generation hfree
    rw [trail_append_of_not (hquiet _ _)]
    exact h.unclaimed fun ⟨ticket, owner, hclaim⟩ =>
      hfree ⟨ticket, owner, getElem?_claim_of_some hclaim⟩
  case working =>
    intro other own ticket generation progress hk
    rw [trail_append_of_not (hquiet _ _)]
    rcases callers_seat hk with ⟨-, hnew⟩ | ⟨-, hold⟩
    · -- a claim of this generation would stand in the slot
      cases hnew
      refine h.unclaimed fun ⟨ticket, owner, hclaim⟩ => ?_
      have hstands := hbooked.current hclaim rfl
      rw [hnone] at hstands
      cases hstands
    · exact h.working hold
  case known =>
    -- the new ticket has no outcome yet
    intro ticket a outcome ha hknown
    rw [trail_append_of_not (hquiet _ _)]
    have hknown : c.cache.outcome? ticket = some outcome :=
      (Cache.outcome?_request c.cache folder ticket).symm.trans hknown
    rcases getElem?_claim hlength ha with hold | ⟨rfl, -⟩
    · exact h.known hold hknown
    · exact absurd (Cache.lt_of_outcome hknown) (Nat.lt_irrefl _)

/-- A decode begins or ends. -/
theorem work (h : c.Recorded events) (hbooked : c.Booked) (hserved : c.Served possible)
    {place ticket : Nat} {progress progress' : Progress}
    (hat : c.callers place = some { folder, stage := .working ticket generation progress })
    (hquiet : progress.handedOut? = none)
    (hconcerns : ∀ own own', e.concerns own own' = true ↔ folder = own ∧ generation = own')
    (hsoFar : soFar folder generation progress' = soFar folder generation progress ++ [e]) :
    (c.seat place (some { folder, stage := .working ticket generation progress' })).Recorded
      (events ++ [e]) := by
  obtain ⟨hclaim, hnone⟩ := hserved.working hat
  rw [hquiet] at hnone
  -- the trails of all other decodes stay as they are
  have hothers : ∀ {own own' : Nat}, ¬(folder = own ∧ generation = own') →
      trail own own' (events ++ [e]) = trail own own' events :=
    fun hne => trail_append_of_not (Bool.eq_false_iff.mpr (mt (hconcerns _ _).mp hne))
  constructor
  case unclaimed =>
    -- the decode that goes on has been claimed
    intro own own' hfree
    rw [hothers, h.unclaimed hfree]
    rintro ⟨rfl, rfl⟩
    exact hfree ⟨ticket, place, hclaim⟩
  case working =>
    intro other own own' generation' progress'' hk
    rcases callers_seat hk with ⟨-, hnew⟩ | ⟨hne, hold⟩
    · cases hnew
      rw [trail_append_of ((hconcerns _ _).mpr ⟨rfl, rfl⟩), h.working hat, hsoFar]
    · -- somebody else works on another decode, as this one has been claimed once
      rw [hothers, h.working hold]
      rintro ⟨rfl, rfl⟩
      have hclaim' := (hserved.working hold).1
      obtain rfl := hbooked.unique hclaim hclaim' rfl rfl
      rw [hclaim] at hclaim'
      cases hclaim'
      exact hne rfl
  case known =>
    -- what has an outcome is not worked on any more
    intro own a outcome ha hknown
    rw [hothers, h.known ha hknown]
    rintro ⟨hfolder, hgeneration⟩
    obtain rfl := hbooked.unique hclaim ha hfolder hgeneration
    exact nomatch hnone.symm.trans hknown

/-- What is handed out is what the decode has come to. -/
theorem fulfil (h : c.Recorded events) (hbooked : c.Booked) (hserved : c.Served possible)
    {place ticket : Nat} {outcome : Outcome}
    (hat : c.callers place =
      some { folder, stage := .working ticket generation (.ended outcome) }) :
    ((c.setCache (c.cache.fulfil ticket outcome)).seat place
      (some { folder, stage := .working ticket generation (.handedOut outcome) })).Recorded
      (events ++ [.fulfil folder generation outcome]) := by
  obtain ⟨hclaim, -⟩ := hserved.working hat
  have hlt : ticket < c.cache.tickets.length := by
    rw [← hbooked.length_claims]
    exact (List.getElem?_eq_some_iff.mp hclaim).1
  -- to hand out an outcome is on no trail
  have hquiet : ∀ own own', (Event.fulfil folder generation outcome).concerns own own' = false :=
    fun _ _ => rfl
  have htrail := h.working hat
  constructor
  case unclaimed =>
    intro own own' hfree
    rw [trail_append_of_not (hquiet _ _)]
    exact h.unclaimed hfree
  case working =>
    intro other own own' generation' progress hk
    rw [trail_append_of_not (hquiet _ _)]
    rcases callers_seat hk with ⟨-, hnew⟩ | ⟨-, hold⟩
    · cases hnew
      exact htrail
    · exact h.working hold
  case known =>
    intro own a outcome' ha hknown
    rw [trail_append_of_not (hquiet _ _)]
    -- the trail of this ticket has come to the outcome that is handed out now
    by_cases hown : own = ticket
    · subst hown
      have hsame : (c.cache.fulfil own outcome).outcome? own = some outcome' := hknown
      rw [Cache.outcome?_fulfil_self hlt] at hsame
      cases hsame
      have ha : c.claims[own]? = some a := ha
      rw [hclaim] at ha
      cases ha
      exact htrail
    · exact h.known ha ((Cache.outcome?_fulfil_ne hown outcome).symm.trans hknown)

theorem step (h : c.Recorded events) (hbooked : c.Booked) (hserved : c.Served possible)
    (hstep : Step possible c e c') : c'.Recorded (events ++ [e]) := by
  cases hstep with
  | enter hfree hfolder => exact h.quiet_seat (fun _ _ => rfl) nofun
  | join hat hticket => exact h.quiet_seat (fun _ _ => rfl) nofun
  | claim hat hnone => exact h.claim hbooked hnone
  | start hat => exact h.work hbooked hserved hat rfl (fun _ _ => decide_eq_true_iff) rfl
  | complete hat hpossible =>
    exact h.work hbooked hserved hat rfl (fun _ _ => decide_eq_true_iff) rfl
  | fulfil hat => exact h.fulfil hbooked hserved hat
  | @settle place folder ticket generation outcome hat =>
    have hsettled : (c.setCache (c.cache.settle folder (UInt64.ofNat generation)
        outcome)).Recorded events := ⟨h.unclaimed, h.working, h.known⟩
    exact hsettled.quiet_seat (fun _ _ => rfl) nofun
  | receive hat houtcome => exact h.quiet_seat (fun _ _ => rfl) nofun
  | leave hat => exact h.quiet_seat (fun _ _ => rfl) nofun
  | release hfolder =>
    exact h.quiet (fun _ _ => rfl) rfl (fun _ => rfl) fun _ _ _ _ _ hat => hat

end Recorded

/-! ### Any number of steps -/

/-- All that is so of a crowd after what has happened. -/
structure Orderly (possible : Nat → Outcome → Prop) (events : List Event) (c : Crowd) : Prop where
  inRange : c.InRange
  counted : c.Counted
  booked : c.Booked
  served : c.Served possible
  recorded : c.Recorded events

theorem Orderly.step (h : c.Orderly possible events) (hstep : Step possible c e c') :
    c'.Orderly possible (events ++ [e]) where
  inRange := h.inRange.step hstep
  counted := h.counted.step hstep
  booked := h.booked.step h.inRange hstep
  served := h.served.step h.booked hstep
  recorded := h.recorded.step h.booked h.served hstep

/-- **Crowds are orderly**, whatever happens and in whatever order. -/
theorem Run.orderly (h : Run possible folders events c) : c.Orderly possible events := by
  induction h with
  | refl =>
    exact ⟨inRange_start folders, counted_start folders, booked_start folders,
      served_start possible folders, recorded_start folders⟩
  | tail _ hstep ih => exact ih.step hstep

namespace Orderly

/-- A claimed decode has not begun, or is under way, or has come to one outcome. -/
theorem exists_soFar (h : c.Orderly possible events) (folder generation : Nat) :
    ∃ progress, trail folder generation events = soFar folder generation progress := by
  by_cases hclaimed : c.Claimed folder generation
  · obtain ⟨ticket, owner, hclaim⟩ := hclaimed
    cases houtcome : c.cache.outcome? ticket with
    | some outcome => exact ⟨_, h.recorded.known hclaim houtcome⟩
    | none =>
      obtain ⟨progress, hat⟩ := h.served.attended hclaim houtcome
      exact ⟨progress, h.recorded.working hat⟩
  · exact ⟨.ahead, h.recorded.unclaimed hclaimed⟩

/-- The decode of a folder begins at most once in each generation. -/
theorem count_start_le (h : c.Orderly possible events) (folder generation : Nat) :
    events.count (.start folder generation) ≤ 1 := by
  have hconcerns : (Event.start folder generation).concerns folder generation = true :=
    decide_eq_true ⟨rfl, rfl⟩
  obtain ⟨progress, htrail⟩ := h.exists_soFar folder generation
  -- the starts of a decode are all on its trail, and a trail has one at most
  calc events.count (.start folder generation)
      = (trail folder generation events).count (.start folder generation) :=
        (List.count_filter hconcerns).symm
    _ = (soFar folder generation progress).count (.start folder generation) := by rw [htrail]
    _ ≤ 1 := by
      cases progress with
      | ahead => exact Nat.zero_le _
      | underWay => simp [soFar]
      | ended outcome => simp [soFar]
      | handedOut outcome => simp [soFar]

/-- Only what has been claimed begins, and nothing is claimed in a generation yet to come. -/
theorem generation_le (h : c.Orderly possible events)
    (hmem : .start folder generation ∈ events) : generation ≤ c.generation folder := by
  by_contra hlt
  have hfree : ¬c.Claimed folder generation := fun ⟨ticket, owner, hclaim⟩ =>
    hlt (h.booked.generation_le hclaim)
  have hmem' : .start folder generation ∈ trail folder generation events :=
    List.mem_filter.mpr ⟨hmem, decide_eq_true ⟨rfl, rfl⟩⟩
  rw [h.recorded.unclaimed hfree] at hmem'
  cases hmem'

/-- The outcome that a ticket has is what its decode has come to. -/
theorem complete_iff (h : c.Orderly possible events) {ticket : Nat} {a : Claim} {outcome : Outcome}
    (ha : c.claims[ticket]? = some a) (hknown : c.cache.outcome? ticket = some outcome)
    (outcome' : Outcome) :
    .complete a.folder a.generation outcome' ∈ events ↔ outcome' = outcome := by
  have hconcerns : (Event.complete a.folder a.generation outcome').concerns a.folder a.generation =
      true := decide_eq_true ⟨rfl, rfl⟩
  -- the trail of a ticket with an outcome comes to this outcome
  calc .complete a.folder a.generation outcome' ∈ events
      ↔ .complete a.folder a.generation outcome' ∈ trail a.folder a.generation events := by
        rw [trail, List.mem_filter, and_iff_left hconcerns]
    _ ↔ .complete a.folder a.generation outcome' ∈
        soFar a.folder a.generation (.handedOut outcome) := by rw [h.recorded.known ha hknown]
    _ ↔ outcome' = outcome := by simp [soFar]

end Orderly

/-! ### Counting decodes -/

/-- The generations in which decodes of a folder have begun. -/
def begun (folder : Nat) (events : List Event) : List Nat :=
  events.filterMap fun
    | .start own generation => if own = folder then some generation else none
    | _ => none

theorem mem_begun : generation ∈ begun folder events ↔ .start folder generation ∈ events := by
  unfold begun
  rw [List.mem_filterMap]
  constructor
  · rintro ⟨e, hmem, he⟩
    -- only the starts of this folder are picked
    cases e with
    | start own own' =>
      dsimp only at he
      split at he
      · next heq =>
        cases he
        subst heq
        exact hmem
      · cases he
    | _ => cases he
  · intro hmem
    exact ⟨_, hmem, if_pos rfl⟩

theorem count_begun (folder generation : Nat) (events : List Event) :
    (begun folder events).count generation = events.count (.start folder generation) := by
  unfold begun
  rw [List.count_eq_countP, List.countP_filterMap, List.count_eq_countP]
  refine List.countP_congr fun e _ => ?_
  cases e with
  | start own own' =>
    by_cases hown : own = folder
    · simp [hown]
    · simp [hown]
  | _ => simp

/-- Decodes of a folder are not more than the generations that it has had. -/
theorem Orderly.length_begun_le (h : c.Orderly possible events) (folder : Nat) :
    (begun folder events).length ≤ c.generation folder + 1 := by
  have hnodup : (begun folder events).Nodup := by
    refine List.nodup_iff_count_le_one.mpr fun generation => ?_
    rw [count_begun]
    exact h.count_start_le folder generation
  have hrange : begun folder events ⊆ List.range (c.generation folder + 1) := by
    intro generation hmem
    have hle := h.generation_le (mem_begun.mp hmem)
    exact List.mem_range.mpr (Nat.lt_succ_of_le hle)
  -- different numbers, and none above the generation
  calc (begun folder events).length
      ≤ (List.range (c.generation folder + 1)).length := (hnodup.subperm hrange).length_le
    _ = c.generation folder + 1 := List.length_range

/-! ### Single flight -/

/-- What has happened among callers, as far as they matter to each other. -/
structure SingleFlight (events : List Event) (c : Crowd) : Prop where
  /-- A slot has its generation as a word. -/
  counted : c.Counted
  /-- A folder is decoded once in each of its generations. -/
  count_start_le : ∀ folder generation, events.count (.start folder generation) ≤ 1
  begun_le : ∀ folder, ∀ generation ∈ begun folder events, generation ≤ c.generation folder
  length_begun_le : ∀ folder, (begun folder events).length ≤ c.generation folder + 1
  /-- Who asks while a claim stands is told to wait for the decode of the current generation. -/
  wait : ∀ {folder ticket : Nat} {cache : Cache},
    c.cache.request folder = (.wait ticket, cache) →
    ∃ owner, c.claims[ticket]? =
      some { folder, generation := c.generation folder, caller := owner }
  /-- A claim is a new one in its generation, which the caller is told as a word. -/
  claim : ∀ {folder ticket : Nat} {generation : UInt64} {cache : Cache},
    c.cache.request folder = (.claim ticket generation, cache) →
    generation = UInt64.ofNat (c.generation folder) ∧ ¬c.Claimed folder (c.generation folder)
  /-- Nobody waits for a decode of another folder. -/
  ticket : ∀ {place ticket : Nat} {caller : Caller}, c.callers place = some caller →
    caller.stage.ticket? = some ticket →
    ∃ generation owner,
      c.claims[ticket]? = some { folder := caller.folder, generation, caller := owner }
  /-- Who waits does so while the caller who claimed the decode works on it, or gets what that
  decode has come to. -/
  waiting : ∀ {place folder ticket generation owner : Nat},
    c.callers place = some { folder, stage := .waiting ticket } →
    c.claims[ticket]? = some { folder, generation, caller := owner } →
    (∃ progress, c.callers owner =
      some { folder, stage := .working ticket generation progress }) ∨
      ∃ outcome, c.cache.outcome? ticket = some outcome ∧
        ∀ outcome', .complete folder generation outcome' ∈ events ↔ outcome' = outcome
  /-- What a caller gets is what that decode has come to, and it has come to nothing else. -/
  received : ∀ {place folder ticket generation owner : Nat} {outcome : Outcome},
    c.callers place = some { folder, stage := .finished ticket outcome } →
    c.claims[ticket]? = some { folder, generation, caller := owner } →
    ∀ outcome', .complete folder generation outcome' ∈ events ↔ outcome' = outcome

theorem Orderly.singleFlight (h : c.Orderly possible events) : c.SingleFlight events where
  counted := h.counted
  count_start_le := h.count_start_le
  begun_le folder generation hmem := h.generation_le (mem_begun.mp hmem)
  length_begun_le := h.length_begun_le
  wait {folder ticket cache} hrequest := by
    cases hticket : (c.cache.slot folder).ticket with
    | none =>
      rw [Cache.request_of_none hticket] at hrequest
      cases hrequest
    | some own =>
      rw [Cache.request_of_ticket hticket] at hrequest
      cases hrequest
      exact h.booked.standing hticket
  claim {folder ticket generation cache} hrequest := by
    cases hticket : (c.cache.slot folder).ticket with
    | some own =>
      rw [Cache.request_of_ticket hticket] at hrequest
      cases hrequest
    | none =>
      rw [Cache.request_of_none hticket] at hrequest
      cases hrequest
      -- a claim of this generation would stand in the slot, which is free
      refine ⟨h.counted folder, fun ⟨ticket, owner, hclaim⟩ => ?_⟩
      have hstands := h.booked.current hclaim rfl
      rw [hticket] at hstands
      cases hstands
  ticket := h.served.ticket
  waiting {place folder ticket generation owner} hat hclaim := by
    cases houtcome : c.cache.outcome? ticket with
    | none => exact .inl (h.served.attended hclaim houtcome)
    | some outcome => exact .inr ⟨outcome, rfl, h.complete_iff hclaim houtcome⟩
  received hat hclaim := h.complete_iff hclaim (h.served.finished hat)

/-! ### Words and numbers -/

/-- Words tell numbers apart that are less than 2 ^ 64 apart. -/
theorem eq_of_ofNat_eq {own : Nat} (hle : own ≤ generation) (hlt : generation < own + 2 ^ 64)
    (h : UInt64.ofNat own = UInt64.ofNat generation) : own = generation := by
  have hmod : own % 2 ^ 64 = generation % 2 ^ 64 := congrArg UInt64.toNat h
  omega

/-- **A decode that looks current is current**, if since its claim the folder has been forgotten
less than 2 ^ 64 times. -/
theorem Orderly.word_eq_iff (h : c.Orderly possible events) {place ticket : Nat}
    {progress : Progress}
    (hat : c.callers place = some { folder, stage := .working ticket generation progress })
    (hrecent : c.generation folder < generation + 2 ^ 64) :
    UInt64.ofNat generation = (c.cache.slot folder).generation ↔
      generation = c.generation folder := by
  rw [h.counted folder]
  -- the generation of a claim is not one yet to come
  have hle : generation ≤ c.generation folder := h.booked.generation_le (h.served.working hat).1
  exact ⟨eq_of_ofNat_eq hle hrecent, congrArg UInt64.ofNat⟩

/-- What clears the slot of a folder is what empties it in its generation, if all decodes of the
folder are recent. -/
theorem Step.clears_iff_empties (h : Step possible c e c') (hc : c.Orderly possible events)
    (hrecent : ∀ place ticket generation progress,
      c.callers place = some { folder, stage := .working ticket generation progress } →
      c.generation folder < generation + 2 ^ 64) :
    e.Clears folder (c.cache.slot folder).generation ↔
      e.Empties folder (c.generation folder) := by
  cases h with
  | settle hat =>
    refine and_congr_right fun hfolder => and_congr_left fun _ => ?_
    subst hfolder
    exact hc.word_eq_iff hat (hrecent _ _ _ _ hat)
  | _ => exact Iff.rfl

/-- When a generation grows, and when it does not, as long as it has not gone round. -/
theorem Step.generation_cases (h : Step possible c e c') (hc : c.Orderly possible events)
    {folder : Nat} (hlt : c.generation folder < 2 ^ 64) :
    e.Empties folder (c.generation folder) ∧ c'.generation folder = c.generation folder + 1 ∨
      ¬e.Empties folder (c.generation folder) ∧ c'.generation folder = c.generation folder := by
  have hiff : e.Clears folder (c.cache.slot folder).generation ↔
      e.Empties folder (c.generation folder) :=
    h.clears_iff_empties hc fun _ _ _ _ _ => hlt.trans_le (Nat.le_add_left _ _)
  by_cases hempties : e.Empties folder (c.generation folder)
  · exact .inl ⟨hempties, h.generation_succ hc.inRange (hiff.mpr hempties)⟩
  · exact .inr ⟨hempties, h.generation_eq hc.inRange (mt hiff.mp hempties)⟩

end Crowd

namespace Reader

variable {σ : Type}

/-- **Single flight.** Whatever callers do and in whatever order, a folder is decoded once in each
of its generations, and whoever has come by the ticket of that decode gets its outcome. As long as
it has not gone round, the generation of a folder grows by a release, and by the end of a current
decode that comes to neither bytes nor a decode error, and by nothing else. The steps of calls and
releases are such steps. -/
theorem single_flight (r : Reader σ) {events : List Crowd.Event} {c : Crowd}
    (hrun : Crowd.Run r.CanDecode r.archive.folders.length events c) :
    c.SingleFlight events ∧
      (∀ (e : Crowd.Event) (c' : Crowd), Crowd.Step r.CanDecode c e c' →
        c.claims <+: c'.claims ∧ ∀ folder, c.generation folder < 2 ^ 64 →
          e.Empties folder (c.generation folder) ∧
              c'.generation folder = c.generation folder + 1 ∨
            ¬e.Empties folder (c.generation folder) ∧
              c'.generation folder = c.generation folder) ∧
      (r.ActsBySteps → StreamMap.derive r.archive = .ok r.map →
        ∀ s : Session σ, c.cache = s.cache → r.Moves c s) := by
  have horderly := hrun.orderly
  refine ⟨horderly.singleFlight, ?_, ?_⟩
  · intro e c' hstep
    exact ⟨hstep.claims_prefix, fun folder hlt => hstep.generation_cases horderly hlt⟩
  · intro hr hmap s hcache
    exact hr.moves hmap ⟨events, hrun⟩ hcache

/-- Somebody waits for a decode while its folder is released, and gets what it comes to. Who comes
later decodes the folder again, in its second generation. -/
theorem single_flight_released :
    let a : Archive :=
      { packSizes := [2], folders := [{ coders := [{ methodId := [0] }] }]
        substreams := some
          { counts := [1], sizes := [2], crcs := [none], counts_sum := rfl, crcs_length := rfl }
        entries := [{ name := "a" }] }
    let source : Source (Session Unit) := .ofBytes [10, 11]
    let output : Outcome := .ok [10, 11]
    let events : List Crowd.Event :=
      [.enter 0, .claim 0 0, .start 0 0, .enter 0, .join 0 0, .release 0, .complete 0 0 output,
        .fulfil 0 0 output, .receive 0 0 output, .settle 0 0 output, .enter 0, .claim 0 1,
        .start 0 1]
    ∃ (r : Reader Unit) (c : Crowd), ofArchive a (some source) .builtin {} = .ok r ∧
      Crowd.Run r.CanDecode r.archive.folders.length events c ∧ c.generation 0 = 1 ∧
      c.SingleFlight events ∧ ∀ s : Session Unit, c.cache = s.cache → r.Moves c s := by
  intro a source output events
  obtain ⟨r, hr⟩ : ∃ r : Reader Unit, ofArchive a (some source) .builtin {} = .ok r := ⟨_, rfl⟩
  obtain ⟨hmap, harchive, -⟩ := ofArchive_ok hr
  have hbySteps : r.ActsBySteps := by
    cases hr
    exact .of_cache_eq (fun _ _ _ => rfl) fun _ _ _ _ => rfl
  have hfolders : r.archive.folders.length = 1 := by
    cases hr
    rfl
  have hcan : r.CanDecode 0 output := by
    cases hr
    exact ⟨{ cache := .empty 1, outside := () }, by rfl⟩
  -- the run event by event: the slot is cleared under a decode, and claimed again
  have h₀ : Crowd.Run r.CanDecode 1 [] (.start 1) := .refl _
  have h₁ := h₀.tail (@Crowd.Step.enter _ _ 0 0 rfl (by decide))
  have h₂ := h₁.tail (@Crowd.Step.claim _ _ 0 0 rfl rfl)
  have h₃ := h₂.tail (@Crowd.Step.start _ _ 0 0 0 0 rfl)
  have h₄ := h₃.tail (@Crowd.Step.enter _ _ 1 0 rfl (by decide))
  have h₅ := h₄.tail (@Crowd.Step.join _ _ 1 0 0 rfl rfl)
  have h₆ := h₅.tail (@Crowd.Step.release _ _ 0 (by decide))
  have h₇ := h₆.tail (@Crowd.Step.complete _ _ 0 0 0 0 output rfl hcan)
  have h₈ := h₇.tail (@Crowd.Step.fulfil _ _ 0 0 0 0 output rfl)
  have h₉ := h₈.tail (@Crowd.Step.receive _ _ 1 0 0 output rfl rfl)
  have h₁₀ := h₉.tail (@Crowd.Step.settle _ _ 0 0 0 0 output rfl)
  have h₁₁ := h₁₀.tail (@Crowd.Step.enter _ _ 2 0 rfl (by decide))
  have h₁₂ := h₁₁.tail (@Crowd.Step.claim _ _ 2 0 rfl rfl)
  have h₁₃ := h₁₂.tail (@Crowd.Step.start _ _ 2 0 1 1 rfl)
  obtain ⟨c, hrun, hgeneration⟩ : ∃ c,
      Crowd.Run r.CanDecode r.archive.folders.length events c ∧ c.generation 0 = 1 := by
    rw [hfolders]
    exact ⟨_, h₁₃, rfl⟩
  obtain ⟨hflight, -, hmoves⟩ := single_flight r hrun
  exact ⟨r, c, hr, hrun, hgeneration, hflight, hmoves hbySteps (harchive ▸ hmap)⟩

end Reader

end SolidArchive
