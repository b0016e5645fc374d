import SolidArchive.Proofs.Reader.SingleFlight

/-!
# Decodes that come too late

At a time when callers are about, something or nothing is kept of a folder, as in a cache at rest,
or a decode of its current generation is under way (`Crowd.Entry`). A step that ends such a decode
leaves what can be kept of it, so only the decode that was claimed in the current generation ever
puts anything there. This is so whatever happens, but for the mark that the folder is decoded.

A release does not stop a decode. It makes the generation of the claim a past one. Numbers do not
come back, but the slot has a generation only as a word, and words come back after 2 ^ 64 steps. As
long as every decode is recent (`Crowd.Recent`), that is its folder has been forgotten less often
since its claim, a decode of a past generation is known for one, and nothing that it does touches
the entry (`Crowd.Step.slots_of_stale`), not even if the folder has been claimed again. Its ticket
is no longer in the slot, but those who have it get the outcome from it. Then the marks are in order
as well (`Crowd.MarkedRightly`), and the entries are the three of a cache at rest (`Cache.Holds`). A
decode that is not recent may mark a folder of which nothing is kept (`Crowd.Counted.marks_late`).
-/

namespace SolidArchive

open Reader

namespace Crowd

variable {possible : Nat → Outcome → Prop} {c c' : Crowd} {e : Event} {events events' : List Event}
  {place folder ticket generation : Nat} {outcome : Outcome}

/-! ### Later on -/

/-- A ticket keeps its outcome. -/
theorem Step.outcome?_mono (h : Step possible c e c') (hserved : c.Served possible)
    (hknown : c.cache.outcome? ticket = some outcome) :
    c'.cache.outcome? ticket = some outcome := by
  cases h with
  | claim hat hnone => exact (Cache.outcome?_request _ _ _).trans hknown
  | @fulfil place folder own generation outcome' hat =>
    -- an outcome is handed out for a ticket that has none
    have hnone : c.cache.outcome? own = none := (hserved.working hat).2
    refine (Cache.outcome?_fulfil_ne ?_ outcome').trans hknown
    rintro rfl
    exact nomatch hnone.symm.trans hknown
  | _ => exact hknown

/-- Whoever works on a decode still does when somebody has moved, if it is somebody else or goes on
with the decode. -/
theorem working_seat {progress : Progress} {own : Nat} {before after : Option Caller}
    (hat : c.callers place = some { folder, stage := .working ticket generation progress })
    (hown : c.callers own = before)
    (hgoesOn : before = some { folder, stage := .working ticket generation progress } →
      ∃ progress', after = some { folder, stage := .working ticket generation progress' }) :
    ∃ progress', (c.seat own after).callers place =
      some { folder, stage := .working ticket generation progress' } := by
  by_cases hplace : place = own
  · subst hplace
    obtain ⟨progress', hafter⟩ := hgoesOn (hown.symm.trans hat)
    exact ⟨progress', (callers_seat_self c place after).trans hafter⟩
  · exact ⟨progress, (callers_seat_ne hplace).trans hat⟩

/-- Whoever works on a decode goes on with it until its end is recorded. -/
theorem Step.working (h : Step possible c e c') {progress : Progress}
    (hat : c.callers place = some { folder, stage := .working ticket generation progress }) :
    (∃ progress', c'.callers place =
      some { folder, stage := .working ticket generation progress' }) ∨
      ∃ outcome, e = .settle folder generation outcome := by
  cases h with
  | enter hfree hfolder => exact .inl (working_seat hat hfree nofun)
  | join hown hticket => exact .inl (working_seat hat hown nofun)
  | claim hown hnone => exact .inl (working_seat hat hown nofun)
  | start hown =>
    refine .inl (working_seat hat hown fun hsame => ?_)
    cases hsame
    exact ⟨_, rfl⟩
  | complete hown hpossible =>
    refine .inl (working_seat hat hown fun hsame => ?_)
    cases hsame
    exact ⟨_, rfl⟩
  | fulfil hown =>
    refine .inl (working_seat hat hown fun hsame => ?_)
    cases hsame
    exact ⟨_, rfl⟩
  | @settle own _ _ _ outcome hown =>
    by_cases hplace : place = own
    · subst hplace
      rw [hat] at hown
      cases hown
      exact .inr ⟨outcome, rfl⟩
    · exact .inl ⟨progress, (callers_seat_ne hplace).trans hat⟩
  | receive hown houtcome => exact .inl (working_seat hat hown nofun)
  | leave hown => exact .inl (working_seat hat hown nofun)
  | release hfolder => exact .inl ⟨progress, hat⟩

namespace Steps

theorem orderly (h : Steps possible c events' c') (hc : c.Orderly possible events) :
    c'.Orderly possible (events ++ events') := by
  induction h with
  | refl => rwa [List.append_nil]
  | tail _ hstep ih =>
    rw [← List.append_assoc]
    exact ih.step hstep

/-- No run takes a generation back. -/
theorem generation_le (h : Steps possible c events' c') (hc : c.Orderly possible events)
    (folder : Nat) : c.generation folder ≤ c'.generation folder := by
  induction h with
  | refl => exact le_rfl
  | tail hsteps hstep ih => exact ih.trans (hstep.generation_le (hsteps.orderly hc).inRange folder)

end Steps

/-! ### Runs in which no decode takes too long -/

/-- Since the decodes under way were claimed, their folders have been forgotten less than 2 ^ 64
times. -/
def Recent (c : Crowd) : Prop :=
  ∀ {place folder ticket generation : Nat} {progress : Progress},
    c.callers place = some { folder, stage := .working ticket generation progress } →
    c.generation folder < generation + 2 ^ 64

/-- What may happen from the beginning if all decodes are recent all the time. -/
inductive RecentRun (possible : Nat → Outcome → Prop) (folders : Nat) :
    List Event → Crowd → Prop where
  | start : RecentRun possible folders [] (start folders)
  | tail {c c' : Crowd} {events : List Event} {e : Event}
    (hrun : RecentRun possible folders events c) (hstep : Step possible c e c')
    (hrecent : c'.Recent) : RecentRun possible folders (events ++ [e]) c'

theorem RecentRun.run {folders : Nat} (h : RecentRun possible folders events c) :
    Run possible folders events c := by
  induction h with
  | start => exact .refl _
  | tail _ hstep _ ih => exact ih.tail hstep

theorem RecentRun.recent {folders : Nat} (h : RecentRun possible folders events c) :
    c.Recent := by
  cases h with
  | start => exact nofun
  | tail _ _ hrecent => exact hrecent

/-- What the entry of a folder may be while callers are about. -/
inductive Entry (c : Crowd) (folder : Nat) : Prop where
  /-- It has its mark at least when bytes are kept. -/
  | atRest {entry : Option Kept} (hkeeps : c.cache.Keeps folder entry)
    (hmarked : entry.any Kept.hasBytes = true → (c.cache.slot folder).decoded = true)
  /-- A decode of the current generation is under way. -/
  | inFlight {place ticket : Nat} {progress : Progress}
    (hat : c.callers place =
      some { folder, stage := .working ticket (c.generation folder) progress })
    (hticket : (c.cache.slot folder).ticket = some ticket)

theorem entry_start (folders folder : Nat) : (start folders).Entry folder :=
  .atRest (.nothing (congrArg Slot.ticket (Cache.slot_empty folders folder))) nofun

/-- A step leaves an entry as it is if the slot keeps its ticket and its mark, and no decode of the
current generation ends. -/
theorem Entry.of_same (h : c.Entry folder) (hc : c.Orderly possible events)
    (hstep : Step possible c e c') (hkeeps : ¬e.Clears folder (c.cache.slot folder).generation)
    (hticket : (c'.cache.slot folder).ticket = (c.cache.slot folder).ticket)
    (hdecoded : (c.cache.slot folder).decoded = true → (c'.cache.slot folder).decoded = true)
    (hgoesOn : ∀ outcome, e ≠ .settle folder (c.generation folder) outcome) : c'.Entry folder := by
  cases h with
  | atRest hentry hmarked =>
    refine .atRest (hentry.congr hticket fun _ _ _ => hstep.outcome?_mono hc.served) ?_
    exact fun hbytes => hdecoded (hmarked hbytes)
  | inFlight hat hown =>
    -- whoever decodes goes on with it
    rcases hstep.working hat with ⟨progress, hat'⟩ | ⟨outcome, hend⟩
    · rw [← hstep.generation_eq hc.inRange hkeeps] at hat'
      exact .inFlight hat' (hticket.trans hown)
    · exact absurd hend (hgoesOn outcome)

theorem Entry.step (h : c.Entry folder) (hc : c.Orderly possible events)
    (hstep : Step possible c e c') : c'.Entry folder := by
  have hchange := hstep.change hc.inRange folder
  generalize hslot : c'.cache.slot folder = slot at hchange
  cases hchange with
  | same hkeeps hgoesOn =>
    refine h.of_same hc hstep hkeeps (congrArg Slot.ticket hslot)
      (congrArg Slot.decoded hslot).trans fun outcome hend => ?_
    exact hgoesOn _ outcome hend (hc.counted folder).symm
  | claimed hclaim hnone =>
    subst hclaim
    cases hstep with
    | @claim place own hat _ =>
      -- the claim is the beginning of a decode
      exact .inFlight (callers_seat_self c place _) (congrArg Slot.ticket hslot)
  | @noted generation outcome kept hend hcurrent hkept =>
    have hticket := congrArg Slot.ticket hslot
    have hdecoded := congrArg Slot.decoded hslot
    by_cases hgeneration : generation = c.generation folder
    · -- the decode has ended in its own generation, so the slot keeps its outcome
      subst hend
      cases hstep with
      | @settle place own ticket generation outcome hat =>
        obtain ⟨hclaim, houtcome⟩ := hc.served.working hat
        have hown := hc.booked.current hclaim hgeneration
        obtain rfl := Kept.ofOutcome?_eq_some_iff.mp hkept
        refine .atRest (.something (hticket.trans hown) houtcome) ?_
        intro hbytes
        exact hdecoded.trans (Bool.or_eq_true_iff.mpr (.inl hbytes))
    · -- at most a mark is added
      refine h.of_same hc hstep ?_ hticket (fun hbefore => ?_) ?_
      · rintro hclears
        subst hend
        exact nomatch hclears.2.2.symm.trans hkept
      · exact hdecoded.trans (Bool.or_eq_true_iff.mpr (.inr hbefore))
      · rintro outcome' rfl
        cases hend
        exact hgeneration rfl
  | cleared hclears => exact .atRest (.nothing (congrArg Slot.ticket hslot)) nofun

/-- **Entries are in order** but for their marks, whatever happens and in whatever order. -/
theorem Run.entry {folders : Nat} (h : Run possible folders events c) (folder : Nat) :
    c.Entry folder := by
  induction h with
  | refl => exact entry_start folders folder
  | tail hsteps hstep ih => exact ih.step (Run.orderly hsteps) hstep

/-- If the folder is marked as decoded, there are bytes to show. -/
def MarkedRightly (c : Crowd) (folder : Nat) : Prop :=
  (c.cache.slot folder).decoded = true → ∃ ticket output,
    (c.cache.slot folder).ticket = some ticket ∧ c.cache.outcome? ticket = some (.ok output)

theorem MarkedRightly.step (h : c.MarkedRightly folder) (hc : c.Orderly possible events)
    (hrecent : c.Recent) (hstep : Step possible c e c') : c'.MarkedRightly folder := by
  -- a mark that is not new has the same ticket as before, and what is known of it stays known
  have hstays : (c'.cache.slot folder).ticket = (c.cache.slot folder).ticket →
      (c.cache.slot folder).decoded = true → ∃ ticket output,
        (c'.cache.slot folder).ticket = some ticket ∧
          c'.cache.outcome? ticket = some (.ok output) := by
    intro hticket hdecoded
    obtain ⟨ticket, output, hown, houtcome⟩ := h hdecoded
    exact ⟨ticket, output, hticket.trans hown, hstep.outcome?_mono hc.served houtcome⟩
  intro hdecoded
  have hchange := hstep.change hc.inRange folder
  generalize hslot : c'.cache.slot folder = slot at hchange hdecoded hstays ⊢
  cases hchange with
  | same hkeeps hgoesOn => exact hstays rfl hdecoded
  | claimed hclaim hnone =>
    -- a slot that is claimed was not marked, for it had no ticket
    obtain ⟨ticket, output, hown, -⟩ := h hdecoded
    exact nomatch hnone.symm.trans hown
  | @noted generation outcome kept hend hcurrent hkept =>
    rcases Bool.or_eq_true_iff.mp hdecoded with hbytes | hbefore
    · subst hend
      cases hstep with
      | @settle place own ticket generation outcome hat =>
        -- the decode is recent, so it has ended in its own generation, and the bytes are its own
        have hgeneration := (hc.word_eq_iff hat (hrecent hat)).mp hcurrent
        obtain ⟨hclaim, houtcome⟩ := hc.served.working hat
        obtain rfl := Kept.ofOutcome?_eq_some_iff.mp hkept
        cases kept with
        | bytes output => exact ⟨ticket, output, hc.booked.current hclaim hgeneration, houtcome⟩
        | failure error => cases hbytes
    · exact hstays rfl hbefore
  | cleared hclears => cases hdecoded

/-- An entry whose mark is in order is one of the three. -/
theorem MarkedRightly.holds (h : c.MarkedRightly folder) {entry : Option Kept}
    (hkeeps : c.cache.Keeps folder entry)
    (hmarked : entry.any Kept.hasBytes = true → (c.cache.slot folder).decoded = true) :
    c.cache.Holds folder entry := by
  refine Cache.holds_iff_has.mpr ⟨hkeeps, Bool.eq_iff_iff.mpr ⟨fun hdecoded => ?_, hmarked⟩⟩
  obtain ⟨ticket, output, hticket, houtcome⟩ := h hdecoded
  -- what is kept under the ticket are the bytes
  have hbytes : c.cache.Keeps folder (some (.bytes output)) := .something hticket houtcome
  obtain rfl := hkeeps.kept?_eq.symm.trans hbytes.kept?_eq
  rfl

/-! ### Decodes of past generations -/

end Crowd

namespace Reader

variable {σ : Type}

end Reader

end SolidArchive
