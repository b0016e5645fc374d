import SolidArchive.Proofs.Reader.Access
import SolidArchive.Proofs.Reader.Entry

/-!
# Calls side by side

Callers who want different folders do not meet, not even in the same cache: each has a slot and a
ticket to itself (`Cache.Apart`), and what one does leaves the slots of others and what they refer
to as it was (`Cache.SameAt`). So if nobody else is at its folder, a call goes on as if it were
alone, with others before and behind each of its steps (`Reader.Call.step_undisturbed`): it never
waits for an outcome that is not there, and it leaves the folder with what was kept of it, or else
with what can be kept of its decode (`Holding.got`).

A single worker is undisturbed all the time. When it has gone through some folders, the cache keeps
what it is to keep of them (`Holding.after`), and nothing else has changed
(`Reader.decodeInOrder_settled`).
-/

namespace SolidArchive

/-! ### Caches with others -/

namespace Holding

/-- What a cache has of all folders when somebody has got some of them. -/
def after (folders : List Nat) (outcomes : Nat → Outcome) (entries : Nat → Holding)
    (folder : Nat) : Holding :=
  if folder ∈ folders then (entries folder).got (outcomes folder) else entries folder

variable {held : Holding} {outcome : Outcome} {entries : Nat → Holding}
  {outcomes : Nat → Outcome} {folder : Nat}

/-- To get a folder again changes nothing. -/
theorem got_got (held : Holding) (outcome : Outcome) :
    (held.got outcome).got outcome = held.got outcome := by
  cases hkept : held.kept with
  | some kept => rw [got_of_kept hkept, got_of_kept hkept]
  | none =>
    cases houtcome : Kept.ofOutcome? outcome with
    | none =>
      rw [got_of_none hkept houtcome]
      exact got_of_none rfl houtcome
    | some kept =>
      rw [got_of_some hkept houtcome]
      exact got_of_kept rfl

/-- What is kept is what the folder comes to. -/
theorem outcome_of_got (hheld : ∀ kept, held.kept = some kept → kept.outcome = outcome)
    {kept : Kept} (h : (held.got outcome).kept = some kept) : kept.outcome = outcome := by
  cases hbefore : held.kept with
  | some own =>
    rw [got_of_kept hbefore] at h
    exact hheld kept h
  | none =>
    cases houtcome : Kept.ofOutcome? outcome with
    | none =>
      rw [got_of_none hbefore houtcome] at h
      cases h
    | some own =>
      rw [got_of_some hbefore houtcome] at h
      obtain rfl : own = kept := Option.some.inj h
      exact (Kept.ofOutcome?_eq_some_iff.mp houtcome).symm

theorem after_of_mem {folders : List Nat} (h : folder ∈ folders) :
    after folders outcomes entries folder = (entries folder).got (outcomes folder) := if_pos h

theorem after_of_not_mem {folders : List Nat} (h : folder ∉ folders) :
    after folders outcomes entries folder = entries folder := if_neg h

theorem outcome_of_after {folders : List Nat}
    (hentries : ∀ folder kept, (entries folder).kept = some kept → kept.outcome = outcomes folder)
    {kept : Kept} (h : (after folders outcomes entries folder).kept = some kept) :
    kept.outcome = outcomes folder := by
  unfold after at h
  split at h
  · exact outcome_of_got (hentries folder) h
  · exact hentries folder kept h

theorem after_cons (folder : Nat) (folders : List Nat) :
    after (folder :: folders) outcomes entries =
      after folders outcomes (after [folder] outcomes entries) := by
  funext other
  -- to get the first folder once more changes nothing
  by_cases hother : other = folder
  · subst hother
    have hfirst : after [other] outcomes entries other = _ := after_of_mem List.mem_cons_self
    rw [after_of_mem List.mem_cons_self]
    by_cases hmem : other ∈ folders
    · rw [after_of_mem hmem, hfirst, got_got]
    · rw [after_of_not_mem hmem, hfirst]
  · have hnot : other ∉ [folder] := fun hmem => hother (List.mem_singleton.mp hmem)
    by_cases hmem : other ∈ folders
    · rw [after_of_mem (List.mem_cons_of_mem _ hmem), after_of_mem hmem, after_of_not_mem hnot]
    · have hneither : other ∉ folder :: folders :=
        fun h => (List.mem_cons.mp h).elim hother hmem
      rw [after_of_not_mem hneither, after_of_not_mem hmem, after_of_not_mem hnot]

end Holding

namespace Cache

variable {c c' c'' : Cache} {folder other ticket : Nat} {generation : UInt64} {outcome : Outcome}
  {held : Holding}

/-- Each ticket in a slot has been given out, and it is in no other slot. -/
structure Apart (c : Cache) : Prop where
  distinct : ∀ {folder other ticket : Nat}, (c.slot folder).ticket = some ticket →
    (c.slot other).ticket = some ticket → folder = other
  ticket_lt : ∀ {folder ticket : Nat}, (c.slot folder).ticket = some ticket →
    ticket < c.tickets.length

/-- The slot of the folder has not changed, nor has the outcome of the ticket in it. -/
structure SameAt (folder : Nat) (c c' : Cache) : Prop where
  slot_eq : c'.slot folder = c.slot folder
  outcome?_eq : ∀ {ticket : Nat}, (c.slot folder).ticket = some ticket →
    c'.outcome? ticket = c.outcome? ticket

theorem SameAt.refl (folder : Nat) (c : Cache) : SameAt folder c c := ⟨rfl, fun _ => rfl⟩

theorem SameAt.trans (h : SameAt folder c c') (h' : SameAt folder c' c'') :
    SameAt folder c c'' where
  slot_eq := h'.slot_eq.trans h.slot_eq
  outcome?_eq hticket :=
    (h'.outcome?_eq ((congrArg Slot.ticket h.slot_eq).trans hticket)).trans (h.outcome?_eq hticket)

/-- An entry that is not touched stays as it is. -/
theorem Has.of_sameAt (h : c.Has folder held) (hsame : SameAt folder c c') : c'.Has folder held :=
  h.congr hsame.slot_eq fun _ _ hticket => (hsame.outcome?_eq hticket).trans

theorem Apart.request (h : c.Apart) (hnone : (c.slot folder).ticket = none)
    (hlt : folder < c.slots.length) : (c.request folder).2.Apart := by
  have hself := slot_request_self hnone hlt
  -- the new ticket is behind all others
  have hcases : ∀ {own ticket : Nat}, ((c.request folder).2.slot own).ticket = some ticket →
      own = folder ∧ ticket = c.tickets.length ∨
        ticket < c.tickets.length ∧ (c.slot own).ticket = some ticket := by
    intro own ticket hticket
    by_cases hown : own = folder
    · subst hown
      rw [hself] at hticket
      exact .inl ⟨rfl, (Option.some.inj hticket).symm⟩
    · rw [slot_request_ne hown] at hticket
      exact .inr ⟨h.ticket_lt hticket, hticket⟩
  constructor
  case distinct =>
    intro own other ticket hown hother
    rcases hcases hown with ⟨rfl, rfl⟩ | ⟨hlt, hown⟩
    · rcases hcases hother with ⟨rfl, -⟩ | ⟨hlt, -⟩
      · rfl
      · exact absurd hlt (Nat.lt_irrefl _)
    · rcases hcases hother with ⟨-, rfl⟩ | ⟨-, hother⟩
      · exact absurd hlt (Nat.lt_irrefl _)
      · exact h.distinct hown hother
  case ticket_lt =>
    intro own ticket hticket
    rw [length_tickets_request hnone]
    rcases hcases hticket with ⟨-, rfl⟩ | ⟨hlt, -⟩
    · exact Nat.lt_succ_self _
    · exact Nat.lt_succ_of_lt hlt

theorem Apart.fulfil (h : c.Apart) (ticket : Nat) (outcome : Outcome) :
    (c.fulfil ticket outcome).Apart where
  distinct := h.distinct
  ticket_lt hticket := (h.ticket_lt hticket).trans_eq (length_tickets_fulfil c ticket outcome).symm

/-- A slot gets no other ticket when a decode ends. -/
theorem ticket_settle (h : ((c.settle folder generation outcome).slot other).ticket = some ticket) :
    (c.slot other).ticket = some ticket := by
  refine ticket_modifySlot (fun slot own hown => ?_) h
  split at hown
  · exact Slot.ticket_settle hown
  · exact hown

theorem Apart.settle (h : c.Apart) (folder : Nat) (generation : UInt64) (outcome : Outcome) :
    (c.settle folder generation outcome).Apart where
  distinct hown hother := h.distinct (ticket_settle hown) (ticket_settle hother)
  ticket_lt hticket := h.ticket_lt (ticket_settle hticket)

theorem sameAt_request (h : other ≠ folder) : SameAt other c (c.request folder).2 where
  slot_eq := slot_request_ne h
  outcome?_eq _ := outcome?_request c folder _

theorem sameAt_settle (h : other ≠ folder) :
    SameAt other c (c.settle folder generation outcome) where
  slot_eq := slot_settle_ne h
  outcome?_eq _ := rfl

/-- An outcome is handed out to one folder only. -/
theorem Apart.sameAt_fulfil (h : c.Apart) (hticket : (c.slot folder).ticket = some ticket)
    (hother : other ≠ folder) (outcome : Outcome) : SameAt other c (c.fulfil ticket outcome) where
  slot_eq := rfl
  outcome?_eq {own} hown := by
    refine outcome?_fulfil_ne ?_ outcome
    rintro rfl
    exact hother (h.distinct hown hticket)

/-- A cache with nobody about, that has these entries, and where what is kept of a folder is what
decoding it comes to. -/
structure Settled (outcomes : Nat → Outcome) (entries : Nat → Holding) (c : Cache) : Prop where
  apart : c.Apart
  has : ∀ folder : Nat, c.Has folder (entries folder)
  kept : ∀ {folder : Nat} {kept : Kept}, (entries folder).kept = some kept →
    kept.outcome = outcomes folder

/-- Caches with the same entries keep the same. -/
theorem Settled.memo_eq {outcomes : Nat → Outcome} {entries : Nat → Holding}
    (h : c.Settled outcomes entries) (h' : c'.Settled outcomes entries)
    (hlength : c'.slots.length = c.slots.length) : c'.memo = c.memo := by
  unfold memo
  rw [hlength]
  refine List.map_congr_left fun folder _ => ?_
  rw [(h.has folder).keeps.kept?_eq, (h'.has folder).keeps.kept?_eq]

/-- Caches with the same entries have the same number of folders marked as decoded. -/
theorem Settled.decodedCount_eq {outcomes : Nat → Outcome} {entries : Nat → Holding}
    (h : c.Settled outcomes entries) (h' : c'.Settled outcomes entries)
    (hlength : c'.slots.length = c.slots.length) : c'.decodedCount = c.decodedCount := by
  rw [decodedCount_eq_countP, decodedCount_eq_countP, hlength]
  refine List.countP_congr fun folder _ => ?_
  rw [(h.has folder).decoded_eq, (h'.has folder).decoded_eq]

end Cache

namespace Reader

variable {σ : Type} {r : Reader σ} {outcomes : Nat → Outcome} {s : Session σ} {folder : Nat}
  {held : Holding} {entries : Nat → Holding} {call : Call} {c c' : Cache}

/-! ### Calls with others -/

/-- How a call that nobody disturbs stands to its folder, of which the cache had `held` when it
began and which decodes to `outcome`. -/
def Call.Undisturbed (outcome : Outcome) (held : Holding) (folder : Nat) (c : Cache) : Call → Prop
  | .requesting => c.Has folder held
  | .waiting ticket => held.kept ≠ none ∧ c.Has folder held ∧ (c.slot folder).ticket = some ticket
  | .decoding ticket generation => held.kept = none ∧
      c.slot folder = { ticket := some ticket, generation, decoded := held.marked }
  | .fulfilling ticket generation own => held.kept = none ∧ own = outcome ∧
      c.slot folder = { ticket := some ticket, generation, decoded := held.marked }
  | .settling generation own => held.kept = none ∧ own = outcome ∧
      ∃ ticket, c.slot folder = { ticket := some ticket, generation, decoded := held.marked } ∧
        c.outcome? ticket = some outcome
  | .finished own => own = outcome ∧ c.Has folder (held.got outcome)

/-- A call is undisturbed (`Call.Undisturbed`) as long as the slot of its folder and the outcome of
the ticket in it are the same (`Cache.SameAt`), whatever else becomes of the cache. -/
theorem Call.Undisturbed.of_sameAt {outcome : Outcome}
    (h : call.Undisturbed outcome held folder c) (hsame : c.SameAt folder c') :
    call.Undisturbed outcome held folder c' := by
  have hslot := hsame.slot_eq
  cases call with
  | requesting => exact h.of_sameAt hsame
  | waiting ticket => exact ⟨h.1, h.2.1.of_sameAt hsame, hslot ▸ h.2.2⟩
  | decoding ticket generation => exact ⟨h.1, hslot.trans h.2⟩
  | fulfilling ticket generation own => exact ⟨h.1, h.2.1, hslot.trans h.2.2⟩
  | settling generation own =>
    obtain ⟨hentry, hown, ticket, hclaimed, houtcome⟩ := h
    have hticket := congrArg Slot.ticket hclaimed
    exact ⟨hentry, hown, ticket, hslot.trans hclaimed, (hsame.outcome?_eq hticket).trans houtcome⟩
  | finished own => exact ⟨h.1, h.2.of_sameAt hsame⟩

/-- In the end the call has the outcome, and the folder keeps what can be kept of it. -/
theorem Call.Undisturbed.ended {outcome own : Outcome}
    (h : call.Undisturbed outcome held folder c) (hend : call.outcome? = some own) :
    own = outcome ∧ c.Has folder (held.got outcome) := by
  cases call with
  | finished own' =>
    obtain rfl : own' = own := Option.some.inj hend
    exact h
  | _ => cases hend

/-- A step of a call that nobody disturbs: the call goes on, with a step less before it, and does
not disturb others. -/
structure Call.GoesOn (outcome : Outcome) (held : Holding) (folder : Nat) (call : Call)
    (s : Session σ) (next : Call × Session σ) : Prop where
  undisturbed : next.1.Undisturbed outcome held folder next.2.cache
  apart : next.2.cache.Apart
  sameAt : ∀ other ≠ folder, s.cache.SameAt other next.2.cache
  length_slots : next.2.cache.slots.length = s.cache.slots.length
  left_le : next.1.left ≤ call.left - 1

/-- **A call among others** that want other folders. -/
theorem Call.step_undisturbed (hr : r.Determined outcomes)
    (hkept : ∀ kept, held.kept = some kept → kept.outcome = outcomes folder)
    (hapart : s.cache.Apart) (hlt : folder < s.cache.slots.length)
    (h : call.Undisturbed (outcomes folder) held folder s.cache) :
    call.GoesOn (outcomes folder) held folder s (call.step r folder s) := by
  cases call with
  | requesting =>
    have hhas : s.cache.Has folder held := h
    have hkeeps := hhas.keeps
    cases hticket : (s.cache.slot folder).ticket with
    | some ticket =>
      simp only [step, Cache.request_of_ticket hticket]
      refine ⟨⟨?_, hhas, hticket⟩, hapart, fun other _ => .refl other _, rfl,
        (by decide : 1 ≤ 3)⟩
      intro hnothing
      rw [hnothing] at hkeeps
      exact absurd (hticket.symm.trans hkeeps.ticket_eq_none) (Option.some_ne_none ticket)
    | none =>
      have hself := Cache.slot_request_self hticket hlt
      have hstep : Call.step r folder .requesting s =
          (.decoding s.cache.tickets.length (s.cache.slot folder).generation,
            { s with cache := (s.cache.request folder).2 }) := by
        simp only [step, Cache.request_of_none hticket]
      rw [hstep]
      -- a folder whose slot is free keeps nothing
      cases hkept : held.kept with
      | some kept =>
        rw [hkept] at hkeeps
        obtain ⟨own, hown, -⟩ := hkeeps.exists_ticket
        exact absurd (hown.symm.trans hticket) (Option.some_ne_none own)
      | none =>
        refine ⟨⟨hkept, ?_⟩, hapart.request hticket hlt, fun other hne => Cache.sameAt_request hne,
          Cache.length_slots_request _ _, le_rfl⟩
        rw [← hhas.decoded_eq]
        exact hself
  | waiting ticket =>
    obtain ⟨hsome, hhas, hticket⟩ := h
    -- what is kept is there for everybody who has the ticket
    obtain ⟨kept, hheld⟩ := Option.ne_none_iff_exists'.mp hsome
    have hkeeps := hhas.keeps
    rw [hheld] at hkeeps
    obtain ⟨own, hown, houtcome⟩ := hkeeps.exists_ticket
    obtain rfl := Option.some.inj (hticket.symm.trans hown)
    simp only [step, houtcome]
    refine ⟨⟨hkept kept hheld, ?_⟩, hapart, fun other _ => .refl other _, rfl, le_rfl⟩
    rwa [Holding.got_of_kept hheld]
  | decoding ticket generation =>
    rw [step, runState_bind, hr folder s]
    exact ⟨⟨h.1, rfl, h.2⟩, hapart, fun other _ => .refl other _, rfl, le_rfl⟩
  | fulfilling ticket generation own =>
    obtain ⟨hentry, rfl, hclaimed⟩ := h
    have hticket := congrArg Slot.ticket hclaimed
    have hfulfilled := Cache.outcome?_fulfil_self (hapart.ticket_lt hticket) (outcomes folder)
    exact ⟨⟨hentry, rfl, ticket, hclaimed, hfulfilled⟩, hapart.fulfil ticket _,
      fun other hne => hapart.sameAt_fulfil hticket hne _, rfl, le_rfl⟩
  | settling generation own =>
    obtain ⟨hnothing, rfl, ticket, hclaimed, houtcome⟩ := h
    exact ⟨⟨rfl, Cache.has_settle hlt hnothing hclaimed houtcome⟩,
      hapart.settle folder generation _,
      fun other hne => Cache.sameAt_settle hne, Cache.length_slots_settle _ _ _ _, le_rfl⟩
  | finished own => exact ⟨h, hapart, fun other _ => .refl other _, rfl, le_rfl⟩

/-- A call that takes all its steps undisturbed gets what the folder comes to, leaves what can be
kept of it, and touches no other folder. -/
theorem Call.run_undisturbed (hr : r.Determined outcomes)
    (hkept : ∀ kept, held.kept = some kept → kept.outcome = outcomes folder)
    (hapart : s.cache.Apart) (hlt : folder < s.cache.slots.length)
    (h : call.Undisturbed (outcomes folder) held folder s.cache) {steps : Nat}
    (hsteps : call.left ≤ steps) :
    ∃ s', Call.run r folder steps call s = (.finished (outcomes folder), s') ∧
      s'.cache.Has folder (held.got (outcomes folder)) ∧ s'.cache.Apart ∧
      (∀ other ≠ folder, s.cache.SameAt other s'.cache) ∧
      s'.cache.slots.length = s.cache.slots.length := by
  induction steps generalizing call s with
  | zero =>
    cases call with
    | finished own =>
      obtain ⟨rfl, hhas⟩ := h
      exact ⟨s, rfl, hhas, hapart, fun other _ => .refl other _, rfl⟩
    | _ => exact absurd hsteps (Nat.not_succ_le_zero _)
  | succ steps ih =>
    -- a step less is left, and the call is still undisturbed
    have hgoesOn := step_undisturbed hr hkept hapart hlt h
    obtain ⟨s', hrun, hhas, hapart', hsame, hlength⟩ := ih hgoesOn.apart
      (hlt.trans_eq hgoesOn.length_slots.symm) hgoesOn.undisturbed
      (hgoesOn.left_le.trans (Nat.sub_le_of_le_add hsteps))
    refine ⟨s', hrun, hhas, hapart', fun other hne => ?_, hlength.trans hgoesOn.length_slots⟩
    exact (hgoesOn.sameAt other hne).trans (hsame other hne)

/-! ### One worker -/

/-- **A call on its own** gets what the folder comes to, and the cache keeps what it can of it. -/
theorem folderOutcome_settled (hr : r.Determined outcomes) (h : s.cache.Settled outcomes entries)
    (hlt : folder < s.cache.slots.length) :
    ∃ s', r.folderOutcome folder s = (some (outcomes folder), s') ∧
      s'.cache.Settled outcomes (Holding.after [folder] outcomes entries) ∧
      s'.cache.slots.length = s.cache.slots.length ∧
      ∀ other ≠ folder, s.cache.SameAt other s'.cache := by
  have hstart : Call.requesting.Undisturbed (outcomes folder) (entries folder) folder s.cache :=
    h.has folder
  have hsteps : Call.requesting.left ≤ Call.length := le_rfl
  obtain ⟨s', hrun, hhas, hapart, hsame, hlength⟩ :=
    Call.run_undisturbed hr (fun _ => h.kept) h.apart hlt hstart hsteps
  refine ⟨s', ?_, ⟨hapart, fun other => ?_, Holding.outcome_of_after fun _ _ => h.kept⟩, hlength,
    hsame⟩
  · unfold folderOutcome
    rw [runState_bind, hrun]
    rfl
  · -- the folder keeps what it can, and the others what they had
    by_cases hother : other = folder
    · subst hother
      rw [Holding.after_of_mem List.mem_cons_self]
      exact hhas
    · rw [Holding.after_of_not_mem fun hmem => hother (List.mem_singleton.mp hmem)]
      exact (h.has other).of_sameAt (hsame other hother)

/-- A worker that is alone leaves in the cache what can be kept of all its folders. -/
theorem decodeInOrder_settled (hr : r.Determined outcomes) {folders : List Nat}
    (h : s.cache.Settled outcomes entries) (hlt : ∀ folder ∈ folders, folder < s.cache.slots.length)
    (results : List FolderResult) :
    Ensures (r.decodeInOrder (pure false) folders results) s
      (fun _ s' => s'.cache.Settled outcomes (Holding.after folders outcomes entries) ∧
        s'.cache.slots.length = s.cache.slots.length)
      (fun _ _ => True) := by
  induction folders generalizing s entries results with
  | nil => exact Ensures.pure ⟨h, rfl⟩
  | cons folder folders ih =>
    obtain ⟨hfolder, hfolders⟩ := List.forall_mem_cons.mp hlt
    obtain ⟨s₁, hget, hsettled, hlength, -⟩ := folderOutcome_settled hr h hfolder
    -- each folder is called for by a call on its own
    have hone : Ensures (r.decodeOne (pure false) folder) s (fun _ s' => s' = s₁)
        (fun _ _ => True) := by
      have hasked : (Session.onOutside (pure false : StateM σ Bool) s).2 = s := rfl
      unfold Ensures
      rw [decodeOne_run, if_neg nofun, hasked, hget]
      dsimp only
      cases FolderResult.ofOutcome (outcomes folder) with
      | ok result => rfl
      | error fault => trivial
    refine hone.bind ?_
    rintro result s' rfl
    rw [Holding.after_cons]
    refine (ih hsettled (fun other hother => ?_) _).mono ?_ fun _ _ h => h
    · exact (hfolders other hother).trans_eq hlength.symm
    · exact fun results' s' h => ⟨h.1, h.2.trans hlength⟩

end Reader

end SolidArchive
