import SolidArchive.Proofs.Folder.Outcome
import SolidArchive.Reader.Basic

/-!
# Whose ticket it is

A caller gets the output of a folder by a ticket, and what it gets may have been decoded by somebody
else, in another generation of the folder, while others released it and claimed it again. That it is
an output of the right folder is an invariant of all that callers do, in whatever order.

A ticket does not say which folder it was given out for. A `Scene` is a session together with this
knowledge. `Reader.Advance` lists the indivisible changes that callers make to a scene, and
`Reader.Turn` those of a single call, with the changes of others between them; a call as the reader
makes it takes such turns (`Reader.Call.step_turns`), also if its decoder goes back to the reader.
In a scene that comes about so (`Scene.Faithful`),

* the ticket in a folder's slot was given out for that folder, and
* the outcome of a ticket is one that decoding its folder can have.

A call holds a ticket of its own folder (`Reader.Call.Sound`), which stays so whatever others do,
since no ticket is given out twice. So what a call ends with is an outcome of its folder.
-/

namespace SolidArchive

open Relation

variable {σ : Type}

/-! ### The cache -/

namespace Cache

variable {c : Cache} {folder other ticket : Nat} {f : Slot → Slot}

theorem slot_empty (folders folder : Nat) : (Cache.empty folders).slot folder = {} := by
  rw [slot, empty, List.getD_eq_getElem?_getD, List.getElem?_replicate]
  split
  · rfl
  · rfl

theorem slot_modifySlot_ne (h : other ≠ folder) :
    (c.modifySlot folder f).slot other = c.slot other := by
  simp [slot, modifySlot, List.getD_eq_getElem?_getD, Ne.symm h]

/-- A slot is what it was, or has been changed. -/
theorem slot_modifySlot (c : Cache) (folder other : Nat) (f : Slot → Slot) :
    (c.modifySlot folder f).slot other = c.slot other ∨
      other = folder ∧ (c.modifySlot folder f).slot other = f (c.slot other) := by
  by_cases hother : other = folder
  · subst hother
    by_cases hlt : other < c.slots.length
    · refine .inr ⟨rfl, ?_⟩
      simp [slot, modifySlot, List.getD_eq_getElem?_getD, hlt]
    · refine .inl ?_
      simp [slot, modifySlot, List.getD_eq_getElem?_getD, hlt]
  · exact .inl (slot_modifySlot_ne hother)

/-- No slot has a ticket that it had not before if the change gives none. -/
theorem ticket_modifySlot (hf : ∀ s t, (f s).ticket = some t → s.ticket = some t)
    (h : ((c.modifySlot folder f).slot other).ticket = some ticket) :
    (c.slot other).ticket = some ticket := by
  rcases slot_modifySlot c folder other f with heq | ⟨-, heq⟩
  · rwa [heq] at h
  · rw [heq] at h
    exact hf _ _ h

theorem request_of_ticket (h : (c.slot folder).ticket = some ticket) :
    c.request folder = (.wait ticket, c) := by
  simp only [request, h]

theorem request_of_none (h : (c.slot folder).ticket = none) :
    c.request folder = (.claim c.tickets.length (c.slot folder).generation,
      { c.modifySlot folder fun slot => { slot with ticket := some c.tickets.length } with
        tickets := c.tickets ++ [none] }) := by
  simp only [request, h]

end Cache

theorem Slot.ticket_settle {s : Slot} {outcome : Outcome} {ticket : Nat}
    (h : (s.settle outcome).ticket = some ticket) : s.ticket = some ticket := by
  unfold Slot.settle at h
  split at h
  · exact h
  · exact h
  · cases h

/-! ### Scenes -/

/-- A session, and for each ticket the folder that it was given out for. -/
structure Scene (σ : Type) where
  session : Session σ
  owners : List Nat

namespace Scene

/-- The cache of the session. -/
def cache (c : Scene σ) : Cache := c.session.cache

/-- A scene with another cache. -/
def setCache (c : Scene σ) (cache : Cache) : Scene σ :=
  { c with session := { c.session with cache } }

/-- Something happens outside the reader. -/
def setOutside (c : Scene σ) (outside : σ) : Scene σ :=
  { c with session := { c.session with outside } }

/-- A decode of a folder is claimed, for a new ticket. -/
def claim (c : Scene σ) (folder : Nat) : Scene σ :=
  { c.setCache (c.cache.request folder).2 with owners := c.owners ++ [folder] }

end Scene

namespace Reader

variable {r : Reader σ} {c c' : Scene σ} {folder : Nat} {outcome : Outcome}

/-- The outcomes that decoding a folder can have, in one session or another. -/
def CanDecode (r : Reader σ) (folder : Nat) (outcome : Outcome) : Prop :=
  ∃ s, (r.decode folder s).1 = outcome

/-- The changes that callers make to a scene. -/
inductive Advance (r : Reader σ) : Scene σ → Scene σ → Prop where
  | outside (c : Scene σ) (outside : σ) : Advance r c (c.setOutside outside)
  | claim {c : Scene σ} {folder : Nat} (h : (c.cache.slot folder).ticket = none) :
    Advance r c (c.claim folder)
  | fulfil {c : Scene σ} {folder ticket : Nat} {outcome : Outcome}
    (howner : c.owners[ticket]? = some folder) (hcan : r.CanDecode folder outcome) :
    Advance r c (c.setCache (c.cache.fulfil ticket outcome))
  | settle {c : Scene σ} {folder : Nat} {outcome : Outcome} (generation : UInt64)
    (hcan : r.CanDecode folder outcome) :
    Advance r c (c.setCache (c.cache.settle folder generation outcome))
  | release (c : Scene σ) (folder : Nat) : Advance r c (c.setCache (c.cache.release folder))

/-- Any number of changes. -/
abbrev Advances (r : Reader σ) : Scene σ → Scene σ → Prop := ReflTransGen r.Advance

/-- The scenes that a reader comes to. -/
def Reachable (r : Reader σ) (c : Scene σ) : Prop :=
  ∃ outside, r.Advances { session := r.start outside, owners := [] } c

theorem Reachable.advances (h : r.Reachable c) (hadvances : r.Advances c c') : r.Reachable c' := by
  obtain ⟨outside, hstart⟩ := h
  exact ⟨outside, hstart.trans hadvances⟩

theorem reachable_start (r : Reader σ) (outside : σ) :
    r.Reachable { session := r.start outside, owners := [] } :=
  ⟨outside, .refl⟩

/-- A session that callers may bring about from a scene. -/
def LeadsTo (r : Reader σ) (c : Scene σ) (s : Session σ) : Prop :=
  ∃ c', c'.session = s ∧ r.Advances c c'

theorem Advances.leadsTo (h : r.Advances c c') : r.LeadsTo c c'.session := ⟨c', rfl, h⟩

theorem LeadsTo.after {s : Session σ} (h : r.LeadsTo c' s) (hbefore : r.Advances c c') :
    r.LeadsTo c s := by
  obtain ⟨c'', hsession, hadvances⟩ := h
  exact ⟨c'', hsession, hbefore.trans hadvances⟩

end Reader

/-- Tickets are where they belong, and so are outcomes. -/
structure Scene.Faithful (r : Reader σ) (c : Scene σ) : Prop where
  length_owners : c.owners.length = c.cache.tickets.length
  ticket : ∀ {folder ticket : Nat}, (c.cache.slot folder).ticket = some ticket →
    c.owners[ticket]? = some folder
  outcome : ∀ {folder ticket : Nat} {outcome : Outcome}, c.owners[ticket]? = some folder →
    c.cache.outcome? ticket = some outcome → r.CanDecode folder outcome

namespace Scene.Faithful

variable {r : Reader σ} {c c' : Scene σ} {folder : Nat}

theorem start (r : Reader σ) (outside : σ) :
    Faithful r { session := r.start outside, owners := [] } where
  length_owners := rfl
  ticket {folder ticket} h := by
    have hnone : ((Cache.empty r.archive.folders.length).slot folder).ticket = some ticket := h
    rw [Cache.slot_empty] at hnone
    cases hnone
  outcome h := by
    rw [List.getElem?_nil] at h
    cases h

/-- No new tickets and no new outcomes. -/
theorem setCache (h : c.Faithful r) {cache : Cache} (htickets : cache.tickets = c.cache.tickets)
    (hslots : ∀ folder ticket, (cache.slot folder).ticket = some ticket →
      (c.cache.slot folder).ticket = some ticket) : (c.setCache cache).Faithful r where
  length_owners := h.length_owners.trans (congrArg List.length htickets.symm)
  ticket hticket := h.ticket (hslots _ _ hticket)
  outcome {folder ticket outcome} howner houtcome := by
    have hsame : cache.outcome? ticket = some outcome := houtcome
    rw [Cache.outcome?, htickets] at hsame
    exact h.outcome howner hsame

theorem claim (h : c.Faithful r) (hnone : (c.cache.slot folder).ticket = none) :
    (c.claim folder).Faithful r := by
  have hcache : (c.claim folder).cache = _ := congrArg Prod.snd (Cache.request_of_none hnone)
  have howners : (c.claim folder).owners = c.owners ++ [folder] := rfl
  refine ⟨?_, ?_, ?_⟩
  · rw [hcache, howners, List.length_append, List.length_append, h.length_owners]
    rfl
  · intro other ticket hticket
    rw [hcache] at hticket
    rw [howners]
    rcases Cache.slot_modifySlot c.cache folder other
      (fun slot => { slot with ticket := some c.cache.tickets.length }) with heq | ⟨rfl, heq⟩
    · -- the slot is as it was
      have hbefore : (c.cache.slot other).ticket = some ticket :=
        (congrArg Slot.ticket heq).symm.trans hticket
      have howner := h.ticket hbefore
      rw [List.getElem?_append_left (List.getElem?_eq_some_iff.mp howner).1]
      exact howner
    · -- the slot has the new ticket
      have hnew : some c.cache.tickets.length = some ticket :=
        (congrArg Slot.ticket heq).symm.trans hticket
      obtain rfl := Option.some.inj hnew
      rw [← h.length_owners, List.getElem?_concat_length]
  · intro other ticket outcome howner houtcome
    rw [hcache, Cache.outcome?] at houtcome
    rw [howners] at howner
    dsimp only at houtcome
    by_cases hlt : ticket < c.owners.length
    · rw [List.getElem?_append_left hlt] at howner
      rw [List.getElem?_append_left (h.length_owners ▸ hlt)] at houtcome
      exact h.outcome howner houtcome
    · -- the new ticket has no outcome
      have hle : c.cache.tickets.length ≤ ticket := by
        rw [← h.length_owners]
        exact Nat.not_lt.mp hlt
      rw [List.getElem?_append_right hle] at houtcome
      cases hindex : ticket - c.cache.tickets.length with
      | zero =>
        rw [hindex] at houtcome
        cases houtcome
      | succ n =>
        rw [hindex] at houtcome
        cases houtcome

theorem fulfil (h : c.Faithful r) {ticket : Nat} {outcome : Outcome}
    (howner : c.owners[ticket]? = some folder) (hcan : r.CanDecode folder outcome) :
    (c.setCache (c.cache.fulfil ticket outcome)).Faithful r where
  length_owners := h.length_owners.trans List.length_set.symm
  ticket hticket := h.ticket hticket
  outcome {other ticket' outcome'} howner' houtcome := by
    have hset : (c.cache.tickets.set ticket (some outcome))[ticket']?.join = some outcome' :=
      houtcome
    by_cases heq : ticket = ticket'
    · -- the outcome is handed to its own folder, as a ticket has one owner
      subst heq
      have hlt : ticket < c.cache.tickets.length := by
        rw [← h.length_owners]
        exact (List.getElem?_eq_some_iff.mp howner).1
      rw [List.getElem?_set_self hlt] at hset
      cases hset
      have hsame : some other = some folder := howner'.symm.trans howner
      cases hsame
      exact hcan
    · rw [List.getElem?_set_ne heq] at hset
      exact h.outcome howner' hset

theorem advance (h : c.Faithful r) (hadvance : r.Advance c c') : c'.Faithful r := by
  cases hadvance with
  | outside outside => exact ⟨h.length_owners, h.ticket, h.outcome⟩
  | claim hnone => exact h.claim hnone
  | fulfil howner hcan => exact h.fulfil howner hcan
  | settle generation hcan =>
    refine h.setCache rfl fun other ticket => Cache.ticket_modifySlot fun slot t hslot => ?_
    split at hslot
    · exact Slot.ticket_settle hslot
    · exact hslot
  | release folder =>
    refine h.setCache rfl fun other ticket => Cache.ticket_modifySlot fun slot t hslot => ?_
    cases hslot

end Scene.Faithful

namespace Reader

variable {r : Reader σ} {c c' : Scene σ} {folder : Nat}

/-- **Tickets stay where they belong**, whatever callers do. -/
theorem Reachable.faithful (h : r.Reachable c) : c.Faithful r := by
  obtain ⟨outside, hadvances⟩ := h
  induction hadvances with
  | refl => exact Scene.Faithful.start r outside
  | tail _ hadvance ih => exact ih.advance hadvance

/-- An advance adds owners behind the others, and only when it claims. -/
theorem Advances.owners_mono (h : r.Advances c c') : c.owners <+: c'.owners := by
  induction h with
  | refl => exact List.prefix_refl _
  | tail _ hadvance ih =>
    refine ih.trans ?_
    cases hadvance with
    | claim hnone => exact List.prefix_append _ _
    | outside outside => exact List.prefix_refl _
    | fulfil howner hcan => exact List.prefix_refl _
    | settle generation hcan => exact List.prefix_refl _
    | release folder => exact List.prefix_refl _

/-! ### Calls among others -/

/-- What is so of a call for a folder: its ticket was given out for the folder, and the outcome that
it has is one of the folder. -/
def Call.Sound (r : Reader σ) (owners : List Nat) (folder : Nat) : Call → Prop
  | .requesting => True
  | .waiting ticket => owners[ticket]? = some folder
  | .decoding ticket _ => owners[ticket]? = some folder
  | .fulfilling ticket _ outcome => owners[ticket]? = some folder ∧ r.CanDecode folder outcome
  | .settling _ outcome => r.CanDecode folder outcome
  | .finished outcome => r.CanDecode folder outcome

theorem Call.Sound.mono {call : Call} {owners owners' : List Nat}
    (h : call.Sound r owners folder) (howners : owners <+: owners') :
    call.Sound r owners' folder := by
  have hkept : ∀ {ticket : Nat}, owners[ticket]? = some folder →
      owners'[ticket]? = some folder := by
    intro ticket hticket
    obtain ⟨new, rfl⟩ := howners
    rw [List.getElem?_append_left (List.getElem?_eq_some_iff.mp hticket).1]
    exact hticket
  cases call with
  | requesting => exact h
  | waiting ticket => exact hkept h
  | decoding ticket generation => exact hkept h
  | fulfilling ticket generation outcome => exact ⟨hkept h.1, h.2⟩
  | settling generation outcome => exact h
  | finished outcome => exact h

/-- The outcome of a sound call is one of its folder. -/
theorem Call.Sound.canDecode {call : Call} {owners : List Nat} {outcome : Outcome}
    (h : call.Sound r owners folder) (hend : call.outcome? = some outcome) :
    r.CanDecode folder outcome := by
  cases call with
  | finished outcome' =>
    obtain rfl : outcome' = outcome := Option.some.inj hend
    exact h
  | _ => cases hend

/-- What a call for a folder does next, or others do. Decoding may have any outcome that it can
have; what a decoder does to the scene is among what others do. -/
inductive Turn (r : Reader σ) (folder : Nat) : Scene σ × Call → Scene σ × Call → Prop where
  | others {c c' : Scene σ} {call : Call} (h : r.Advance c c') : Turn r folder (c, call) (c', call)
  | join {c : Scene σ} {ticket : Nat} (h : (c.cache.slot folder).ticket = some ticket) :
    Turn r folder (c, .requesting) (c, .waiting ticket)
  | claim {c : Scene σ} (h : (c.cache.slot folder).ticket = none) :
    Turn r folder (c, .requesting) (c.claim folder,
      .decoding c.cache.tickets.length (c.cache.slot folder).generation)
  | wait {c : Scene σ} {ticket : Nat} {outcome : Outcome}
    (h : c.cache.outcome? ticket = some outcome) :
    Turn r folder (c, .waiting ticket) (c, .finished outcome)
  | decode {c : Scene σ} {ticket : Nat} {generation : UInt64} {outcome : Outcome}
    (hcan : r.CanDecode folder outcome) :
    Turn r folder (c, .decoding ticket generation) (c, .fulfilling ticket generation outcome)
  | fulfil {c : Scene σ} {ticket : Nat} {generation : UInt64} {outcome : Outcome} :
    Turn r folder (c, .fulfilling ticket generation outcome)
      (c.setCache (c.cache.fulfil ticket outcome), .settling generation outcome)
  | settle {c : Scene σ} {generation : UInt64} {outcome : Outcome} :
    Turn r folder (c, .settling generation outcome)
      (c.setCache (c.cache.settle folder generation outcome), .finished outcome)

/-- Any number of turns. -/
abbrev Turns (r : Reader σ) (folder : Nat) : Scene σ × Call → Scene σ × Call → Prop :=
  ReflTransGen (r.Turn folder)

theorem Advances.turns {call : Call} (h : r.Advances c c') :
    r.Turns folder (c, call) (c', call) := by
  induction h with
  | refl => exact .refl
  | tail _ hadvance ih => exact ih.tail (.others hadvance)

/-- One turn: the call stays sound, and what it does to the scene is something that callers do. -/
theorem Turn.sound {call call' : Call} (h : r.Turn folder (c, call) (c', call'))
    (hc : c.Faithful r) (hcall : call.Sound r c.owners folder) :
    r.Advances c c' ∧ call'.Sound r c'.owners folder := by
  cases h with
  | others hadvance =>
    have hadvances := ReflTransGen.single hadvance
    exact ⟨hadvances, hcall.mono (Advances.owners_mono hadvances)⟩
  | join hticket => exact ⟨.refl, hc.ticket hticket⟩
  | claim hnone =>
    refine ⟨.single (.claim hnone), ?_⟩
    show (c.owners ++ [folder])[c.cache.tickets.length]? = some folder
    rw [← hc.length_owners, List.getElem?_concat_length]
  | wait houtcome => exact ⟨.refl, hc.outcome hcall houtcome⟩
  | decode hcan => exact ⟨.refl, hcall, hcan⟩
  | fulfil => exact ⟨.single (.fulfil hcall.1 hcall.2), hcall.2⟩
  | settle => exact ⟨.single (.settle _ hcall), hcall⟩

/-- **A call among others.** Whatever others do between its steps, a call stays sound. -/
theorem Turns.sound {call call' : Call} (h : r.Turns folder (c, call) (c', call'))
    (hc : r.Reachable c) (hcall : call.Sound r c.owners folder) :
    r.Advances c c' ∧ call'.Sound r c'.owners folder := by
  -- by induction on the turns; the end is a pair to begin with, as the induction needs a variable
  suffices hsuffices : ∀ p, r.Turns folder (c, call) p →
      r.Advances c p.1 ∧ p.2.Sound r p.1.owners folder from hsuffices _ h
  intro p hp
  induction hp with
  | refl => exact ⟨.refl, hcall⟩
  | tail _ hturn ih =>
    obtain ⟨hadvances, hsound⟩ := ih
    obtain ⟨hnext, hsound'⟩ := Turn.sound hturn (hc.advances hadvances).faithful hsound
    exact ⟨hadvances.trans hnext, hsound'⟩

/-- What a call ends with is an outcome that decoding its folder can have. -/
theorem Turns.canDecode {outcome : Outcome}
    (h : r.Turns folder (c, .requesting) (c', .finished outcome)) (hc : r.Reachable c) :
    r.CanDecode folder outcome :=
  (Turns.sound h hc trivial).2

/-! ### The calls of a reader -/

/-- A reader whose source and decoder do with the cache only what callers do. They may go back to
the reader, and they may do anything outside of it. -/
structure ActsByAdvances (r : Reader σ) : Prop where
  read : ∀ (c : Scene σ) (offset length : Nat), r.Reachable c →
    r.LeadsTo c (r.source.read offset length c.session).2
  run : ∀ (c : Scene σ) (coder : Coder) (inputs : List Bytes) (expected : Option Nat),
    r.Reachable c → r.LeadsTo c (r.decoder coder inputs expected c.session).2

/-- Source and decoder that leave the cache alone take no advance at all. -/
theorem ActsByAdvances.of_cache_eq
    (hread : ∀ s offset length, (r.source.read offset length s).2.cache = s.cache)
    (hrun : ∀ s coder inputs expected, (r.decoder coder inputs expected s).2.cache = s.cache) :
    r.ActsByAdvances := by
  have houtside : ∀ (c : Scene σ) (s : Session σ), s.cache = c.cache → r.LeadsTo c s := by
    intro c s hcache
    refine ⟨c.setOutside s.outside, ?_, .single (.outside c s.outside)⟩
    obtain ⟨cache, outside⟩ := s
    obtain rfl : cache = c.cache := hcache
    rfl
  exact ⟨fun c offset length _ => houtside c _ (hread c.session offset length),
    fun c coder inputs expected _ => houtside c _ (hrun c.session coder inputs expected)⟩

/-- What a decode does to the scene is something that callers do. -/
theorem ActsByAdvances.decode (hr : r.ActsByAdvances) (hc : r.Reachable c) (folder : Nat) :
    r.LeadsTo c (r.decode folder c.session).2 := by
  have hkeeps : Ensures (decodeFolder r.archive r.map r.source r.decoder r.config folder) c.session
      (fun _ => r.LeadsTo c) (fun _ => r.LeadsTo c) := by
    refine decodeFolder_keeps r.decoder r.config ?_ ?_ ⟨c, rfl, .refl⟩
    · rintro offset length s ⟨c', rfl, hadvances⟩
      exact (hr.read c' offset length (hc.advances hadvances)).after hadvances
    · rintro coder inputs expected s ⟨c', rfl, hadvances⟩
      exact (hr.run c' coder inputs expected (hc.advances hadvances)).after hadvances
  exact Ensures.always_iff.mp hkeeps

/-- **A step of a call is made of turns.** -/
theorem Call.step_turns (hr : r.ActsByAdvances) (hc : r.Reachable c) (folder : Nat) (call : Call) :
    ∃ c', c'.session = (call.step r folder c.session).2 ∧
      r.Turns folder (c, call) (c', (call.step r folder c.session).1) := by
  cases call with
  | requesting =>
    cases hticket : (c.cache.slot folder).ticket with
    | some ticket =>
      refine ⟨c, ?_⟩
      have hrequest : c.session.cache.request folder = _ := Cache.request_of_ticket hticket
      simp only [Call.step, hrequest]
      exact ⟨trivial, .single (.join hticket)⟩
    | none =>
      refine ⟨c.claim folder, ?_⟩
      have hrequest : c.session.cache.request folder = _ := Cache.request_of_none hticket
      have hclaim : (c.claim folder).session =
          { c.session with cache := (c.session.cache.request folder).2 } := rfl
      rw [hclaim]
      simp only [Call.step, hrequest]
      exact ⟨trivial, .single (.claim hticket)⟩
  | waiting ticket =>
    refine ⟨c, ?_⟩
    cases houtcome : c.session.cache.outcome? ticket with
    | some outcome =>
      simp only [Call.step, houtcome]
      exact ⟨trivial, .single (.wait houtcome)⟩
    | none =>
      simp only [Call.step, houtcome]
      exact ⟨trivial, .refl⟩
  | decoding ticket generation =>
    -- what the decoder does with the reader is done by others, before the decode ends
    obtain ⟨c', hsession, hadvances⟩ := hr.decode hc folder
    exact ⟨c', hsession, (Advances.turns hadvances).tail (.decode ⟨c.session, rfl⟩)⟩
  | fulfilling ticket generation outcome => exact ⟨_, rfl, .single .fulfil⟩
  | settling generation outcome => exact ⟨_, rfl, .single .settle⟩
  | finished outcome => exact ⟨c, rfl, .refl⟩

/-- A step of a call leaves it sound. -/
theorem Call.step_sound (hr : r.ActsByAdvances) (hc : r.Reachable c) {call : Call}
    (hcall : call.Sound r c.owners folder) :
    ∃ c', c'.session = (call.step r folder c.session).2 ∧ r.Advances c c' ∧
      (call.step r folder c.session).1.Sound r c'.owners folder := by
  obtain ⟨c', hsession, hturns⟩ := Call.step_turns hr hc folder call
  exact ⟨c', hsession, Turns.sound hturns hc hcall⟩

theorem Call.run_sound (hr : r.ActsByAdvances) (hc : r.Reachable c) {call : Call}
    (hcall : call.Sound r c.owners folder) (steps : Nat) :
    ∃ c', c'.session = (Call.run r folder steps call c.session).2 ∧ r.Advances c c' ∧
      (Call.run r folder steps call c.session).1.Sound r c'.owners folder := by
  induction steps generalizing c call with
  | zero => exact ⟨c, rfl, .refl, hcall⟩
  | succ steps ih =>
    obtain ⟨c₁, hsession, hadvances, hcall₁⟩ := Call.step_sound hr hc hcall
    obtain ⟨c₂, hsession₂, hadvances₂, hcall₂⟩ := ih (hc.advances hadvances) hcall₁
    rw [hsession] at hsession₂ hcall₂
    exact ⟨c₂, hsession₂, hadvances.trans hadvances₂, hcall₂⟩

/-- What a caller gets is an outcome that decoding the folder can have. -/
theorem folderOutcome_sound (hr : r.ActsByAdvances) (hc : r.Reachable c) (folder : Nat) :
    ∃ c', c'.session = (r.folderOutcome folder c.session).2 ∧ r.Advances c c' ∧
      ∀ outcome, (r.folderOutcome folder c.session).1 = some outcome →
        r.CanDecode folder outcome := by
  have hstart : Call.requesting.Sound r c.owners folder := trivial
  obtain ⟨c', hsession, hadvances, hcall⟩ := Call.run_sound hr hc hstart Call.length
  exact ⟨c', hsession, hadvances, fun outcome hend => hcall.canDecode hend⟩

end Reader

end SolidArchive
