import SolidArchive.Proofs.Reader.Alone

/-!
# What the cache keeps of a folder

The entry of a folder has three parts that change at different times: its ticket, with the outcome
that the ticket may have by now, its generation, and the mark that its bytes are there. When no
decode of the folder is under way, what is kept under the ticket (`Cache.Keeps`) is nothing, or
bytes, or a decode error: a `Kept`. The table of what is kept of all folders is `Cache.memo`.

The mark should agree with that, and then the entry says one of three things (`Cache.Holds`): that
nothing is known, that there are these bytes, or that there is this decode error. A decode that
comes 2 ^ 64 releases too late may mark an entry of which nothing is kept, so an entry in general is
what is kept together with its mark, whichever that is (`Cache.Has`).

The file goes through the operations of the cache, one section each, with what becomes of the slots,
of the tickets, and, for a decode from its claim to its end, of what is kept.
-/

namespace SolidArchive

/-! ### Outcomes that are kept -/

/-- What can be kept of a folder. -/
inductive Kept where
  | bytes (output : Bytes)
  | failure (error : DecodeError)
  deriving DecidableEq, Repr

namespace Kept

/-- The outcome that was kept. -/
def outcome : Kept → Outcome
  | .bytes output => .ok output
  | .failure error => .error (.decode error)

/-- What is kept of an outcome: bytes and decode errors are, everything else is not. -/
def ofOutcome? : Outcome → Option Kept
  | .ok output => some (.bytes output)
  | .error (.decode error) => some (.failure error)
  | .error _ => none

/-- Whether bytes are kept. -/
def hasBytes : Kept → Bool
  | .bytes _ => true
  | .failure _ => false

variable {kept : Kept} {outcome : Outcome}

@[simp] theorem ofOutcome?_outcome (kept : Kept) : ofOutcome? kept.outcome = some kept := by
  cases kept with
  | bytes output => rfl
  | failure error => rfl

theorem ofOutcome?_eq_some_iff : ofOutcome? outcome = some kept ↔ outcome = kept.outcome := by
  constructor
  · intro h
    match outcome with
    | .ok output =>
      cases h
      rfl
    | .error (.decode error) =>
      cases h
      rfl
    | .error (.structural error) => cases h
    | .error (.foreign thrown) => cases h
  · rintro rfl
    exact ofOutcome?_outcome kept

end Kept

/-- What a cache has of a folder of which no decode is under way: what it keeps, and whether the
folder is marked as decoded. -/
structure Holding where
  kept : Option Kept
  marked : Bool

namespace Holding

/-- What is kept with the mark that it should have. -/
def ofKept (entry : Option Kept) : Holding := { kept := entry, marked := entry.any Kept.hasBytes }

/-- What a cache has of a folder when somebody has got it. What was kept stays. Else the folder has
been decoded: what can be kept of the outcome is kept, and the mark is set for bytes, but not taken
away. -/
def got (held : Holding) (outcome : Outcome) : Holding :=
  match held.kept, Kept.ofOutcome? outcome with
  | some _, _ => held
  | none, some kept => { kept := some kept, marked := kept.hasBytes || held.marked }
  | none, none => { kept := none, marked := false }

variable {held : Holding} {outcome : Outcome} {kept : Kept}

theorem got_of_kept (h : held.kept = some kept) : held.got outcome = held := by
  unfold got
  rw [h]

theorem got_of_none (h : held.kept = none) (houtcome : Kept.ofOutcome? outcome = none) :
    held.got outcome = { kept := none, marked := false } := by
  unfold got
  rw [h, houtcome]

theorem got_of_some (h : held.kept = none) (houtcome : Kept.ofOutcome? outcome = some kept) :
    held.got outcome = { kept := some kept, marked := kept.hasBytes || held.marked } := by
  unfold got
  rw [h, houtcome]

/-- A folder of which nothing is known gets the mark that it should have. -/
theorem got_ofKept_none (outcome : Outcome) :
    (ofKept none).got outcome = ofKept (Kept.ofOutcome? outcome) := by
  cases houtcome : Kept.ofOutcome? outcome with
  | none => exact got_of_none rfl houtcome
  | some kept =>
    rw [got_of_some rfl houtcome]
    exact congrArg (mk (some kept)) (Bool.or_false _)

end Holding

/-- The end of a decode clears a slot if nothing is kept of the outcome. -/
theorem Slot.settle_of_none {s : Slot} {outcome : Outcome} (h : Kept.ofOutcome? outcome = none) :
    s.settle outcome = s.clear := by
  match outcome with
  | .ok output => cases h
  | .error (.decode error) => cases h
  | .error (.structural error) => rfl
  | .error (.foreign thrown) => rfl

/-- Else it only notes whether there are bytes. -/
theorem Slot.settle_of_some {s : Slot} {outcome : Outcome} {kept : Kept}
    (h : Kept.ofOutcome? outcome = some kept) :
    s.settle outcome = { s with decoded := kept.hasBytes || s.decoded } := by
  obtain rfl := Kept.ofOutcome?_eq_some_iff.mp h
  cases kept with
  | bytes output => rfl
  | failure error => rfl

namespace Cache

variable {c : Cache} {folder other ticket : Nat} {generation : UInt64} {f : Slot → Slot}
  {outcome : Outcome} {entry : Option Kept} {held : Holding}

/-! ### Slots and tickets -/

theorem slot_of_length_le (h : c.slots.length ≤ folder) : c.slot folder = {} := by
  rw [slot, List.getD_eq_getElem?_getD, List.getElem?_eq_none h]
  rfl

theorem slot_modifySlot_self (h : folder < c.slots.length) :
    (c.modifySlot folder f).slot folder = f (c.slot folder) := by
  simp [slot, modifySlot, List.getD_eq_getElem?_getD, h]

/-- To leave the slot as it is changes nothing. -/
theorem modifySlot_eq_self (h : f (c.slot folder) = c.slot folder) :
    c.modifySlot folder f = c := by
  have hslots : c.slots.modify folder f = c.slots := by
    refine List.ext_getElem? fun i => ?_
    rw [List.getElem?_modify]
    cases hslot : c.slots[i]? with
    | none => rfl
    | some slot =>
      by_cases hi : folder = i
      · subst hi
        have hsame : c.slot folder = slot := by
          rw [Cache.slot, List.getD_eq_getElem?_getD, hslot]
          rfl
        rw [hsame] at h
        simpa using h
      · simp [hi]
  show ({ c with slots := c.slots.modify folder f } : Cache) = c
  rw [hslots]

@[simp] theorem outcome?_modifySlot : (c.modifySlot folder f).outcome? ticket = c.outcome? ticket :=
  rfl

theorem lt_of_outcome (h : c.outcome? ticket = some outcome) : ticket < c.tickets.length := by
  by_contra hle
  rw [outcome?, List.getElem?_eq_none (Nat.not_lt.mp hle)] at h
  cases h

/-! ### Asking for a folder -/

@[simp] theorem length_slots_request (c : Cache) (folder : Nat) :
    (c.request folder).2.slots.length = c.slots.length := by
  cases hticket : (c.slot folder).ticket with
  | some ticket => rw [request_of_ticket hticket]
  | none =>
    rw [request_of_none hticket]
    exact length_slots_modifySlot c folder _

theorem length_tickets_request (h : (c.slot folder).ticket = none) :
    (c.request folder).2.tickets.length = c.tickets.length + 1 := by
  rw [request_of_none h]
  exact List.length_append

/-- A new ticket has no outcome, as it had none before it was given out. -/
@[simp] theorem outcome?_request (c : Cache) (folder ticket : Nat) :
    (c.request folder).2.outcome? ticket = c.outcome? ticket := by
  cases hticket : (c.slot folder).ticket with
  | some own => rw [request_of_ticket hticket]
  | none =>
    rw [request_of_none hticket]
    show (c.tickets ++ [none])[ticket]?.join = c.tickets[ticket]?.join
    rcases Nat.lt_trichotomy ticket c.tickets.length with hlt | rfl | hlt
    · rw [List.getElem?_append_left hlt]
    · rw [List.getElem?_concat_length, List.getElem?_eq_none le_rfl]
      rfl
    · rw [List.getElem?_eq_none hlt.le, List.getElem?_eq_none]
      rw [List.length_append]
      exact hlt

theorem slot_request_self (h : (c.slot folder).ticket = none) (hlt : folder < c.slots.length) :
    (c.request folder).2.slot folder =
      { c.slot folder with ticket := some c.tickets.length } := by
  rw [request_of_none h]
  exact slot_modifySlot_self hlt

theorem slot_request_ne (h : other ≠ folder) :
    (c.request folder).2.slot other = c.slot other := by
  cases hticket : (c.slot folder).ticket with
  | some ticket => rw [request_of_ticket hticket]
  | none =>
    rw [request_of_none hticket]
    exact slot_modifySlot_ne h

/-- Whoever asks changes no generation. -/
@[simp] theorem generation_request (c : Cache) (folder other : Nat) :
    ((c.request folder).2.slot other).generation = (c.slot other).generation := by
  cases hticket : (c.slot folder).ticket with
  | some ticket => rw [request_of_ticket hticket]
  | none =>
    rw [request_of_none hticket]
    show ((c.modifySlot folder fun slot =>
      { slot with ticket := some c.tickets.length }).slot other).generation = _
    rcases slot_modifySlot c folder other fun slot => { slot with ticket := some c.tickets.length }
      with heq | ⟨-, heq⟩
    · rw [heq]
    · rw [heq]

/-- A change of one slot that counts at most one generation on does so for every slot. -/
theorem generation_modifySlot (hf : ∀ slot, (f slot).generation = slot.generation ∨
      (f slot).generation = slot.generation + 1) (other : Nat) :
    ((c.modifySlot folder f).slot other).generation = (c.slot other).generation ∨
      ((c.modifySlot folder f).slot other).generation = (c.slot other).generation + 1 := by
  rcases slot_modifySlot c folder other f with heq | ⟨-, heq⟩
  · exact .inl (congrArg Slot.generation heq)
  · rw [heq]
    exact hf _

/-! ### Handing out an outcome -/

@[simp] theorem length_tickets_fulfil (c : Cache) (ticket : Nat) (outcome : Outcome) :
    (c.fulfil ticket outcome).tickets.length = c.tickets.length := List.length_set

theorem outcome?_fulfil_self (h : ticket < c.tickets.length) (outcome : Outcome) :
    (c.fulfil ticket outcome).outcome? ticket = some outcome := by
  show (c.tickets.set ticket (some outcome))[ticket]?.join = some outcome
  rw [List.getElem?_set_self h]
  rfl

theorem outcome?_fulfil_ne (h : other ≠ ticket) (outcome : Outcome) :
    (c.fulfil ticket outcome).outcome? other = c.outcome? other := by
  show (c.tickets.set ticket (some outcome))[other]?.join = c.tickets[other]?.join
  rw [List.getElem?_set_ne h.symm]

/-! ### The end of a decode -/

@[simp] theorem length_slots_settle (c : Cache) (folder : Nat) (generation : UInt64)
    (outcome : Outcome) :
    (c.settle folder generation outcome).slots.length = c.slots.length :=
  length_slots_modifySlot c folder _

theorem slot_settle_ne (h : other ≠ folder) :
    (c.settle folder generation outcome).slot other = c.slot other :=
  slot_modifySlot_ne h

theorem slot_settle_self (hlt : folder < c.slots.length)
    (h : (c.slot folder).generation = generation) :
    (c.settle folder generation outcome).slot folder = (c.slot folder).settle outcome := by
  refine (slot_modifySlot_self hlt).trans ?_
  rw [if_pos h]

/-- A decode of another generation changes nothing when it ends. -/
theorem settle_of_ne (h : (c.slot folder).generation ≠ generation) :
    c.settle folder generation outcome = c :=
  modifySlot_eq_self (if_neg h)

theorem generation_settle (c : Cache) (folder : Nat) (generation : UInt64) (outcome : Outcome)
    (other : Nat) : ((c.settle folder generation outcome).slot other).generation =
        (c.slot other).generation ∨
      ((c.settle folder generation outcome).slot other).generation =
        (c.slot other).generation + 1 := by
  refine generation_modifySlot (fun slot => ?_) other
  split
  · cases hkept : Kept.ofOutcome? outcome with
    | none =>
      rw [Slot.settle_of_none hkept]
      exact .inr rfl
    | some kept =>
      rw [Slot.settle_of_some hkept]
      exact .inl rfl
  · exact .inl rfl

/-! ### Forgetting a folder -/

@[simp] theorem length_slots_release (c : Cache) (folder : Nat) :
    (c.release folder).slots.length = c.slots.length := length_slots_modifySlot c folder _

theorem slot_release_ne (h : other ≠ folder) : (c.release folder).slot other = c.slot other :=
  slot_modifySlot_ne h

theorem slot_release_self (h : folder < c.slots.length) :
    (c.release folder).slot folder = (c.slot folder).clear := slot_modifySlot_self h

theorem generation_release (c : Cache) (folder other : Nat) :
    ((c.release folder).slot other).generation = (c.slot other).generation ∨
      ((c.release folder).slot other).generation = (c.slot other).generation + 1 :=
  generation_modifySlot (fun _ => .inr rfl) other

/-! ### Entries -/

/-- What is kept under the ticket of a folder of which no decode is under way. -/
inductive Keeps (c : Cache) (folder : Nat) : Option Kept → Prop where
  | nothing (hticket : (c.slot folder).ticket = none) : Keeps c folder none
  | something {ticket : Nat} {kept : Kept} (hticket : (c.slot folder).ticket = some ticket)
    (houtcome : c.outcome? ticket = some kept.outcome) : Keeps c folder (some kept)

/-- The entry of a folder of which no decode is under way, whatever its mark. -/
structure Has (c : Cache) (folder : Nat) (held : Holding) : Prop where
  keeps : c.Keeps folder held.kept
  decoded_eq : (c.slot folder).decoded = held.marked

/-- The entry of a folder of which no decode is under way, with what it keeps. -/
inductive Holds (c : Cache) (folder : Nat) : Option Kept → Prop where
  | nothing (hticket : (c.slot folder).ticket = none) (hdecoded : (c.slot folder).decoded = false) :
    Holds c folder none
  | bytes {ticket : Nat} {output : Bytes} (hticket : (c.slot folder).ticket = some ticket)
    (houtcome : c.outcome? ticket = some (.ok output)) (hdecoded : (c.slot folder).decoded = true) :
    Holds c folder (some (.bytes output))
  | failure {ticket : Nat} {error : DecodeError} (hticket : (c.slot folder).ticket = some ticket)
    (houtcome : c.outcome? ticket = some (.error (.decode error)))
    (hdecoded : (c.slot folder).decoded = false) : Holds c folder (some (.failure error))

/-- What the entry of a folder keeps; nothing while the outcome of its ticket is not there. -/
def kept? (c : Cache) (folder : Nat) : Option Kept :=
  ((c.slot folder).ticket.bind c.outcome?).bind Kept.ofOutcome?

/-- What the cache has of a folder if no decode of it is under way. -/
def holding (c : Cache) (folder : Nat) : Holding where
  kept := c.kept? folder
  marked := (c.slot folder).decoded

/-- What is kept of all folders. -/
def memo (c : Cache) : List (Option Kept) := (List.range c.slots.length).map c.kept?

/-- No decode is under way and every entry is in order. -/
def Tidy (c : Cache) : Prop := ∀ folder, c.Holds folder (c.kept? folder)

/-- What is kept can be read off the entry, so it is only one thing. -/
theorem Keeps.kept?_eq (h : c.Keeps folder entry) : c.kept? folder = entry := by
  unfold Cache.kept?
  cases h with
  | nothing hticket =>
    rw [hticket]
    rfl
  | something hticket houtcome =>
    rw [hticket, Option.bind_some, houtcome]
    exact Kept.ofOutcome?_outcome _

theorem Keeps.has (h : c.Keeps folder entry) : c.Has folder (c.holding folder) := by
  refine ⟨?_, rfl⟩
  show c.Keeps folder (c.kept? folder)
  rwa [h.kept?_eq]

/-- A slot that keeps something has a ticket with that outcome. -/
theorem Keeps.exists_ticket {kept : Kept} (h : c.Keeps folder (some kept)) :
    ∃ ticket, (c.slot folder).ticket = some ticket ∧ c.outcome? ticket = some kept.outcome := by
  cases h with
  | something hticket houtcome => exact ⟨_, hticket, houtcome⟩

theorem Keeps.ticket_eq_none (h : c.Keeps folder none) : (c.slot folder).ticket = none := by
  cases h with
  | nothing hticket => exact hticket

/-- An entry stays as it is if its slot does and its ticket keeps the outcome. -/
theorem Keeps.congr {c' : Cache} (h : c.Keeps folder entry)
    (hticket : (c'.slot folder).ticket = (c.slot folder).ticket)
    (houtcomes : ∀ ticket outcome, (c.slot folder).ticket = some ticket →
      c.outcome? ticket = some outcome → c'.outcome? ticket = some outcome) :
    c'.Keeps folder entry := by
  cases h with
  | nothing hnone => exact .nothing (hticket.trans hnone)
  | something hsome houtcome =>
    exact .something (hticket.trans hsome) (houtcomes _ _ hsome houtcome)

theorem Has.congr {c' : Cache} (h : c.Has folder held) (hslot : c'.slot folder = c.slot folder)
    (houtcomes : ∀ ticket outcome, (c.slot folder).ticket = some ticket →
      c.outcome? ticket = some outcome → c'.outcome? ticket = some outcome) :
    c'.Has folder held where
  keeps := h.keeps.congr (congrArg Slot.ticket hslot) houtcomes
  decoded_eq := (congrArg Slot.decoded hslot).trans h.decoded_eq

/-- **The three entries** are those whose mark is the one that it should be. -/
theorem holds_iff_has : c.Holds folder entry ↔ c.Has folder (.ofKept entry) := by
  constructor
  · intro h
    cases h with
    | nothing hticket hdecoded => exact ⟨.nothing hticket, hdecoded⟩
    | bytes hticket houtcome hdecoded => exact ⟨.something hticket houtcome, hdecoded⟩
    | failure hticket houtcome hdecoded => exact ⟨.something hticket houtcome, hdecoded⟩
  · rintro ⟨hkeeps, hdecoded⟩
    match entry with
    | none => exact .nothing hkeeps.ticket_eq_none hdecoded
    | some (.bytes output) =>
      obtain ⟨ticket, hticket, houtcome⟩ := hkeeps.exists_ticket
      exact .bytes hticket houtcome hdecoded
    | some (.failure error) =>
      obtain ⟨ticket, hticket, houtcome⟩ := hkeeps.exists_ticket
      exact .failure hticket houtcome hdecoded

theorem Holds.has (h : c.Holds folder entry) : c.Has folder (.ofKept entry) :=
  holds_iff_has.mp h

theorem Holds.kept?_eq (h : c.Holds folder entry) : c.kept? folder = entry := h.has.keeps.kept?_eq

theorem Holds.tidy (h : ∀ folder, ∃ entry, c.Holds folder entry) : c.Tidy := by
  intro folder
  obtain ⟨entry, hholds⟩ := h folder
  rw [hholds.kept?_eq]
  exact hholds

theorem Holds.congr {c' : Cache} (h : c.Holds folder entry) (hslot : c'.slot folder = c.slot folder)
    (houtcomes : ∀ ticket outcome, c.outcome? ticket = some outcome →
      c'.outcome? ticket = some outcome) : c'.Holds folder entry :=
  holds_iff_has.mpr (h.has.congr hslot fun ticket outcome _ => houtcomes ticket outcome)

/-- A folder outside the archive has an entry that is always empty. -/
theorem holds_of_length_le (h : c.slots.length ≤ folder) : c.Holds folder none := by
  have hslot := slot_of_length_le h
  exact .nothing (congrArg Slot.ticket hslot) (congrArg Slot.decoded hslot)

theorem tidy_empty (folders : Nat) : (empty folders).Tidy := by
  refine Holds.tidy fun folder => ⟨none, ?_⟩
  have hslot := slot_empty folders folder
  exact .nothing (congrArg Slot.ticket hslot) (congrArg Slot.decoded hslot)

/-! ### The table -/

@[simp] theorem length_memo (c : Cache) : c.memo.length = c.slots.length := by
  rw [memo, List.length_map, List.length_range]

theorem kept?_of_length_le (h : c.slots.length ≤ folder) : c.kept? folder = none :=
  (holds_of_length_le h).kept?_eq

theorem getElem?_memo (c : Cache) (folder : Nat) :
    c.memo[folder]? = if folder < c.slots.length then some (c.kept? folder) else none := by
  rw [memo, List.getElem?_map]
  rcases Nat.lt_or_ge folder c.slots.length with hlt | hle
  · rw [List.getElem?_range hlt, if_pos hlt]
    rfl
  · rw [List.getElem?_eq_none (List.length_range.trans_le hle), if_neg hle.not_gt]
    rfl

/-- The table has what the entries keep. -/
theorem getD_memo (c : Cache) (folder : Nat) : c.memo.getD folder none = c.kept? folder := by
  rw [List.getD_eq_getElem?_getD, getElem?_memo]
  split
  case isTrue hlt => rfl
  case isFalse hge => exact (kept?_of_length_le (Nat.le_of_not_lt hge)).symm

/-- The table after a change of one entry. -/
theorem memo_eq_set {c' : Cache} (hlength : c'.slots.length = c.slots.length)
    (hself : folder < c.slots.length → c'.kept? folder = entry)
    (hothers : ∀ other, other ≠ folder → c'.kept? other = c.kept? other) :
    c'.memo = c.memo.set folder entry := by
  refine List.ext_getElem? fun i => ?_
  rw [getElem?_memo, hlength, List.getElem?_set, length_memo, getElem?_memo]
  by_cases hi : folder = i
  · subst hi
    rw [if_pos rfl]
    split
    case isTrue hlt => rw [hself hlt]
    case isFalse hge => rfl
  · rw [if_neg hi, hothers i (Ne.symm hi)]

/-- The marks are counted slot by slot. -/
theorem decodedCount_eq_countP (c : Cache) : c.decodedCount =
    (List.range c.slots.length).countP fun folder => (c.slot folder).decoded := by
  have hslots : c.slots = (List.range c.slots.length).map c.slot := by
    refine List.ext_getElem? fun i => ?_
    rw [List.getElem?_map]
    rcases Nat.lt_or_ge i c.slots.length with hlt | hle
    · rw [List.getElem?_range hlt, List.getElem?_eq_getElem hlt]
      exact congrArg some (List.getD_eq_getElem _ _ hlt).symm
    · rw [List.getElem?_eq_none hle, List.getElem?_eq_none (List.length_range.trans_le hle)]
      rfl
  rw [decodedCount, hslots, List.countP_map, ← hslots]
  rfl

/-- **What is counted.** In a cache at rest the marks count the entries with bytes. -/
theorem Tidy.decodedCount_eq (h : c.Tidy) :
    c.decodedCount = c.memo.countP fun entry => entry.any Kept.hasBytes := by
  rw [decodedCount_eq_countP, memo, List.countP_map]
  refine List.countP_congr fun folder _ => ?_
  rw [(h folder).has.decoded_eq]
  rfl

/-! ### From the claim of a decode to its end -/

/-- The cache after a decode that nobody disturbed. -/
def record (c : Cache) (folder : Nat) (outcome : Outcome) : Cache :=
  ((c.request folder).2.fulfil c.tickets.length outcome).settle folder
    (c.slot folder).generation outcome

@[simp] theorem length_slots_record (c : Cache) (folder : Nat) (outcome : Outcome) :
    (c.record folder outcome).slots.length = c.slots.length :=
  (length_slots_settle _ _ _ _).trans (length_slots_request c folder)

theorem slot_record_ne (h : other ≠ folder) :
    (c.record folder outcome).slot other = c.slot other :=
  (slot_settle_ne h).trans (slot_request_ne h)

theorem outcome?_record_of_some (h : c.outcome? ticket = some outcome) (own : Outcome) :
    (c.record folder own).outcome? ticket = some outcome := by
  have hne : ticket ≠ c.tickets.length := (lt_of_outcome h).ne
  refine (outcome?_fulfil_ne hne own).trans ?_
  rw [outcome?_request, h]

/-- Other entries stay as they are. -/
theorem Holds.record_of_ne (h : c.Holds other entry) (hne : other ≠ folder) (own : Outcome) :
    (c.record folder own).Holds other entry :=
  h.congr (slot_record_ne hne) fun _ _ houtcome => outcome?_record_of_some houtcome own

/-- When the decode that has claimed a slot ends, the slot has what is kept of the outcome. -/
theorem has_settle (hlt : folder < c.slots.length) (hnothing : held.kept = none)
    (hclaimed : c.slot folder = { ticket := some ticket, generation, decoded := held.marked })
    (houtcome : c.outcome? ticket = some outcome) :
    (c.settle folder generation outcome).Has folder (held.got outcome) := by
  have hslot : (c.settle folder generation outcome).slot folder = _ :=
    slot_settle_self hlt (congrArg Slot.generation hclaimed)
  cases hkept : Kept.ofOutcome? outcome with
  | none =>
    -- the slot is cleared
    rw [Slot.settle_of_none hkept] at hslot
    rw [Holding.got_of_none hnothing hkept]
    exact ⟨.nothing (congrArg Slot.ticket hslot), congrArg Slot.decoded hslot⟩
  | some kept =>
    rw [Slot.settle_of_some hkept, hclaimed] at hslot
    rw [Holding.got_of_some hnothing hkept]
    rw [Kept.ofOutcome?_eq_some_iff.mp hkept] at houtcome
    exact ⟨.something (congrArg Slot.ticket hslot) houtcome, congrArg Slot.decoded hslot⟩

/-- **A decode that nobody disturbs** leaves in an empty entry what is kept of its outcome. -/
theorem Holds.record (h : c.Holds folder none) (hlt : folder < c.slots.length)
    (outcome : Outcome) : (c.record folder outcome).Holds folder (Kept.ofOutcome? outcome) := by
  cases h with
  | nothing hticket hdecoded =>
    have hclaimed : (c.request folder).2.slot folder =
        { ticket := some c.tickets.length, generation := (c.slot folder).generation
          decoded := false } := by
      rw [slot_request_self hticket hlt, ← hdecoded]
    rw [holds_iff_has, ← Holding.got_ofKept_none]
    apply has_settle
    · exact hlt.trans_eq (length_slots_request c folder).symm
    · rfl
    · exact hclaimed
    · refine outcome?_fulfil_self ?_ outcome
      rw [length_tickets_request hticket]
      exact Nat.lt_succ_self _

theorem Tidy.record (h : c.Tidy) (hnone : c.kept? folder = none) (outcome : Outcome) :
    (c.record folder outcome).Tidy := by
  refine Holds.tidy fun other => ?_
  by_cases hother : other = folder
  · subst hother
    rcases Nat.lt_or_ge other c.slots.length with hlt | hle
    · have hempty := h other
      rw [hnone] at hempty
      exact ⟨_, hempty.record hlt outcome⟩
    · exact ⟨none, holds_of_length_le ((length_slots_record c other outcome).trans_le hle)⟩
  · exact ⟨_, (h other).record_of_ne hother outcome⟩

theorem Tidy.memo_record (h : c.Tidy) (hnone : c.kept? folder = none) (outcome : Outcome) :
    (c.record folder outcome).memo = c.memo.set folder (Kept.ofOutcome? outcome) := by
  refine memo_eq_set (length_slots_record c folder outcome) (fun hlt => ?_) fun other hother => ?_
  · have hempty := h folder
    rw [hnone] at hempty
    exact (hempty.record hlt outcome).kept?_eq
  · exact ((h other).record_of_ne hother outcome).kept?_eq

/-! ### Forgetting, and what is kept -/

theorem Holds.release_of_ne (h : c.Holds other entry) (hne : other ≠ folder) :
    (c.release folder).Holds other entry :=
  h.congr (slot_release_ne hne) fun _ _ houtcome => houtcome

theorem holds_release (hlt : folder < c.slots.length) : (c.release folder).Holds folder none := by
  have hslot := slot_release_self hlt
  exact .nothing (congrArg Slot.ticket hslot) (congrArg Slot.decoded hslot)

theorem Tidy.release (h : c.Tidy) (folder : Nat) : (c.release folder).Tidy := by
  refine Holds.tidy fun other => ?_
  by_cases hother : other = folder
  · subst hother
    rcases Nat.lt_or_ge other c.slots.length with hlt | hle
    · exact ⟨none, holds_release hlt⟩
    · exact ⟨none, holds_of_length_le ((length_slots_release c other).trans_le hle)⟩
  · exact ⟨_, (h other).release_of_ne hother⟩

theorem Tidy.memo_release (h : c.Tidy) (folder : Nat) :
    (c.release folder).memo = c.memo.set folder none := by
  refine memo_eq_set (length_slots_release c folder) (fun hlt => ?_) fun other hother => ?_
  · exact (holds_release hlt).kept?_eq
  · exact ((h other).release_of_ne hother).kept?_eq

end Cache

/-! ### The output of a folder -/

namespace Reader

variable {σ : Type} {r : Reader σ} {s : Session σ} {folder ticket : Nat}

/-- If a folder has a ticket, its output is what there is for the ticket, and nothing is changed. -/
theorem folderOutcome_of_ticket (h : (s.cache.slot folder).ticket = some ticket) :
    r.folderOutcome folder s = (s.cache.outcome? ticket, s) := by
  have hrequest := Cache.request_of_ticket h
  cases houtcome : s.cache.outcome? ticket with
  | none =>
    simp only [folderOutcome, Call.length, Call.run, runState_bind, Call.step, hrequest, houtcome]
    rfl
  | some outcome =>
    simp only [folderOutcome, Call.length, Call.run, runState_bind, Call.step, hrequest, houtcome]
    rfl

/-- If it has none, the folder is decoded between its claim and what becomes of that. -/
theorem folderOutcome_of_none (h : (s.cache.slot folder).ticket = none) :
    r.folderOutcome folder s =
      let ended := r.decode folder { s with cache := (s.cache.request folder).2 }
      (some ended.1, { ended.2 with
        cache := (ended.2.cache.fulfil s.cache.tickets.length ended.1).settle folder
          (s.cache.slot folder).generation ended.1 }) := by
  have hrequest := Cache.request_of_none h
  simp only [folderOutcome, Call.length, Call.run, runState_bind, Call.step, hrequest]
  rfl

end Reader

end SolidArchive
