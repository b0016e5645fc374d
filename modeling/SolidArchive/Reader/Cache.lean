import SolidArchive.Folder.Decode

/-!
# The cache of folder outputs

A folder is decoded by the first caller that asks for it, and everybody who asks later gets what
that decode comes to, also while it is still under way. The cache has a slot for each folder, and
the slot holds a *ticket* from the moment a decode is claimed. The ticket is filled with the outcome
when the decode ends; to wait for it is to look again later.

Decoding takes place outside the cache, so a slot may change while its decode is under way. A
*generation* tells decodes of one folder apart: it grows whenever the slot is emptied, and a decode
that ends touches the slot only if the generation is still the one in which it was claimed. It is a
word of 64 bits, so after 2 ^ 64 generations the first one comes again.

What becomes of a slot when its decode ends depends on the outcome. Bytes and decode errors are
properties of the folder and stay. Anything else is handed to those who wait and then forgotten, so
that the next caller tries again.

Each operation here is one indivisible step on the cache; `Reader.Call` makes calls out of them.
-/

namespace SolidArchive

/-- What a decode of a folder comes to. -/
abbrev Outcome := Except FolderFault Bytes

/-- The state of a folder in the cache. -/
structure Slot where
  /-- The ticket of the decode that stands for the folder. -/
  ticket : Option Nat := none
  /-- How often the slot has been emptied, as a word that may go round. -/
  generation : UInt64 := 0
  /-- The decode that stands for the folder has ended with bytes. -/
  decoded : Bool := false
  deriving DecidableEq, Repr

/-- Empties a slot. -/
def Slot.clear (s : Slot) : Slot where
  generation := s.generation + 1

/-- What a slot becomes when its decode has ended. -/
def Slot.settle (s : Slot) (outcome : Outcome) : Slot :=
  match outcome with
  | .ok _ => { s with decoded := true }
  | .error (.decode _) => s
  | .error _ => s.clear

/-- The slots of all folders, and the tickets that were given out. -/
structure Cache where
  slots : List Slot
  /-- The outcome of each ticket, once it is there. -/
  tickets : List (Option Outcome) := []

/-- What a caller that asks for a folder is told. -/
inductive Request where
  /-- To wait for the decode of this ticket. -/
  | wait (ticket : Nat)
  /-- To decode the folder for this ticket, claimed in this generation. -/
  | claim (ticket : Nat) (generation : UInt64)
  deriving DecidableEq, Repr

namespace Cache

/-- Nothing is known of any folder. -/
def empty (folders : Nat) : Cache where
  slots := List.replicate folders {}

/-- The slot of a folder. -/
def slot (c : Cache) (folder : Nat) : Slot := c.slots.getD folder {}

/-- Changes the slot of a folder. -/
def modifySlot (c : Cache) (folder : Nat) (f : Slot → Slot) : Cache :=
  { c with slots := c.slots.modify folder f }

/-- The outcome of a ticket, if it is there. -/
def outcome? (c : Cache) (ticket : Nat) : Option Outcome := c.tickets[ticket]?.join

/-- Asks for a folder: joins the decode that stands for it, or claims one. -/
def request (c : Cache) (folder : Nat) : Request × Cache :=
  let slot := c.slot folder
  match slot.ticket with
  | some ticket => (.wait ticket, c)
  | none =>
    let ticket := c.tickets.length
    let claimed := c.modifySlot folder fun slot => { slot with ticket := some ticket }
    (.claim ticket slot.generation, { claimed with tickets := c.tickets ++ [none] })

/-- Hands the outcome of a decode to everybody who has its ticket. -/
def fulfil (c : Cache) (ticket : Nat) (outcome : Outcome) : Cache :=
  { c with tickets := c.tickets.set ticket (some outcome) }

/-- Records the end of a decode that was claimed in the given generation. -/
def settle (c : Cache) (folder : Nat) (generation : UInt64) (outcome : Outcome) : Cache :=
  c.modifySlot folder fun slot =>
    if slot.generation = generation then slot.settle outcome else slot

/-- Forgets a folder. -/
def release (c : Cache) (folder : Nat) : Cache := c.modifySlot folder Slot.clear

/-- The number of folders whose bytes are held. -/
def decodedCount (c : Cache) : Nat := c.slots.countP Slot.decoded

@[simp] theorem length_slots_empty (folders : Nat) : (empty folders).slots.length = folders := by
  simp [empty]

@[simp] theorem length_slots_modifySlot (c : Cache) (folder : Nat) (f : Slot → Slot) :
    (c.modifySlot folder f).slots.length = c.slots.length := by
  simp [modifySlot]

end Cache

end SolidArchive
