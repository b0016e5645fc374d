import SolidArchive.Proofs.Reader.Access
import SolidArchive.Proofs.Reader.Delivery
import SolidArchive.Proofs.Reader.Entry

/-!
# A reader remembers

Used by one worker at a time, and with a source and a decoder that do not go back to it, a reader is
a table that says of each folder what is kept of it (`Notebook`). Tickets, generations and marks are
not seen from outside: between two uses the cache is tidy, and all that matters of it is its
`Cache.memo`.

So the reader and the table go side by side (`Session.IsNotedAs`): they get the output of a folder
in the same way, they decode it past what is kept, they forget it, and so all uses come to the same
by both (`Notebook.keepsTo`). It does not matter what source and decoder do, nor that they may do
something else the next time.

If they always do the same, nothing is gained by a table but time. A reader that decodes a folder
each time that it needs it (`Access.plain`) comes to the same answers.
-/

namespace SolidArchive

open Reader

variable {σ : Type}

/-- A decoder outside the reader. -/
def Session.liftDecoder (decoder : Decoder σ) : Decoder (Session σ) :=
  fun coder inputs expected => onOutside (decoder coder inputs expected)

/-! ### Tables -/

/-- What is kept of all folders, and what is outside. -/
structure Notebook (σ : Type) where
  memo : List (Option Kept)
  outside : σ

namespace Notebook

/-- Nothing is kept yet. -/
def start (folders : Nat) (outside : σ) : Notebook σ where
  memo := List.replicate folders none
  outside

/-- What is kept of a folder. -/
def entry (n : Notebook σ) (folder : Nat) : Option Kept := n.memo.getD folder none

/-- The number of folders of which bytes are kept. -/
def held (n : Notebook σ) : Nat := n.memo.countP fun entry => entry.any Kept.hasBytes

/-- The output of a folder: what is kept of it, or else what decoding it comes to, of which is kept
what can be. -/
def output (decode : Nat → StateM σ Outcome) (folder : Nat) :
    StateM (Notebook σ) (Option Outcome) := fun n =>
  match n.entry folder with
  | some kept => (some kept.outcome, n)
  | none =>
    let (outcome, outside) := decode folder n.outside
    (some outcome, { memo := n.memo.set folder (Kept.ofOutcome? outcome), outside })

theorem output_of_some {decode : Nat → StateM σ Outcome} {n : Notebook σ} {folder : Nat}
    {kept : Kept}
    (h : n.entry folder = some kept) : output decode folder n = (some kept.outcome, n) := by
  rw [output, h]

theorem output_of_none {decode : Nat → StateM σ Outcome} {n : Notebook σ} {folder : Nat}
    (h : n.entry folder = none) :
    output decode folder n = (some (decode folder n.outside).1,
      { memo := n.memo.set folder (Kept.ofOutcome? (decode folder n.outside).1)
        outside := (decode folder n.outside).2 }) := by
  rw [output, h]
  rfl

/-- Forgets a folder. -/
def release (folder : Nat) : StateM (Notebook σ) (Except ReaderFault Unit) := fun n =>
  if n.memo.length ≤ folder then (.error (.folderOutOfRange folder), n)
  else (.ok (), { n with memo := n.memo.set folder none })

/-- Something that leaves the table alone. -/
def onOutside {α : Type} (x : StateM σ α) : StateM (Notebook σ) α := fun n =>
  let (a, outside) := x n.outside
  (a, { n with outside })

/-- A table as a way to get at folders. -/
def access (decode : Nat → StateM σ Outcome) : Access (Notebook σ) σ where
  output := output decode
  decode folder := onOutside (decode folder)
  release := release
  ask := onOutside

end Notebook

/-- What a session is but for tickets, generations and marks. -/
structure Session.IsNotedAs (s : Session σ) (n : Notebook σ) : Prop where
  tidy : s.cache.Tidy
  memo : s.cache.memo = n.memo
  outside : s.outside = n.outside

namespace Session.IsNotedAs

variable {s : Session σ} {n : Notebook σ}

theorem kept?_eq (h : s.IsNotedAs n) (folder : Nat) : s.cache.kept? folder = n.entry folder := by
  rw [Notebook.entry, ← h.memo, Cache.getD_memo]

/-- What is counted is how many bytes are kept. -/
theorem cachedFolders_eq (h : s.IsNotedAs n) : s.cachedFolders = n.held := by
  rw [cachedFolders, h.tidy.decodedCount_eq, h.memo]
  rfl

/-- What is done outside the reader is done alike to a session and to its table. -/
theorem onOutside {α : Type} (x : StateM σ α) :
    Agree Session.IsNotedAs (Session.onOutside x) (Notebook.onOutside x) := by
  rintro s n ⟨htidy, hmemo, houtside⟩
  have hstep : Session.onOutside x s =
      ((x n.outside).1, { s with outside := (x n.outside).2 }) := by
    rw [← houtside]
    rfl
  rw [hstep]
  exact ⟨rfl, htidy, hmemo, rfl⟩

theorem start (r : Reader σ) (outside : σ) :
    (r.start outside).IsNotedAs (.start r.archive.folders.length outside) where
  tidy := Cache.tidy_empty _
  memo := by
    refine List.ext_getElem? fun i => ?_
    show (Cache.memo (.empty r.archive.folders.length))[i]? = (List.replicate _ none)[i]?
    have hnone : ∀ folder, (Cache.empty r.archive.folders.length).kept? folder = none := by
      intro folder
      rw [Cache.kept?, Cache.slot_empty]
      rfl
    rw [Cache.memo, Cache.length_slots_empty, List.getElem?_map, List.getElem?_replicate]
    -- an entry for each folder, and none behind them
    rcases Nat.lt_or_ge i r.archive.folders.length with hlt | hle
    · rw [List.getElem?_range hlt, if_pos hlt, Option.map_some, hnone]
    · rw [List.getElem?_eq_none (List.length_range.trans_le hle), if_neg (Nat.not_lt.mpr hle)]
      rfl
  outside := rfl

end Session.IsNotedAs

namespace Reader

variable {r : Reader σ} {decode : Nat → StateM σ Outcome} {s : Session σ} {folder : Nat}

/-- A reader that does not know what it decodes with: decoding happens outside. -/
def DecodesOutside (r : Reader σ) (decode : Nat → StateM σ Outcome) : Prop :=
  ∀ folder, r.decode folder = Session.onOutside (decode folder)

/-- What is kept is given again, and nothing happens. -/
theorem folderOutcome_of_kept {kept : Kept} (htidy : s.cache.Tidy)
    (hkept : s.cache.kept? folder = some kept) :
    r.folderOutcome folder s = (some kept.outcome, s) := by
  have hholds := htidy folder
  rw [hkept] at hholds
  obtain ⟨ticket, hticket, houtcome⟩ := hholds.has.keeps.exists_ticket
  rw [folderOutcome_of_ticket hticket, houtcome]

/-- If nothing is kept, the folder is decoded, once. -/
theorem folderOutcome_of_empty (hr : r.DecodesOutside decode) (htidy : s.cache.Tidy)
    (hnone : s.cache.kept? folder = none) :
    r.folderOutcome folder s =
      (some (decode folder s.outside).1,
        { cache := s.cache.record folder (decode folder s.outside).1
          outside := (decode folder s.outside).2 }) := by
  have hholds := htidy folder
  rw [hnone] at hholds
  rw [folderOutcome_of_none hholds.has.keeps.ticket_eq_none, hr folder]
  rfl

end Reader

/-- **The reader keeps to the table.** -/
theorem Notebook.keepsTo {r : Reader σ} {decode : Nat → StateM σ Outcome}
    (hr : r.DecodesOutside decode) :
    r.access.KeepsTo (Notebook.access decode) r Session.IsNotedAs where
  output folder _ := by
    rintro s n ⟨htidy, hmemo, houtside⟩
    have hentry := Session.IsNotedAs.kept?_eq ⟨htidy, hmemo, houtside⟩ folder
    show (r.folderOutcome folder s).1 = (Notebook.output decode folder n).1 ∧
      (r.folderOutcome folder s).2.IsNotedAs (Notebook.output decode folder n).2
    cases hkept : n.entry folder with
    | some kept =>
      -- both answer from what is kept
      rw [folderOutcome_of_kept htidy (hentry.trans hkept), output_of_some hkept]
      exact ⟨rfl, htidy, hmemo, houtside⟩
    | none =>
      -- both decode, and write the same down
      have hnone := hentry.trans hkept
      rw [folderOutcome_of_empty hr htidy hnone, houtside, output_of_none hkept]
      refine ⟨rfl, htidy.record hnone _, ?_, rfl⟩
      show (s.cache.record folder _).memo = n.memo.set folder _
      rw [htidy.memo_record hnone, hmemo]
  decode folder _ := by
    show Agree _ (r.decode folder) (Notebook.onOutside (decode folder))
    rw [hr folder]
    exact Session.IsNotedAs.onOutside (decode folder)
  release folder := by
    rintro s n ⟨htidy, hmemo, houtside⟩
    show ((r.releaseFolder folder).run s).1 = (Notebook.release folder n).1 ∧
      ((r.releaseFolder folder).run s).2.IsNotedAs (Notebook.release folder n).2
    have hlength : n.memo.length = s.cache.slots.length := by
      rw [← hmemo, Cache.length_memo]
    rw [releaseFolder_run, Notebook.release, hlength]
    split
    · exact ⟨rfl, htidy, hmemo, houtside⟩
    · refine ⟨rfl, htidy.release folder, ?_, houtside⟩
      show (s.cache.release folder).memo = n.memo.set folder none
      rw [htidy.memo_release, hmemo]
  ask cancelled := Session.IsNotedAs.onOutside cancelled

/-! ### What a use changes of a table -/

/-- The folders of which a use may change what is kept. -/
def Reader.Use.Touches (r : Reader σ) (n : Notebook σ) (folder : Nat) : Use σ → Prop
  | .extract file => n.entry folder = none ∧ file < r.archive.entries.length ∧
      ∃ e, r.map.findFile file = some e ∧ e.folder = folder
  | .extractAll _ => n.entry folder = none ∧ folder ∈ r.map.backedFolders
  | .decodeUncached _ => False
  | .releaseFolder own => own = folder

namespace Notebook

variable {decode : Nat → StateM σ Outcome} {n : Notebook σ} {folder other : Nat}

theorem entry_set_ne {entry : Option Kept} (h : other ≠ folder) :
    Notebook.entry { n with memo := n.memo.set folder entry } other = n.entry other := by
  show (n.memo.set folder entry).getD other none = n.memo.getD other none
  rw [List.getD_eq_getElem?_getD, List.getD_eq_getElem?_getD, List.getElem?_set_ne (Ne.symm h)]

/-- To get the output of a folder changes nothing but the entry of that folder, if it is empty. -/
theorem entry_output (decode : Nat → StateM σ Outcome) (n : Notebook σ) (folder other : Nat) :
    (output decode folder n).2.entry other = n.entry other ∨
      n.entry other = none ∧ other = folder := by
  cases hentry : n.entry folder with
  | some kept =>
    rw [output_of_some hentry]
    exact .inl rfl
  | none =>
    rw [output_of_none hentry]
    by_cases hother : other = folder
    · exact .inr ⟨hother ▸ hentry, hother⟩
    · exact .inl (entry_set_ne hother)

theorem entry_gather (decode : Nat → StateM σ Outcome) (cancelled : StateM σ Bool)
    (folders : List Nat) (results : List FolderResult) (n : Notebook σ) (other : Nat) :
    ((access decode).gather cancelled folders results n).2.entry other = n.entry other ∨
      n.entry other = none ∧ other ∈ folders := by
  induction folders generalizing results n with
  | nil => exact .inl rfl
  | cons folder folders ih =>
    have hasked : (onOutside cancelled n).2.entry other = n.entry other := rfl
    rw [Access.gather, runState_bind]
    show Notebook.entry (Prod.snd ((if (onOutside cancelled n).1 = true then _ else _ :
      StateM (Notebook σ) _) _)) other = _ ∨ _
    split
    · -- nothing is done with this folder
      rcases ih (results.set folder .cancelled) (onOutside cancelled n).2 with hsame | ⟨hnone, hmem⟩
      · exact .inl (hsame.trans hasked)
      · exact .inr ⟨hasked.symm.trans hnone, List.mem_cons_of_mem _ hmem⟩
    · have hgot : (access decode).output folder ((access decode).ask cancelled n).2 =
          output decode folder (onOutside cancelled n).2 := rfl
      have hown := entry_output decode (onOutside cancelled n).2 folder other
      rw [hasked] at hown
      rw [runState_bind, hgot]
      generalize output decode folder (onOutside cancelled n).2 = got at hown
      -- either this folder was the one, or it is one of the rest
      have hrest : ∀ results,
          ((access decode).gather cancelled folders results got.2).2.entry other = n.entry other ∨
            n.entry other = none ∧ other ∈ folder :: folders := by
        intro results
        rcases hown with hsame | ⟨hnone, rfl⟩
        · rcases ih results got.2 with hsame' | ⟨hnone, hmem⟩
          · exact .inl (hsame'.trans hsame)
          · exact .inr ⟨hsame.symm.trans hnone, List.mem_cons_of_mem _ hmem⟩
        · exact .inr ⟨hnone, List.mem_cons_self⟩
      have hstays : got.2.entry other = n.entry other ∨
          n.entry other = none ∧ other ∈ folder :: folders := by
        rcases hown with hsame | ⟨hnone, rfl⟩
        · exact .inl hsame
        · exact .inr ⟨hnone, List.mem_cons_self⟩
      obtain ⟨_ | outcome, n'⟩ := got
      · exact hstays
      · dsimp only
        cases FolderResult.ofOutcome outcome with
        | ok result => exact hrest _
        | error fault => exact hstays

/-- **What a use leaves as it is.** It changes only entries that it is about, and if it gets
something, only empty ones. -/
theorem entry_use (decode : Nat → StateM σ Outcome) (r : Reader σ) (use : Use σ) (n : Notebook σ)
    (folder : Nat) (h : ((access decode).use r use n).2.entry folder ≠ n.entry folder) :
    use.Touches r n folder := by
  cases use with
  | extract file =>
    -- the entry of the file's folder may change if it is empty, and no other one
    have hne : ((access decode).extract r file n).2.entry folder ≠ n.entry folder := h
    unfold Access.extract at hne
    split at hne
    · exact absurd rfl hne
    · next hfile =>
      cases hspan : r.map.findFile file with
      | none =>
        rw [hspan] at hne
        exact absurd rfl hne
      | some e =>
        rw [hspan] at hne
        have hne : (output decode e.folder n).2.entry folder ≠ n.entry folder := hne
        obtain ⟨hnone, rfl⟩ := (entry_output decode n e.folder folder).resolve_left hne
        exact ⟨hnone, Nat.not_le.mp hfile, e, hspan, rfl⟩
  | extractAll cancelled =>
    exact (entry_gather decode cancelled _ _ n folder).resolve_left h
  | decodeUncached own =>
    have hne : ((access decode).decodeUncached r own n).2.entry folder ≠ n.entry folder := h
    unfold Access.decodeUncached at hne
    split at hne
    · exact absurd rfl hne
    · exact absurd rfl hne
  | releaseFolder own =>
    -- the entry of another folder would have stayed
    have hne : (release own n).2.entry folder ≠ n.entry folder := h
    unfold release at hne
    split at hne
    · exact absurd rfl hne
    · by_contra hother
      exact hne (entry_set_ne (Ne.symm hother))

end Notebook

/-! ### Decoding every time -/

/-- A way to get at the folders of a reader by decoding them every time. -/
def Reader.Access.plain (r : Reader σ) (decode : Nat → StateM σ Outcome) : Access σ σ where
  output folder := some <$> decode folder
  decode := decode
  release folder :=
    pure (if r.archive.folders.length ≤ folder then .error (.folderOutOfRange folder) else .ok ())
  ask cancelled := cancelled

/-- What is kept in a table is what decoding comes to. -/
structure Notebook.Repeats (outcomes : Nat → Outcome) (folders : Nat) (n : Notebook σ)
    (outside : σ) : Prop where
  outside : n.outside = outside
  length : n.memo.length = folders
  kept : ∀ {folder : Nat} {kept : Kept}, n.entry folder = some kept →
    kept.outcome = outcomes folder

namespace Notebook.Repeats

variable {outcomes : Nat → Outcome} {folders : Nat} {n : Notebook σ} {outside : σ}
  {decode : Nat → StateM σ Outcome}

theorem start (outcomes : Nat → Outcome) (folders : Nat) (outside : σ) :
    (Notebook.start folders outside).Repeats outcomes folders outside where
  outside := rfl
  length := List.length_replicate
  kept {folder kept} h := by
    have hsome : (List.replicate folders none).getD folder none = some kept := h
    rw [List.getD_eq_getElem?_getD, List.getElem?_replicate] at hsome
    split at hsome
    · cases hsome
    · cases hsome

/-- An entry is made of what decoding comes to, or is cleared. -/
theorem set (h : n.Repeats outcomes folders outside) {folder : Nat} {entry : Option Kept}
    (hentry : ∀ kept, entry = some kept → kept.outcome = outcomes folder) :
    Notebook.Repeats outcomes folders { n with memo := n.memo.set folder entry } outside where
  outside := h.outside
  length := List.length_set.trans h.length
  kept {other kept} hkept := by
    -- the new entry keeps the promise by assumption, the others by what they were
    by_cases hother : other = folder
    · subst hother
      have hset : (n.memo.set other entry).getD other none = some kept := hkept
      rw [List.getD_eq_getElem?_getD, List.getElem?_set, if_pos rfl] at hset
      split at hset
      · exact hentry kept hset
      · cases hset
    · rw [entry_set_ne hother] at hkept
      exact h.kept hkept

/-- **A table saves only time**, if decoding always comes to the same. -/
theorem keepsTo {r : Reader σ} (hdecode : ∀ folder outside,
    decode folder outside = (outcomes folder, outside)) :
    (Notebook.access decode).KeepsTo (Access.plain r decode) r
      (Notebook.Repeats outcomes r.archive.folders.length) where
  output folder _ := by
    intro n outside h
    show (Notebook.output decode folder n).1 = some (decode folder outside).1 ∧
      (Notebook.output decode folder n).2.Repeats outcomes _ (decode folder outside).2
    rw [hdecode]
    cases hentry : n.entry folder with
    | some kept =>
      -- what is kept is what another decode would come to
      rw [output_of_some hentry, h.kept hentry]
      exact ⟨rfl, h⟩
    | none =>
      rw [output_of_none hentry, hdecode]
      refine ⟨rfl, h.set fun kept hkept => ?_⟩
      exact (Kept.ofOutcome?_eq_some_iff.mp hkept).symm
  decode folder _ := by
    rintro n outside ⟨rfl, hlength, hkept⟩
    exact ⟨rfl, rfl, hlength, hkept⟩
  release folder := by
    intro n outside h
    show (Notebook.release folder n).1 = _ ∧
      (Notebook.release folder n).2.Repeats outcomes _ outside
    unfold Notebook.release
    rw [h.length]
    by_cases hfolder : r.archive.folders.length ≤ folder
    · rw [if_pos hfolder]
      exact ⟨(if_pos hfolder).symm, h⟩
    · rw [if_neg hfolder]
      exact ⟨(if_neg hfolder).symm, h.set nofun⟩
  ask cancelled := by
    rintro n outside ⟨rfl, hlength, hkept⟩
    exact ⟨rfl, rfl, hlength, hkept⟩

end Notebook.Repeats

namespace Reader

variable {r : Reader σ} {decode : Nat → StateM σ Outcome} {s : Session σ} {folder : Nat}

/-! ### Readers that remember -/

/-- The table has an entry for each folder, whatever is done. -/
theorem Access.keepsTo_length (r : Reader σ) (decode : Nat → StateM σ Outcome) (length : Nat) :
    (Notebook.access decode).KeepsTo (Notebook.access decode) r
      fun n n' => n = n' ∧ n.memo.length = length where
  output folder _ := Agree.self fun n hn => by
    show (Notebook.output decode folder n).2.memo.length = length
    cases hentry : n.entry folder with
    | some kept => rwa [Notebook.output_of_some hentry]
    | none =>
      rw [Notebook.output_of_none hentry]
      exact List.length_set.trans hn
  decode folder _ := Agree.self fun n hn => hn
  release folder := Agree.self fun n hn => by
    show (Notebook.release folder n).2.memo.length = length
    unfold Notebook.release
    split
    · exact hn
    · exact List.length_set.trans hn
  ask cancelled := Agree.self fun n hn => hn

/-- A reader that remembers what becomes of its folders, where `decode` is what decoding does. -/
structure Memoizes (r : Reader σ) (decode : Nat → StateM σ Outcome) : Prop where
  /-- After any number of uses the reader is a table, and has answered as the table does. -/
  refines : ∀ (outside : σ) (uses : List (Use σ)),
    let table := (Notebook.access decode).answers r uses (.start r.archive.folders.length outside)
    (r.answers uses (r.start outside)).1 = table.1 ∧
      (r.after (r.start outside) uses).IsNotedAs table.2 ∧
      table.2.memo.length = r.archive.folders.length
  cachedFolders_eq : ∀ {s : Session σ} {n : Notebook σ}, s.IsNotedAs n → s.cachedFolders = n.held
  /-- What is kept is given, and nothing is decoded. -/
  output_filled : ∀ {s : Session σ} {n : Notebook σ} {folder : Nat} {kept : Kept}, s.IsNotedAs n →
    n.entry folder = some kept → r.folderOutcome folder s = (some kept.outcome, s)
  /-- If nothing is kept, the folder is decoded once, and bytes and decode errors are kept. -/
  output_empty : ∀ {s : Session σ} {n : Notebook σ} {folder : Nat}, s.IsNotedAs n →
    n.entry folder = none →
    let ended := decode folder s.outside
    (r.folderOutcome folder s).1 = some ended.1 ∧
      (r.folderOutcome folder s).2.IsNotedAs
        { memo := n.memo.set folder (Kept.ofOutcome? ended.1), outside := ended.2 }
  release : ∀ {s : Session σ} {n : Notebook σ} {folder : Nat}, s.IsNotedAs n →
    folder < n.memo.length →
    ((r.releaseFolder folder).run s).1 = .ok () ∧
      ((r.releaseFolder folder).run s).2.IsNotedAs { n with memo := n.memo.set folder none }
  /-- No use changes an entry that it is not about. -/
  touches : ∀ {s : Session σ} {n : Notebook σ} (use : Use σ) (folder : Nat), s.IsNotedAs n →
    (use.after r s).cache.kept? folder ≠ s.cache.kept? folder → use.Touches r n folder
  /-- To decode past the cache leaves it alone. -/
  decodeUncached : ∀ (s : Session σ) (folder : Nat),
    ((r.decodeUncached folder).run s).2.cache = s.cache
  /-- What is out of range changes nothing, nor does a file without content. -/
  outOfRange : ∀ {s : Session σ} {n : Notebook σ} (index : Nat), s.IsNotedAs n →
    (n.memo.length ≤ index →
      (r.releaseFolder index).run s = (.error (.folderOutOfRange index), s)) ∧
      (r.archive.folders.length ≤ index →
        (r.decodeUncached index).run s = (.error (.folderOutOfRange index), s)) ∧
      (r.archive.entries.length ≤ index →
        (r.extract index).run s = (.error (.fileOutOfRange index), s)) ∧
      (index < r.archive.entries.length → r.map.findFile index = none →
        (r.extract index).run s = (.ok { file := index }, s))

/-- A reader that answers as if it remembered nothing. -/
structure AnswersAfresh (r : Reader σ) (decode : Nat → StateM σ Outcome) : Prop where
  plain : ∀ (outside : σ) (uses : List (Use σ)),
    (r.answers uses (r.start outside)).1 = ((Access.plain r decode).answers r uses outside).1
  fresh : ∀ (outside : σ) (uses : List (Use σ)) (use : Use σ),
    let s := r.after (r.start outside) uses
    (use.answer r s).1 = (use.answer r (r.start s.outside)).1

theorem DecodesOutside.memoizes (hr : r.DecodesOutside decode)
    (hmap : StreamMap.derive r.archive = .ok r.map)
    (hworkers : r.workerCount r.map.backedFolders.length ≤ 1) : r.Memoizes decode := by
  have hkeeps := Notebook.keepsTo hr
  constructor
  case refines =>
    -- the answers are those of the notebook, and its table keeps its length
    intro outside uses table
    obtain ⟨hanswers, hnoted⟩ := hkeeps.answers hmap uses _ _ (.start r outside)
    obtain ⟨-, -, hlength⟩ := (Access.keepsTo_length r decode r.archive.folders.length).answers hmap
      uses (.start r.archive.folders.length outside) _ ⟨rfl, List.length_replicate⟩
    rw [← answers_snd, answers_eq r hworkers]
    exact ⟨hanswers, hnoted, hlength⟩
  case cachedFolders_eq => exact fun hnoted => hnoted.cachedFolders_eq
  case output_filled =>
    intro s n folder kept hnoted hkept
    exact folderOutcome_of_kept hnoted.tidy ((hnoted.kept?_eq folder).trans hkept)
  case output_empty =>
    intro s n folder hnoted hnone ended
    have hempty := (hnoted.kept?_eq folder).trans hnone
    rw [folderOutcome_of_empty hr hnoted.tidy hempty]
    refine ⟨rfl, hnoted.tidy.record hempty _, ?_, rfl⟩
    show (s.cache.record folder _).memo = n.memo.set folder _
    rw [hnoted.tidy.memo_record hempty, hnoted.memo]
  case release =>
    intro s n folder hnoted hfolder
    obtain ⟨hanswer, hnoted'⟩ := hkeeps.release folder s n hnoted
    have hrelease : Notebook.release folder n =
        (.ok (), { n with memo := n.memo.set folder none }) := if_neg (Nat.not_le.mpr hfolder)
    have hright : (Notebook.access decode).release folder n = _ := hrelease
    rw [hright] at hanswer hnoted'
    exact ⟨hanswer, hnoted'⟩
  case touches =>
    -- what changes in the cache changes in the notebook
    intro s n use folder hnoted hne
    obtain ⟨-, hnoted'⟩ := hkeeps.use hmap use s n hnoted
    rw [← Use.answer_eq r hworkers, Use.answer_snd] at hnoted'
    rw [hnoted.kept?_eq, hnoted'.kept?_eq] at hne
    exact Notebook.entry_use decode r use n folder hne
  case decodeUncached =>
    intro s folder
    rw [decodeUncached_access]
    unfold Access.decodeUncached
    split
    · rfl
    · show (r.decode folder s).2.cache = s.cache
      rw [hr folder]
      rfl
  case outOfRange =>
    intro s n index hnoted
    refine ⟨fun hle => ?_, fun hle => ?_, fun hle => ?_, fun hlt hnone => ?_⟩
    · rw [← hnoted.memo, Cache.length_memo] at hle
      rw [releaseFolder_run, if_pos hle]
    · rw [decodeUncached_access, Access.decodeUncached, if_pos hle]
      rfl
    · rw [extract_access, Access.extract, if_pos hle]
      rfl
    · rw [extract_access, Access.extract, if_neg (Nat.not_le.mpr hlt), hnone]
      rfl

/-- A reader gains nothing but time if decoding always comes to the same. -/
theorem DecodesOutside.answersAfresh {outcomes : Nat → Outcome} (hr : r.DecodesOutside decode)
    (hdecode : ∀ folder outside, decode folder outside = (outcomes folder, outside))
    (hmap : StreamMap.derive r.archive = .ok r.map)
    (hworkers : r.workerCount r.map.backedFolders.length ≤ 1) : r.AnswersAfresh decode := by
  have hkeeps := (Notebook.keepsTo hr).trans (Notebook.Repeats.keepsTo (r := r) hdecode)
  have hstart : ∀ outside, Relation.Comp Session.IsNotedAs
      (Notebook.Repeats outcomes r.archive.folders.length) (r.start outside) outside :=
    fun outside => ⟨_, .start r outside, .start outcomes _ outside⟩
  constructor
  case plain =>
    intro outside uses
    rw [answers_eq r hworkers]
    exact (hkeeps.answers hmap uses _ _ (hstart outside)).1
  case fresh =>
    intro outside uses use s
    -- after the uses the session still stands for what is outside, as a fresh one does
    obtain ⟨-, n, hnoted, hrepeats⟩ := hkeeps.answers hmap uses _ _ (hstart outside)
    rw [← answers_eq r hworkers, answers_snd] at hnoted
    have houtside : s.outside = _ := hnoted.outside.trans hrepeats.outside
    have hsame := hkeeps.use hmap use s s.outside ⟨n, hnoted, houtside ▸ hrepeats⟩
    have hfresh := hkeeps.use hmap use (r.start s.outside) s.outside (hstart s.outside)
    rw [Use.answer_eq r hworkers]
    exact hsame.1.trans hfresh.1.symm

/-- A reader whose source and decoder are outside decodes outside. -/
theorem decodesOutside_of_lift {source : Source σ} {decoder : Decoder σ}
    (hsource : r.source = Session.liftSource source)
    (hdecoder : r.decoder = Session.liftDecoder decoder) :
    r.DecodesOutside fun folder =>
      (decodeFolder r.archive r.map source decoder r.config folder).run := by
  intro folder
  funext s
  -- outside, the decode does what it would do without a session
  have hlowers : Lowers Session.outside
      (decodeFolder r.archive r.map r.source r.decoder r.config folder)
      (decodeFolder r.archive r.map source decoder r.config folder) := by
    rw [hsource, hdecoder]
    refine decodeFolder_lowers Session.outside _ _ ?_ ?_ _ _
    · exact fun _ _ _ => rfl
    · exact fun _ _ _ _ => rfl
  -- and it leaves the cache alone
  have hkeeps : Ensures (decodeFolder r.archive r.map r.source r.decoder r.config folder) s
      (fun _ s' => s'.cache = s.cache) (fun _ s' => s'.cache = s.cache) := by
    rw [hsource, hdecoder]
    exact decodeFolder_keeps _ _ (fun _ _ _ h => h) (fun _ _ _ _ h => h) rfl
  have hcache := (Ensures.always_iff (P := fun s' : Session σ => s'.cache = s.cache)).mp hkeeps
  have houtside := hlowers s
  show (decodeFolder r.archive r.map r.source r.decoder r.config folder).run s =
    ((decodeFolder r.archive r.map source decoder r.config folder).run s.outside |>.1,
      { s with outside :=
          ((decodeFolder r.archive r.map source decoder r.config folder).run s.outside).2 })
  rw [← houtside]
  generalize (decodeFolder r.archive r.map r.source r.decoder r.config folder).run s = ended
    at hcache
  obtain ⟨outcome, cache, outside⟩ := ended
  obtain rfl : cache = s.cache := hcache
  rfl

/-- **A reader is a table of what became of its folders.** Used by one worker at a time, with a
source and a decoder outside of it that may do anything, it answers as the table does, and its cache
says what the table says. If source and decoder always do the same, it answers as if it had no
table. -/
theorem ofArchive_memoizes {a : Archive} {source : Source σ} {decoder : Decoder σ} {config : Config}
    (h : ofArchive a (some (Session.liftSource source)) (Session.liftDecoder decoder) config =
      .ok r)
    (hworkers : r.workerCount r.map.backedFolders.length ≤ 1) :
    let decode : Nat → StateM σ Outcome :=
      fun folder => (decodeFolder a r.map source decoder config folder).run
    r.Memoizes decode ∧
      ((∃ size read run, source = .pure size read ∧ decoder = .pure run) →
        r.AnswersAfresh decode) := by
  intro decode
  obtain ⟨hmap, rfl, hsource, hdecoder, rfl⟩ := ofArchive_ok h
  have hr := decodesOutside_of_lift (Option.some.inj hsource).symm hdecoder
  refine ⟨hr.memoizes hmap hworkers, ?_⟩
  rintro ⟨size, read, run, rfl, rfl⟩
  have hsource : r.source = .pure size read := (Option.some.inj hsource).symm
  have hdecoder : r.decoder = .pure run := hdecoder
  obtain ⟨outcomes, hdetermined⟩ := determined_of_pure hsource hdecoder
  have hdecode : ∀ folder outside, decode folder outside = (outcomes folder, outside) := by
    intro folder outside
    -- decoding outside is decoding in any session that has the outside
    have hended : Session.onOutside (decode folder) { cache := .empty 0, outside } = _ :=
      (congrFun (hr folder) _).symm.trans (hdetermined folder _)
    have hanswer := congrArg Prod.fst hended
    have houtside := congrArg (fun ended => ended.2.outside) hended
    exact Prod.ext hanswer houtside
  exact hr.answersAfresh hdecode hmap hworkers

/-- A decoder that ends with something that is no error, then fails, and works from the third time
on. The failure is kept, so that the third time comes only after a release. -/
theorem ofArchive_memoizes_moody :
    let a : Archive :=
      { packSizes := [2], folders := [{ coders := [{ methodId := [0] }] }]
        substreams := some
          { counts := [1], sizes := [2], crcs := [none], counts_sum := rfl, crcs_length := rfl }
        entries := [{ name := "a" }] }
    let source : Source Nat := .ofBytes [10, 11]
    let moody : Decoder Nat := fun coder inputs expected calls =>
      (if calls = 0 then .error (.foreign ⟨0⟩) else if calls = 1 then .error (.failure "moody")
        else Decoder.runBuiltin coder inputs expected, calls + 1)
    let uses : List (Use Nat) := [.extract 0, .extract 0, .extract 0]
    ∃ r r' : Reader Nat,
      ofArchive a (some (Session.liftSource source)) (Session.liftDecoder moody) {} = .ok r ∧
        r.Memoizes (fun folder => (decodeFolder a r.map source moody {} folder).run) ∧
        (r.after (r.start 0) uses).outside = 2 ∧
        (r.after (r.start 0) (uses ++ [.releaseFolder 0, .extract 0])).cachedFolders = 1 ∧
      ofArchive a (some (Session.liftSource source)) (Session.liftDecoder .builtin) {} = .ok r' ∧
        r'.AnswersAfresh (fun folder => (decodeFolder a r'.map source .builtin {} folder).run) := by
  intro a source moody uses
  refine ⟨_, _, rfl, ?_, by decide +kernel, by decide +kernel, rfl, ?_⟩
  · exact (ofArchive_memoizes (a := a) rfl (by decide)).1
  · exact (ofArchive_memoizes (a := a) rfl (by decide)).2 ⟨_, _, _, rfl, rfl⟩

end Reader

end SolidArchive
