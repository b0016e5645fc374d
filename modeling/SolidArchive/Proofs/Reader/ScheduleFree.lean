import SolidArchive.Proofs.Reader.Idle

/-!
# Extracting all files in any order

If source and decoder are functions, it does not matter who decodes which folder and when. Whoever
goes through all folders that have files comes to the same (`Reader.DecodesByOutcomes`): if no
folder ends the extraction, each result is the one that the outcome of the folder stands for, and
the cache keeps what it can of all of them; else the extraction fails as one of the folders does
that would end it.

For one worker this is an induction over the folders. For several workers it has three parts, from
three invariants of the pool under any schedule: what is written is true (`Pool.Sound`), no folder
is forgotten (`Pool.Accounts`), and the workers do not disturb each other (`Pool.Undisturbed`). The
first two are about the results, and they speak of scenes. A crowd is one (`Crowd.Run.reachable`),
so they apply after anything that may have happened to the cache before (`Crowd.Run.settled`).

What the files come to is cut out of the results (`Reader.cutAll`), so it is the same as well
(`Reader.ofArchive_scheduleFree`).
-/

namespace SolidArchive

open Reader

variable {σ : Type} {r : Reader σ} {outcomes : Nat → Outcome} {entries : Nat → Holding}

/-- Nothing is skipped unless somebody says that the extraction is cancelled. -/
theorem FolderResult.Stands.ne_cancelled {folder : Nat} {result : FolderResult}
    (h : result.Stands r (pure false) folder) : result ≠ .cancelled := by
  rintro rfl
  obtain ⟨_, hcancelled⟩ := h
  cases hcancelled

namespace Reader

variable {c : Scene σ} {s : Session σ} {folders : List Nat} {folder : Nat}
  {cancelled : StateM σ Bool} {x y : ReaderM σ (List FolderResult)}

/-! ### Decoding by outcomes -/

/-- What decoding some folders comes to if it does not matter who does it and when. -/
def DecodesByOutcomes (outcomes : Nat → Outcome) (entries : Nat → Holding) (folders : List Nat)
    (x : ReaderM σ (List FolderResult)) (s : Session σ) : Prop :=
  Ensures x s
    (fun results s' =>
      (∀ folder ∈ folders, FolderResult.ofOutcome (outcomes folder) =
        .ok (results.getD folder .untouched)) ∧
      s'.cache.Settled outcomes (Holding.after folders outcomes entries) ∧
      s'.cache.slots.length = s.cache.slots.length)
    (fun fault _ => ∃ own, fault = .folder own ∧
      ∃ folder ∈ folders, FolderResult.ofOutcome (outcomes folder) = .error own)

/-- What ends an extraction, where each folder has one outcome. -/
theorem Determined.ends_iff (hr : r.Determined outcomes) (s : Session σ) {fault : FolderFault} :
    r.Ends folders fault ↔
      ∃ folder ∈ folders, FolderResult.ofOutcome (outcomes folder) = .error fault := by
  constructor
  · rintro ⟨folder, hfolder, hcan, hends⟩
    refine ⟨folder, hfolder, ?_⟩
    rw [hr.eq_of_canDecode hcan]
    exact hends
  · rintro ⟨folder, hfolder, hends⟩
    have houtcome := FolderResult.ofOutcome_error hends
    rw [houtcome] at hends
    refine ⟨folder, hfolder, ⟨s, ?_⟩, hends⟩
    rw [hr folder s]
    exact houtcome

/-- A result is that of the folder's only outcome, unless the folder was skipped. -/
theorem Determined.ofOutcome_eq (hr : r.Determined outcomes) {results : List FolderResult}
    (h : r.Gathered cancelled folders results) (hmem : folder ∈ folders)
    (hlt : folder < r.archive.folders.length)
    (hskipped : results.getD folder .untouched ≠ .cancelled) :
    FolderResult.ofOutcome (outcomes folder) = .ok (results.getD folder .untouched) := by
  have hstands := h.getD_stands folder
  -- a folder that is asked for has been done
  have hdone : results.getD folder .untouched ≠ .untouched := by
    have hlength : folder < results.length := hlt.trans_eq h.length_eq.symm
    rw [List.getD_eq_getElem _ _ hlength]
    intro huntouched
    refine h.done folder hmem ?_
    rw [List.getElem?_eq_getElem hlength, huntouched]
  generalize results.getD folder .untouched = result at hstands hdone hskipped
  -- what is left is an end of its decode
  cases result with
  | untouched => exact absurd rfl hdone
  | cancelled => exact absurd rfl hskipped
  | failed error =>
    rw [hr.eq_of_canDecode hstands]
    rfl
  | decoded output =>
    rw [hr.eq_of_canDecode hstands]
    rfl

/-- Of all that can be said of those who decode folders this remains, if they do not end up
waiting. -/
theorem Determined.decodesByOutcomes (hr : r.Determined outcomes)
    (hlt : ∀ folder ∈ folders, folder < r.archive.folders.length)
    (hsound : Ensures x s
      (fun results s' => r.LeadsTo c s' ∧ r.Gathered (pure false) folders results)
      (fun fault s' => r.LeadsTo c s' ∧ r.Fails folders fault))
    (hends : Ensures x s
      (fun _ s' => s'.cache.Settled outcomes (Holding.after folders outcomes entries) ∧
        s'.cache.slots.length = s.cache.slots.length)
      (fun fault _ => fault ≠ .stalled)) : DecodesByOutcomes outcomes entries folders x s := by
  refine (hsound.and hends).mono ?_ ?_
  · rintro results s' ⟨⟨-, hgathered⟩, hsettled, hlength⟩
    refine ⟨fun folder hmem => ?_, hsettled, hlength⟩
    exact hr.ofOutcome_eq hgathered hmem (hlt folder hmem)
      (hgathered.getD_stands folder).ne_cancelled
  · rintro fault s' ⟨⟨-, hfails⟩, hne⟩
    obtain ⟨own, heq, hown⟩ := hfails.resolve_left hne
    exact ⟨own, heq, (hr.ends_iff s).mp hown⟩

section

variable (hr : r.Determined outcomes) (hacts : r.ActsByAdvances) (hc : r.Reachable c)
  (hsettled : c.cache.Settled outcomes entries)
  (hslots : c.cache.slots.length = r.archive.folders.length)
  (hlt : ∀ folder ∈ folders, folder < r.archive.folders.length)

include hr hacts hc hsettled hslots hlt

/-- **One worker** decodes by the outcomes: it never has to wait, its results stand, and each of its
calls leaves what can be kept. -/
theorem decodeInOrder_decodesByOutcomes :
    DecodesByOutcomes outcomes entries folders (r.decodeInOrder (pure false) folders
      (List.replicate r.archive.folders.length .untouched)) c.session := by
  have hlt' : ∀ folder ∈ folders, folder < c.session.cache.slots.length :=
    fun folder hfolder => (hlt folder hfolder).trans_eq hslots.symm
  refine hr.decodesByOutcomes hlt (decodeInOrder_gathers hacts hc folders) ?_
  refine ((decodeInOrder_alone hr hsettled.rests _).and
    (decodeInOrder_settled hr hsettled hlt' _)).mono ?_ ?_
  · exact fun results s' h => h.2
  · exact fun fault s' h => h.1.2

/-- **Several workers** under any schedule that brings them to their end. -/
theorem decodeInPool_decodesByOutcomes (hnodup : folders.Nodup) {schedule : List Nat}
    {workers : Nat} (hworkers : 0 < workers)
    (hdone : (Pool.run r (pure false) folders schedule (.start workers r.archive.folders.length)
      c.session).1.isDone = true) :
    DecodesByOutcomes outcomes entries folders
      (r.decodeInPool (pure false) folders schedule workers) c.session := by
  have hlt' : ∀ folder ∈ folders, folder < c.session.cache.slots.length :=
    fun folder hfolder => (hlt folder hfolder).trans_eq hslots.symm
  refine hr.decodesByOutcomes hlt
    (decodeInPool_ensures (pure false) hacts hc folders schedule hworkers) ?_
  -- the pool keeps account of the folders, and leaves what one worker would leave
  have haccounts := (Pool.Accounts.start hworkers folders r.archive.folders.length).run r
    (pure false) schedule c.session
  obtain ⟨_, -, -, hsound⟩ :=
    (Pool.Sound.start r (pure false) folders c workers).run hacts hc schedule
  have hended := fun hall =>
    Pool.settled_run hr hsettled hnodup hlt' hlt hdone hall fun folder hskipped =>
      (hsound.results.stands hskipped).ne_cancelled rfl
  have hrun : Ensures ((Pool.run r (pure false) folders schedule
      (.start workers r.archive.folders.length) : StateM (Session σ) Pool) : ReaderM σ Pool)
      c.session
      (fun p s' => p.Accounts folders ∧ p.isDone = true ∧ (folders.length ≤ p.next →
        s'.cache.Settled outcomes (Holding.after folders outcomes entries) ∧
          s'.cache.slots.length = c.session.cache.slots.length))
      (fun fault _ => fault ≠ .stalled) := ⟨haccounts, hdone, hended⟩
  unfold decodeInPool
  refine hrun.bind ?_
  rintro p s' ⟨haccounts, hdone, hended⟩
  -- all folders are taken if there is no fault, and a pool that is done has not stalled
  cases hfinish : p.finish with
  | ok results => exact Ensures.pure (hended (haccounts.all_taken hfinish))
  | error fault =>
    refine Ensures.throw ?_
    rintro rfl
    exact Pool.finish_ne_stalled hdone hfinish

end

end Reader

/-! ### What is cut out of it -/

/-- The result of a file where each folder has one outcome: that of its folder, cut. -/
def FileSpan.Yields (outcomes : Nat → Outcome) (e : FileSpan) (x : ExtractResult) : Prop :=
  x.file = e.file ∧ ∃ result, FolderResult.ofOutcome (outcomes e.folder) = .ok result ∧
    e.extraction result = .ok x.extraction

theorem FileSpan.yields_unique (outcomes : Nat → Outcome) :
    Relator.RightUnique (FileSpan.Yields outcomes) := by
  rintro e ⟨file, extraction⟩ ⟨file', extraction'⟩ ⟨hfile, result, hresult, hx⟩
    ⟨hfile', result', hresult', hx'⟩
  obtain rfl : file = e.file := hfile
  obtain rfl : file' = e.file := hfile'
  obtain rfl := Except.ok.inj (hresult.symm.trans hresult')
  obtain rfl : extraction = extraction' := Except.ok.inj (hx.symm.trans hx')
  rfl

namespace Reader

variable {c : Scene σ} {s : Session σ} {folders : List Nat} {folder : Nat}
  {x y : ReaderM σ (List FolderResult)} {schedule : List Nat}

/-- Cuts all files out of what decoding their folders comes to. -/
def cutAll (r : Reader σ) (x : ReaderM σ (List FolderResult)) : ReaderM σ (List ExtractResult) := do
  let results ← x
  match collectFiles results r.map.files with
  | .ok extracted => pure extracted
  | .error error => throw (.folder (.decode error))

theorem extractAll_eq_cutAll (r : Reader σ) (cancelled : StateM σ Bool) :
    r.extractAll cancelled = r.cutAll (r.decodeAll cancelled) := rfl

theorem exists_ok_of_cutAll {extracted : List ExtractResult}
    (h : ((r.cutAll x).run s).1 = .ok extracted) : ∃ results, (x.run s).1 = .ok results := by
  rw [cutAll, runExcept_bind] at h
  rcases hx : x.run s with ⟨fault | results, s'⟩
  · rw [hx] at h
    cases h
  · exact ⟨results, rfl⟩

/-- **Results that the outcomes stand for are cut without a fault**, and in only one way. -/
theorem DecodesByOutcomes.cutAll (h : DecodesByOutcomes outcomes entries r.map.backedFolders x s)
    (hr : r.Determined outcomes) (hmap : StreamMap.derive r.archive = .ok r.map) :
    Ensures (r.cutAll x) s
      (fun extracted s' => (∀ fault, ¬r.Ends r.map.backedFolders fault) ∧
        List.Forall₂ (FileSpan.Yields outcomes) r.map.files extracted ∧
        s'.cache.Settled outcomes (Holding.after r.map.backedFolders outcomes entries) ∧
        s'.cache.slots.length = s.cache.slots.length)
      (fun fault _ => ∃ own, fault = .folder own ∧ r.Ends r.map.backedFolders own) := by
  simp only [hr.ends_iff s]
  unfold Reader.cutAll
  refine Ensures.bind h ?_
  rintro results s' ⟨hresults, hsettled, hlength⟩
  -- the result of each file can be cut
  have hfile : ∀ e ∈ r.map.files, ∃ x,
      e.extraction (results.getD e.folder .untouched) = .ok x := by
    intro e he
    have hcan : r.CanDecode e.folder (outcomes e.folder) := ⟨s, congrArg Prod.fst (hr e.folder s)⟩
    have hstands : FolderResult.Stands r (pure false) e.folder _ :=
      FolderResult.stands_of_ofOutcome (hresults e.folder (backed_of_mem hmap he)) hcan
    obtain ⟨x, hx, -⟩ := extraction_ok hmap he hstands
    exact ⟨x, hx⟩
  obtain ⟨extracted, hcollect, hall⟩ := SolidArchive.collectFiles_ok hfile
  rw [hcollect]
  refine Ensures.pure ⟨?_, ?_, hsettled, hlength⟩
  · rintro fault ⟨folder, hfolder, hends⟩
    exact nomatch (hresults folder hfolder).symm.trans hends
  · refine List.forall₂_iff_zip.mpr ⟨hall.length_eq, fun {e x} hmem => ?_⟩
    obtain ⟨hfile, hx⟩ := (List.forall₂_iff_zip.mp hall).2 hmem
    have he : e ∈ r.map.files := (List.of_mem_zip hmem).1
    exact ⟨hfile, _, hresults e.folder (backed_of_mem hmap he), hx⟩

/-- Two ways to decode all folders come to the same files, and to caches that keep the same. -/
theorem DecodesByOutcomes.cutAll_agree
    (hx : DecodesByOutcomes outcomes entries r.map.backedFolders x s)
    (hy : DecodesByOutcomes outcomes entries r.map.backedFolders y s) (hr : r.Determined outcomes)
    (hmap : StreamMap.derive r.archive = .ok r.map)
    (hnone : ∀ fault, ¬r.Ends r.map.backedFolders fault) :
    ∃ extracted s₁ s₂, (r.cutAll x).run s = (.ok extracted, s₁) ∧
      (r.cutAll y).run s = (.ok extracted, s₂) ∧ s₁.cache.memo = s₂.cache.memo ∧
      s₁.cachedFolders = s₂.cachedFolders := by
  have hxs := hx.cutAll hr hmap
  have hys := hy.cutAll hr hmap
  unfold Ensures at hxs hys
  rcases hxrun : (r.cutAll x).run s with ⟨fault | extracted, s₁⟩
  · rw [hxrun] at hxs
    obtain ⟨own, -, hends⟩ := hxs
    exact absurd hends (hnone own)
  rcases hyrun : (r.cutAll y).run s with ⟨fault | extracted', s₂⟩
  · rw [hyrun] at hys
    obtain ⟨own, -, hends⟩ := hys
    exact absurd hends (hnone own)
  rw [hxrun] at hxs
  rw [hyrun] at hys
  obtain ⟨-, hfiles, hsettled, hlength⟩ := hxs
  obtain ⟨-, hfiles', hsettled', hlength'⟩ := hys
  -- both are made of the same outcomes, and both caches keep the same
  obtain rfl : extracted = extracted' :=
    (FileSpan.yields_unique outcomes).forall₂ hfiles hfiles'
  have hlengths := hlength.trans hlength'.symm
  exact ⟨extracted, s₁, s₂, rfl, rfl, hsettled'.memo_eq hsettled hlengths,
    hsettled'.decodedCount_eq hsettled hlengths⟩

/-- A folder that ends the extraction does end it, or another one does. -/
theorem DecodesByOutcomes.cutAll_error
    (hx : DecodesByOutcomes outcomes entries r.map.backedFolders x s)
    (hr : r.Determined outcomes) (hmap : StreamMap.derive r.archive = .ok r.map)
    {fault : FolderFault} (hends : r.Ends r.map.backedFolders fault) :
    ∃ own, ((r.cutAll x).run s).1 = .error (.folder own) ∧ r.Ends r.map.backedFolders own := by
  have hxs := hx.cutAll hr hmap
  cases hend : ((r.cutAll x).run s).1 with
  | ok extracted => exact absurd hends ((hxs.ok hend).1 fault)
  | error fault' =>
    obtain ⟨own, rfl, hown⟩ := hxs.error hend
    exact ⟨own, rfl, hown⟩

/-! ### Extractions under a schedule -/

/-- The reader with one worker. -/
def oneByOne (r : Reader σ) : Reader σ := { r with config := { r.config with concurrency := 1 } }

/-- Decodes all folders that have files, with several workers under the given schedule. If one is
enough it is the caller itself, and there is nothing to schedule. -/
def decodeAllUnder (r : Reader σ) (schedule : List Nat) : ReaderM σ (List FolderResult) :=
  let folders := r.map.backedFolders
  let workers := r.workerCount folders.length
  if workers ≤ 1 then
    r.decodeInOrder (pure false) folders (List.replicate r.archive.folders.length .untouched)
  else r.decodeInPool (pure false) folders schedule workers

/-- Extracts all files, with several workers under the given schedule. -/
def extractAllUnder (r : Reader σ) (schedule : List Nat) : ReaderM σ (List ExtractResult) :=
  r.cutAll (r.decodeAllUnder schedule)

/-- All workers come to their end under the schedule. -/
def Finishes (r : Reader σ) (schedule : List Nat) (s : Session σ) : Prop :=
  let folders := r.map.backedFolders
  let workers := r.workerCount folders.length
  workers ≤ 1 ∨ (Pool.run r (pure false) folders schedule
    (.start workers r.archive.folders.length) s).1.isDone = true

theorem oneByOne_workerCount (r : Reader σ) (folders : Nat) :
    r.oneByOne.workerCount folders = 1 := if_neg (lt_irrefl 1)

/-- One worker has no schedule. -/
theorem oneByOne_extractAll (r : Reader σ) (schedule : List Nat) :
    r.oneByOne.extractAll (pure false) = r.cutAll (r.oneByOne.decodeAllUnder schedule) := by
  have hone := (r.oneByOne_workerCount r.oneByOne.map.backedFolders.length).le
  rw [extractAll_eq_cutAll]
  unfold decodeAll decodeAllUnder
  dsimp only
  rw [if_pos hone, if_pos hone]
  rfl

/-- The folders that a single worker takes, until one of them ends the extraction. -/
def takenInOrder (r : Reader σ) : List Nat → Session σ → List Nat
  | [], _ => []
  | folder :: folders, s =>
    folder :: match (r.decodeOne (pure false) folder).run s with
      | (.ok _, s') => takenInOrder r folders s'
      | (.error _, _) => []

/-- Who takes which folder. Workers have numbers, and the caller itself has none. -/
def takers (r : Reader σ) (schedule : List Nat) (s : Session σ) : List (Option Nat × Nat) :=
  let folders := r.map.backedFolders
  let workers := r.workerCount folders.length
  if workers ≤ 1 then (r.takenInOrder folders s).map fun folder => (none, folder)
  else (Pool.takes r (pure false) folders schedule (.start workers r.archive.folders.length) s).map
    fun taken => (some taken.1, taken.2)

theorem takenInOrder_prefix (r : Reader σ) (folders : List Nat) (s : Session σ) :
    r.takenInOrder folders s <+: folders := by
  induction folders generalizing s with
  | nil => exact List.prefix_refl _
  | cons folder folders ih =>
    unfold takenInOrder
    refine (List.prefix_cons_inj folder).mpr ?_
    split
    · exact ih _
    · exact List.nil_prefix

theorem takenInOrder_eq {results results' : List FolderResult}
    (h : ((r.decodeInOrder (pure false) folders results).run s).1 = .ok results') :
    r.takenInOrder folders s = folders := by
  induction folders generalizing s results with
  | nil => rfl
  | cons folder folders ih =>
    rw [decodeInOrder, runExcept_bind] at h
    rw [takenInOrder]
    rcases hone : (r.decodeOne (pure false) folder).run s with ⟨fault | result, s'⟩
    · rw [hone] at h
      cases h
    · rw [hone] at h
      exact congrArg (folder :: ·) (ih h)

theorem takers_of_one (h : r.workerCount r.map.backedFolders.length ≤ 1) :
    (r.takers schedule s).map Prod.snd = r.takenInOrder r.map.backedFolders s := by
  rw [takers, if_pos h, List.map_map]
  exact List.map_id _

/-- Several workers have taken as many folders as the counter says. -/
theorem takers_of_many (h : ¬r.workerCount r.map.backedFolders.length ≤ 1) :
    (r.takers schedule s).map Prod.snd = r.map.backedFolders.take (Pool.run r (pure false)
      r.map.backedFolders schedule (.start (r.workerCount r.map.backedFolders.length)
        r.archive.folders.length) s).1.next := by
  rw [takers, if_neg h, List.map_map, ← Pool.folders_takes]
  rfl

/-- Folders are taken in order. -/
theorem takers_prefix (r : Reader σ) (schedule : List Nat) (s : Session σ) :
    (r.takers schedule s).map Prod.snd <+: r.map.backedFolders := by
  by_cases hone : r.workerCount r.map.backedFolders.length ≤ 1
  · rw [takers_of_one hone]
    exact takenInOrder_prefix r _ s
  · rw [takers_of_many hone]
    exact List.take_prefix _ _

/-- All folders are taken unless one of them ends the extraction. -/
theorem takers_eq {results : List FolderResult}
    (h : ((r.decodeAllUnder schedule).run s).1 = .ok results) :
    (r.takers schedule s).map Prod.snd = r.map.backedFolders := by
  unfold decodeAllUnder at h
  dsimp only at h
  -- one worker takes all in order, and several take them by the counter
  split at h
  · next hone =>
    rw [takers_of_one hone]
    exact takenInOrder_eq h
  · next hmany =>
    rw [takers_of_many hmany]
    rw [decodeInPool_run] at h
    have hworkers : 0 < r.workerCount r.map.backedFolders.length := by omega
    have haccounts := (Pool.Accounts.start hworkers r.map.backedFolders
      r.archive.folders.length).run r (pure false) schedule s
    exact List.take_of_length_le (haccounts.all_taken h)

/-- If every folder is taken once, it is taken by one. -/
theorem existsUnique_taker {log : List (Option Nat × Nat)} (hnodup : (log.map Prod.snd).Nodup)
    (hmem : folder ∈ log.map Prod.snd) : ∃! taker, (taker, folder) ∈ log := by
  obtain ⟨⟨taker, own⟩, htaken, rfl⟩ := List.mem_map.mp hmem
  refine ⟨taker, htaken, fun other hother => ?_⟩
  exact congrArg Prod.fst (List.inj_on_of_nodup_map hnodup hother htaken rfl)

/-- Whatever schedule brings the workers to their end, they have decoded all folders. -/
theorem decodeAllUnder_decodesByOutcomes (hr : r.Determined outcomes) (hacts : r.ActsByAdvances)
    (hmap : StreamMap.derive r.archive = .ok r.map) (hc : r.Reachable c)
    (hsettled : c.cache.Settled outcomes entries)
    (hslots : c.cache.slots.length = r.archive.folders.length)
    (hfinishes : r.Finishes schedule c.session) :
    DecodesByOutcomes outcomes entries r.map.backedFolders (r.decodeAllUnder schedule)
      c.session := by
  have hlt : ∀ folder ∈ r.map.backedFolders, folder < r.archive.folders.length :=
    fun _ => lt_of_mem_backedFolders hmap
  unfold decodeAllUnder
  dsimp only
  split
  · exact decodeInOrder_decodesByOutcomes hr hacts hc hsettled hslots hlt
  · next hmany =>
    exact decodeInPool_decodesByOutcomes hr hacts hc hsettled hslots hlt (nodup_backedFolders r.map)
      (Nat.zero_lt_one.trans (Nat.lt_of_not_le hmany)) (hfinishes.resolve_left hmany)

section

variable (hr : r.Determined outcomes) (hmap : StreamMap.derive r.archive = .ok r.map)
  (hidle : r.Idle s)

include hr hmap hidle

/-- Workers whose turns are fair finish, and a single one needs none. -/
theorem Idle.finishes (hfair : Pool.Fair (r.workerCount r.map.backedFolders.length)
    r.map.backedFolders.length schedule) : r.Finishes schedule s :=
  .inr (hidle.isDone_run hr hmap (pure false) hfair)

variable (hacts : r.ActsByAdvances)

include hacts

/-- **Extracting all files** gives a result of each, if no folder ends the extraction. -/
theorem Idle.extractAllUnder_ok (hnone : ∀ fault, ¬r.Ends r.map.backedFolders fault)
    (hfinishes : r.Finishes schedule s) :
    ∃ extracted, ((r.extractAllUnder schedule).run s).1 = .ok extracted ∧
      List.Forall₂ (FileSpan.Yields outcomes) r.map.files extracted := by
  obtain ⟨c, rfl, hc, ⟨entries, hsettled⟩, hslots⟩ := hidle.exists_scene hr
  have hdecodes := decodeAllUnder_decodesByOutcomes hr hacts hmap hc hsettled hslots hfinishes
  have hcut := hdecodes.cutAll hr hmap
  cases hend : ((r.extractAllUnder schedule).run c.session).1 with
  | ok extracted => exact ⟨extracted, rfl, (hcut.ok hend).2.1⟩
  | error fault =>
    obtain ⟨own, -, hown⟩ := hcut.error hend
    exact absurd hown (hnone own)

/-- And these are the same under every schedule. -/
theorem Idle.extractAllUnder_eq (hnone : ∀ fault, ¬r.Ends r.map.backedFolders fault)
    (hfinishes : r.Finishes schedule s) {extracted : List ExtractResult}
    (hyields : List.Forall₂ (FileSpan.Yields outcomes) r.map.files extracted) :
    ((r.extractAllUnder schedule).run s).1 = .ok extracted := by
  obtain ⟨other, hend, hother⟩ := hidle.extractAllUnder_ok hr hmap hacts hnone hfinishes
  obtain rfl := (FileSpan.yields_unique outcomes).forall₂ hother hyields
  exact hend

end

/-- The schedule does not matter when all files are extracted. -/
structure ScheduleFree (r : Reader σ) (s : Session σ) : Prop where
  /-- To extract all files is to do so under one of the schedules that come to an end. -/
  extractAll_eq : ∃ schedule, r.Finishes schedule s ∧
    r.extractAll (pure false) = r.extractAllUnder schedule
  /-- Whatever the workers have done so far, they come to their end if each has turns enough. -/
  finishes : ∀ before later : List Nat,
    Pool.Fair (r.workerCount r.map.backedFolders.length) r.map.backedFolders.length later →
      r.Finishes (before ++ later) s
  /-- Folders are taken in order, so none is taken twice. -/
  taken : ∀ schedule, (r.takers schedule s).map Prod.snd <+: r.map.backedFolders
  /-- Each of them is taken by one, unless one of them ends the extraction. -/
  takenOnce : ∀ schedule extracted, ((r.extractAllUnder schedule).run s).1 = .ok extracted →
    ∀ folder ∈ r.map.backedFolders, ∃! taker, (taker, folder) ∈ r.takers schedule s
  /-- If no folder does, all files are there, as they are with one worker, and the same folders are
  kept. -/
  returns : (∀ fault, ¬r.Ends r.map.backedFolders fault) → ∀ schedule, r.Finishes schedule s →
    ∃ extracted s₁ s₂, (r.extractAllUnder schedule).run s = (.ok extracted, s₁) ∧
      (r.oneByOne.extractAll (pure false)).run s = (.ok extracted, s₂) ∧
      s₁.cache.memo = s₂.cache.memo ∧ s₁.cachedFolders = s₂.cachedFolders
  /-- And if one does, there are no files, but what one of them has come to. -/
  throws : ∀ fault, r.Ends r.map.backedFolders fault → ∀ schedule, r.Finishes schedule s →
    ∃ own, ((r.extractAllUnder schedule).run s).1 = .error (.folder own) ∧
      r.Ends r.map.backedFolders own

theorem Determined.scheduleFree (hr : r.Determined outcomes) (hacts : r.ActsByAdvances)
    (hone : r.oneByOne.ActsByAdvances) (hmap : StreamMap.derive r.archive = .ok r.map)
    (hc : r.Reachable c) (hc' : r.oneByOne.Reachable c)
    (hsettled : c.cache.Settled outcomes entries)
    (hslots : c.cache.slots.length = r.archive.folders.length) : r.ScheduleFree c.session := by
  have hnodup := nodup_backedFolders r.map
  have hdecodes : ∀ schedule, r.Finishes schedule c.session →
      DecodesByOutcomes outcomes entries r.map.backedFolders (r.decodeAllUnder schedule)
        c.session :=
    fun schedule => decodeAllUnder_decodesByOutcomes hr hacts hmap hc hsettled hslots
  -- several workers are done after a fair schedule, and a single one needs none
  have hfair : ∀ schedule,
      Pool.Fair (r.workerCount r.map.backedFolders.length) r.map.backedFolders.length schedule →
      r.Finishes schedule c.session :=
    fun schedule hfair => .inr (isDone_of_settled hr hmap hsettled hslots (pure false) hfair)
  constructor
  case extractAll_eq => exact ⟨_, hfair _ (Pool.fair_schedule _ _), rfl⟩
  case finishes => exact fun before later hlater => hfair _ (hlater.append before)
  case taken => exact fun schedule => takers_prefix r schedule c.session
  case takenOnce =>
    intro schedule extracted hextracted folder hfolder
    obtain ⟨results, hresults⟩ := exists_ok_of_cutAll hextracted
    have htakers := takers_eq hresults
    exact existsUnique_taker (htakers ▸ hnodup) (htakers ▸ hfolder)
  case returns =>
    intro hnone schedule hfinishes
    have hlone : r.oneByOne.Finishes [] c.session := .inl (r.oneByOne_workerCount _).le
    have honly : DecodesByOutcomes outcomes entries r.map.backedFolders
        (r.oneByOne.decodeAllUnder []) c.session :=
      decodeAllUnder_decodesByOutcomes hr hone hmap hc' hsettled hslots hlone
    rw [oneByOne_extractAll r []]
    exact (hdecodes schedule hfinishes).cutAll_agree honly hr hmap hnone
  case throws =>
    intro fault hends schedule hfinishes
    exact (hdecodes schedule hfinishes).cutAll_error hr hmap hends

/-- **Any number of workers, in any order.** If source and decoder are functions and nobody else is
at the reader, then whatever has been done with it before, extracting all files comes to the same
under every schedule as with one worker, or it fails as one of the folders does that end it. -/
theorem ofArchive_scheduleFree {a : Archive} {size : Except SourceFault Nat}
    {read : (offset length : Nat) → Except SourceFault Bytes}
    {decode : Coder → List Bytes → Option Nat → Except DecoderFault Bytes} {config : Config}
    (h : ofArchive a (some (.pure size read)) (.pure decode) config = .ok r)
    {events : List Crowd.Event} {c : Crowd}
    (hrun : Crowd.Run r.CanDecode r.archive.folders.length events c) (hquiet : c.Quiet)
    {s : Session σ} (hcache : c.cache = s.cache) :
    ofArchive a (some (.pure size read)) (.pure decode) { config with concurrency := 1 } =
        .ok r.oneByOne ∧
      r.ScheduleFree s := by
  obtain ⟨hmap, rfl, hsource, hdecoder, rfl⟩ := ofArchive_ok h
  have hsource := (Option.some.inj hsource).symm
  obtain ⟨outcomes, hr⟩ := determined_of_pure hsource hdecoder
  constructor
  · unfold ofArchive
    rw [hmap]
    dsimp only
    rw [← hsource, ← hdecoder]
    rfl
  · have hsettled := hrun.settled hr hquiet
    have hslots := Receives.length_slots ⟨events, hrun⟩
    have hsession : (c.scene s.outside).session = s := by
      rw [Crowd.scene, hcache]
    rw [← hsession]
    -- the reader with one worker decodes the same, so it has had the same crowd
    have hlone : r.oneByOne.Reachable (c.scene s.outside) :=
      Crowd.Run.reachable (r := r.oneByOne) hrun s.outside
    exact hr.scheduleFree (actsByAdvances_of_pure hsource hdecoder)
      (actsByAdvances_of_pure (r := r.oneByOne) hsource hdecoder) hmap (hrun.reachable s.outside)
      hlone hsettled hslots

/-- Somebody has got the first folder and gone. Then two workers extract all files, and if they have
their turns in the other order, it is the second one that takes the first folder. -/
theorem ofArchive_scheduleFree_two_workers :
    let copy : Folder := { coders := [{ methodId := [0] }] }
    let a : Archive :=
      { packSizes := [2, 1], folders := [copy, copy]
        substreams := some
          { counts := [1, 1], sizes := [2, 1], crcs := [none, none]
            counts_sum := rfl, crcs_length := rfl }
        entries := [{ name := "a" }, { name := "b" }] }
    let source : Source (Session Unit) := .ofBytes [10, 11, 12]
    let output : Outcome := .ok [10, 11]
    let events : List Crowd.Event :=
      [.enter 0, .claim 0 0, .start 0 0, .complete 0 0 output, .fulfil 0 0 output,
        .settle 0 0 output, .leave 0]
    let turns : List Nat := (List.replicate 24 [1, 0]).flatten
    ∃ (r : Reader Unit) (c : Crowd),
      ofArchive a (some source) .builtin { concurrency := 2 } = .ok r ∧
      Crowd.Run r.CanDecode r.archive.folders.length events c ∧ c.Quiet ∧
      c.cache.kept? 0 = some (.bytes [10, 11]) ∧
      r.ScheduleFree { cache := c.cache, outside := () } ∧
      r.takers turns (r.start ()) = [(some 1, 0), (some 0, 1)] := by
  intro copy a source output events turns
  obtain ⟨r, hr⟩ : ∃ r : Reader Unit,
      ofArchive a (some source) .builtin { concurrency := 2 } = .ok r := ⟨_, rfl⟩
  have hfolders : r.archive.folders.length = 2 := by
    cases hr
    rfl
  have hcan : r.CanDecode 0 output := by
    cases hr
    exact ⟨{ cache := .empty 2, outside := () }, by rfl⟩
  have htakers : r.takers turns (r.start ()) = [(some 1, 0), (some 0, 1)] := by
    cases hr
    decide +kernel
  -- one caller has decoded the first folder before the pool starts
  have h₀ : Crowd.Run r.CanDecode 2 [] (.start 2) := .refl _
  have h₁ := h₀.tail (@Crowd.Step.enter _ _ 0 0 rfl (by decide))
  have h₂ := h₁.tail (@Crowd.Step.claim _ _ 0 0 rfl rfl)
  have h₃ := h₂.tail (@Crowd.Step.start _ _ 0 0 0 0 rfl)
  have h₄ := h₃.tail (@Crowd.Step.complete _ _ 0 0 0 0 output rfl hcan)
  have h₅ := h₄.tail (@Crowd.Step.fulfil _ _ 0 0 0 0 output rfl)
  have h₆ := h₅.tail (@Crowd.Step.settle _ _ 0 0 0 0 output rfl)
  have h₇ := h₆.tail (@Crowd.Step.leave _ _ 0 0 0 output rfl)
  obtain ⟨c, hrun, hquiet, hkept⟩ : ∃ c,
      Crowd.Run r.CanDecode r.archive.folders.length events c ∧ c.Quiet ∧
        c.cache.kept? 0 = some (.bytes [10, 11]) := by
    rw [hfolders]
    refine ⟨_, h₇, fun place => ?_, rfl⟩
    cases place with
    | zero => rfl
    | succ place => rfl
  exact ⟨r, c, hr, hrun, hquiet, hkept,
    (ofArchive_scheduleFree (a := a) hr hrun hquiet rfl).2, htakers⟩

end Reader

end SolidArchive
