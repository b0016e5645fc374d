import SolidArchive.Proofs.Reader.ScheduleFree
import SolidArchive.Proofs.Reader.Skipping

/-!
# Cancelling an extraction

An extraction of all files can be cancelled at any moment. What it has begun it finishes, and what
it has not begun it skips, so a cancelled extraction is like one that was not cancelled, but for
some folders (`Reader.Skips`): their files have results that say so, and nothing was done about
them. There is nothing between, neither a folder of which some files are there nor a file with half
a result.

The moment is not a parameter. A worker looks at the flag once for each folder, just before it calls
for it, and between these looks the flag may change as it likes. So all that an extraction can see
of it is how one look after the other is answered, and `cancelled` may answer in any way. That it is
cancelled for good (`Sticky`) matters for only two of the statements: a single worker skips all
folders from some point on, and an extraction that is cancelled from the start does nothing at all.
-/

namespace SolidArchive

open Reader

variable {σ : Type} {r : Reader σ} {cancelled : StateM σ Bool} {outcomes : Nat → Outcome}
  {entries : Nat → Holding} {s : Session σ} {c : Scene σ} {folders schedule skipped : List Nat}
  {workers folder : Nat} {results : List FolderResult} {whole : List ExtractResult} {e : FileSpan}

/-! ### Results of files that are skipped -/

/-- The result of a file whose folder is skipped. -/
def FileSpan.skip (e : FileSpan) : ExtractResult where
  file := e.file
  extraction := .cancelled e.folder

/-- A folder that comes to something is not skipped. -/
theorem FileSpan.Yields.ne_cancelled {x : ExtractResult} (h : e.Yields outcomes x) (folder : Nat) :
    x.extraction ≠ .cancelled folder := by
  obtain ⟨-, result, hresult, hx⟩ := h
  intro heq
  rw [heq] at hx
  -- the folder is decoded or has failed, and no file gets this result from either
  obtain ⟨output, rfl⟩ | ⟨error, rfl⟩ := FolderResult.ofOutcome_ok hresult
  · unfold FileSpan.extraction at hx
    dsimp only at hx
    split at hx
    · cases hx
    · split at hx
      · cases hx
      · cases hx
  · cases hx

/-- Two lists that go along with a third go along with each other. -/
theorem eq_zipWith_of_forall₂ {α β γ : Type} {R : α → β → Prop} {S : α → γ → Prop} {f : α → γ → β}
    {as : List α} {bs : List β} {cs : List γ} (hR : List.Forall₂ R as bs)
    (hS : List.Forall₂ S as cs) (h : ∀ a ∈ as, ∀ b c, R a b → S a c → b = f a c) :
    bs = List.zipWith f as cs := by
  induction hR generalizing cs with
  | nil =>
    cases hS
    rfl
  | cons hab _ ih =>
    cases hS with
    | cons hac hS =>
      obtain ⟨hfirst, hrest⟩ := List.forall_mem_cons.mp h
      rw [List.zipWith_cons_cons, ← ih hS hrest, ← hfirst _ _ hab hac]

namespace Reader

/-- The results of all files if some folders are skipped. -/
def skipFiles (r : Reader σ) (skipped : List Nat) (whole : List ExtractResult) :
    List ExtractResult :=
  List.zipWith (fun e x => if e.folder ∈ skipped then e.skip else x) r.map.files whole

/-- If all folders are skipped, so are all files. -/
theorem skipFiles_all (hmap : StreamMap.derive r.archive = .ok r.map)
    (hwhole : List.Forall₂ (FileSpan.Yields outcomes) r.map.files whole) :
    r.skipFiles r.map.backedFolders whole = r.map.files.map FileSpan.skip := by
  have hbacked : ∀ e ∈ r.map.files, e.folder ∈ r.map.backedFolders :=
    fun e he => backed_of_mem hmap he
  unfold skipFiles
  generalize r.map.backedFolders = folders at hbacked ⊢
  generalize r.map.files = files at hbacked hwhole ⊢
  induction hwhole with
  | nil => rfl
  | cons hx _ ih =>
    obtain ⟨hfirst, hrest⟩ := List.forall_mem_cons.mp hbacked
    rw [List.zipWith_cons_cons, if_pos hfirst, ih hrest, List.map_cons]

/-- The folders that were skipped, by their results. -/
def skippedIn (r : Reader σ) (results : List FolderResult) : List Nat :=
  r.map.backedFolders.filter fun folder => results[folder]? = some .cancelled

theorem mem_skippedIn (hmem : folder ∈ r.map.backedFolders) :
    folder ∈ r.skippedIn results ↔ results[folder]? = some .cancelled := by
  rw [skippedIn, List.mem_filter, decide_eq_true_eq]
  exact and_iff_right hmem

/-- If there is a suffix that has what was skipped and nothing else, it is all that was skipped. -/
theorem skippedIn_eq {suffix : List Nat} (hsuffix : suffix <:+ r.map.backedFolders)
    (hiff : ∀ folder ∈ r.map.backedFolders,
      (results[folder]? = some .cancelled ↔ folder ∈ suffix)) :
    r.skippedIn results = suffix := by
  have hnodup := nodup_backedFolders r.map
  unfold skippedIn
  obtain ⟨before, heq⟩ := hsuffix
  rw [← heq] at hnodup hiff ⊢
  -- what stands before the suffix is not in it, as no folder is there twice
  have hbefore : ∀ folder ∈ before, ¬results[folder]? = some .cancelled := by
    intro folder hfolder hskipped
    have hmem := (hiff folder (List.mem_append_left _ hfolder)).mp hskipped
    exact (List.nodup_append.mp hnodup).2.2 folder hfolder folder hmem rfl
  have hsuffix : ∀ folder ∈ suffix, results[folder]? = some .cancelled :=
    fun folder hfolder => (hiff folder (List.mem_append_right _ hfolder)).mpr hfolder
  rw [List.filter_append, List.filter_eq_nil_iff.mpr fun folder hfolder => ?_,
    List.filter_eq_self.mpr fun folder hfolder => ?_, List.nil_append]
  · exact decide_eq_true (hsuffix folder hfolder)
  · exact mt of_decide_eq_true (hbefore folder hfolder)

theorem Gathered.getElem?_eq (h : r.Gathered cancelled folders results)
    (hlt : folder < r.archive.folders.length) :
    results[folder]? = some (results.getD folder .untouched) := by
  have hlength : folder < results.length := hlt.trans_eq h.length_eq.symm
  rw [List.getD_eq_getElem _ _ hlength, List.getElem?_eq_getElem hlength]

/-- **What is cut out of the results**, some of which are of folders that were skipped. -/
theorem Gathered.collectFiles_skip (h : r.Gathered cancelled r.map.backedFolders results)
    (hr : r.Determined outcomes) (hmap : StreamMap.derive r.archive = .ok r.map)
    (hwhole : List.Forall₂ (FileSpan.Yields outcomes) r.map.files whole) :
    collectFiles results r.map.files = .ok (r.skipFiles (r.skippedIn results) whole) := by
  obtain ⟨extracted, hcollect, hall⟩ := h.collectFiles_ok hmap
  rw [hcollect]
  refine congrArg Except.ok (eq_zipWith_of_forall₂ hall hwhole fun e he x y hx hy => ?_)
  obtain ⟨hfile, hx⟩ := hx
  have hbacked := backed_of_mem hmap he
  have hlt := lt_of_mem_backedFolders hmap hbacked
  have hget := h.getElem?_eq hlt
  by_cases hskipped : results.getD e.folder .untouched = .cancelled
  · rw [hskipped] at hget hx
    rw [if_pos ((mem_skippedIn hbacked).mpr hget)]
    obtain ⟨file, extraction⟩ := x
    obtain rfl : file = e.file := hfile
    obtain rfl : .cancelled e.folder = extraction := Except.ok.inj hx
    rfl
  · have hnot : e.folder ∉ r.skippedIn results := by
      rw [mem_skippedIn hbacked, hget]
      exact fun heq => hskipped (Option.some.inj heq)
    rw [if_neg hnot]
    -- the result of the folder is that of its only outcome, as it is for the other file
    have hyields : e.Yields outcomes x := ⟨hfile, _, hr.ofOutcome_eq h hbacked hlt hskipped, hx⟩
    exact FileSpan.yields_unique outcomes hyields hy

/-! ### Extractions that may be cancelled -/

/-- Decodes all folders that have files until it is cancelled, with several workers under the given
schedule. -/
def decodeAllUnless (r : Reader σ) (cancelled : StateM σ Bool) (schedule : List Nat) :
    ReaderM σ (List FolderResult) :=
  let folders := r.map.backedFolders
  let workers := r.workerCount folders.length
  if workers ≤ 1 then
    r.decodeInOrder cancelled folders (List.replicate r.archive.folders.length .untouched)
  else r.decodeInPool cancelled folders schedule workers

/-- Extracts all files until it is cancelled, with several workers under the given schedule. -/
def extractAllUnless (r : Reader σ) (cancelled : StateM σ Bool) (schedule : List Nat) :
    ReaderM σ (List ExtractResult) :=
  r.cutAll (r.decodeAllUnless cancelled schedule)

/-- All workers come to their end under the schedule. -/
def FinishesUnless (r : Reader σ) (cancelled : StateM σ Bool) (schedule : List Nat)
    (s : Session σ) : Prop :=
  let folders := r.map.backedFolders
  let workers := r.workerCount folders.length
  workers ≤ 1 ∨ (Pool.run r cancelled folders schedule
    (.start workers r.archive.folders.length) s).1.isDone = true

/-- The folders for which workers take steps of a call. A decode is one of these steps, and so is
all that is done to the cache. -/
def calls (r : Reader σ) (cancelled : StateM σ Bool) (schedule : List Nat) (s : Session σ) :
    List Nat :=
  let folders := r.map.backedFolders
  let workers := r.workerCount folders.length
  if workers ≤ 1 then r.callsInOrder cancelled folders s
  else Pool.calls r cancelled folders schedule (.start workers r.archive.folders.length) s

section

variable (hr : r.Determined outcomes) (hsettled : s.cache.Settled outcomes entries)
  (hlt : ∀ folder ∈ folders, folder < s.cache.slots.length)
  (hplaces : ∀ folder ∈ folders, folder < r.archive.folders.length) (hnodup : folders.Nodup)

include hr hsettled hlt hplaces hnodup

/-- Several workers leave alone what they skip. -/
theorem decodeInPool_skips (hdone : (Pool.run r cancelled folders schedule
    (.start workers r.archive.folders.length) s).1.isDone = true) :
    Ensures (r.decodeInPool cancelled folders schedule workers) s
      (fun results s' => SkipsUncalled (Pool.calls r cancelled folders schedule
        (.start workers r.archive.folders.length) s) s.cache results s'.cache)
      (fun fault _ => fault ≠ .stalled) := by
  have hstart := Pool.undisturbed_start workers hplaces hsettled
  -- a folder that nobody has called for is skipped, and its slot is as it was
  have hrun : Ensures ((Pool.run r cancelled folders schedule
      (.start workers r.archive.folders.length) : StateM (Session σ) Pool) : ReaderM σ Pool) s
      (fun p s' => p.isDone = true ∧ SkipsUncalled (Pool.calls r cancelled folders schedule
        (.start workers r.archive.folders.length) s) s.cache p.results s'.cache)
      (fun fault _ => fault ≠ .stalled) := by
    refine ⟨hdone, fun folder hcalls => ?_, fun folder hcalls => ?_⟩
    · exact hstart.not_skipped_of_mem_calls hr (fun _ _ => hsettled.kept) hlt hnodup hcalls
    · exact hstart.sameAt_run hr (fun _ _ => hsettled.kept) hlt hnodup hcalls
  unfold decodeInPool
  refine hrun.bind ?_
  rintro p s' ⟨hdone, hskips⟩
  cases hfinish : p.finish with
  | ok results =>
    obtain ⟨-, -, rfl⟩ := Pool.finish_ok hfinish
    exact Ensures.pure hskips
  | error fault =>
    refine Ensures.throw ?_
    rintro rfl
    exact Pool.finish_ne_stalled hdone hfinish

end

variable (r) in
/-- Several workers that are cancelled from the start do nothing. -/
theorem decodeInPool_told (hsticky : Sticky cancelled) (htold : (cancelled s.outside).1 = true) :
    Ensures (r.decodeInPool cancelled folders schedule workers) s
      (fun results s' => s'.cache = s.cache ∧
        ∀ result ∈ results, result = .untouched ∨ result = .cancelled)
      (fun _ _ => True) := by
  have hstart := Pool.onlySkips_start workers r.archive.folders.length
  obtain ⟨honly, hcache⟩ := hstart.run r folders hsticky htold schedule
  -- who is told to stop at the first folder is told so at every other one
  have hrun : Ensures ((Pool.run r cancelled folders schedule
      (.start workers r.archive.folders.length) : StateM (Session σ) Pool) : ReaderM σ Pool) s
      (fun p s' => p.OnlySkips ∧ s'.cache = s.cache) (fun _ _ => True) := ⟨honly, hcache⟩
  unfold decodeInPool
  refine hrun.bind ?_
  rintro p s' ⟨honly, hcache⟩
  cases hfinish : p.finish with
  | ok results =>
    obtain ⟨-, -, rfl⟩ := Pool.finish_ok hfinish
    exact Ensures.pure ⟨hcache, honly.results⟩
  | error fault => exact Ensures.throw trivial

theorem workerCount_le_one (h : r.config.concurrency ≤ 1) (folders : Nat) :
    r.workerCount folders ≤ 1 := by
  unfold workerCount
  rw [if_neg (not_lt.mpr h)]

section

variable (hr : r.Determined outcomes) (hacts : r.ActsByAdvances)
  (hmap : StreamMap.derive r.archive = .ok r.map) (hc : r.Reachable c)
  (hsettled : c.cache.Settled outcomes entries)
  (hslots : c.cache.slots.length = r.archive.folders.length)

include hr hacts hmap hc hsettled hslots

/-- **Whoever is cancelled when**: the folders that are called for have their results, and the
others are left alone. -/
theorem decodeAllUnless_ensures (hfinishes : r.FinishesUnless cancelled schedule c.session) :
    Ensures (r.decodeAllUnless cancelled schedule) c.session
      (fun results s' => r.Gathered cancelled r.map.backedFolders results ∧
        SkipsUncalled (r.calls cancelled schedule c.session) c.cache results s'.cache)
      (fun fault _ => ∃ own, fault = .folder own ∧ r.Ends r.map.backedFolders own) := by
  have hplaces : ∀ folder ∈ r.map.backedFolders, folder < r.archive.folders.length :=
    fun _ => lt_of_mem_backedFolders hmap
  have hlt : ∀ folder ∈ r.map.backedFolders, folder < c.session.cache.slots.length :=
    fun folder hfolder => (hplaces folder hfolder).trans_eq hslots.symm
  have hnodup := nodup_backedFolders r.map
  -- two things are known of a failure: it is not for waiting, so it is for a folder
  have hfails : ∀ {fault : ReaderFault}, r.Fails r.map.backedFolders fault → fault ≠ .stalled →
      ∃ own, fault = .folder own ∧ r.Ends r.map.backedFolders own :=
    fun hfails hne => hfails.resolve_left hne
  unfold decodeAllUnless calls
  dsimp only
  split
  · refine (((decodeInOrder_gathers hacts hc _).and (decodeInOrder_alone hr hsettled.rests _)).and
      (decodeInOrder_skips hr hsettled hlt hnodup)).mono ?_ ?_
    · exact fun results s' h => ⟨h.1.1.2, h.2⟩
    · exact fun fault s' h => hfails h.1.1.2 h.1.2.2
  · next hmany =>
    have hworkers := Nat.zero_lt_one.trans (Nat.lt_of_not_le hmany)
    have hdone := hfinishes.resolve_left hmany
    refine ((decodeInPool_ensures cancelled hacts hc _ schedule hworkers).and
      (decodeInPool_skips hr hsettled hlt hplaces hnodup hdone)).mono ?_ ?_
    · exact fun results s' h => ⟨h.1.2, h.2⟩
    · exact fun fault s' h => hfails h.1.2 h.2

/-- **Who is cancelled from the start** skips all folders and does nothing. -/
theorem decodeAllUnless_told (hfinishes : r.FinishesUnless cancelled schedule c.session)
    (hsticky : Sticky cancelled) (htold : (cancelled c.session.outside).1 = true) :
    Ensures (r.decodeAllUnless cancelled schedule) c.session
      (fun results s' => r.skippedIn results = r.map.backedFolders ∧ s'.cache = c.cache)
      (fun _ _ => True) := by
  -- of several workers it is not known who has come how far, only that nobody has decoded
  have hall : Ensures (r.decodeAllUnless cancelled schedule) c.session
      (fun results s' => s'.cache = c.cache ∧ ∀ folder ∈ r.map.backedFolders,
        ∀ result, results[folder]? = some result → result = .untouched ∨ result = .cancelled)
      (fun _ _ => True) := by
    unfold decodeAllUnless
    dsimp only
    split
    · refine (decodeInOrder_told hsticky htold fun folder hfolder => ?_).mono ?_
        fun _ _ _ => trivial
      · exact (lt_of_mem_backedFolders hmap hfolder).trans_eq List.length_replicate.symm
      · refine fun results s' h => ⟨h.1, fun folder hfolder result hresult => .inr ?_⟩
        exact Option.some.inj (hresult.symm.trans (h.2 folder hfolder))
    · refine (decodeInPool_told r hsticky htold).mono (fun results s' h => ⟨h.1, ?_⟩) fun _ _ h => h
      exact fun folder _ result hresult => h.2 result (List.mem_of_getElem? hresult)
  refine (hall.and (decodeAllUnless_ensures hr hacts hmap hc hsettled hslots hfinishes)).mono ?_
    fun _ _ _ => trivial
  rintro results s' ⟨⟨hcache, honly⟩, hgathered, -⟩
  refine ⟨List.filter_eq_self.mpr fun folder hfolder => decide_eq_true ?_, hcache⟩
  -- each of the folders has a result, and there is only one that it can have
  have hget := hgathered.getElem?_eq (lt_of_mem_backedFolders hmap hfolder)
  rcases honly folder hfolder _ hget with huntouched | hcancelled
  · rw [huntouched] at hget
    exact absurd hget (hgathered.done folder hfolder)
  · rw [hcancelled] at hget
    exact hget

end

/-- **A single worker skips a suffix** of the folders that have files. -/
theorem decodeAllUnless_suffix (hmap : StreamMap.derive r.archive = .ok r.map)
    (hsticky : Sticky cancelled) (hone : r.config.concurrency ≤ 1) :
    Ensures (r.decodeAllUnless cancelled schedule) s
      (fun results _ => r.skippedIn results <:+ r.map.backedFolders) (fun _ _ => True) := by
  have hnodup := nodup_backedFolders r.map
  unfold decodeAllUnless
  dsimp only
  rw [if_pos (workerCount_le_one hone _)]
  refine (decodeInOrder_suffix hsticky hnodup fun folder hfolder => ?_).mono ?_ fun _ _ h => h
  · exact (lt_of_mem_backedFolders hmap hfolder).trans_eq List.length_replicate.symm
  · rintro results s' ⟨skipped, hsuffix, hiff⟩
    rw [skippedIn_eq hsuffix hiff]
    exact hsuffix

/-! ### What it comes to -/

/-- An extraction that skips some folders, where `whole` is what it comes to if it skips none. -/
structure Skips (r : Reader σ) (cancelled : StateM σ Bool) (schedule : List Nat) (s : Session σ)
    (whole : List ExtractResult) (skipped : List Nat) : Prop where
  sublist : List.Sublist skipped r.map.backedFolders
  /-- The files of a folder that is skipped are all cancelled, and all others are as they are. -/
  returns : ((r.extractAllUnless cancelled schedule).run s).1 = .ok (r.skipFiles skipped whole)
  /-- Nobody calls for a folder that is skipped, so no decode of it is started. -/
  uncalled : ∀ folder ∈ skipped, folder ∉ r.calls cancelled schedule s
  /-- And it stays in the cache as it was. -/
  sameAt : ∀ folder ∈ skipped,
    s.cache.SameAt folder ((r.extractAllUnless cancelled schedule).run s).2.cache
  /-- A single worker that is cancelled for good skips all folders from some point on. -/
  suffix : Sticky cancelled → r.config.concurrency ≤ 1 → skipped <:+ r.map.backedFolders
  /-- An extraction that is cancelled from the start skips everything and does nothing. -/
  fromStart : Sticky cancelled → (cancelled s.outside).1 = true →
    r.skipFiles skipped whole = r.map.files.map FileSpan.skip ∧
      ((r.extractAllUnless cancelled schedule).run s).2.cache = s.cache

/-- Cancelling an extraction leaves out whole folders and does nothing else. -/
structure CancelsCleanly (r : Reader σ) (s : Session σ) : Prop where
  /-- However the reader is used, nobody is at it afterwards, so all of this is so again. -/
  after : ∀ uses : List (Use σ), r.Idle (r.after s uses)
  /-- To extract all files is to do so under one of the schedules that come to an end. -/
  extractAll_eq : ∀ cancelled : StateM σ Bool, ∃ schedule, r.FinishesUnless cancelled schedule s ∧
    r.extractAll cancelled = r.extractAllUnless cancelled schedule
  /-- Whatever the workers have done so far, they come to their end if each has turns enough. -/
  finishes : ∀ (cancelled : StateM σ Bool) (before later : List Nat),
    Pool.Fair (r.workerCount r.map.backedFolders.length) r.map.backedFolders.length later →
      r.FinishesUnless cancelled (before ++ later) s
  /-- There is one list of results of which every extraction skips some folders; one that nobody
  cancels skips none. -/
  skips : ∃ whole : List ExtractResult,
    (∀ x ∈ whole, ∀ folder, x.extraction ≠ .cancelled folder) ∧
      (∀ schedule, r.FinishesUnless (pure false) schedule s →
        ((r.extractAllUnless (pure false) schedule).run s).1 = .ok whole) ∧
      ∀ (cancelled : StateM σ Bool) (schedule : List Nat), r.FinishesUnless cancelled schedule s →
        ∃ skipped, r.Skips cancelled schedule s whole skipped

section

variable (hr : r.Determined outcomes) (hacts : r.ActsByAdvances)
  (hmap : StreamMap.derive r.archive = .ok r.map) (hidle : r.Idle s)
  (hnone : ∀ fault, ¬r.Ends r.map.backedFolders fault)

include hr hacts hmap hidle hnone

/-- **An extraction that is cancelled** skips some folders of one that is not. -/
theorem extractAllUnless_skips (hfinishes : r.FinishesUnless cancelled schedule s)
    (hwhole : List.Forall₂ (FileSpan.Yields outcomes) r.map.files whole) :
    ∃ skipped, r.Skips cancelled schedule s whole skipped := by
  obtain ⟨c, rfl, hc, ⟨entries, hsettled⟩, hslots⟩ := hidle.exists_scene hr
  have hall := decodeAllUnless_ensures hr hacts hmap hc hsettled hslots hfinishes
  cases hend : ((r.decodeAllUnless cancelled schedule).run c.session).1 with
  | error fault =>
    -- it would have to be for a folder, and none of them ends an extraction
    obtain ⟨own, -, hown⟩ := hall.error hend
    exact absurd hown (hnone own)
  | ok results =>
    obtain ⟨hgathered, hskips⟩ := hall.ok hend
    -- to cut the files out of the results leaves the session alone
    have hrun : (r.extractAllUnless cancelled schedule).run c.session =
        (.ok (r.skipFiles (r.skippedIn results) whole),
          ((r.decodeAllUnless cancelled schedule).run c.session).2) := by
      unfold extractAllUnless cutAll
      rw [runExcept_bind]
      rcases hrun : (r.decodeAllUnless cancelled schedule).run c.session with ⟨end', s'⟩
      obtain rfl : end' = .ok results := (congrArg Prod.fst hrun).symm.trans hend
      dsimp only
      rw [hgathered.collectFiles_skip hr hmap hwhole]
      rfl
    have huncalled : ∀ folder ∈ r.skippedIn results,
        folder ∉ r.calls cancelled schedule c.session := by
      intro folder hfolder hcall
      obtain ⟨-, hskipped⟩ := List.mem_filter.mp hfolder
      exact hskips.called folder hcall (of_decide_eq_true hskipped)
    refine ⟨r.skippedIn results, ?_⟩
    constructor
    case sublist => exact List.filter_sublist
    case returns => rw [hrun]
    case uncalled => exact huncalled
    case sameAt =>
      intro folder hfolder
      rw [hrun]
      exact hskips.uncalled folder (huncalled folder hfolder)
    case suffix =>
      intro hsticky hone
      exact (decodeAllUnless_suffix hmap hsticky hone).ok hend
    case fromStart =>
      intro hsticky htold
      obtain ⟨hskipped, hcache⟩ :=
        (decodeAllUnless_told hr hacts hmap hc hsettled hslots hfinishes hsticky htold).ok hend
      rw [hrun, hskipped, skipFiles_all hmap hwhole]
      exact ⟨rfl, hcache⟩

/-- **Cancelling is clean** where each folder has one outcome. -/
theorem Determined.cancelsCleanly (hbySteps : r.ActsBySteps) : r.CancelsCleanly s := by
  have hfair : ∀ (cancelled : StateM σ Bool) (schedule : List Nat),
      Pool.Fair (r.workerCount r.map.backedFolders.length) r.map.backedFolders.length schedule →
      r.FinishesUnless cancelled schedule s :=
    fun cancelled schedule hfair => .inr (hidle.isDone_run hr hmap cancelled hfair)
  obtain ⟨whole, -, hwhole⟩ := hidle.extractAllUnder_ok hr hmap hacts hnone
    (hfair _ _ (Pool.fair_schedule _ _))
  constructor
  case after => exact hidle.after hr hmap hbySteps
  case extractAll_eq => exact fun cancelled => ⟨_, hfair _ _ (Pool.fair_schedule _ _), rfl⟩
  case finishes => exact fun cancelled before later hlater => hfair _ _ (hlater.append before)
  case skips =>
    refine ⟨whole, ?_, ?_, ?_⟩
    · intro x hx folder
      obtain ⟨e, -, hyields⟩ := exists_file_of_mem hwhole hx
      exact hyields.ne_cancelled folder
    · -- where the answer is always no, it is an extraction under the schedule and no more
      exact fun schedule hfinishes =>
        hidle.extractAllUnder_eq hr hmap hacts hnone hfinishes hwhole
    · exact fun cancelled schedule hfinishes =>
        extractAllUnless_skips hr hacts hmap hidle hnone hfinishes hwhole

end

/-- **Cancelling an extraction** at any moment leaves out whole folders and does nothing else: if
source and decoder are functions, no folder ends the extraction and nobody else is at the reader,
then with any number of workers and under every schedule, and whatever has been done with the reader
before, all results but those of some folders are as they are in an extraction that is not
cancelled. -/
theorem ofArchive_cancelsCleanly {a : Archive} {size : Except SourceFault Nat}
    {read : (offset length : Nat) → Except SourceFault Bytes}
    {decode : Coder → List Bytes → Option Nat → Except DecoderFault Bytes} {config : Config}
    (h : ofArchive a (some (.pure size read)) (.pure decode) config = .ok r)
    (hnone : ∀ fault, ¬r.Ends r.map.backedFolders fault) (hidle : r.Idle s) :
    r.CancelsCleanly s := by
  obtain ⟨hmap, rfl, hsource, hdecoder, -⟩ := ofArchive_ok h
  have hsource := (Option.some.inj hsource).symm
  obtain ⟨outcomes, hr⟩ := determined_of_pure hsource hdecoder
  exact hr.cancelsCleanly (actsByAdvances_of_pure hsource hdecoder) hmap hidle hnone
    (actsBySteps_of_pure hsource hdecoder)

/-- Three stored files, each in its own folder, and a flag that is set when it has been looked at
once. Two workers extract the first file, and skip the folders of the others. -/
theorem ofArchive_cancelsCleanly_two_workers :
    let copy : Folder := { coders := [{ methodId := [0] }] }
    let a : Archive :=
      { packSizes := [1, 1, 1], folders := [copy, copy, copy]
        substreams := some
          { counts := [1, 1, 1], sizes := [1, 1, 1], crcs := [none, none, none]
            counts_sum := rfl, crcs_length := rfl }
        entries := [{ name := "a" }, { name := "b" }, { name := "c" }] }
    let source : Source (Session Nat) := .ofBytes [10, 11, 12]
    let flag : StateM Nat Bool := fun looks => (decide (looks = 0), looks - 1)
    ∃ r : Reader Nat, ofArchive a (some source) .builtin { concurrency := 2 } = .ok r ∧
      (∀ fault, ¬r.Ends r.map.backedFolders fault) ∧ r.Idle (r.start 1) ∧
      r.CancelsCleanly (r.start 1) ∧ Sticky flag ∧
      ((r.extractAll flag).run (r.start 1)).1.toOption.map (List.map ExtractResult.extraction) =
        some [.extracted { file := 0, content := [10], actualCrc := Crc32.digest [10] },
          .cancelled 1, .cancelled 2] := by
  intro copy a source flag
  obtain ⟨r, hr⟩ : ∃ r : Reader Nat,
      ofArchive a (some source) .builtin { concurrency := 2 } = .ok r := ⟨_, rfl⟩
  have hnone : ∀ fault, ¬r.Ends r.map.backedFolders fault := by
    obtain ⟨hmap, harchive, hsource, hdecoder, -⟩ := ofArchive_ok hr
    rw [← harchive] at hmap
    refine not_ends hmap ?_ ?_
    · rw [← Option.some.inj hsource]
      exact Source.ofBytes_failsWithErrors _
    · rw [hdecoder]
      exact Decoder.builtin_failsPlainly.failsWithErrors
  refine ⟨r, hr, hnone, r.idle_start 1, ?_, ?_, ?_⟩
  · exact ofArchive_cancelsCleanly (a := a) hr hnone (r.idle_start 1)
  · -- once it says stop it goes on saying so
    intro looks hlooks
    have hzero : looks = 0 := of_decide_eq_true hlooks
    subst hzero
    rfl
  · cases hr
    decide +kernel

end Reader

end SolidArchive
