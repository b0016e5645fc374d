import SolidArchive.Proofs.Reader.Slices
import SolidArchive.Proofs.Reader.Uses

/-!
# What an extraction delivers

A file is extracted by getting the output of its folder and cutting it. Here both are put together.
Whoever gets the output gets one that the folder can have, by whatever calls and whoever else is
about, so it is long enough for every file of the folder (`Reader.CutsNothingShort`). And where
source and decoder are functions, the output is always the same, and what is delivered of the files
of a folder, by one call each or by one for all, makes up that output again (`Reader.Delivers`).
-/

namespace SolidArchive

open Relation

variable {σ : Type}

/-! ### Results of files -/

/-- The results of files are those of the folders, cut. -/
theorem collectFiles_ok {results : List FolderResult} {files : List FileSpan}
    (h : ∀ e ∈ files, ∃ x, e.extraction (results.getD e.folder .untouched) = .ok x) :
    ∃ extracted, collectFiles results files = .ok extracted ∧
      List.Forall₂ (fun e (x : ExtractResult) => x.file = e.file ∧
        e.extraction (results.getD e.folder .untouched) = .ok x.extraction) files extracted := by
  induction files with
  | nil => exact ⟨[], rfl, .nil⟩
  | cons e files ih =>
    obtain ⟨⟨x, hx⟩, hfiles⟩ := List.forall_mem_cons.mp h
    obtain ⟨rest, hrest, hall⟩ := ih hfiles
    refine ⟨{ file := e.file, extraction := x } :: rest, ?_, .cons ⟨rfl, hx⟩ hall⟩
    rw [collectFiles, hx, hrest]
    rfl

/-- Results of files, one of each, are in the order of the files. -/
theorem map_file_eq {files : List FileSpan} {extracted : List ExtractResult}
    (h : List.Forall₂ (fun e (x : ExtractResult) => x.file = e.file) files extracted) :
    extracted.map ExtractResult.file = files.map FileSpan.file := by
  have hsame : List.Forall₂ Eq (files.map FileSpan.file) (extracted.map ExtractResult.file) := by
    rw [List.forall₂_map_left_iff, List.forall₂_map_right_iff]
    exact h.imp fun _ _ h => h.symm
  rw [List.forall₂_eq_eq_eq] at hsame
  exact hsame.symm

/-- Each result is that of a file. -/
theorem exists_file_of_mem {R : FileSpan → ExtractResult → Prop} {files : List FileSpan}
    {extracted : List ExtractResult} (h : List.Forall₂ R files extracted) {x : ExtractResult}
    (hx : x ∈ extracted) : ∃ e ∈ files, R e x := by
  induction h with
  | nil => cases hx
  | cons hfirst _ ih =>
    rcases List.mem_cons.mp hx with rfl | hx
    · exact ⟨_, List.mem_cons_self, hfirst⟩
    · obtain ⟨e, he, hrest⟩ := ih hx
      exact ⟨e, List.mem_cons_of_mem _ he, hrest⟩

namespace Reader

variable {r : Reader σ} {c c' : Scene σ} {cancelled : StateM σ Bool} {outcomes : Nat → Outcome}
  {folder : Nat} {e : FileSpan} {output : Bytes}

theorem backed_of_mem (hmap : StreamMap.derive r.archive = .ok r.map) (he : e ∈ r.map.files) :
    e.folder ∈ r.map.backedFolders := by
  have hpart := map_partitions hmap
  have hlt := hpart.folder_lt e he
  refine List.mem_filter.mpr ⟨List.mem_range.mpr hlt, ?_⟩
  have hspan := List.getElem?_eq_getElem hlt
  rw [hspan]
  -- the folder has a file, so it has a first one
  have hmem : e ∈ r.map.filesOf e.folder := List.mem_filter.mpr ⟨he, decide_eq_true rfl⟩
  have hcount : (r.map.folders[e.folder]).substreamCount ≠ 0 := by
    rw [← hpart.length_filesOf hspan]
    exact (List.length_pos_of_mem hmem).ne'
  rw [Option.bind_some, Option.isSome_iff_ne_none]
  exact mt (hpart.firstFile_eq_none _ _ hspan).mp hcount

theorem file_lt (hmap : StreamMap.derive r.archive = .ok r.map) (he : e ∈ r.map.files) :
    e.file < r.archive.entries.length := by
  have hpart := map_partitions hmap
  obtain ⟨hlt, -⟩ := List.getElem?_eq_some_iff.mp
    ((hpart.fileFolder e.file e.folder).mpr ⟨e, he, rfl, rfl⟩)
  have hlength := congrArg List.length hpart.fileFolders
  rw [List.length_map, List.length_map] at hlength
  rwa [← hlength]

/-- **Nothing ends an extraction** where source and decoder fail with errors only. -/
theorem not_ends (hmap : StreamMap.derive r.archive = .ok r.map)
    (hsource : r.source.FailsWithErrors) (hdecoder : r.decoder.FailsWithErrors)
    (fault : FolderFault) : ¬r.Ends r.map.backedFolders fault := by
  rintro ⟨folder, hfolder, hcan, hends⟩
  have hlt : folder < r.map.folders.length := List.mem_range.mp (List.mem_filter.mp hfolder).1
  obtain ⟨error, rfl⟩ := hcan.exists_error hmap (List.getElem?_eq_getElem hlt) hsource hdecoder
  cases hends

end Reader

/-! ### Extracting a file -/

/-- What extracting a file gives when the output of its folder is there. -/
def FileSpan.deliver (e : FileSpan) (policy : CrcPolicy) (output : Bytes) :
    Except ReaderFault ExtractedFile :=
  match (e.withContent output).integrityError?, policy with
  | some error, .refuse => .error (.integrity error)
  | _, _ => .ok (e.withContent output)

theorem FileSpan.deliver_report (e : FileSpan) (output : Bytes) :
    e.deliver .report output = .ok (e.withContent output) := by
  unfold deliver
  split
  · next hpolicy => cases hpolicy
  · rfl

theorem FileSpan.eq_of_deliver {e : FileSpan} {policy : CrcPolicy} {output : Bytes}
    {file : ExtractedFile} (h : e.deliver policy output = .ok file) :
    file = e.withContent output := by
  unfold deliver at h
  split at h
  · cases h
  · exact (Except.ok.inj h).symm

theorem FileSpan.not_folder_of_deliver {e : FileSpan} {policy : CrcPolicy} {output : Bytes}
    {fault : FolderFault} : e.deliver policy output ≠ .error (.folder fault) := by
  intro h
  unfold deliver at h
  split at h
  · cases h
  · cases h

namespace Reader

variable {r : Reader σ} {c c' : Scene σ} {cancelled : StateM σ Bool} {outcomes : Nat → Outcome}
  {folder : Nat} {e : FileSpan} {output : Bytes}

/-- The output that a caller gets is one that decoding the folder can have. -/
theorem folderOutput_canDecode (hr : r.ActsByAdvances) (hc : r.Reachable c)
    (h : ((r.folderOutput folder).run c.session).1 = .ok output) :
    r.CanDecode folder (.ok output) := by
  obtain ⟨-, -, -, hcan⟩ := folderOutcome_sound hr hc folder
  unfold folderOutput at h
  rw [runExcept_bind, runExcept_liftM] at h
  dsimp only at h
  -- only an outcome with bytes is an answer without a fault
  match hget : (r.folderOutcome folder c.session).1 with
  | none =>
    rw [hget] at h
    cases h
  | some (.error fault) =>
    rw [hget] at h
    cases h
  | some (.ok output') =>
    rw [hget] at h
    obtain rfl : output' = output := Except.ok.inj h
    exact hcan _ hget

/-- **A file is the slice of its folder's output.** To extract it is to get the output, which is
always long enough. -/
theorem extract_run (hr : r.ActsByAdvances) (hmap : StreamMap.derive r.archive = .ok r.map)
    (hc : r.Reachable c) (he : e ∈ r.map.files) :
    (r.extract e.file).run c.session = match (r.folderOutput e.folder).run c.session with
      | (.ok output, s') => (e.deliver r.config.crcPolicy output, s')
      | (.error fault, s') => (.error fault, s') := by
  have hfile : ¬r.archive.entries.length ≤ e.file := Nat.not_le.mpr (file_lt hmap he)
  have hfind : r.map.findFile e.file = some e := (map_partitions hmap).findFile_eq he
  unfold extract
  rw [if_neg hfile, hfind]
  dsimp only
  rw [runExcept_bind]
  rcases hget : (r.folderOutput e.folder).run c.session with ⟨fault | output, s'⟩
  · rfl
  · -- the output is long enough, so what remains is the checksum
    have hcan := folderOutput_canDecode hr hc (congrArg Prod.fst hget)
    dsimp only
    rw [hcan.cut_eq hmap he]
    unfold FileSpan.deliver
    dsimp only
    cases (e.withContent output).integrityError? with
    | none => rfl
    | some error =>
      cases r.config.crcPolicy with
      | refuse => rfl
      | report => rfl

/-! ### Extracting all files -/

/-- A result that stands is cut without a fault. -/
theorem extraction_ok (hmap : StreamMap.derive r.archive = .ok r.map) (he : e ∈ r.map.files)
    {result : FolderResult} (hstands : result.Stands r cancelled e.folder) :
    ∃ x, e.extraction result = .ok x ∧
      (∀ output, result = .decoded output → x.file? = some (e.withContent output)) ∧
      (result = .cancelled → x = .cancelled e.folder) := by
  cases result with
  | untouched => exact ⟨_, rfl, nofun, nofun⟩
  | cancelled => exact ⟨_, rfl, nofun, fun _ => rfl⟩
  | failed error => exact ⟨_, rfl, nofun, nofun⟩
  | decoded output =>
    have hcut := CanDecode.cut_eq hstands hmap he
    rw [FileSpan.extraction, hcut]
    dsimp only
    -- the content is there whether it passes the check or not
    cases (e.withContent output).integrityError? with
    | none =>
      refine ⟨_, rfl, ?_, nofun⟩
      rintro _ ⟨⟩
      rfl
    | some error =>
      refine ⟨_, rfl, ?_, nofun⟩
      rintro _ ⟨⟩
      rfl

theorem Gathered.getD_stands {folders : List Nat} {results : List FolderResult}
    (h : r.Gathered cancelled folders results) (folder : Nat) :
    (results.getD folder .untouched).Stands r cancelled folder := by
  rw [List.getD_eq_getElem?_getD]
  cases hresult : results[folder]? with
  | none => trivial
  | some result => exact h.stands hresult

theorem Gathered.getD_ne_untouched {results : List FolderResult}
    (h : r.Gathered cancelled r.map.backedFolders results)
    (hmap : StreamMap.derive r.archive = .ok r.map) (he : e ∈ r.map.files) :
    results.getD e.folder .untouched ≠ .untouched := by
  have hlt : e.folder < results.length := by
    rw [h.length_eq, ← length_map_folders hmap]
    exact (map_partitions hmap).folder_lt e he
  have hdone := h.done e.folder (backed_of_mem hmap he)
  rw [List.getElem?_eq_getElem hlt] at hdone
  rw [List.getD_eq_getElem _ _ hlt]
  exact fun hnone => hdone (congrArg some hnone)

/-- From results that stand for their folders (`Reader.Gathered`) every file can be cut. -/
theorem Gathered.collectFiles_ok {folders : List Nat} {results : List FolderResult}
    (h : r.Gathered cancelled folders results) (hmap : StreamMap.derive r.archive = .ok r.map) :
    ∃ extracted, collectFiles results r.map.files = .ok extracted ∧
      List.Forall₂ (fun e (x : ExtractResult) => x.file = e.file ∧
        e.extraction (results.getD e.folder .untouched) = .ok x.extraction) r.map.files
        extracted := by
  refine SolidArchive.collectFiles_ok fun e he => ?_
  obtain ⟨x, hx, -⟩ := extraction_ok hmap he (h.getD_stands e.folder)
  exact ⟨x, hx⟩

variable (cancelled) in
/-- Extracting all files is decoding all folders, and then cutting, which never fails. -/
theorem extractAll_ensures (hr : r.ActsByAdvances) (hmap : StreamMap.derive r.archive = .ok r.map)
    (hc : r.Reachable c) :
    Ensures (r.extractAll cancelled) c.session
      (fun extracted _ => ∃ results, r.Gathered cancelled r.map.backedFolders results ∧
        List.Forall₂ (fun e (x : ExtractResult) => x.file = e.file ∧
          e.extraction (results.getD e.folder .untouched) = .ok x.extraction) r.map.files extracted)
      (fun fault s' => (r.decodeAll cancelled).run c.session = (.error fault, s')) := by
  have hall : Ensures (r.decodeAll cancelled) c.session
      (fun results _ => r.Gathered cancelled r.map.backedFolders results)
      (fun fault s' => (r.decodeAll cancelled).run c.session = (.error fault, s')) :=
    ((decodeAll_ensures cancelled hr hc).and (Ensures.run_eq _ _)).mono (fun _ _ h => h.1.2)
      fun _ _ h => h.2
  unfold extractAll
  refine hall.bind fun results s' hgathered => ?_
  -- collecting the files cannot fail any more
  obtain ⟨extracted, hcollect, hextracted⟩ := hgathered.collectFiles_ok hmap
  rw [hcollect]
  exact Ensures.pure ⟨results, hgathered, hextracted⟩

/-- The contents that an extraction of all files gives for those of a folder. -/
def contentsIn (r : Reader σ) (folder : Nat) (extracted : List ExtractResult) : List Bytes :=
  extracted.filterMap fun x =>
    if r.map.fileFolders[x.file]? = some (some folder) then
      x.extraction.file?.map ExtractedFile.content
    else none

/-- The contents given for a folder are those of its files. -/
theorem contentsIn_eq (content? : FileSpan → Option Bytes)
    (hmap : StreamMap.derive r.archive = .ok r.map) {extracted : List ExtractResult}
    (h : List.Forall₂ (fun e (x : ExtractResult) => x.file = e.file ∧
      (e.folder = folder → x.extraction.file?.map ExtractedFile.content = content? e))
      r.map.files extracted) :
    r.contentsIn folder extracted = (r.map.filesOf folder).filterMap content? := by
  have hpart := map_partitions hmap
  -- the map finds for each file the folder that the file says itself
  have hfolder : ∀ e ∈ r.map.files,
      (r.map.fileFolders[e.file]? = some (some folder) ↔ e.folder = folder) := by
    intro e he
    have hown := (hpart.fileFolder e.file e.folder).mpr ⟨e, he, rfl, rfl⟩
    rw [hown]
    exact ⟨fun h => Option.some.inj (Option.some.inj h), fun h => by rw [h]⟩
  unfold contentsIn StreamMap.filesOf
  generalize r.map.files = files at h hfolder
  induction h with
  | nil => rfl
  | @cons e x files extracted hx _ ih =>
    obtain ⟨hfirst, hrest⟩ := List.forall_mem_cons.mp hfolder
    rw [List.filterMap_cons, hx.1, ih hrest, List.filter_cons]
    -- a file of the folder adds its content, and one of another folder nothing
    by_cases heq : e.folder = folder
    · rw [if_pos (hfirst.mpr heq), hx.2 heq, if_pos (decide_eq_true heq), List.filterMap_cons]
    · rw [if_neg (mt hfirst.mp heq), if_neg (by simpa using heq)]

/-! ### Nothing is cut short -/

/-- No file is ever found to lie beyond the output of its folder: not by a caller, whoever is about,
and not when the results of all folders are cut. -/
structure CutsNothingShort (r : Reader σ) : Prop where
  /-- However the reader is used, it is in one of the scenes that are spoken of. -/
  after : ∀ (outside : σ) (uses : List (Use σ)),
    ∃ c : Scene σ, c.session = r.after (r.start outside) uses ∧ r.Reachable c
  /-- What is wrong with a folder comes from getting its output. -/
  extract : ∀ (c : Scene σ) (file : Nat) (fault : FolderFault), r.Reachable c →
    ((r.extract file).run c.session).1 = .error (.folder fault) →
      ∃ e, r.map.findFile file = some e ∧
        ((r.folderOutput e.folder).run c.session).1 = .error (.folder fault)
  call : ∀ (c c' : Scene σ) (e : FileSpan) (output : Bytes), r.Reachable c → e ∈ r.map.files →
    r.Turns e.folder (c, .requesting) (c', .finished (.ok output)) →
      e.cut output = .ok (e.withContent output)
  extractAll : ∀ (c : Scene σ) (cancelled : StateM σ Bool) (fault : ReaderFault), r.Reachable c →
    ((r.extractAll cancelled).run c.session).1 = .error fault →
      ((r.decodeAll cancelled).run c.session).1 = .error fault
  pool : ∀ (c : Scene σ) (cancelled : StateM σ Bool) (schedule : List Nat) (workers : Nat)
    (results : List FolderResult), r.Reachable c → 0 < workers →
    ((r.decodeInPool cancelled r.map.backedFolders schedule workers).run c.session).1 =
      .ok results →
      ∃ extracted, collectFiles results r.map.files = .ok extracted

/-- Nothing is cut short, whatever source and decoder do outside of the reader and with it. -/
theorem ActsByAdvances.cutsNothingShort (hr : r.ActsByAdvances)
    (hmap : StreamMap.derive r.archive = .ok r.map) :
    r.CutsNothingShort where
  after := hr.exists_reachable
  extract c file fault hc hfault := by
    have hpart := map_partitions hmap
    cases hfind : r.map.findFile file with
    | none =>
      -- no such entry, or nothing to decode
      unfold extract at hfault
      rw [hfind] at hfault
      split at hfault
      · cases hfault
      · cases hfault
    | some e =>
      obtain ⟨he, rfl⟩ := (hpart.findFile file e).mp hfind
      refine ⟨e, rfl, ?_⟩
      rw [extract_run hr hmap hc he] at hfault
      rcases hget : (r.folderOutput e.folder).run c.session with ⟨fault' | output, s'⟩
      · rw [hget] at hfault
        exact congrArg Except.error (Except.error.inj hfault)
      · rw [hget] at hfault
        exact absurd hfault FileSpan.not_folder_of_deliver
  call c c' e output hc he hturns := (Turns.canDecode hturns hc).cut_eq hmap he
  extractAll c cancelled fault hc hfault := by
    have hall := (extractAll_ensures cancelled hr hmap hc).error hfault
    rw [hall]
  pool c cancelled schedule workers results hc hworkers hresults := by
    have hpool := decodeInPool_ensures cancelled hr hc r.map.backedFolders schedule
      hworkers
    obtain ⟨extracted, hcollect, -⟩ := (hpool.ok hresults).2.collectFiles_ok hmap
    exact ⟨extracted, hcollect⟩

/-! ### The whole output -/

/-- Among the results of all files, those of the folder are their slices of the output, unless the
folder was cancelled. -/
def DeliversAll (r : Reader σ) (folder : Nat) (output : Bytes) (cancelled : StateM σ Bool)
    (extracted : List ExtractResult) : Prop :=
  extracted.map ExtractResult.file = r.map.files.map FileSpan.file ∧
    (r.contentsIn folder extracted = (r.map.filesOf folder).map (fun e => e.slice output) ∨
      (∃ outside, (cancelled outside).1 = true) ∧ r.contentsIn folder extracted = [])

/-- What is delivered of the files of a folder with the given output. -/
structure Delivers (r : Reader σ) (folder : Nat) (output : Bytes) : Prop where
  end_le : ∀ e ∈ r.map.filesOf folder, e.offset + e.size ≤ output.length
  /-- The slices of the files are the whole output. -/
  flatten : ((r.map.filesOf folder).map fun e => e.slice output).flatten = output
  /-- However a lone caller uses the reader, it is in a scene where nobody is at a decode. -/
  after : ∀ (outside : σ) (uses : List (Use σ)), ∃ c : Scene σ,
    c.session = r.after (r.start outside) uses ∧ r.Reachable c ∧ c.cache.Rests
  /-- Files that are extracted one after another, in any order, are their slices. -/
  extract : r.config.crcPolicy = .report → ∀ c : Scene σ, r.Reachable c → c.cache.Rests →
    ∀ files : List FileSpan, (∀ e ∈ files, e ∈ r.map.filesOf folder) →
      ((files.mapM fun e => r.extract e.file).run c.session).1 =
        .ok (files.map fun e => e.withContent output)
  /-- A file that is extracted while others are about is its slice, too. -/
  extract_eq : ∀ (c : Scene σ) (e : FileSpan) (file : ExtractedFile), r.Reachable c →
    e ∈ r.map.filesOf folder → ((r.extract e.file).run c.session).1 = .ok file →
      file = e.withContent output
  call : ∀ (c c' : Scene σ) (outcome : Outcome), r.Reachable c →
    r.Turns folder (c, .requesting) (c', .finished outcome) → outcome = .ok output
  extractAll : ∀ (c : Scene σ) (cancelled : StateM σ Bool) (extracted : List ExtractResult),
    r.Reachable c → ((r.extractAll cancelled).run c.session).1 = .ok extracted →
      r.DeliversAll folder output cancelled extracted
  /-- Workers deliver the same under every schedule. -/
  pool : ∀ (c : Scene σ) (cancelled : StateM σ Bool) (schedule : List Nat) (workers : Nat)
    (results : List FolderResult), r.Reachable c → 0 < workers →
    ((r.decodeInPool cancelled r.map.backedFolders schedule workers).run c.session).1 =
      .ok results →
      ∃ extracted, collectFiles results r.map.files = .ok extracted ∧
        r.DeliversAll folder output cancelled extracted
  /-- All files are extracted if all folders come to bytes or decode errors. -/
  extractAll_ok : ∀ (c : Scene σ) (cancelled : StateM σ Bool), r.Reachable c → c.cache.Rests →
    (∀ fault, ¬r.Ends r.map.backedFolders fault) →
      ∃ extracted, ((r.extractAll cancelled).run c.session).1 = .ok extracted

/-- A folder has one output where source and decoder are functions. -/
theorem determined_of_pure {size : Except SourceFault Nat}
    {read : (offset length : Nat) → Except SourceFault Bytes}
    {decode : Coder → List Bytes → Option Nat → Except DecoderFault Bytes}
    (hsource : r.source = .pure size read) (hdecoder : r.decoder = .pure decode) :
    ∃ outcomes, r.Determined outcomes := by
  refine ⟨fun folder => ((decodeFolder r.archive r.map (.pure size read : Source Unit)
    (.pure decode) r.config folder).run ()).1, fun folder s => ?_⟩
  unfold Reader.decode
  rw [hsource, hdecoder]
  refine Prod.ext ?_ ?_
  · -- the answers are the same as without any session
    have hlowers : Lowers (fun _ : Session σ => ())
        (decodeFolder r.archive r.map (.pure size read) (.pure decode) r.config folder)
        (decodeFolder r.archive r.map (.pure size read) (.pure decode) r.config folder) := by
      refine decodeFolder_lowers (fun _ : Session σ => ()) _ _ ?_ ?_ _ _
      · exact fun _ _ _ => rfl
      · exact fun _ _ _ _ => rfl
    have hanswer := congrArg Prod.fst (hlowers s)
    exact hanswer
  · have hkeeps : Ensures
        (decodeFolder r.archive r.map (.pure size read) (.pure decode) r.config folder) s
        (fun _ s' => s' = s) (fun _ s' => s' = s) :=
      decodeFolder_keeps _ _ (fun _ _ _ h => h) (fun _ _ _ _ h => h) rfl
    exact Ensures.always_iff (P := fun s' => s' = s) |>.mp hkeeps

theorem actsByAdvances_of_pure {size : Except SourceFault Nat}
    {read : (offset length : Nat) → Except SourceFault Bytes}
    {decode : Coder → List Bytes → Option Nat → Except DecoderFault Bytes}
    (hsource : r.source = .pure size read) (hdecoder : r.decoder = .pure decode) :
    r.ActsByAdvances := by
  refine ActsByAdvances.of_cache_eq ?_ ?_
  · intro s offset length
    rw [hsource]
    rfl
  · intro s coder inputs expected
    rw [hdecoder]
    rfl

theorem folderOutput_alone (hr : r.Determined outcomes) (hacts : r.ActsByAdvances)
    (hc : r.Reachable c) (hrests : c.cache.Rests) (houtput : outcomes folder = .ok output) :
    ∃ c', (r.folderOutput folder).run c.session = (.ok output, c'.session) ∧
      r.Advances c c' ∧ c'.cache.Rests := by
  obtain ⟨c', hget, hadvances, hrests'⟩ := folderOutcome_alone hr hacts hc hrests folder
  refine ⟨c', ?_, hadvances, hrests'⟩
  unfold folderOutput
  rw [runExcept_bind, runExcept_liftM, hget, houtput]
  rfl

/-- Files of one folder, one after another. -/
theorem mapM_extract_alone (hr : r.Determined outcomes) (hacts : r.ActsByAdvances)
    (hmap : StreamMap.derive r.archive = .ok r.map) (hreport : r.config.crcPolicy = .report)
    (houtput : outcomes folder = .ok output) (hc : r.Reachable c) (hrests : c.cache.Rests)
    {files : List FileSpan} (hfiles : ∀ e ∈ files, e ∈ r.map.filesOf folder) :
    ((files.mapM fun e => r.extract e.file).run c.session).1 =
      .ok (files.map fun e => e.withContent output) := by
  induction files generalizing c with
  | nil => rfl
  | cons e files ih =>
    obtain ⟨hfirst, hrest⟩ := List.forall_mem_cons.mp hfiles
    obtain ⟨he, hfolder⟩ := List.mem_filter.mp hfirst
    obtain rfl : e.folder = folder := of_decide_eq_true hfolder
    -- the first file is cut out, and the others find a cache at rest again
    obtain ⟨c', hget, hadvances, hrests'⟩ := folderOutput_alone hr hacts hc hrests houtput
    have hextract := extract_run hacts hmap hc he
    rw [hget, hreport] at hextract
    dsimp only at hextract
    rw [FileSpan.deliver_report] at hextract
    rw [List.mapM_cons, runExcept_bind, hextract]
    dsimp only
    rw [runExcept_bind]
    have hothers := ih (hc.advances hadvances) hrests' hrest
    rcases hrun : (files.mapM fun e => r.extract e.file).run c'.session with ⟨fault | got, s'⟩
    · rw [hrun] at hothers
      cases hothers
    · rw [hrun] at hothers
      obtain rfl := Except.ok.inj hothers
      rw [hrun]
      rfl

/-- What a result that stands gives for a file, where the folder has one output. -/
theorem content_eq (hr : r.Determined outcomes) (hmap : StreamMap.derive r.archive = .ok r.map)
    (he : e ∈ r.map.files) (houtput : outcomes e.folder = .ok output) {result : FolderResult}
    {x : Extraction} (hstands : result.Stands r cancelled e.folder) (hdone : result ≠ .untouched)
    (hx : e.extraction result = .ok x) :
    x.file?.map ExtractedFile.content =
      if result = .cancelled then none else some (e.slice output) := by
  obtain ⟨x', hx', hdecoded, hcancelled⟩ := extraction_ok hmap he hstands
  obtain rfl : x' = x := Except.ok.inj (hx'.symm.trans hx)
  -- the folder has an output, so decoding it has not failed
  cases result with
  | untouched => exact absurd rfl hdone
  | cancelled =>
    rw [if_pos rfl, hcancelled rfl]
    rfl
  | failed error =>
    have hfails := hr.eq_of_canDecode hstands
    rw [houtput] at hfails
    cases hfails
  | decoded output' =>
    have hsame := hr.eq_of_canDecode hstands
    rw [houtput] at hsame
    obtain rfl : output = output' := Except.ok.inj hsame
    rw [if_neg nofun, hdecoded output rfl]
    rfl

/-- What is cut out of the results of all folders, where the folder has one output. -/
theorem deliversAll_of_gathered (hr : r.Determined outcomes)
    (hmap : StreamMap.derive r.archive = .ok r.map) (houtput : outcomes folder = .ok output)
    {results : List FolderResult} {extracted : List ExtractResult}
    (hgathered : r.Gathered cancelled r.map.backedFolders results)
    (hall : List.Forall₂ (fun e (x : ExtractResult) => x.file = e.file ∧
      e.extraction (results.getD e.folder .untouched) = .ok x.extraction) r.map.files extracted) :
    r.DeliversAll folder output cancelled extracted := by
  refine ⟨map_file_eq (hall.imp fun _ _ h => h.1), ?_⟩
  have hcontents : List.Forall₂ (fun e (x : ExtractResult) => x.file = e.file ∧
      (e.folder = folder → x.extraction.file?.map ExtractedFile.content =
        if results.getD folder .untouched = .cancelled then none else some (e.slice output)))
      r.map.files extracted := by
    refine List.forall₂_iff_zip.mpr ⟨hall.length_eq, fun {e x} hmem => ?_⟩
    have he : e ∈ r.map.files := (List.of_mem_zip hmem).1
    obtain ⟨hfile, hx⟩ := (List.forall₂_iff_zip.mp hall).2 hmem
    refine ⟨hfile, ?_⟩
    rintro rfl
    exact content_eq hr hmap he houtput (hgathered.getD_stands _)
      (hgathered.getD_ne_untouched hmap he) hx
  -- the files of a folder are all delivered or all cancelled, as they share its result
  by_cases hcancelled : results.getD folder .untouched = .cancelled
  · simp only [if_pos hcancelled] at hcontents
    refine .inr ⟨?_, ?_⟩
    · have hstands := hgathered.getD_stands folder
      rw [hcancelled] at hstands
      exact hstands
    · rw [contentsIn_eq (fun _ => none) hmap hcontents]
      exact List.filterMap_none _
  · simp only [if_neg hcancelled] at hcontents
    refine .inl ?_
    rw [contentsIn_eq (fun e => some (e.slice output)) hmap hcontents]
    exact congrFun List.filterMap_eq_map _

/-- **The whole output is delivered**, where the folder has one. -/
theorem Determined.delivers (hr : r.Determined outcomes) (hacts : r.ActsByAdvances)
    (hmap : StreamMap.derive r.archive = .ok r.map) (hcan : r.CanDecode folder (.ok output))
    {span : FolderSpan} (hspan : r.map.folders[folder]? = some span)
    (hpos : 0 < span.substreamCount) : r.Delivers folder output := by
  have hpart := map_partitions hmap
  have hlength := hcan.length_eq hmap hspan
  -- every decode of the folder comes to this output
  have houtput : outcomes folder = .ok output := hr.eq_of_canDecode hcan
  constructor
  case end_le =>
    intro e he
    rw [hlength]
    exact hpart.end_le hspan he
  case flatten => exact hpart.flatten_slices hspan hpos hlength
  case after =>
    intro outside uses
    obtain ⟨c, hsession, hc⟩ := hacts.exists_reachable outside uses
    refine ⟨c, hsession, hc, ?_⟩
    have hrests := hr.keeps_rests.after (Cache.rests_empty _) uses (s := r.start outside)
    rwa [← hsession] at hrests
  case extract =>
    intro hreport c hc hrests files hfiles
    exact mapM_extract_alone hr hacts hmap hreport houtput hc hrests hfiles
  case extract_eq =>
    intro c e file hc hmem hfile
    obtain ⟨he, hfolder⟩ := List.mem_filter.mp hmem
    obtain rfl : e.folder = folder := of_decide_eq_true hfolder
    rw [extract_run hacts hmap hc he] at hfile
    rcases hget : (r.folderOutput e.folder).run c.session with ⟨fault | output', s'⟩
    · rw [hget] at hfile
      cases hfile
    · have hcan := folderOutput_canDecode hacts hc (congrArg Prod.fst hget)
      have hsame := hr.eq_of_canDecode hcan
      rw [houtput] at hsame
      obtain rfl : output = output' := Except.ok.inj hsame
      rw [hget] at hfile
      exact FileSpan.eq_of_deliver hfile
  case call =>
    intro c c' outcome hc hturns
    rw [← hr.eq_of_canDecode (Turns.canDecode hturns hc), houtput]
  case extractAll =>
    intro c cancelled extracted hc hextracted
    obtain ⟨results, hgathered, hall⟩ :=
      (extractAll_ensures cancelled hacts hmap hc).ok hextracted
    exact deliversAll_of_gathered hr hmap houtput hgathered hall
  case pool =>
    -- a pool gathers what one worker gathers
    intro c cancelled schedule workers results hc hworkers hresults
    have hpool := decodeInPool_ensures cancelled hacts hc r.map.backedFolders schedule hworkers
    have hgathered := (hpool.ok hresults).2
    obtain ⟨extracted, hcollect, hall⟩ := hgathered.collectFiles_ok hmap
    exact ⟨extracted, hcollect, deliversAll_of_gathered hr hmap houtput hgathered hall⟩
  case extractAll_ok =>
    intro c cancelled hc hrests hends
    cases hend : ((r.extractAll cancelled).run c.session).1 with
    | ok extracted => exact ⟨extracted, rfl⟩
    | error fault =>
      -- then decoding the folders has failed, but nobody has waited and no folder has ended it
      have hdecode := (extractAll_ensures cancelled hacts hmap hc).error hend
      have hfails := ((decodeAll_ensures cancelled hacts hc).error
        (congrArg Prod.fst hdecode)).2
      have halone := ((decodeAll_alone cancelled hr hrests).error (congrArg Prod.fst hdecode)).2
      rcases hfails with hstalled | ⟨own, -, hown⟩
      · exact absurd hstalled halone
      · exact absurd hown (hends own)

/-- What a decode past the cache gives, decoding the folder can give. -/
theorem canDecode_of_decodeUncached {s : Session σ}
    (h : ((r.decodeUncached folder).run s).1 = .ok output) : r.CanDecode folder (.ok output) := by
  refine ⟨s, ?_⟩
  unfold decodeUncached at h
  split at h
  · cases h
  · rw [runExcept_bind, runExcept_liftM] at h
    cases hend : (r.decode folder s).1 with
    | error fault =>
      rw [hend] at h
      cases h
    | ok output' =>
      rw [hend] at h
      exact congrArg Except.ok (Except.ok.inj h)

/-- **What an extraction delivers.** If source and decoder are functions and a folder that has
substreams decodes, the contents that are delivered of its files, by one call for each or by one for
all, are their slices of the output, and one behind the other they are the output. And whatever
source and decoder are, no file is found to lie beyond the output of its folder. -/
theorem ofArchive_delivers {a : Archive} {source : Source (Session σ)}
    {decoder : Decoder (Session σ)} {config : Config}
    (h : ofArchive a (some source) decoder config = .ok r) :
    (∀ (size : Except SourceFault Nat) (read : (offset length : Nat) → Except SourceFault Bytes)
        (decode : Coder → List Bytes → Option Nat → Except DecoderFault Bytes),
      source = .pure size read → decoder = .pure decode →
      ∀ (folder : Nat) (span : FolderSpan) (s : Session σ) (output : Bytes),
        r.map.folders[folder]? = some span → 0 < span.substreamCount →
        ((r.decodeUncached folder).run s).1 = .ok output → r.Delivers folder output) ∧
      (r.ActsByAdvances → r.CutsNothingShort) := by
  obtain ⟨hmap, rfl, hsource, hdecoder, -⟩ := ofArchive_ok h
  refine ⟨?_, fun hacts => hacts.cutsNothingShort hmap⟩
  intro size read decode hread hdecode folder span s output hspan hpos houtput
  have hread : r.source = .pure size read := (Option.some.inj hsource).symm.trans hread
  have hdecode : r.decoder = .pure decode := hdecoder.trans hdecode
  obtain ⟨outcomes, hr⟩ := determined_of_pure hread hdecode
  exact hr.delivers (actsByAdvances_of_pure hread hdecode) hmap
    (canDecode_of_decodeUncached houtput) hspan
    hpos

/-- Two workers extract a folder with two files and another one, and a decoder that makes the reader
forget a folder while it decodes cuts nothing short either. -/
theorem ofArchive_delivers_two_folders :
    let copy : Folder := { coders := [{ methodId := [0] }] }
    let a : Archive :=
      { packSizes := [3, 4], folders := [copy, copy]
        substreams := some
          { counts := [2, 1], sizes := [1, 2, 4], crcs := [none, none, none]
            counts_sum := rfl, crcs_length := rfl }
        entries := [{ name := "a" }, { name := "b", kind := .directory }, { name := "c" },
          { name := "d" }] }
    let source : Source (Session Unit) := .ofBytes [10, 11, 12, 20, 21, 22, 23]
    let config : Config := { crcPolicy := .report, concurrency := 2 }
    let forgetful : Decoder (Session Unit) := fun coder inputs expected s =>
      (Decoder.runBuiltin coder inputs expected, { s with cache := s.cache.release 0 })
    ∃ r r' : Reader Unit,
      ofArchive a (some source) .builtin config = .ok r ∧ r.Delivers 0 [10, 11, 12] ∧
        ((r.extractAll (pure false)).run (r.start ())).1.toOption.map (r.contentsIn 0) =
          some [[10], [11, 12]] ∧
        ofArchive a (some source) forgetful config = .ok r' ∧ r'.CutsNothingShort := by
  intro copy a source config forgetful
  refine ⟨_, _, rfl, ?_, by decide +kernel, rfl, ?_⟩
  · have hdelivers := (@ofArchive_delivers Unit _ a source .builtin config rfl).1 (.ok 7)
      (readRange [10, 11, 12, 20, 21, 22, 23]) Decoder.runBuiltin rfl rfl
    exact hdelivers 0 _ { cache := .empty 2, outside := () } _ rfl (by decide) rfl
  · refine (@ofArchive_delivers Unit _ a source forgetful config rfl).2 ⟨?_, ?_⟩
    · exact fun c offset length _ => ⟨c, rfl, .refl⟩
    · exact fun c coder inputs expected _ => ⟨_, rfl, .single (.release c 0)⟩

end Reader

end SolidArchive
