import SolidArchive.Proofs.Folder.Isolation
import SolidArchive.Proofs.Reader.Agreement

/-!
# Damage stays in its folder

If the packed bytes of one folder are changed, the other folders decode to what they decoded to
before, and with the same errors if they do not decode. A reader with its cache and its workers
makes nothing else of it (`Reader.Isolates`): to extract a file is to cut it out of what its own
folder comes to, whatever has become of other folders before or meanwhile.

So there are two readers to compare, of one archive but with sources that differ. Both have the same
map, and for all folders but one they decode alike. From that all else follows from what has been
found of each of them alone.
-/

namespace SolidArchive

open Reader

variable {σ : Type} {r r' : Reader σ} {outcomes outcomes' : Nat → Outcome} {folder : Nat}
  {extracted extracted' : List ExtractResult}

/-- Two lists that go along with a third one go along with each other. -/
theorem forall₂_meet {α β γ : Type} {R : α → β → Prop} {S : α → γ → Prop} {l : List α}
    {bs : List β} {cs : List γ} (h : List.Forall₂ R l bs) (h' : List.Forall₂ S l cs) :
    List.Forall₂ (fun b c => ∃ a ∈ l, R a b ∧ S a c) bs cs := by
  induction h generalizing cs with
  | nil =>
    cases h'
    exact .nil
  | cons hfirst hrest ih =>
    cases h' with
    | cons hfirst' hrest' =>
      refine .cons ⟨_, List.mem_cons_self, hfirst, hfirst'⟩ ((ih hrest').imp ?_)
      rintro b c ⟨a, ha, hb, hc⟩
      exact ⟨a, List.mem_cons_of_mem _ ha, hb, hc⟩

namespace Reader

/-- Two lists of results go along with each other, and they have the same results but for files of
the folder. -/
def SameButFor (r : Reader σ) (folder : Nat) (extracted extracted' : List ExtractResult) : Prop :=
  List.Forall₂ (fun x x' : ExtractResult => x.file = x'.file ∧
    (r.map.fileFolders[x.file]? ≠ some (some folder) → x = x')) extracted extracted'

/-- What is read of a folder does not matter for any other: `r` and `r'` are readers of one archive
with sources that differ in the range of the folder. -/
structure Isolates (r r' : Reader σ) (folder : Nat) : Prop where
  /-- Both have the same files in the same places. -/
  map_eq : r'.map = r.map
  decodeUncached : ∀ (other : Nat) (s s' : Session σ), other ≠ folder →
    ((r.decodeUncached other).run s).1 = ((r'.decodeUncached other).run s').1
  /-- Extracting a file that is not in the folder comes to the same, whatever has been done with the
  readers before. -/
  extract : ∀ (file : Nat) (s s' : Session σ), r.Idle s → r'.Idle s' →
    r.map.fileFolders[file]? ≠ some (some folder) →
      ((r.extract file).run s).1 = ((r'.extract file).run s').1
  /-- And so does extracting all files, for those that are not in the folder. -/
  extractAll : ∀ s s' : Session σ, r.Idle s → r'.Idle s' → ∃ extracted extracted',
    ((r.extractAll (pure false)).run s).1 = .ok extracted ∧
      ((r'.extractAll (pure false)).run s').1 = .ok extracted' ∧
      r.SameButFor folder extracted extracted'
  /-- The schedules of the workers do not matter, either. -/
  extractAllUnder : ∀ (schedule schedule' : List Nat) (s s' : Session σ), r.Idle s → r'.Idle s' →
    r.Finishes schedule s → r'.Finishes schedule' s' → ∃ extracted extracted',
      ((r.extractAllUnder schedule).run s).1 = .ok extracted ∧
        ((r'.extractAllUnder schedule').run s').1 = .ok extracted' ∧
        r.SameButFor folder extracted extracted'

/-- Results of the same files are the same where their folders come to the same. -/
theorem sameButFor_of_yields (hmap : StreamMap.derive r.archive = .ok r.map)
    (hsame : ∀ other ≠ folder, outcomes other = outcomes' other)
    (hx : List.Forall₂ (FileSpan.Yields outcomes) r.map.files extracted)
    (hx' : List.Forall₂ (FileSpan.Yields outcomes') r.map.files extracted') :
    r.SameButFor folder extracted extracted' := by
  refine (forall₂_meet hx hx').imp ?_
  rintro x x' ⟨e, he, hyields, hyields'⟩
  refine ⟨hyields.1.trans hyields'.1.symm, fun hother => ?_⟩
  have hfolder : r.map.fileFolders[e.file]? = some (some e.folder) :=
    ((map_partitions hmap).fileFolder e.file e.folder).mpr ⟨e, he, rfl, rfl⟩
  rw [hyields.1, hfolder] at hother
  have hne : e.folder ≠ folder := fun heq => hother (congrArg (some ∘ some) heq)
  -- both files come from the same outcome, which gives only one
  have hsecond : e.Yields outcomes x' := by
    unfold FileSpan.Yields
    rw [hsame e.folder hne]
    exact hyields'
  exact FileSpan.yields_unique outcomes hyields hsecond

/-- Past the cache it is what the folder comes to. -/
theorem Determined.decodeUncached_eq (hr : r.Determined outcomes) (other : Nat) (s : Session σ) :
    ((r.decodeUncached other).run s).1 =
      if r.archive.folders.length ≤ other then .error (.folderOutOfRange other)
      else (outcomes other).mapError ReaderFault.folder := by
  rw [decodeUncached_access]
  unfold Access.decodeUncached
  split
  · rfl
  · show (r.decode other s).1.mapError ReaderFault.folder = _
    rw [hr other s]

/-- A file without content is there without its folder, and so is one that is not. -/
theorem extract_of_findFile_eq_none {file : Nat} (h : r.map.findFile file = none) (s : Session σ) :
    ((r.extract file).run s).1 =
      if r.archive.entries.length ≤ file then .error (.fileOutOfRange file) else .ok { file } := by
  unfold extract
  rw [h]
  split
  · rfl
  · rfl

/-- Readers of one archive extract a file alike if its folder comes to the same for it. -/
theorem Determined.extract_congr (hr : r.Determined outcomes) (hr' : r'.Determined outcomes')
    (hmap : StreamMap.derive r.archive = .ok r.map) (harchive : r'.archive = r.archive)
    (hmap_eq : r'.map = r.map) {file : Nat}
    (halike : ∀ e ∈ r.map.files, e.file = file →
      e.answer r.config.crcPolicy (some (outcomes e.folder)) =
        e.answer r'.config.crcPolicy (some (outcomes' e.folder)))
    {s s' : Session σ} (hidle : r.Idle s) (hidle' : r'.Idle s') :
    ((r.extract file).run s).1 = ((r'.extract file).run s').1 := by
  cases hfind : r.map.findFile file with
  | none =>
    -- no folder is asked for
    have hfind' : r'.map.findFile file = none := by rw [hmap_eq, hfind]
    rw [extract_of_findFile_eq_none hfind, extract_of_findFile_eq_none hfind', harchive]
  | some e =>
    have hmap' : StreamMap.derive r'.archive = .ok r'.map := by
      rw [harchive, hmap_eq]
      exact hmap
    obtain ⟨he, rfl⟩ := ((map_partitions hmap).findFile file e).mp hfind
    have he' : e ∈ r'.map.files := hmap_eq ▸ he
    rw [hidle.extract_eq hr hmap he, hidle'.extract_eq hr' hmap' he']
    exact halike e he rfl

section

variable (hr : r.Determined outcomes) (hr' : r'.Determined outcomes')
  (hacts : r.ActsByAdvances) (hacts' : r'.ActsByAdvances)
  (hmap : StreamMap.derive r.archive = .ok r.map) (harchive : r'.archive = r.archive)
  (hmap_eq : r'.map = r.map) (hconfig : r'.config = r.config)
  (hnone : ∀ fault, ¬r.Ends r.map.backedFolders fault)
  (hnone' : ∀ fault, ¬r'.Ends r'.map.backedFolders fault)

include hr hr' hacts hacts' hmap harchive hmap_eq hconfig hnone hnone'

omit hconfig in
/-- **Two readers of one map**, of which neither can end, extract all files under any schedules, and
what is so of the results that their outcomes give is so of what they extract. -/
theorem Determined.extractAllUnder_both {rel : List ExtractResult → List ExtractResult → Prop}
    {schedule schedule' : List Nat} {s s' : Session σ}
    (hrel : ∀ {extracted extracted' : List ExtractResult},
      List.Forall₂ (FileSpan.Yields outcomes) r.map.files extracted →
      List.Forall₂ (FileSpan.Yields outcomes') r.map.files extracted' → rel extracted extracted')
    (hidle : r.Idle s) (hidle' : r'.Idle s')
    (hfinishes : r.Finishes schedule s) (hfinishes' : r'.Finishes schedule' s') :
    ∃ extracted extracted', ((r.extractAllUnder schedule).run s).1 = .ok extracted ∧
      ((r'.extractAllUnder schedule').run s').1 = .ok extracted' ∧ rel extracted extracted' := by
  have hmap' : StreamMap.derive r'.archive = .ok r'.map := by
    rw [harchive, hmap_eq]
    exact hmap
  obtain ⟨extracted, hend, hyields⟩ := hidle.extractAllUnder_ok hr hmap hacts hnone hfinishes
  obtain ⟨extracted', hend', hyields'⟩ :=
    hidle'.extractAllUnder_ok hr' hmap' hacts' hnone' hfinishes'
  rw [hmap_eq] at hyields'
  exact ⟨extracted, extracted', hend, hend', hrel hyields hyields'⟩

omit hconfig in
/-- The schedule of a bulk extraction is one under which it finishes. -/
theorem Determined.extractAll_both {rel : List ExtractResult → List ExtractResult → Prop}
    {s s' : Session σ}
    (hrel : ∀ {extracted extracted' : List ExtractResult},
      List.Forall₂ (FileSpan.Yields outcomes) r.map.files extracted →
      List.Forall₂ (FileSpan.Yields outcomes') r.map.files extracted' → rel extracted extracted')
    (hidle : r.Idle s) (hidle' : r'.Idle s') :
    ∃ extracted extracted', ((r.extractAll (pure false)).run s).1 = .ok extracted ∧
      ((r'.extractAll (pure false)).run s').1 = .ok extracted' ∧ rel extracted extracted' := by
  have hmap' : StreamMap.derive r'.archive = .ok r'.map := by
    rw [harchive, hmap_eq]
    exact hmap
  exact hr.extractAllUnder_both hr' hacts hacts' hmap harchive hmap_eq hnone hnone' hrel hidle
    hidle' (hidle.finishes hr hmap (Pool.fair_schedule _ _))
    (hidle'.finishes hr' hmap' (Pool.fair_schedule _ _))

/-- **Readers that decode all folders alike but one** extract all files alike but those of that
one. -/
theorem Determined.isolates (hsame : ∀ other ≠ folder, outcomes other = outcomes' other) :
    r.Isolates r' folder := by
  constructor
  case map_eq => exact hmap_eq
  case decodeUncached =>
    intro other s s' hne
    rw [hr.decodeUncached_eq, hr'.decodeUncached_eq, harchive, hsame other hne]
  case extract =>
    intro file s s' hidle hidle' hother
    refine hr.extract_congr hr' hmap harchive hmap_eq (fun e he hfile => ?_) hidle hidle'
    -- a file of the folder would be found in it
    have hne : e.folder ≠ folder := fun heq =>
      hother (((map_partitions hmap).fileFolder file folder).mpr ⟨e, he, hfile, heq⟩)
    rw [hconfig, hsame e.folder hne]
  case extractAll =>
    intro s s'
    exact hr.extractAll_both hr' hacts hacts' hmap harchive hmap_eq hnone hnone'
      (sameButFor_of_yields hmap hsame)
  case extractAllUnder =>
    intro schedule schedule' s s'
    exact hr.extractAllUnder_both hr' hacts hacts' hmap harchive hmap_eq hnone hnone'
      (sameButFor_of_yields hmap hsame)

end

/-- **Damage stays in its folder.** If the decoder is a function that fails with errors only, and
the bytes of two sources differ only in the range of one folder, then all other folders decode alike
from both, and all files that are not in that folder are extracted alike. -/
theorem ofArchive_isolates {a : Archive} {bytes bytes' : Bytes}
    {decode : Coder → List Bytes → Option Nat → Except DecoderFault Bytes} {config : Config}
    (h : ofArchive a (some (.ofBytes bytes)) (.pure decode) config = .ok r)
    (herrors : ∀ coder inputs expected thrown,
      decode coder inputs expected ≠ .error (.foreign thrown))
    {span : FolderSpan} (hspan : r.map.folders[folder]? = some span)
    (hbytes : SameOutside span.packOffset span.packedLength bytes bytes') :
    ∃ r', ofArchive a (some (.ofBytes bytes')) (.pure decode) config = .ok r' ∧
      r.Isolates r' folder := by
  obtain ⟨hmap, rfl, hsource, hdecoder, rfl⟩ := ofArchive_ok h
  have hsource := (Option.some.inj hsource).symm
  let r' : Reader σ := { r with source := .ofBytes bytes' }
  have hmade : ofArchive r.archive (some (.ofBytes bytes')) (.pure decode) r.config = .ok r' := by
    rw [← hdecoder]
    exact ofArchive_eq (r := r') hmap
  have hdecoder' : r'.decoder = .pure decode := hdecoder
  obtain ⟨outcomes, hr⟩ := determined_of_pure hsource hdecoder
  obtain ⟨damaged, hr'⟩ := determined_of_pure (r := r') rfl hdecoder'
  have halike : ∀ other ≠ folder, r'.decode other = r.decode other := by
    intro other hne
    unfold Reader.decode
    rw [hsource]
    exact (StreamMap.decodeFolder_sameOutside hmap hspan hne hbytes r.decoder r.config).symm
  -- only the outcome of the folder may have changed
  have hr' : r'.Determined (Function.update outcomes folder (damaged folder)) := by
    intro other s
    by_cases hother : other = folder
    · subst hother
      rw [Function.update_self]
      exact hr' other s
    · rw [Function.update_of_ne hother, halike other hother]
      exact hr other s
  have hsame : ∀ other ≠ folder,
      outcomes other = Function.update outcomes folder (damaged folder) other :=
    fun other hne => (Function.update_of_ne hne _ _).symm
  have hread : r.source.FailsWithErrors := by
    rw [hsource]
    exact Source.ofBytes_failsWithErrors bytes
  have hfails : r.decoder.FailsWithErrors := by
    rw [hdecoder]
    exact Decoder.pure_failsWithErrors herrors
  exact ⟨r', hmade, hr.isolates hr' (actsByAdvances_of_pure hsource hdecoder)
    (actsByAdvances_of_pure (r := r') rfl hdecoder') hmap rfl rfl rfl
    (not_ends hmap hread hfails)
    (not_ends (r := r') hmap (Source.ofBytes_failsWithErrors bytes') hfails) hsame⟩

/-- Two stored files, each in its own folder with a checksum, and the byte of the second is damaged.
Then the second has the wrong checksum, and the first is as it was. -/
theorem ofArchive_isolates_two_folders :
    let crc (bytes : Bytes) := some (Crc32.digest bytes)
    let copy : Folder := { coders := [{ methodId := [0] }] }
    let a : Archive :=
      { packSizes := [2, 1], folders := [copy, copy]
        substreams := some
          { counts := [1, 1], sizes := [2, 1], crcs := [crc [10, 11], crc [12]]
            counts_sum := rfl, crcs_length := rfl }
        entries := [{ name := "a" }, { name := "b" }] }
    let source (bytes : Bytes) : Source (Session Unit) := .ofBytes bytes
    let statuses (r : Reader Unit) : Option (List (Option CrcStatus)) :=
      ((r.extractAll (pure false)).run (r.start ())).1.toOption.map
        (List.map fun x => x.extraction.file?.map ExtractedFile.crcStatus)
    ∃ r r' : Reader Unit,
      ofArchive a (some (source [10, 11, 12])) .builtin { concurrency := 2 } = .ok r ∧
      ofArchive a (some (source [10, 11, 13])) .builtin { concurrency := 2 } = .ok r' ∧
      SameOutside 2 1 [10, 11, 12] [10, 11, 13] ∧ r.Isolates r' 1 ∧
      statuses r = some [some .verified, some .verified] ∧
      statuses r' = some [some .verified, some .mismatch] := by
  intro crc copy a source statuses
  obtain ⟨r, hr⟩ : ∃ r : Reader Unit,
      ofArchive a (some (source [10, 11, 12])) .builtin { concurrency := 2 } = .ok r := ⟨_, rfl⟩
  have herrors : ∀ coder inputs expected thrown,
      Decoder.runBuiltin coder inputs expected ≠ .error (.foreign thrown) :=
    fun coder inputs expected =>
      Decoder.builtin_failsPlainly.failsWithErrors coder inputs expected ()
  -- the last byte is all that the second folder reads
  have hbytes : SameOutside 2 1 [10, 11, 12] [10, 11, 13] := by
    refine ⟨rfl, fun i hi => ?_⟩
    match i with
    | 0 => rfl
    | 1 => rfl
    | 2 => exact absurd ⟨le_rfl, Nat.lt_succ_self 2⟩ hi
    | i + 3 => rfl
  obtain ⟨span, hspan, hoffset, hlength⟩ : ∃ span, r.map.folders[1]? = some span ∧
      span.packOffset = 2 ∧ span.packedLength = 1 := by
    cases hr
    exact ⟨_, rfl, rfl, rfl⟩
  have hrange : SameOutside span.packOffset span.packedLength [10, 11, 12] [10, 11, 13] := by
    rw [hoffset, hlength]
    exact hbytes
  obtain ⟨r', hr', hisolates⟩ := ofArchive_isolates (a := a) hr herrors hspan hrange
  refine ⟨r, r', hr, hr', hbytes, hisolates, ?_, ?_⟩
  · cases hr
    decide +kernel
  · cases hr'
    decide +kernel

end Reader

end SolidArchive
