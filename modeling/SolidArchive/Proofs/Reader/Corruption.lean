import SolidArchive.Proofs.Crc32
import SolidArchive.Proofs.Folder.Stored
import SolidArchive.Proofs.Reader.Certificates
import SolidArchive.Proofs.Reader.Isolation

/-!
# Damage to a stored file

In a stored folder each file has its own range of the source, and a change in the range of one file
is a change of its content and of nothing else. If the change is not longer than the register of the
checksum, the checksum changes, too (`SameOutside.digest_ne`). So a file that was verified before is
found to be broken, and it alone: its siblings have their bytes elsewhere in the output, and the
files of other folders have them in other folders (`Reader.ofArchive_spoils`).

What is delivered of a file depends on the output of its folder only through what is cut out of it
(`FileSpan.CutsAlike`), and this is how the files that are not hit are told to be the same.
-/

namespace SolidArchive

open Reader

variable {σ : Type} {r r' : Reader σ} {outcomes outcomes' : Nat → Outcome} {e : FileSpan}
  {bytes bytes' : Bytes} {k offset length : Nat}

/-- As much is cut out of the one as of the other. -/
theorem SameOutside.length_slice_eq (h : SameOutside offset length bytes bytes')
    (start size : Nat) :
    ((bytes.drop start).take size).length = ((bytes'.drop start).take size).length := by
  rw [List.length_take, List.length_take, List.length_drop, List.length_drop, h.length_eq]

/-- **A short change of a range** changes the checksum of all that is cut out around it. -/
theorem SameOutside.digest_ne (h : SameOutside offset length bytes bytes') (hne : bytes ≠ bytes')
    (hshort : length ≤ 4) {start size : Nat} (hfirst : start ≤ offset)
    (hlast : offset + length ≤ start + size) :
    Crc32.digest ((bytes.drop start).take size) ≠
      Crc32.digest ((bytes'.drop start).take size) := by
  intro hsame
  obtain ⟨before, after, hslice, hslice'⟩ := h.exists_slice_eq hfirst hlast
  rw [hslice, hslice'] at hsame
  -- under one digest the four bytes are the same, and so is all else
  apply hne
  apply h.eq_of_slice_eq
  apply Crc32.digest_window_injective (h.length_slice_eq offset length) _ hsame
  exact (List.length_take_le _ _).trans hshort

/-! ### What a file is cut out of -/

namespace FileSpan

/-- Where the output is a range of the source, so is the content of a file. -/
theorem slice_range {start size : Nat} (hend : e.offset + e.size ≤ size) (bytes : Bytes) :
    e.slice ((bytes.drop start).take size) = (bytes.drop (start + e.offset)).take e.size := by
  rw [slice, List.drop_take, List.take_take, List.drop_drop, Nat.min_eq_left (by omega)]

/-- A file that has no byte of the changed range is cut out of the output as before. -/
theorem cut_eq_of_sameOutside {start size : Nat} (h : SameOutside offset length bytes bytes')
    (hend : e.offset + e.size ≤ size)
    (hout : offset + length ≤ start + e.offset ∨ start + e.offset + e.size ≤ offset) :
    e.cut ((bytes.drop start).take size) = e.cut ((bytes'.drop start).take size) := by
  have hslice : e.slice ((bytes.drop start).take size) =
      e.slice ((bytes'.drop start).take size) := by
    rw [slice_range hend, slice_range hend]
    exact h.slice_eq fun i _ _ => by omega
  unfold slice at hslice
  rw [cut, cut, h.length_slice_eq start size, hslice]

/-- A file that was verified has the wrong checksum after a short change in its range. -/
theorem exists_integrityError {start size : Nat} (h : SameOutside offset length bytes bytes')
    (hne : bytes ≠ bytes') (hshort : length ≤ 4) (hend : e.offset + e.size ≤ size)
    (hfirst : start + e.offset ≤ offset) (hlast : offset + length ≤ start + e.offset + e.size)
    (hverified : (e.withContent ((bytes.drop start).take size)).crcStatus = .verified) :
    ∃ error, (e.withContent ((bytes'.drop start).take size)).integrityError? = some error := by
  have hcrc : e.crc = some (Crc32.digest (e.slice ((bytes.drop start).take size))) :=
    ExtractedFile.crcStatus_eq_verified_iff.mp hverified
  -- what was right before cannot be right for the new content
  have hwrong : Crc32.digest (e.slice ((bytes.drop start).take size)) ≠
      Crc32.digest (e.slice ((bytes'.drop start).take size)) := by
    rw [slice_range hend, slice_range hend]
    exact h.digest_ne hne hshort hfirst hlast
  unfold withContent ExtractedFile.integrityError?
  rw [hcrc]
  dsimp only
  rw [if_neg hwrong]
  exact ⟨_, rfl⟩

/-- The same file is cut out of two outcomes, or both are the same failure. -/
def CutsAlike (e : FileSpan) (outcome outcome' : Outcome) : Prop :=
  outcome = outcome' ∨ ∃ output output', outcome = .ok output ∧ outcome' = .ok output' ∧
    e.cut output = e.cut output'

namespace CutsAlike

variable {outcome outcome' : Outcome}

theorem answer_eq (h : e.CutsAlike outcome outcome') (policy : CrcPolicy) :
    e.answer policy (some outcome) = e.answer policy (some outcome') := by
  rcases h with rfl | ⟨output, output', rfl, rfl, hcut⟩
  · rfl
  · unfold answer
    dsimp only
    rw [hcut]

/-- What one of them yields the other yields, too. -/
theorem yields {x : ExtractResult} (h : e.CutsAlike (outcomes e.folder) (outcomes' e.folder))
    (hx : e.Yields outcomes x) : e.Yields outcomes' x := by
  obtain ⟨hfile, result, hresult, hextraction⟩ := hx
  refine ⟨hfile, ?_⟩
  rcases h with hsame | ⟨output, output', houtput, houtput', hcut⟩
  · exact ⟨result, hsame ▸ hresult, hextraction⟩
  · rw [houtput] at hresult
    rw [houtput']
    refine ⟨_, rfl, ?_⟩
    obtain rfl := Except.ok.inj hresult
    -- both results are decoded, and the file is cut out of either in the same way
    unfold extraction at hextraction ⊢
    dsimp only at hextraction ⊢
    rwa [← hcut]

end CutsAlike

end FileSpan

namespace Reader

/-! ### Stored folders of a reader -/

/-- The folder is stored: its only coder copies, and its pack stream is not checked. -/
structure Stores (r : Reader σ) (k : Nat) : Prop where
  coder : ∃ (f : Folder) (c : Coder), r.archive.folders[k]? = some f ∧ f.coders = [c] ∧
    Codec.method c.methodId = .ok .copy
  unchecked : r.config.verifyPackCrcs = false ∨ ∀ span, r.map.folders[k]? = some span →
    r.archive.packCrc span.firstPackStream = none

variable {span : FolderSpan} {output : Bytes}

/-- A file that is delivered alone is cut out of what its folder comes to. -/
theorem Idle.exists_output {s : Session σ} (hidle : r.Idle s) (hr : r.Determined outcomes)
    (hmap : StreamMap.derive r.archive = .ok r.map) (he : e ∈ r.map.files) {x : ExtractedFile}
    (hx : ((r.extract e.file).run s).1 = .ok x) :
    ∃ output, outcomes e.folder = .ok output ∧ x = e.withContent output := by
  rw [hidle.extract_eq hr hmap he] at hx
  cases houtcome : outcomes e.folder with
  | error fault =>
    rw [houtcome] at hx
    cases hx
  | ok output =>
    rw [houtcome, FileSpan.answer_ok (hr.cut_eq hmap s he houtcome)] at hx
    exact ⟨output, rfl, FileSpan.eq_of_deliver hx⟩

/-- **A stored folder** that decodes comes to the bytes of its range, also from any other source of
the same length. -/
theorem Determined.stored (hr : r.Determined outcomes)
    (hmap : StreamMap.derive r.archive = .ok r.map) (hsource : r.source = .ofBytes bytes)
    (hdecoder : r.decoder = .builtin) (hstored : r.Stores k)
    (hspan : r.map.folders[k]? = some span) (hok : outcomes k = .ok output) (s : Session σ) :
    output = (bytes.drop span.packOffset).take span.packedLength ∧
      ∀ (bytes' : Bytes) (outcomes' : Nat → Outcome), bytes.length = bytes'.length →
        ({ r with source := .ofBytes bytes' } : Reader σ).Determined outcomes' →
          outcomes' k = .ok ((bytes'.drop span.packOffset).take span.packedLength) := by
  obtain ⟨f, g, hfolder, hmaps⟩ := exists_mapsFolder hmap hspan
  obtain ⟨f', c, hfolder', hcoders, hcopy⟩ := hstored.coder
  obtain rfl : f' = f := Option.some.inj (hfolder'.symm.trans hfolder)
  have hunchecked : r.config.verifyPackCrcs = false ∨
      r.archive.packCrc span.firstPackStream = none :=
    hstored.unchecked.imp_right fun hnone => hnone span hspan
  have hdecode : (r.decode k s).1 = .ok output := by rw [hr k s, hok]
  unfold Reader.decode at hdecode
  rw [hsource, hdecoder] at hdecode
  obtain ⟨hfits, houtput⟩ :=
    (hmaps.decodeFolder_stored hmap hcoders hcopy hunchecked s).mp hdecode
  refine ⟨houtput, fun bytes' outcomes' hlength hr' => ?_⟩
  -- all that has to be so is said of the length of the source
  rw [hlength] at hfits
  have hdecode' := (hmaps.decodeFolder_stored hmap hcoders hcopy hunchecked s).mpr ⟨hfits, rfl⟩
  rw [← hdecoder] at hdecode'
  have hanswer := congrArg Prod.fst (hr' k s)
  exact hanswer.symm.trans hdecode'

/-- The files of a folder that comes to a range of the source lie in that range. -/
theorem Determined.end_le_of_range (hr : r.Determined outcomes)
    (hmap : StreamMap.derive r.archive = .ok r.map) (hspan : r.map.folders[k]? = some span)
    (hrange : outcomes k = .ok ((bytes.drop span.packOffset).take span.packedLength))
    (he : e ∈ r.map.filesOf k) (s : Session σ) : e.offset + e.size ≤ span.packedLength := by
  have hcan : r.CanDecode k (.ok ((bytes.drop span.packOffset).take span.packedLength)) :=
    ⟨s, (congrArg Prod.fst (hr k s)).trans hrange⟩
  calc e.offset + e.size
    _ ≤ span.unpackLength := (map_partitions hmap).end_le hspan he
    _ = ((bytes.drop span.packOffset).take span.packedLength).length :=
      (hcan.length_eq hmap hspan).symm
    _ ≤ span.packedLength := List.length_take_le _ _

/-- **The other files.** Let a folder come to its range of the source before and after a change in
the range of one of its files. Then all other files are cut out as before. -/
theorem Determined.cutsAlike_others (hr : r.Determined outcomes)
    (hr' : ({ r with source := .ofBytes bytes' } : Reader σ).Determined outcomes')
    (hmap : StreamMap.derive r.archive = .ok r.map) (hsource : r.source = .ofBytes bytes)
    (he : e ∈ r.map.files) (hspan : r.map.folders[e.folder]? = some span)
    (hrange : outcomes e.folder = .ok ((bytes.drop span.packOffset).take span.packedLength))
    (hrange' : outcomes' e.folder = .ok ((bytes'.drop span.packOffset).take span.packedLength))
    (hbytes : SameOutside offset length bytes bytes')
    (hfirst : span.packOffset + e.offset ≤ offset)
    (hlast : offset + length ≤ span.packOffset + e.offset + e.size) (s : Session σ)
    {other : FileSpan} (hother : other ∈ r.map.files) (hne : other.file ≠ e.file) :
    other.CutsAlike (outcomes other.folder) (outcomes' other.folder) := by
  have hmem : e ∈ r.map.filesOf e.folder := List.mem_filter.mpr ⟨he, decide_eq_true rfl⟩
  by_cases hsame : other.folder = e.folder
  · -- a sibling has its bytes before those of the file or behind them
    have hmem' : other ∈ r.map.filesOf e.folder :=
      List.mem_filter.mpr ⟨hother, decide_eq_true hsame⟩
    have hend := hr.end_le_of_range hmap hspan hrange hmem' s
    have hapart :=
      (map_partitions hmap).apart hmem' hmem fun heq => hne (congrArg FileSpan.file heq)
    right
    rw [hsame]
    refine ⟨_, _, hrange, hrange', ?_⟩
    apply FileSpan.cut_eq_of_sameOutside hbytes hend
    omega
  · -- another folder has its pack streams outside of the range
    have hend := hr.end_le_of_range hmap hspan hrange hmem s
    have hfolder : SameOutside span.packOffset span.packedLength bytes bytes' :=
      hbytes.widen (by omega) (by omega)
    let r' : Reader σ := { r with source := .ofBytes bytes' }
    have halike : r.decode other.folder = r'.decode other.folder := by
      unfold Reader.decode
      rw [hsource]
      exact StreamMap.decodeFolder_sameOutside hmap hspan hsame hfolder r.decoder r.config
    have houtcome : (outcomes other.folder, s) = (outcomes' other.folder, s) := by
      rw [← hr, ← hr', halike]
    exact .inl (congrArg Prod.fst houtcome)

/-! ### Damage to one file -/

/-- Two lists of results go along with each other. The file is extracted in the first and has the
wrong checksum in the second, and all others have the same results. -/
structure BreaksOne (file : Nat) (extracted extracted' : List ExtractResult) : Prop where
  present : ∃ x ∈ extracted, x.file = file
  results : List.Forall₂ (fun x x' : ExtractResult => x.file = x'.file ∧
    (x.file ≠ file → x = x') ∧ (x.file = file →
      (∃ before, x.extraction = .extracted before) ∧
        ∃ after error, x'.extraction = .integrityFailed after error)) extracted extracted'

/-- The reader `r'` finds one file broken, and all others as `r` finds them. -/
structure Spoils (r r' : Reader σ) (file : Nat) : Prop where
  map_eq : r'.map = r.map
  /-- Extracting the file is refused for its checksum, whatever has been done with the reader. -/
  refused : r'.config.crcPolicy = .refuse → ∀ s : Session σ, r'.Idle s →
    ∃ error : IntegrityError, ((r'.extract file).run s).1 = .error (.integrity error) ∧
      error.file = file
  /-- Or the wrong checksum is reported, if that is what is asked for. -/
  reported : r'.config.crcPolicy = .report → ∀ s : Session σ, r'.Idle s →
    ∃ x : ExtractedFile, ((r'.extract file).run s).1 = .ok x ∧ x.file = file ∧
      x.crcStatus = .mismatch
  extract : ∀ (other : Nat) (s s' : Session σ), other ≠ file → r.Idle s → r'.Idle s' →
    ((r.extract other).run s).1 = ((r'.extract other).run s').1
  extractAll : ∀ s s' : Session σ, r.Idle s → r'.Idle s' → ∃ extracted extracted',
    ((r.extractAll (pure false)).run s).1 = .ok extracted ∧
      ((r'.extractAll (pure false)).run s').1 = .ok extracted' ∧
      BreaksOne file extracted extracted'
  /-- The schedules of the workers do not matter. -/
  extractAllUnder : ∀ (schedule schedule' : List Nat) (s s' : Session σ), r.Idle s → r'.Idle s' →
    r.Finishes schedule s → r'.Finishes schedule' s' → ∃ extracted extracted',
      ((r.extractAllUnder schedule).run s).1 = .ok extracted ∧
        ((r'.extractAllUnder schedule').run s').1 = .ok extracted' ∧
        BreaksOne file extracted extracted'

/-- Results of files that are cut out of outcomes alike are the same, and a file is broken whose
checksum is right in the one and wrong in the other. -/
theorem breaksOne_of_yields {files : List FileSpan} {extracted extracted' : List ExtractResult}
    (hx : List.Forall₂ (FileSpan.Yields outcomes) files extracted)
    (hx' : List.Forall₂ (FileSpan.Yields outcomes') files extracted')
    (hothers : ∀ other ∈ files, other.file ≠ e.file →
      other.CutsAlike (outcomes other.folder) (outcomes' other.folder))
    (hone : ∀ other ∈ files, other.file = e.file → other = e) (he : e ∈ files)
    (hright : ∀ x, e.Yields outcomes x → ∃ before, x.extraction = .extracted before)
    (hwrong : ∀ x, e.Yields outcomes' x →
      ∃ after error, x.extraction = .integrityFailed after error) :
    BreaksOne e.file extracted extracted' := by
  constructor
  case present =>
    have hfiles := map_file_eq (hx.imp fun _ _ hyields => hyields.1)
    have hmem : e.file ∈ extracted.map ExtractResult.file := by
      rw [hfiles]
      exact List.mem_map_of_mem he
    exact List.mem_map.mp hmem
  case results =>
    -- the two runs are compared file by file
    refine (forall₂_meet hx hx').imp ?_
    rintro x x' ⟨other, hother, hyields, hyields'⟩
    refine ⟨hyields.1.trans hyields'.1.symm, fun hne => ?_, fun heq => ?_⟩
    · rw [hyields.1] at hne
      have hmoved := (hothers other hother hne).yields hyields
      exact FileSpan.yields_unique outcomes' hmoved hyields'
    · rw [hyields.1] at heq
      obtain rfl := hone other hother heq
      exact ⟨hright x hyields, hwrong x' hyields'⟩

/-- A file whose checksum is right is extracted. -/
theorem extracted_of_yields {x : ExtractResult} {output : Bytes} (hyields : e.Yields outcomes x)
    (houtput : outcomes e.folder = .ok output) (hcut : e.cut output = .ok (e.withContent output))
    (hright : (e.withContent output).integrityError? = none) :
    x.extraction = .extracted (e.withContent output) := by
  have hbecomes := hyields.becomes fun output' houtput' => by
    obtain rfl := Except.ok.inj (houtput.symm.trans houtput')
    exact hcut
  rw [houtput] at hbecomes
  generalize x.extraction = result at hbecomes ⊢
  cases hbecomes with
  | extracted _ => rfl
  | integrityFailed h => exact nomatch hright.symm.trans h

/-- A file whose checksum is wrong is marked so. -/
theorem integrityFailed_of_yields {x : ExtractResult} {output : Bytes} {error : IntegrityError}
    (hyields : e.Yields outcomes x) (houtput : outcomes e.folder = .ok output)
    (hcut : e.cut output = .ok (e.withContent output))
    (hwrong : (e.withContent output).integrityError? = some error) :
    ∃ error', x.extraction = .integrityFailed (e.withContent output) error' := by
  have hbecomes := hyields.becomes fun output' houtput' => by
    obtain rfl := Except.ok.inj (houtput.symm.trans houtput')
    exact hcut
  rw [houtput] at hbecomes
  generalize x.extraction = result at hbecomes ⊢
  cases hbecomes with
  | extracted h => exact nomatch hwrong.symm.trans h
  | integrityFailed _ => exact ⟨_, rfl⟩

section

variable (hr : r.Determined outcomes) (hr' : r'.Determined outcomes')
  (hacts : r.ActsByAdvances) (hacts' : r'.ActsByAdvances)
  (hmap : StreamMap.derive r.archive = .ok r.map) (harchive : r'.archive = r.archive)
  (hmap_eq : r'.map = r.map) (hconfig : r'.config = r.config)
  (hnone : ∀ fault, ¬r.Ends r.map.backedFolders fault)
  (hnone' : ∀ fault, ¬r'.Ends r'.map.backedFolders fault)

include hr hr' hacts hacts' hmap harchive hmap_eq hconfig hnone hnone'

/-- **Readers that cut all files alike but one**, which is right for the one reader and wrong for
the other, differ in nothing else. -/
theorem Determined.spoils (he : e ∈ r.map.files)
    (hothers : ∀ other ∈ r.map.files, other.file ≠ e.file →
      other.CutsAlike (outcomes other.folder) (outcomes' other.folder))
    {output output' : Bytes} (houtput : outcomes e.folder = .ok output)
    (houtput' : outcomes' e.folder = .ok output')
    (hright : (e.withContent output).integrityError? = none) {error : IntegrityError}
    (hwrong : (e.withContent output').integrityError? = some error) :
    r.Spoils r' e.file := by
  have hpart := map_partitions hmap
  have hmap' : StreamMap.derive r'.archive = .ok r'.map := by
    rw [harchive, hmap_eq]
    exact hmap
  have he' : e ∈ r'.map.files := hmap_eq ▸ he
  -- alone, the file is what its outcome makes of it
  have hanswer : ∀ s : Session σ, r'.Idle s →
      ((r'.extract e.file).run s).1 = e.deliver r'.config.crcPolicy output' := by
    intro s hidle
    have hcut := hr'.cut_eq hmap' s he' houtput'
    rw [hidle.extract_eq hr' hmap' he', houtput', FileSpan.answer_ok hcut]
  -- and with all others it is extracted in the one case and marked in the other
  have hbreaks : ∀ (s s' : Session σ) {extracted extracted' : List ExtractResult},
      List.Forall₂ (FileSpan.Yields outcomes) r.map.files extracted →
      List.Forall₂ (FileSpan.Yields outcomes') r.map.files extracted' →
      BreaksOne e.file extracted extracted' := by
    intro s s' extracted extracted' hyields hyields'
    have hcut := hr.cut_eq hmap s he houtput
    have hcut' := hr'.cut_eq hmap' s' he' houtput'
    refine breaksOne_of_yields hyields hyields' hothers
      (fun other hother => hpart.eq_of_file_eq he hother) he ?_ ?_
    · exact fun x hx => ⟨_, extracted_of_yields hx houtput hcut hright⟩
    · exact fun x hx => ⟨_, integrityFailed_of_yields hx houtput' hcut' hwrong⟩
  constructor
  case map_eq => exact hmap_eq
  case refused =>
    intro hpolicy s hidle
    have hfile := (ExtractedFile.integrityError?_eq_some_iff.mp hwrong).2.2.1
    rw [hanswer s hidle, hpolicy]
    exact ⟨error, FileSpan.deliver_refuse hwrong, hfile⟩
  case reported =>
    intro hpolicy s hidle
    have hmismatch := (ExtractedFile.integrityError?_eq_some_iff.mp hwrong).1
    rw [hanswer s hidle, hpolicy]
    exact ⟨_, FileSpan.deliver_report e output', rfl, hmismatch⟩
  case extract =>
    intro other s s' hne hidle hidle'
    refine hr.extract_congr hr' hmap harchive hmap_eq (fun e' hmem hfile => ?_) hidle hidle'
    rw [hconfig]
    exact (hothers e' hmem (hfile ▸ hne)).answer_eq _
  case extractAll =>
    intro s s'
    exact hr.extractAll_both hr' hacts hacts' hmap harchive hmap_eq hnone hnone' (hbreaks s s')
  case extractAllUnder =>
    intro schedule schedule' s s'
    exact hr.extractAllUnder_both hr' hacts hacts' hmap harchive hmap_eq hnone hnone'
      (hbreaks s s')

end

/-- **Damage to a stored file.** Let a file of a stored folder be verified, and then let up to four
bytes in a row of its range be changed. Now its checksum is wrong, and all other files are as they
were. -/
theorem ofArchive_spoils {a : Archive} {config : Config}
    (h : ofArchive a (some (.ofBytes bytes)) .builtin config = .ok r)
    (he : e ∈ r.map.files) {span : FolderSpan} (hspan : r.map.folders[e.folder]? = some span)
    (hstored : r.Stores e.folder)
    (hverified : ∃ (s : Session σ) (x : ExtractedFile), r.Idle s ∧
      ((r.extract e.file).run s).1 = .ok x ∧ x.crcStatus = .verified)
    (hbytes : SameOutside offset length bytes bytes') (hne : bytes ≠ bytes') (hshort : length ≤ 4)
    (hfirst : span.packOffset + e.offset ≤ offset)
    (hlast : offset + length ≤ span.packOffset + e.offset + e.size) :
    ∃ r', ofArchive a (some (.ofBytes bytes')) .builtin config = .ok r' ∧
      r.Spoils r' e.file := by
  obtain ⟨hmap, rfl, hsource, hdecoder, rfl⟩ := ofArchive_ok h
  have hsource := (Option.some.inj hsource).symm
  let r' : Reader σ := { r with source := .ofBytes bytes' }
  have hmade : ofArchive r.archive (some (.ofBytes bytes')) .builtin r.config = .ok r' := by
    rw [← hdecoder]
    exact ofArchive_eq (r := r') hmap
  have hdecoder' : r'.decoder = .builtin := hdecoder
  obtain ⟨outcomes, hr⟩ := determined_of_pure hsource hdecoder
  obtain ⟨outcomes', hr'⟩ := determined_of_pure (r := r') rfl hdecoder'
  -- the file was cut out of an output, which has the bytes of the range
  obtain ⟨s, x, hidle, hx, hstatus⟩ := hverified
  obtain ⟨output, houtput, rfl⟩ := hidle.exists_output hr hmap he hx
  obtain ⟨rfl, hrange'⟩ := hr.stored hmap hsource hdecoder hstored hspan houtput s
  have houtput' := hrange' bytes' outcomes' hbytes.length_eq hr'
  have hothers : ∀ other ∈ r.map.files, other.file ≠ e.file →
      other.CutsAlike (outcomes other.folder) (outcomes' other.folder) :=
    fun other hother hfile => hr.cutsAlike_others hr' hmap hsource he hspan houtput houtput' hbytes
      hfirst hlast s hother hfile
  have hright := ExtractedFile.integrityError?_eq_none_iff.mpr (.inl hstatus)
  have hmem : e ∈ r.map.filesOf e.folder := List.mem_filter.mpr ⟨he, decide_eq_true rfl⟩
  have hend := hr.end_le_of_range hmap hspan houtput hmem s
  obtain ⟨error, hwrong⟩ :=
    FileSpan.exists_integrityError hbytes hne hshort hend hfirst hlast hstatus
  have hread : r.source.FailsWithErrors := by
    rw [hsource]
    exact Source.ofBytes_failsWithErrors bytes
  have hfails : r.decoder.FailsWithErrors := by
    rw [hdecoder]
    exact Decoder.builtin_failsPlainly.failsWithErrors
  exact ⟨r', hmade, hr.spoils hr' (actsByAdvances_of_pure hsource hdecoder)
    (actsByAdvances_of_pure (r := r') rfl hdecoder') hmap rfl rfl rfl
    (not_ends hmap hread hfails)
    (not_ends (r := r') hmap (Source.ofBytes_failsWithErrors bytes') hfails) he hothers houtput
    houtput' hright hwrong⟩

/-- Two files in one stored folder and a third one in another. A byte of the first is changed, and
this file alone is found to be broken. -/
theorem ofArchive_spoils_solid :
    let crc (bytes : Bytes) := some (Crc32.digest bytes)
    let copy : Folder := { coders := [{ methodId := [0] }] }
    let a : Archive :=
      { packPosition := 1, packSizes := [3, 1], folders := [copy, copy]
        substreams := some
          { counts := [2, 1], sizes := [2, 1, 1], crcs := [crc [10, 11], crc [12], crc [13]]
            counts_sum := rfl, crcs_length := rfl }
        entries := [{ name := "a" }, { name := "b" }, { name := "c" }] }
    let source (bytes : Bytes) : Source (Session Unit) := .ofBytes bytes
    let statuses (r : Reader Unit) : Option (List (Option CrcStatus)) :=
      ((r.extractAll (pure false)).run (r.start ())).1.toOption.map
        (List.map fun x => x.extraction.file?.map ExtractedFile.crcStatus)
    ∃ r r' : Reader Unit,
      ofArchive a (some (source [0, 10, 11, 12, 13])) .builtin {} = .ok r ∧
      ofArchive a (some (source [0, 10, 7, 12, 13])) .builtin {} = .ok r' ∧
      r.Spoils r' 0 ∧
      statuses r = some [some .verified, some .verified, some .verified] ∧
      statuses r' = some [some .mismatch, some .verified, some .verified] := by
  intro crc copy a source statuses
  obtain ⟨r, hr⟩ : ∃ r : Reader Unit,
      ofArchive a (some (source [0, 10, 11, 12, 13])) .builtin {} = .ok r := ⟨_, rfl⟩
  -- one byte of the first pack stream is another one
  have hbytes : SameOutside 2 1 [0, 10, 11, 12, 13] [0, 10, 7, 12, 13] := by
    refine ⟨rfl, fun i hi => ?_⟩
    match i with
    | 0 => rfl
    | 1 => rfl
    | 2 => exact absurd ⟨le_rfl, Nat.lt_succ_self 2⟩ hi
    | 3 => rfl
    | 4 => rfl
    | i + 5 => rfl
  obtain ⟨e, span, he, hspan, hplace⟩ : ∃ e span, e ∈ r.map.files ∧
      r.map.folders[e.folder]? = some span ∧ e.file = 0 ∧ e.folder = 0 ∧ e.offset = 0 ∧
      e.size = 2 ∧ span.packOffset = 1 := by
    cases hr
    exact ⟨_, _, List.mem_cons_self, rfl, rfl, rfl, rfl, rfl, rfl⟩
  obtain ⟨hfile, hfolder, hoffset, hsize, hpack⟩ := hplace
  have hstored : r.Stores e.folder := by
    rw [hfolder]
    cases hr
    exact ⟨⟨copy, _, rfl, rfl, rfl⟩, .inr fun span _ => rfl⟩
  -- the file was right before
  have hverified : ∃ (s : Session Unit) (x : ExtractedFile), r.Idle s ∧
      ((r.extract e.file).run s).1 = .ok x ∧ x.crcStatus = .verified := by
    rw [hfile]
    let x : ExtractedFile :=
      { file := 0, content := [10, 11], expectedCrc := crc [10, 11],
        actualCrc := Crc32.digest [10, 11] }
    refine ⟨r.start (), x, r.idle_start (), ?_, by decide +kernel⟩
    cases hr
    decide +kernel
  obtain ⟨r', hr', hspoils⟩ := ofArchive_spoils (a := a) hr he hspan hstored hverified hbytes
    (by decide) (by decide) (by omega) (by omega)
  rw [hfile] at hspoils
  refine ⟨r, r', hr, hr', hspoils, ?_, ?_⟩
  · cases hr
    decide +kernel
  · cases hr'
    decide +kernel

end Reader

end SolidArchive
