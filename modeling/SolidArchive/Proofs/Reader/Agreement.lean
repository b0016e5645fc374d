import SolidArchive.Proofs.Reader.ScheduleFree

/-!
# One file or all files

A file can be extracted on its own, or with all others. On its own, its folder is looked up in the
table of files, a wrong checksum may be refused, and whatever goes wrong is an error. With all
others, its folder is one of those that have a first file, a wrong checksum is a result like any
other, and so is a folder that does not decode. Both come to the same
(`Reader.ofArchive_extractsAlike`), because both come from what the folder comes to: there are three
ways in which that can become a result (`FileSpan.Becomes`), and each of them can be told from what
extracting the file alone gives (`Reader.Agrees`), and tells it.

How the user has wrong checksums treated is no matter for the results of all files, so they are
spoken of for one reader, while a file on its own is extracted by the same reader with either policy
(`Reader.withPolicy`).
-/

namespace SolidArchive

open Reader

variable {σ : Type} {r : Reader σ} {outcomes : Nat → Outcome} {s : Session σ} {e : FileSpan}
  {x : ExtractResult} {outcome : Outcome} {schedule : List Nat}

/-! ### Checksums -/

namespace ExtractedFile

variable {f : ExtractedFile} {error : IntegrityError}

/-- A checksum is not wrong if it is right or if there is none to compare it with. -/
theorem integrityError?_eq_none_iff :
    f.integrityError? = none ↔ f.crcStatus = .verified ∨ f.crcStatus = .unverifiable := by
  unfold integrityError? crcStatus
  cases f.expectedCrc with
  | none => simp
  | some crc =>
    by_cases hcrc : crc = f.actualCrc
    · simp [hcrc]
    · simp [hcrc]

/-- `ExtractedFile.integrityError?` finds an error just when the content has another checksum than
the one that is defined, and the error names the entry and both. -/
theorem integrityError?_eq_some_iff :
    f.integrityError? = some error ↔ f.crcStatus = .mismatch ∧ f.expectedCrc = some error.expected ∧
      error.file = f.file ∧ error.actual = f.actualCrc := by
  unfold integrityError? crcStatus
  cases f.expectedCrc with
  | none => simp
  | some crc =>
    by_cases hcrc : crc = f.actualCrc
    · simp [hcrc]
    · simp only [if_neg hcrc, Option.some.injEq, true_and]
      constructor
      · rintro rfl
        exact ⟨rfl, rfl, rfl⟩
      · rintro ⟨rfl, hfile, hactual⟩
        rw [← hfile, ← hactual]

end ExtractedFile

/-! ### The three results of a file -/

namespace FileSpan

/-- What a file becomes if its folder comes to the outcome. -/
inductive Becomes (e : FileSpan) : Outcome → Extraction → Prop where
  | extracted {output : Bytes} (h : (e.withContent output).integrityError? = none) :
    Becomes e (.ok output) (.extracted (e.withContent output))
  | integrityFailed {output : Bytes} {error : IntegrityError}
    (h : (e.withContent output).integrityError? = some error) :
    Becomes e (.ok output) (.integrityFailed (e.withContent output) error)
  | decodeFailed (error : DecodeError) :
    Becomes e (.error (.decode error)) (.decodeFailed (some error))

/-- The result of a file is what the file becomes. -/
theorem Yields.becomes (h : e.Yields outcomes x)
    (hcut : ∀ output, outcomes e.folder = .ok output → e.cut output = .ok (e.withContent output)) :
    e.Becomes (outcomes e.folder) x.extraction := by
  obtain ⟨-, result, hresult, hx⟩ := h
  generalize outcomes e.folder = outcome at hresult hcut
  cases outcome with
  | ok output =>
    obtain rfl := Except.ok.inj hresult
    unfold FileSpan.extraction at hx
    dsimp only at hx
    rw [hcut output rfl] at hx
    dsimp only at hx
    -- the content is there, and the check of it decides
    cases hwrong : (e.withContent output).integrityError? with
    | none =>
      rw [hwrong] at hx
      rw [← Except.ok.inj hx]
      exact .extracted hwrong
    | some error =>
      rw [hwrong] at hx
      rw [← Except.ok.inj hx]
      exact .integrityFailed hwrong
  | error fault =>
    cases fault with
    | decode error =>
      obtain rfl := Except.ok.inj hresult
      rw [← Except.ok.inj hx]
      exact .decodeFailed error
    | structural error => cases hresult
    | foreign thrown => cases hresult

/-- What comes out of an output that is long enough is delivered. -/
theorem answer_ok {output : Bytes} (hcut : e.cut output = .ok (e.withContent output))
    (policy : CrcPolicy) : e.answer policy (some (.ok output)) = e.deliver policy output := by
  unfold answer
  dsimp only
  rw [hcut]
  rfl

/-- A file with the wrong checksum is refused. -/
theorem deliver_refuse {output : Bytes} {error : IntegrityError}
    (h : (e.withContent output).integrityError? = some error) :
    e.deliver .refuse output = .error (.integrity error) := by
  unfold deliver
  rw [h]

/-- A file without a wrong checksum is not. -/
theorem deliver_of_none {output : Bytes} (h : (e.withContent output).integrityError? = none)
    (policy : CrcPolicy) : e.deliver policy output = .ok (e.withContent output) := by
  unfold deliver
  rw [h]

namespace Becomes

variable {result : Extraction} {policy : CrcPolicy} {file : ExtractedFile} {text : String}

theorem extracted_iff (h : e.Becomes outcome result)
    (hcut : ∀ output, outcome = .ok output → e.cut output = .ok (e.withContent output)) :
    result = .extracted file ↔ e.answer policy (some outcome) = .ok file ∧
      (file.crcStatus = .verified ∨ file.crcStatus = .unverifiable) := by
  rw [← ExtractedFile.integrityError?_eq_none_iff]
  cases h with
  | @extracted output hright =>
    rw [answer_ok (hcut output rfl), deliver_of_none hright]
    constructor
    · intro heq
      obtain rfl := Extraction.extracted.inj heq
      exact ⟨rfl, hright⟩
    · rintro ⟨heq, -⟩
      rw [Except.ok.inj heq]
  | @integrityFailed output error hwrong =>
    rw [answer_ok (hcut output rfl)]
    constructor
    · intro heq
      cases heq
    · -- only a file whose checksum is wrong can be delivered
      rintro ⟨hdelivered, hright⟩
      obtain rfl := eq_of_deliver hdelivered
      exact nomatch hright.symm.trans hwrong
  | decodeFailed error =>
    constructor
    · intro heq
      cases heq
    · rintro ⟨heq, -⟩
      cases heq

theorem integrityFailed_iff (h : e.Becomes outcome result)
    (hcut : ∀ output, outcome = .ok output → e.cut output = .ok (e.withContent output)) :
    ((∃ error, result = .integrityFailed file error) ∧ result.errorText = text) ↔
      (e.answer .report (some outcome) = .ok file ∧ file.crcStatus = .mismatch) ∧
        ∃ error : IntegrityError, e.answer .refuse (some outcome) = .error (.integrity error) ∧
          error.file = e.file ∧ file.expectedCrc = some error.expected ∧
          error.actual = file.actualCrc ∧ error.message = text := by
  cases h with
  | @extracted output hright =>
    rw [answer_ok (hcut output rfl), answer_ok (hcut output rfl), deliver_of_none hright,
      deliver_of_none hright]
    constructor
    · rintro ⟨⟨error, heq⟩, -⟩
      cases heq
    · rintro ⟨-, error, heq, -⟩
      cases heq
  | @integrityFailed output error hwrong =>
    obtain ⟨hmismatch, hexpected, hfile, hactual⟩ :=
      ExtractedFile.integrityError?_eq_some_iff.mp hwrong
    rw [answer_ok (hcut output rfl), answer_ok (hcut output rfl), deliver_report,
      deliver_refuse hwrong]
    constructor
    · -- reported or refused, it is the one error that the checksum gives
      rintro ⟨⟨error', heq⟩, htext⟩
      obtain ⟨rfl, rfl⟩ := Extraction.integrityFailed.inj heq
      exact ⟨⟨rfl, hmismatch⟩, error, rfl, hfile, hexpected, hactual, htext⟩
    · rintro ⟨⟨hdelivered, -⟩, error', hrefused, -, -, -, htext⟩
      obtain rfl := Except.ok.inj hdelivered
      obtain rfl : error = error' := ReaderFault.integrity.inj (Except.error.inj hrefused)
      exact ⟨⟨error, rfl⟩, htext⟩
  | decodeFailed error =>
    constructor
    · rintro ⟨⟨error', heq⟩, -⟩
      cases heq
    · rintro ⟨⟨heq, -⟩, -⟩
      cases heq

theorem decodeFailed_iff (h : e.Becomes outcome result)
    (hcut : ∀ output, outcome = .ok output → e.cut output = .ok (e.withContent output)) :
    ((∃ error?, result = .decodeFailed error?) ∧ result.file? = none ∧ result.errorText = text) ↔
      ∃ error : DecodeError, e.answer policy (some outcome) = .error (.folder (.decode error)) ∧
        error.message = text := by
  -- only one of the three ways is a failed decode, and only that is refused as such
  cases h with
  | @extracted output hright =>
    rw [answer_ok (hcut output rfl)]
    constructor
    · rintro ⟨⟨error?, heq⟩, -⟩
      cases heq
    · rintro ⟨error, heq, -⟩
      exact absurd heq not_folder_of_deliver
  | @integrityFailed output error hwrong =>
    rw [answer_ok (hcut output rfl)]
    constructor
    · rintro ⟨⟨error?, heq⟩, -⟩
      cases heq
    · rintro ⟨error, heq, -⟩
      exact absurd heq not_folder_of_deliver
  | decodeFailed error =>
    constructor
    · rintro ⟨-, -, htext⟩
      exact ⟨error, rfl, htext⟩
    · rintro ⟨error', heq, htext⟩
      cases heq
      exact ⟨⟨some error, rfl⟩, rfl, htext⟩

/-- `.decodeFailed none` is for files whose folder nobody has come to, so a folder with an outcome
makes none. -/
theorem ne_untouched (h : e.Becomes outcome result) : result ≠ .decodeFailed none := by
  cases h with
  | _ => exact nofun

end Becomes

end FileSpan

/-! ### Extracting a file alone -/

namespace Reader

/-- The reader with another policy. -/
def withPolicy (r : Reader σ) (policy : CrcPolicy) : Reader σ :=
  { r with config := { r.config with crcPolicy := policy } }

/-- The result of a file agrees with what extracting the file alone comes to, whatever has been done
with the reader before. -/
structure Agrees (r : Reader σ) (x : ExtractResult) : Prop where
  /-- A file is extracted with all others if it is extracted alone and its checksum is not wrong. -/
  extracted : ∀ (policy : CrcPolicy) (s : Session σ), r.Idle s → ∀ file : ExtractedFile,
    x.extraction = .extracted file ↔
      (((r.withPolicy policy).extract x.file).run s).1 = .ok file ∧
        (file.crcStatus = .verified ∨ file.crcStatus = .unverifiable)
  /-- Its checksum is wrong if it is marked so where that is reported, and if it is refused for
  that, with the same text, where it is not. -/
  integrityFailed : ∀ s s' : Session σ, r.Idle s → r.Idle s' →
    ∀ (file : ExtractedFile) (text : String),
      ((∃ error, x.extraction = .integrityFailed file error) ∧ x.extraction.errorText = text) ↔
        ((((r.withPolicy .report).extract x.file).run s).1 = .ok file ∧
            file.crcStatus = .mismatch) ∧
          ∃ error : IntegrityError,
            (((r.withPolicy .refuse).extract x.file).run s').1 = .error (.integrity error) ∧
              error.file = x.file ∧ file.expectedCrc = some error.expected ∧
              error.actual = file.actualCrc ∧ error.message = text
  /-- Its folder does not decode if extracting it alone is that error, and then there is no file. -/
  decodeFailed : ∀ (policy : CrcPolicy) (s : Session σ), r.Idle s → ∀ text : String,
    ((∃ error?, x.extraction = .decodeFailed error?) ∧ x.extraction.file? = none ∧
        x.extraction.errorText = text) ↔
      ∃ error : DecodeError,
        (((r.withPolicy policy).extract x.file).run s).1 = .error (.folder (.decode error)) ∧
          error.message = text

/-- To extract all files gives one result for each entry with content, and each of them agrees with
what extracting the file alone comes to. -/
structure ExtractsAlike (r : Reader σ) (extracted : List ExtractResult) : Prop where
  /-- However the reader is used, nobody is at it afterwards. -/
  after : ∀ (s : Session σ) (uses : List (Use σ)), r.Idle s → r.Idle (r.after s uses)
  /-- The results are those of the entries with content, in their order. -/
  files : extracted.map ExtractResult.file = r.archive.entries.findIdxs Entry.hasContent
  agrees : ∀ x ∈ extracted, r.Agrees x
  /-- They are the same with either policy and whatever has been done with the reader before. -/
  extractAll : ∀ (policy : CrcPolicy) (s : Session σ), r.Idle s →
    (((r.withPolicy policy).extractAll (pure false)).run s).1 = .ok extracted
  /-- And under every schedule. -/
  extractAllUnder : ∀ (policy : CrcPolicy) (schedule : List Nat) (s : Session σ), r.Idle s →
    (r.withPolicy policy).Finishes schedule s →
      (((r.withPolicy policy).extractAllUnder schedule).run s).1 = .ok extracted
  /-- No file has a folder that nobody has come to. -/
  taken : ∀ (policy : CrcPolicy) (schedule : List Nat) (s : Session σ), r.Idle s →
    (r.withPolicy policy).Finishes schedule s → ∀ x ∈ extracted,
      x.extraction ≠ .decodeFailed none ∧ ∃ e, r.map.findFile x.file = some e ∧
        ∃! taker, (taker, e.folder) ∈ (r.withPolicy policy).takers schedule s

section

variable (hr : r.Determined outcomes) (hmap : StreamMap.derive r.archive = .ok r.map)

include hr hmap

/-- **A file on its own** comes to what there is of its folder, as the policy has it. -/
theorem Idle.extract_eq (hidle : r.Idle s) (he : e ∈ r.map.files) :
    ((r.extract e.file).run s).1 = e.answer r.config.crcPolicy (some (outcomes e.folder)) := by
  obtain ⟨c, rfl, -, ⟨entries, hsettled⟩, hslots⟩ := hidle.exists_scene hr
  have hpart := map_partitions hmap
  have hfile : ¬r.archive.entries.length ≤ e.file := Nat.not_le.mpr (file_lt hmap he)
  have hfind : r.map.findFile e.file = some e := hpart.findFile_eq he
  have hlt : e.folder < c.cache.slots.length := by
    rw [hslots, ← length_map_folders hmap]
    exact hpart.folder_lt e he
  -- nobody has to wait, so the file gets what its folder comes to
  obtain ⟨s', hget, -⟩ := folderOutcome_settled hr hsettled hlt
  rw [extract_access]
  unfold Access.extract
  rw [if_neg hfile, hfind]
  show e.answer r.config.crcPolicy (r.folderOutcome e.folder c.session).1 = _
  rw [hget]

/-- What a folder has come to is long enough for its files. -/
theorem Determined.cut_eq (s : Session σ) (he : e ∈ r.map.files) {output : Bytes}
    (houtput : outcomes e.folder = .ok output) : e.cut output = .ok (e.withContent output) := by
  have hcan : r.CanDecode e.folder (outcomes e.folder) := ⟨s, congrArg Prod.fst (hr e.folder s)⟩
  rw [houtput] at hcan
  exact hcan.cut_eq hmap he

/-- **The result of a file** agrees with extracting it alone. -/
theorem Determined.agrees (s : Session σ) (he : e ∈ r.map.files) (hyields : e.Yields outcomes x) :
    r.Agrees x := by
  have hcut : ∀ output, outcomes e.folder = .ok output →
      e.cut output = .ok (e.withContent output) :=
    fun output => hr.cut_eq hmap s he
  have hbecomes := hyields.becomes hcut
  -- the policy does not matter for what folders come to
  have hsame : ∀ policy, (r.withPolicy policy).Determined outcomes := fun _ => hr
  have halone : ∀ (policy : CrcPolicy) (s' : Session σ), r.Idle s' →
      (((r.withPolicy policy).extract x.file).run s').1 =
        e.answer policy (some (outcomes e.folder)) := by
    intro policy s' hidle
    rw [hyields.1]
    exact Idle.extract_eq (r := r.withPolicy policy) (hsame policy) hmap hidle he
  constructor
  case extracted =>
    intro policy s' hidle file
    rw [halone policy s' hidle]
    exact hbecomes.extracted_iff hcut
  case integrityFailed =>
    intro s₁ s₂ hidle₁ hidle₂ file text
    rw [halone .report s₁ hidle₁, halone .refuse s₂ hidle₂, hyields.1]
    exact hbecomes.integrityFailed_iff hcut
  case decodeFailed =>
    intro policy s' hidle text
    rw [halone policy s' hidle]
    exact hbecomes.decodeFailed_iff hcut

/-- **All files** are extracted as each is alone. -/
theorem Determined.extractsAlike (hbySteps : r.ActsBySteps)
    (hacts : ∀ policy, (r.withPolicy policy).ActsByAdvances)
    (hnone : ∀ fault, ¬r.Ends r.map.backedFolders fault) (hidle : r.Idle s) :
    ∃ extracted, r.ExtractsAlike extracted := by
  -- under either policy a schedule of its own brings the pool to its end
  have hfair : ∀ (policy : CrcPolicy) (s' : Session σ), r.Idle s' →
      (r.withPolicy policy).Finishes (Pool.schedule _ _) s' := fun policy s' hidle' =>
    Idle.finishes (r := r.withPolicy policy) hr hmap hidle' (Pool.fair_schedule _ _)
  -- what comes out of one run comes out of every run
  obtain ⟨extracted, -, hyields⟩ := Idle.extractAllUnder_ok (r := r.withPolicy .report) hr hmap
    hidle (hacts .report) hnone (hfair .report s hidle)
  have hunder : ∀ (policy : CrcPolicy) (schedule : List Nat) (s' : Session σ), r.Idle s' →
      (r.withPolicy policy).Finishes schedule s' →
        (((r.withPolicy policy).extractAllUnder schedule).run s').1 = .ok extracted :=
    fun policy schedule s' hidle' hfinishes =>
      Idle.extractAllUnder_eq (r := r.withPolicy policy) hr hmap hidle' (hacts policy) hnone
        hfinishes hyields
  refine ⟨extracted, ?_⟩
  constructor
  case after => exact fun s' uses hidle' => hidle'.after hr hmap hbySteps uses
  case files =>
    rw [← (map_partitions hmap).file]
    exact map_file_eq (hyields.imp fun _ _ h => h.1)
  case agrees =>
    intro x hx
    obtain ⟨e, he, hx⟩ := exists_file_of_mem hyields hx
    exact hr.agrees hmap s he hx
  case extractAll =>
    exact fun policy s' hidle' => hunder policy _ s' hidle' (hfair policy s' hidle')
  case extractAllUnder => exact hunder
  case taken =>
    intro policy schedule s' hidle' hfinishes x hx
    obtain ⟨e, he, hx⟩ := exists_file_of_mem hyields hx
    constructor
    · exact (hx.becomes fun _ => hr.cut_eq hmap s he).ne_untouched
    · refine ⟨e, ?_, ?_⟩
      · exact ((map_partitions hmap).findFile x.file e).mpr ⟨he, hx.1.symm⟩
      · obtain ⟨results, hresults⟩ :=
          exists_ok_of_cutAll (hunder policy schedule s' hidle' hfinishes)
        -- all backed folders have been taken, each by one worker
        have htakers := takers_eq hresults
        have hbacked : e.folder ∈ r.map.backedFolders := backed_of_mem hmap he
        exact existsUnique_taker (htakers ▸ nodup_backedFolders r.map) (htakers ▸ hbacked)

end

/-- **Extracting all files and extracting each alone** come to the same: if source and decoder are
functions that fail with errors only, each result of an extraction of all files is what extracting
the file alone comes to, with either policy, whatever has been done with the reader before, and
under every schedule of its workers. -/
theorem ofArchive_extractsAlike [Nonempty σ] {a : Archive} {size : Except SourceFault Nat}
    {read : (offset length : Nat) → Except SourceFault Bytes}
    {decode : Coder → List Bytes → Option Nat → Except DecoderFault Bytes} {config : Config}
    (h : ofArchive a (some (.pure size read)) (.pure decode) config = .ok r)
    (hread : ∀ offset length thrown, read offset length ≠ .error (.foreign thrown))
    (herrors : ∀ coder inputs expected thrown,
      decode coder inputs expected ≠ .error (.foreign thrown)) :
    (∀ policy, ofArchive a (some (.pure size read)) (.pure decode)
        { config with crcPolicy := policy } = .ok (r.withPolicy policy)) ∧
      ∃ extracted, r.ExtractsAlike extracted := by
  obtain ⟨hmap, rfl, hsource, hdecoder, rfl⟩ := ofArchive_ok h
  have hsource := (Option.some.inj hsource).symm
  -- without a state the outcome of a folder is a function of the archive
  obtain ⟨outcomes, hr⟩ := determined_of_pure hsource hdecoder
  constructor
  · intro policy
    rw [← hsource, ← hdecoder]
    exact ofArchive_eq (r := r.withPolicy policy) hmap
  · obtain ⟨outside⟩ := ‹Nonempty σ›
    have hacts : ∀ policy, (r.withPolicy policy).ActsByAdvances := fun policy =>
      actsByAdvances_of_pure (r := r.withPolicy policy) hsource hdecoder
    have hreads : r.source.FailsWithErrors := by
      rw [hsource]
      exact Source.pure_failsWithErrors hread
    have hfails : r.decoder.FailsWithErrors := by
      rw [hdecoder]
      exact Decoder.pure_failsWithErrors herrors
    exact hr.extractsAlike hmap (actsBySteps_of_pure hsource hdecoder) hacts
      (not_ends hmap hreads hfails) (r.idle_start outside)

/-- Three stored files: the checksum of the first is right, that of the second is wrong, and the
third is stored by a method that nobody knows. -/
theorem ofArchive_extractsAlike_three_files :
    let folder (method : UInt8) : Folder := { coders := [{ methodId := [method] }] }
    let a : Archive :=
      { packSizes := [1, 1, 1], folders := [folder 0, folder 0, folder 1]
        substreams := some
          { counts := [1, 1, 1], sizes := [1, 1, 1]
            crcs := [some (Crc32.digest [10]), some 0, none]
            counts_sum := rfl, crcs_length := rfl }
        entries := [{ name := "a" }, { name := "b", kind := .directory }, { name := "c" },
          { name := "d" }] }
    let source : Source (Session Unit) := .ofBytes [10, 11, 12]
    ∃ (r : Reader Unit) (extracted : List ExtractResult),
      ofArchive a (some source) .builtin {} = .ok r ∧
      (∀ offset length thrown, readRange [10, 11, 12] offset length ≠ .error (.foreign thrown)) ∧
      (∀ coder inputs expected thrown,
        Decoder.runBuiltin coder inputs expected ≠ .error (.foreign thrown)) ∧
      r.ExtractsAlike extracted ∧
      extracted.map (fun x => (x.file, x.extraction.file?.map ExtractedFile.crcStatus)) =
        [(0, some .verified), (2, some .mismatch), (3, none)] := by
  intro folder a source
  obtain ⟨r, hr⟩ : ∃ r : Reader Unit, ofArchive a (some source) .builtin {} = .ok r := ⟨_, rfl⟩
  have hread := readRange_ne_foreign [10, 11, 12]
  have herrors : ∀ coder inputs expected thrown,
      Decoder.runBuiltin coder inputs expected ≠ .error (.foreign thrown) :=
    fun coder inputs expected =>
      Decoder.builtin_failsPlainly.failsWithErrors coder inputs expected ()
  obtain ⟨-, extracted, halike⟩ := ofArchive_extractsAlike (a := a) hr hread herrors
  refine ⟨r, extracted, hr, hread, herrors, halike, ?_⟩
  have hall := halike.extractAll .refuse (r.start ()) (r.idle_start ())
  have hfiles : (((r.withPolicy .refuse).extractAll (pure false)).run (r.start ())).1.toOption.map
      (List.map fun x => (x.file, x.extraction.file?.map ExtractedFile.crcStatus)) =
        some [(0, some .verified), (2, some .mismatch), (3, none)] := by
    cases hr
    decide +kernel
  rw [hall] at hfiles
  exact Option.some.inj hfiles

end Reader

end SolidArchive
