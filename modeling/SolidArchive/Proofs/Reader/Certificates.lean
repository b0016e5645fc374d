import SolidArchive.Proofs.Reader.Access
import SolidArchive.Proofs.Reader.Delivery
import SolidArchive.Proofs.StreamMap.Checksums

/-!
# What a right checksum certifies

The checksum of a folder is about all that the last coder of the folder gives. Where it stands in
for that of a file (`Archive.StandsIn`), it is compared with the content of the file, so the two
have to be the same. Three parts of a reader see to that: a folder's checksum stands in only for the
one file of a folder, the sizes of the files add up to the length of the folder in the map, and a
decode gives nothing of another length, whether or not the header declares any sizes.

So whoever gets such a file, in whatever way, gets all that the last call of a decode has given
(`Reader.IsWhole`), and its checksum is right if and only if the folder's is
(`Reader.ComparesWhole`).
-/

namespace SolidArchive

open Relation

variable {σ : Type}

/-- The checksum of the folder stands in for that of its only substream. -/
def Archive.StandsIn (a : Archive) (folder substream : Nat) : Prop :=
  a.explicitCrc substream = none ∧ a.substreamCount folder = 1

namespace Archive.StandsIn

instance (a : Archive) (folder substream : Nat) : Decidable (a.StandsIn folder substream) :=
  inferInstanceAs (Decidable (_ ∧ _))

variable {a : Archive} {folder substream : Nat}

theorem promisedCrc_eq (h : a.StandsIn folder substream) :
    a.promisedCrc folder substream = a.folderCrc folder := by
  unfold Archive.promisedCrc
  rw [h.1]
  exact if_pos h.2

end Archive.StandsIn

namespace Reader

variable {r : Reader σ} {c c' : Scene σ} {cancelled : StateM σ Bool} {e : FileSpan}
  {file : ExtractedFile} {output : Bytes}

/-! ### Files that are cut out of an output -/

/-- The file with its content, from an output that the folder can have. -/
def Cuts (r : Reader σ) (e : FileSpan) (file : ExtractedFile) : Prop :=
  ∃ output, r.CanDecode e.folder (.ok output) ∧ file = e.withContent output

section

variable (hmap : StreamMap.derive r.archive = .ok r.map) (he : e ∈ r.map.files)

include hmap he

theorem cuts_of_stands {result : FolderResult} (hstands : result.Stands r cancelled e.folder)
    {x : Extraction} (hx : e.extraction result = .ok x) (hfile : x.file? = some file) :
    r.Cuts e file := by
  obtain ⟨x', hx', hdecoded, -⟩ := extraction_ok hmap he hstands
  obtain rfl : x' = x := Except.ok.inj (hx'.symm.trans hx)
  cases result with
  | decoded output =>
    rw [hdecoded output rfl] at hfile
    exact ⟨output, hstands, (Option.some.inj hfile).symm⟩
  -- all other results are without a file
  | untouched =>
    cases hx
    cases hfile
  | cancelled =>
    cases hx
    cases hfile
  | failed error =>
    cases hx
    cases hfile

/-- Whatever is delivered of all files. -/
theorem cuts_of_gathered {results : List FolderResult} {folders : List Nat}
    (hgathered : r.Gathered cancelled folders results) {extracted : List ExtractResult}
    (hall : List.Forall₂ (fun e (x : ExtractResult) => x.file = e.file ∧
      e.extraction (results.getD e.folder .untouched) = .ok x.extraction) r.map.files extracted)
    {x : ExtractResult} (hx : x ∈ extracted) (hfile : x.file = e.file)
    (hcontent : x.extraction.file? = some file) : r.Cuts e file := by
  obtain ⟨e', he', hfile', hx'⟩ := exists_file_of_mem hall hx
  obtain rfl : e' = e := (map_partitions hmap).eq_of_file_eq he he' (hfile'.symm.trans hfile)
  exact cuts_of_stands hmap he (hgathered.getD_stands e'.folder) hx' hcontent

omit hmap he in
theorem folderOutput_ne_integrity (r : Reader σ) (folder : Nat) (s : Session σ)
    (error : IntegrityError) : ((r.folderOutput folder).run s).1 ≠ .error (.integrity error) := by
  rw [folderOutput_run]
  match (r.folderOutcome folder s).1 with
  | none => exact nofun
  | some (.error fault) => exact nofun
  | some (.ok output) => exact nofun

/-- A file that is extracted alone is delivered, or it is refused for its checksum. -/
theorem extract_cuts (hr : r.ActsByAdvances) (hc : r.Reachable c) :
    Ensures (r.extract e.file) c.session (fun file _ => r.Cuts e file)
      (fun fault _ => ∀ error, fault = .integrity error →
        ∃ file, r.Cuts e file ∧ file.integrityError? = some error) := by
  unfold Ensures
  rw [extract_run hr hmap hc he]
  rcases hget : (r.folderOutput e.folder).run c.session with ⟨fault | output, s'⟩
  · -- what a folder fails with is never a checksum of a file
    rintro error rfl
    exact absurd (congrArg Prod.fst hget) (folderOutput_ne_integrity r e.folder c.session error)
  · have hcan := folderOutput_canDecode hr hc (congrArg Prod.fst hget)
    have hcuts : r.Cuts e (e.withContent output) := ⟨output, hcan, rfl⟩
    dsimp only
    unfold FileSpan.deliver
    cases hwrong : (e.withContent output).integrityError? with
    | none => exact hcuts
    | some error =>
      cases r.config.crcPolicy with
      | report => exact hcuts
      | refuse =>
        rintro _ ⟨⟩
        exact ⟨_, hcuts, hwrong⟩

end

/-! ### Files that are a whole output -/

/-- The bytes are what a decode of the folder gives, and whenever one does, they are all that its
last call has given, which is for the final output of the folder. -/
structure IsWhole (r : Reader σ) (folder : Nat) (output : Bytes) : Prop where
  canDecode : r.CanDecode folder (.ok output)
  last : ∀ s : Session σ,
    let run := (decodeFolderLogged r.archive r.map r.source r.decoder r.config folder).run (s, [])
    run.1 = .ok output → ∃ (f : Folder) (last : CoderCall) (stream : Nat),
      r.archive.folders[folder]? = some f ∧ run.2.2.getLast? = some last ∧
        f.UnboundOutput stream ∧ f.HasOutput last.index stream ∧ last.answer = .ok output

/-- What decoding a folder gives is all that its last call has given. -/
theorem CanDecode.isWhole {folder : Nat} (h : r.CanDecode folder (.ok output))
    (hmap : StreamMap.derive r.archive = .ok r.map) {span : FolderSpan}
    (hspan : r.map.folders[folder]? = some span) : r.IsWhole folder output := by
  refine ⟨h, fun s hs => ?_⟩
  obtain ⟨f, g, hf, hfolder⟩ := exists_mapsFolder hmap hspan
  obtain ⟨-, -, last, hlast, hout, hanswer⟩ :=
    (hfolder.decodeFolderLogged_ensures r.source r.decoder r.config s).ok hs
  exact ⟨f, last, g.finalOutput, hf, hlast, (hfolder.describes.finalOutput _).mpr rfl, hout,
    hanswer⟩

/-- The checksum of a file is that of a whole output, compared with the checksum of the folder. -/
structure ComparesWhole (r : Reader σ) (e : FileSpan) (file : ExtractedFile) : Prop where
  isWhole : r.IsWhole e.folder file.content
  actual : file.actualCrc = Crc32.digest file.content
  expected : file.expectedCrc = r.archive.folderCrc e.folder
  verified_iff : file.crcStatus = .verified ↔
    r.archive.folderCrc e.folder = some (Crc32.digest file.content)

theorem ExtractedFile.crcStatus_eq_verified_iff {file : ExtractedFile} :
    file.crcStatus = .verified ↔ file.expectedCrc = some file.actualCrc := by
  unfold ExtractedFile.crcStatus
  cases file.expectedCrc with
  | none => simp
  | some crc =>
    by_cases hcrc : crc = file.actualCrc
    · simp [hcrc]
    · simp [hcrc]

section

variable (hmap : StreamMap.derive r.archive = .ok r.map) (he : e ∈ r.map.files)

include hmap he

/-- **The checksum of a file** is the one that the header promises. -/
theorem crc_eq_promisedCrc : e.crc = r.archive.promisedCrc e.folder e.substream := by
  obtain ⟨-, graphs, spans, hmade⟩ := (StreamMap.derive_decides r.archive).holds hmap
  exact hmade.crc_eq he

variable (hstands : r.archive.StandsIn e.folder e.substream)

include hstands

/-- A file with the checksum of its folder is alone in its folder. -/
theorem sole_of_standsIn : ∃ span, r.map.folders[e.folder]? = some span ∧ e.offset = 0 ∧
    e.size = span.unpackLength := by
  obtain ⟨-, graphs, spans, hmade⟩ := (StreamMap.derive_decides r.archive).holds hmap
  have hpart := map_partitions hmap
  have hspan := List.getElem?_eq_getElem (hpart.folder_lt e he)
  have hmem : e ∈ r.map.filesOf e.folder := List.mem_filter.mpr ⟨he, decide_eq_true rfl⟩
  exact ⟨_, hspan, hpart.sole hspan ((hmade.substreamCount_eq hspan).trans hstands.2) hmem⟩

/-- **What is cut out of the output of a folder** with one file is the output. -/
theorem Cuts.comparesWhole (h : r.Cuts e file) : r.ComparesWhole e file := by
  obtain ⟨output, hcan, rfl⟩ := h
  obtain ⟨span, hspan, hoffset, hsize⟩ := sole_of_standsIn hmap he hstands
  -- the file has the length in the map, and so has every output
  have hslice : e.slice output = output := by
    unfold FileSpan.slice
    rw [hoffset, hsize, ← hcan.length_eq hmap hspan, List.drop_zero, List.take_length]
  have hcrc : e.crc = r.archive.folderCrc e.folder :=
    (crc_eq_promisedCrc hmap he).trans hstands.promisedCrc_eq
  constructor
  case isWhole =>
    show r.IsWhole e.folder (e.slice output)
    rw [hslice]
    exact hcan.isWhole hmap hspan
  case actual => rfl
  case expected => exact hcrc
  case verified_iff =>
    rw [ExtractedFile.crcStatus_eq_verified_iff]
    show e.crc = some (Crc32.digest (e.slice output)) ↔ _
    rw [hcrc]
    rfl

end

/-! ### Whoever gets the file -/

/-- Whoever gets a file with the checksum of its folder gets all that a decode of the folder has
given, and it is the checksum of this that is compared. -/
structure Certifies (r : Reader σ) (e : FileSpan) : Prop where
  offset : e.offset = 0
  /-- However the reader is used, it is in one of the scenes that are spoken of. -/
  after : ∀ (outside : σ) (uses : List (Use σ)),
    ∃ c : Scene σ, c.session = r.after (r.start outside) uses ∧ r.Reachable c
  extract : ∀ (c : Scene σ) (file : ExtractedFile), r.Reachable c →
    ((r.extract e.file).run c.session).1 = .ok file → r.ComparesWhole e file
  /-- A file that is refused has the wrong checksum as a whole. -/
  refuses : ∀ (c : Scene σ) (error : IntegrityError), r.Reachable c →
    ((r.extract e.file).run c.session).1 = .error (.integrity error) →
      ∃ file, r.ComparesWhole e file ∧ file.integrityError? = some error
  /-- A file whose folder is got while others are about. -/
  call : ∀ (c c' : Scene σ) (output : Bytes) (file : ExtractedFile), r.Reachable c →
    r.Turns e.folder (c, .requesting) (c', .finished (.ok output)) → e.cut output = .ok file →
      r.ComparesWhole e file
  extractAll : ∀ (c : Scene σ) (cancelled : StateM σ Bool) (extracted : List ExtractResult),
    r.Reachable c → ((r.extractAll cancelled).run c.session).1 = .ok extracted →
      ∀ x ∈ extracted, x.file = e.file → ∀ file, x.extraction.file? = some file →
        r.ComparesWhole e file
  /-- Workers deliver the same under every schedule. -/
  pool : ∀ (c : Scene σ) (cancelled : StateM σ Bool) (schedule : List Nat) (workers : Nat)
    (results : List FolderResult) (extracted : List ExtractResult), r.Reachable c → 0 < workers →
    ((r.decodeInPool cancelled r.map.backedFolders schedule workers).run c.session).1 =
      .ok results →
    collectFiles results r.map.files = .ok extracted →
      ∀ x ∈ extracted, x.file = e.file → ∀ file, x.extraction.file? = some file →
        r.ComparesWhole e file

theorem ActsByAdvances.certifies (hr : r.ActsByAdvances)
    (hmap : StreamMap.derive r.archive = .ok r.map)
    (he : e ∈ r.map.files) (hstands : r.archive.StandsIn e.folder e.substream) : r.Certifies e where
  offset := by
    obtain ⟨span, -, hoffset, -⟩ := sole_of_standsIn hmap he hstands
    exact hoffset
  after := hr.exists_reachable
  extract c file hc hfile :=
    ((extract_cuts hmap he hr hc).ok hfile).comparesWhole hmap he hstands
  refuses c error hc hrefused := by
    obtain ⟨file, hcuts, hwrong⟩ := (extract_cuts hmap he hr hc).error hrefused error rfl
    exact ⟨file, hcuts.comparesWhole hmap he hstands, hwrong⟩
  call c c' output file hc hturns hcut := by
    have hcan := Turns.canDecode hturns hc
    rw [hcan.cut_eq hmap he] at hcut
    have hcuts : r.Cuts e file := ⟨output, hcan, (Except.ok.inj hcut).symm⟩
    exact hcuts.comparesWhole hmap he hstands
  extractAll c cancelled extracted hc hextracted x hx hfile file hcontent := by
    obtain ⟨results, hgathered, hall⟩ := (extractAll_ensures cancelled hr hmap hc).ok hextracted
    -- whatever the way, the file has been cut out of an output of its folder
    have hcuts := cuts_of_gathered hmap he hgathered hall hx hfile hcontent
    exact hcuts.comparesWhole hmap he hstands
  pool c cancelled schedule workers results extracted hc hworkers hresults hcollect x hx hfile file
      hcontent := by
    have hgathered := ((decodeInPool_ensures cancelled hr hc r.map.backedFolders schedule
      hworkers).ok hresults).2
    obtain ⟨extracted', hcollect', hall⟩ := hgathered.collectFiles_ok hmap
    obtain rfl : extracted' = extracted := Except.ok.inj (hcollect'.symm.trans hcollect)
    have hcuts := cuts_of_gathered hmap he hgathered hall hx hfile hcontent
    exact hcuts.comparesWhole hmap he hstands

/-- **Checksums.** A file has the checksum that the header promises: its own, or else that of its
folder if it is the only one there. And where it has that of its folder, then whatever source and
decoder do, and whether or not the header declares sizes, what the checksum is compared with is all
that the last coder of the folder has given. -/
theorem ofArchive_certifies {a : Archive} {source : Option (Source (Session σ))}
    {decoder : Decoder (Session σ)} {config : Config}
    (h : ofArchive a source decoder config = .ok r) :
    ∀ e ∈ r.map.files, e.crc = a.promisedCrc e.folder e.substream ∧
      (r.ActsByAdvances → a.StandsIn e.folder e.substream → r.Certifies e) := by
  obtain ⟨hmap, rfl, -, -, -⟩ := ofArchive_ok h
  intro e he
  exact ⟨crc_eq_promisedCrc hmap he, fun hr hstands => hr.certifies hmap he hstands⟩

/-- The first folder declares a size and the second does not, and their files have the checksums of
the folders. The files of the third have none, though it has one. -/
theorem ofArchive_certifies_three_folders :
    let crc := Crc32.digest [10, 11]
    let copy : Folder := { coders := [{ methodId := [0] }], unpackCrc := some crc }
    let a : Archive :=
      { packSizes := [2, 2, 2], folders := [{ copy with unpackSizes := [2] }, copy, copy]
        substreams := some
          { counts := [1, 1, 2], sizes := [2, 2, 1, 1], crcs := [none, none, none, none]
            counts_sum := rfl, crcs_length := rfl }
        entries := [{ name := "a" }, { name := "b" }, { name := "c" }, { name := "d" }] }
    let source : Source (Session Unit) := .ofBytes [10, 11, 12, 13, 10, 11]
    ∃ r : Reader Unit, ofArchive a (some source) .builtin {} = .ok r ∧
      r.map.files.map FileSpan.crc = [some crc, some crc, none, none] ∧
      (∀ e ∈ r.map.files, e.folder < 2 → r.Certifies e) ∧
      ((r.extract 0).run (r.start ())).1.toOption.map ExtractedFile.crcStatus = some .verified ∧
      ((r.extract 1).run (r.start ())).1.toOption = none := by
  intro crc copy a source
  obtain ⟨r, hr⟩ : ∃ r : Reader Unit, ofArchive a (some source) .builtin {} = .ok r := ⟨_, rfl⟩
  have hacts : r.ActsByAdvances := by
    obtain ⟨-, -, hsource, hdecoder, -⟩ := ofArchive_ok hr
    exact actsByAdvances_of_pure (Option.some.inj hsource).symm hdecoder
  have hstands : ∀ e ∈ r.map.files, e.folder < 2 → a.StandsIn e.folder e.substream := by
    cases hr
    decide +kernel
  refine ⟨r, hr, ?_, fun e he hlt => ?_, ?_, ?_⟩
  · cases hr
    rfl
  · exact (ofArchive_certifies (a := a) hr e he).2 hacts (hstands e he hlt)
  · cases hr
    decide +kernel
  · cases hr
    decide +kernel

end Reader

end SolidArchive
