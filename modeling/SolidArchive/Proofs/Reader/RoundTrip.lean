import SolidArchive.Proofs.Reader.Agreement
import SolidArchive.Proofs.Reader.Certificates
import SolidArchive.Proofs.Reader.Isolation
import SolidArchive.Proofs.Writing

/-!
# Reading what was written

A reader for an archive that was written by a plan gives back what went into the plan
(`Reader.Restores`): each content file has its content, with the right checksum, whether it is
extracted alone or with all others, and whatever has been done with the reader before. There is
always such a reader (`Reader.ofArchive_restores`), also if some folders have no files and some
files no bytes, as long as the limit of the reader is not exceeded.
-/

namespace SolidArchive

variable {σ : Type} {p : ArchivePlan} {e : FileSpan} {output content : Bytes}

/-- The file has the content that it should have, and its checksum says so. -/
structure ExtractedFile.IsIntact (x : ExtractedFile) (file : Nat) (content : Bytes) : Prop where
  file : x.file = file
  content : x.content = content
  crcStatus : x.crcStatus = .verified

/-- A file that is cut out at the right place, with the right checksum, is intact. -/
theorem FileSpan.withContent_isIntact (hslice : e.slice output = content)
    (hcrc : e.crc = some (Crc32.digest content)) :
    (e.withContent output).IsIntact e.file content := by
  refine ⟨rfl, hslice, Reader.ExtractedFile.crcStatus_eq_verified_iff.mpr ?_⟩
  show e.crc = some (Crc32.digest (e.slice output))
  rw [hcrc, hslice]

namespace Reader

/-- The reader gives back all that went into an archive. -/
structure Restores (r : Reader σ) (p : ArchivePlan) : Prop where
  /-- However the reader is used, nobody is at it afterwards. -/
  after : ∀ (outside : σ) (uses : List (Use σ)), r.Idle (r.after (r.start outside) uses)
  /-- Each content file is extracted alone, whatever has been done with the reader before. -/
  extract : ∀ s : Session σ, r.Idle s → List.Forall₂ (fun file content =>
    ∃ x, ((r.extract file).run s).1 = .ok x ∧ x.IsIntact file content)
      (p.entries.findIdxs Entry.hasContent) p.contents
  /-- All of them are extracted at once, in their order, and under every schedule. -/
  extractAll : ∀ s : Session σ, r.Idle s → ∃ extracted,
    ((r.extractAll (pure false)).run s).1 = .ok extracted ∧
    (∀ schedule, r.Finishes schedule s →
      ((r.extractAllUnder schedule).run s).1 = .ok extracted) ∧
    extracted.map ExtractResult.file = p.entries.findIdxs Entry.hasContent ∧
    List.Forall₂ (fun x content =>
      ∃ own, x.extraction = .extracted own ∧ own.IsIntact x.file content) extracted p.contents

section

variable {r : Reader σ} {outcomes : Nat → Outcome} (hr : r.Determined outcomes)
  (hmap : StreamMap.derive r.archive = .ok r.map) (hacts : r.ActsByAdvances)
  (hbySteps : r.ActsBySteps)
  (hnone : ∀ fault, ¬r.Ends r.map.backedFolders fault) (hentries : r.archive.entries = p.entries)

include hr hmap hacts hbySteps hnone hentries

/-- **A reader whose folders come to the contents** gives them back. -/
theorem Determined.restores
    (hfiles : List.Forall₂ (fun e content => ∃ output, outcomes e.folder = .ok output ∧
      (e.withContent output).IsIntact e.file content) r.map.files p.contents) : r.Restores p := by
  have hpart := map_partitions hmap
  have hfile : r.map.files.map FileSpan.file = p.entries.findIdxs Entry.hasContent := by
    rw [hpart.file, hentries]
  constructor
  case after => exact fun outside uses => (r.idle_start outside).after hr hmap hbySteps uses
  case extract =>
    intro s hidle
    rw [← hfile, List.forall₂_map_left_iff]
    refine List.forall₂_iff_zip.mpr ⟨hfiles.length_eq, fun {e content} hmem => ?_⟩
    have he : e ∈ r.map.files := (List.of_mem_zip hmem).1
    obtain ⟨output, houtput, hintact⟩ := (List.forall₂_iff_zip.mp hfiles).2 hmem
    -- an intact file passes its check, so it is handed out
    have hright := ExtractedFile.integrityError?_eq_none_iff.mpr (.inl hintact.crcStatus)
    refine ⟨_, ?_, hintact⟩
    rw [hidle.extract_eq hr hmap he, houtput, FileSpan.answer_ok (hr.cut_eq hmap s he houtput),
      FileSpan.deliver_of_none hright]
  case extractAll =>
    intro s hidle
    have hfair := hidle.finishes hr hmap (Pool.fair_schedule _ _)
    -- one schedule is enough, as all of them come to the same
    obtain ⟨extracted, hend, hyields⟩ := hidle.extractAllUnder_ok hr hmap hacts hnone hfair
    refine ⟨extracted, hend, fun schedule hfinishes => ?_, ?_, ?_⟩
    · exact hidle.extractAllUnder_eq hr hmap hacts hnone hfinishes hyields
    · rw [← hfile]
      exact map_file_eq (hyields.imp fun _ _ h => h.1)
    · -- the results and the contents belong to the same files
      refine (forall₂_meet hyields hfiles).imp ?_
      rintro x content ⟨e, he, hx, output, houtput, hintact⟩
      have hright := ExtractedFile.integrityError?_eq_none_iff.mpr (.inl hintact.crcStatus)
      have hbecomes := hx.becomes fun output => hr.cut_eq hmap s he
      rw [hx.1]
      rw [houtput] at hbecomes
      generalize x.extraction = result at hbecomes
      cases hbecomes with
      | extracted _ => exact ⟨_, rfl, hintact⟩
      | integrityFailed h => exact nomatch hright.symm.trans h

end

/-- **Reading undoes writing.** For what is written by a plan there is a reader, if no folder is
above its limit, and the reader gives back the content of each file, verified, in any order and
under any schedule. -/
theorem ofArchive_restores (h : p.Fits) {config : Config}
    (hlimit : ∀ f ∈ p.folders, f.output.length ≤ config.maxFolderBytes) :
    ∃ s, p.builder.freeze = .ok s ∧ ∃ r : Reader σ,
      ofArchive (p.header s) (some (.ofBytes p.bytes)) .builtin config = .ok r ∧
        r.Restores p := by
  obtain ⟨s, hs⟩ := h.exists_freeze
  obtain ⟨m, hm⟩ := h.exists_derive hs
  let r : Reader σ :=
    { archive := p.header s, map := m, source := .ofBytes p.bytes, decoder := .builtin, config }
  have hmap : StreamMap.derive r.archive = .ok r.map := hm
  have hsource : r.source = .ofBytes p.bytes := rfl
  have hdecoder : r.decoder = .builtin := rfl
  -- each folder of the plan has its output, and all others have what they have
  obtain ⟨others, hothers⟩ := determined_of_pure hsource hdecoder
  let outcomes (k : Nat) : Outcome := p.folders[k]?.elim (others k) fun f => .ok f.output
  have hr : r.Determined outcomes := by
    intro k s'
    show _ = (p.folders[k]?.elim _ _, s')
    cases hk : p.folders[k]? with
    | none => exact hothers k s'
    | some f => exact h.decodeFolder_eq hm hk (hlimit f (List.mem_of_getElem? hk)) s'
  refine ⟨s, hs, r, ofArchive_eq hmap, ?_⟩
  refine hr.restores hmap (actsByAdvances_of_pure hsource hdecoder)
    (actsBySteps_of_pure hsource hdecoder) (not_ends hmap (Source.ofBytes_failsWithErrors p.bytes)
      Decoder.builtin_failsPlainly.failsWithErrors) rfl ?_
  refine (h.forall₂_contents hs hm).imp ?_
  rintro e content ⟨f, hk, hslice, hcrc⟩
  refine ⟨f.output, ?_, FileSpan.withContent_isIntact hslice hcrc⟩
  show p.folders[e.folder]?.elim _ _ = _
  rw [hk]
  rfl

/-- A folder with two files, of which one has no bytes, a folder of differences to the second byte
before, and a folder without files. A directory comes between the files. -/
theorem ofArchive_restores_three_folders :
    let p : ArchivePlan :=
      { filler := [55, 55]
        folders := [⟨[[10, 11], []], .plain⟩, ⟨[[1, 2, 4, 8]], .differences 1⟩, ⟨[], .plain⟩]
        entries := [{ name := "a" }, { name := "b", kind := .directory }, { name := "c" },
          { name := "d" }] }
    p.bytes = [55, 55, 10, 11, 1, 2, 3, 6] ∧
      ∃ s, ∃ r : Reader Unit, p.builder.freeze = .ok s ∧
        ofArchive (p.header s) (some (.ofBytes p.bytes)) .builtin { maxFolderBytes := 4 } = .ok r ∧
        r.Restores p ∧ p.entries.findIdxs Entry.hasContent = [0, 2, 3] ∧
        p.contents = [[10, 11], [], [1, 2, 4, 8]] := by
  intro p
  have hfits : p.Fits := ⟨by decide, by decide, by decide, by decide⟩
  have hlimit : ∀ f ∈ p.folders, f.output.length ≤ 4 := by decide
  obtain ⟨s, hs, r, hr, hrestores⟩ :=
    @ofArchive_restores Unit p hfits { maxFolderBytes := 4 } hlimit
  exact ⟨rfl, s, r, hs, hr, hrestores, rfl, rfl⟩

end Reader

end SolidArchive
