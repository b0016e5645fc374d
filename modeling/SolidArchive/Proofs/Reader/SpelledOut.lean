import SolidArchive.Proofs.Folder.Isolation
import SolidArchive.Proofs.Reader.Alike
import SolidArchive.Proofs.StreamMap.Freezing

/-!
# Substreams that go without saying

A header without a list of substreams means one for each folder, of the size that the folder
declares. It may as well say so (`Substreams.Builder.SpellsOut`), and then it is read on another
way: the substreams are counted, their sizes are added up and compared with what the folder
declares, and the checksum of the folder stands in for the one that is missing. Both ways come to
the same map or to the same fault (`StreamMap.derive_spelledOut`), also where something else is
wrong with the header, and where its numbers leave their words.

Nothing but the map is made of the list, so a reader does not know the difference
(`Reader.ofArchive_spelledOut`).
-/

namespace SolidArchive

variable {σ : Type} {a : Archive} {folders : List Folder} {b : Substreams.Builder} {s : Substreams}

/-! ### One substream for each folder -/

namespace Substreams

/-- The lists say of each folder that its output is one substream, without a checksum. -/
structure Builder.SpellsOut (b : Builder) (folders : List Folder) : Prop where
  counts : b.counts = List.replicate folders.length 1
  /-- It has the size that the folder declares for its result. -/
  sizes : List.Forall₂ (fun f size => ∃ g, FolderGraph.resolve f = .ok g ∧
    g.declaredSize f = .ok (some size.toNat)) folders b.sizes
  /-- The digests are left out, or each is said to be missing. -/
  digests : b.digests = [] ∨ b.digests = List.replicate folders.length none

/-- The `k`-th folder has a single substream, of the size that the folder declares and without a
checksum. -/
structure IsSole (s : Substreams) (k : Nat) (f : Folder) (g : FolderGraph) (size : UInt64) :
    Prop where
  count : s.counts[k]? = some 1
  size_eq : s.sizes[k]? = some size
  crc : s.crcs[k]? = some none
  declared : g.declaredSize f = .ok (some size.toNat)

namespace Builder

theorem SpellsOut.isSole (h : b.SpellsOut folders) (hs : b.freeze = .ok s) {k : Nat} {f : Folder}
    {g : FolderGraph} (hk : folders[k]? = some f) (hg : FolderGraph.resolve f = .ok g) :
    ∃ size, s.IsSole k f g size := by
  obtain ⟨hcounts, hsizes, hcrcs⟩ := freeze_ok hs
  have hlt : k < folders.length := (List.getElem?_eq_some_iff.mp hk).1
  have hlength := h.sizes.length_eq
  obtain ⟨size, hsize⟩ : ∃ size, b.sizes[k]? = some size :=
    ⟨_, List.getElem?_eq_getElem (hlength ▸ hlt)⟩
  have hpair : (folders.zip b.sizes)[k]? = some (f, size) :=
    List.getElem?_zip_eq_some.mpr ⟨hk, hsize⟩
  obtain ⟨g', hg', hdeclared⟩ := (List.forall₂_iff_zip.mp h.sizes).2 (List.mem_of_getElem? hpair)
  obtain rfl : g' = g := Except.ok.inj (hg'.symm.trans hg)
  -- with digests or without, there is none for any folder
  have hnone : s.crcs = List.replicate folders.length none := by
    rw [hcrcs]
    split
    · rw [hlength]
    · next hsome => exact h.digests.resolve_left hsome
  refine ⟨size, ?_, ?_, ?_, hdeclared⟩
  · rw [hcounts, h.counts, List.getElem?_replicate, if_pos hlt]
  · rw [hsizes, hsize]
  · rw [hnone, List.getElem?_replicate, if_pos hlt]

/-- Where all folders are graphs that declare sizes, their substreams can be spelled out. -/
theorem exists_spellsOut
    (h : ∀ f ∈ folders, f.unpackSizes ≠ [] ∧ ∃ g, FolderGraph.resolve f = .ok g) :
    ∃ b : Builder, b.SpellsOut folders := by
  suffices hsizes : ∃ sizes : List UInt64, List.Forall₂ (fun f size => ∃ g,
      FolderGraph.resolve f = .ok g ∧ g.declaredSize f = .ok (some size.toNat)) folders sizes by
    obtain ⟨sizes, hsizes⟩ := hsizes
    exact ⟨{ counts := List.replicate folders.length 1, sizes }, rfl, hsizes, .inl rfl⟩
  induction folders with
  | nil => exact ⟨[], .nil⟩
  | cons f folders ih =>
    obtain ⟨⟨hsome, g, hg⟩, hfolders⟩ := List.forall_mem_cons.mp h
    obtain ⟨hf, hdescribes⟩ := (FolderGraph.resolve_decides f).holds hg
    obtain ⟨sizes, hsizes⟩ := ih hfolders
    -- the folder lists a size for each output, also for the final one
    have hlt : g.finalOutput < f.unpackSizes.length := by
      rw [hf.unpackSizes.resolve_left hsome]
      exact ((hdescribes.finalOutput _).mpr rfl).1
    refine ⟨f.unpackSizes[g.finalOutput] :: sizes, .cons ⟨g, hg, ?_⟩ hsizes⟩
    rw [FolderGraph.declaredSize, if_neg hsome, Breach.lookup_eq (List.getElem?_eq_getElem hlt)]
    rfl

/-- The lists that spell them out agree. -/
theorem SpellsOut.exists_freeze (h : b.SpellsOut folders) (hword : folders.length < 2 ^ 64) :
    ∃ s, b.freeze = .ok s := by
  have hlength := h.sizes.length_eq
  have hsum : (numbers b.counts).sum = b.sizes.length := by
    rw [h.counts, numbers, List.map_replicate, List.sum_replicate_nat, ← hlength]
    exact Nat.mul_one _
  refine Builder.exists_freeze hsum (hlength ▸ hword) (h.digests.imp_right fun hdigests => ?_)
  rw [hdigests, List.length_replicate, hlength]

end Builder

end Substreams

/-! ### Reading the contents on both ways -/

namespace FolderContent

variable {k : Nat} {f : Folder} {g : FolderGraph} {size : UInt64}
  {pairs : List (Folder × FolderGraph)}

/-- The only substream of a folder is collected, with the checksum of the folder. -/
theorem collect_isSole (h : s.IsSole k f g size) (folderCrc : Option UInt32) :
    collect s folderCrc k 0 1 0 = Breach.add StructuralError.breach k 0 >>= fun _ =>
      .ok ([{ size := size.toNat, crc := folderCrc }], size.toNat) := by
  -- one size alone cannot leave its word
  have htotal : StructuralError.checkedAdd .substreamSizes 0 size.toNat = .ok size.toNat := by
    have hsize : 0 + size.toNat < 1 <<< 64 := by
      rw [Nat.zero_add]
      exact size.toNat_lt
    rw [StructuralError.checkedAdd, if_pos hsize, Nat.zero_add]
  unfold collect Breach.add
  split
  · show (Breach.lookup StructuralError.breach s.sizes k >>= _) = _
    rw [Breach.lookup_eq h.size_eq]
    show (StructuralError.checkedAdd .substreamSizes 0 size.toNat >>= _) = _
    rw [htotal]
    show (Breach.lookup StructuralError.breach s.crcs k >>= _) = _
    rw [Breach.lookup_eq h.crc]
    rfl
  · rfl

/-- What reading a folder without a list comes to. -/
theorem ofFolders_none_cons (hdeclared : g.declaredSize f = .ok (some size.toNat)) :
    ofFolders none k k ((f, g) :: pairs) = Breach.add StructuralError.breach k 1 >>= fun next =>
      ofFolders none (k + 1) next pairs >>= fun r =>
        .ok ({ length := size.toNat, firstSubstream := k, substreamCount := 1 } :: r.1,
          { size := size.toNat, crc := f.unpackCrc } :: r.2) := by
  rw [ofFolders, FolderContent.declared, hdeclared]
  rfl

/-- What reading it from the list comes to. -/
theorem ofFolders_some_cons (h : s.IsSole k f g size) :
    ofFolders (some s) k k ((f, g) :: pairs) = Breach.add StructuralError.breach k 1 >>= fun next =>
      ofFolders (some s) (k + 1) next pairs >>= fun r =>
        .ok ({ length := size.toNat, firstSubstream := k, substreamCount := 1 } :: r.1,
          { size := size.toNat, crc := f.unpackCrc } :: r.2) := by
  rw [ofFolders, FolderContent.declared, h.declared]
  show (Breach.lookup StructuralError.breach s.counts k >>= _) = _
  rw [Breach.lookup_eq h.count]
  show (collect s f.unpackCrc k 0 1 0 >>= _) = _
  rw [collect_isSole h]
  by_cases hk : k + 0 < 1 <<< 64
  · -- the sum of one size is what the folder declares
    rw [Breach.add, if_pos hk]
    show (if size.toNat ≠ size.toNat then _ else _) = _
    rw [if_neg (not_not.mpr rfl)]
    rfl
  · -- where the number of the substream leaves its word, so does the next one
    have hnext : ¬k + 1 < 1 <<< 64 := by omega
    have hword : Breach.add StructuralError.breach k 1 = .error (.breach .word) := if_neg hnext
    rw [Breach.add, if_neg hk, hword]
    rfl

/-- The folders are read alike on both ways. -/
theorem ofFolders_isSole
    (h : ∀ i f g, pairs[i]? = some (f, g) → ∃ size, s.IsSole (k + i) f g size) :
    ofFolders (some s) k k pairs = ofFolders none k k pairs := by
  induction pairs generalizing k with
  | nil => rfl
  | cons pair pairs ih =>
    obtain ⟨f, g⟩ := pair
    obtain ⟨size, hsole⟩ := h 0 f g rfl
    have hrest : ofFolders (some s) (k + 1) (k + 1) pairs =
        ofFolders none (k + 1) (k + 1) pairs := by
      refine ih fun i f g hi => ?_
      rw [Nat.add_assoc, Nat.add_comm 1 i]
      exact h (i + 1) f g hi
    rw [Nat.add_zero] at hsole
    -- the first folder takes one size on either side, and the rest starts behind it
    rw [ofFolders_some_cons hsole, ofFolders_none_cons hsole.declared]
    unfold Breach.add
    split
    · show (ofFolders (some s) (k + 1) (k + 1) pairs >>= _) = _
      rw [hrest]
      rfl
    · rfl

/-- The contents are the same. -/
theorem ofArchive_isSole {graphs : List FolderGraph} (hnone : a.substreams = none)
    (hb : b.SpellsOut a.folders) (hs : b.freeze = .ok s) (hres : Resolved a.folders graphs) :
    ofArchive { a with substreams := some s } graphs = ofArchive a graphs := by
  have hcounts : s.counts.length = a.folders.length := by
    rw [(Substreams.Builder.freeze_ok hs).1, hb.counts, List.length_replicate]
  -- folder by folder the substream is the sole output
  have hfolders : ofFolders (some s) 0 0 (a.folders.zip graphs) =
      ofFolders none 0 0 (a.folders.zip graphs) := by
    refine ofFolders_isSole fun i f g hi => ?_
    rw [Nat.zero_add]
    exact hb.isSole hs (List.getElem?_zip_eq_some.mp hi).1
      ((List.forall₂_iff_zip.mp hres).2 (List.mem_of_getElem? hi))
  unfold ofArchive
  rw [hnone]
  show (if s.counts.length ≠ a.folders.length then _ else _) = _
  rw [if_neg (not_not.mpr hcounts)]
  exact hfolders

end FolderContent

/-- **One map.** A header in which the substreams are spelled out has the map, or the fault, of the
header without them. -/
theorem StreamMap.derive_spelledOut (hnone : a.substreams = none) (hb : b.SpellsOut a.folders)
    (hs : b.freeze = .ok s) : derive { a with substreams := some s } = derive a := by
  unfold derive
  show (checkPackCrcs a >>= _) = _
  cases checkPackCrcs a with
  | error fault => rfl
  | ok _ =>
    show (resolveGraphs 0 a.folders >>= _) = (resolveGraphs 0 a.folders >>= _)
    -- the steps before do not read the substreams
    cases hgraphs : resolveGraphs 0 a.folders with
    | error fault => rfl
    | ok graphs =>
      have hdecides : Decides True _ _ (resolveGraphs 0 a.folders) :=
        resolveGraphs_decides 0 a.folders
      have hcontents := FolderContent.ofArchive_isSole hnone hb hs (hdecides.holds hgraphs).2
      show (PackRange.ofArchive a graphs >>= _) = (PackRange.ofArchive a graphs >>= _)
      cases PackRange.ofArchive a graphs with
      | error fault => rfl
      | ok ranges =>
        show (FolderContent.ofArchive { a with substreams := some s } graphs >>= _) =
          (FolderContent.ofArchive a graphs >>= _)
        rw [hcontents]

/-! ### Readers -/

/-- To decode a folder the list of substreams is not looked at. -/
theorem decodeFolder_withSubstreams (a : Archive) (substreams : Option Substreams) (m : StreamMap)
    (source : Source σ) (decoder : Decoder σ) (config : Config) (k : Nat) :
    decodeFolder { a with substreams } m source decoder config k =
      decodeFolder a m source decoder config k := by
  have hread : ∀ count stream, FolderJob.readPackStreams { a with substreams } m source
      config.verifyPackCrcs k count stream =
        FolderJob.readPackStreams a m source config.verifyPackCrcs k count stream :=
    fun count stream => FolderJob.readPackStreams_congr fun _ _ _ => rfl
  unfold decodeFolder decodeFolderBy
  simp only [hread]

namespace Reader

variable {source : Option (Source (Session σ))} {decoder : Decoder (Session σ)} {config : Config}

/-- **Readers of both headers.** Let all folders of a header without substreams be graphs that
declare sizes. Then its substreams can be spelled out, and however that is done, the header has the
same map or the same fault as before; there is a reader for it just if there was one before, and the
two answer alike, whatever source and decoder do. -/
theorem ofArchive_spelledOut (hnone : a.substreams = none)
    (hfolders : ∀ f ∈ a.folders, f.unpackSizes ≠ [] ∧ ∃ g, FolderGraph.resolve f = .ok g) :
    (∃ b : Substreams.Builder, b.SpellsOut a.folders) ∧
    ∀ b : Substreams.Builder, b.SpellsOut a.folders →
      (a.folders.length < 2 ^ 64 → ∃ s, b.freeze = .ok s) ∧
      ∀ s, b.freeze = .ok s →
        let explicit : Archive := { a with substreams := some s }
        StreamMap.derive explicit = StreamMap.derive a ∧
          (∀ fault, ofArchive a source decoder config = .error fault →
            ofArchive explicit source decoder config = .error fault) ∧
          ∀ r, ofArchive a source decoder config = .ok r →
            ∃ r', ofArchive explicit source decoder config = .ok r' ∧
              (∀ outside, r'.start outside = r.start outside) ∧
              (∀ file, r'.extract file = r.extract file) ∧
              (∀ cancelled, r'.extractAll cancelled = r.extractAll cancelled) ∧
              ∀ schedule, r'.extractAllUnder schedule = r.extractAllUnder schedule := by
  refine ⟨Substreams.Builder.exists_spellsOut hfolders,
    fun b hb => ⟨hb.exists_freeze, fun s hs => ?_⟩⟩
  intro explicit
  have hmap : StreamMap.derive explicit = StreamMap.derive a :=
    StreamMap.derive_spelledOut hnone hb hs
  refine ⟨hmap, fun fault hfault => ?_, fun r hr => ?_⟩
  · unfold ofArchive at hfault ⊢
    rw [hmap]
    -- the source is missing or the header has a fault, on either side
    cases hderive : StreamMap.derive a with
    | error error =>
      rw [hderive] at hfault
      exact hfault
    | ok map =>
      rw [hderive] at hfault
      cases source with
      | none => exact hfault
      | some source => cases hfault
  · obtain ⟨hderive, rfl, rfl, rfl, rfl⟩ := ofArchive_ok hr
    let r' : Reader σ := { r with archive := explicit }
    have hmade : ofArchive explicit (some r.source) r.decoder r.config = .ok r' :=
      ofArchive_eq (r := r') (hmap.trans hderive)
    have halike : r.Alike r' := by
      refine ⟨rfl, rfl, rfl, rfl, ?_⟩
      funext folder
      exact congrArg ExceptT.run
        (decodeFolder_withSubstreams r.archive (some s) r.map r.source r.decoder r.config folder)
    exact ⟨r', hmade, halike.start, halike.extract, halike.extractAll, halike.extractAllUnder⟩

/-- A folder with a checksum and one without, and a file for each. The digests are said to be
missing, and the first file is verified all the same. -/
theorem ofArchive_spelledOut_two_folders :
    let copy (size : UInt64) (unpackCrc : Option UInt32) : Folder :=
      { coders := [{ methodId := [0] }], unpackSizes := [size], unpackCrc }
    let a : Archive :=
      { packSizes := [2, 1], folders := [copy 2 (some (Crc32.digest [10, 11])), copy 1 none]
        entries := [{ name := "a" }, { name := "b" }] }
    let b : Substreams.Builder :=
      (((((({} : Substreams.Builder).addFolder 1).addSize 2).addMissingCrc).addFolder
        1).addSize 1).addMissingCrc
    let source : Source (Session Unit) := .ofBytes [10, 11, 12]
    let statuses (r : Reader Unit) : List (Option CrcStatus) :=
      [0, 1].map fun file =>
        ((r.extract file).run (r.start ())).1.toOption.map ExtractedFile.crcStatus
    ∃ s r r', b.freeze = .ok s ∧ ofArchive a (some source) .builtin {} = .ok r ∧
      ofArchive { a with substreams := some s } (some source) .builtin {} = .ok r' ∧
      (∀ file, r'.extract file = r.extract file) ∧
      statuses r = [some .verified, some .unverifiable] := by
  intro copy a b source statuses
  have hfolders : ∀ f ∈ a.folders, f.unpackSizes ≠ [] ∧ ∃ g, FolderGraph.resolve f = .ok g := by
    rintro f (_ | ⟨_, _ | ⟨_, ⟨⟩⟩⟩) <;> exact ⟨List.cons_ne_nil _ _, _, rfl⟩
  have hb : b.SpellsOut a.folders :=
    ⟨rfl, .cons ⟨_, rfl, rfl⟩ (.cons ⟨_, rfl, rfl⟩ .nil), .inr rfl⟩
  obtain ⟨r, hr⟩ : ∃ r : Reader Unit, ofArchive a (some source) .builtin {} = .ok r := ⟨_, rfl⟩
  obtain ⟨-, hspelled⟩ := @ofArchive_spelledOut Unit a (some source) .builtin {} rfl hfolders
  obtain ⟨hfreeze, hreaders⟩ := hspelled b hb
  obtain ⟨s, hs⟩ := hfreeze (by decide)
  obtain ⟨-, -, hanswers⟩ := hreaders s hs
  obtain ⟨r', hr', -, hextract, -⟩ := hanswers r hr
  refine ⟨s, r, r', hs, hr, hr', hextract, ?_⟩
  cases hr
  decide +kernel

end Reader

end SolidArchive
