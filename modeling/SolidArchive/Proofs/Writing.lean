import SolidArchive.Proofs.Codec.Delta
import SolidArchive.Proofs.Folder.Stored
import SolidArchive.Proofs.StreamMap.Checksums
import SolidArchive.Proofs.StreamMap.Freezing

/-!
# Writing archives

An `ArchivePlan` says what goes into an archive: for each folder the contents of its files, which
may be none at all, and whether they are stored as they are or as differences. It is written as a
header and the bytes of a source. Each folder has one pack stream, and the header says the size of
each output, and the size and the checksum of each content.

What is written fits together, so the header has a map (`ArchivePlan.Fits.exists_derive`). In the
map the range of each folder is where its pack stream was put, and each file is the part of its
folder's output that its content is (`ArchivePlan.Fits.forall₂_contents`). A folder is decoded to
the output that it was written from (`ArchivePlan.Fits.decodeFolder_eq`).
-/

namespace SolidArchive

/-! ### Pieces of a flattened list -/

section Flatten

variable {α : Type} {pieces : List (List α)} {piece : List α} {k i : Nat}

/-- Where a piece starts, it and the later ones are left. -/
theorem drop_runStart_flatten (hk : pieces[k]? = some piece) :
    pieces.flatten.drop (runStart (pieces.map List.length) k) =
      piece ++ (pieces.drop (k + 1)).flatten := by
  obtain ⟨hlt, rfl⟩ := List.getElem?_eq_some_iff.mp hk
  rw [runStart, List.drop_sum_flatten, List.drop_eq_getElem_cons hlt, List.flatten_cons]

/-- Each piece is where the lengths of those before it add up to. -/
theorem slice_flatten (hk : pieces[k]? = some piece) :
    (pieces.flatten.drop (runStart (pieces.map List.length) k)).take piece.length = piece := by
  rw [drop_runStart_flatten hk, List.take_left]

theorem getElem?_flatten_runStart (hk : pieces[k]? = some piece) (hi : i < piece.length) :
    pieces.flatten[runStart (pieces.map List.length) k + i]? = piece[i]? := by
  rw [← List.getElem?_drop, drop_runStart_flatten hk, List.getElem?_append_left hi]

/-- The sums within a piece are those of its own sizes. -/
theorem sliceSum_flatten {size : α → Nat} (hk : pieces[k]? = some piece) (hi : i ≤ piece.length) :
    sliceSum (pieces.flatten.map size) (runStart (pieces.map List.length) k) i =
      runStart (piece.map size) i := by
  rw [sliceSum, ← List.map_drop, drop_runStart_flatten hk, runStart, ← List.map_take,
    ← List.map_take, List.take_append_of_le_length hi]

end Flatten

/-- Numbers that fit a word are written exactly. -/
theorem numbers_map_ofNat {ns : List Nat} (h : ∀ n ∈ ns, n < 2 ^ 64) :
    numbers (ns.map UInt64.ofNat) = ns := by
  rw [numbers, List.map_map]
  refine (List.map_congr_left fun n hn => ?_).trans (List.map_id ns)
  exact UInt64.toNat_ofNat_of_lt' (h n hn)

/-! ### Folders -/

/-- How the contents of a folder are stored. -/
inductive Storing where
  | plain
  /-- As differences to the byte that is `property + 1` places before. -/
  | differences (property : UInt8)
  deriving DecidableEq, Repr

/-- What goes into a folder. -/
structure FolderPlan where
  files : List Bytes
  storing : Storing
  deriving DecidableEq, Repr

namespace FolderPlan

/-- What the folder has to come to. -/
def output (p : FolderPlan) : Bytes := p.files.flatten

/-- The pack stream. -/
def packed (p : FolderPlan) : Bytes :=
  match p.storing with
  | .plain => p.output
  | .differences property => Codec.Delta.difference (property.toNat + 1) p.output

/-- The coders. Differences are added up by a coder that is fed by one that copies. -/
def folder (p : FolderPlan) : Folder :=
  let size := UInt64.ofNat p.output.length
  match p.storing with
  | .plain => { coders := [{ methodId := [0x00] }], unpackSizes := [size] }
  | .differences property =>
    { coders := [{ methodId := [0x03], properties := [property] }, { methodId := [0x00] }]
      bindPairs := [{ input := 0, output := 1 }]
      unpackSizes := [size, size] }

/-- Adds the files of the folder, each with its size and its checksum. -/
def addTo (p : FolderPlan) (b : Substreams.Builder) : Substreams.Builder :=
  p.files.foldl
    (fun b file => (b.addSize (UInt64.ofNat file.length)).addCrc (Crc32.digest file))
    (b.addFolder (UInt64.ofNat p.files.length))

variable (p : FolderPlan)

theorem length_packed : p.packed.length = p.output.length := by
  unfold packed
  cases p.storing with
  | plain => rfl
  | differences property => exact Codec.Delta.length_difference _ _

theorem packedStreams_folder : p.folder.packedStreams = [] := by
  unfold folder
  cases p.storing with
  | _ => rfl

/-- The coders are a graph. -/
theorem exists_resolve_folder : ∃ g, FolderGraph.resolve p.folder = .ok g := by
  unfold folder
  cases p.storing with
  | _ => exact ⟨_, rfl⟩

/-- One input is left over. -/
theorem totalInputs_folder : p.folder.totalInputs = p.folder.bindPairs.length + 1 := by
  unfold folder
  cases p.storing with
  | _ => rfl

/-- The first output is the result. -/
theorem unboundOutput_folder : p.folder.UnboundOutput 0 := by
  unfold folder
  cases p.storing with
  | plain => exact ⟨Nat.one_pos, List.not_mem_nil⟩
  | differences property => exact ⟨Nat.two_pos, show 0 ∉ [1] by decide⟩

/-- Every output has the same size, which is declared. -/
theorem unpackSizes_folder : p.folder.unpackSizes =
    List.replicate p.folder.totalOutputs (UInt64.ofNat p.output.length) := by
  unfold folder
  cases p.storing with
  | _ => rfl

theorem getElem?_unpackSizes (hword : p.output.length < 2 ^ 64) {output : Nat}
    (hout : output < p.folder.totalOutputs) :
    (numbers p.folder.unpackSizes)[output]? = some p.output.length := by
  rw [getElem?_numbers, unpackSizes_folder, List.getElem?_replicate, if_pos hout]
  exact congrArg some (UInt64.toNat_ofNat_of_lt' hword)

theorem unpackSizes_ne_nil : p.folder.unpackSizes ≠ [] := by
  unfold folder
  cases p.storing with
  | _ => exact List.cons_ne_nil _ _

/-- The lists of a builder grow by those of the folder. -/
theorem addTo_eq (b : Substreams.Builder) :
    p.addTo b =
      { counts := b.counts ++ [UInt64.ofNat p.files.length]
        sizes := b.sizes ++ p.files.map fun file => UInt64.ofNat file.length
        digests := b.digests ++ p.files.map fun file => some (Crc32.digest file) } := by
  unfold addTo
  -- file by file a size and a digest go behind what is there
  have hfiles : ∀ (files : List Bytes) (b : Substreams.Builder),
      files.foldl (fun b file =>
        (b.addSize (UInt64.ofNat file.length)).addCrc (Crc32.digest file)) b =
        { counts := b.counts
          sizes := b.sizes ++ files.map fun file => UInt64.ofNat file.length
          digests := b.digests ++ files.map fun file => some (Crc32.digest file) } := by
    intro files
    induction files with
    | nil =>
      intro b
      simp
    | cons file files ih =>
      intro b
      rw [List.foldl_cons, ih, List.map_cons, List.map_cons, Substreams.Builder.addCrc,
        Substreams.Builder.addSize, List.append_assoc, List.append_assoc]
      rfl
  rw [hfiles]
  rfl

/-! ### What a folder comes to -/

section Meaning

variable {a : Archive} {m : StreamMap} {k : Nat} {g : FolderGraph} {span : FolderSpan}

/-- Every output is known to be as long as the folder's. -/
theorem knownSize_eq (h : StreamMap.MapsFolder a m k p.folder g span)
    (hword : p.output.length < 2 ^ 64) (output : Nat) (hout : output < p.folder.totalOutputs) :
    h.job.knownSize output = some p.output.length := by
  unfold FolderJob.knownSize
  rw [if_pos (show h.job.folder.unpackSizes ≠ [] from p.unpackSizes_ne_nil)]
  exact p.getElem?_unpackSizes hword hout

/-- **The pack stream of a folder** comes to the output that it was made from. -/
theorem meaning_packed (h : StreamMap.MapsFolder a m k p.folder g span)
    (hword : p.output.length < 2 ^ 64) (hlength : span.unpackLength = p.output.length) :
    h.job.meaning Decoder.runBuiltin [p.packed] g.finalOutput = .ok p.output := by
  have hknown := p.knownSize_eq h hword
  obtain ⟨files, storing⟩ := p
  cases storing with
  | plain => exact (h.meaning_copy rfl rfl).mpr ⟨⟨rfl, rfl⟩, hlength.symm⟩
  | differences property =>
    have hf := h.isCoderGraph
    obtain rfl : g = _ := Except.ok.inj (h.resolved.symm.trans rfl)
    generalize hpacked : FolderPlan.packed ⟨files, .differences property⟩ = packed
    -- the second coder copies the differences, and the first adds them up
    have hcopied : h.job.meaning Decoder.runBuiltin [packed] 1 = .ok packed := by
      have howns : FolderJob.Owns h.job.folder 1 { methodId := [0x00] } 1 :=
        ⟨rfl, Nat.lt_succ_self 1, le_rfl, Nat.lt_succ_self 1⟩
      rw [FolderJob.meaning_eq_ok_iff hf howns rfl rfl, hknown 1 (Nat.lt_succ_self 1)]
      refine ⟨rfl, ?_⟩
      rintro _ ⟨⟩
      rw [← hpacked]
      exact length_packed _
    have howns : FolderJob.Owns h.job.folder 0
        { methodId := [0x03], properties := [property] } 0 :=
      ⟨rfl, Nat.two_pos, le_rfl, Nat.one_pos⟩
    have hinputs : (List.range 1).mapM (fun i => h.job.inputMeaning [packed]
        (h.job.meaning Decoder.runBuiltin [packed])
          (runStart h.job.folder.inputCounts 0 + i)) = .ok [packed] :=
      mapM_eq_ok_iff.mpr (.cons hcopied .nil)
    refine (FolderJob.meaning_eq_ok_iff hf howns rfl hinputs).mpr ?_
    rw [hknown 0 Nat.two_pos, ← hpacked]
    constructor
    · exact congrArg Except.ok (Codec.Delta.decode_difference (Nat.succ_pos _) _)
    · rintro _ ⟨⟩
      rfl

end Meaning

end FolderPlan

/-! ### Archives -/

/-- What goes into an archive. -/
structure ArchivePlan where
  /-- What is in the source before the pack region. -/
  filler : Bytes
  folders : List FolderPlan
  /-- The entries, of which those with content have the contents of the folders, in order. -/
  entries : List Entry
  deriving DecidableEq, Repr

namespace ArchivePlan

/-- The contents of all files. -/
def contents (p : ArchivePlan) : List Bytes := (p.folders.map FolderPlan.files).flatten

/-- The source. -/
def bytes (p : ArchivePlan) : Bytes := p.filler ++ (p.folders.map FolderPlan.packed).flatten

/-- The lists of substreams. -/
def builder (p : ArchivePlan) : Substreams.Builder :=
  p.folders.foldl (fun b folder => folder.addTo b) {}

/-- The header, with the substreams that the lists are frozen to. -/
def header (p : ArchivePlan) (s : Substreams) : Archive where
  packPosition := UInt64.ofNat p.filler.length
  packSizes := p.folders.map fun folder => UInt64.ofNat folder.packed.length
  folders := p.folders.map FolderPlan.folder
  substreams := some s
  entries := p.entries

/-- The source ends where a word can say, the lists are not longer than a word can count, and there
are as many entries with content as there are contents. -/
structure Fits (p : ArchivePlan) : Prop where
  bytes : p.bytes.length < 2 ^ 64
  folders : p.folders.length < 2 ^ 64
  contents : p.contents.length < 2 ^ 64
  entries : p.entries.countP Entry.hasContent = p.contents.length

variable {p : ArchivePlan} {s : Substreams} {m : StreamMap} {k : Nat} {f : FolderPlan}

theorem builder_eq (p : ArchivePlan) : p.builder =
    { counts := p.folders.map fun folder => UInt64.ofNat folder.files.length
      sizes := p.contents.map fun content => UInt64.ofNat content.length
      digests := p.contents.map fun content => some (Crc32.digest content) } := by
  -- and folder by folder what its files have added
  have hfolders : ∀ (folders : List FolderPlan) (b : Substreams.Builder),
      folders.foldl (fun b folder => folder.addTo b) b =
        { counts := b.counts ++ folders.map fun folder => UInt64.ofNat folder.files.length
          sizes := b.sizes ++ (folders.map FolderPlan.files).flatten.map fun content =>
            UInt64.ofNat content.length
          digests := b.digests ++ (folders.map FolderPlan.files).flatten.map fun content =>
            some (Crc32.digest content) } := by
    intro folders
    induction folders with
    | nil =>
      intro b
      simp
    | cons folder folders ih =>
      intro b
      rw [List.foldl_cons, ih, folder.addTo_eq]
      simp
  rw [builder, hfolders]
  rfl

/-! ### What is written fits together -/

theorem length_contents (p : ArchivePlan) :
    p.contents.length = ((p.folders.map FolderPlan.files).map List.length).sum :=
  List.length_flatten

theorem length_bytes (p : ArchivePlan) : p.bytes.length =
    p.filler.length + ((p.folders.map FolderPlan.packed).map List.length).sum := by
  rw [bytes, List.length_append, List.length_flatten]

/-- Each folder reads one pack stream. -/
theorem length_packedInputs (p : ArchivePlan) {graphs : List FolderGraph}
    (h : Resolved (p.folders.map FolderPlan.folder) graphs) {g : FolderGraph} (hg : g ∈ graphs) :
    g.packedInputs.length = 1 := by
  obtain ⟨k, hk⟩ := List.mem_iff_getElem?.mp hg
  have hlt : k < (p.folders.map FolderPlan.folder).length :=
    h.length_eq ▸ (List.getElem?_eq_some_iff.mp hk).1
  have hfolder := List.getElem?_eq_getElem hlt
  obtain ⟨hf, hdescribes⟩ :=
    h.describes_of_getElem? (List.getElem?_zip_eq_some.mpr ⟨hfolder, hk⟩)
  obtain ⟨f, -, heq⟩ := List.mem_map.mp (List.getElem_mem hlt)
  -- a folder that is written lists no packed stream, since it has one only
  have hnone : ((p.folders.map FolderPlan.folder)[k]).packedStreams = [] := by
    rw [← heq]
    exact f.packedStreams_folder
  obtain ⟨input, hinput, -⟩ := hdescribes.packedInputs_single hf hnone
  rw [hinput]
  rfl

theorem getElem?_files (hk : p.folders[k]? = some f) :
    (p.folders.map FolderPlan.files)[k]? = some f.files := by
  rw [List.getElem?_map, hk]
  rfl

/-- The contents are a part of the outputs. -/
theorem exists_folder_of_mem {content : Bytes} (h : content ∈ p.contents) :
    ∃ f ∈ p.folders, content ∈ f.files := by
  obtain ⟨files, hfiles, hcontent⟩ := List.mem_flatten.mp h
  obtain ⟨f, hf, rfl⟩ := List.mem_map.mp hfiles
  exact ⟨f, hf, hcontent⟩

namespace Fits

variable (hp : p.Fits)

include hp

theorem output_lt (hf : f ∈ p.folders) : f.output.length < 2 ^ 64 := by
  have hle : f.packed.length ≤ ((p.folders.map FolderPlan.packed).map List.length).sum :=
    List.le_sum_of_mem (List.mem_map_of_mem (List.mem_map_of_mem hf))
  have hbytes := hp.bytes
  rw [length_bytes] at hbytes
  rw [f.length_packed] at hle
  omega

theorem files_lt (hf : f ∈ p.folders) : f.files.length < 2 ^ 64 := by
  have hle : f.files.length ≤ ((p.folders.map FolderPlan.files).map List.length).sum :=
    List.le_sum_of_mem (List.mem_map_of_mem (List.mem_map_of_mem hf))
  have hcontents := hp.contents
  rw [length_contents] at hcontents
  omega

theorem content_lt {content : Bytes} (hcontent : content ∈ p.contents) :
    content.length < 2 ^ 64 := by
  obtain ⟨f, hf, hmem⟩ := exists_folder_of_mem hcontent
  have hle : content.length ≤ (f.files.map List.length).sum :=
    List.le_sum_of_mem (List.mem_map_of_mem hmem)
  rw [← List.length_flatten] at hle
  exact hle.trans_lt (hp.output_lt hf)

theorem packPosition_eq (s : Substreams) :
    (p.header s).packPosition.toNat = p.filler.length := by
  have hbytes := hp.bytes
  rw [length_bytes] at hbytes
  exact UInt64.toNat_ofNat_of_lt' (by omega : p.filler.length < 2 ^ 64)

theorem packSizes_eq (s : Substreams) :
    numbers (p.header s).packSizes = (p.folders.map FolderPlan.packed).map List.length := by
  have hlt : ∀ n ∈ (p.folders.map FolderPlan.packed).map List.length, n < 2 ^ 64 := by
    rw [List.map_map, List.forall_mem_map]
    intro f hf
    rw [Function.comp_apply, f.length_packed]
    exact hp.output_lt hf
  rw [← numbers_map_ofNat hlt, List.map_map, List.map_map]
  rfl

/-- The lists of the builder are frozen. -/
theorem exists_freeze : ∃ s, p.builder.freeze = .ok s := by
  rw [builder_eq]
  apply Substreams.Builder.exists_freeze
  · have hlt : ∀ n ∈ (p.folders.map FolderPlan.files).map List.length, n < 2 ^ 64 := by
      rw [List.map_map, List.forall_mem_map]
      exact fun f hf => hp.files_lt hf
    rw [List.length_map, length_contents, ← numbers_map_ofNat hlt, List.map_map, List.map_map]
    rfl
  · rw [List.length_map]
    exact hp.contents
  · right
    rw [List.length_map, List.length_map]

variable (hs : p.builder.freeze = .ok s)

include hs

theorem counts_eq : numbers s.counts = (p.folders.map FolderPlan.files).map List.length := by
  have hlt : ∀ n ∈ (p.folders.map FolderPlan.files).map List.length, n < 2 ^ 64 := by
    intro n hn
    rw [List.map_map] at hn
    obtain ⟨f, hf, rfl⟩ := List.mem_map.mp hn
    exact hp.files_lt hf
  rw [(Substreams.Builder.freeze_ok hs).1, builder_eq, ← numbers_map_ofNat hlt, List.map_map,
    List.map_map]
  rfl

theorem sizes_eq : numbers s.sizes = p.contents.map List.length := by
  have hlt : ∀ n ∈ p.contents.map List.length, n < 2 ^ 64 := by
    intro n hn
    obtain ⟨content, hcontent, rfl⟩ := List.mem_map.mp hn
    exact hp.content_lt hcontent
  rw [(Substreams.Builder.freeze_ok hs).2.1, builder_eq, ← numbers_map_ofNat hlt, List.map_map]
  rfl

omit hp in
theorem crcs_eq : s.crcs = p.contents.map fun content => some (Crc32.digest content) := by
  rw [(Substreams.Builder.freeze_ok hs).2.2, builder_eq]
  dsimp only
  split
  · next hnone =>
    -- without contents there are no checksums, either
    rw [List.map_eq_nil_iff.mp hnone]
    rfl
  · rfl

/-- The sizes of a folder's contents add up to the length of its output. -/
theorem sliceSum_eq (hk : p.folders[k]? = some f) :
    sliceSum (numbers s.sizes) (runStart (numbers s.counts) k) f.files.length =
      f.output.length := by
  rw [hp.sizes_eq hs, hp.counts_eq hs, ArchivePlan.contents,
    sliceSum_flatten (getElem?_files hk) le_rfl,
    FolderPlan.output, List.length_flatten, ← runStart_length, List.length_map]

theorem getElem?_counts (hk : p.folders[k]? = some f) :
    (numbers s.counts)[k]? = some f.files.length := by
  rw [hp.counts_eq hs, List.map_map, List.getElem?_map, hk]
  rfl

/-- **The parts of the header agree.** -/
theorem consistent : (p.header s).Consistent where
  packCrcs := .inl rfl
  graphs f hf := by
    obtain ⟨plan, -, rfl⟩ := List.mem_map.mp hf
    exact plan.exists_resolve_folder
  packRegion := by
    have hbytes := hp.bytes
    rw [length_bytes] at hbytes
    rw [hp.packPosition_eq, hp.packSizes_eq]
    exact hbytes
  packStreams := by
    -- each folder leaves one input to the pack region
    have hone : ∀ plan ∈ p.folders, ((fun f : Folder => (f.totalInputs : ℤ) - f.bindPairs.length) ∘
        FolderPlan.folder) plan = 1 := by
      intro plan _
      rw [Function.comp_apply, plan.totalInputs_folder]
      push_cast
      exact add_sub_cancel_left _ _
    show ((p.folders.map FolderPlan.folder).map _).sum = ((p.folders.map _).length : ℤ)
    rw [List.map_map, List.map_congr_left hone, List.map_const', List.sum_replicate,
      List.length_map, nsmul_eq_mul, mul_one]
  covers := by
    rintro _ ⟨⟩
    rw [(Substreams.Builder.freeze_ok hs).1, builder_eq]
    exact (List.length_map _).trans (List.length_map _).symm
  sizes k folder hk := by
    obtain ⟨plan, hplan, rfl⟩ : ∃ plan, p.folders[k]? = some plan ∧ plan.folder = folder :=
      Option.map_eq_some_iff.mp ((List.getElem?_map ..).symm.trans hk)
    intro count hcount _
    obtain rfl : plan.files.length = count :=
      Option.some.inj ((hp.getElem?_counts hs hplan).symm.trans hcount)
    have hword := hp.output_lt (List.mem_of_getElem? hplan)
    dsimp only
    rw [hp.sliceSum_eq hs hplan]
    -- the size of the only output is that of all files together
    exact ⟨hword, fun _ =>
      ⟨0, plan.unboundOutput_folder, plan.getElem?_unpackSizes hword plan.unboundOutput_folder.1⟩⟩
  files := by
    show p.entries.countP Entry.hasContent = s.sizes.length
    rw [hp.entries, (Substreams.Builder.freeze_ok hs).2.1, builder_eq]
    exact (List.length_map _).symm

/-- **What is written has a map.** -/
theorem exists_derive : ∃ m, StreamMap.derive (p.header s) = .ok m := by
  have hmemory : (p.header s).InMemory := by
    constructor
    · show (p.folders.map _).length < 2 ^ 64
      rw [List.length_map]
      exact hp.folders
    · rintro _ ⟨⟩
      exact .inr ⟨p.builder, hs⟩
  exact (StreamMap.derive_ok_iff_consistent _ hmemory).1.mpr (hp.consistent hs)

/-! ### What the map says -/

variable (hm : StreamMap.derive (p.header s) = .ok m)

include hm

omit hs in
/-- **The pack stream of a folder** is where it was put, and its output is as long as it has to
be. -/
theorem exists_mapsFolder (hk : p.folders[k]? = some f) : ∃ g span,
    StreamMap.MapsFolder (p.header s) m k f.folder g span ∧ span.packStreamCount = 1 ∧
      span.unpackLength = f.output.length ∧
      readRange p.bytes span.packOffset span.packedLength = .ok f.packed := by
  have hfolder : (p.header s).folders[k]? = some f.folder := by
    show (p.folders.map FolderPlan.folder)[k]? = _
    rw [List.getElem?_map, hk]
    rfl
  obtain ⟨-, graphs, spans, hmade⟩ := (StreamMap.derive_decides _).holds hm
  obtain ⟨g, span, h⟩ := hmade.mapsFolder hfolder
  -- a folder that is written has a single pack stream
  have hcount : span.packStreamCount = 1 := by
    obtain ⟨input, hinput, -⟩ :=
      h.describes.packedInputs_single h.isCoderGraph f.packedStreams_folder
    rw [h.count, hinput]
    rfl
  refine ⟨g, span, h, hcount, ?_, ?_⟩
  · have hword := hp.output_lt (List.mem_of_getElem? hk)
    have hout := ((h.describes.finalOutput _).mpr rfl).1
    have hdeclared := h.declared f.unpackSizes_ne_nil
    rw [f.getElem?_unpackSizes hword hout] at hdeclared
    exact (Option.some.inj hdeclared).symm
  · have hrun := hmade.isRun h.span_eq
    have hpacked : (p.folders.map FolderPlan.packed)[k]? = some f.packed := by
      rw [List.getElem?_map, hk]
      rfl
    -- each folder before has taken one pack stream
    have hcounts : PackRange.packCounts graphs = List.replicate p.folders.length 1 := by
      refine List.eq_replicate_iff.mpr ⟨?_, fun n hn => ?_⟩
      · rw [hmade.length_packCounts, hmade.length_folders]
        exact List.length_map _
      · obtain ⟨g, hg, rfl⟩ := List.mem_map.mp hn
        exact p.length_packedInputs hmade.resolved hg
    have hfirst : runStart (PackRange.packCounts graphs) k = k := by
      have hlt := (List.getElem?_eq_some_iff.mp hk).1
      rw [hcounts, runStart, List.take_replicate, List.sum_replicate_nat, mul_one]
      omega
    have hoffset : span.packOffset =
        p.filler.length + runStart ((p.folders.map FolderPlan.packed).map List.length) k := by
      rw [hrun.offset, hfirst, hp.packPosition_eq, hp.packSizes_eq]
    have hsize : ((p.folders.map FolderPlan.packed).map List.length)[k]? =
        some f.packed.length := by
      rw [List.getElem?_map, hpacked]
      rfl
    have hlength : span.packedLength = f.packed.length := by
      rw [hrun.length, hfirst, hcount, hp.packSizes_eq, sliceSum_succ hsize, sliceSum_zero,
        Nat.add_zero]
    rw [readRange_eq_ok_iff, hoffset, hlength]
    constructor
    · have hnext := runStart_le_sum ((p.folders.map FolderPlan.packed).map List.length) (k + 1)
      rw [runStart_succ hsize] at hnext
      rw [length_bytes]
      omega
    · rw [ArchivePlan.bytes, ← List.drop_drop, List.drop_left, slice_flatten hpacked]

omit hs in
/-- **A folder that is written is decoded**, whatever its pack stream is made into. -/
theorem decodeFolder_eq {σ : Type} (hk : p.folders[k]? = some f) {config : Config}
    (hlimit : f.output.length ≤ config.maxFolderBytes) (outside : σ) :
    (decodeFolder (p.header s) m (.ofBytes p.bytes) .builtin config k).run outside =
      (.ok f.output, outside) := by
  obtain ⟨g, span, h, hcount, hlength, hread⟩ := hp.exists_mapsFolder hm hk
  have hmeaning := f.meaning_packed h (hp.output_lt (List.mem_of_getElem? hk)) hlength
  have hfits : ¬config.maxFolderBytes < span.unpackLength := by
    rw [hlength]
    exact Nat.not_lt.mpr hlimit
  rw [Decoder.builtin, h.decodeFolder_unchecked hm hcount (.inr rfl), if_neg hfits, hread]
  exact congrArg (·, outside) hmeaning

/-- **The content of a file** is the part of its folder's output that the map says, with the
checksum that the map says. -/
theorem exists_content {e : FileSpan} (he : e ∈ m.files) : ∃ f content,
    p.folders[e.folder]? = some f ∧ p.contents[e.substream]? = some content ∧
      (f.output.drop e.offset).take e.size = content ∧
      e.crc = some (Crc32.digest content) := by
  obtain ⟨-, graphs, spans, hmade⟩ := (StreamMap.derive_decides _).holds hm
  have hfits := hmade.partitions.fits e he
  have hcounts := FolderContent.substreamCounts_some (hmade.sized.length_counts s rfl)
  have hsizes : (FolderContent.allSubstreams (some s) ((p.header s).folders.zip graphs)).map
      Substream.size = numbers s.sizes := hmade.sized.map_size_allSubstreams
  obtain ⟨hlt, hfirst, hlast⟩ := hfits.inRun
  have hslot := congrArg (Option.map Substream.size) hfits.slot
  have hoffset := hfits.offset
  rw [← List.getElem?_map] at hslot
  rw [show (p.header s).substreams = some s from rfl] at hlt hfirst hlast hslot hoffset
  rw [hcounts] at hlt hfirst hlast hoffset
  rw [hsizes] at hslot hoffset
  -- the substream is one of those of the folder
  have hfolder : e.folder < p.folders.length := by
    rw [hp.counts_eq hs, List.length_map, List.length_map] at hlt
    exact hlt
  have hk := List.getElem?_eq_getElem hfolder
  have hfiles := getElem?_files hk
  rw [runStart_succ (hp.getElem?_counts hs hk)] at hlast
  obtain ⟨i, hi⟩ := Nat.exists_eq_add_of_le hfirst
  rw [hi] at hlast
  have hi_lt : i < p.folders[e.folder].files.length := Nat.lt_of_add_lt_add_left hlast
  have hcontent : p.contents[e.substream]? = some p.folders[e.folder].files[i] := by
    rw [hi, hp.counts_eq hs, ArchivePlan.contents, getElem?_flatten_runStart hfiles hi_lt]
    exact List.getElem?_eq_getElem hi_lt
  refine ⟨_, _, hk, hcontent, ?_, ?_⟩
  · -- it lies behind the contents before it and is as long as its own
    have hstart : e.offset = runStart (p.folders[e.folder].files.map List.length) i := by
      rw [hoffset, hi, Nat.add_sub_cancel_left, hp.sizes_eq hs, hp.counts_eq hs,
        ArchivePlan.contents, sliceSum_flatten hfiles hi_lt.le]
    have hsize : e.size = p.folders[e.folder].files[i].length := by
      rw [hp.sizes_eq hs, List.getElem?_map, hcontent] at hslot
      exact (Option.some.inj hslot).symm
    rw [hstart, hsize]
    exact slice_flatten (List.getElem?_eq_getElem hi_lt)
  · have hown : (p.header s).explicitCrc e.substream =
        some (Crc32.digest p.folders[e.folder].files[i]) := by
      show s.crc e.substream = _
      rw [Substreams.crc, crcs_eq hs, List.getElem?_map, hcontent]
      rfl
    rw [hmade.crc_eq he, Archive.promisedCrc, hown]

/-- The files have the contents, in their order. -/
theorem forall₂_contents : List.Forall₂ (fun e content => ∃ f, p.folders[e.folder]? = some f ∧
    (f.output.drop e.offset).take e.size = content ∧ e.crc = some (Crc32.digest content))
      m.files p.contents := by
  obtain ⟨-, graphs, spans, hmade⟩ := (StreamMap.derive_decides _).holds hm
  have hpart := hmade.partitionsSubstreams
  have hlength : m.files.length = p.contents.length := by
    rw [← hp.entries, ← List.length_map FileSpan.file, hpart.file, List.length_findIdxs]
    rfl
  refine List.forall₂_iff_zip.mpr ⟨hlength, fun {e content} hmem => ?_⟩
  obtain ⟨n, hn⟩ := List.mem_iff_getElem?.mp hmem
  obtain ⟨he, hcontent⟩ := List.getElem?_zip_eq_some.mp hn
  obtain ⟨f, own, hfolder, hown, hslice⟩ := hp.exists_content hs hm (List.mem_of_getElem? he)
  -- the files are numbered by their substreams
  have hsubstream : e.substream = n := by
    have hmap := congrArg (·[n]?) hpart.substream
    simp only [List.getElem?_map, he, Option.map_some] at hmap
    obtain ⟨hlt, hrange⟩ := List.getElem?_eq_some_iff.mp hmap.symm
    rw [← hrange, List.getElem_range]
  rw [hsubstream] at hown
  obtain rfl := Option.some.inj (hown.symm.trans hcontent)
  exact ⟨f, hfolder, hslice⟩

end Fits

end ArchivePlan

end SolidArchive
