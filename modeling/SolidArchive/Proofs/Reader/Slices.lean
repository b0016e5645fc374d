import SolidArchive.Proofs.Reader.Scene
import SolidArchive.Proofs.StreamMap.Partition
import SolidArchive.Reader.ExtractAll

/-!
# Cutting files out of an output

Three parts of a reader know how long the output of a folder is. The map adds up sizes and gives
each file its offset; the decode checks what the last coder gave against the length in the map; and
whoever cuts a file out of the output looks whether it is long enough for that. The last of them
never finds anything wrong (`Reader.CanDecode.cut_eq`): what decoding a folder can give has the
length in the map, and there the files of the folder end.

As the files of a folder lie one behind the other from its start (`FileSpan.Consecutive`), their
contents together are the output, no byte of it left out and none given twice
(`StreamMap.PartitionsSubstreams.flatten_slices`).
-/

namespace SolidArchive

open Relation

variable {σ : Type}

/-! ### Slices -/

namespace FileSpan

/-- The content of a file in the output of its folder. -/
def slice (e : FileSpan) (output : Bytes) : Bytes := (output.drop e.offset).take e.size

/-- The file with its content. -/
def withContent (e : FileSpan) (output : Bytes) : ExtractedFile where
  file := e.file
  content := e.slice output
  expectedCrc := e.crc
  actualCrc := Crc32.digest (e.slice output)

theorem cut_eq {e : FileSpan} {output : Bytes} (h : e.offset + e.size ≤ output.length) :
    e.cut output = .ok (e.withContent output) := by
  have hin : ¬(output.length < e.offset ∨ output.length - e.offset < e.size) := by omega
  rw [cut, if_neg hin]
  rfl

/-- Files that lie one behind the other. -/
structure Consecutive (start : Nat) (files : List FileSpan) : Prop where
  first : ∀ e, files[0]? = some e → e.offset = start
  next : ∀ (i : Nat) (e e' : FileSpan), files[i]? = some e → files[i + 1]? = some e' →
    e'.offset = e.offset + e.size

namespace Consecutive

variable {start : Nat} {e : FileSpan} {files : List FileSpan}

theorem head (h : Consecutive start (e :: files)) : e.offset = start := h.first e rfl

theorem tail (h : Consecutive start (e :: files)) : Consecutive (start + e.size) files where
  first e' he' := by
    rw [← h.head]
    exact h.next 0 e e' rfl he'
  next i _ _ he he' := h.next (i + 1) _ _ he he'

/-- What they have together is a slice, too. -/
theorem flatten_slices (h : Consecutive start files) (output : Bytes) :
    (files.map fun e => e.slice output).flatten =
      (output.drop start).take (files.map FileSpan.size).sum := by
  induction files generalizing start with
  | nil => simp
  | cons e files ih =>
    rw [List.map_cons, List.flatten_cons, ih h.tail, List.map_cons, List.sum_cons, slice, h.head,
      List.take_add, List.drop_drop]

theorem end_le (h : Consecutive start files) {e : FileSpan} (he : e ∈ files) :
    e.offset + e.size ≤ start + (files.map FileSpan.size).sum := by
  induction files generalizing start with
  | nil => cases he
  | cons first files ih =>
    rw [List.map_cons, List.sum_cons, ← Nat.add_assoc]
    rcases List.mem_cons.mp he with rfl | he
    · rw [h.head]
      exact Nat.le_add_right _ _
    · exact ih h.tail he

theorem start_le (h : Consecutive start files) {e : FileSpan} (he : e ∈ files) :
    start ≤ e.offset := by
  induction files generalizing start with
  | nil => cases he
  | cons first files ih =>
    rcases List.mem_cons.mp he with rfl | he
    · exact h.head.ge
    · exact (Nat.le_add_right _ _).trans (ih h.tail he)

/-- Each ends where the later ones begin, or before. -/
theorem pairwise (h : Consecutive start files) :
    files.Pairwise fun e e' => e.offset + e.size ≤ e'.offset := by
  induction files generalizing start with
  | nil => exact .nil
  | cons first files ih =>
    refine .cons (fun e he => ?_) (ih h.tail)
    rw [h.head]
    exact h.tail.start_le he

theorem end_getLast (h : Consecutive start files) {e : FileSpan} (he : files.getLast? = some e) :
    e.offset + e.size = start + (files.map FileSpan.size).sum := by
  induction files generalizing start with
  | nil => cases he
  | cons first files ih =>
    rw [List.map_cons, List.sum_cons, ← Nat.add_assoc]
    cases files with
    | nil =>
      obtain rfl : first = e := Option.some.inj he
      rw [h.head]
      rfl
    | cons second files =>
      rw [List.getLast?_cons_cons] at he
      exact ih h.tail he

end Consecutive

end FileSpan

namespace StreamMap.PartitionsSubstreams

variable {a : Archive} {m : StreamMap} {k : Nat} {span : FolderSpan} {e : FileSpan}

theorem consecutive (h : m.PartitionsSubstreams a) (k : Nat) :
    FileSpan.Consecutive 0 (m.filesOf k) where
  first e he := h.offset_first k e he
  next i e e' he he' := h.offset_next k i e e' he he'

theorem length_filesOf (h : m.PartitionsSubstreams a) (hk : m.folders[k]? = some span) :
    (m.filesOf k).length = span.substreamCount := by
  rw [← List.length_map FileSpan.substream, h.run k span hk, List.length_range']

/-- The sizes of a folder's files add up to the length of its output. -/
theorem sum_size (h : m.PartitionsSubstreams a) (hk : m.folders[k]? = some span)
    (hpos : 0 < span.substreamCount) :
    ((m.filesOf k).map FileSpan.size).sum = span.unpackLength := by
  obtain ⟨e, hlast, hend⟩ := h.offset_last k span hk hpos
  rw [(h.consecutive k).end_getLast hlast, Nat.zero_add] at hend
  exact hend

/-- The only file of a folder starts where the output of the folder starts, and is as long. -/
theorem sole (h : m.PartitionsSubstreams a) (hk : m.folders[k]? = some span)
    (hcount : span.substreamCount = 1) (he : e ∈ m.filesOf k) :
    e.offset = 0 ∧ e.size = span.unpackLength := by
  have hlength : (m.filesOf k).length = 1 := (h.length_filesOf hk).trans hcount
  obtain ⟨only, honly⟩ := List.length_eq_one_iff.mp hlength
  rw [honly] at he
  obtain rfl := List.mem_singleton.mp he
  constructor
  · apply h.offset_first k
    rw [honly]
    rfl
  · have hsum := h.sum_size hk (hcount ▸ Nat.one_pos)
    rw [honly] at hsum
    exact hsum

/-- Every file lies within the output of its folder. -/
theorem end_le (h : m.PartitionsSubstreams a) (hk : m.folders[k]? = some span)
    (he : e ∈ m.filesOf k) : e.offset + e.size ≤ span.unpackLength := by
  have hpos : 0 < span.substreamCount := by
    rw [← h.length_filesOf hk]
    exact List.length_pos_of_mem he
  have hle := (h.consecutive k).end_le he
  rwa [h.sum_size hk hpos, Nat.zero_add] at hle

/-- Two files of a folder have no byte in common. -/
theorem apart (h : m.PartitionsSubstreams a) {e e' : FileSpan} (he : e ∈ m.filesOf k)
    (he' : e' ∈ m.filesOf k) (hne : e ≠ e') :
    e.offset + e.size ≤ e'.offset ∨ e'.offset + e'.size ≤ e.offset := by
  have hpairwise : (m.filesOf k).Pairwise fun e e' =>
      e.offset + e.size ≤ e'.offset ∨ e'.offset + e'.size ≤ e.offset :=
    (h.consecutive k).pairwise.imp Or.inl
  have hsymm : Std.Symm fun e e' : FileSpan =>
      e.offset + e.size ≤ e'.offset ∨ e'.offset + e'.size ≤ e.offset := ⟨fun _ _ => Or.symm⟩
  exact hpairwise.forall he he' hne

/-- **Nothing is lost between files.** What the files of a folder have together is its output. -/
theorem flatten_slices (h : m.PartitionsSubstreams a) (hk : m.folders[k]? = some span)
    (hpos : 0 < span.substreamCount) {output : Bytes}
    (hlength : output.length = span.unpackLength) :
    ((m.filesOf k).map fun e => e.slice output).flatten = output := by
  rw [(h.consecutive k).flatten_slices output, h.sum_size hk hpos, List.drop_zero, ← hlength,
    List.take_length]

end StreamMap.PartitionsSubstreams

namespace Reader

variable {r : Reader σ} {k : Nat} {span : FolderSpan} {e : FileSpan} {output : Bytes}

/-- What a reader has of its archive. -/
theorem ofArchive_ok {a : Archive} {source : Option (Source (Session σ))}
    {decoder : Decoder (Session σ)} {config : Config}
    (h : ofArchive a source decoder config = .ok r) :
    StreamMap.derive a = .ok r.map ∧ r.archive = a ∧ source = some r.source ∧
      r.decoder = decoder ∧ r.config = config := by
  unfold ofArchive at h
  cases hmap : StreamMap.derive a with
  | error error =>
    rw [hmap] at h
    cases h
  | ok map =>
    rw [hmap] at h
    cases source with
    | none => cases h
    | some source =>
      cases h
      exact ⟨rfl, rfl, rfl, rfl, rfl⟩

/-- A reader with the map of its archive is the one that is made from what it has. -/
theorem ofArchive_eq (hmap : StreamMap.derive r.archive = .ok r.map) :
    ofArchive r.archive (some r.source) r.decoder r.config = .ok r := by
  unfold ofArchive
  rw [hmap]

/-- The map of a reader gives every file its place in one folder. -/
theorem map_partitions (hmap : StreamMap.derive r.archive = .ok r.map) :
    r.map.PartitionsSubstreams r.archive := by
  obtain ⟨-, graphs, spans, hmade⟩ := (StreamMap.derive_decides r.archive).holds hmap
  exact hmade.partitionsSubstreams

/-- There are as many folders in the map as in the archive. -/
theorem length_map_folders (hmap : StreamMap.derive r.archive = .ok r.map) :
    r.map.folders.length = r.archive.folders.length := by
  obtain ⟨-, graphs, spans, hmade⟩ := (StreamMap.derive_decides r.archive).holds hmap
  exact hmade.length_folders

/-- The map of a reader fits its folders. -/
theorem exists_mapsFolder (hmap : StreamMap.derive r.archive = .ok r.map)
    (hk : r.map.folders[k]? = some span) :
    ∃ f g, r.archive.folders[k]? = some f ∧ StreamMap.MapsFolder r.archive r.map k f g span := by
  have hlt : k < r.archive.folders.length := by
    rw [← length_map_folders hmap]
    exact (List.getElem?_eq_some_iff.mp hk).1
  have hfolder := List.getElem?_eq_getElem hlt
  obtain ⟨g, span', h⟩ := StreamMap.derive_mapsFolder hmap hfolder
  obtain rfl : span' = span := by
    have hsame := h.span_eq
    rw [hk] at hsame
    exact (Option.some.inj hsame).symm
  exact ⟨_, g, hfolder, h⟩

/-- What decoding a folder can come to, a decode that keeps a record of its calls can come to. -/
theorem CanDecode.logged {outcome : Outcome} (h : r.CanDecode k outcome) :
    ∃ s, ((decodeFolderLogged r.archive r.map r.source r.decoder r.config k).run (s, [])).1 =
      outcome := by
  obtain ⟨s, hs⟩ := h
  have hlogged := decodeFolderLogged_lowers r.archive r.map r.source r.decoder r.config k (s, [])
  refine ⟨s, ?_⟩
  rw [← hs, decode]
  exact congrArg Prod.fst hlogged

/-- What decoding a folder can give has the length in the map. -/
theorem CanDecode.length_eq (h : r.CanDecode k (.ok output))
    (hmap : StreamMap.derive r.archive = .ok r.map) (hk : r.map.folders[k]? = some span) :
    output.length = span.unpackLength := by
  obtain ⟨s, hs⟩ := h.logged
  obtain ⟨f, g, -, hfolder⟩ := exists_mapsFolder hmap hk
  exact ((hfolder.decodeFolderLogged_ensures r.source r.decoder r.config s).ok hs).1

/-- Where source and decoder fail with errors only, so does decoding a folder. -/
theorem CanDecode.exists_error {fault : FolderFault} (h : r.CanDecode k (.error fault))
    (hmap : StreamMap.derive r.archive = .ok r.map) (hk : r.map.folders[k]? = some span)
    (hsource : r.source.FailsWithErrors) (hdecoder : r.decoder.FailsWithErrors) :
    ∃ error, fault = .decode error := by
  obtain ⟨s, hs⟩ := h.logged
  obtain ⟨f, g, -, hfolder⟩ := exists_mapsFolder hmap hk
  obtain ⟨hfrom | hread, htrue⟩ :=
    (hfolder.decodeFolderLogged_ensures r.source r.decoder r.config s).error hs
  · exact hfrom.exists_error htrue hdecoder
  · exact absurd hsource hread.not_failsWithErrors

/-- **A file is cut out of what its folder can give.** -/
theorem CanDecode.cut_eq (h : r.CanDecode e.folder (.ok output))
    (hmap : StreamMap.derive r.archive = .ok r.map) (he : e ∈ r.map.files) :
    e.cut output = .ok (e.withContent output) := by
  have hpart := map_partitions hmap
  have hk := List.getElem?_eq_getElem (hpart.folder_lt e he)
  have hmem : e ∈ r.map.filesOf e.folder := List.mem_filter.mpr ⟨he, decide_eq_true rfl⟩
  refine FileSpan.cut_eq ?_
  rw [h.length_eq hmap hk]
  exact hpart.end_le hk hmem

end Reader

end SolidArchive
