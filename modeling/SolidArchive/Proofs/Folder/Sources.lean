import SolidArchive.Proofs.Folder.Isolation
import SolidArchive.Proofs.Folder.Trace

/-!
# Memory and files

A byte string and a file that holds it are read alike, but for one kind of read: nothing at all,
from an offset past the end. In memory that is refused like any other read past the end, and a file
is not even opened for it (`ReadAlike`).

Such a read is made for a pack stream of no bytes that is said to start past the end. So a folder
without one is decoded alike from both (`StreamMap.decodeFolder_ofFile`). To see it, the states of
the file tree are taken to be those in which the file is there: over these the file is a source
whose answers depend on nothing, as the byte string is.
-/

namespace SolidArchive

variable {σ τ : Type} {tree : FileTree} {path : String} {bytes : Bytes} {offset length : ℕ}

/-! ### Reading a range -/

/-- **No difference wraps** in the bound check: it says of words what it says of numbers. -/
theorem pastEnd_iff (size offset length : UInt64) :
    PastEnd size offset length ↔ size.toNat < offset.toNat + length.toNat := by
  unfold PastEnd
  rw [UInt64.lt_iff_toNat_lt]
  by_cases h : size.toNat < offset.toNat
  · exact iff_of_true (.inl h) (by omega)
  · have hle : offset ≤ size := UInt64.le_iff_toNat_le.mpr (Nat.not_lt.mp h)
    rw [UInt64.lt_iff_toNat_lt, UInt64.toNat_sub_of_le _ _ hle]
    omega

theorem readRange_of_le (h : offset + length ≤ bytes.length) :
    readRange bytes offset length = .ok ((bytes.drop offset).take length) :=
  if_neg (pastEnd_iff_lt.not.mpr (Nat.not_lt.mpr h))

theorem readRange_of_lt (h : bytes.length < offset + length) :
    readRange bytes offset length = .error (.failure (.shortRead offset length)) :=
  if_pos (pastEnd_iff_lt.mpr h)

/-- How a file is read that is there. -/
theorem FileTree.readFileRange_eq (h : tree.find? path = some (.file bytes)) (offset length : ℕ) :
    tree.readFileRange path offset length =
      if length = 0 then .ok [] else readRange bytes offset length := by
  rw [readFileRange, h]

/-- There is one kind of read for which a file and a byte string differ. -/
theorem FileTree.readFileRange_eq_readRange (h : tree.find? path = some (.file bytes))
    (hread : length = 0 → offset ≤ bytes.length) :
    tree.readFileRange path offset length = readRange bytes offset length := by
  rw [readFileRange_eq h]
  split
  · next hzero =>
    rw [readRange_of_le (by rw [hzero]; exact hread hzero), hzero, List.take_zero]
  · rfl

/-- Two sources over states in which both hold the same bytes. They are read alike: they give the
bytes of a range inside, and refuse a range that is not, unless it has no bytes. In that case the
one in memory refuses the read and the file gives the empty string. -/
structure ReadAlike (bytes : Bytes) (memory : Source σ) (s : σ) (file : Source τ) (t : τ) :
    Prop where
  size : memory.size s = (.ok bytes.length, s) ∧ file.size t = (.ok bytes.length, t)
  inside {offset length : ℕ} (h : offset + length ≤ bytes.length) :
    memory.read offset length s = (.ok ((bytes.drop offset).take length), s) ∧
      file.read offset length t = (.ok ((bytes.drop offset).take length), t)
  outside {offset length : ℕ} (h : bytes.length < offset + length) (hsome : length ≠ 0) :
    memory.read offset length s = (.error (.failure (.shortRead offset length)), s) ∧
      file.read offset length t = (.error (.failure (.shortRead offset length)), t)
  nothing {offset : ℕ} (h : bytes.length < offset) :
    memory.read offset 0 s = (.error (.failure (.shortRead offset 0)), s) ∧
      file.read offset 0 t = (.ok [], t)

theorem FileTree.readAlike (h : tree.find? path = some (.file bytes)) (s : σ) :
    ReadAlike bytes (.ofBytes bytes) s (.ofFile path) tree where
  size := by
    have hsize : tree.fileSize path = .ok bytes.length := by rw [fileSize, h]
    exact ⟨rfl, congrArg (·, tree) hsize⟩
  inside {offset length} hle := by
    -- an empty read is inside here, wherever the file ends
    have hfile : tree.readFileRange path offset length = readRange bytes offset length :=
      readFileRange_eq_readRange h fun _ => by omega
    rw [readRange_of_le hle] at hfile
    exact ⟨congrArg (·, s) (readRange_of_le hle), congrArg (·, tree) hfile⟩
  outside {offset length} hlt hsome := by
    have hfile : tree.readFileRange path offset length = readRange bytes offset length :=
      readFileRange_eq_readRange h fun hzero => absurd hzero hsome
    rw [readRange_of_lt hlt] at hfile
    exact ⟨congrArg (·, s) (readRange_of_lt hlt), congrArg (·, tree) hfile⟩
  nothing {offset} hlt :=
    ⟨congrArg (·, s) (readRange_of_lt (by omega)), congrArg (·, tree) (readFileRange_eq h offset 0)⟩

/-! ### Decoding a folder -/

/-- The file trees in which a file is there. -/
abbrev FileTree.With (path : String) (bytes : Bytes) : Type :=
  { tree : FileTree // tree.find? path = some (.file bytes) }

/-- A file that is there. -/
def Source.ofFileWith (path : String) (bytes : Bytes) : Source (FileTree.With path bytes) where
  size := fun tree => (tree.1.fileSize path, tree)
  read := fun offset length tree => (tree.1.readFileRange path offset length, tree)

namespace StreamMap

variable {a : Archive} {m : StreamMap} {k : ℕ} {span : FolderSpan}

/-- No pack stream of a folder that has no bytes starts past the end of the source. -/
def EmptyInside (a : Archive) (m : StreamMap) (span : FolderSpan) (bytes : Bytes) : Prop :=
  ∀ stream offset, span.firstPackStream ≤ stream →
    stream < span.firstPackStream + span.packStreamCount → a.packSizes[stream]? = some 0 →
      m.packOffsets[stream]? = some offset → offset ≤ bytes.length

/-- Over the file trees in which it is there, a file takes the place of the byte string. -/
theorem decodeFolder_ofFileWith (hm : derive a = .ok m) (hk : m.folders[k]? = some span)
    (hempty : EmptyInside a m span bytes) (decoder : Decoder (FileTree.With path bytes))
    (config : Config) :
    decodeFolder a m (.ofFileWith path bytes) decoder config k =
      decodeFolder a m (.ofBytes bytes) decoder config k := by
  obtain ⟨-, graphs, spans, hmade⟩ := (derive_decides a).holds hm
  obtain ⟨f, g, hfolder, -⟩ := hmade.getElem?_folders hk
  obtain ⟨g', span', h⟩ := hmade.mapsFolder (List.getElem?_zip_eq_some.mp hfolder).1
  obtain rfl : span' = span := Option.some.inj (h.span_eq.symm.trans hk)
  refine h.decodeFolder_congr (fun stream size hfirst hlast hsize => ?_) decoder config
  funext tree
  -- the two differ only in an empty read behind the end of the file
  refine congrArg (·, tree) (FileTree.readFileRange_eq_readRange tree.2 fun hzero => ?_)
  have hnone : a.packSizes[stream]? = some 0 := by
    have hsizeZero : size = 0 := UInt64.toNat_inj.mp hzero
    rw [hsize, hsizeZero]
  exact hempty stream _ hfirst hlast hnone (h.packStream stream hfirst hlast).2

/-- A byte string and a decoder that is a function act on no state. -/
theorem decodeFolder_ofBytes_lowers (get : τ → σ) (a : Archive) (m : StreamMap) (bytes : Bytes)
    (decode : Coder → List Bytes → Option ℕ → Except DecoderFault Bytes) (config : Config) (k : ℕ) :
    Lowers get (decodeFolder a m (.ofBytes bytes) (.pure decode) config k)
      (decodeFolder a m (.ofBytes bytes) (.pure decode) config k) :=
  decodeFolder_lowers get a m (fun _ _ _ => rfl) (fun _ _ _ _ => rfl) config k

/-- A file that is there acts on the tree as it does when nothing is known of that. -/
theorem decodeFolder_ofFileWith_lowers (a : Archive) (m : StreamMap)
    (decode : Coder → List Bytes → Option ℕ → Except DecoderFault Bytes) (config : Config) (k : ℕ) :
    Lowers Subtype.val (decodeFolder a m (.ofFileWith path bytes) (.pure decode) config k)
      (decodeFolder a m (.ofFile path) (.pure decode) config k) :=
  decodeFolder_lowers Subtype.val a m (fun _ _ _ => rfl) (fun _ _ _ _ => rfl) config k

/-- **A folder is decoded alike** from a file and from the byte string that it holds. -/
theorem decodeFolder_ofFile (htree : tree.find? path = some (.file bytes)) (hm : derive a = .ok m)
    (hk : m.folders[k]? = some span) (hempty : EmptyInside a m span bytes)
    (decode : Coder → List Bytes → Option ℕ → Except DecoderFault Bytes) (config : Config) (s : σ) :
    ((decodeFolder a m (.ofFile path) (.pure decode) config k).run tree).1 =
      ((decodeFolder a m (.ofBytes bytes) (.pure decode) config k).run s).1 := by
  let there : FileTree.With path bytes := ⟨tree, htree⟩
  have hfile := decodeFolder_ofFileWith_lowers a m decode config k there
  have hmemory := decodeFolder_ofBytes_lowers (fun _ => s) a m bytes decode config k there
  rw [decodeFolder_ofFileWith hm hk hempty] at hfile
  exact (congrArg Prod.fst hfile).symm.trans (congrArg Prod.fst hmemory)

/-- **Memory and files are interchangeable.** Let a name stand for a file. It and the byte string
that it holds are read alike, with one exception: a read of nothing from past the end is refused in
memory and gives the empty string from the file. The bound check that both make by 64-bit words
refuses just the ranges that do not lie in the bytes. So every folder of a mapped header that has no
empty pack stream past the end has the same outcome from both, be it an output or a fault. -/
theorem ofFile_interchangeable (path : String) (tree : FileTree) (bytes : Bytes)
    (htree : tree.find? path = some (.file bytes)) :
    (∀ (σ : Type) (s : σ), ReadAlike bytes (.ofBytes bytes) s (.ofFile path) tree) ∧
    (∀ size offset length : UInt64, size.toNat = bytes.length →
      (PastEnd size offset length ↔ bytes.length < offset.toNat + length.toNat)) ∧
    ∀ (a : Archive) (m : StreamMap), derive a = .ok m → ∀ (k : ℕ) (span : FolderSpan),
      m.folders[k]? = some span → EmptyInside a m span bytes →
        ∀ (decode : Coder → List Bytes → Option ℕ → Except DecoderFault Bytes) (config : Config)
          (σ : Type) (s : σ),
          ((decodeFolder a m (.ofFile path) (.pure decode) config k).run tree).1 =
            ((decodeFolder a m (.ofBytes bytes) (.pure decode) config k).run s).1 := by
  refine ⟨fun σ s => FileTree.readAlike htree s, fun size offset length hsize => ?_, ?_⟩
  · rw [pastEnd_iff, hsize]
  · intro a m hm k span hk hempty decode config σ s
    exact decodeFolder_ofFile htree hm hk hempty decode config s

/-- A folder with an empty pack stream right at the end, and a read of nothing from past it. -/
theorem ofFile_interchangeable_empty_stream :
    let f : Folder := { coders := [{ methodId := [3], inputs := 2 }], packedStreams := [0, 1],
                        unpackSizes := [2] }
    let a : Archive :=
      { packPosition := 1, packSizes := [2, 0], folders := [f], entries := [{ name := "a" }] }
    let tree : FileTree := { nodes := [("a.bin", .file [0, 20, 21])] }
    let decode := fun (_ : Coder) (inputs : List Bytes) (_ : Option ℕ) =>
      (.ok inputs.flatten : Except DecoderFault Bytes)
    ∃ m, derive a = .ok m ∧
      ((decodeFolder a m (.ofFile "a.bin") (.pure decode) {} 0).run tree).1 = .ok [20, 21] ∧
      (Source.ofFile "a.bin").read 4 0 tree = (.ok [], tree) ∧
      (Source.ofBytes [0, 20, 21]).read 4 0 () =
        (.error (.failure (.shortRead 4 0)), ()) := by
  intro f a tree decode
  obtain ⟨m, hm⟩ : ∃ m, derive a = .ok m := ⟨_, rfl⟩
  obtain ⟨hreads, -, hfolders⟩ := ofFile_interchangeable "a.bin" tree [0, 20, 21] rfl
  obtain ⟨hmemory, hfile⟩ := (hreads Unit ()).nothing (show 3 < 4 by decide)
  refine ⟨m, hm, ?_, hfile, hmemory⟩
  obtain ⟨span, hspan⟩ : ∃ span, m.folders[0]? = some span := by
    cases hm
    exact ⟨_, rfl⟩
  have hempty : EmptyInside a m span [0, 20, 21] := by
    cases hm
    cases hspan
    rintro (_ | _ | stream) offset - hlast hsize hoffset
    · cases hsize
    · cases hoffset
      decide
    · exact absurd hlast (Nat.not_lt.mpr (Nat.le_add_left 2 stream))
  rw [hfolders a m hm 0 span hspan hempty decode {} Unit ()]
  cases hm
  rfl

end StreamMap

end SolidArchive
