import SolidArchive.Proofs.Folder.Grammar
import SolidArchive.StreamMap.Contents

/-!
# What the folders contain

The record and the substreams of each folder in closed form (`contentOf`), which does not say how
the walk through the folders came to it: the substreams of the `k`-th folder start where the counts
before it end. The walk accepts the header just when every folder has one size
(`ofArchive_decides`).

The folders' substreams are put behind each other into one list that forgets which is whose.
`Covers` says that the records still tell: they cut the list into the same pieces. It is all that
placing the files needs to know of the contents.
-/

namespace SolidArchive

/-- The size that a folder declares for its result, if it declares sizes. -/
def Folder.declaredResult (f : Folder) (g : FolderGraph) : Option Nat :=
  f.unpackSizes[g.finalOutput]?.map UInt64.toNat

/-- The `count` substreams from the `first`-th one on. A folder's checksum stands in for those that
have none. -/
def Substreams.slots (s : Substreams) (folderCrc : Option UInt32) (first count : Nat) :
    List Substream :=
  (((s.sizes.zip s.crcs).drop first).take count).map fun slot =>
    { size := slot.1.toNat, crc := slot.2 <|> folderCrc }

theorem Substreams.sum_counts (s : Substreams) : (numbers s.counts).sum = s.sizes.length :=
  (sum_map_eq_foldl UInt64.toNat s.counts).trans s.counts_sum

theorem Substreams.map_size_slots (s : Substreams) (folderCrc : Option UInt32) (first count : Nat) :
    (s.slots folderCrc first count).map Substream.size =
      ((numbers s.sizes).drop first).take count := by
  have hfst : (s.sizes.zip s.crcs).map Prod.fst = s.sizes :=
    List.map_fst_zip s.crcs_length.ge
  rw [slots, List.map_map, numbers, ← hfst, List.map_map, ← List.map_drop, ← List.map_take, hfst]
  rfl

theorem Substreams.slots_succ (s : Substreams) (folderCrc : Option UInt32) {first : Nat}
    {size : UInt64} {crc : Option UInt32} (hsize : s.sizes[first]? = some size)
    (hcrc : s.crcs[first]? = some crc) (count : Nat) :
    s.slots folderCrc first (count + 1) =
      { size := size.toNat, crc := crc <|> folderCrc } :: s.slots folderCrc (first + 1) count := by
  obtain ⟨hlt, rfl⟩ := List.getElem?_eq_some_iff.mp hsize
  obtain ⟨hlt', rfl⟩ := List.getElem?_eq_some_iff.mp hcrc
  have hzip : first < (s.sizes.zip s.crcs).length := by
    rw [List.length_zip]
    omega
  rw [slots, List.drop_eq_getElem_cons hzip, List.take_succ_cons, List.map_cons,
    List.getElem_zip, slots]

theorem Substreams.length_slots (s : Substreams) (folderCrc : Option UInt32) {first count : Nat}
    (h : first + count ≤ s.sizes.length) : (s.slots folderCrc first count).length = count := by
  have hlength := congrArg List.length (s.map_size_slots folderCrc first count)
  rw [List.length_map, List.length_take, List.length_drop, length_numbers] at hlength
  omega

namespace FolderContent

variable {ground : Prop}

/-- The final output of a coder graph is one of those that have a size, if any have. -/
theorem declared_decides (folder : Nat) {f : Folder} {g : FolderGraph} (hf : f.IsCoderGraph)
    (hg : g.Describes f) :
    Decides ground True (· = f.declaredResult g) (declared folder f g) := by
  rw [declared, FolderGraph.declaredSize, Folder.declaredResult]
  split
  · next hnone =>
    rw [hnone]
    exact ⟨trivial, rfl⟩
  · next hsome =>
    have hlt : g.finalOutput < f.unpackSizes.length := by
      rw [hf.unpackSizes.resolve_left hsome]
      exact ((hg.finalOutput _).mpr rfl).1
    rw [Breach.lookup, List.getElem?_eq_getElem hlt]
    exact ⟨trivial, rfl⟩

/-- Collecting the substreams of a folder adds up their sizes. -/
theorem collect_decides (s : Substreams) (folderCrc : Option UInt32)
    (hword : ground → s.sizes.length < 2 ^ 64) {first taken count total : Nat}
    (hcount : first + taken + count ≤ s.sizes.length) (htotal : total < 2 ^ 64) :
    Decides ground (total + sliceSum (numbers s.sizes) (first + taken) count < 2 ^ 64)
      (· = (s.slots folderCrc (first + taken) count,
        total + sliceSum (numbers s.sizes) (first + taken) count))
      (collect s folderCrc first taken count total) := by
  induction count generalizing taken total with
  | zero => exact Decides.pure (by simpa using htotal) (by simp [Substreams.slots])
  | succ count ih =>
    have hsize := List.getElem?_eq_getElem (l := s.sizes) (i := first + taken) (by omega)
    have hcrc := List.getElem?_eq_getElem (l := s.crcs) (i := first + taken)
      (by rw [s.crcs_length]; omega)
    rw [sliceSum_succ (getElem?_numbers_of hsize), s.slots_succ folderCrc hsize hcrc, collect]
    -- the index is one of a substream and leaves no word
    refine Decides.step_eq (Decides.add (fun _ => trivial) fun hg => ?_) ?_
    · have := hword hg
      omega
    refine Decides.step_eq (Decides.lookup hsize) ?_
    refine Decides.bind_eq (Decides.checkedAdd (by trivial)) (fun h => by omega) fun hnext => ?_
    refine Decides.step_eq (Decides.lookup hcrc) ?_
    refine ((ih (by omega) hnext).of_iff (by rw [Nat.add_assoc]; rfl)).bind_eq id fun htotal => ?_
    refine Decides.pure htotal ?_
    rw [Nat.add_assoc, Nat.add_assoc]

theorem collect_folder_decides (s : Substreams) (folderCrc : Option UInt32)
    (hword : ground → s.sizes.length < 2 ^ 64) {first count : Nat}
    (hcount : first + count ≤ s.sizes.length) :
    Decides ground (sliceSum (numbers s.sizes) first count < 2 ^ 64)
      (· = (s.slots folderCrc first count, sliceSum (numbers s.sizes) first count))
      (collect s folderCrc first 0 count 0) := by
  have h : Decides ground _ _ (collect s folderCrc first 0 count 0) :=
    collect_decides s folderCrc hword (by omega) (Nat.two_pow_pos 64)
  simpa only [Nat.zero_add, Nat.add_zero] using h

/-! ### All folders -/

/-- What the `k`-th folder contains: the record of its output, and the substreams of that. -/
def contentOf (substreams : Option Substreams) (k : Nat) (f : Folder) (g : FolderGraph) :
    FolderContent × List Substream :=
  match substreams with
  | none =>
    let size := (f.declaredResult g).getD 0
    ({ length := size, firstSubstream := k, substreamCount := 1 }, [{ size, crc := f.unpackCrc }])
  | some s =>
    let first := runStart (numbers s.counts) k
    let count := (numbers s.counts)[k]?.getD 0
    ({ length :=
        if count = 0 then (f.declaredResult g).getD 0 else sliceSum (numbers s.sizes) first count
       firstSubstream := first
       substreamCount := count },
      s.slots (if count = 1 then f.unpackCrc else none) first count)

/-- The header gives the output of the `k`-th folder one size, which fits a word. -/
def HasOneSize (substreams : Option Substreams) (k : Nat) (f : Folder) (g : FolderGraph) : Prop :=
  match substreams with
  | none => f.unpackSizes ≠ []
  | some s =>
    let count := (numbers s.counts)[k]?.getD 0
    let total := sliceSum (numbers s.sizes) (runStart (numbers s.counts) k) count
    count ≠ 0 → total < 2 ^ 64 ∧ ∀ size, f.declaredResult g = some size → total = size

section Counted

variable {s : Substreams} {k : Nat} {f : Folder} {g : FolderGraph} {count : UInt64}

theorem contentOf_some (hcount : s.counts[k]? = some count) :
    contentOf (some s) k f g =
      ({ length := if count.toNat = 0 then (f.declaredResult g).getD 0
          else sliceSum (numbers s.sizes) (runStart (numbers s.counts) k) count.toNat
         firstSubstream := runStart (numbers s.counts) k
         substreamCount := count.toNat },
        s.slots (if count.toNat = 1 then f.unpackCrc else none)
          (runStart (numbers s.counts) k) count.toNat) := by
  simp [contentOf, getElem?_numbers, hcount]

theorem hasOneSize_some (hcount : s.counts[k]? = some count) :
    HasOneSize (some s) k f g ↔ (count.toNat ≠ 0 →
      sliceSum (numbers s.sizes) (runStart (numbers s.counts) k) count.toNat < 2 ^ 64 ∧
        ∀ size, f.declaredResult g = some size →
          sliceSum (numbers s.sizes) (runStart (numbers s.counts) k) count.toNat = size) := by
  simp [HasOneSize, getElem?_numbers, hcount]

end Counted

/-- The contents of the folders from `k` on. -/
def contentsOf (substreams : Option Substreams) (k : Nat) (folders : List (Folder × FolderGraph)) :
    List (FolderContent × List Substream) :=
  (folders.zipIdx k).map fun p => contentOf substreams p.2 p.1.1 p.1.2

theorem declaredResult_eq_none_iff {f : Folder} {g : FolderGraph} (hf : f.IsCoderGraph)
    (hg : g.Describes f) : f.declaredResult g = none ↔ f.unpackSizes = [] := by
  rw [Folder.declaredResult, Option.map_eq_none_iff]
  refine ⟨?_, ?_⟩
  · intro hnone
    by_contra hsome
    rw [List.getElem?_eq_none_iff, hf.unpackSizes.resolve_left hsome] at hnone
    exact absurd ((hg.finalOutput _).mpr rfl).1 (Nat.not_lt.mpr hnone)
  · intro hnone
    rw [hnone]
    rfl

/-- Without substreams in the header, each folder is one substream of the size that it declares. -/
theorem ofFolders_none_decides (folder : Nat) (folders : List (Folder × FolderGraph))
    (hgraph : ∀ p ∈ folders, p.1.IsCoderGraph ∧ p.2.Describes p.1)
    (hword : ground → folder + folders.length < 2 ^ 64) :
    Decides ground (∀ p ∈ folders.zipIdx folder, HasOneSize none p.2 p.1.1 p.1.2)
      (· = ((contentsOf none folder folders).map Prod.fst,
        (contentsOf none folder folders).flatMap Prod.snd))
      (ofFolders none folder folder folders) := by
  induction folders generalizing folder with
  | nil => exact Decides.pure (fun p hp => absurd hp List.not_mem_nil) rfl
  | cons p folders ih =>
    obtain ⟨f, g⟩ := p
    obtain ⟨hf, hg⟩ := hgraph (f, g) List.mem_cons_self
    rw [List.length_cons] at hword
    rw [ofFolders, List.zipIdx_cons, List.forall_mem_cons]
    refine Decides.step_eq (declared_decides folder hf hg) ?_
    -- a folder has one size declared, or it is refused
    cases hsize : f.declaredResult g with
    | none =>
      exact Decides.refuse rfl trivial fun h => h.1 ((declaredResult_eq_none_iff hf hg).mp hsize)
    | some size =>
      have hsome : f.unpackSizes ≠ [] := by
        rw [Ne, ← declaredResult_eq_none_iff hf hg, hsize]
        exact Option.some_ne_none size
      refine Decides.step_eq (Decides.add (fun _ => trivial) fun hg => ?_) ?_
      · have := hword hg
        omega
      have hrest := ih (folder + 1) (fun p hp => hgraph p (List.mem_cons_of_mem _ hp)) fun hg => by
        have := hword hg
        omega
      refine hrest.bind_eq And.right fun hall => ?_
      refine Decides.pure ⟨hsome, hall⟩ ?_
      simp [contentsOf, contentOf, List.zipIdx_cons, hsize]

/-- With substreams in the header, their sizes have to add up to what the folders declare. -/
theorem ofFolders_some_decides (s : Substreams) (hword : ground → s.sizes.length < 2 ^ 64)
    (folder : Nat) (folders : List (Folder × FolderGraph))
    (hgraph : ∀ p ∈ folders, p.1.IsCoderGraph ∧ p.2.Describes p.1)
    (hcover : folder + folders.length = s.counts.length) :
    Decides ground (∀ p ∈ folders.zipIdx folder, HasOneSize (some s) p.2 p.1.1 p.1.2)
      (· = ((contentsOf (some s) folder folders).map Prod.fst,
        (contentsOf (some s) folder folders).flatMap Prod.snd))
      (ofFolders (some s) folder (runStart (numbers s.counts) folder) folders) := by
  induction folders generalizing folder with
  | nil => exact Decides.pure (fun p hp => absurd hp List.not_mem_nil) rfl
  | cons p folders ih =>
    obtain ⟨f, g⟩ := p
    obtain ⟨hf, hg⟩ := hgraph (f, g) List.mem_cons_self
    rw [List.length_cons] at hcover
    have hcount := List.getElem?_eq_getElem (l := s.counts) (i := folder) (by omega)
    have hnext := runStart_succ (getElem?_numbers_of hcount)
    have hrest := ih (folder + 1) (fun p hp => hgraph p (List.mem_cons_of_mem _ hp)) (by omega)
    rw [hnext] at hrest
    rw [ofFolders, List.zipIdx_cons, List.forall_mem_cons, hasOneSize_some hcount, contentsOf,
      List.zipIdx_cons, List.map_cons, contentOf_some hcount]
    refine Decides.step_eq (declared_decides folder hf hg) ?_
    refine Decides.step_eq (Decides.lookup hcount) ?_
    by_cases hzero : s.counts[folder].toNat = 0
    · -- a folder without substreams is passed over
      rw [hzero, Nat.add_zero] at hrest
      simp only [hzero, if_true]
      refine hrest.bind_eq And.right fun hall => ?_
      refine Decides.pure ⟨fun h => absurd rfl h, hall⟩ ?_
      simp [contentsOf, Substreams.slots]
    -- the counts have the sum that the type of the substreams promises, so its run is in range
    have hfits : runStart (numbers s.counts) folder + s.counts[folder].toNat ≤
        s.sizes.length := by
      rw [← hnext, ← s.sum_counts]
      exact runStart_le_sum (numbers s.counts) (folder + 1)
    simp only [if_neg hzero]
    refine (collect_folder_decides s _ hword hfits).bind_eq (fun h => (h.1 hzero).1)
      fun htotal => ?_
    have hstep : Decides ground True (· = runStart (numbers s.counts) folder +
        s.counts[folder].toNat) (Breach.add StructuralError.breach
          (runStart (numbers s.counts) folder) s.counts[folder].toNat) :=
      Decides.add (fun _ => trivial) fun hg => hfits.trans_lt (hword hg)
    -- the sum has to be the size that the folder declares, if it does
    cases hsize : f.declaredResult g with
    | none =>
      refine hstep.step_eq ?_
      refine hrest.bind_eq And.right fun hall => ?_
      refine Decides.pure ⟨fun _ => ⟨htotal, fun size h => nomatch h⟩, hall⟩ ?_
      simp [contentsOf]
    | some size =>
      refine Decides.guard rfl trivial (fun hne h => hne ((h.1 hzero).2 size rfl)) fun heq => ?_
      refine hstep.step_eq ?_
      refine hrest.bind_eq And.right fun hall => ?_
      refine Decides.pure ⟨fun _ => ⟨htotal, ?_⟩, hall⟩ ?_
      · rintro _ ⟨⟩
        exact not_not.mp heq
      · simp [contentsOf]

/-- The records of all folders. -/
def folderContents (substreams : Option Substreams) (folders : List (Folder × FolderGraph)) :
    List FolderContent :=
  (contentsOf substreams 0 folders).map Prod.fst

/-- The substreams of all folders. -/
def allSubstreams (substreams : Option Substreams) (folders : List (Folder × FolderGraph)) :
    List Substream :=
  (contentsOf substreams 0 folders).flatMap Prod.snd

/-- The header gives the output of every folder one size, and has substreams for just its folders,
if it has any. -/
structure Sized (substreams : Option Substreams) (folders : List (Folder × FolderGraph)) :
    Prop where
  length_counts : ∀ s ∈ substreams, s.counts.length = folders.length
  oneSize : ∀ {k f g}, folders[k]? = some (f, g) → HasOneSize substreams k f g

theorem forall_zipIdx_hasOneSize_iff {substreams : Option Substreams}
    {folders : List (Folder × FolderGraph)} :
    (∀ p ∈ folders.zipIdx, HasOneSize substreams p.2 p.1.1 p.1.2) ↔
      ∀ {k f g}, folders[k]? = some (f, g) → HasOneSize substreams k f g :=
  ⟨fun h _ _ _ hk => h (_, _) (List.mk_mem_zipIdx_iff_getElem?.mpr hk),
    fun h _ hp => h (List.mem_zipIdx_iff_getElem?.mp hp)⟩

/-- **The contents of the folders.** They are put together just when every folder has one size. -/
theorem ofArchive_decides (a : Archive) {graphs : List FolderGraph}
    (hgraphs : List.Forall₂ (fun f g => f.IsCoderGraph ∧ g.Describes f) a.folders graphs)
    (hword : ground → a.folders.length < 2 ^ 64 ∧ ∀ s ∈ a.substreams, s.sizes.length < 2 ^ 64) :
    Decides ground (Sized a.substreams (a.folders.zip graphs))
      (· = (folderContents a.substreams (a.folders.zip graphs),
        allSubstreams a.substreams (a.folders.zip graphs)))
      (ofArchive a graphs) := by
  have hlength : (a.folders.zip graphs).length = a.folders.length := by
    rw [List.length_zip, hgraphs.length_eq, min_self]
  have hgraph : ∀ p ∈ a.folders.zip graphs, p.1.IsCoderGraph ∧ p.2.Describes p.1 :=
    fun p hp => (List.forall₂_iff_zip.mp hgraphs).2 hp
  unfold ofArchive
  -- without counts each folder is one substream, and else there is a count for each
  cases hs : a.substreams with
  | none =>
    have hfolders := ofFolders_none_decides 0 _ hgraph fun hg => by
      rw [hlength, Nat.zero_add]
      exact (hword hg).1
    rw [forall_zipIdx_hasOneSize_iff] at hfolders
    exact hfolders.of_iff ⟨fun h => ⟨fun s hs => (nomatch hs), h⟩, fun h => h.oneSize⟩
  | some s =>
    refine Decides.guard rfl trivial (fun hne h => hne ?_) fun hcover => ?_
    · rw [h.length_counts s rfl, hlength]
    have hcovers : s.counts.length = (a.folders.zip graphs).length := by
      rw [hlength]
      exact not_not.mp hcover
    have hfolders := ofFolders_some_decides s (fun hg => (hword hg).2 s hs) 0 _ hgraph
      (by rw [Nat.zero_add, hcovers])
    rw [runStart_zero, forall_zipIdx_hasOneSize_iff] at hfolders
    refine hfolders.of_iff ⟨fun h => ⟨?_, h⟩, fun h => h.oneSize⟩
    rintro _ ⟨⟩
    exact hcovers

/-! ### Where the substreams of a folder lie -/

/-- How many substreams each folder has. -/
def substreamCounts (contents : List FolderContent) : List Nat := contents.map substreamCount

/-- The records of the folders say where their substreams lie, and how long these are together. -/
structure Covers (contents : List FolderContent) (substreams : List Substream) : Prop where
  length : substreams.length = (substreamCounts contents).sum
  first : ∀ {k c}, contents[k]? = some c →
    c.firstSubstream = runStart (substreamCounts contents) k
  filled : ∀ {k c}, contents[k]? = some c → c.substreamCount ≠ 0 → c.length < 2 ^ 64 ∧
    c.length = sliceSum (substreams.map Substream.size) (runStart (substreamCounts contents) k)
      c.substreamCount

@[simp] theorem length_folderContents (substreams : Option Substreams)
    (folders : List (Folder × FolderGraph)) :
    (folderContents substreams folders).length = folders.length := by
  rw [folderContents, contentsOf, List.length_map, List.length_map, List.length_zipIdx]

theorem getElem?_contentsOf (substreams : Option Substreams) (folders : List (Folder × FolderGraph))
    (k : Nat) :
    (contentsOf substreams 0 folders)[k]? =
      folders[k]?.map fun p => contentOf substreams k p.1 p.2 := by
  rw [contentsOf, List.getElem?_map, List.getElem?_zipIdx, Option.map_map, Nat.zero_add]
  rfl

theorem getElem?_folderContents (substreams : Option Substreams)
    (folders : List (Folder × FolderGraph)) (k : Nat) :
    (folderContents substreams folders)[k]? =
      folders[k]?.map fun p => (contentOf substreams k p.1 p.2).1 := by
  rw [folderContents, List.getElem?_map, getElem?_contentsOf, Option.map_map]
  rfl

section Folder

variable {substreams : Option Substreams} {k : Nat} {f : Folder} {g : FolderGraph}

theorem length_contentOf_snd :
    (contentOf substreams k f g).2.length = (contentOf substreams k f g).1.substreamCount := by
  cases substreams with
  | none => rfl
  | some s =>
    refine s.length_slots _ ?_
    rw [← runStart_succ_getD, ← s.sum_counts]
    exact runStart_le_sum (numbers s.counts) (k + 1)

/-- The substreams of a folder with one size fill its output. -/
theorem HasOneSize.filled (h : HasOneSize substreams k f g)
    (hcount : (contentOf substreams k f g).1.substreamCount ≠ 0) :
    (contentOf substreams k f g).1.length < 2 ^ 64 ∧
      (contentOf substreams k f g).1.length =
        ((contentOf substreams k f g).2.map Substream.size).sum := by
  cases substreams with
  | none =>
    -- the one substream has the declared size, which is a word
    refine ⟨?_, by simp [contentOf]⟩
    rw [contentOf, Folder.declaredResult]
    cases f.unpackSizes[g.finalOutput]? with
    | none => exact Nat.two_pow_pos 64
    | some size => exact size.toNat_lt
  | some s =>
    simp only [contentOf] at hcount ⊢
    rw [if_neg hcount, s.map_size_slots]
    exact ⟨(h hcount).1, rfl⟩

end Folder

theorem substreamCounts_none (folders : List (Folder × FolderGraph)) :
    substreamCounts (folderContents none folders) = List.replicate folders.length 1 := by
  rw [substreamCounts, folderContents, contentsOf, List.map_map, List.map_map]
  refine List.eq_replicate_iff.mpr ⟨by simp, fun count hcount => ?_⟩
  obtain ⟨_, -, rfl⟩ := List.mem_map.mp hcount
  rfl

theorem substreamCounts_some {s : Substreams} {folders : List (Folder × FolderGraph)}
    (h : s.counts.length = folders.length) :
    substreamCounts (folderContents (some s) folders) = numbers s.counts := by
  ext1 k
  rw [substreamCounts, List.getElem?_map, getElem?_folderContents]
  by_cases hk : k < folders.length
  · have hk' : k < (numbers s.counts).length := by rwa [length_numbers, h]
    rw [List.getElem?_eq_getElem hk, List.getElem?_eq_getElem hk']
    simp [contentOf, List.getElem?_eq_getElem hk']
  · rw [List.getElem?_eq_none (Nat.not_lt.mp hk), List.getElem?_eq_none]
    · rfl
    · rw [length_numbers, h]
      exact Nat.not_lt.mp hk

/-- The pieces of which all substreams are put together, where the records say. -/
theorem take_drop_flatMap_snd {pieces : List (FolderContent × List Substream)} {k : Nat}
    {piece : FolderContent × List Substream}
    (hlength : ∀ p ∈ pieces, p.2.length = p.1.substreamCount) (hk : pieces[k]? = some piece) :
    ((pieces.flatMap Prod.snd).drop (runStart (substreamCounts (pieces.map Prod.fst)) k)).take
      piece.1.substreamCount = piece.2 := by
  have hcounts : (pieces.map Prod.snd).map List.length =
      substreamCounts (pieces.map Prod.fst) := by
    rw [substreamCounts, List.map_map, List.map_map]
    exact List.map_congr_left hlength
  obtain ⟨hlt, rfl⟩ := List.getElem?_eq_some_iff.mp hk
  have hcount : (substreamCounts (pieces.map Prod.fst))[k]? = some pieces[k].1.substreamCount := by
    rw [substreamCounts, List.getElem?_map, List.getElem?_map, hk]
    rfl
  -- the flattened list is cut at the sums of the lengths, which are the counts
  have hpiece := List.drop_take_succ_flatten_eq_getElem (pieces.map Prod.snd) k
    (by rwa [List.length_map])
  rw [hcounts, List.drop_take, List.getElem_map] at hpiece
  have hnext := runStart_succ hcount
  unfold runStart at hnext ⊢
  rw [← hpiece, List.flatMap_def, hnext, Nat.add_sub_cancel_left]

theorem length_snd_of_mem_contentsOf (substreams : Option Substreams)
    (folders : List (Folder × FolderGraph)) :
    ∀ p ∈ contentsOf substreams 0 folders, p.2.length = p.1.substreamCount := by
  intro p hp
  obtain ⟨q, -, rfl⟩ := List.mem_map.mp hp
  exact length_contentOf_snd

/-- The records of folders with one size cover the substreams. -/
theorem Sized.covers {substreams : Option Substreams}
    {folders : List (Folder × FolderGraph)} (h : Sized substreams folders) :
    Covers (folderContents substreams folders) (allSubstreams substreams folders) := by
  have hlength := length_snd_of_mem_contentsOf substreams folders
  refine ⟨?_, ?_, ?_⟩
  · unfold allSubstreams substreamCounts folderContents
    rw [List.length_flatMap, List.map_map]
    exact congrArg List.sum (List.map_congr_left hlength)
  · -- where a folder's substreams start is what its record says
    intro k c hc
    rw [getElem?_folderContents] at hc
    obtain ⟨p, hp, rfl⟩ := Option.map_eq_some_iff.mp hc
    cases substreams with
    | none =>
      -- one substream each, so `k` of them before the `k`-th folder
      have hk : k < folders.length := (List.getElem?_eq_some_iff.mp hp).1
      rw [substreamCounts_none, runStart, List.take_replicate, List.sum_replicate_nat, mul_one,
        min_eq_left hk.le]
      rfl
    | some s =>
      rw [substreamCounts_some (h.length_counts s rfl)]
      rfl
  · -- and its length is the sum of what lies there
    intro k c hc hcount
    unfold folderContents at hc
    rw [List.getElem?_map] at hc
    obtain ⟨piece, hpiece, rfl⟩ := Option.map_eq_some_iff.mp hc
    unfold sliceSum allSubstreams folderContents
    rw [← List.map_drop, ← List.map_take, take_drop_flatMap_snd hlength hpiece]
    rw [getElem?_contentsOf] at hpiece
    obtain ⟨p, hp, rfl⟩ := Option.map_eq_some_iff.mp hpiece
    exact (h.oneSize hp).filled hcount

/-- Put together, the substreams have the sizes that the header lists. -/
theorem Sized.map_size_allSubstreams {s : Substreams} {folders : List (Folder × FolderGraph)}
    (h : Sized (some s) folders) :
    (allSubstreams (some s) folders).map Substream.size = numbers s.sizes := by
  have hcounts := substreamCounts_some (h.length_counts s rfl)
  have hlength : ((allSubstreams (some s) folders).map Substream.size).length =
      (numbers s.counts).sum := by
    rw [List.length_map, h.covers.length, hcounts]
  have hsizes : (numbers s.sizes).length = (numbers s.counts).sum :=
    (length_numbers s.sizes).trans s.sum_counts.symm
  -- enough that they are the same in the run of each folder
  refine eq_of_runs hlength hsizes fun k count hcount => ?_
  have hk : k < folders.length := by
    rw [← h.length_counts s rfl, ← length_numbers]
    exact (List.getElem?_eq_some_iff.mp hcount).1
  have hpiece : (contentsOf (some s) 0 folders)[k]? =
      some (contentOf (some s) k folders[k].1 folders[k].2) := by
    rw [getElem?_contentsOf, List.getElem?_eq_getElem hk]
    rfl
  have hsame := take_drop_flatMap_snd (length_snd_of_mem_contentsOf (some s) folders) hpiece
  have hsize : (contentOf (some s) k folders[k].1 folders[k].2).1.substreamCount = count := by
    simp [contentOf, hcount]
  rw [hsize, ← folderContents, hcounts] at hsame
  rw [← List.map_drop, ← List.map_take, allSubstreams, hsame, contentOf, s.map_size_slots, hcount]
  rfl

end FolderContent

end SolidArchive
