import SolidArchive.Proofs.StreamMap.Freezing
import SolidArchive.Proofs.StreamMap.Contents

/-!
# Building the lists of substreams

A builder is given counts, sizes and digests in any order, and each goes behind those of its kind
(`foldl_add`). So what it freezes to depends on the three lists that were given and not on how they
were interleaved.

The builder keeps whether a digest is there and the digest itself in lists of their own, its
`Columns`, and freezing moves these out one after another. All checks come before the first move, so
a builder that is refused is left as it was (`Columns.freeze_run`), and after any number of refusals
it holds what was added and nothing else (`session_of_refused`).
-/

namespace SolidArchive.Substreams

/-! ### The columns of checksums -/

/-- The four lists that are kept. A substream without checksum has a value all the same. -/
structure Columns where
  counts : List UInt64 := []
  sizes : List UInt64 := []
  hasCrc : List Bool := []
  crcs : List UInt32 := []
  deriving DecidableEq, Repr

/-- The checksum of a substream, if it is in range and has one. -/
def Columns.crc (c : Columns) (substream : ℕ) : Option UInt32 :=
  if c.hasCrc[substream]? = some true then c.crcs[substream]? else none

/-- The columns of what was frozen. -/
def columns (s : Substreams) : Columns where
  counts := s.counts
  sizes := s.sizes
  hasCrc := s.crcs.map Option.isSome
  crcs := s.crcs.map fun crc => crc.getD 0

/-- The columns are as long as there are substreams. -/
theorem length_columns (s : Substreams) :
    s.columns.hasCrc.length = s.sizes.length ∧ s.columns.crcs.length = s.sizes.length := by
  simp [columns, s.crcs_length]

/-- A checksum is looked up in the two columns. -/
theorem crc_columns (s : Substreams) (i : ℕ) : s.columns.crc i = s.crc i := by
  simp only [Columns.crc, columns, Substreams.crc, List.getElem?_map]
  cases s.crcs[i]? with
  | none => rfl
  | some digest => cases digest <;> rfl

namespace Builder

variable {b : Builder} {s : Substreams}

/-! ### Adding to a builder -/

/-- What is added to a builder. -/
inductive Addition where
  | folder (count : UInt64)
  | size (size : UInt64)
  | crc (crc : UInt32)
  | missingCrc
  deriving DecidableEq, Repr

namespace Addition

def count? : Addition → Option UInt64
  | .folder n => some n
  | _ => none

def size? : Addition → Option UInt64
  | .size n => some n
  | _ => none

/-- The digest that is added; it may be one that says that there is no checksum. -/
def digest? : Addition → Option (Option UInt32)
  | .crc value => some (some value)
  | .missingCrc => some none
  | _ => none

end Addition

def add (b : Builder) : Addition → Builder
  | .folder n => b.addFolder n
  | .size n => b.addSize n
  | .crc value => b.addCrc value
  | .missingCrc => b.addMissingCrc

/-- The columns of a builder. -/
def columns (b : Builder) : Columns where
  counts := b.counts
  sizes := b.sizes
  hasCrc := b.digests.map Option.isSome
  crcs := b.digests.map fun digest => digest.getD 0

/-- An addition to the columns. A digest goes into two of them, also where there is none. -/
def addColumn (c : Columns) : Addition → Columns
  | .folder n => { c with counts := c.counts ++ [n] }
  | .size n => { c with sizes := c.sizes ++ [n] }
  | .crc value => { c with hasCrc := c.hasCrc ++ [true], crcs := c.crcs ++ [value] }
  | .missingCrc => { c with hasCrc := c.hasCrc ++ [false], crcs := c.crcs ++ [0] }

theorem columns_add (b : Builder) (addition : Addition) :
    (b.add addition).columns = addColumn b.columns addition := by
  cases addition <;> simp [add, addFolder, addSize, addCrc, addMissingCrc, columns, addColumn]

/-- A builder to which the additions were made, one after another. -/
def build (additions : List Addition) : Builder := additions.foldl add {}

/-- Each addition goes behind those of its kind. -/
theorem foldl_add (additions : List Addition) (b : Builder) :
    additions.foldl add b =
      { counts := b.counts ++ additions.filterMap Addition.count?
        sizes := b.sizes ++ additions.filterMap Addition.size?
        digests := b.digests ++ additions.filterMap Addition.digest? } := by
  induction additions generalizing b with
  | nil => simp
  | cons addition additions ih =>
    rw [List.foldl_cons, ih]
    cases addition <;>
      simp only [add, addFolder, addSize, addCrc, addMissingCrc, List.append_assoc] <;> rfl

section Build

variable (additions : List Addition)

@[simp] theorem counts_build :
    (build additions).counts = additions.filterMap Addition.count? := by
  simp [build, foldl_add]

@[simp] theorem sizes_build : (build additions).sizes = additions.filterMap Addition.size? := by
  simp [build, foldl_add]

@[simp] theorem digests_build :
    (build additions).digests = additions.filterMap Addition.digest? := by
  simp [build, foldl_add]

end Build

/-! ### Freezing -/

/-- What is frozen has lists that agree. -/
theorem agrees_of_freeze (h : b.freeze = .ok s) :
    (numbers b.counts).sum = b.sizes.length ∧
      (b.digests = [] ∨ b.digests.length = b.sizes.length) := by
  obtain ⟨hcounts, hsizes, hcrcs⟩ := freeze_ok h
  refine ⟨?_, ?_⟩
  · rw [← hcounts, ← hsizes]
    exact s.sum_counts
  · by_cases hnone : b.digests = []
    · exact .inl hnone
    · rw [if_neg hnone] at hcrcs
      exact .inr (by rw [← hcrcs, s.crcs_length, hsizes])

/-- The checksum of a substream is its digest, if it was given one. -/
theorem crc_of_freeze (h : b.freeze = .ok s) (i : ℕ) : s.crc i = b.digests[i]?.join := by
  obtain ⟨-, -, hcrcs⟩ := freeze_ok h
  rw [Substreams.crc, hcrcs]
  split
  · next hnone =>
    rw [hnone, List.getElem?_replicate]
    split <;> rfl
  · rfl

/-- How freezing goes. -/
theorem freeze_cases (b : Builder) :
    (∃ fault, declared 0 b.counts = .error fault ∧ b.freeze = .error fault) ∨
    (∃ total, declared 0 b.counts = .ok total ∧ total ≠ b.sizes.length ∧
      b.freeze = .error (.substreamSizeCount total b.sizes.length)) ∨
    (declared 0 b.counts = .ok b.sizes.length ∧
      b.digests ≠ [] ∧ b.digests.length ≠ b.sizes.length ∧
      b.freeze = .error (.substreamDigestCount b.digests.length b.sizes.length)) ∨
    (declared 0 b.counts = .ok b.sizes.length ∧
      (b.digests = [] ∨ b.digests.length = b.sizes.length) ∧ ∃ s, b.freeze = .ok s) := by
  unfold freeze
  split
  · next fault hsum => exact .inl ⟨fault, hsum, rfl⟩
  · next total hsum =>
    refine .inr ?_
    split
    · next hsizes =>
      subst hsizes
      refine .inr ?_
      split
      · next hnone => exact .inr ⟨hsum, .inl hnone, _, rfl⟩
      · next hsome =>
        split
        · next hdigests => exact .inr ⟨hsum, .inr hdigests, _, rfl⟩
        · next hdigests => exact .inl ⟨hsum, hsome, hdigests, rfl⟩
    · next hsizes => exact .inl ⟨total, hsum, hsizes, rfl⟩

/-- Saying of every substream that it has no checksum is as good as saying nothing. -/
theorem freeze_missing (counts sizes : List UInt64) :
    freeze { counts, sizes, digests := List.replicate sizes.length none } =
      freeze { counts, sizes, digests := [] } := by
  unfold freeze
  dsimp only
  split
  · rfl
  · split
    · rw [if_pos rfl]
      split
      · rfl
      · rw [dif_pos List.length_replicate]
    · rfl

/-- The columns agree: the counts add up to the number of sizes, and there is a digest for each size
or for none. -/
def checkColumns (c : Columns) : Except StructuralError Unit := do
  let total ← declared 0 c.counts
  if total ≠ c.sizes.length then
    throw (.substreamSizeCount total c.sizes.length)
  if c.hasCrc ≠ [] ∧ c.hasCrc.length ≠ c.sizes.length then
    throw (.substreamDigestCount c.hasCrc.length c.sizes.length)

/-- The columns are moved out, one after another. -/
def moveColumns : StateM Columns Columns := do
  let counts ← modifyGet fun c => (c.counts, { c with counts := [] })
  let sizes ← modifyGet fun c => (c.sizes, { c with sizes := [] })
  if (← get).hasCrc = [] then
    let n := sizes.length
    pure { counts, sizes, hasCrc := List.replicate n false, crcs := List.replicate n 0 }
  else
    let hasCrc ← modifyGet fun c => (c.hasCrc, { c with hasCrc := [] })
    let crcs ← modifyGet fun c => (c.crcs, { c with crcs := [] })
    pure { counts, sizes, hasCrc, crcs }

/-- **Freezing in place.** -/
def freezeColumns : ExceptT StructuralError (StateM Columns) Columns := do
  MonadExcept.ofExcept (checkColumns (← get))
  moveColumns

/-- The columns of a builder agree just when it can be frozen. -/
theorem checkColumns_columns (b : Builder) :
    checkColumns b.columns = b.freeze.map fun _ => () := by
  have hcrcs : b.columns.hasCrc = [] ↔ b.digests = [] := List.map_eq_nil_iff
  have hlength : b.columns.hasCrc.length = b.digests.length := List.length_map ..
  have hcounts : declared 0 b.columns.counts = declared 0 b.counts := rfl
  -- the check of the columns goes through the same cases as the freezing
  obtain ⟨fault, hsum, hfreeze⟩ | ⟨total, hsum, hsizes, hfreeze⟩ |
    ⟨hsum, hsome, hdigests, hfreeze⟩ | ⟨hsum, hagree, s, hfreeze⟩ := freeze_cases b
  all_goals rw [hfreeze, checkColumns, hcounts, hsum]
  · rfl
  · exact if_pos hsizes
  · have hcheck : b.columns.hasCrc ≠ [] ∧ b.columns.hasCrc.length ≠ b.columns.sizes.length :=
      ⟨mt hcrcs.mp hsome, hlength ▸ hdigests⟩
    rw [← hlength]
    exact (if_neg (not_not.mpr rfl)).trans (if_pos hcheck)
  · have hcheck : ¬(b.columns.hasCrc ≠ [] ∧ b.columns.hasCrc.length ≠ b.columns.sizes.length) := by
      rw [hlength, Ne, hcrcs]
      tauto
    exact (if_neg (not_not.mpr rfl)).trans (if_neg hcheck)

/-- The columns of what is frozen are those of its builder, and none are left. -/
theorem moveColumns_columns (h : b.freeze = .ok s) :
    moveColumns b.columns = (s.columns, {}) := by
  obtain ⟨hcounts, hsizes, hcrcs⟩ := freeze_ok h
  rw [Substreams.columns, hcounts, hsizes, hcrcs]
  obtain ⟨counts, sizes, digests⟩ := b
  cases digests with
  | nil =>
    rw [if_pos rfl, List.map_replicate, List.map_replicate]
    rfl
  | cons digest digests => rfl

/-- What is refused is left as it was, and what is frozen leaves empty columns. -/
theorem freezeColumns_run (b : Builder) :
    freezeColumns.run b.columns =
      (b.freeze.map Substreams.columns, if b.freeze.isOk then {} else b.columns) := by
  -- the columns are moved away only behind the check
  have hrun : freezeColumns.run b.columns =
      match checkColumns b.columns with
      | .error fault => (.error fault, b.columns)
      | .ok () => (.ok (moveColumns b.columns).1, (moveColumns b.columns).2) := by
    have hopen : freezeColumns.run b.columns =
        (MonadExcept.ofExcept (checkColumns b.columns) >>= fun _ => moveColumns :
          ExceptT StructuralError (StateM Columns) Columns).run b.columns := rfl
    rw [hopen]
    cases checkColumns b.columns <;> rfl
  rw [hrun, checkColumns_columns]
  cases hfreeze : b.freeze with
  | error fault => rfl
  | ok s =>
    have hmoved := moveColumns_columns hfreeze
    show ((.ok (moveColumns b.columns).1, (moveColumns b.columns).2) : Except _ _ × _) = _
    rw [hmoved]
    rfl

/-! ### A session with a builder -/

/-- What is done with a builder. -/
inductive Use where
  | add (addition : Addition)
  | freeze
  deriving DecidableEq, Repr

/-- The additions of a session. -/
def additionsOf (uses : List Use) : List Addition :=
  uses.filterMap fun
    | .add addition => some addition
    | .freeze => none

/-- What freezing answers, each time that it is tried, and the columns that are left. -/
def session (c : Columns) : List Use → List (Except StructuralError Columns) × Columns
  | [] => ([], c)
  | .add addition :: uses => session (addColumn c addition) uses
  | .freeze :: uses =>
    let (answer, c) := freezeColumns.run c
    let (answers, c) := session c uses
    (answer :: answers, c)

/-- Where nothing was frozen, the columns hold all that was added. -/
theorem session_of_refused {uses : List Use}
    (h : ∀ answer ∈ (session b.columns uses).1, ∃ fault, answer = .error fault) :
    (session b.columns uses).2 = ((additionsOf uses).foldl add b).columns := by
  induction uses generalizing b with
  | nil => rfl
  | cons use uses ih =>
    cases use with
    | add addition =>
      rw [session, ← columns_add] at h ⊢
      exact ih h
    | freeze =>
      simp only [session, freezeColumns_run] at h ⊢
      obtain ⟨⟨fault, hfault⟩, hanswers⟩ := List.forall_mem_cons.mp h
      -- the columns go on as they were before they were refused
      have hleft : b.freeze.isOk = false := by
        cases hfreeze : b.freeze with
        | error fault => rfl
        | ok s => rw [hfreeze] at hfault; cases hfault
      rw [hleft] at hanswers ⊢
      exact ih hanswers

/-- **Building and freezing.** Let counts, sizes and digests be added to a builder in any order. It
can be frozen just when the counts, as numbers, add up to the number of sizes (which is one that a
word can tell, as the length of any list in memory) and there is a digest for each size or for none.
Then the substreams have the counts and sizes that were added, in order, an entry of both columns of
checksums for each size, and the checksums that were given as digests; a digest that says that there
is none is as good as no digest. When the builder is frozen in place, a refusal leaves its columns
as they were, and after any number of refusals it goes on as if it had not been tried. -/
theorem freeze_build (added : List Addition) :
    let b := build added
    let counts := added.filterMap Addition.count?
    let sizes := added.filterMap Addition.size?
    let digests := added.filterMap Addition.digest?
    (sizes.length < 2 ^ 64 → ((∃ s, b.freeze = .ok s) ↔ (numbers counts).sum = sizes.length ∧
        (digests.length = 0 ∨ digests.length = sizes.length))) ∧
      (∀ s, b.freeze = .ok s → s.columns.counts = counts ∧ s.columns.sizes = sizes ∧
        s.columns.hasCrc.length = sizes.length ∧ s.columns.crcs.length = sizes.length ∧
        ∀ i, s.crc i = digests[i]?.join ∧ s.columns.crc i = digests[i]?.join) ∧
      (digests = [] → ∀ added', added'.filterMap Addition.count? = counts →
        added'.filterMap Addition.size? = sizes →
          added'.filterMap Addition.digest? = List.replicate sizes.length none →
            (build added').freeze = b.freeze) ∧
      (∀ fault, b.freeze = .error fault → freezeColumns.run b.columns = (.error fault, b.columns)) ∧
      ∀ uses, additionsOf uses = added →
        (∀ answer ∈ (session {} uses).1, ∃ fault, answer = .error fault) →
          (session {} uses).2 = b.columns ∧
            (freezeColumns.run (session {} uses).2).1 = b.freeze.map Substreams.columns := by
  intro b counts sizes digests
  have hcounts : b.counts = counts := counts_build added
  have hsizes : b.sizes = sizes := sizes_build added
  have hdigests : b.digests = digests := digests_build added
  refine ⟨fun hword => ⟨?_, ?_⟩, fun s hs => ?_, fun hnone added' hcounts' hsizes' hmissing => ?_,
    fun fault hfault => ?_, fun uses huses hrefused => ?_⟩
  · rintro ⟨s, hs⟩
    obtain ⟨hsum, hagree⟩ := agrees_of_freeze hs
    rw [hcounts, hsizes] at hsum
    rw [hdigests, hsizes] at hagree
    exact ⟨hsum, hagree.imp_left List.length_eq_zero_iff.mpr⟩
  · rintro ⟨hsum, hagree⟩
    apply exists_freeze
    · rw [hcounts, hsizes, hsum]
    · rwa [hsizes]
    · rw [hdigests, hsizes]
      exact hagree.imp_left List.length_eq_zero_iff.mp
  · obtain ⟨hcounts', hsizes', -⟩ := freeze_ok hs
    have hsame : s.sizes = sizes := hsizes'.trans hsizes
    obtain ⟨hhas, hcrcs⟩ := length_columns s
    refine ⟨hcounts'.trans hcounts, hsame, hhas.trans (hsame ▸ rfl), hcrcs.trans (hsame ▸ rfl),
      fun i => ?_⟩
    rw [crc_columns, crc_of_freeze hs, hdigests]
    exact ⟨rfl, rfl⟩
  · have hbuilt : build added' =
        { counts, sizes, digests := List.replicate sizes.length none } := by
      rw [build, foldl_add, hcounts', hsizes', hmissing]
      rfl
    -- without digests the builder is made of counts and sizes alone
    have hplain : b = { counts, sizes, digests := [] } := by
      rw [← hnone]
      exact foldl_add added {}
    rw [hbuilt, hplain]
    exact freeze_missing counts sizes
  · rw [freezeColumns_run, hfault]
    rfl
  · -- a refusal leaves the columns, so only the additions count
    have hleft : (session {} uses).2 = b.columns := by
      have hsession : (session {} uses).2 = ((additionsOf uses).foldl add {}).columns :=
        session_of_refused (b := {}) hrefused
      rw [hsession, huses]
      rfl
    rw [hleft, freezeColumns_run]
    exact ⟨rfl, rfl⟩

/-- A builder that is refused for a missing size and for a missing digest before it is frozen;
counts whose sum leaves its word are refused, too. -/
theorem freeze_build_third_try :
    let uses : List Use :=
      [.add (.size 10), .add (.folder 2), .add (.crc 7), .freeze, .add (.size 20), .freeze,
        .add .missingCrc]
    let b := build (additionsOf uses)
    let wrapping := build [.folder 0xFFFFFFFFFFFFFFFF, .folder 1]
    (session {} uses).1.length = 2 ∧ (session {} uses).2 = b.columns ∧
      (∃ s, b.freeze = .ok s ∧ s.counts = [2] ∧ s.sizes = [10, 20] ∧ s.crc 0 = some 7 ∧
        s.crc 1 = none) ∧
      ¬∃ s, wrapping.freeze = .ok s := by
  intro uses b wrapping
  have hrefused : ∀ answer ∈ (session {} uses).1, ∃ fault, answer = .error fault := by
    rintro answer (_ | ⟨_, _ | ⟨_, ⟨⟩⟩⟩) <;> exact ⟨_, rfl⟩
  obtain ⟨hfreeze, hfrozen, -, -, hsession⟩ := freeze_build (additionsOf uses)
  obtain ⟨s, hs⟩ := (hfreeze (by decide)).mpr ⟨by decide, .inr rfl⟩
  obtain ⟨hcounts, hsizes, -, -, hcrc⟩ := hfrozen s hs
  refine ⟨rfl, (hsession uses rfl hrefused).1, ⟨s, hs, hcounts, hsizes, (hcrc 0).1, (hcrc 1).1⟩, ?_⟩
  rw [(freeze_build [.folder 0xFFFFFFFFFFFFFFFF, .folder 1]).1 (by decide)]
  decide

end Builder

end SolidArchive.Substreams
