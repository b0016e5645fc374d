import SolidArchive.Proofs.Folder.Isolation
import SolidArchive.Proofs.Folder.Trace

/-!
# Checking the pack streams

The pack streams of a folder are read one after another, and each may be checked before the next one
is read. The reading gets through the streams that are intact (`ReadsIntact`) up to the first that
cannot be read or does not have its checksum (`Refuses`). If there is none, the check has changed
nothing, and otherwise no coder runs (`StreamMap.decodeFolder_verifyPackCrcs`).

A stream that is refused need not end in an error. A source may throw something that is none, and
this is passed on like any other fault that has no wording. Nor has the check no effect on a decoder
that goes back to the reader it works for, since that one checks, too
(`StreamMap.decodeFolder_verifyPackCrcs_thrown`).

The two sides of a check differ in nothing before they part. So it is enough to follow the reading
with the check, once for the intact streams (`readPackStreams_intact`) and once for the one that is
refused (`readPackStream_refused`).
-/

namespace SolidArchive

variable {σ : Type} {a : Archive} {m : StreamMap} {source : Source σ} {verify : Bool}
  {folder count stream : ℕ} {bytes : Bytes} {packed : List Bytes} {s t : σ}

/-! ### Pack streams that are intact -/

namespace Archive

/-- Reads a pack stream of an archive from a source. -/
def readPack (a : Archive) (source : Source σ) (stream : ℕ) : StateM σ (Except SourceFault Bytes) :=
  source.read (a.packPosition.toNat + runStart (numbers a.packSizes) stream)
    ((numbers a.packSizes).getD stream 0)

/-- A pack stream has its checksum, if it has one in the header. -/
def Intact (a : Archive) (stream : ℕ) (bytes : Bytes) : Prop :=
  ∀ crc, a.packCrc stream = some crc → Crc32.digest bytes = crc

/-- What reading a pack stream gave is refused, and decoding the `k`-th folder ends in a fault. -/
inductive Refuses (a : Archive) (k stream : ℕ) : Except SourceFault Bytes → FolderFault → Prop where
  /-- The source failed with an error. -/
  | unread (error : SourceError) : Refuses a k stream (.error (.failure error))
      (.decode { folder := k, fault := .packStream stream error })
  /-- The source threw something that is no error, and this is what is passed on. -/
  | thrown (thrown : Foreign) : Refuses a k stream (.error (.foreign thrown)) (.foreign thrown)
  /-- The pack stream does not have the checksum in the header. -/
  | crc {bytes : Bytes} (h : ¬a.Intact stream bytes) : Refuses a k stream (.ok bytes)
      (.decode { folder := k, fault := .packStreamCrc stream })

/-- A source that fails is refused, however it fails. -/
theorem refuses_sourceFault (k stream : ℕ) (fault : SourceFault) :
    a.Refuses k stream (.error fault) (FolderJob.sourceFault k stream fault) := by
  cases fault with
  | failure error => exact .unread error
  | foreign thrown => exact .thrown thrown

/-- The pack streams from `stream` on are read one after another, and all of them are intact. -/
inductive ReadsIntact (a : Archive) (source : Source σ) : ℕ → σ → List Bytes → σ → Prop where
  | nil (stream : ℕ) (s : σ) : ReadsIntact a source stream s [] s
  | cons {stream : ℕ} {bytes : Bytes} {packed : List Bytes} {s s' t : σ}
    (hread : (a.readPack source stream).run s = (.ok bytes, s')) (hintact : a.Intact stream bytes)
    (hrest : ReadsIntact a source (stream + 1) s' packed t) :
    ReadsIntact a source stream s (bytes :: packed) t

/-- The reading gets through some streams that are intact, and either these are all or the next one
is refused. -/
theorem exists_readsIntact (a : Archive) (source : Source σ) (k count stream : ℕ) (s : σ) :
    ∃ packed t, a.ReadsIntact source stream s packed t ∧
      (packed.length = count ∨ packed.length < count ∧ ∃ answer t' fault,
        (a.readPack source (stream + packed.length)).run t = (answer, t') ∧
          a.Refuses k (stream + packed.length) answer fault) := by
  -- stream by stream, until one cannot be read or is not intact
  induction count generalizing stream s with
  | zero => exact ⟨[], s, .nil stream s, .inl rfl⟩
  | succ count ih =>
    rcases hread : (a.readPack source stream).run s with ⟨fault | bytes, s'⟩
    · exact ⟨[], s, .nil stream s, .inr ⟨Nat.succ_pos count, _, s', _, hread,
        refuses_sourceFault k stream fault⟩⟩
    · by_cases hintact : a.Intact stream bytes
      · obtain ⟨packed, t, hreads, hnext⟩ := ih (stream + 1) s'
        refine ⟨bytes :: packed, t, .cons hread hintact hreads, ?_⟩
        rw [List.length_cons, ← Nat.add_comm 1 packed.length, ← Nat.add_assoc]
        apply hnext.imp
        · intro hall
          rw [hall, Nat.add_comm]
        · rintro ⟨hlt, hrefused⟩
          exact ⟨by omega, hrefused⟩
      · exact ⟨[], s, .nil stream s, .inr ⟨Nat.succ_pos count, _, s', _, hread, .crc hintact⟩⟩

end Archive

/-! ### Reading with the check -/

namespace FolderJob

/-- The map has a pack stream where the archive has it. -/
def Mapped (a : Archive) (m : StreamMap) (stream : ℕ) : Prop :=
  stream < a.packSizes.length ∧
    m.packOffsets[stream]? = some (a.packPosition.toNat + runStart (numbers a.packSizes) stream)

/-- Reading a pack stream and checking it. -/
theorem readPackStream_run (h : Mapped a m stream) (s : σ) :
    (readPackStream a m source verify folder stream).run s =
      match (a.readPack source stream).run s with
      | (.error fault, s') => (.error (sourceFault folder stream fault), s')
      | (.ok bytes, s') =>
        (match a.packCrc stream with
          | some crc =>
            if verify ∧ Crc32.digest bytes ≠ crc then fail folder (.packStreamCrc stream)
            else pure bytes
          | none => pure bytes : FolderM σ Bytes).run s' := by
  obtain ⟨hlt, hoffset⟩ := h
  have hsize := List.getElem?_eq_getElem hlt
  have hlength : (numbers a.packSizes).getD stream 0 = a.packSizes[stream].toNat := by
    rw [List.getD_eq_getElem?_getD, getElem?_numbers_of hsize]
    rfl
  unfold readPackStream Archive.readPack
  rw [lift_lookup hsize, lift_lookup hoffset, hlength, pure_bind, pure_bind, runExcept_bind,
    runExcept_liftM]
  dsimp only [StateT.run]
  rcases source.read _ _ s with ⟨(error | thrown) | bytes, s'⟩ <;> rfl

/-- A stream that is intact is read. -/
theorem readPackStream_intact (h : Mapped a m stream)
    (hread : (a.readPack source stream).run s = (.ok bytes, t)) (hintact : a.Intact stream bytes) :
    (readPackStream a m source verify folder stream).run s = (.ok bytes, t) := by
  rw [readPackStream_run h, hread]
  dsimp only
  cases hcrc : a.packCrc stream with
  | none => rfl
  | some crc =>
    dsimp only
    rw [if_neg (not_and.mpr fun _ => not_not.mpr (hintact crc hcrc))]
    rfl

/-- A stream that is refused is the end of the reading. -/
theorem readPackStream_refused (h : Mapped a m stream) {answer : Except SourceFault Bytes}
    {fault : FolderFault} (hread : (a.readPack source stream).run s = (answer, t))
    (hrefused : a.Refuses folder stream answer fault) :
    (readPackStream a m source true folder stream).run s = (.error fault, t) := by
  rw [readPackStream_run h, hread]
  cases hrefused with
  | unread error => rfl
  | thrown thrown => rfl
  | crc hcrc =>
    -- it has a checksum in the header, and another one
    obtain ⟨crc, hcrc, hne⟩ : ∃ crc, a.packCrc stream = some crc ∧ Crc32.digest _ ≠ crc := by
      simpa [Archive.Intact] using hcrc
    rw [hcrc]
    dsimp only
    rw [if_pos ⟨rfl, hne⟩]
    rfl

/-- Streams that are intact are read, and then the ones behind them. -/
theorem readPackStreams_intact (hreads : a.ReadsIntact source stream s packed t)
    (hmapped : ∀ i, stream ≤ i → i < stream + packed.length → Mapped a m i) (rest : ℕ) :
    (readPackStreams a m source verify folder (packed.length + rest) stream).run s =
      ((packed ++ ·) <$>
        readPackStreams a m source verify folder rest (stream + packed.length)).run t := by
  -- an intact stream is put in front of what the others come to
  induction hreads with
  | nil stream s =>
    rw [List.length_nil, Nat.zero_add, Nat.add_zero]
    exact congrArg (StateT.run · s) (id_map _).symm
  | @cons stream bytes packed s s' t hread hintact hreads ih =>
    rw [List.length_cons] at hmapped
    have hrest := ih fun i hfirst hlast => hmapped i (by omega) (by omega)
    rw [List.length_cons, Nat.add_right_comm, readPackStreams, runExcept_bind,
      readPackStream_intact (hmapped stream le_rfl (by omega)) hread hintact]
    dsimp only
    rw [runExcept_bind, hrest, ← Nat.add_comm 1 packed.length, ← Nat.add_assoc,
      map_eq_pure_bind, map_eq_pure_bind, runExcept_bind, runExcept_bind]
    rcases (readPackStreams a m source verify folder rest (stream + 1 + packed.length)).run t with
      ⟨fault | more, t'⟩ <;> rfl

/-- All streams are read if they are intact, with the check and without it. -/
theorem readPackStreams_all (hreads : a.ReadsIntact source stream s packed t)
    (hmapped : ∀ i, stream ≤ i → i < stream + packed.length → Mapped a m i) (verify : Bool) :
    (readPackStreams a m source verify folder packed.length stream).run s = (.ok packed, t) := by
  refine (readPackStreams_intact hreads hmapped 0).trans ?_
  show (Except.ok (packed ++ []), t) = _
  rw [List.append_nil]

/-- Streams of which one is refused behind some that are intact. -/
theorem readPackStreams_refused (hreads : a.ReadsIntact source stream s packed t)
    (hlt : packed.length < count)
    (hmapped : ∀ i, stream ≤ i → i < stream + count → Mapped a m i)
    {answer : Except SourceFault Bytes} {fault : FolderFault} {t' : σ}
    (hread : (a.readPack source (stream + packed.length)).run t = (answer, t'))
    (hrefused : a.Refuses folder (stream + packed.length) answer fault) :
    (readPackStreams a m source true folder count stream).run s = (.error fault, t') := by
  obtain ⟨rest, rfl⟩ := Nat.exists_eq_add_of_lt hlt
  have hnext : (readPackStream a m source true folder (stream + packed.length)).run t =
      (.error fault, t') :=
    readPackStream_refused (hmapped _ (by omega) (by omega)) hread hrefused
  have hbefore : ∀ i, stream ≤ i → i < stream + packed.length → Mapped a m i :=
    fun i hfirst hlast => hmapped i hfirst (by omega)
  -- the intact streams are read first, and the next one ends it
  rw [Nat.add_assoc, readPackStreams_intact hreads hbefore, map_eq_pure_bind, runExcept_bind,
    readPackStreams, runExcept_bind, hnext]

/-- A reading has no part in the record of the calls. -/
theorem readPackStreams_unlogged (calls : List CoderCall) (s : σ) :
    (readPackStreams a m source.unlogged verify folder count stream).run (s, calls) =
      (((readPackStreams a m source verify folder count stream).run s).1,
        ((readPackStreams a m source verify folder count stream).run s).2, calls) := by
  -- below the log it is the same reading
  have hlower : Lowers Prod.fst
      (readPackStreams a m source.unlogged verify folder count stream)
      (readPackStreams a m source verify folder count stream) := by
    apply readPackStreams_lowers
    exact fun _ _ _ => rfl
  -- and the log is not touched
  have hrecord : Ensures (readPackStreams a m source.unlogged verify folder count stream) (s, calls)
      (fun _ t => t.2 = calls ∧ _) (fun _ t => t.2 = calls ∧ _) :=
    readPackStreams_ensures (fun _ _ _ h => h) rfl
  have hread := hlower (s, calls)
  unfold Ensures at hrecord
  rcases hrun : (readPackStreams a m source.unlogged verify folder count stream).run (s, calls) with
    ⟨fault | packed, t⟩
  all_goals
    rw [hrun] at hread hrecord
    rw [← hread, ← hrecord.1]

/-- Without the check, nothing of the checksums is looked at. -/
theorem readPackStream_unchecked (defined : List Bool) (crcs : List UInt32) :
    readPackStream { a with packCrcsDefined := defined, packCrcs := crcs } m source false folder
      stream = readPackStream a m source false folder stream := by
  unfold readPackStream
  refine bind_congr fun size => bind_congr fun offset => bind_congr fun answer => ?_
  match answer with
  | .error (.failure error) => rfl
  | .error (.foreign thrown) => rfl
  | .ok bytes =>
    -- what is recorded for the stream is looked up and not used
    cases a.packCrc stream <;>
      cases { a with packCrcsDefined := defined, packCrcs := crcs : Archive }.packCrc stream <;>
        simp

end FolderJob

/-! ### Decoding with the check -/

namespace StreamMap

variable {k : ℕ} {f : Folder} {g : FolderGraph} {span : FolderSpan}

/-- The checksums of the pack streams have no part in the map. -/
theorem derive_packCrcs {defined : List Bool} {crcs : List UInt32} {m' : StreamMap}
    (hm : derive a = .ok m)
    (hm' : derive { a with packCrcsDefined := defined, packCrcs := crcs } = .ok m') : m' = m := by
  obtain ⟨-, -, hrest⟩ := exists_of_bind_eq_ok hm
  obtain ⟨-, -, hrest'⟩ := exists_of_bind_eq_ok hm'
  exact Except.ok.inj (hrest'.symm.trans hrest)

/-- Without the check, a folder is decoded alike whatever the checksums are. -/
theorem decodeFolderBy_unchecked (defined : List Bool) (crcs : List UInt32)
    (runCoder : FolderJob.CoderRun σ) (config : Config) :
    decodeFolderBy { a with packCrcsDefined := defined, packCrcs := crcs } m source runCoder
        { config with verifyPackCrcs := false } k =
      decodeFolderBy a m source runCoder { config with verifyPackCrcs := false } k := by
  have hstreams : ∀ count stream, FolderJob.readPackStreams
      { a with packCrcsDefined := defined, packCrcs := crcs } m source false k count stream =
        FolderJob.readPackStreams a m source false k count stream := fun count stream =>
    FolderJob.readPackStreams_congr fun _ _ _ => FolderJob.readPackStream_unchecked defined crcs
  unfold decodeFolderBy
  simp only [hstreams]

/-- A decode with a record, from the pack streams on. -/
theorem MapsFolder.decodeFolderLogged_run (h : MapsFolder a m k f g span) (config : Config)
    (hlimit : span.unpackLength ≤ config.maxFolderBytes) (decoder : Decoder σ) (s : σ) :
    (decodeFolderLogged a m source decoder config k).run (s, []) =
      match (FolderJob.readPackStreams a m source config.verifyPackCrcs k span.packStreamCount
        span.firstPackStream).run s with
      | (.ok packed, t) => (h.job.run (FolderJob.runLogged k decoder) packed).run (t, [])
      | (.error fault, t) => (.error fault, t, []) := by
  unfold decodeFolderLogged
  rw [h.decodeFolderBy_eq, if_neg (Nat.not_lt.mpr hlimit), runExcept_bind,
    FolderJob.readPackStreams_unlogged]
  rcases (FolderJob.readPackStreams a m source config.verifyPackCrcs k span.packStreamCount
    span.firstPackStream).run s with ⟨fault | packed, t⟩ <;> rfl

/-- **Checking the pack streams.** For a folder of a mapped header that is not above the limit, the
check gates the coders and does nothing else. The pack streams of the folder are read in their
order, up to the first that is refused, since it cannot be read or does not have its checksum. If
there is none, the decode with the check is the one without it: the calls of the decoder are the
same, what they leave, and the outcome. If one is refused, that is how the decode with the check
ends, and no coder is run. It ends in a decode error then, or, where the source has thrown something
that is no error, in just that. Without the check the checksums are not looked at, be they what they
will. -/
theorem decodeFolder_verifyPackCrcs (hm : derive a = .ok m) (hk : a.folders[k]? = some f) :
    ∃ span, m.folders[k]? = some span ∧
      (∀ (σ : Type) (source : Source σ) (decoder : Decoder σ) (config : Config) (s : σ),
        span.unpackLength ≤ config.maxFolderBytes →
        let checked := { config with verifyPackCrcs := true }
        let unchecked := { config with verifyPackCrcs := false }
        let run := fun config => (decodeFolderLogged a m source decoder config k).run (s, [])
        (∀ config, (decodeFolder a m source decoder config k).run s =
          ((run config).1, (run config).2.1)) ∧
        ∃ packed t, a.ReadsIntact source span.firstPackStream s packed t ∧
          (packed.length = span.packStreamCount ∧ run checked = run unchecked ∨
            packed.length < span.packStreamCount ∧
              let stream := span.firstPackStream + packed.length
              ∃ answer t' fault, (a.readPack source stream).run t = (answer, t') ∧
                a.Refuses k stream answer fault ∧ run checked = (.error fault, t', []))) ∧
      ∀ defined crcs m', derive { a with packCrcsDefined := defined, packCrcs := crcs } = .ok m' →
        m' = m ∧ ∀ (σ : Type) (source : Source σ) (decoder : Decoder σ) (config : Config),
          let a' : Archive := { a with packCrcsDefined := defined, packCrcs := crcs }
          let unchecked := { config with verifyPackCrcs := false }
          decodeFolder a' m' source decoder unchecked k =
              decodeFolder a m source decoder unchecked k ∧
            decodeFolderLogged a' m' source decoder unchecked k =
              decodeFolderLogged a m source decoder unchecked k := by
  obtain ⟨g, span, h⟩ := derive_mapsFolder hm hk
  refine ⟨span, h.span_eq, ?_, ?_⟩
  · intro σ source decoder config s hlimit checked unchecked run
    refine ⟨fun config => (decodeFolderLogged_lowers a m source decoder config k (s, [])).symm, ?_⟩
    obtain ⟨packed, t, hreads, hall | ⟨hlt, answer, t', fault, hread, hrefused⟩⟩ :=
      a.exists_readsIntact source k span.packStreamCount span.firstPackStream s
    · -- all streams are intact, so it does not matter whether one looks
      refine ⟨packed, t, hreads, .inl ⟨hall, ?_⟩⟩
      have hpacked : ∀ verify, (FolderJob.readPackStreams a m source verify k packed.length
          span.firstPackStream).run s = (.ok packed, t) :=
        FolderJob.readPackStreams_all hreads (hall ▸ h.packStream)
      rw [hall] at hpacked
      show (decodeFolderLogged a m source decoder checked k).run (s, []) =
        (decodeFolderLogged a m source decoder unchecked k).run (s, [])
      rw [h.decodeFolderLogged_run checked hlimit, h.decodeFolderLogged_run unchecked hlimit,
        hpacked, hpacked]
    · -- the first stream that is not intact ends the decode
      refine ⟨packed, t, hreads, .inr ⟨hlt, answer, t', fault, hread, hrefused, ?_⟩⟩
      show (decodeFolderLogged a m source decoder checked k).run (s, []) = _
      rw [h.decodeFolderLogged_run checked hlimit,
        FolderJob.readPackStreams_refused hreads hlt h.packStream hread hrefused]
  · intro defined crcs m' hm'
    -- the map does not read the checksums
    obtain rfl := derive_packCrcs hm hm'
    refine ⟨rfl, fun σ source decoder config => ⟨?_, ?_⟩⟩
    · exact decodeFolderBy_unchecked defined crcs _ config
    · exact decodeFolderBy_unchecked defined crcs _ config

/-- The second of two pack streams does not have its checksum. Without the check nobody notices, and
with it the coder is not run; had the header no checksums, it would be decoded as without the
check. -/
theorem decodeFolder_verifyPackCrcs_second_stream :
    let f : Folder := { coders := [{ methodId := [3], inputs := 2 }], packedStreams := [0, 1],
                        unpackSizes := [3] }
    let plain : Archive :=
      { packPosition := 1, packSizes := [2, 1], folders := [f], entries := [{ name := "a" }] }
    let a := { plain with packCrcsDefined := [false, true], packCrcs := [0, 5] }
    let source : Source Unit := .ofBytes [0, 20, 21, 22]
    let decoder : Decoder Unit := .pure fun _ inputs _ => .ok inputs.flatten
    ∃ m, derive a = .ok m ∧ derive plain = .ok m ∧
      let run := fun verify =>
        (decodeFolderLogged a m source decoder { verifyPackCrcs := verify } 0).run ((), [])
      (run false).1 = .ok [20, 21, 22] ∧
        run true = (.error (.decode { folder := 0, fault := .packStreamCrc 1 }), (), []) ∧
        decodeFolder plain m source decoder { verifyPackCrcs := false } 0 =
          decodeFolder a m source decoder { verifyPackCrcs := false } 0 := by
  intro f plain a source decoder
  obtain ⟨m, hm⟩ : ∃ m, derive a = .ok m := ⟨_, rfl⟩
  have hplain : derive plain = .ok m := hm
  refine ⟨m, hm, hplain, ?_⟩
  obtain ⟨span, hspan, hchecked, hunchecked⟩ := decodeFolder_verifyPackCrcs (k := 0) (f := f) hm rfl
  cases hm
  cases hspan
  obtain ⟨-, packed, t, -, hcase⟩ := hchecked Unit source decoder {} () (by decide)
  intro run
  have hfalse : (run false).1 = .ok [20, 21, 22] := rfl
  have htrue : (run true).1 = .error (.decode { folder := 0, fault := .packStreamCrc 1 }) := by
    decide +kernel
  refine ⟨hfalse, ?_, ((hunchecked [] [] _ hplain).2 Unit source decoder {}).1⟩
  rcases hcase with ⟨-, hsame⟩ | ⟨-, answer, t', fault, -, -, hrefused⟩
  · -- the outcomes are not the same
    have hcontra := (congrArg Prod.fst hsame).symm.trans htrue
    cases hfalse.symm.trans hcontra
  · have hrun : run true = (.error fault, t', []) := hrefused
    rw [hrun] at htrue ⊢
    exact congrArg (·, t', []) htrue

/-- What is thrown and is no error, and a decoder that depends on the check itself.

The pack stream of the first folder has no checksum. If its source throws something that is no
error, it is not read, and yet the decode ends in no decode error.

If the source is a byte string, the pack stream is intact. But the first coder that is run goes back
to the reader and has the second folder decoded, whose pack stream does not have its checksum. The
second method fails the first time it is run. Without the check that is in the second folder, so the
first one decodes; with the check it is in the first one. -/
theorem decodeFolder_verifyPackCrcs_thrown :
    let first : Folder :=
      { coders := [{ methodId := [0xF8] }, { methodId := [0xF0] }]
        bindPairs := [{ input := 0, output := 1 }], packedStreams := [1], unpackSizes := [2, 2] }
    let second : Folder := { coders := [{ methodId := [0xF8] }], unpackSizes := [1] }
    let a : Archive :=
      { packSizes := [2, 1], packCrcsDefined := [false, true], packCrcs := [0, 5]
        folders := [first, second], entries := [{ name := "a" }, { name := "b" }] }
    let once : Decoder ℕ := fun c inputs _ failures =>
      if c.methodId = [0xF8] ∧ failures < 1 then (.error (.foreign ⟨42⟩), failures + 1)
      else (.ok inputs.flatten, failures)
    let broken : Source ℕ := .pure (.ok 3) fun _ _ => .error (.foreign ⟨42⟩)
    let sound : Source ℕ := .ofBytes [20, 21, 22]
    ∃ m, derive a = .ok m ∧
      (∀ packed t, a.ReadsIntact broken 0 0 packed t → packed.length ≠ 1) ∧
      (∀ decoder error, ((decodeFolder a m broken decoder { verifyPackCrcs := true } 0).run 0).1 ≠
        .error (.decode error)) ∧
      let asking : Bool → Decoder ℕ := fun verify c inputs expected failures =>
        if c.methodId = [0xF0] then
          (.ok inputs.flatten,
            ((decodeFolder a m sound once { verifyPackCrcs := verify } 1).run failures).2)
        else once c inputs expected failures
      let run := fun verify =>
        ((decodeFolder a m sound (asking verify) { verifyPackCrcs := verify } 0).run 0).1
      a.ReadsIntact sound 0 0 [[20, 21]] 0 ∧ run false = .ok [20, 21] ∧
        run true = .error (.foreign ⟨42⟩) := by
  intro first second a once broken sound
  refine ⟨_, rfl, ?_, ?_, ?_⟩
  · -- the one read gives no bytes
    rintro packed t (_ | ⟨hread, -, -⟩) hlength
    · cases hlength
    · cases hread
  · intro decoder error hdecode
    cases hdecode
  · intro asking run
    have hintact : a.Intact 0 [20, 21] := by
      intro crc hcrc
      cases hcrc
    exact ⟨.cons rfl hintact (.nil 1 0), rfl, by decide +kernel⟩

end StreamMap

end SolidArchive
