import SolidArchive.Proofs.Folder.Calls

/-!
# How a decode ends

Of the ways in which decoding a folder can end by its type, a folder of a mapped header has few
(`StreamMap.decodeFolder_outcome`). If it succeeds, the result has the length in the map, is not
above the limit, and is all that the last call gave. If it fails, it is for one of six reasons of
its own (`DecodeFault.IsOwn`), or the decoder has failed with a decode error or with something that
is no error, and this is passed on (`FromDecode`). A source that is not part of the library may also
throw something that is no error. That is passed on, too, and no coder has run (`FromRead`); byte
strings and files fail with errors only (`Source.FailsWithErrors`).

What is missing among these is the point. That an input has no source, that the result is too short,
that the folder is no coder graph, and that a table is read outside its bounds: none of it happens,
since map and graph were made from one header.
-/

namespace SolidArchive

variable {σ τ : Type}

/-- The reasons for which a folder of a mapped header does not decode. -/
def DecodeFault.IsOwn : DecodeFault → Prop
  | .aboveLimit _ => True
  | .packStream _ _ => True
  | .packStreamCrc _ => True
  | .severalOutputs _ _ => True
  | .coderFailed _ _ _ => True
  | .outputSize _ _ _ => True
  | _ => False

/-- A decoder that fails only for reasons given as text. -/
def Decoder.FailsPlainly (decoder : Decoder σ) : Prop :=
  ∀ c inputs expected s fault, (decoder c inputs expected s).1 = .error fault →
    ∃ reason, fault = .failure reason

theorem Decoder.builtin_failsPlainly : (Decoder.builtin : Decoder σ).FailsPlainly := by
  intro c inputs expected s fault hfails
  have hrun : (Codec.decode c.methodId c.properties inputs expected).mapError
      (fun fault => DecoderFault.failure fault.message) = .error fault := hfails
  cases hcodec : Codec.decode c.methodId c.properties inputs expected with
  | ok bytes =>
    rw [hcodec] at hrun
    cases hrun
  | error inner =>
    rw [hcodec] at hrun
    cases hrun
    exact ⟨_, rfl⟩

/-- A decoder that fails with errors only. -/
def Decoder.FailsWithErrors (decoder : Decoder σ) : Prop :=
  ∀ c inputs expected s thrown, (decoder c inputs expected s).1 ≠ .error (.foreign thrown)

theorem Decoder.FailsPlainly.failsWithErrors {decoder : Decoder σ} (h : decoder.FailsPlainly) :
    decoder.FailsWithErrors := by
  intro c inputs expected s thrown hforeign
  obtain ⟨reason, hreason⟩ := h c inputs expected s _ hforeign
  cases hreason

theorem Decoder.pure_failsWithErrors
    {decode : Coder → List Bytes → Option Nat → Except DecoderFault Bytes}
    (h : ∀ coder inputs expected thrown,
      decode coder inputs expected ≠ .error (.foreign thrown)) :
    (Decoder.pure decode : Decoder σ).FailsWithErrors :=
  fun coder inputs expected _ => h coder inputs expected

/-! ### Sources that fail with errors only -/

/-- A source that fails with errors only. -/
def Source.FailsWithErrors (source : Source σ) : Prop :=
  ∀ offset length s thrown, (source.read offset length s).1 ≠ .error (.foreign thrown)

theorem Source.pure_failsWithErrors {size : Except SourceFault Nat}
    {read : (offset length : Nat) → Except SourceFault Bytes}
    (h : ∀ offset length thrown, read offset length ≠ .error (.foreign thrown)) :
    (Source.pure size read : Source σ).FailsWithErrors :=
  fun offset length _ => h offset length

theorem Source.FailsWithErrors.onPart {source : Source τ} (h : source.FailsWithErrors)
    (get : σ → τ) (set : τ → σ → σ) : (source.onPart get set).FailsWithErrors :=
  fun offset length s => h offset length (get s)

theorem readRange_ne_foreign (bytes : Bytes) (offset length : Nat) (thrown : Foreign) :
    readRange bytes offset length ≠ .error (.foreign thrown) := by
  unfold readRange
  split
  · simp
  · simp

theorem Source.ofBytes_failsWithErrors (bytes : Bytes) :
    (Source.ofBytes bytes : Source σ).FailsWithErrors :=
  Source.pure_failsWithErrors (readRange_ne_foreign bytes)

theorem Source.ofFile_failsWithErrors (path : String) : (Source.ofFile path).FailsWithErrors := by
  intro offset length tree thrown
  show tree.readFileRange path offset length ≠ _
  unfold FileTree.readFileRange
  split
  · simp
  · split
    · exact readRange_ne_foreign _ offset length thrown
    · simp
    · simp

/-! ### Where a fault comes from -/

/-- A fault of a decode of the `k`-th folder: its own, or one that the last call passed on. -/
def FromDecode (k : Nat) (calls : List CoderCall) (fault : FolderFault) : Prop :=
  (∃ own, fault = .decode { folder := k, fault := own } ∧ own.IsOwn) ∨
    ∃ last, calls.getLast? = some last ∧
      ((∃ error, last.answer = .error (.decode error) ∧ fault = .decode error) ∨
        ∃ thrown, last.answer = .error (.foreign thrown) ∧ fault = .foreign thrown)

/-- A fault that was thrown by the source and passed on before a coder ran. -/
def FromRead (source : Source σ) (calls : List CoderCall) (fault : FolderFault) : Prop :=
  calls = [] ∧ ∃ offset length s thrown,
    (source.read offset length s).1 = .error (.foreign thrown) ∧ fault = .foreign thrown

theorem FromRead.not_failsWithErrors {source : Source σ} {calls : List CoderCall}
    {fault : FolderFault} (h : FromRead source calls fault) : ¬source.FailsWithErrors := by
  obtain ⟨-, offset, length, s, thrown, hread, -⟩ := h
  exact fun herrors => herrors offset length s thrown hread

theorem FolderJob.Accounts.fromDecode {job : FolderJob} {packed : List Bytes}
    {calls : List CoderCall} {fault : FolderFault} (h : Accounts job packed calls fault)
    (hpacked : packed.length = job.graph.packedInputs.length) :
    FromDecode job.index calls fault := by
  cases h with
  | severalOutputs hcoder hseveral => exact .inl ⟨_, rfl, trivial⟩
  | outputSize hlast hanswer hsize hne => exact .inl ⟨_, rfl, trivial⟩
  | missing hfew => exact absurd hpacked hfew.ne
  | @coder call answer hlast hanswer =>
    -- only a plain failure is put in words of the folder's own
    cases answer with
    | decode error => exact .inr ⟨call, hlast, .inl ⟨error, hanswer, rfl⟩⟩
    | failure reason => exact .inl ⟨_, rfl, trivial⟩
    | foreign thrown => exact .inr ⟨call, hlast, .inr ⟨thrown, hanswer, rfl⟩⟩

/-- A decoder that fails plainly leaves no fault to be passed on. -/
theorem FromDecode.own {k : Nat} {calls : List CoderCall} {fault : FolderFault}
    {decoder : Decoder σ} (h : FromDecode k calls fault) (htrue : Truthful decoder calls)
    (hplain : decoder.FailsPlainly) :
    ∃ own, fault = .decode { folder := k, fault := own } ∧ own.IsOwn := by
  rcases h with hown | ⟨last, hlast, hanswer⟩
  · exact hown
  · -- the last answer was given by the decoder, so it is a plain failure and was not passed on
    obtain ⟨s, hs⟩ := htrue last (List.mem_of_getLast? hlast)
    rcases hanswer with ⟨error, hanswer, -⟩ | ⟨thrown, hanswer, -⟩
    · obtain ⟨reason, hreason⟩ := hplain _ _ _ s _ (hs.trans hanswer)
      cases hreason
    · obtain ⟨reason, hreason⟩ := hplain _ _ _ s _ (hs.trans hanswer)
      cases hreason

/-- A decoder that fails with errors leaves nothing else to be passed on. -/
theorem FromDecode.exists_error {k : Nat} {calls : List CoderCall} {fault : FolderFault}
    {decoder : Decoder σ} (h : FromDecode k calls fault) (htrue : Truthful decoder calls)
    (herrors : decoder.FailsWithErrors) : ∃ error, fault = .decode error := by
  rcases h with ⟨own, rfl, -⟩ | ⟨last, hlast, ⟨error, -, rfl⟩ | ⟨thrown, hanswer, -⟩⟩
  · exact ⟨_, rfl⟩
  · exact ⟨error, rfl⟩
  · obtain ⟨s, hs⟩ := htrue last (List.mem_of_getLast? hlast)
    exact absurd (hs.trans hanswer) (herrors _ _ _ s thrown)

namespace StreamMap

variable {a : Archive} {m : StreamMap} {k : Nat} {f : Folder} {g : FolderGraph} {span : FolderSpan}

/-- The pack streams of a mapped folder are in the tables, so only the source can keep them back. -/
theorem MapsFolder.from_of_readFault (h : MapsFolder a m k f g span) {source : Source σ}
    {stream : Nat} {fault : FolderFault} (hfirst : span.firstPackStream ≤ stream)
    (hlast : stream < span.firstPackStream + span.packStreamCount)
    (hfault : FolderJob.ReadFault a m source k stream fault) :
    FromDecode k [] fault ∨ FromRead source [] fault := by
  cases hfault with
  | @unread offset length s fault hread =>
    -- only an error is put in words of the folder's own
    cases fault with
    | failure error => exact .inl (.inl ⟨_, rfl, trivial⟩)
    | foreign thrown => exact .inr ⟨rfl, offset, length, s, thrown, hread, rfl⟩
  | crc => exact .inl (.inl ⟨_, rfl, trivial⟩)
  | outside hmissing =>
    obtain ⟨hlt, hoffset⟩ := h.packStream stream hfirst hlast
    rw [List.getElem?_eq_getElem hlt, hoffset] at hmissing
    rcases hmissing with hnone | hnone
    · cases hnone
    · cases hnone

/-- How a decode of a mapped folder ends. -/
theorem MapsFolder.decodeFolderLogged_ensures (h : MapsFolder a m k f g span) (source : Source σ)
    (decoder : Decoder σ) (config : Config) (s : σ) :
    Ensures (decodeFolderLogged a m source decoder config k) (s, [])
      (fun bytes t => bytes.length = span.unpackLength ∧ span.unpackLength ≤ config.maxFolderBytes ∧
        ∃ last, t.2.getLast? = some last ∧ f.HasOutput last.index g.finalOutput ∧
          last.answer = .ok bytes)
      (fun fault t =>
        (FromDecode k t.2 fault ∨ FromRead source t.2 fault) ∧ Truthful decoder t.2) := by
  have hsource : ∀ offset length (t : σ × List CoderCall), t.2 = [] →
      (source.unlogged.read offset length t).2.2 = [] := fun _ _ _ h => h
  have htruthful : ∀ t : σ × List CoderCall, t.2 = [] → Truthful decoder t.2 := by
    intro t hnone call hcall
    rw [hnone] at hcall
    cases hcall
  unfold decodeFolderLogged
  rw [h.decodeFolderBy_eq]
  by_cases hlimit : config.maxFolderBytes < span.unpackLength
  · rw [if_pos hlimit]
    exact Ensures.throw ⟨.inl (.inl ⟨_, rfl, trivial⟩), htruthful _ rfl⟩
  rw [if_neg hlimit]
  -- nothing is recorded before the pack streams are there
  refine ((FolderJob.readPackStreams_ensures hsource rfl).mono (fun _ _ h => h) ?_).bind ?_
  · rintro fault t ⟨hnone, stream, hfirst, hlast, hfault⟩
    refine ⟨?_, htruthful t hnone⟩
    rw [hnone]
    -- the source beside the record throws what it throws on its own
    refine (h.from_of_readFault hfirst hlast hfault).imp_right ?_
    rintro ⟨-, offset, length, t', thrown, hread, rfl⟩
    exact ⟨rfl, offset, length, t'.1, thrown, hread, rfl⟩
  · rintro packed t ⟨hnone, hcount⟩
    have hinv : FolderJob.Invariant h.job packed (FolderJob.runLogged k decoder) _ _ :=
      FolderJob.books_invariant h.isCoderGraph packed decoder
    have hstart : FolderJob.Books f (List.replicate f.totalOutputs none) t.2 := by
      rw [hnone]
      exact FolderJob.Books.start f _
    refine (h.run_ensures hinv ⟨hstart, htruthful t hnone⟩).mono ?_ ?_
    · rintro bytes t' ⟨hlength, slots, ⟨hbooks, -⟩, hslot⟩
      have houtput := (h.describes.finalOutput _).mpr rfl
      obtain ⟨-, hlast⟩ := hbooks.complete h.isCoderGraph houtput hslot
      exact ⟨hlength, Nat.not_lt.mp hlimit, hlast⟩
    · rintro fault t' ⟨-, htrue, haccounts⟩
      exact ⟨.inl (haccounts.fromDecode (hcount.trans h.count)), htrue⟩

/-- **How a decode ends.** A folder of a mapped header decodes to all that the coder of its final
output gave, which has the length in the map and is not above the limit, or it fails for a reason of
its own, or with what the decoder has failed with: never for an inconsistent header, never because
an input had no source or the result was too short, never outside a table. The one other way to end
is that the source throws something that is no error. That is passed on before a coder runs, and
byte strings and files never do it. A folder above the limit is refused without a look at source or
decoder. -/
theorem decodeFolder_outcome (hm : derive a = .ok m) (hk : a.folders[k]? = some f) :
    ∃ span, m.folders[k]? = some span ∧
      ∀ (σ : Type) (source : Source σ) (decoder : Decoder σ) (config : Config) (s : σ),
        let run := (decodeFolderLogged a m source decoder config k).run (s, [])
        let calls := run.2.2
        (decodeFolder a m source decoder config k).run s = (run.1, run.2.1) ∧
          (∀ bytes, run.1 = .ok bytes →
            bytes.length = span.unpackLength ∧ span.unpackLength ≤ config.maxFolderBytes ∧
              ∃ last output, calls.getLast? = some last ∧ f.UnboundOutput output ∧
                f.HasOutput last.index output ∧ last.answer = .ok bytes) ∧
          (∀ fault, run.1 = .error fault → FromDecode k calls fault ∨ FromRead source calls fault) ∧
          (source.FailsWithErrors → ∀ fault, run.1 = .error fault → FromDecode k calls fault) ∧
          (source.FailsWithErrors → decoder.FailsPlainly → ∀ fault, run.1 = .error fault →
            ∃ own, fault = .decode { folder := k, fault := own } ∧ own.IsOwn) ∧
          (∀ bytes, (Source.ofBytes bytes : Source σ).FailsWithErrors) ∧
          (∀ path (get : σ → FileTree) (set : FileTree → σ → σ),
            ((Source.ofFile path).onPart get set).FailsWithErrors) ∧
          (Decoder.builtin : Decoder σ).FailsPlainly ∧
          (config.maxFolderBytes < span.unpackLength →
            decodeFolder a m source decoder config k =
              FolderJob.fail k (.aboveLimit span.unpackLength)) := by
  obtain ⟨g, span, h⟩ := derive_mapsFolder hm hk
  refine ⟨span, h.span_eq, fun σ source decoder config s => ?_⟩
  intro run calls
  -- all that is said of the run is said once, of the run with its log
  have hensures := h.decodeFolderLogged_ensures source decoder config s
  have herror : source.FailsWithErrors → ∀ fault, run.1 = .error fault →
      FromDecode k calls fault := fun hsource fault hfault =>
    (hensures.error hfault).1.resolve_right fun hread => hread.not_failsWithErrors hsource
  refine ⟨(decodeFolderLogged_lowers a m source decoder config k (s, [])).symm, ?_, ?_, herror, ?_,
    Source.ofBytes_failsWithErrors, fun path => (Source.ofFile_failsWithErrors path).onPart,
    Decoder.builtin_failsPlainly, ?_⟩
  · intro bytes hok
    obtain ⟨hlength, hlimit, last, hlast, hout, hanswer⟩ := hensures.ok hok
    exact ⟨hlength, hlimit, last, _, hlast, (h.describes.finalOutput _).mpr rfl, hout, hanswer⟩
  · exact fun fault hfault => (hensures.error hfault).1
  · intro hsource hplain fault hfault
    exact (herror hsource fault hfault).own (hensures.error hfault).2 hplain
  · intro hlimit
    unfold decodeFolder
    rw [h.decodeFolderBy_eq, if_pos hlimit]

/-- A stored folder that decodes, and one whose decoder gives something that is no error. -/
theorem decodeFolder_outcome_stored :
    let f : Folder := { coders := [{ methodId := [0] }], unpackSizes := [3] }
    let a : Archive :=
      { packPosition := 1, packSizes := [3], folders := [f], entries := [{ name := "a" }] }
    ∃ m span, derive a = .ok m ∧ a.folders[0]? = some f ∧ m.folders[0]? = some span ∧
      let stored := (decodeFolderLogged a m (.ofBytes [0, 20, 21, 22]) .builtin {} 0).run ((), [])
      let broken := (decodeFolderLogged a m (.ofBytes [0, 20, 21, 22])
        (.pure fun _ _ _ => .error (.foreign ⟨42⟩)) {} 0).run ((), [])
      stored.1 = .ok [20, 21, 22] ∧ [20, 21, 22].length = span.unpackLength ∧
        broken.1 = .error (.foreign ⟨42⟩) ∧ FromDecode 0 broken.2.2 (.foreign ⟨42⟩) := by
  intro f a
  obtain ⟨span, hspan, h⟩ := decodeFolder_outcome (a := a) (k := 0) (f := f) rfl rfl
  refine ⟨_, span, rfl, rfl, hspan, rfl, ?_, rfl, ?_⟩
  · exact ((h Unit (.ofBytes [0, 20, 21, 22]) .builtin {} ()).2.1 [20, 21, 22] rfl).1
  · exact (h Unit (.ofBytes [0, 20, 21, 22]) (.pure fun _ _ _ => .error (.foreign ⟨42⟩)) {}
      ()).2.2.2.1 (Source.ofBytes_failsWithErrors _) _ rfl

end StreamMap

end SolidArchive
