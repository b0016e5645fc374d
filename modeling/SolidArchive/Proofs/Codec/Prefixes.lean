import SolidArchive.Proofs.Codec.Buffered

/-!
# A declared size selects a prefix

For the methods that are left to libraries, the size that is declared for the output says how much
of it is wanted and nothing else (`decode_selectsPrefix`). This holds of the loops around any
libraries for which windows do not matter (`Libraries.CutFree`), and of the methods as they are
decoded here.

The two are the same: with libraries made of the stream decoders (`Libraries.buffered`), for which
windows do not matter, the loops end with what is decoded (`Libraries.buffered_decodes_iff`).
-/

namespace SolidArchive.Codec

open Library

variable {ε φ : Type}

/-! ### Results under another heading -/

theorem mapError_eq_ok_iff {r : Except ε Bytes} {heading : ε → φ} {o : Bytes} :
    r.mapError heading = .ok o ↔ r = .ok o := by
  cases r with
  | error fault => exact ⟨nofun, nofun⟩
  | ok bytes => simp [Except.mapError]

namespace SelectsPrefix

theorem mapError {decodes : Option ℕ → Except ε Bytes → Prop} (h : SelectsPrefix decodes)
    (heading : ε → φ) :
    SelectsPrefix fun expected result => ∃ r, decodes expected r ∧ r.mapError heading = result where
  take := by
    -- only the text of a fault is changed, so an output is one of before
    rintro o ⟨r, hr, ho⟩ n
    rw [mapError_eq_ok_iff.mp ho] at hr
    exact ⟨_, h.take hr n, rfl⟩
  length_le := by
    rintro n o ⟨r, hr, ho⟩
    rw [mapError_eq_ok_iff.mp ho] at hr
    exact h.length_le hr
  agree := by
    rintro n n' o o' ⟨r, hr, ho⟩ ⟨r', hr', ho'⟩
    rw [mapError_eq_ok_iff.mp ho] at hr
    rw [mapError_eq_ok_iff.mp ho'] at hr'
    exact h.agree hr hr'

/-- What is always refused. -/
theorem refused {decodes : Option ℕ → Except φ Bytes → Prop} {fault : φ}
    (h : ∀ expected result, decodes expected result ↔ .error fault = result) :
    SelectsPrefix decodes where
  take hok := nomatch (h _ _).mp hok
  length_le hok := nomatch (h _ _).mp hok
  agree hok := nomatch (h _ _).mp hok

theorem congr {decodes decodes' : Option ℕ → Except φ Bytes → Prop} (h : SelectsPrefix decodes)
    (hsame : ∀ expected result, decodes expected result ↔ decodes' expected result) :
    SelectsPrefix decodes' := by
  have heq : decodes = decodes' := funext fun expected => funext fun result =>
    propext (hsame expected result)
  exact heq ▸ h

end SelectsPrefix

/-! ### The libraries -/

/-- What the libraries of streams are documented to do: the windows into which a caller cuts input
and output do not matter for any of them. -/
structure Libraries.CutFree (L : Libraries) : Prop where
  lzma {chunked : Bool} {properties : Bytes} {lib : Library Unit}
    (h : L.lzma chunked properties = some lib) : lib.CutFree (.whole lib)
  deflate : L.deflate.CutFree (.inPieces L.deflate)
  bzip2 : L.bzip2.CutFree (.inPieces L.bzip2)
  /-- By its manual, libbzip2 returns `BZ_OK` from every call that meets with neither the end of the
  stream nor an error, so also when it has no input left, and goes on doing so. Only the guard of
  the loop against calls without progress needs this: it gives up after one such call, as no later
  one would have got further. -/
  bzip2_stalls : L.bzip2.Stalls

/-- The stream decoders as libraries. -/
def Libraries.buffered : Libraries where
  lzma
    | false, properties => (Lzma.properties? properties).map fun (parameters, capacity) =>
      Lzma.decoder.buffered true fun input =>
        { decoder := .whole input (Lzma.untrained parameters), window := { capacity }, parameters }
    | true, properties => (Lzma.chunkedProperties? properties).map fun capacity =>
      Lzma.Chunked.decoder.buffered true fun input =>
        { memory := { decoder := .whole input #[], window := { capacity } } }
  deflate := Deflate.decoder.buffered true fun input => { input := { rest := input } }
  bzip2 := Bzip2.decoder.buffered false fun input => .start { rest := input }

theorem Libraries.buffered_cutFree : Libraries.buffered.CutFree where
  lzma {chunked properties lib} h := by
    cases chunked with
    | false =>
      obtain ⟨⟨parameters, capacity⟩, -, rfl⟩ := Option.map_eq_some_iff.mp h
      exact StreamDecoder.buffered_cutFree ..
    | true =>
      obtain ⟨capacity, -, rfl⟩ := Option.map_eq_some_iff.mp h
      exact StreamDecoder.buffered_cutFree ..
  deflate := StreamDecoder.buffered_cutFree ..
  bzip2 := StreamDecoder.buffered_cutFree ..
  bzip2_stalls := StreamDecoder.buffered_stalls _ _ _

theorem ends_buffered_mapError_iff {σ : Type} {d : StreamDecoder σ ε} {reports guarded : Bool}
    {start : Bytes → σ} {s : (d.buffered reports start).Stream} {input : Bytes}
    (hguard : reports ∨ guarded) (hfed : s.fed = ⟨none, input, []⟩) (heading : Halt ε → φ)
    (expected : Option ℕ) (result : Except φ Bytes) :
    (∃ r, Ends guarded expected s [] r ∧ r.mapError heading = result) ↔
      (d.decode (start input) expected).mapError heading = result := by
  simp only [StreamDecoder.ends_buffered_iff hguard hfed, exists_eq_left']

/-- **The loops around the stream decoders** end with what is decoded. Two of the methods are shown
longer inputs in pieces, of which these libraries would see the first one only. -/
theorem Libraries.buffered_decodes_iff (id properties : Bytes) {inputs : List Bytes}
    (hinputs : ∀ input ∈ inputs, input.length ≤ maxInput) (expected : Option ℕ)
    (result : Except Fault Bytes) :
    Libraries.buffered.Decodes id properties inputs expected result ↔
      decode id properties inputs expected = result := by
  unfold Libraries.Decodes decode
  cases method id with
  | error fault => exact Iff.rfl
  | ok m =>
    match inputs with
    | [] => exact Iff.rfl
    | _ :: _ :: _ => exact Iff.rfl
    | [input] =>
      have hinput := hinputs input (List.mem_singleton_self input)
      cases m with
      | copy => exact Iff.rfl
      | delta => exact Iff.rfl
      | lzma =>
        dsimp only [Libraries.DecodesInput, Libraries.DecodesLzma, Libraries.buffered, decodeInput]
        cases Lzma.properties? properties with
        | none => exact Iff.rfl
        | some p => exact ends_buffered_mapError_iff (.inl rfl) (StreamDecoder.fed_whole _ _) _ _ _
      | lzma2 =>
        dsimp only [Libraries.DecodesInput, Libraries.DecodesLzma, Libraries.buffered, decodeInput]
        cases Lzma.chunkedProperties? properties with
        | none => exact Iff.rfl
        | some capacity =>
          exact ends_buffered_mapError_iff (.inl rfl) (StreamDecoder.fed_whole _ _) _ _ _
      | deflate =>
        exact ends_buffered_mapError_iff (.inl rfl) (StreamDecoder.fed_inPieces _ hinput) _ _ _
      | bzip2 =>
        exact ends_buffered_mapError_iff (.inr rfl) (StreamDecoder.fed_inPieces _ hinput) _ _ _

/-! ### Declared sizes -/

/-- The method is left to a library. -/
def Method.ThroughLibrary : Method → Prop
  | .copy | .delta => False
  | .lzma | .lzma2 | .deflate | .bzip2 => True

theorem Libraries.CutFree.selectsPrefix {L : Libraries} (h : L.CutFree) {m : Method}
    (hm : m.ThroughLibrary) (properties input : Bytes) :
    SelectsPrefix (L.DecodesInput m properties input) := by
  -- without a decoder every length is refused alike
  have hlzma : ∀ chunked, SelectsPrefix (L.DecodesLzma chunked properties input) := by
    intro chunked
    unfold DecodesLzma
    cases hlib : L.lzma chunked properties with
    | none => exact SelectsPrefix.refused fun _ _ => Iff.rfl
    | some lib => exact ((h.lzma hlib).selectsPrefix false nofun input).mapError _
  cases m with
  | copy => exact hm.elim
  | delta => exact hm.elim
  | lzma => exact hlzma false
  | lzma2 => exact hlzma true
  | deflate => exact (h.deflate.selectsPrefix false nofun input).mapError _
  | bzip2 => exact (h.bzip2.selectsPrefix true (fun _ => h.bzip2_stalls) input).mapError _

theorem StreamDecoder.mapError_selectsPrefix {σ : Type} (d : StreamDecoder σ ε) (start : σ)
    (heading : Halt ε → φ) :
    SelectsPrefix fun expected result => (d.decode start expected).mapError heading = result :=
  ((d.selectsPrefix start).mapError heading).congr fun _ _ => exists_eq_left'

theorem decodeInput_selectsPrefix {m : Method} (hm : m.ThroughLibrary)
    (properties input : Bytes) :
    SelectsPrefix fun expected result => decodeInput m properties input expected = result := by
  unfold decodeInput
  cases m with
  | copy => exact hm.elim
  | delta => exact hm.elim
  | lzma =>
    dsimp only
    cases Lzma.properties? properties with
    | none => exact SelectsPrefix.refused fun _ _ => Iff.rfl
    | some p => exact StreamDecoder.mapError_selectsPrefix _ _ _
  | lzma2 =>
    dsimp only
    cases Lzma.chunkedProperties? properties with
    | none => exact SelectsPrefix.refused fun _ _ => Iff.rfl
    | some capacity => exact StreamDecoder.mapError_selectsPrefix _ _ _
  | deflate => exact StreamDecoder.mapError_selectsPrefix _ _ _
  | bzip2 => exact StreamDecoder.mapError_selectsPrefix _ _ _

/-- **A declared size selects a prefix.** Let a coder's method be one that is left to a library. If
a stream is decoded without a declared size, then with any declared size there is as much of its
output as was declared, or all of it. Whether or not it is decoded without one, there is never more
than was declared, and for two sizes the outputs agree as far as both go. This holds with all
libraries for which windows do not matter, and with the decoders that are used here. -/
theorem decode_selectsPrefix {id : Bytes} {m : Method} (hid : method id = .ok m)
    (hm : m.ThroughLibrary) (properties : Bytes) (inputs : List Bytes) :
    (∀ L : Libraries, L.CutFree → SelectsPrefix (L.Decodes id properties inputs)) ∧
      SelectsPrefix fun expected result => decode id properties inputs expected = result := by
  unfold Libraries.Decodes decode
  rw [hid]
  match inputs with
  | [input] =>
    exact ⟨fun L h => h.selectsPrefix hm properties input,
      decodeInput_selectsPrefix hm properties input⟩
  | [] =>
    exact ⟨fun L _ => SelectsPrefix.refused fun _ _ => Iff.rfl,
      SelectsPrefix.refused fun _ _ => Iff.rfl⟩
  | _ :: _ :: _ =>
    exact ⟨fun L _ => SelectsPrefix.refused fun _ _ => Iff.rfl,
      SelectsPrefix.refused fun _ _ => Iff.rfl⟩

/-- Two bytes are asked for of a stored Deflate block that has three. -/
theorem decode_selectsPrefix_stored_block :
    let inputs := [[1, 3, 0, 252, 255, 20, 21, 22]]
    decode [4, 1, 8] [] inputs none = .ok [20, 21, 22] ∧
      Libraries.buffered.Decodes [4, 1, 8] [] inputs (some 2) (.ok [20, 21]) ∧
      decode [4, 1, 8] [] inputs (some 2) = .ok [20, 21] := by
  intro inputs
  have hall : decode [4, 1, 8] [] inputs none = .ok [20, 21, 22] := by decide +kernel
  have hshort : ∀ input ∈ inputs, input.length ≤ maxInput := by decide
  have hmethod : method [4, 1, 8] = .ok .deflate := by decide +kernel
  obtain ⟨hlibraries, hdecoders⟩ := decode_selectsPrefix hmethod trivial [] inputs
  have hends := (Libraries.buffered_decodes_iff [4, 1, 8] [] hshort none _).mpr hall
  exact ⟨hall, (hlibraries _ Libraries.buffered_cutFree).take hends 2, hdecoders.take hall 2⟩

end SolidArchive.Codec
