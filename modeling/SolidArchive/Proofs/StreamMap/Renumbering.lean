import SolidArchive.Proofs.Folder.Lockstep
import SolidArchive.Proofs.Folder.Isolation

/-!
# Headers under other numbers

Of a folder the map needs to know how many pack streams it reads, which size it declares, and its
checksum. None of these depends on how its coders and streams are numbered, so a header has the same
map if one of its folders is given under other numbers (`StreamMap.derive_mappedAlike`), and the
folder is decoded by the same calls (`decodeFolder_renumber`).
-/

namespace SolidArchive

variable {σ : Type} {a : Archive} {m : StreamMap} {f f' : Folder} {folders folders' : List Folder}
  {graphs graphs' : List FolderGraph} {k : Nat}

/-! ### One map -/

/-- Two folders and their graphs are the same for the map. -/
structure MappedAlike (p p' : Folder × FolderGraph) : Prop where
  packedInputs : p'.2.packedInputs.length = p.2.packedInputs.length
  declaredSize : p'.2.declaredSize p'.1 = p.2.declaredSize p.1
  unpackCrc : p'.1.unpackCrc = p.1.unpackCrc

/-- The graphs can be resolved, and the folders are the same for the map. -/
def Folder.MappedAlike (f f' : Folder) : Prop :=
  ∀ g, FolderGraph.resolve f = .ok g → ∃ g', FolderGraph.resolve f' = .ok g' ∧
    SolidArchive.MappedAlike (f, g) (f', g')

theorem PackRange.assign_congr {sizes : List UInt64} {offsets : List Nat}
    {packEnd folder stream : Nat} (h : packCounts graphs' = packCounts graphs) :
    assign sizes offsets packEnd folder stream graphs' =
      assign sizes offsets packEnd folder stream graphs := by
  induction graphs generalizing graphs' folder stream with
  | nil =>
    rw [List.map_eq_nil_iff.mp h]
  | cons g graphs ih =>
    obtain ⟨g', rest, rfl, hcount, hrest⟩ := List.map_eq_cons_iff.mp h
    simp only [assign, hcount, ih hrest]

theorem FolderContent.ofFolders_congr {substreams : Option Substreams} {folder substream : Nat}
    {pairs pairs' : List (Folder × FolderGraph)} (h : List.Forall₂ MappedAlike pairs pairs') :
    ofFolders substreams folder substream pairs' = ofFolders substreams folder substream pairs := by
  induction h generalizing folder substream with
  | nil => rfl
  | @cons p p' _ _ halike _ ih =>
    obtain ⟨f, g⟩ := p
    obtain ⟨f', g'⟩ := p'
    have hdeclared : g'.declaredSize f' = g.declaredSize f := halike.declaredSize
    have hcrc : f'.unpackCrc = f.unpackCrc := halike.unpackCrc
    simp only [ofFolders, declared, hdeclared, hcrc, ih]

namespace StreamMap

theorem resolveGraphs_mappedAlike {folder : Nat}
    (h : List.Forall₂ Folder.MappedAlike folders folders') (hgraphs : Resolved folders graphs) :
    ∃ graphs', resolveGraphs folder folders' = .ok graphs' ∧
      List.Forall₂ MappedAlike (folders.zip graphs) (folders'.zip graphs') ∧
      PackRange.packCounts graphs' = PackRange.packCounts graphs := by
  -- folder by folder the other one has a graph as well, with as many packed inputs
  induction h generalizing folder graphs with
  | nil =>
    cases hgraphs
    exact ⟨[], rfl, .nil, rfl⟩
  | cons halike _ ih =>
    obtain ⟨g, rest, hg, hrest, rfl⟩ := List.forall₂_cons_left_iff.mp hgraphs
    obtain ⟨g', hg', hsame⟩ := halike g hg
    obtain ⟨graphs', hgraphs', hpairs, hcounts⟩ := @ih rest (folder + 1) hrest
    refine ⟨g' :: graphs', ?_, .cons hsame hpairs, ?_⟩
    · rw [resolveGraphs, hg', hgraphs']
      rfl
    · exact congrArg₂ List.cons hsame.packedInputs hcounts

/-- **One map.** A header has the same map if its folders are replaced by others that are the same
for the map. -/
theorem derive_mappedAlike (h : List.Forall₂ Folder.MappedAlike a.folders folders')
    (hm : derive a = .ok m) : derive { a with folders := folders' } = .ok m := by
  have hconsistent := ((derive_decides a).holds hm).1
  have hdecides : Decides True _ _ (resolveGraphs 0 a.folders) := resolveGraphs_decides 0 a.folders
  obtain ⟨graphs, hgraphs⟩ := (hdecides.exists_ok_iff trivial).mpr hconsistent.graphs
  obtain ⟨graphs', hgraphs', hpairs, hcounts⟩ :=
    @resolveGraphs_mappedAlike _ _ _ 0 h (hdecides.holds hgraphs).2
  -- the ranges read of the graphs only how many packed inputs there are
  have hranges : PackRange.ofArchive { a with folders := folders' } graphs' =
      PackRange.ofArchive a graphs := by
    unfold PackRange.ofArchive
    simp only [PackRange.assign_congr hcounts]
  -- and the contents only the declared sizes and checksums
  have hcontents : FolderContent.ofArchive { a with folders := folders' } graphs' =
      FolderContent.ofArchive a graphs := by
    unfold FolderContent.ofArchive
    simp only [FolderContent.ofFolders_congr hpairs, h.length_eq]
  rw [← hm]
  unfold derive
  show (checkPackCrcs a >>= _) = _
  cases checkPackCrcs a with
  | error fault => rfl
  | ok _ =>
    show (resolveGraphs 0 folders' >>= _) = (resolveGraphs 0 a.folders >>= _)
    rw [hgraphs, hgraphs']
    show (PackRange.ofArchive { a with folders := folders' } graphs' >>= _) =
      (PackRange.ofArchive a graphs >>= _)
    rw [hranges]
    cases PackRange.ofArchive a graphs with
    | error fault => rfl
    | ok ranges =>
      show (FolderContent.ofArchive { a with folders := folders' } graphs' >>= _) =
        (FolderContent.ofArchive a graphs >>= _)
      rw [hcontents]

end StreamMap

/-! ### A folder under new numbers -/

section

variable {ρ : Renumbering} {g g' : FolderGraph}

theorem Folder.MappedAlike.refl (f : Folder) : f.MappedAlike f :=
  fun g hg => ⟨g, hg, rfl, rfl, rfl⟩

/-- One of the folders is replaced. -/
theorem Folder.MappedAlike.forall₂_set (h : f.MappedAlike f') (hk : folders[k]? = some f) :
    List.Forall₂ Folder.MappedAlike folders (folders.set k f') := by
  obtain ⟨hlt, rfl⟩ := List.getElem?_eq_some_iff.mp hk
  refine List.forall₂_iff_get.mpr ⟨List.length_set.symm, fun i hi hi' => ?_⟩
  rw [List.get_eq_getElem, List.get_eq_getElem, List.getElem_set]
  by_cases heq : k = i
  · subst heq
    rw [if_pos rfl]
    exact h
  · rw [if_neg heq]
    exact .refl _

namespace Folder.Renumbers

/-- The final output has the size that it had. -/
theorem declaredSize_eq (h : f.Renumbers ρ f') (hf : f.IsCoderGraph) (hg : g.Describes f)
    (hg' : g'.Describes f') : g'.declaredSize f' = g.declaredSize f := by
  unfold FolderGraph.declaredSize
  by_cases hnone : f.unpackSizes = []
  · rw [if_pos hnone, if_pos (h.unpackSizes_eq_nil_iff.mpr hnone)]
  · have hsize := h.unpackSize (hf.unpackSizes.resolve_left hnone) g.finalOutput
    rw [if_neg hnone, if_neg (mt h.unpackSizes_eq_nil_iff.mp hnone), h.finalOutput_eq hg hg',
      Breach.lookup_congr hsize]

theorem mappedAlike (h : f.Renumbers ρ f') : f.MappedAlike f' := by
  intro g hg
  obtain ⟨hf, hdescribes⟩ := (FolderGraph.resolve_decides f).holds hg
  obtain ⟨g', hg'⟩ :=
    ((FolderGraph.resolve_decides f').exists_ok_iff trivial).mpr (h.isCoderGraph hf)
  have hdescribes' := ((FolderGraph.resolve_decides f').holds hg').2
  refine ⟨g', hg', ?_, h.declaredSize_eq hf hdescribes hdescribes', h.unpackCrc⟩
  show g'.packedInputs.length = _
  rw [h.packedInputs_eq hf hdescribes hdescribes', List.length_map]

end Folder.Renumbers

/-! ### Its decode -/

variable {span span' : FolderSpan}

/-- A call of the coder that had another number. -/
def CoderCall.renumber (ρ : Renumbering) (call : CoderCall) : CoderCall :=
  { call with index := ρ.coder call.index }

/-- The same record, for the coders under new numbers. -/
def renumberCalls (ρ : Renumbering) (t : σ × List CoderCall) : σ × List CoderCall :=
  (t.1, t.2.map (CoderCall.renumber ρ))

/-- A coder is run in lockstep with the coder of its new number. -/
theorem FolderJob.runLogged_mirrors (ρ : Renumbering) (decoder : Decoder σ) (folder index : Nat)
    (c : Coder) (inputs : List Bytes) (expected : Option Nat) :
    Mirrors (renumberCalls ρ) (fun a a' => a' = a)
      (FolderJob.runLogged folder decoder index c inputs expected)
      (FolderJob.runLogged folder decoder (ρ.coder index) c inputs expected) := by
  have hcall : ∀ t, ((decoder.logged index c inputs expected t).1,
      renumberCalls ρ (decoder.logged index c inputs expected t).2) =
        decoder.logged (ρ.coder index) c inputs expected (renumberCalls ρ t) := by
    intro t
    let run := decoder c inputs expected t.1
    exact congrArg (fun calls => (run.1, run.2, calls)) List.map_append
  unfold FolderJob.runLogged FolderJob.runBy
  refine (Mirrors.of_lowers (Lowers.liftM hcall)).bind fun answer answer' hanswer => ?_
  rw [hanswer]
  match answer with
  | .ok bytes => exact Mirrors.pure rfl
  | .error (.decode error) => exact Mirrors.throw _ _
  -- the error names the coder by its number
  | .error (.failure reason) => exact Mirrors.throw _ _
  | .error (.foreign thrown) => exact Mirrors.throw _ _

/-- **The decodes of the two folders** are in lockstep. -/
theorem StreamMap.MapsFolder.decodeFolderLogged_mirrors (h : MapsFolder a m k f g span)
    (h' : MapsFolder { a with folders := folders' } m k f' g' span) (hρ : f.Renumbers ρ f')
    (source : Source σ) (decoder : Decoder σ) (config : Config) :
    Mirrors (renumberCalls ρ) (fun bytes bytes' => bytes' = bytes)
      (decodeFolderLogged a m source decoder config k)
      (decodeFolderLogged { a with folders := folders' } m source decoder config k) := by
  have hjob : h.job.Renumbers ρ h'.job :=
    ⟨rfl, rfl, hρ, h.isCoderGraph, h.describes, h'.describes⟩
  -- the pack streams are those of the same header
  have hstreams : FolderJob.readPackStreams { a with folders := folders' } m source.unlogged
        config.verifyPackCrcs k span.packStreamCount span.firstPackStream =
      FolderJob.readPackStreams a m source.unlogged config.verifyPackCrcs k span.packStreamCount
        span.firstPackStream := FolderJob.readPackStreams_congr fun _ _ _ => rfl
  unfold decodeFolderLogged
  rw [h.decodeFolderBy_eq, h'.decodeFolderBy_eq, hstreams]
  by_cases hlimit : config.maxFolderBytes < span.unpackLength
  · rw [if_pos hlimit, if_pos hlimit]
    exact Mirrors.throw _ _
  · rw [if_neg hlimit, if_neg hlimit]
    -- the source has no part in the record
    have hsource : ∀ offset length t, ((source.unlogged.read offset length t).1,
        renumberCalls ρ (source.unlogged.read offset length t).2) =
          source.unlogged.read offset length (renumberCalls ρ t) := fun _ _ _ => rfl
    have hread := Mirrors.of_lowers (@FolderJob.readPackStreams_lowers _ _ _ a m k _ _
      config.verifyPackCrcs hsource span.packStreamCount span.firstPackStream)
    refine hread.bind fun packed packed' hpacked => ?_
    rw [hpacked]
    exact FolderJob.run_mirrors hjob (FolderJob.runLogged_mirrors ρ decoder k)

/-- A header with a folder under new numbers has the same map. -/
theorem StreamMap.derive_renumbers (hρ : f.Renumbers ρ f') (hm : derive a = .ok m)
    (hk : a.folders[k]? = some f) : derive { a with folders := a.folders.set k f' } = .ok m :=
  derive_mappedAlike (hρ.mappedAlike.forall₂_set hk) hm

/-- The folder is decoded by the same calls, and they come to the same end. -/
theorem StreamMap.decodeFolderLogged_renumbers (hρ : f.Renumbers ρ f') (hm : derive a = .ok m)
    (hk : a.folders[k]? = some f) (source : Source σ) (decoder : Decoder σ) (config : Config)
    (s : σ) :
    let a' : Archive := { a with folders := a.folders.set k f' }
    let run := (decodeFolderLogged a m source decoder config k).run (s, [])
    let run' := (decodeFolderLogged a' m source decoder config k).run (s, [])
    run'.1.toOption = run.1.toOption ∧ run'.2.1 = run.2.1 ∧
      run'.2.2 = run.2.2.map (CoderCall.renumber ρ) := by
  intro a' run run'
  have hk' : a'.folders[k]? = some f' := by
    show (a.folders.set k f')[k]? = some f'
    rw [List.getElem?_set_self (List.getElem?_eq_some_iff.mp hk).1]
  obtain ⟨g, span, h⟩ := derive_mapsFolder hm hk
  obtain ⟨g', span', h'⟩ := derive_mapsFolder (derive_renumbers hρ hm hk) hk'
  -- both have the same entry of the map
  obtain rfl : span = span' := Option.some.inj (h.span_eq.symm.trans h'.span_eq)
  obtain ⟨hstate, hend⟩ := h.decodeFolderLogged_mirrors h' hρ source decoder config (s, [])
  have hstate' : run'.2 = renumberCalls ρ run.2 := hstate
  have hsame : run'.1.toOption = run.1.toOption := hend.toOption_eq
  rw [hstate']
  exact ⟨hsame, rfl, rfl⟩

end

/-- **Stream numbers are only names.** Let the coders of a folder come in another order, with all
streams under their new numbers, and let the bind pairs be listed in any order. The resolver accepts
the folder just when it accepted it before. And if a header that has the folder is mapped, it has
the same map now, and for every source, decoder and configuration the folder is decoded by the same
calls, of the same coders on the same inputs with the same sizes expected, one after the other: both
decodes give the same bytes, or both fail. -/
theorem decodeFolder_renumber (f : Folder) (order : Equiv.Perm (Fin f.coders.length))
    {pairs : List BindPair} (hpairs : pairs.Perm (f.renumber order).bindPairs) :
    let f' : Folder := { f.renumber order with bindPairs := pairs }
    ((∃ g', FolderGraph.resolve f' = .ok g') ↔ ∃ g, FolderGraph.resolve f = .ok g) ∧
      ∀ (a : Archive) (m : StreamMap) (k : Nat), StreamMap.derive a = .ok m →
        a.folders[k]? = some f →
        let a' : Archive := { a with folders := a.folders.set k f' }
        StreamMap.derive a' = .ok m ∧
          ∀ (τ : Type) (source : Source τ) (decoder : Decoder τ) (config : Config) (s : τ),
            let run := (decodeFolderLogged a m source decoder config k).run (s, [])
            let run' := (decodeFolderLogged a' m source decoder config k).run (s, [])
            (decodeFolder a m source decoder config k).run s = (run.1, run.2.1) ∧
              (decodeFolder a' m source decoder config k).run s = (run'.1, run'.2.1) ∧
              run'.1.toOption = run.1.toOption ∧ run'.2.1 = run.2.1 ∧
              run'.2.2 = run.2.2.map fun call =>
                { call with index := f.newPlace order call.index } := by
  intro f'
  have hgraphs : (∃ g', FolderGraph.resolve f' = .ok g') ↔ ∃ g, FolderGraph.resolve f = .ok g :=
    calc (∃ g', FolderGraph.resolve f' = .ok g')
      _ ↔ f'.IsCoderGraph := (FolderGraph.resolve_decides f').exists_ok_iff trivial
      _ ↔ f.IsCoderGraph := Folder.renumber_isCoderGraph_iff hpairs
      _ ↔ ∃ g, FolderGraph.resolve f = .ok g :=
        ((FolderGraph.resolve_decides f).exists_ok_iff trivial).symm
  refine ⟨hgraphs, fun a m k hm hk => ?_⟩
  intro a'
  obtain ⟨g, span, h⟩ := StreamMap.derive_mapsFolder hm hk
  obtain ⟨hin, hout⟩ := h.isCoderGraph.sum_le
  -- the new order of the coders gives new numbers to the streams
  have hρ : f.Renumbers (f.renumbering order) f' := Folder.renumber_renumbers hin hout hpairs
  refine ⟨StreamMap.derive_renumbers hρ hm hk, fun τ source decoder config s => ?_⟩
  intro run run'
  refine ⟨?_, ?_, StreamMap.decodeFolderLogged_renumbers hρ hm hk source decoder config s⟩
  · exact (decodeFolderLogged_lowers a m source decoder config k (s, [])).symm
  · exact (decodeFolderLogged_lowers a' m source decoder config k (s, [])).symm

/-- The coder of the result goes to the end, and the bind pairs are listed the other way round. -/
theorem decodeFolder_renumber_three_coders :
    let f : Folder :=
      { coders := [{ methodId := [3], inputs := 2 }, { methodId := [9] }, { methodId := [5] }]
        bindPairs := [{ input := 0, output := 1 }, { input := 2, output := 2 }]
        packedStreams := [3, 1], unpackSizes := [6, 4, 3] }
    let f' : Folder :=
      { coders := [{ methodId := [9] }, { methodId := [5] }, { methodId := [3], inputs := 2 }]
        bindPairs := [{ input := 0, output := 1 }, { input := 2, output := 0 }]
        packedStreams := [1, 3], unpackSizes := [4, 3, 6] }
    let a : Archive :=
      { packPosition := 1, packSizes := [2, 1], folders := [f], entries := [{ name := "a" }] }
    let decoder : Decoder Nat := fun c inputs _ n => (.ok (c.methodId ++ inputs.flatten), n + 1)
    f'.bindPairs.Perm (f.renumber (finRotate 3)).bindPairs ∧
      { f.renumber (finRotate 3) with bindPairs := f'.bindPairs } = f' ∧
      ∃ m, StreamMap.derive a = .ok m ∧ a.folders[0]? = some f ∧
        let a' : Archive := { a with folders := [f'] }
        let run := (decodeFolderLogged a m (.ofBytes [0, 20, 21, 22]) decoder {} 0).run (0, [])
        let run' := (decodeFolderLogged a' m (.ofBytes [0, 20, 21, 22]) decoder {} 0).run (0, [])
        run.1 = .ok [3, 9, 5, 20, 21, 22] ∧ run.2.2.map CoderCall.index = [2, 1, 0] ∧
          run'.1.toOption = some [3, 9, 5, 20, 21, 22] ∧
          run'.2.2.map CoderCall.index = [1, 0, 2] := by
  intro f f' a decoder
  have hpairs : f'.bindPairs.Perm (f.renumber (finRotate 3)).bindPairs := by decide +kernel
  have hsame : { f.renumber (finRotate 3) with bindPairs := f'.bindPairs } = f' := by
    decide +kernel
  refine ⟨hpairs, hsame, _, rfl, rfl, ?_⟩
  intro a' run run'
  have hdecode := (decodeFolder_renumber f (finRotate 3) hpairs).2 a _ 0 rfl rfl
  rw [hsame] at hdecode
  obtain ⟨-, -, hbytes, -, hcalls⟩ := hdecode.2 Nat (.ofBytes [0, 20, 21, 22]) decoder {} 0
  refine ⟨rfl, rfl, hbytes, ?_⟩
  exact congrArg (List.map CoderCall.index) hcalls

end SolidArchive
