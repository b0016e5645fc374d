import SolidArchive.Proofs.Folder.Mapped
import SolidArchive.Proofs.Folder.Trace

/-!
# The calls of a decode

Which coders a decode runs, and in what order (`decodeFolder_calls`). A coder runs once at most, and
after everything that feeds it; a decode that succeeds has run every coder, and the one of the final
output last.

The invariant keeps books (`Books`): the record of the calls is orderly, and a slot is filled just
if a call is recorded for it that gave these bytes. So a coder whose slot is empty has not been
called, and one whose slot is filled has. When the final output is there, its coder has been called,
hence all that feed it, and theirs; every coder is upstream of the final output, so none is missing
(`Orderly.all_called`). A call behind the one of the final output would be for a coder upstream of
it, and that one was called before (`Orderly.last_called`).
-/

namespace SolidArchive

open Relation

variable {σ : Type}

/-! ### Orderly records -/

section Orderly

variable {f : Folder} {calls before after : List CoderCall} {call : CoderCall}

/-- The calls are for coders of the folder that have one output, once for each, and not before the
calls for all that feed it have given something. -/
structure Orderly (f : Folder) (calls : List CoderCall) : Prop where
  coder : ∀ call ∈ calls, f.coders[call.index]? = some call.coder
  single : ∀ call ∈ calls, call.coder.outputs = 1
  once : (calls.map CoderCall.index).Nodup
  inOrder : ∀ before call, before ++ [call] <+: calls → ∀ feeder, f.Feeds feeder call.index →
    ∃ earlier ∈ before, earlier.index = feeder ∧ ∃ bytes, earlier.answer = .ok bytes

/-- What is recorded as an answer is one that the decoder gave. -/
def Truthful (decoder : Decoder σ) (calls : List CoderCall) : Prop :=
  ∀ call ∈ calls, ∃ s, (decoder call.coder call.inputs call.expected s).1 = call.answer

theorem Truthful.concat {decoder : Decoder σ} (h : Truthful decoder calls) {s : σ}
    (hanswer : (decoder call.coder call.inputs call.expected s).1 = call.answer) :
    Truthful decoder (calls ++ [call]) := by
  unfold Truthful
  simp only [List.forall_mem_append, List.forall_mem_singleton]
  exact ⟨h, s, hanswer⟩

theorem Orderly.nil (f : Folder) : Orderly f [] where
  coder := by simp
  single := by simp
  once := List.nodup_nil
  inOrder before call h := by simp at h

/-- One more call. -/
theorem Orderly.concat (h : Orderly f calls) (hcoder : f.coders[call.index]? = some call.coder)
    (hsingle : call.coder.outputs = 1) (hnew : call.index ∉ calls.map CoderCall.index)
    (hfed : ∀ feeder, f.Feeds feeder call.index →
      ∃ earlier ∈ calls, earlier.index = feeder ∧ ∃ bytes, earlier.answer = .ok bytes) :
    Orderly f (calls ++ [call]) where
  coder := by
    simp only [List.forall_mem_append, List.forall_mem_singleton]
    exact ⟨h.coder, hcoder⟩
  single := by
    simp only [List.forall_mem_append, List.forall_mem_singleton]
    exact ⟨h.single, hsingle⟩
  once := by
    rw [List.map_append, List.map_singleton, List.nodup_append_comm, List.singleton_append,
      List.nodup_cons]
    exact ⟨hnew, h.once⟩
  inOrder before other hbegins feeder hfeeds := by
    -- what is asked about is the new call, or a call of before
    rcases List.prefix_concat_iff.mp hbegins with heq | hbefore
    · obtain ⟨rfl, hother⟩ := List.append_inj' heq rfl
      obtain rfl : other = call := List.singleton_inj.mp hother
      exact hfed feeder hfeeds
    · exact h.inOrder before other hbefore feeder hfeeds

theorem concat_prefix_append_cons {α : Type} (before after : List α) (a : α) :
    before ++ [a] <+: before ++ a :: after := by
  have hbegins := List.prefix_append (before ++ [a]) after
  rwa [List.append_assoc, List.singleton_append] at hbegins

/-- What is upstream of a coder was called before it. -/
theorem Orderly.upstream_called (h : Orderly f calls) {coder : Nat}
    (hup : TransGen f.Feeds coder call.index) (hbegins : before ++ [call] <+: calls) :
    ∃ earlier ∈ before, earlier.index = coder := by
  generalize htarget : call.index = target at hup
  induction hup generalizing before call with
  | single hfeeds =>
    subst htarget
    obtain ⟨earlier, hmem, hindex, -⟩ := h.inOrder before call hbegins _ hfeeds
    exact ⟨earlier, hmem, hindex⟩
  | tail _ hfeeds ih =>
    subst htarget
    obtain ⟨next, hmem, hindex, -⟩ := h.inOrder before call hbegins _ hfeeds
    -- the one that feeds the coder was called, and what is upstream of that one before it
    obtain ⟨first, second, rfl⟩ := List.append_of_mem hmem
    have hfirst : first ++ [next] <+: calls :=
      (concat_prefix_append_cons first second next).trans
        ((List.prefix_append _ [call]).trans hbegins)
    obtain ⟨earlier, hmem', hindex'⟩ := ih hfirst hindex
    exact ⟨earlier, List.mem_append_left _ hmem', hindex'⟩

variable (hf : f.IsCoderGraph) {output : Nat} (houtput : f.UnboundOutput output)

include hf houtput in
/-- When the coder of the final output has been called, all have been, each once. -/
theorem Orderly.all_called (h : Orderly f calls) (hcall : call ∈ calls)
    (hout : f.HasOutput call.index output) :
    (calls.map CoderCall.index).Perm (List.range f.coders.length) := by
  rw [List.perm_ext_iff_of_nodup h.once List.nodup_range]
  intro coder
  rw [List.mem_range, List.mem_map]
  refine ⟨?_, fun hlt => ?_⟩
  · rintro ⟨other, hmem, rfl⟩
    exact (List.getElem?_eq_some_iff.mp (h.coder other hmem)).1
  · rcases reflTransGen_iff_eq_or_transGen.mp (hf.reaches_result houtput hout hlt) with heq | hup
    · exact ⟨call, hcall, heq⟩
    · obtain ⟨before, after, rfl⟩ := List.append_of_mem hcall
      obtain ⟨earlier, hmem, hindex⟩ :=
        h.upstream_called hup (concat_prefix_append_cons before after call)
      exact ⟨earlier, List.mem_append_left _ hmem, hindex⟩

include hf houtput in
/-- The call for the coder of the final output is the last one. -/
theorem Orderly.last_called (h : Orderly f calls) (hcall : call ∈ calls)
    (hout : f.HasOutput call.index output) : calls.getLast? = some call := by
  obtain ⟨before, after, rfl⟩ := List.append_of_mem hcall
  cases after with
  | nil => exact List.getLast?_concat
  | cons later after =>
    exfalso
    have hlater : later ∈ before ++ call :: later :: after := by simp
    have hlt := (List.getElem?_eq_some_iff.mp (h.coder later hlater)).1
    have honce := h.once
    rw [List.map_append, List.map_cons, List.map_cons] at honce
    have hapart := List.nodup_append.mp honce
    -- a later coder is upstream of the final output, so it has been called before
    rcases reflTransGen_iff_eq_or_transGen.mp (hf.reaches_result houtput hout hlt) with heq | hup
    · have hne := (List.nodup_cons.mp hapart.2.1).1
      rw [heq] at hne
      exact hne List.mem_cons_self
    · obtain ⟨earlier, hmem, hindex⟩ :=
        h.upstream_called hup (concat_prefix_append_cons before (later :: after) call)
      exact hapart.2.2 _ (List.mem_map_of_mem hmem) later.index
        (List.mem_cons_of_mem _ List.mem_cons_self) hindex

end Orderly

namespace FolderJob

variable {job : FolderJob} {packed : List Bytes} {calls : List CoderCall} {call : CoderCall}
  {slots : List (Option Bytes)}

/-! ### Why an evaluation fails -/

/-- How a fault of the evaluation comes from the last call, unless it comes from a coder that is not
called at all. -/
inductive Accounts (job : FolderJob) (packed : List Bytes) (calls : List CoderCall) :
    FolderFault → Prop where
  | severalOutputs {index : Nat} {c : Coder} (hcoder : job.folder.coders[index]? = some c)
    (hseveral : c.outputs ≠ 1) : Accounts job packed calls
      (.decode { folder := job.index, fault := .severalOutputs index c.outputs.toNat })
  | coder {call : CoderCall} {fault : DecoderFault} (hlast : calls.getLast? = some call)
    (hanswer : call.answer = .error fault) :
    Accounts job packed calls (coderFault job.index call.index call.coder fault)
  | outputSize {call : CoderCall} {bytes : Bytes} {size : Nat} (hlast : calls.getLast? = some call)
    (hanswer : call.answer = .ok bytes) (hsize : call.expected = some size)
    (hne : bytes.length ≠ size) : Accounts job packed calls
      (.decode { folder := job.index, fault := .outputSize call.index bytes.length size })
  | missing (hfew : packed.length < job.graph.packedInputs.length) : Accounts job packed calls
      (.decode { folder := job.index, fault := .breach .index })

/-! ### Books -/

/-- The record is orderly, and the slots hold just what the calls gave. -/
structure Books (f : Folder) (slots : List (Option Bytes)) (calls : List CoderCall) : Prop
    extends Orderly f calls where
  answered : ∀ call ∈ calls, ∃ bytes, call.answer = .ok bytes
  slot_iff : ∀ (output : Nat) (bytes : Bytes), slots[output]? = some (some bytes) ↔
    ∃ call ∈ calls, f.HasOutput call.index output ∧ call.answer = .ok bytes

theorem Books.start (f : Folder) (n : Nat) : Books f (List.replicate n none) [] where
  toOrderly := Orderly.nil f
  answered := by simp
  slot_iff output bytes := by simp [getElem?_replicate_ne]

theorem AllReady.exists_ready {index : Nat} {is : List Nat} {inputs : List Bytes}
    (h : job.AllReady packed slots index is inputs) {i : Nat} (hi : i ∈ is) :
    ∃ bytes, job.Ready packed slots (runStart job.folder.inputCounts index + i) bytes := by
  unfold AllReady at h
  induction h with
  | nil => cases hi
  | cons hready _ ih =>
    rcases List.mem_cons.mp hi with rfl | hi
    · exact ⟨_, hready⟩
    · exact ih hi

/-- At a call the coder is new to the record, and all that feed it are in it. -/
theorem Books.orderly_concat {index output : Nat} {c : Coder} {inputs : List Bytes}
    (h : Books job.folder slots calls) (hf : job.folder.IsCoderGraph)
    (hcall : job.CallSite packed slots index c inputs output) (hindex : call.index = index)
    (hcoder : call.coder = c) : Orderly job.folder (calls ++ [call]) := by
  subst hindex hcoder
  refine h.concat hcall.coder hcall.single ?_ ?_
  · -- had it been called, its slot would be filled
    intro hmem
    obtain ⟨earlier, hearlier, hsame⟩ := List.mem_map.mp hmem
    obtain ⟨bytes, hbytes⟩ := h.answered earlier hearlier
    have hslot := (h.slot_iff output bytes).mpr ⟨earlier, hearlier, hsame ▸ hcall.hasOutput, hbytes⟩
    rw [hcall.empty] at hslot
    cases hslot
  · -- what feeds it is in its slot
    rintro feeder ⟨pair, hmem, hout, hin⟩
    obtain ⟨i, hi, hinput⟩ := (Folder.hasInput_iff hcall.coder).mp hin
    obtain ⟨bytes, hready⟩ := hcall.ready.exists_ready (List.mem_range.mpr hi)
    have hbound : job.folder.boundOutput?
        (runStart job.folder.inputCounts call.index + i) = some pair.output.toNat :=
      hf.bindsOnce.boundOutput?_eq_some_iff.mpr ⟨pair, hmem, hinput, rfl⟩
    rw [Ready, hbound] at hready
    obtain ⟨earlier, hearlier, hout', hbytes⟩ := (h.slot_iff _ bytes).mp hready
    exact ⟨earlier, hearlier, hout'.unique hout, bytes, hbytes⟩

/-- The books after a call that gave something. -/
theorem Books.concat {output : Nat} {inputs : List Bytes} {bytes : Bytes}
    (h : Books job.folder slots calls)
    (hcall : job.CallSite packed slots call.index call.coder inputs output)
    (horderly : Orderly job.folder (calls ++ [call])) (hanswer : call.answer = .ok bytes) :
    Books job.folder (slots.set output (some bytes)) (calls ++ [call]) where
  toOrderly := horderly
  answered := by
    simp only [List.forall_mem_append, List.forall_mem_singleton]
    exact ⟨h.answered, bytes, hanswer⟩
  slot_iff other bytes' := by
    rw [getElem?_set_slot_iff hcall.empty, h.slot_iff]
    simp only [List.mem_append, List.mem_singleton]
    refine ⟨?_, ?_⟩
    · rintro (⟨rfl, rfl⟩ | ⟨earlier, hmem, hearlier⟩)
      · exact ⟨call, .inr rfl, hcall.hasOutput, hanswer⟩
      · exact ⟨earlier, .inl hmem, hearlier⟩
    · rintro ⟨earlier, hmem | rfl, hout, hbytes⟩
      · exact .inr ⟨earlier, hmem, hout, hbytes⟩
      · -- the coder has no other output
        rw [hanswer] at hbytes
        cases hbytes
        exact .inl ⟨hout.unique_of_single hcall.coder hcall.single hcall.hasOutput, rfl⟩

/-- **The books are kept**, whatever the decoder does. -/
theorem books_invariant (hf : job.folder.IsCoderGraph) (packed : List Bytes) (decoder : Decoder σ) :
    Invariant job packed (runLogged job.index decoder)
      (fun slots t => Books job.folder slots t.2 ∧ Truthful decoder t.2)
      (fun _ fault t => Orderly job.folder t.2 ∧ Truthful decoder t.2 ∧
        Accounts job packed t.2 fault) where
  severalOutputs h howns hseveral := ⟨h.1.toOrderly, h.2, .severalOutputs howns.coder hseveral⟩
  input _ _ _ _ _ _ hbad := hbad
  missing h _ hfew := ⟨h.1.toOrderly, h.2, .missing hfew⟩
  call {slots t index c inputs output} h hcall := by
    obtain ⟨hbooks, htrue⟩ := h
    have hrun : Ensures (runLogged job.index decoder index c inputs (job.knownSize output)) t
        (fun bytes t' => ∃ call, t'.2 = t.2 ++ [call] ∧ call.index = index ∧ call.coder = c ∧
          call.expected = job.knownSize output ∧ call.answer = .ok bytes ∧
          Truthful decoder (t.2 ++ [call]))
        (fun fault t' => Orderly job.folder t'.2 ∧ Truthful decoder t'.2 ∧
          Accounts job packed t'.2 fault) := by
      -- the call is recorded, whatever it answers
      refine runBy_ensures ?_ ?_
      · intro bytes t' hanswer
        obtain ⟨hbytes, rfl⟩ := Prod.mk.inj hanswer
        exact ⟨_, rfl, rfl, rfl, rfl, hbytes, htrue.concat rfl⟩
      · intro fault t' hanswer
        obtain ⟨hfails, rfl⟩ := Prod.mk.inj hanswer
        refine ⟨hbooks.orderly_concat hf hcall rfl rfl, htrue.concat rfl, ?_⟩
        exact .coder List.getLast?_concat hfails
    -- an answer of the right size goes into the books, one of another size is the fault
    refine runChecked_ensures hf hcall.hasOutput.lt_totalOutputs hrun ?_ ?_
    · rintro bytes t' ⟨call, hrecord, rfl, rfl, -, hanswer, htrue'⟩ -
      rw [hrecord]
      exact ⟨hbooks.concat hcall (hbooks.orderly_concat hf hcall rfl rfl) hanswer, htrue'⟩
    · rintro bytes t' size hsize ⟨call, hrecord, rfl, rfl, hexpected, hanswer, htrue'⟩ hne
      rw [hrecord]
      refine ⟨hbooks.orderly_concat hf hcall rfl rfl, htrue', ?_⟩
      exact .outputSize List.getLast?_concat hanswer (hexpected.trans hsize) hne

/-- The whole record of an evaluation that succeeds. -/
theorem Books.complete {f : Folder} {output : Nat} {bytes : Bytes} (h : Books f slots calls)
    (hf : f.IsCoderGraph) (houtput : f.UnboundOutput output)
    (hslot : slots[output]? = some (some bytes)) :
    (calls.map CoderCall.index).Perm (List.range f.coders.length) ∧
      ∃ last, calls.getLast? = some last ∧ f.HasOutput last.index output ∧
        last.answer = .ok bytes := by
  obtain ⟨call, hcall, hout, hanswer⟩ := (h.slot_iff output bytes).mp hslot
  exact ⟨h.all_called hf houtput hcall hout, call, h.last_called hf houtput hcall hout, hout,
    hanswer⟩

end FolderJob

/-! ### The calls of a decode -/

section Decode

variable {a : Archive} {m : StreamMap} {k : Nat} {f : Folder}

/-- Decoding a folder, up to its evaluation. Until then only the source acts on the state. -/
theorem decodeFolderBy_ensures {source : Source σ} {runCoder : FolderJob.CoderRun σ}
    {config : Config} {inv : σ → Prop} {post : Bytes → σ → Prop} {bad : FolderFault → σ → Prop}
    {s : σ} (hk : a.folders[k]? = some f)
    (hsource : ∀ offset length s, inv s → inv (source.read offset length s).2) (hinv : inv s)
    (hearly : ∀ fault s', inv s' → bad fault s')
    (hrun : ∀ g unpackLength packed s', FolderGraph.resolve f = .ok g → inv s' →
      Ensures (({ index := k, folder := f, graph := g, unpackLength } : FolderJob).run runCoder
        packed) s' post bad) :
    Ensures (decodeFolderBy a m source runCoder config k) s post bad := by
  unfold decodeFolderBy
  rw [hk]
  dsimp only
  -- up to the run nothing but the source is asked
  cases hspan : m.folders[k]? with
  | none =>
    rw [FolderJob.lift_lookup_none hspan]
    exact Ensures.throw (hearly _ s hinv)
  | some span =>
    rw [FolderJob.lift_lookup hspan, pure_bind]
    by_cases hlimit : config.maxFolderBytes < span.unpackLength
    · rw [if_pos hlimit]
      exact Ensures.throw (hearly _ s hinv)
    · rw [if_neg hlimit]
      cases hresolve : FolderGraph.resolve f with
      | error fault => exact Ensures.throw (hearly _ s hinv)
      | ok g =>
        dsimp only
        rw [pure_bind]
        refine ((FolderJob.readPackStreams_ensures hsource hinv).mono (fun _ _ h => h) ?_).bind ?_
        · exact fun fault s' hfault => hearly fault s' hfault.1
        · exact fun packed s' hpacked => hrun g _ packed s' hresolve hpacked.1

/-- What the source and the decoder preserve is preserved by the decode, however it ends. -/
theorem decodeFolder_keeps {source : Source σ} {inv : σ → Prop} {s : σ} (decoder : Decoder σ)
    (config : Config) (hsource : ∀ offset length s, inv s → inv (source.read offset length s).2)
    (hdecoder : ∀ c inputs expected s, inv s → inv (decoder c inputs expected s).2) (hinv : inv s) :
    Ensures (decodeFolder a m source decoder config k) s (fun _ => inv) (fun _ => inv) := by
  unfold decodeFolder
  cases hk : a.folders[k]? with
  | none =>
    unfold decodeFolderBy
    rw [hk]
    exact Ensures.throw hinv
  | some f =>
    refine decodeFolderBy_ensures hk hsource hinv (fun _ _ h => h) ?_
    intro g unpackLength packed s' hresolve hinv'
    obtain ⟨hf, hg⟩ := (FolderGraph.resolve_decides f).holds hresolve
    let job : FolderJob := { index := k, folder := f, graph := g, unpackLength }
    -- a decoder that keeps the state keeps it in every call
    have hkept : FolderJob.Invariant job packed (FolderJob.runBy k decoder) (fun _ => inv)
        (fun _ _ => inv) := by
      refine ⟨fun h _ _ => h, fun _ _ _ _ _ _ h => h, fun h _ _ => h, ?_⟩
      intro slots t index c inputs output h hcall
      have hrun : Ensures (FolderJob.runBy k decoder index c inputs (job.knownSize output)) t
          (fun _ => inv) (fun _ => inv) := by
        refine FolderJob.runBy_ensures ?_ ?_
        · intro bytes t' hanswer
          have hstate := hdecoder c inputs (job.knownSize output) t h
          rwa [hanswer] at hstate
        · intro fault t' hanswer
          have hstate := hdecoder c inputs (job.knownSize output) t h
          rwa [hanswer] at hstate
      exact FolderJob.runChecked_ensures hf hcall.hasOutput.lt_totalOutputs hrun
        (fun _ _ h _ => h) fun _ _ _ _ h _ => h
    refine (hkept.run hf hg hinv').mono ?_ ?_
    · rintro bytes t ⟨slots, output, h, -⟩
      exact h
    · rintro fault t (h | ⟨slots, output, h, -⟩)
      · exact h
      · exact h

/-- The record of a decode, however it ends. -/
theorem decodeFolderLogged_ensures (source : Source σ) (decoder : Decoder σ) (config : Config)
    (hk : a.folders[k]? = some f) (s : σ) :
    Ensures (decodeFolderLogged a m source decoder config k) (s, [])
      (fun _ t => (Orderly f t.2 ∧ Truthful decoder t.2) ∧
        (t.2.map CoderCall.index).Perm (List.range f.coders.length) ∧
        ∃ last output, t.2.getLast? = some last ∧ f.UnboundOutput output ∧
          f.HasOutput last.index output)
      (fun _ t => Orderly f t.2 ∧ Truthful decoder t.2) := by
  -- reading the pack streams leaves the log empty
  have hsource : ∀ offset length (t : σ × List CoderCall), t.2 = [] →
      (source.unlogged.read offset length t).2.2 = [] := fun _ _ _ h => h
  refine decodeFolderBy_ensures hk hsource rfl ?_ ?_
  · intro fault t hnone
    rw [hnone]
    exact ⟨Orderly.nil f, fun call hcall => nomatch hcall⟩
  · intro g unpackLength packed t hresolve hnone
    obtain ⟨hf, hg⟩ := (FolderGraph.resolve_decides f).holds hresolve
    let job : FolderJob := { index := k, folder := f, graph := g, unpackLength }
    have hinv : FolderJob.Invariant job packed (FolderJob.runLogged k decoder) _ _ :=
      FolderJob.books_invariant hf packed decoder
    have hstart : FolderJob.Books f (List.replicate f.totalOutputs none) t.2 ∧
        Truthful decoder t.2 := by
      rw [hnone]
      exact ⟨FolderJob.Books.start f _, fun call hcall => nomatch hcall⟩
    refine (hinv.run hf hg hstart).mono ?_ ?_
    · rintro bytes t' ⟨slots, output, ⟨hbooks, htrue⟩, hslot, -⟩
      -- the final output is there, so every coder has been called
      have houtput := (hg.finalOutput _).mpr rfl
      obtain ⟨hall, last, hlast, hout, -⟩ := hbooks.complete hf houtput hslot
      exact ⟨⟨hbooks.toOrderly, htrue⟩, hall, last, _, hlast, houtput, hout⟩
    · rintro fault t' (hbad | ⟨slots, output, ⟨hbooks, htrue⟩, -⟩)
      · exact ⟨hbad.1, hbad.2.1⟩
      · exact ⟨hbooks.toOrderly, htrue⟩

/-- **The calls of a decode.** Every coder is run once at most, and only when all that feed it have
given their output; if the decode succeeds, every coder of the folder has been run, the one of the
final output last. This is so whatever the decoder and the source do. A coder with several outputs
is never run, so a folder that has one, wherever in the graph, does not decode. -/
theorem decodeFolder_calls (source : Source σ) (decoder : Decoder σ) (config : Config)
    (hk : a.folders[k]? = some f) (s : σ) :
    let run := (decodeFolderLogged a m source decoder config k).run (s, [])
    let calls := run.2.2
    (decodeFolder a m source decoder config k).run s = (run.1, run.2.1) ∧
      (∀ call ∈ calls, f.coders[call.index]? = some call.coder ∧
        ∃ t, (decoder call.coder call.inputs call.expected t).1 = call.answer) ∧
      (calls.map CoderCall.index).Nodup ∧
      (∀ before call, before ++ [call] <+: calls → ∀ feeder, f.Feeds feeder call.index →
        ∃ earlier ∈ before, earlier.index = feeder ∧ ∃ bytes, earlier.answer = .ok bytes) ∧
      (∀ bytes, run.1 = .ok bytes →
        (calls.map CoderCall.index).Perm (List.range f.coders.length) ∧
          ∃ last output, calls.getLast? = some last ∧ f.UnboundOutput output ∧
            f.HasOutput last.index output) ∧
      ((∃ c ∈ f.coders, c.outputs ≠ 1) → ∀ bytes, run.1 ≠ .ok bytes) := by
  intro run calls
  have hensures := decodeFolderLogged_ensures (m := m) source decoder config hk s
  have hrecord : Orderly f calls ∧ Truthful decoder calls := by
    cases hend : run.1 with
    | ok bytes => exact (hensures.ok hend).1
    | error fault => exact hensures.error hend
  obtain ⟨horderly, htrue⟩ := hrecord
  refine ⟨(decodeFolderLogged_lowers a m source decoder config k (s, [])).symm,
    fun call hcall => ⟨horderly.coder call hcall, htrue call hcall⟩,
    horderly.once, horderly.inOrder, ?_, ?_⟩
  · exact fun bytes hok => (hensures.ok hok).2
  · -- a coder with several outputs would have been called
    rintro ⟨c, hc, hseveral⟩ bytes hok
    obtain ⟨index, hindex⟩ := List.mem_iff_getElem?.mp hc
    obtain ⟨-, hall, -⟩ := hensures.ok hok
    have hmem : index ∈ calls.map CoderCall.index :=
      hall.mem_iff.mpr (List.mem_range.mpr (List.getElem?_eq_some_iff.mp hindex).1)
    obtain ⟨call, hcall, rfl⟩ := List.mem_map.mp hmem
    have hcoder := horderly.coder call hcall
    rw [hindex] at hcoder
    obtain rfl := Option.some.inj hcoder
    exact hseveral (horderly.single call hcall)

/-- A coder that is fed by the one behind it, and a decoder that gives up after two calls. -/
theorem decodeFolder_calls_two_coders :
    let f : Folder :=
      { coders := [{ methodId := [3], inputs := 2 }, { methodId := [9] }]
        bindPairs := [{ input := 0, output := 1 }]
        packedStreams := [2, 1], unpackSizes := [5, 3] }
    let a : Archive :=
      { packPosition := 1, packSizes := [2, 1], folders := [f], entries := [{ name := "a" }] }
    let decoder : Decoder Nat := fun c inputs _ n =>
      (if n < 2 then .ok (c.methodId ++ inputs.flatten) else .error (.foreign ⟨0⟩), n + 1)
    ∃ m, StreamMap.derive a = .ok m ∧ a.folders[0]? = some f ∧
      let run := (decodeFolderLogged a m (.ofBytes [0, 20, 21, 22]) decoder {} 0).run (0, [])
      run.1 = .ok [3, 9, 20, 21, 22] ∧ run.2.2.map CoderCall.index = [1, 0] ∧
        (run.2.2.map CoderCall.index).Perm (List.range f.coders.length) := by
  intro f a decoder
  refine ⟨_, rfl, rfl, rfl, rfl, ?_⟩
  exact ((decodeFolder_calls (a := a) (k := 0) (f := f) (.ofBytes [0, 20, 21, 22]) decoder {}
    rfl 0).2.2.2.2.1 _ rfl).1

end Decode

end SolidArchive
