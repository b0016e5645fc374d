import SolidArchive.Proofs.Folder.Meaning

/-!
# How deep the recursions go

Two recursions follow the bind pairs of a folder: the walk that looks for cycles, and the evaluation
of an output. Both definitions are given a depth to go by. Here they are compared with the
recursions that have none.

* `FolderGraph.Walk` is the walk as a relation, which says what each call does and keeps two things
  for the record: the coders that are put under way, and how deep the calls are nested. There is
  such a walk from any marks (`Walk.exists_of_lt`), whether or not it runs into a cycle, and only
  one (`Walk.unique`). What bounds it is the number of unvisited coders, since a call that goes
  further down has just made it smaller (`Walk.depth_le`).
* `FolderJob.evaluateOnce` is a single call of the evaluation, with another function for the calls
  that it makes. In a folder without cycles the calls go to coders with less upstream of them, so
  that a tower of as many calls as there are coders never gets to its base
  (`FolderJob.iterate_evaluateOnce`).
-/

namespace SolidArchive

namespace FolderGraph

variable {f : Folder} {g : FolderGraph} {coder depth depth' : Nat} {marks marks' : List Mark}
  {coders entered entered' : List Nat} {result result' : Except GraphFault (List Mark)}

/-! ### The walk without a depth -/

/-- Visiting coders one after another, from given marks. The `entered` ones are those that are put
under way, in this order, and `depth` is the number of calls that are nested at most. -/
inductive Walk (f : Folder) (g : FolderGraph) :
    (marks : List Mark) → (coders : List Nat) → (result : Except GraphFault (List Mark)) →
      (entered : List Nat) → (depth : Nat) → Prop where
  | nil {marks : List Mark} : Walk f g marks [] (.ok marks) [] 0
  /-- A coder that is done is left at once. -/
  | done {marks : List Mark} {coder depth : Nat} {coders entered : List Nat}
    {result : Except GraphFault (List Mark)} (hmark : marks[coder]? = some Mark.done)
    (hrest : Walk f g marks coders result entered depth) :
    Walk f g marks (coder :: coders) result entered (max 1 depth)
  /-- A coder that is under way closes a cycle. -/
  | cycle {marks : List Mark} {coder : Nat} {coders : List Nat}
    (hmark : marks[coder]? = some Mark.underWay) :
    Walk f g marks (coder :: coders) (.error (.cycle coder)) [] 1
  /-- An unvisited coder is under way until all that feeds it is done. -/
  | enter {marks marks' : List Mark} {coder depth depth' : Nat}
    {coders above entered entered' : List Nat} {result : Except GraphFault (List Mark)}
    (hmark : marks[coder]? = some Mark.unvisited) (habove : feeders f g coder = .ok above)
    (hinner : Walk f g (marks.set coder .underWay) above (.ok marks') entered depth)
    (hrest : Walk f g (marks'.set coder .done) coders result entered' depth') :
    Walk f g marks (coder :: coders) result (coder :: entered ++ entered')
      (max (depth + 1) depth')
  /-- A cycle that is met above a coder ends the walk. -/
  | fail {marks : List Mark} {coder depth : Nat} {coders above entered : List Nat}
    {fault : GraphFault} (hmark : marks[coder]? = some Mark.unvisited)
    (habove : feeders f g coder = .ok above)
    (hinner : Walk f g (marks.set coder .underWay) above (.error fault) entered depth) :
    Walk f g marks (coder :: coders) (.error fault) (coder :: entered) (depth + 1)

/-- A coder that is marked otherwise is no longer among the unvisited ones. -/
theorem unvisited_set_iff {mark : Mark} (hmark : mark ≠ .unvisited) {c : Nat} :
    (marks.set coder mark)[c]? = some Mark.unvisited ↔
      marks[c]? = some Mark.unvisited ∧ c ≠ coder := by
  by_cases hc : coder = c
  · subst hc
    rw [List.getElem?_set_self']
    cases marks[coder]? <;> simp [hmark]
  · rw [List.getElem?_set_ne hc]
    simp [Ne.symm hc]

/-- What is done with an unvisited coder. -/
theorem visit_of_unvisited (hmark : marks[coder]? = some Mark.unvisited) {above : List Nat}
    (habove : feeders f g coder = .ok above) (fuel : Nat) :
    visit f g (fuel + 1) marks coder =
      above.foldlM (visit f g fuel) (marks.set coder .underWay) >>= fun marks =>
        pure (marks.set coder .done) := by
  rw [visit, Breach.lookup_eq hmark, habove]
  rfl

namespace Walk

/-! ### What is put under way -/

/-- **What a walk does to the marks.** The unvisited coders are afterwards those that it has not
put under way. -/
theorem unvisited_iff (h : Walk f g marks coders result entered depth) (hok : result = .ok marks')
    (c : Nat) :
    marks'[c]? = some Mark.unvisited ↔ marks[c]? = some Mark.unvisited ∧ c ∉ entered := by
  induction h generalizing marks' with
  | nil =>
    cases hok
    simp
  | done _ _ ih => exact ih hok
  | cycle _ => cases hok
  | enter _ _ _ _ ihinner ihrest =>
    rw [ihrest hok, unvisited_set_iff (by simp), ihinner rfl, unvisited_set_iff (by simp)]
    simp only [List.cons_append, List.mem_cons, List.mem_append, not_or]
    tauto
  | fail _ _ _ _ => cases hok

/-- What is put under way was unvisited. -/
theorem fresh (h : Walk f g marks coders result entered depth) :
    ∀ c ∈ entered, marks[c]? = some Mark.unvisited := by
  induction h with
  | nil => simp
  | done _ _ ih => exact ih
  | cycle _ => simp
  | enter hmark _ hinner _ ihinner ihrest =>
    intro c hc
    rw [List.cons_append, List.mem_cons, List.mem_append] at hc
    rcases hc with rfl | hc | hc
    · exact hmark
    · exact ((unvisited_set_iff (by simp)).mp (ihinner c hc)).1
    · -- unvisited after the inner walk, so before it, too
      have hafter := ((unvisited_set_iff (by simp)).mp (ihrest c hc)).1
      have hbefore := ((hinner.unvisited_iff rfl c).mp hafter).1
      exact ((unvisited_set_iff (by simp)).mp hbefore).1
  | fail hmark _ _ ih =>
    intro c hc
    rcases List.mem_cons.mp hc with rfl | hc
    · exact hmark
    · exact ((unvisited_set_iff (by simp)).mp (ih c hc)).1

/-- **No coder is put under way twice.** -/
theorem nodup (h : Walk f g marks coders result entered depth) : entered.Nodup := by
  induction h with
  | nil => exact List.nodup_nil
  | done _ _ ih => exact ih
  | cycle _ => exact List.nodup_nil
  | @enter _ _ coder _ _ _ _ inner outer _ _ _ hinner hrest ihinner ihrest =>
    have hself : coder ∉ inner := fun hc =>
      ((unvisited_set_iff (by simp)).mp (hinner.fresh coder hc)).2 rfl
    have hself' : coder ∉ outer := fun hc =>
      ((unvisited_set_iff (by simp)).mp (hrest.fresh coder hc)).2 rfl
    -- what the inner walk has put under way is not unvisited for the rest
    have hapart : inner.Disjoint outer := by
      intro c hc hc'
      have hafter := ((unvisited_set_iff (by simp)).mp (hrest.fresh c hc')).1
      exact ((hinner.unvisited_iff rfl c).mp hafter).2 hc
    rw [List.cons_append, List.nodup_cons, List.mem_append, List.nodup_append']
    exact ⟨fun hc => hc.elim hself hself', ihinner, ihrest, hapart⟩
  | fail _ _ hinner ih =>
    rw [List.nodup_cons]
    exact ⟨fun hc => ((unvisited_set_iff (by simp)).mp (hinner.fresh _ hc)).2 rfl, ih⟩

/-! ### How deep the calls are nested -/

/-- A walk leaves no more coders unvisited than there were. -/
theorem count_le (h : Walk f g marks coders result entered depth) (hok : result = .ok marks') :
    marks'.count .unvisited ≤ marks.count .unvisited := by
  induction h generalizing marks' with
  | nil =>
    cases hok
    exact le_rfl
  | done _ _ ih => exact ih hok
  | cycle _ => cases hok
  | @enter marks inner coder _ _ _ _ _ _ _ hmark _ _ _ ihinner ihrest =>
    calc marks'.count .unvisited
        ≤ (inner.set coder .done).count .unvisited := ihrest hok
      _ ≤ inner.count .unvisited := count_unvisited_set_le (by simp)
      _ ≤ (marks.set coder .underWay).count .unvisited := ihinner rfl
      _ ≤ marks.count .unvisited := count_unvisited_set_le (by simp)
  | fail _ _ _ _ => cases hok

/-- **Calls are nested no deeper than there are unvisited coders, and one more.** Every call but the
last has put a coder under way before it goes on. -/
theorem depth_le (h : Walk f g marks coders result entered depth) :
    depth ≤ marks.count .unvisited + 1 := by
  induction h with
  | nil => exact Nat.zero_le _
  | done _ _ ih => exact max_le (Nat.le_add_left 1 _) ih
  | cycle _ => exact Nat.le_add_left 1 _
  | @enter marks inner coder _ _ _ _ _ _ _ hmark _ hinner _ ihinner ihrest =>
    -- a coder that is entered is not unvisited any more, and none becomes so again
    have hless : (marks.set coder .underWay).count .unvisited < marks.count .unvisited :=
      count_unvisited_set_lt (by simp) hmark
    have hdone : (inner.set coder .done).count .unvisited ≤ inner.count .unvisited :=
      count_unvisited_set_le (by simp)
    have hcount := hinner.count_le rfl
    omega
  | @fail marks coder _ _ _ _ _ hmark _ _ ih =>
    have hless : (marks.set coder .underWay).count .unvisited < marks.count .unvisited :=
      count_unvisited_set_lt (by simp) hmark
    omega

/-! ### The walk that the definition makes -/

/-- **The definition makes the walk.** With a depth that lasts for the nested calls, visiting the
coders ends as the walk does. -/
theorem foldlM_eq (h : Walk f g marks coders result entered depth) {fuel : Nat}
    (hfuel : depth ≤ fuel) : coders.foldlM (visit f g fuel) marks = result := by
  induction h generalizing fuel with
  | nil => rfl
  | done hmark _ ih =>
    -- any call takes one of the depth
    obtain ⟨fuel, rfl⟩ : ∃ k, fuel = k + 1 := ⟨fuel - 1, by omega⟩
    rw [List.foldlM_cons, visit, Breach.lookup_eq hmark]
    exact ih (le_of_max_le_right hfuel)
  | cycle hmark =>
    obtain ⟨fuel, rfl⟩ : ∃ k, fuel = k + 1 := ⟨fuel - 1, by omega⟩
    rw [List.foldlM_cons, visit, Breach.lookup_eq hmark]
    rfl
  | enter hmark habove _ _ ihinner ihrest =>
    obtain ⟨fuel, rfl⟩ : ∃ k, fuel = k + 1 := ⟨fuel - 1, by omega⟩
    rw [List.foldlM_cons, visit_of_unvisited hmark habove, ihinner (by omega)]
    exact ihrest (le_of_max_le_right hfuel)
  | fail hmark habove _ ih =>
    obtain ⟨fuel, rfl⟩ : ∃ k, fuel = k + 1 := ⟨fuel - 1, by omega⟩
    rw [List.foldlM_cons, visit_of_unvisited hmark habove, ih (by omega)]
    rfl

/-- There is one walk: the mark of the next coder decides what is done with it. -/
theorem unique (h : Walk f g marks coders result entered depth)
    (h' : Walk f g marks coders result' entered' depth') :
    result = result' ∧ entered = entered' ∧ depth = depth' := by
  induction h generalizing result' entered' depth' with
  | nil =>
    cases h'
    exact ⟨rfl, rfl, rfl⟩
  | done hmark _ ih =>
    cases h' with
    | done _ hrest =>
      obtain ⟨rfl, rfl, rfl⟩ := ih hrest
      exact ⟨rfl, rfl, rfl⟩
    | cycle hmark' | enter hmark' | fail hmark' => simp [hmark] at hmark'
  | cycle hmark =>
    cases h' with
    | cycle => exact ⟨rfl, rfl, rfl⟩
    | done hmark' | enter hmark' | fail hmark' => simp [hmark] at hmark'
  | enter hmark habove _ _ ihinner ihrest =>
    cases h' with
    | enter _ habove' hinner' hrest' =>
      obtain rfl := Except.ok.inj (habove.symm.trans habove')
      obtain ⟨hmarks, rfl, rfl⟩ := ihinner hinner'
      obtain rfl := Except.ok.inj hmarks
      obtain ⟨rfl, rfl, rfl⟩ := ihrest hrest'
      exact ⟨rfl, rfl, rfl⟩
    | fail _ habove' hinner' =>
      -- the calls above the coder cannot both end well and fail
      obtain rfl := Except.ok.inj (habove.symm.trans habove')
      cases (ihinner hinner').1
    | done hmark' | cycle hmark' => simp [hmark] at hmark'
  | fail hmark habove _ ih =>
    cases h' with
    | enter _ habove' hinner' _ =>
      obtain rfl := Except.ok.inj (habove.symm.trans habove')
      cases (ih hinner').1
    | fail _ habove' hinner' =>
      obtain rfl := Except.ok.inj (habove.symm.trans habove')
      obtain ⟨hfault, rfl, rfl⟩ := ih hinner'
      exact ⟨hfault, rfl, rfl⟩
    | done hmark' | cycle hmark' => simp [hmark] at hmark'

/-- A walk keeps the number of marks. -/
theorem length_eq (h : Walk f g marks coders result entered depth) (hok : result = .ok marks') :
    marks'.length = marks.length := by
  induction h generalizing marks' with
  | nil =>
    cases hok
    rfl
  | done _ _ ih => exact ih hok
  | cycle _ => cases hok
  | enter _ _ _ _ ihinner ihrest =>
    rw [ihrest hok, List.length_set, ihinner rfl, List.length_set]
  | fail _ _ _ _ => cases hok

/-- **The walk ends.** There is one from any marks, whether or not it meets a cycle. -/
theorem exists_of_lt (hn : g.Numbers f) (hb : f.BindsOnce)
    (hlength : marks.length = f.coders.length)
    (hcoders : ∀ coder ∈ coders, coder < f.coders.length) :
    ∃ result entered depth, Walk f g marks coders result entered depth := by
  -- entering a coder leaves fewer unvisited ones, and passing one fewer to be visited
  induction hm : marks.count .unvisited using Nat.strong_induction_on generalizing marks coders with
  | _ m ih =>
    induction coders with
    | nil => exact ⟨_, _, _, .nil⟩
    | cons coder coders ihcoders =>
      rw [List.forall_mem_cons] at hcoders
      obtain ⟨hcoder, htail⟩ := hcoders
      have hlt : coder < marks.length := hlength ▸ hcoder
      have hget : marks[coder]? = some marks[coder] := List.getElem?_eq_getElem hlt
      cases hmark : marks[coder] with
      | done =>
        rw [hmark] at hget
        obtain ⟨_, _, _, hrest⟩ := ihcoders htail
        exact ⟨_, _, _, .done hget hrest⟩
      | underWay =>
        rw [hmark] at hget
        exact ⟨_, _, _, .cycle hget⟩
      | unvisited =>
        rw [hmark] at hget
        have hless : (marks.set coder .underWay).count .unvisited < m :=
          hm ▸ count_unvisited_set_lt (by simp) hget
        obtain ⟨above, habove, hmem⟩ := hn.feeders_eq hb hcoder
        have habove_lt : ∀ c ∈ above, c < f.coders.length := fun c hc =>
          ((hmem c).mp hc).feeder_lt
        obtain ⟨inner, _, _, hinner⟩ :=
          ih _ hless (by rw [List.length_set, hlength]) habove_lt rfl
        cases inner with
        | error fault => exact ⟨_, _, _, .fail hget habove hinner⟩
        | ok marks' =>
          have hdone : (marks'.set coder .done).count .unvisited < m :=
            calc (marks'.set coder .done).count .unvisited
                ≤ marks'.count .unvisited := count_unvisited_set_le (by simp)
              _ ≤ (marks.set coder .underWay).count .unvisited := hinner.count_le rfl
              _ < m := hless
          have hlength' : (marks'.set coder .done).length = f.coders.length := by
            rw [List.length_set, hinner.length_eq rfl, List.length_set, hlength]
          obtain ⟨_, _, _, hrest⟩ := ih _ hdone hlength' htail rfl
          exact ⟨_, _, _, .enter hget habove hinner hrest⟩

end Walk

end FolderGraph

namespace FolderJob

variable {σ : Type} {job : FolderJob} {runCoder : CoderRun σ} {packed : List Bytes}
  {index input output : Nat} {c : Coder} {feed feed' : Nat → EvalM σ Bytes}

/-! ### The evaluation without a depth -/

/-- A single call of the evaluation, with `feed` in the place of the calls that it makes. -/
def evaluateOnce (job : FolderJob) (runCoder : CoderRun σ) (packed : List Bytes)
    (feed : Nat → EvalM σ Bytes) (output : Nat) : EvalM σ Bytes := do
  match ← lift job.index (Breach.lookup .breach (← get) output) with
  | some bytes => pure bytes
  | none =>
    let bytes ← job.produce runCoder packed feed output
    modify fun slots : List (Option Bytes) => slots.set output (some bytes)
    pure bytes

theorem evaluate_succ (depth output : Nat) :
    job.evaluate runCoder packed (depth + 1) output =
      job.evaluateOnce runCoder packed (job.evaluate runCoder packed depth) output := rfl

/-- Evaluating with a depth is a tower of as many calls. -/
theorem evaluate_eq_iterate (depth : Nat) :
    job.evaluate runCoder packed depth =
      (job.evaluateOnce runCoder packed)^[depth] fun _ => fail job.index (.breach .depth) := by
  induction depth with
  | zero => rfl
  | succ depth ih =>
    funext output
    rw [Function.iterate_succ_apply', evaluate_succ, ih]

section Depth

variable (hf : job.folder.IsCoderGraph) (hg : job.graph.Describes job.folder)

include hf in
theorem inputBytes_congr (hin : job.folder.HasInput index input)
    (hfeed : ∀ feeder o, job.folder.Feeds feeder index → job.folder.HasOutput feeder o →
      feed o = feed' o) :
    job.inputBytes packed feed input = job.inputBytes packed feed' input := by
  unfold inputBytes
  split
  · next o hbound =>
    obtain ⟨feeder, hout, hfeeds⟩ := hf.bindsOnce.feeds_of_boundOutput? hin hbound
    exact hfeed feeder o hfeeds hout
  · rfl

include hf hg in
/-- A call asks only for outputs that feed its coder. -/
theorem evaluateOnce_congr (howns : Owns job.folder index c output)
    (hfeed : ∀ feeder o, job.folder.Feeds feeder index → job.folder.HasOutput feeder o →
      feed o = feed' o) :
    job.evaluateOnce runCoder packed feed output =
      job.evaluateOnce runCoder packed feed' output := by
  have hstart := hg.getElem?_inputStarts (List.getElem?_eq_some_iff.mp howns.coder).1
  -- an input is asked of a coder that feeds this one, or not asked at all
  have hinputs : ((List.range c.inputs.toNat).mapM fun i =>
        job.inputBytes packed feed (runStart job.folder.inputCounts index + i)) =
      (List.range c.inputs.toNat).mapM fun i =>
        job.inputBytes packed feed' (runStart job.folder.inputCounts index + i) := by
    apply mapM_congr
    intro i hi
    have hin : job.folder.HasInput index (runStart job.folder.inputCounts index + i) :=
      (Folder.hasInput_iff howns.coder).mpr ⟨i, List.mem_range.mp hi, rfl⟩
    exact inputBytes_congr hf hin hfeed
  have hproduce : job.produce runCoder packed feed output =
      job.produce runCoder packed feed' output := by
    unfold produce
    simp only [hg.coderOfOutput_eq howns.hasOutput, lift_lookup howns.coder, lift_lookup hstart,
      pure_bind, hinputs]
  rw [evaluateOnce, evaluateOnce, hproduce]

include hf hg in
/-- **The base of a tower of calls is out of reach.** Every call goes to coders with less upstream
of them, so it makes no difference what a tower stands on if it has more calls than there are coders
upstream. -/
theorem iterate_evaluateOnce {depth depth' : Nat} (hout : job.folder.HasOutput index output)
    (hdepth : (job.folder.upstream index).card < depth)
    (hdepth' : (job.folder.upstream index).card < depth') :
    (job.evaluateOnce runCoder packed)^[depth] feed output =
      (job.evaluateOnce runCoder packed)^[depth'] feed' output := by
  induction depth generalizing depth' index output with
  | zero => exact absurd hdepth (Nat.not_lt_zero _)
  | succ depth ih =>
    obtain ⟨depth', rfl⟩ : ∃ d, depth' = d + 1 := ⟨depth' - 1, by omega⟩
    rw [Function.iterate_succ_apply', Function.iterate_succ_apply']
    have hlt := hout.coder_lt
    apply evaluateOnce_congr hf hg ⟨List.getElem?_eq_getElem hlt, hout⟩
    intro feeder o hfeeds hout'
    have hless := hf.acyclic.card_upstream_lt hfeeds
    exact ih hout' (by omega) (by omega)

include hf hg in
/-- As many calls as there are coders are enough. -/
theorem iterate_evaluateOnce_eq (hout : output < job.folder.totalOutputs) :
    (job.evaluateOnce runCoder packed)^[job.folder.coders.length] feed output =
      job.evaluate runCoder packed job.folder.coders.length output := by
  obtain ⟨index, hout⟩ := Folder.exists_hasOutput hout
  have hcard := hf.acyclic.card_upstream_lt_length hout.coder_lt
  rw [evaluate_eq_iterate]
  exact iterate_evaluateOnce hf hg hout hcard hcard

include hf hg in
/-- **The recursion has one solution**, the evaluation with as much depth as there are coders. -/
theorem eq_evaluateOnce_iff {eval : Nat → EvalM σ Bytes} :
    (∀ output < job.folder.totalOutputs,
        eval output = job.evaluateOnce runCoder packed eval output) ↔
      ∀ output < job.folder.totalOutputs,
        eval output = job.evaluate runCoder packed job.folder.coders.length output := by
  constructor
  · intro heval
    -- a solution is the same as a tower of any height on itself
    have htower : ∀ depth, ∀ output < job.folder.totalOutputs,
        eval output = (job.evaluateOnce runCoder packed)^[depth] eval output := by
      intro depth
      induction depth with
      | zero => exact fun _ _ => rfl
      | succ depth ih =>
        intro output hout
        obtain ⟨index, c, howns⟩ := exists_owns hout
        rw [Function.iterate_succ_apply', heval output hout]
        apply evaluateOnce_congr hf hg howns
        intro feeder o _ hout'
        exact ih o hout'.lt_totalOutputs
    intro output hout
    rw [htower job.folder.coders.length output hout, iterate_evaluateOnce_eq hf hg hout]
  · intro heval output hout
    obtain ⟨index, c, howns⟩ := exists_owns hout
    have hcard := hf.acyclic.card_upstream_lt_length howns.hasOutput.coder_lt
    calc eval output
        = job.evaluate runCoder packed job.folder.coders.length output := heval output hout
      _ = job.evaluate runCoder packed (job.folder.coders.length + 1) output := by
          rw [evaluate_eq_iterate, evaluate_eq_iterate]
          exact iterate_evaluateOnce hf hg howns.hasOutput hcard (by omega)
      _ = job.evaluateOnce runCoder packed
            (job.evaluate runCoder packed job.folder.coders.length) output := evaluate_succ _ _
      _ = job.evaluateOnce runCoder packed eval output := by
          apply evaluateOnce_congr hf hg howns
          intro feeder o _ hout'
          exact (heval o hout'.lt_totalOutputs).symm

end Depth

end FolderJob

namespace Folder

open FolderGraph FolderJob

/-- **The recursions are bounded by the number of coders.** Once the streams of a folder are laid
out, there is one walk over its coders, which is what the resolver makes, with a cycle or without:
no coder is put under way twice, and no more calls are nested than there are coders, and one more.
For a folder that is accepted, the evaluation of any of its outputs, with any coders, is the one
solution of its recursion, and is made in calls nested no deeper than there are coders, which are 64
at most: it makes no difference what calls further down would do. -/
theorem nests_within_coders (f : Folder) :
    (∀ g, layOut f = .ok g →
      ∃ result entered depth,
        Walk f g (List.replicate f.coders.length .unvisited) (List.range f.coders.length)
          result entered depth ∧
        (∀ result' entered' depth', Walk f g (List.replicate f.coders.length .unvisited)
            (List.range f.coders.length) result' entered' depth' →
          result' = result ∧ entered' = entered ∧ depth' = depth) ∧
        resolve f = result.map (fun _ => g) ∧
        entered.Nodup ∧ depth ≤ f.coders.length + 1) ∧
    ∀ g, resolve f = .ok g → f.coders.length ≤ 64 ∧
      ∀ (σ : Type) (runCoder : CoderRun σ) (packed : List Bytes) (job : FolderJob),
        job.folder = f → job.graph = g →
        (∀ eval : Nat → EvalM σ Bytes,
          (∀ output < f.totalOutputs,
            eval output = job.evaluateOnce runCoder packed eval output) ↔
          ∀ output < f.totalOutputs,
            eval output = job.evaluate runCoder packed f.coders.length output) ∧
        ∀ (beyond : Nat → EvalM σ Bytes), ∀ output < f.totalOutputs,
          (job.evaluateOnce runCoder packed)^[f.coders.length] beyond output =
            job.evaluate runCoder packed f.coders.length output := by
  refine ⟨?_, ?_⟩
  · intro g hg
    obtain ⟨⟨-, hbinds, -⟩, hdescribes⟩ := (layOut_decides f).holds hg
    have hmarks : (List.replicate f.coders.length Mark.unvisited).length = f.coders.length :=
      List.length_replicate
    obtain ⟨result, entered, depth, hwalk⟩ := Walk.exists_of_lt hdescribes.toNumbers hbinds hmarks
      (fun coder hc => List.mem_range.mp hc)
    have hdepth : depth ≤ f.coders.length + 1 := by
      have hle := hwalk.depth_le
      rwa [List.count_replicate_self] at hle
    -- the depth that the resolver gives lasts for the walk
    have hcheck : checkAcyclic f g = result.map fun _ => () := by
      rw [checkAcyclic, hwalk.foldlM_eq hdepth]
      cases result <;> rfl
    have hresolve : resolve f = result.map fun _ => g := by
      rw [resolve_eq, hg]
      show (checkAcyclic f g >>= fun _ => pure g) = _
      rw [hcheck]
      cases result <;> rfl
    exact ⟨result, entered, depth, hwalk, fun _ _ _ h => h.unique hwalk, hresolve, hwalk.nodup,
      hdepth⟩
  · intro g hg
    obtain ⟨hf, hdescribes⟩ := (resolve_decides f).holds hg
    refine ⟨hf.coders.2, ?_⟩
    rintro σ runCoder packed job rfl rfl
    exact ⟨fun eval => eq_evaluateOnce_iff hf hdescribes,
      fun beyond output hout => iterate_evaluateOnce_eq hf hdescribes hout⟩

/-- Two coders that feed each other are met by the walk and refused, and a chain of two is evaluated
in two calls, whatever a third one would do. -/
theorem nests_within_coders_cycle_and_chain :
    (let f : Folder :=
        { coders := [{ methodId := [0] }, { methodId := [1] }, { methodId := [2] }]
          bindPairs := [{ input := 0, output := 1 }, { input := 1, output := 0 }] }
      ∃ g entered depth, layOut f = .ok g ∧
        Walk f g (List.replicate 3 .unvisited) (List.range 3) (.error (.cycle 0)) entered depth ∧
        entered.Nodup ∧ depth ≤ 4) ∧
      let f : Folder :=
        { coders := [{ methodId := [3] }, { methodId := [0] }]
          bindPairs := [{ input := 0, output := 1 }] }
      ∃ g, resolve f = .ok g ∧
        ∀ (σ : Type) (decoder : Decoder σ) (beyond : Nat → EvalM σ Bytes) (packed : List Bytes),
          let job : FolderJob := { index := 0, folder := f, graph := g, unpackLength := 5 }
          job.evaluateOnce (runBy 0 decoder) packed
              (job.evaluateOnce (runBy 0 decoder) packed beyond) 0 =
            job.evaluate (runBy 0 decoder) packed 2 0 := by
  refine ⟨?_, ?_⟩
  · intro f
    have hlaid : layOut f = .ok
        { inputStarts := [0, 1, 2], outputStarts := [0, 1, 2], totalInputs := 3, totalOutputs := 3
          finalOutput := 2, packedInputs := [2] } := by decide
    obtain ⟨result, entered, depth, hwalk, -, hresolve, hnodup, hdepth⟩ :=
      (nests_within_coders f).1 _ hlaid
    -- the walk ends at the cycle that the folder is refused for
    have hcycle : resolve f = .error (.cycle 0) := by decide
    rw [hcycle] at hresolve
    cases result with
    | ok marks => cases hresolve
    | error fault =>
      obtain rfl : GraphFault.cycle 0 = fault := Except.error.inj hresolve
      exact ⟨_, entered, depth, hlaid, hwalk, hnodup, hdepth⟩
  · intro f
    have hresolve : resolve f = .ok
        { inputStarts := [0, 1], outputStarts := [0, 1], totalInputs := 2, totalOutputs := 2
          finalOutput := 0, packedInputs := [1] } := by decide
    refine ⟨_, hresolve, ?_⟩
    intro σ decoder beyond packed job
    obtain ⟨-, hevaluates⟩ := (nests_within_coders f).2 _ hresolve
    exact (hevaluates σ (runBy 0 decoder) packed job rfl rfl).2 beyond 0 (by decide)

end Folder

end SolidArchive
