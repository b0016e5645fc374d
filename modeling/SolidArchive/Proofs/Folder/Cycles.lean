import SolidArchive.Proofs.Folder.Streams
import SolidArchive.Proofs.Verdict

/-!
# The walk finds the cycles

`FolderGraph.checkAcyclic` accepts a folder just when no coder feeds itself, directly or not
(`Numbers.checkAcyclic_decides`). The coders that the walk may finish are those with only finitely
many coders above them, which is accessibility by `Folder.Feeds`; so the statement about one visit
is that it decides whether its coder is accessible (`Numbers.visit_decides`). Two facts about the
marks carry it:

* `Settled` — every coder marked as done is accessible. A coder is marked as done when all that feed
  it are, so the invariant is the introduction rule of accessibility.
* `Ready.feeds` — every coder that is under way is fed by the one to be visited. A visit that
  meets a coder under way therefore has a coder that feeds itself, and this one is not accessible.

The walk is given a depth, and `Ready.depth_lt` says that it does not use it up: every call on the
way down but the last has marked another coder, and `Progress` says that no coder becomes unvisited
again.
-/

namespace SolidArchive

open Relation

namespace Folder

variable {f : Folder} {coder : Nat}

/-! ### Cycles and accessibility -/

/-- No coder feeds itself, directly or not. -/
def Acyclic (f : Folder) : Prop := ∀ coder, ¬TransGen f.Feeds coder coder

theorem not_transGen_self_of_acc {r : Nat → Nat → Prop} {a : Nat} (h : Acc r a) :
    ¬TransGen r a a := by
  have hacc := h.transGen
  clear h
  induction hacc with
  | intro a _ ih => exact fun hcycle => ih a hcycle hcycle

/-- There are finitely many coders, so without a cycle all of them are accessible. -/
theorem Acyclic.wellFounded (h : f.Acyclic) : WellFounded f.Feeds := by
  let above : Fin f.coders.length → Fin f.coders.length → Prop :=
    fun a b => TransGen f.Feeds a b
  have htrans : IsTrans _ above := ⟨fun _ _ _ hab hbc => TransGen.trans hab hbc⟩
  have hirrefl : Std.Irrefl above := ⟨fun a => h a⟩
  have hwf : WellFounded above := Finite.wellFounded_of_trans_of_irrefl above
  -- accessible in the transitive closure among the coders, so too by the single steps
  have hacc : ∀ a : Fin f.coders.length, Acc f.Feeds a := by
    intro a
    induction a using hwf.induction with
    | _ a ih => exact ⟨_, fun b hb => ih ⟨b, hb.feeder_lt⟩ (TransGen.single hb)⟩
  exact ⟨fun a => ⟨_, fun b hb => hacc ⟨b, hb.feeder_lt⟩⟩⟩

theorem acyclic_iff : f.Acyclic ↔ ∀ coder < f.coders.length, Acc f.Feeds coder := by
  refine ⟨?_, ?_⟩
  · intro h coder _
    exact h.wellFounded.apply coder
  · intro h coder hcycle
    have hlt : coder < f.coders.length := by
      cases hcycle with
      | single hfeeds => exact hfeeds.coder_lt
      | tail _ hfeeds => exact hfeeds.coder_lt
    exact not_transGen_self_of_acc (h coder hlt) hcycle

end Folder

namespace FolderGraph

variable {f : Folder} {g : FolderGraph} {coder depth : Nat} {marks marks' marks'' : List Mark}

/-! ### Marks -/

/-- Every coder marked as done is accessible. -/
def Settled (f : Folder) (marks : List Mark) : Prop :=
  ∀ coder : Nat, marks[coder]? = some Mark.done → Acc f.Feeds coder

/-- What a part of the walk may change: unvisited coders may become done. -/
structure Progress (marks marks' : List Mark) : Prop where
  length_eq : marks'.length = marks.length
  done : ∀ coder : Nat, marks[coder]? = some Mark.done → marks'[coder]? = some Mark.done
  underWay_iff : ∀ coder : Nat,
    marks'[coder]? = some Mark.underWay ↔ marks[coder]? = some Mark.underWay
  unvisited_le : marks'.count Mark.unvisited ≤ marks.count Mark.unvisited

theorem Progress.refl (marks : List Mark) : Progress marks marks :=
  ⟨rfl, fun _ h => h, fun _ => Iff.rfl, le_rfl⟩

theorem Progress.trans (h : Progress marks marks') (h' : Progress marks' marks'') :
    Progress marks marks'' where
  length_eq := h'.length_eq.trans h.length_eq
  done := fun coder hd => h'.done coder (h.done coder hd)
  underWay_iff := fun coder => (h'.underWay_iff coder).trans (h.underWay_iff coder)
  unvisited_le := h'.unvisited_le.trans h.unvisited_le

/-- What is known of the marks when a coder is visited. -/
structure Ready (f : Folder) (depth : Nat) (marks : List Mark) (coder : Nat) : Prop where
  length_eq : marks.length = f.coders.length
  coder_lt : coder < f.coders.length
  settled : Settled f marks
  /-- The depth lasts for a call on every unvisited coder, and for one more. -/
  depth_lt : marks.count Mark.unvisited < depth
  /-- Whatever is under way waits for the coder. -/
  feeds : ∀ waiting : Nat, marks[waiting]? = some Mark.underWay → TransGen f.Feeds coder waiting

/-- What a visit has done to the marks. -/
structure Visited (f : Folder) (marks : List Mark) (coders : List Nat) (marks' : List Mark) :
    Prop where
  progress : Progress marks marks'
  settled : Settled f marks'
  done : ∀ coder ∈ coders, marks'[coder]? = some Mark.done

theorem Ready.of_visited {coders : List Nat} (h : Ready f depth marks coder)
    (hv : Visited f marks coders marks') : Ready f depth marks' coder where
  length_eq := hv.progress.length_eq.trans h.length_eq
  coder_lt := h.coder_lt
  settled := hv.settled
  depth_lt := hv.progress.unvisited_le.trans_lt h.depth_lt
  feeds := fun waiting hw => h.feeds waiting ((hv.progress.underWay_iff waiting).mp hw)

/-- Visiting coders one after another decides whether all of them are accessible, if visiting one
decides it of that one. -/
theorem foldlM_decides {visit : List Mark → Nat → Except GraphFault (List Mark)}
    (hvisit : ∀ marks coder, Ready f depth marks coder →
      Decides True (Acc f.Feeds coder) (Visited f marks [coder]) (visit marks coder))
    (coders : List Nat) (settled : Settled f marks)
    (ready : ∀ coder ∈ coders, Ready f depth marks coder) :
    Decides True (∀ coder ∈ coders, Acc f.Feeds coder) (Visited f marks coders)
      (coders.foldlM visit marks) := by
  induction coders generalizing marks with
  | nil =>
    refine Decides.pure (fun coder hc => absurd hc List.not_mem_nil)
      ⟨Progress.refl marks, settled, ?_⟩
    exact fun coder hc => absurd hc List.not_mem_nil
  | cons coder coders ih =>
    -- a visit settles what it has seen, so the next coder may be visited after it
    rw [List.foldlM_cons]
    refine (hvisit marks coder (ready coder List.mem_cons_self)).bind
      (fun hall => hall coder List.mem_cons_self) fun marks' hacc hv => (ih hv.settled ?_).congr
        ⟨fun htail => List.forall_mem_cons.mpr ⟨hacc, htail⟩,
          fun hall => (List.forall_mem_cons.mp hall).2⟩ ?_
    · intro next hnext
      exact (ready next (List.mem_cons_of_mem _ hnext)).of_visited hv
    · intro marks'' _ hv'
      refine ⟨hv.progress.trans hv'.progress, hv'.settled, ?_⟩
      intro visited hmem
      rcases List.mem_cons.mp hmem with rfl | hmem
      · exact hv'.progress.done visited (hv.done visited (List.mem_singleton_self visited))
      · exact hv'.done visited hmem

/-! ### A visit -/

/-- A coder that is marked otherwise does not add to the unvisited ones. -/
theorem count_unvisited_set_le {mark : Mark} (hmark : mark ≠ .unvisited) :
    (marks.set coder mark).count .unvisited ≤ marks.count .unvisited := by
  by_cases hlt : coder < marks.length
  · rw [List.count_set hlt, if_neg (c := (mark == Mark.unvisited) = true) (by simpa using hmark)]
    exact Nat.sub_le _ _
  · rw [List.set_eq_of_length_le (by omega)]

/-- There is one unvisited coder less when it is marked otherwise. -/
theorem count_unvisited_set_lt {mark : Mark} (hmark : mark ≠ .unvisited)
    (hnew : marks[coder]? = some Mark.unvisited) :
    (marks.set coder mark).count .unvisited < marks.count .unvisited := by
  obtain ⟨hlt, hget⟩ := List.getElem?_eq_some_iff.mp hnew
  have hpos : 0 < marks.count Mark.unvisited :=
    List.count_pos_iff.mpr (hget ▸ List.getElem_mem hlt)
  rw [List.count_set hlt, if_neg (c := (mark == Mark.unvisited) = true) (by simpa using hmark),
    hget]
  simp only [beq_self_eq_true, if_true, Nat.add_zero]
  omega

theorem Settled.set_underWay (h : Settled f marks) : Settled f (marks.set coder .underWay) := by
  intro c hc
  by_cases hcoder : coder = c
  · -- the coder is under way and not done
    subst hcoder
    rw [List.getElem?_set_self'] at hc
    cases hmark : marks[coder]? <;> simp [hmark] at hc
  · rw [List.getElem?_set_ne hcoder] at hc
    exact h c hc

/-- Marking a coder as under way makes everything that feeds it ready to be visited. -/
theorem Ready.enter (h : Ready f (depth + 1) marks coder)
    (hnew : marks[coder]? = some Mark.unvisited) {feeder : Nat} (hfeeds : f.Feeds feeder coder) :
    Ready f depth (marks.set coder .underWay) feeder where
  length_eq := by rw [List.length_set, h.length_eq]
  coder_lt := hfeeds.feeder_lt
  settled := h.settled.set_underWay
  depth_lt := by
    -- the coder itself was unvisited and is no more
    have hless : (marks.set coder .underWay).count .unvisited < marks.count .unvisited :=
      count_unvisited_set_lt (by simp) hnew
    have hdepth := h.depth_lt
    omega
  feeds := by
    intro waiting hw
    by_cases hcoder : coder = waiting
    · subst hcoder
      exact TransGen.single hfeeds
    · rw [List.getElem?_set_ne hcoder] at hw
      exact (h.feeds waiting hw).head hfeeds

/-- Marking a coder as done, once all that feeds it is. -/
theorem Visited.leave {feeders : List Nat}
    (h : Visited f (marks.set coder .underWay) feeders marks')
    (hnew : marks[coder]? = some Mark.unvisited) (hacc : Acc f.Feeds coder) :
    Visited f marks [coder] (marks'.set coder .done) := by
  obtain ⟨hlt, hget⟩ := List.getElem?_eq_some_iff.mp hnew
  have hlength : marks'.length = marks.length := by rw [h.progress.length_eq, List.length_set]
  have hself : (marks'.set coder .done)[coder]? = some Mark.done :=
    List.getElem?_set_self (hlength ▸ hlt)
  refine ⟨⟨by rw [List.length_set, hlength], ?_, ?_, ?_⟩, ?_, ?_⟩
  · -- what was done stays done
    intro c hc
    by_cases hcoder : coder = c
    · rw [← hcoder, hself]
    · rw [List.getElem?_set_ne hcoder]
      exact h.progress.done c (by rwa [List.getElem?_set_ne hcoder])
  · -- what waited still waits, and the coder neither did nor does
    intro c
    by_cases hcoder : coder = c
    · subst hcoder
      rw [hself, hnew]
      simp
    · rw [List.getElem?_set_ne hcoder, h.progress.underWay_iff, List.getElem?_set_ne hcoder]
  · calc (marks'.set coder .done).count .unvisited
        ≤ marks'.count .unvisited := count_unvisited_set_le (by simp)
      _ ≤ (marks.set coder .underWay).count .unvisited := h.progress.unvisited_le
      _ ≤ marks.count .unvisited := count_unvisited_set_le (by simp)
  · -- the coder is settled because all that feeds it is
    intro c hc
    by_cases hcoder : coder = c
    · rwa [← hcoder]
    · rw [List.getElem?_set_ne hcoder] at hc
      exact h.settled c hc
  · intro c hc
    rw [List.mem_singleton.mp hc, hself]

namespace Numbers

/-- **A visit decides accessibility.** The walk gets through with a coder just when there is no way
up from it that goes on for ever. -/
theorem visit_decides (h : g.Numbers f) (hb : f.BindsOnce) (ready : Ready f depth marks coder) :
    Decides True (Acc f.Feeds coder) (Visited f marks [coder]) (visit f g depth marks coder) := by
  induction depth generalizing marks coder with
  | zero => exact absurd ready.depth_lt (Nat.not_lt_zero _)
  | succ depth ih =>
    have hlt : coder < marks.length := ready.length_eq ▸ ready.coder_lt
    have hget : marks[coder]? = some marks[coder] := List.getElem?_eq_getElem hlt
    rw [visit]
    refine Decides.step_eq (Decides.lookup hget) ?_
    cases hmark : marks[coder] with
    | done =>
      -- nothing to do, and accessible because the marks are settled
      rw [hmark] at hget
      refine Decides.pure (ready.settled coder hget) ⟨Progress.refl marks, ready.settled, ?_⟩
      intro c hc
      rw [List.mem_singleton.mp hc, hget]
    | underWay =>
      -- the coder waits for itself
      rw [hmark] at hget
      have hcycle := ready.feeds coder hget
      exact Decides.refuse rfl trivial fun hacc => Folder.not_transGen_self_of_acc hacc hcycle
    | unvisited =>
      -- down to all that feed the coder, and then it is done
      rw [hmark] at hget
      obtain ⟨feeders, hfeeders, hmem⟩ := h.feeders_eq hb ready.coder_lt
      have hready : ∀ feeder ∈ feeders, Ready f depth (marks.set coder .underWay) feeder :=
        fun feeder hf => ready.enter hget ((hmem feeder).mp hf)
      have hall : (∀ feeder ∈ feeders, Acc f.Feeds feeder) ↔ Acc f.Feeds coder := by
        refine ⟨?_, ?_⟩
        · exact fun hacc => ⟨_, fun feeder hf => hacc feeder ((hmem feeder).mpr hf)⟩
        · exact fun hacc feeder hf => hacc.inv ((hmem feeder).mp hf)
      have hfold := foldlM_decides (fun _ _ hr => ih hr) feeders ready.settled.set_underWay hready
      simp only [hfeeders]
      exact (hfold.of_iff hall).map fun marks' hacc hv => hv.leave hget hacc

/-- **The walk finds the cycles.** Visiting every coder decides whether none feeds itself. -/
theorem checkAcyclic_decides (h : g.Numbers f) (hb : f.BindsOnce) :
    Decides True f.Acyclic (fun _ => True) (checkAcyclic f g) := by
  have hnew : ∀ {c : Nat} {mark : Mark},
      (List.replicate f.coders.length Mark.unvisited)[c]? = some mark → mark = .unvisited := by
    intro c mark hc
    exact (List.mem_replicate.mp (List.mem_of_getElem? hc)).2
  have hsettled : Settled f (List.replicate f.coders.length .unvisited) :=
    fun c hc => nomatch hnew hc
  have hready : ∀ coder ∈ List.range f.coders.length,
      Ready f (f.coders.length + 1) (List.replicate f.coders.length .unvisited) coder := by
    intro coder hc
    refine ⟨List.length_replicate, List.mem_range.mp hc, hsettled, ?_, ?_⟩
    · rw [List.count_replicate_self]
      exact Nat.lt_succ_self _
    · exact fun c hc => nomatch hnew hc
  -- with nothing visited, one visit after another sees every coder
  have hfold := foldlM_decides (fun _ _ hr => h.visit_decides hb hr)
    (List.range f.coders.length) hsettled hready
  have hall : (∀ coder ∈ List.range f.coders.length, Acc f.Feeds coder) ↔ f.Acyclic := by
    rw [Folder.acyclic_iff]
    simp only [List.mem_range]
  exact (hfold.of_iff hall).map fun _ _ _ => trivial

end Numbers

end FolderGraph

end SolidArchive
