import SolidArchive.Proofs.Reader.Alone
import SolidArchive.Reader.ExtractAll

/-!
# Using a reader

Those who use a reader extract files, one or all, decode folders past the cache, and release them
(`Reader.Use`). All of this is put together from a few operations on the session, so what these keep
stays so however a reader is used (`Reader.Keeps.after`).

There are two such properties. If source and decoder do with the cache only what callers do
(`Reader.ActsByAdvances`), the session belongs to a scene that the reader comes to; and if nothing
is decided but by the folder, no decode is under way when a use is over. So what is shown of callers
in such scenes and sessions is so after any number of uses.
-/

namespace SolidArchive

variable {σ : Type}

namespace Reader

/-! ### Uses -/

/-- What a reader may be asked to do. -/
inductive Use (σ : Type) where
  | extract (file : Nat)
  | extractAll (cancelled : StateM σ Bool)
  | decodeUncached (folder : Nat)
  | releaseFolder (folder : Nat)

/-- The session after a use, whether or not it fails. -/
def Use.after (r : Reader σ) (s : Session σ) : Use σ → Session σ
  | .extract file => ((r.extract file).run s).2
  | .extractAll cancelled => ((r.extractAll cancelled).run s).2
  | .decodeUncached folder => ((r.decodeUncached folder).run s).2
  | .releaseFolder folder => ((r.releaseFolder folder).run s).2

/-- The session after a number of uses, one after another. -/
def after (r : Reader σ) (s : Session σ) (uses : List (Use σ)) : Session σ :=
  uses.foldl (Use.after r) s

variable {r : Reader σ} {P : Session σ → Prop} {s : Session σ} {c : Scene σ}
  {outcomes : Nat → Outcome}

/-! ### What uses keep -/

/-- A property that stays so when a folder is asked for, decoded or released, and when all are
decoded. -/
structure Keeps (r : Reader σ) (P : Session σ → Prop) : Prop where
  folderOutcome : ∀ {s : Session σ} (folder : Nat), P s → P (r.folderOutcome folder s).2
  decode : ∀ {s : Session σ} (folder : Nat), P s → P (r.decode folder s).2
  decodeAll : ∀ {s : Session σ} (cancelled : StateM σ Bool), P s →
    P ((r.decodeAll cancelled).run s).2
  release : ∀ {s : Session σ} (folder : Nat), P s → P { s with cache := s.cache.release folder }

namespace Keeps

theorem folderOutput (h : r.Keeps P) (folder : Nat) (hs : P s) :
    Ensures (r.folderOutput folder) s (fun _ => P) (fun _ => P) := by
  have hget : Ensures (r.folderOutcome folder : ReaderM σ (Option Outcome)) s (fun _ => P)
      (fun _ => P) := h.folderOutcome folder hs
  unfold Reader.folderOutput
  refine hget.bind fun got s' hs' => ?_
  match got with
  | none => exact Ensures.throw hs'
  | some (.error fault) => exact Ensures.throw hs'
  | some (.ok output) => exact Ensures.pure hs'

theorem extract (h : r.Keeps P) (file : Nat) (hs : P s) :
    Ensures (r.extract file) s (fun _ => P) (fun _ => P) := by
  unfold Reader.extract
  split
  · exact Ensures.throw hs
  · split
    · exact Ensures.pure hs
    · next e _ =>
      -- once the output is there, the session is left alone
      refine (h.folderOutput e.folder hs).bind fun output s' hs' => ?_
      split
      · exact Ensures.throw hs'
      · split
        · exact Ensures.throw hs'
        · exact Ensures.pure hs'

theorem extractAll (h : r.Keeps P) (cancelled : StateM σ Bool) (hs : P s) :
    Ensures (r.extractAll cancelled) s (fun _ => P) (fun _ => P) := by
  have hall : Ensures (r.decodeAll cancelled) s (fun _ => P) (fun _ => P) :=
    Ensures.always_iff.mpr (h.decodeAll cancelled hs)
  unfold Reader.extractAll
  refine hall.bind fun results s' hs' => ?_
  split
  · exact Ensures.pure hs'
  · exact Ensures.throw hs'

theorem decodeUncached (h : r.Keeps P) (folder : Nat) (hs : P s) :
    Ensures (r.decodeUncached folder) s (fun _ => P) (fun _ => P) := by
  have hdecode : Ensures (r.decode folder : ReaderM σ Outcome) s (fun _ => P) (fun _ => P) :=
    h.decode folder hs
  unfold Reader.decodeUncached
  split
  · exact Ensures.throw hs
  · refine hdecode.bind fun outcome s' hs' => ?_
    cases outcome with
    | ok output => exact Ensures.pure hs'
    | error fault => exact Ensures.throw hs'

theorem releaseFolder (h : r.Keeps P) (folder : Nat) (hs : P s) :
    Ensures (r.releaseFolder folder) s (fun _ => P) (fun _ => P) := by
  have hget : Ensures (get : ReaderM σ (Session σ)) s (fun s₁ s' => s₁ = s ∧ s' = s)
      (fun _ => P) := ⟨rfl, rfl⟩
  unfold Reader.releaseFolder
  refine hget.bind ?_
  rintro s₁ s' ⟨rfl, rfl⟩
  split
  · exact Ensures.throw hs
  · exact h.release folder hs

/-- One use. -/
theorem use_after (h : r.Keeps P) (hs : P s) (use : Use σ) : P (use.after r s) := by
  cases use with
  | extract file => exact Ensures.always_iff.mp (h.extract file hs)
  | extractAll cancelled => exact Ensures.always_iff.mp (h.extractAll cancelled hs)
  | decodeUncached folder => exact Ensures.always_iff.mp (h.decodeUncached folder hs)
  | releaseFolder folder => exact Ensures.always_iff.mp (h.releaseFolder folder hs)

/-- **However a reader is used**, what its operations keep stays so. -/
theorem after (h : r.Keeps P) (hs : P s) (uses : List (Use σ)) : P (r.after s uses) := by
  induction uses generalizing s with
  | nil => exact hs
  | cons use uses ih => exact ih (h.use_after hs use)

end Keeps

/-! ### Scenes and sessions that uses lead to -/

/-- Advances lead from a scene to every use after it. -/
theorem ActsByAdvances.keeps_leadsTo (hr : r.ActsByAdvances) (hc : r.Reachable c) :
    r.Keeps (r.LeadsTo c) where
  folderOutcome folder := by
    rintro ⟨c₁, rfl, hadvances⟩
    obtain ⟨c₂, hsession, hadvances₂, -⟩ := folderOutcome_sound hr (hc.advances hadvances) folder
    exact ⟨c₂, hsession, hadvances.trans hadvances₂⟩
  decode folder := by
    rintro ⟨c₁, rfl, hadvances⟩
    exact (hr.decode (hc.advances hadvances) folder).after hadvances
  decodeAll cancelled := by
    rintro ⟨c₁, rfl, hadvances⟩
    have hall := (decodeAll_ensures cancelled hr (hc.advances hadvances)).mono
      (fun _ _ h => h.1) (fun _ _ h => h.1)
    exact (Ensures.always_iff.mp hall).after hadvances
  release folder := by
    rintro ⟨c₁, rfl, hadvances⟩
    exact ⟨_, rfl, hadvances.tail (.release c₁ folder)⟩

/-- However a reader is used, the session belongs to a scene that it comes to. -/
theorem ActsByAdvances.exists_reachable (hr : r.ActsByAdvances) (outside : σ)
    (uses : List (Use σ)) :
    ∃ c : Scene σ, c.session = r.after (r.start outside) uses ∧ r.Reachable c := by
  have hstart := reachable_start r outside
  have hleads := (hr.keeps_leadsTo hstart).after (Advances.leadsTo .refl) uses
  obtain ⟨c, hsession, hadvances⟩ := hleads
  exact ⟨c, hsession, hstart.advances hadvances⟩

/-- A use leaves no decode under way. -/
theorem Determined.keeps_rests (hr : r.Determined outcomes) :
    r.Keeps fun s => s.cache.Rests where
  folderOutcome folder hs := (folderOutcome_rests hr hs folder).1
  decode {s} folder hs := by
    rw [hr folder s]
    exact hs
  decodeAll cancelled hs :=
    Ensures.always_iff.mp ((decodeAll_alone cancelled hr hs).mono (fun _ _ h => h) fun _ _ h => h.1)
  release folder hs := hs.modifySlot fun _ _ hticket => nomatch hticket

end Reader

end SolidArchive
