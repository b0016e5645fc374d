import SolidArchive.Proofs.Reader.ScheduleFree

/-!
# Readers that decode alike

All that a reader knows of its archive, its source and its decoder is what a folder decodes to, how
many folders and entries there are, and where the files are. Two readers that have this in common
(`Reader.Alike`) take the same steps in every call and at every turn of their workers, so whatever
they are used for, they give the same answers and leave the same session behind. Their headers may
differ in whatever has no part in this.
-/

namespace SolidArchive

open Reader

variable {σ : Type}

namespace Reader

/-- Two readers with the same places for the files, the same choices of the user, and the same
outcome of every decode. -/
structure Alike (r r' : Reader σ) : Prop where
  map : r'.map = r.map
  config : r'.config = r.config
  folders : r'.archive.folders.length = r.archive.folders.length
  entries : r'.archive.entries.length = r.archive.entries.length
  decode : r'.decode = r.decode

namespace Alike

variable {r r' : Reader σ} (h : r.Alike r')

include h

theorem start (outside : σ) : r'.start outside = r.start outside := by
  unfold Reader.start
  rw [h.folders]

/-! ### Calls -/

theorem step (folder : Nat) (call : Call) : call.step r' folder = call.step r folder := by
  cases call with
  | decoding ticket generation =>
    unfold Call.step
    rw [h.decode]
  -- the other steps are with the cache only
  | _ => rfl

theorem run (folder steps : Nat) (call : Call) :
    Call.run r' folder steps call = Call.run r folder steps call := by
  induction steps generalizing call with
  | zero => rfl
  | succ steps ih =>
    unfold Call.run
    rw [h.step]
    simp only [ih]

theorem folderOutcome (folder : Nat) : r'.folderOutcome folder = r.folderOutcome folder := by
  unfold Reader.folderOutcome
  rw [h.run]

theorem folderOutput (folder : Nat) : r'.folderOutput folder = r.folderOutput folder := by
  unfold Reader.folderOutput
  rw [h.folderOutcome]

/-! ### One file and one folder -/

theorem extract (file : Nat) : r'.extract file = r.extract file := by
  unfold Reader.extract
  simp only [h.entries, h.map, h.config, h.folderOutput]

theorem decodeUncached (folder : Nat) : r'.decodeUncached folder = r.decodeUncached folder := by
  unfold Reader.decodeUncached
  rw [h.folders, h.decode]

/-! ### All files -/

theorem decodeOne (cancelled : StateM σ Bool) (folder : Nat) :
    r'.decodeOne cancelled folder = r.decodeOne cancelled folder := by
  unfold Reader.decodeOne
  rw [h.folderOutcome]

theorem decodeInOrder (cancelled : StateM σ Bool) (folders : List Nat)
    (results : List FolderResult) :
    r'.decodeInOrder cancelled folders results = r.decodeInOrder cancelled folders results := by
  induction folders generalizing results with
  | nil => rfl
  | cons folder folders ih =>
    unfold Reader.decodeInOrder
    rw [h.decodeOne]
    simp only [ih]

theorem poolStep (cancelled : StateM σ Bool) (folders : List Nat) (p : Pool) (number : Nat) :
    p.step r' cancelled folders number = p.step r cancelled folders number := by
  unfold Pool.step
  cases p.workers.getD number .idle with
  | calling folder call =>
    dsimp only
    rw [h.step]
  | _ => rfl

theorem poolRun (cancelled : StateM σ Bool) (folders schedule : List Nat) (p : Pool) :
    Pool.run r' cancelled folders schedule p = Pool.run r cancelled folders schedule p := by
  induction schedule generalizing p with
  | nil => rfl
  | cons number schedule ih =>
    unfold Pool.run
    rw [h.poolStep]
    simp only [ih]

theorem decodeInPool (cancelled : StateM σ Bool) (folders schedule : List Nat) (workers : Nat) :
    r'.decodeInPool cancelled folders schedule workers =
      r.decodeInPool cancelled folders schedule workers := by
  unfold Reader.decodeInPool
  rw [h.poolRun, h.folders]

theorem workerCount (folders : Nat) : r'.workerCount folders = r.workerCount folders := by
  unfold Reader.workerCount
  rw [h.config]

theorem extractAll (cancelled : StateM σ Bool) :
    r'.extractAll cancelled = r.extractAll cancelled := by
  unfold Reader.extractAll Reader.decodeAll
  simp only [h.map, h.folders, h.workerCount, h.decodeInOrder, h.decodeInPool]

theorem extractAllUnder (schedule : List Nat) :
    r'.extractAllUnder schedule = r.extractAllUnder schedule := by
  unfold Reader.extractAllUnder Reader.decodeAllUnder cutAll
  simp only [h.map, h.folders, h.workerCount, h.decodeInOrder, h.decodeInPool]

end Alike

end Reader

end SolidArchive
