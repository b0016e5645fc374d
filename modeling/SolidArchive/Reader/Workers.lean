import SolidArchive.Reader.Basic

/-!
# Decoding many folders

All folders that have files are to be decoded, by one worker or by several. The work is the same for
each: look whether the extraction has been cancelled, else get the folder's output, and note the
result. Whether it has been cancelled is a question to the outside, which may be answered
differently each time it is asked. A folder that does not decode is a result; anything else that
goes wrong ends the whole extraction.

One worker takes the folders in order. Several workers share a `Pool`: each takes the number of the
next folder from a common counter, so no folder is taken twice, and each writes only the results of
the folders it took. A worker that meets something other than a decode error notes it, if it is the
first, and tells the others to stop; they finish what they have begun.

A pool makes one step of one worker at a time, and a *schedule* says whose turn it is. The results
do not depend on the schedule; `Pool.schedule` is one that is long enough for all to finish.
-/

namespace SolidArchive

/-- What became of a folder in an extraction. -/
inductive FolderResult where
  /-- Nobody has come to it yet. -/
  | untouched
  /-- The extraction was cancelled before its turn. -/
  | cancelled
  | failed (error : DecodeError)
  | decoded (output : Bytes)
  deriving DecidableEq, Repr

/-- The result of a folder from the outcome of its decode, unless that ends the extraction. -/
def FolderResult.ofOutcome : Outcome → Except FolderFault FolderResult
  | .ok output => .ok (.decoded output)
  | .error (.decode error) => .ok (.failed error)
  | .error fault => .error fault

/-- The folders that have files. -/
def StreamMap.backedFolders (map : StreamMap) : List Nat :=
  (List.range map.folders.length).filter fun folder =>
    (map.folders[folder]?.bind FolderSpan.firstFile).isSome

namespace Reader

variable {σ : Type}

/-! ### One worker -/

/-- Decodes a folder unless the extraction has been cancelled. -/
def decodeOne (r : Reader σ) (cancelled : StateM σ Bool) (folder : Nat) :
    ReaderM σ FolderResult := do
  if ← (Session.onOutside cancelled : StateM (Session σ) Bool) then
    pure .cancelled
  else
    match ← (r.folderOutcome folder : StateM (Session σ) (Option Outcome)) with
    | none => throw .stalled
    | some outcome =>
      match FolderResult.ofOutcome outcome with
      | .ok result => pure result
      | .error fault => throw (.folder fault)

/-- Decodes folders one after another. -/
def decodeInOrder (r : Reader σ) (cancelled : StateM σ Bool) :
    List Nat → List FolderResult → ReaderM σ (List FolderResult)
  | [], results => pure results
  | folder :: folders, results => do
    let result ← r.decodeOne cancelled folder
    decodeInOrder r cancelled folders (results.set folder result)

end Reader

/-! ### Several workers -/

/-- How far a worker has come. -/
inductive Worker where
  /-- About to look whether to stop. -/
  | checking
  /-- About to take the number of a folder. -/
  | taking
  /-- About to look whether the extraction has been cancelled. -/
  | starting (folder : Nat)
  | calling (folder : Nat) (call : Reader.Call)
  /-- About to note what ends the extraction. -/
  | noting (fault : FolderFault)
  /-- About to tell the others to stop. -/
  | stopping
  | idle

/-- Workers that share their work. -/
structure Pool where
  workers : List Worker
  /-- How many folders have been taken. -/
  next : Nat := 0
  /-- The workers are to stop. -/
  stop : Bool := false
  /-- What ended the extraction. -/
  firstFault : Option FolderFault := none
  results : List FolderResult

namespace Pool

variable {σ : Type}

/-- So many workers with nothing done yet. -/
def start (workers folders : Nat) : Pool where
  workers := List.replicate workers .checking
  results := List.replicate folders .untouched

/-- Replaces the worker of the given number. -/
def setWorker (p : Pool) (number : Nat) (worker : Worker) : Pool :=
  { p with workers := p.workers.set number worker }

/-- Writes the result of a folder. -/
def setResult (p : Pool) (folder : Nat) (result : FolderResult) : Pool :=
  { p with results := p.results.set folder result }

/-- What a worker does with the outcome of a call. -/
def finishCall (p : Pool) (number folder : Nat) (outcome : Outcome) : Pool :=
  match FolderResult.ofOutcome outcome with
  | .ok result => (p.setResult folder result).setWorker number .checking
  | .error fault => p.setWorker number (.noting fault)

/-- One step of the worker of the given number, in a pool that decodes the folders `folders`. -/
def step (r : Reader σ) (cancelled : StateM σ Bool) (folders : List Nat) (p : Pool) (number : Nat) :
    StateM (Session σ) Pool :=
  match p.workers.getD number .idle with
  | .checking => pure (p.setWorker number (if p.stop then .idle else .taking))
  | .taking =>
    -- the counter moves on even when nothing is left
    let taken := { p with next := p.next + 1 }
    pure (taken.setWorker number
      (match folders[p.next]? with
        | some folder => .starting folder
        | none => .idle))
  | .starting folder => do
    if ← Session.onOutside cancelled then
      pure ((p.setResult folder .cancelled).setWorker number .checking)
    else
      pure (p.setWorker number (.calling folder .requesting))
  | .calling folder call => do
    let call ← call.step r folder
    match call.outcome? with
    | some outcome => pure (p.finishCall number folder outcome)
    | none => pure (p.setWorker number (.calling folder call))
  | .noting fault =>
    pure ({ p with firstFault := p.firstFault <|> some fault }.setWorker number .stopping)
  | .stopping => pure ({ p with stop := true }.setWorker number .idle)
  | .idle => pure p

/-- The steps of a pool under a schedule. -/
def run (r : Reader σ) (cancelled : StateM σ Bool) (folders : List Nat) :
    (schedule : List Nat) → Pool → StateM (Session σ) Pool
  | [], p => pure p
  | number :: schedule, p => do
    run r cancelled folders schedule (← p.step r cancelled folders number)

/-- All workers are done. -/
def isDone (p : Pool) : Bool :=
  p.workers.all fun
    | .idle => true
    | _ => false

/-- What a pool has come to. -/
def finish (p : Pool) : Except ReaderFault (List FolderResult) :=
  if p.isDone then
    match p.firstFault with
    | some fault => .error (.folder fault)
    | none => .ok p.results
  else .error .stalled

/-- More steps than a worker needs for a folder, and for coming to an end. -/
def stepsPerFolder : Nat := 8

/-- Each worker in turn, until there is nothing left for it to do. -/
def schedule (workers folders : Nat) : List Nat :=
  (List.range workers).flatMap fun number =>
    List.replicate (stepsPerFolder * (folders + 1)) number

end Pool

namespace Reader

variable {σ : Type}

/-- The number of workers for so many folders. -/
def workerCount (r : Reader σ) (folders : Nat) : Nat :=
  if 1 < r.config.concurrency then min folders r.config.concurrency.toNat else 1

/-- Decodes folders with several workers under a schedule. -/
def decodeInPool (r : Reader σ) (cancelled : StateM σ Bool) (folders schedule : List Nat)
    (workers : Nat) : ReaderM σ (List FolderResult) := do
  let pool ← (Pool.run r cancelled folders schedule
    (.start workers r.archive.folders.length) : StateM (Session σ) Pool)
  match pool.finish with
  | .ok results => pure results
  | .error fault => throw fault

/-- Decodes all folders that have files. Gives a result for every folder of the archive. -/
def decodeAll (r : Reader σ) (cancelled : StateM σ Bool) : ReaderM σ (List FolderResult) :=
  let folders := r.map.backedFolders
  let workers := r.workerCount folders.length
  if workers ≤ 1 then
    r.decodeInOrder cancelled folders (List.replicate r.archive.folders.length .untouched)
  else
    r.decodeInPool cancelled folders (Pool.schedule workers folders.length) workers

end Reader

end SolidArchive
