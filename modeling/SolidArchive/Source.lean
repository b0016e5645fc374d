import SolidArchive.Error

/-!
# Sources of packed data

Packed bytes come from a source, which gives its size and reads a range. A source may consult a
state `σ` and change it, so that a file that appears, grows or vanishes between two reads is one
too. It may fail with an error, or, if it is not part of the library, with something that is none.

Two sources are given: a byte string, and a file of a `FileTree`, which is opened afresh for every
read. They agree on every range inside, and on every range that reaches past the end except the
empty one: a file is not even opened for a read of no bytes.
-/

namespace SolidArchive

/-- A source of packed bytes over a state. -/
structure Source (σ : Type) where
  /-- The number of bytes there are. -/
  size : StateM σ (Except SourceFault Nat)
  /-- Exactly `length` bytes from `offset` on. -/
  read : (offset length : Nat) → StateM σ (Except SourceFault Bytes)

/-- The bound check of a read, by numbers or by words of 64 bits: the range does not lie in the
first `size` bytes. What is left behind the offset is a difference, which is looked at only if it is
not negative. -/
def PastEnd {α : Type} [LT α] [Sub α] (size offset length : α) : Prop :=
  size < offset ∨ size - offset < length

instance {α : Type} [LT α] [Sub α] [DecidableLT α] (size offset length : α) :
    Decidable (PastEnd size offset length) := inferInstanceAs (Decidable (_ ∨ _))

theorem pastEnd_iff_lt {size offset length : Nat} :
    PastEnd size offset length ↔ size < offset + length := by
  unfold PastEnd
  omega

/-- The bytes `offset` to `offset + length`, if there are that many. -/
def readRange (bytes : Bytes) (offset length : Nat) : Except SourceFault Bytes :=
  if PastEnd bytes.length offset length then .error (.failure (.shortRead offset length))
  else .ok ((bytes.drop offset).take length)

namespace Source

variable {σ τ : Type}

/-- A source whose answers depend on nothing. -/
def pure (size : Except SourceFault Nat) (read : (offset length : Nat) → Except SourceFault Bytes) :
    Source σ where
  size := fun s => (size, s)
  read := fun offset length s => (read offset length, s)

/-- A byte string as a source. -/
def ofBytes (bytes : Bytes) : Source σ := pure (.ok bytes.length) (readRange bytes)

/-- A source over a part of a state. -/
def onPart (get : σ → τ) (set : τ → σ → σ) (source : Source τ) : Source σ where
  size := fun s =>
    let (answer, t) := source.size (get s)
    (answer, set t s)
  read := fun offset length s =>
    let (answer, t) := source.read offset length (get s)
    (answer, set t s)

end Source

/-! ### Files -/

/-- What a name of a file tree stands for. -/
inductive FileNode where
  | file (bytes : Bytes)
  | directory
  deriving DecidableEq, Repr

/-- The files and directories that there are, by name. -/
structure FileTree where
  nodes : List (String × FileNode) := []
  deriving DecidableEq, Repr

namespace FileTree

/-- What a name stands for. -/
def find? (tree : FileTree) (path : String) : Option FileNode := tree.nodes.lookup path

/-- Takes a name away. -/
def remove (tree : FileTree) (path : String) : FileTree where
  nodes := tree.nodes.filter fun node => node.1 ≠ path

/-- Creates or replaces a file. -/
def write (tree : FileTree) (path : String) (bytes : Bytes) : FileTree where
  nodes := (path, .file bytes) :: (tree.remove path).nodes

/-- Creates a directory. -/
def makeDirectory (tree : FileTree) (path : String) : FileTree where
  nodes := (path, .directory) :: (tree.remove path).nodes

/-- The size of the file of a name. -/
def fileSize (tree : FileTree) (path : String) : Except SourceFault Nat :=
  match tree.find? path with
  | some (.file bytes) => .ok bytes.length
  | some .directory => .error (.failure (.sizeUnknown .isDirectory))
  | none => .error (.failure (.sizeUnknown .notFound))

/-- Reads a range of the file of a name. A directory can be opened but has no size. -/
def readFileRange (tree : FileTree) (path : String) (offset length : Nat) :
    Except SourceFault Bytes :=
  if length = 0 then .ok []
  else
    match tree.find? path with
    | some (.file bytes) => readRange bytes offset length
    | some .directory => .error (.failure (.sizeUnknown .isDirectory))
    | none => .error (.failure (.cannotOpen path))

end FileTree

/-- A file as a source. -/
def Source.ofFile (path : String) : Source FileTree where
  size := fun tree => (tree.fileSize path, tree)
  read := fun offset length tree => (tree.readFileRange path offset length, tree)

end SolidArchive
