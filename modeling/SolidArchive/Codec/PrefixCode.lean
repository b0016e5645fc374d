import SolidArchive.Codec.BitReader

/-!
# Canonical prefix codes

A prefix code is given by the length of each symbol's code word; the words themselves follow from
the rule that shorter words come before longer ones and, among words of one length, symbols come in
order. `PrefixCode.ofLengths` turns the lengths into a binary tree by walking down from the root and
handing out leaves: a node at depth `d` becomes the leaf of the next symbol if that symbol's word
has length `d`, and branches otherwise, the zero side first.

Lengths that do not fill the tree leave dead ends, and lengths that overfill it leave symbols
without a word. What that means is for the format to say: `fullness` compares the lengths with a
full tree, and reading a dead end reports the depth at which the walk left the code.

A word has at least one bit, so the root always branches and reading a symbol is an advance.
-/

namespace SolidArchive.Codec

/-- A subtree of a prefix code. -/
inductive CodeTree where
  /-- No word goes through here. -/
  | dead
  /-- A word ends here. -/
  | leaf (symbol : Nat)
  /-- Words go on with a zero or with a one. -/
  | node (zero one : CodeTree)
  deriving Repr

/-- A prefix code: what the first bit of a word leads to. -/
structure PrefixCode where
  /-- The words that start with a zero. -/
  zero : CodeTree
  /-- The words that start with a one. -/
  one : CodeTree
  deriving Repr

/-- What a walk through a prefix code comes to. -/
inductive Word where
  /-- The word of a symbol. -/
  | symbol (value : Nat)
  /-- No word starts with the bits read, which are `depth` in number. -/
  | unassigned (depth : Nat)
  deriving DecidableEq, Repr

/-- How a list of code lengths compares with a full tree. -/
inductive Fullness where
  | underfull
  | full
  | overfull
  deriving DecidableEq, Repr

namespace CodeTree

/-- Hands out the leaves below a node at depth `depth`, which may lie at most `below` deeper, to the
symbols `words` (word length and symbol, in the order of their words). Gives the symbols left over.
-/
def grow : (below depth : Nat) → (words : List (Nat × Nat)) → CodeTree × List (Nat × Nat)
  | _, _, [] => (.dead, [])
  | below, depth, (length, symbol) :: words =>
    if length = depth then
      (.leaf symbol, words)
    else
      match below with
      | 0 => (.dead, (length, symbol) :: words)
      | below + 1 =>
        -- the zero side has the earlier words
        let (zero, words) := grow below (depth + 1) ((length, symbol) :: words)
        let (one, words) := grow below (depth + 1) words
        (.node zero one, words)

/-- Reads on from a node at depth `depth` to the end of a word. -/
def walk {order : BitOrder} {ε : Type} :
    CodeTree → (depth : Nat) → Reads (@BitReader.bitsLeft order) (Halt ε) Word
  | .dead, depth => pure (.unassigned depth)
  | .leaf symbol, _ => pure (.symbol symbol)
  | .node zero one, depth => do
    if ← BitReader.bit.toReads then one.walk (depth + 1) else zero.walk (depth + 1)

end CodeTree

namespace PrefixCode

/-- The symbols that have a word, in the order of their words: by length, then by symbol. -/
def words (maxLength : Nat) (lengths : List Nat) : List (Nat × Nat) :=
  (List.range maxLength).flatMap fun below =>
    lengths.zipIdx.filter fun word => word.1 = below + 1

/-- The canonical code of the given word lengths, where zero stands for a symbol without a word and
no length exceeds `maxLength`. -/
def ofLengths (maxLength : Nat) (lengths : List Nat) : PrefixCode :=
  let (zero, words) := CodeTree.grow (maxLength - 1) 1 (words maxLength lengths)
  let (one, _) := CodeTree.grow (maxLength - 1) 1 words
  { zero, one }

/-- The share of a full tree of depth `maxLength` that the words take, in leaves of that depth. -/
def weight (maxLength : Nat) (lengths : List Nat) : Nat :=
  lengths.foldl
    (fun total length => if length = 0 then total else total + 1 <<< (maxLength - length)) 0

/-- Whether the words fill a tree. -/
def fullness (maxLength : Nat) (lengths : List Nat) : Fullness :=
  if weight maxLength lengths < 1 <<< maxLength then .underfull
  else if weight maxLength lengths = 1 <<< maxLength then .full
  else .overfull

/-- Reads a word. -/
def read {order : BitOrder} {ε : Type} (code : PrefixCode) :
    Advances (@BitReader.bitsLeft order) (Halt ε) Word :=
  BitReader.bit.andThen fun first => if first then code.one.walk 1 else code.zero.walk 1

end PrefixCode

end SolidArchive.Codec
