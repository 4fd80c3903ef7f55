import Steward.Compression.Bits

/-!
# Huffman codes

A code gives each symbol a word of bits, so that no word is the beginning of another one. It is
described by the lengths of the words alone: shorter words come before longer ones, and words of one
length follow each other in the order of their symbols. A length of zero stands for a symbol without
a word.

A code has to be complete, so that every long enough stream of bits begins with a word; only a code
with no more than one word need not be.

`decrypt` leaves this to libraries, for gzip and for OpenPGP.
-/

namespace Steward.Compression.Huffman

/-- The longest word has so many bits. -/
def longest : Nat := 15

/-- A tree whose paths are the words of a code. -/
inductive Tree where
  /-- No word begins like this. -/
  | none
  /-- The end of the word of a symbol. -/
  | leaf (symbol : Nat)
  /-- What follows when the next bit is zero, and when it is one. -/
  | node (zero one : Tree)
  deriving Repr, DecidableEq

namespace Tree

/-- Adds a word. -/
def insert (symbol : Nat) : List Bool → Tree → Tree
  | [], _ => leaf symbol
  | false :: rest, node zero one => node (insert symbol rest zero) one
  | true :: rest, node zero one => node zero (insert symbol rest one)
  | false :: rest, _ => node (insert symbol rest none) none
  | true :: rest, _ => node none (insert symbol rest none)

end Tree

/-- A word of a length as bits, the highest first. -/
def wordBits (length word : Nat) : List Bool :=
  ((List.range length).map fun i => word.testBit i).reverse

/-- The symbols with words of a length. -/
def symbolsOf (lengths : List Nat) (length : Nat) : List Nat :=
  (lengths.zipIdx.filter fun l => l.1 = length).map Prod.snd

/-- Adds words of one length for some symbols, beginning with a word; and the next word. -/
def insertAll (length : Nat) (start : Tree × Nat) (symbols : List Nat) : Tree × Nat :=
  symbols.foldl (fun (t : Tree × Nat) s => (t.1.insert s (wordBits length t.2), t.2 + 1)) start

/-- The tree of a code. -/
def tree (lengths : List Nat) : Tree :=
  let all := (List.range longest).foldl
    (fun (t : Tree × Nat) i => insertAll (i + 1) (t.1, 2 * t.2) (symbolsOf lengths (i + 1)))
    (Tree.none, 0)
  all.1

/-- How much of the space of words of the greatest length is taken up. -/
def mass (lengths : List Nat) : Nat :=
  (lengths.filter (· ≠ 0)).foldl (fun taken l => taken + 1 <<< (longest - l)) 0

/-- The number of words. -/
def wordCount (lengths : List Nat) : Nat := lengths.countP (· ≠ 0)

/-- The tree of a code that is complete or has no more than one word. -/
def tree? (lengths : List Nat) : Option Tree :=
  if mass lengths = 1 <<< longest ∨ wordCount lengths ≤ 1 then some (tree lengths) else none

/-- What is found at the beginning of a stream. -/
inductive Found where
  /-- The word of a symbol, and the rest of the stream. -/
  | symbol (symbol : Nat) (rest : Bits)
  /-- No word. -/
  | nothing
  /-- The end of the stream. -/
  | truncated

/-- Looks for a word at the beginning of a stream. -/
def find : Tree → Bits → Found
  | .none, _ => .nothing
  | .leaf s, bits => .symbol s bits
  | .node _ _, [] => .truncated
  | .node zero one, b :: rest => if b then find one rest else find zero rest

end Steward.Compression.Huffman
