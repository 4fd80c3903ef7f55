import Steward.Compression.Huffman

/-!
# Deflated streams

A deflated stream is a sequence of blocks, of which the last one is marked. A block holds octets as
they are, or symbols in a Huffman code, which is a fixed one or is described at the beginning of the
block. A symbol is an octet, the end of the block, or a length that is followed by a distance: so many
octets are repeated from so far back.

A stream can end too early, or be corrupt; both is told apart, and what was read before is kept.

`decrypt` leaves this to libraries, for gzip and for OpenPGP.
-/

namespace Steward.Compression.Inflate

open Huffman (Tree Found)

/-- What is wrong with a stream. -/
inductive Flaw where
  /-- It ended too early. -/
  | truncated
  /-- It is corrupt. -/
  | corrupt
  deriving DecidableEq, Repr

/-- What was read of a stream, and what is left of it or what is wrong with it. -/
structure Inflated where
  /-- The octets that were read. -/
  output : Array UInt8
  /-- The rest of the stream. -/
  rest : Except Flaw Bits

/-- A reader of a part of a stream. -/
abbrev Reader := StateT Bits (Except Flaw)

/-- Reads a number. -/
def readNumber (count : Nat) : Reader Nat := fun bits =>
  match bits.take? count with
  | some found => .ok found
  | none => .error .truncated

/-- Reads a symbol. -/
def readSymbol (tree : Tree) : Reader Nat := fun bits =>
  match Huffman.find tree bits with
  | .symbol s rest => .ok (s, rest)
  | .nothing => .error .corrupt
  | .truncated => .error .truncated

/-- Finds that a stream is corrupt. -/
def refuse {α : Type} : Reader α := fun _ => .error .corrupt

/-! ## Lengths and distances -/

/-- The least length of each symbol for a length, and the number of bits that are added to it. -/
def lengthTable : List (Nat × Nat) :=
  [(3, 0), (4, 0), (5, 0), (6, 0), (7, 0), (8, 0), (9, 0), (10, 0), (11, 1), (13, 1), (15, 1),
    (17, 1), (19, 2), (23, 2), (27, 2), (31, 2), (35, 3), (43, 3), (51, 3), (59, 3), (67, 4),
    (83, 4), (99, 4), (115, 4), (131, 5), (163, 5), (195, 5), (227, 5), (258, 0)]

/-- The least distance of each symbol for a distance, and the number of bits that are added to it. -/
def distanceTable : List (Nat × Nat) :=
  [(1, 0), (2, 0), (3, 0), (4, 0), (5, 1), (7, 1), (9, 2), (13, 2), (17, 3), (25, 3), (33, 4),
    (49, 4), (65, 5), (97, 5), (129, 6), (193, 6), (257, 7), (385, 7), (513, 8), (769, 8),
    (1025, 9), (1537, 9), (2049, 10), (3073, 10), (4097, 11), (6145, 11), (8193, 12), (12289, 12),
    (16385, 13), (24577, 13)]

/-- Reads the number that a symbol stands for in a table. -/
def readFrom (table : List (Nat × Nat)) (symbol : Nat) : Reader Nat := do
  match table[symbol]? with
  | none => refuse
  | some (least, added) => return least + (← readNumber added)

/-- Repeats `count` octets of the output from a distance back. -/
def repeatOctets (distance : Nat) : (count : Nat) → Array UInt8 → Array UInt8
  | 0, output => output
  | count + 1, output =>
    repeatOctets distance count (output.push (output.getD (output.size - distance) 0))

/-! ## Blocks -/

/-- Reads a length, whose symbol was read already, and a distance. -/
def readRepetition (distances : Tree) (symbol : Nat) : Reader (Nat × Nat) := do
  let length ← readFrom lengthTable symbol
  let code ← readSymbol distances
  let distance ← readFrom distanceTable code
  return (length, distance)

/-- Reads symbols up to the end of a block; there are fewer than `limit`. -/
def readSymbols (literals distances : Tree) : (limit : Nat) → Bits → Array UInt8 → Inflated
  | 0, _, output => ⟨output, .error .truncated⟩
  | limit + 1, bits, output =>
    match readSymbol literals bits with
    | .error flaw => ⟨output, .error flaw⟩
    | .ok (s, rest) =>
      if s < 256 then readSymbols literals distances limit rest (output.push (UInt8.ofNat s))
      else if s = 256 then ⟨output, .ok rest⟩
      else
        match readRepetition distances (s - 257) rest with
        | .error flaw => ⟨output, .error flaw⟩
        | .ok ((length, distance), rest) =>
          if output.size < distance then ⟨output, .error .corrupt⟩
          else readSymbols literals distances limit rest (repeatOctets distance length output)

/-- Reads the length of a block that holds octets as they are, which is given twice. -/
def readStoredLength : Reader Nat := do
  modify Bits.align
  let length ← readNumber 16
  let check ← readNumber 16
  if length + check = 65535 then return length else refuse

/-- Reads a block that holds octets as they are. -/
def readStored (bits : Bits) (output : Array UInt8) : Inflated :=
  match readStoredLength bits with
  | .error flaw => ⟨output, .error flaw⟩
  | .ok (length, bits) =>
    let (octets, rest) := bits.takeOctets length
    ⟨output ++ octets.toArray, if octets.length < length then .error .truncated else .ok rest⟩

/-- The lengths of the words of the fixed code for literals. -/
def fixedLiterals : List Nat :=
  List.replicate 144 8 ++ List.replicate 112 9 ++ List.replicate 24 7 ++ List.replicate 8 8

/-- The lengths of the words of the fixed code for distances. -/
def fixedDistances : List Nat := List.replicate 32 5

/-- The order in which the lengths of the words for lengths are given. -/
def lengthOrder : List Nat := [16, 17, 18, 0, 8, 7, 9, 6, 10, 5, 11, 4, 12, 3, 13, 2, 14, 1, 15]

/-- Reads `count` numbers of three bits. -/
def readTriples : (count : Nat) → Reader (List Nat)
  | 0 => return []
  | count + 1 => do
    let n ← readNumber 3
    return n :: (← readTriples count)

/-- Reads the lengths that a symbol stands for behind other lengths. -/
def readSome (found : List Nat) (symbol : Nat) : Reader (List Nat) := do
  if symbol < 16 then return [symbol]
  else if symbol = 16 then
    match found.getLast? with
    | none => refuse
    | some last => return List.replicate ((← readNumber 2) + 3) last
  else if symbol = 17 then return List.replicate ((← readNumber 3) + 3) 0
  else return List.replicate ((← readNumber 7) + 11) 0

/-- Reads lengths of words until there are `count` of them, with fewer than `limit` symbols. -/
def readLengths (tree : Tree) (count : Nat) : (limit : Nat) → List Nat → Reader (List Nat)
  | 0, _ => refuse
  | limit + 1, found =>
    if found.length = count then return found
    else if count < found.length then refuse
    else do
      let symbol ← readSymbol tree
      let more ← readSome found symbol
      readLengths tree count limit (found ++ more)

/-- The tree of a code, if there is one. -/
def buildTree (lengths : List Nat) : Reader Tree :=
  match Huffman.tree? lengths with
  | some tree => return tree
  | none => refuse

/-- Reads the codes for literals and for distances at the beginning of a block. -/
def readCodes : Reader (Tree × Tree) := do
  let literalCount := (← readNumber 5) + 257
  let distanceCount := (← readNumber 5) + 1
  let triples ← readTriples ((← readNumber 4) + 4)
  let given := lengthOrder.zip triples
  let tree ← buildTree ((List.range 19).map fun s => (given.lookup s).getD 0)
  let count := literalCount + distanceCount
  let lengths ← readLengths tree count (count + 1) []
  let literals ← buildTree (lengths.take literalCount)
  let distances ← buildTree (lengths.drop literalCount)
  return (literals, distances)

/-- Reads a block of a kind. -/
def readBlock (kind : Nat) (bits : Bits) (output : Array UInt8) : Inflated :=
  match kind with
  | 0 => readStored bits output
  | 1 =>
    readSymbols (Huffman.tree fixedLiterals) (Huffman.tree fixedDistances) (bits.length + 1) bits
      output
  | 2 =>
    match readCodes bits with
    | .error flaw => ⟨output, .error flaw⟩
    | .ok ((literals, distances), bits) =>
      readSymbols literals distances (bits.length + 1) bits output
  | _ => ⟨output, .error .corrupt⟩

/-- Reads what stands in front of a block: one if it is the last one, and its kind. -/
def readHeader : Reader (Nat × Nat) := do
  let last ← readNumber 1
  let kind ← readNumber 2
  return (last, kind)

/-- Reads blocks up to the last one; there are fewer than `limit`. -/
def readBlocks : (limit : Nat) → Bits → Array UInt8 → Inflated
  | 0, _, output => ⟨output, .error .truncated⟩
  | limit + 1, bits, output =>
    match readHeader bits with
    | .error flaw => ⟨output, .error flaw⟩
    | .ok ((last, kind), bits) =>
      let block := readBlock kind bits output
      match block.rest with
      | .error _ => block
      | .ok rest => if last = 1 then block else readBlocks limit rest block.output

/-- Reads a deflated stream. -/
def inflate (octets : Octets) : Inflated :=
  let bits := Bits.ofOctets octets
  readBlocks (bits.length + 1) bits #[]

end Steward.Compression.Inflate
