import Steward.Number.Octets

/-!
# The AES block cipher

A block of sixteen octets is four columns of four octets. Each round replaces the octets by a box,
shifts the rows, mixes the columns and adds a key; the last round does not mix. The box is the inverse
in the field of 256 elements, followed by an affine map. Keys have 16, 24 or 32 octets.

`decrypt` leaves this to a library for OpenPGP.
-/

namespace Steward.Cipher.Aes

/-! ## The field -/

/-- Multiplies by the second power of the generator of the field. -/
def double (x : UInt8) : UInt8 := if x &&& 0x80 = 0 then x <<< 1 else (x <<< 1) ^^^ 0x1B

/-- The product of two elements, of which the lowest `bits` bits of the second count. -/
def mulBits : (bits : Nat) → UInt8 → UInt8 → UInt8
  | 0, _, _ => 0
  | bits + 1, x, y => (if y &&& 1 = 0 then 0 else x) ^^^ mulBits bits (double x) (y >>> 1)

/-- The product of two elements. -/
def mul (x y : UInt8) : UInt8 := mulBits 8 x y

/-- A power of an element. -/
def power (x : UInt8) : Nat → UInt8
  | 0 => 1
  | n + 1 => mul x (power x n)

/-- The inverse of an element; that of zero is zero. -/
def inverse (x : UInt8) : UInt8 := power x 254

/-- Rotates an octet to the left. -/
def rotate (x n : UInt8) : UInt8 := (x <<< n) ||| (x >>> (8 - n))

/-- The affine map. -/
def affine (x : UInt8) : UInt8 :=
  x ^^^ rotate x 1 ^^^ rotate x 2 ^^^ rotate x 3 ^^^ rotate x 4 ^^^ 0x63

/-- The box for each octet. -/
def box : Array UInt8 := (Array.range 256).map fun i => affine (inverse (UInt8.ofNat i))

/-- Replaces an octet by the box. -/
def substitute (x : UInt8) : UInt8 := box.getD x.toNat 0

/-! ## Columns and blocks -/

/-- A column. -/
structure Column where
  /-- The first octet. -/
  a : UInt8
  /-- The second octet. -/
  b : UInt8
  /-- The third octet. -/
  c : UInt8
  /-- The fourth octet. -/
  d : UInt8
  deriving DecidableEq, Repr, Inhabited

namespace Column

/-- Applies a function to each octet. -/
def map (f : UInt8 → UInt8) (w : Column) : Column := ⟨f w.a, f w.b, f w.c, f w.d⟩

/-- The sum of two columns. -/
def add (v w : Column) : Column := ⟨v.a ^^^ w.a, v.b ^^^ w.b, v.c ^^^ w.c, v.d ^^^ w.d⟩

/-- Rotates a column by one octet. -/
def turn (w : Column) : Column := ⟨w.b, w.c, w.d, w.a⟩

/-- Mixes a column. -/
def mix (w : Column) : Column :=
  let all := w.a ^^^ w.b ^^^ w.c ^^^ w.d
  let part (x y : UInt8) : UInt8 := x ^^^ all ^^^ double (x ^^^ y)
  ⟨part w.a w.b, part w.b w.c, part w.c w.d, part w.d w.a⟩

/-- The octets of a column. -/
def octets (w : Column) : Octets := [w.a, w.b, w.c, w.d]

end Column

/-- The columns of some octets; what is left over is not used. -/
def columns : Octets → List Column
  | a :: b :: c :: d :: rest => ⟨a, b, c, d⟩ :: columns rest
  | _ => []

/-- A block. -/
structure Block where
  /-- The first column. -/
  p : Column
  /-- The second column. -/
  q : Column
  /-- The third column. -/
  r : Column
  /-- The fourth column. -/
  s : Column
  deriving DecidableEq, Repr, Inhabited

namespace Block

/-- Applies a function to each column. -/
def map (f : Column → Column) (k : Block) : Block := ⟨f k.p, f k.q, f k.r, f k.s⟩

/-- The sum of two blocks. -/
def add (k l : Block) : Block := ⟨k.p.add l.p, k.q.add l.q, k.r.add l.r, k.s.add l.s⟩

/-- Shifts each row by its number. -/
def shiftRows (k : Block) : Block :=
  ⟨⟨k.p.a, k.q.b, k.r.c, k.s.d⟩, ⟨k.q.a, k.r.b, k.s.c, k.p.d⟩, ⟨k.r.a, k.s.b, k.p.c, k.q.d⟩,
    ⟨k.s.a, k.p.b, k.q.c, k.r.d⟩⟩

/-- The octets of a block. -/
def octets (k : Block) : Octets := k.p.octets ++ k.q.octets ++ k.r.octets ++ k.s.octets

end Block

/-- The blocks of some columns; what is left over is not used. -/
def blocks : List Column → List Block
  | p :: q :: r :: s :: rest => ⟨p, q, r, s⟩ :: blocks rest
  | _ => []

/-! ## Keys -/

/-- The constant of a step of the key expansion. -/
def roundConstant (step : Nat) : Column := ⟨power 2 (step - 1), 0, 0, 0⟩

/-- Adds the next column to an expanded key of which the first `size` columns are the key itself. -/
def expandStep (size : Nat) (ws : Array Column) (_ : Nat) : Array Column :=
  let i := ws.size
  let last := ws.getD (i - 1) default
  let changed :=
    if i % size = 0 then ((last.turn).map substitute).add (roundConstant (i / size))
    else if 6 < size ∧ i % size = 4 then last.map substitute
    else last
  ws.push ((ws.getD (i - size) default).add changed)

/-- The keys of the rounds. -/
def expand (key : Octets) : List Block :=
  let start := (columns key).toArray
  let size := start.size
  blocks ((List.range (3 * size + 28)).foldl (expandStep size) start).toList

/-! ## The cipher -/

/-- A round that is not the last one. -/
def round (k roundKey : Block) : Block :=
  (((k.map (Column.map substitute)).shiftRows).map Column.mix).add roundKey

/-- The last round. -/
def lastRound (k roundKey : Block) : Block :=
  ((k.map (Column.map substitute)).shiftRows).add roundKey

/-- The rounds of the cipher with their keys. -/
def rounds : List Block → Block → Block
  | [], k => k
  | [key], k => lastRound k key
  | key :: rest, k => rounds rest (round k key)

/-- Enciphers a block with expanded keys. -/
def encipher (keys : List Block) (k : Block) : Block :=
  match keys with
  | [] => k
  | first :: rest => rounds rest (k.add first)

/-- Enciphers sixteen octets with expanded keys; any others are taken as zeros. -/
def encipherOctets (keys : List Block) (octets : Octets) : Octets :=
  (encipher keys ((blocks (columns octets)).headD default)).octets

end Steward.Cipher.Aes
