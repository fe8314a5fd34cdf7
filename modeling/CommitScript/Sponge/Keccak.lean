/-! # The Keccak permutation

Keccak-f[1600] on 25 words of 64 bits, with access to the 200 bytes that the words hold. The
word of column x and row y stands at x + 5y, its lowest byte first.
-/

namespace CommitScript.Keccak

/-- The words of the state. -/
abbrev State := Vector UInt64 25

/-- The state before anything was absorbed. -/
def zero : State := Vector.replicate 25 0

/-- A word turned left; amounts are below 64. -/
def rotate (word : UInt64) (amount : UInt64) : UInt64 :=
  (word <<< amount) ||| (word >>> (64 - amount))

/-- How far the word at each place turns. -/
def rotations : Vector UInt64 25 :=
  #v[0, 1, 62, 28, 27, 36, 44, 6, 55, 20, 3, 10, 43, 25, 39, 41, 45, 15, 21, 8, 18, 2, 61, 56, 14]

/-- What each round adds to the first word. -/
def roundConstants : List UInt64 :=
  [0x0000000000000001, 0x0000000000008082, 0x800000000000808A, 0x8000000080008000,
   0x000000000000808B, 0x0000000080000001, 0x8000000080008081, 0x8000000000008009,
   0x000000000000008A, 0x0000000000000088, 0x0000000080008009, 0x000000008000000A,
   0x000000008000808B, 0x800000000000008B, 0x8000000000008089, 0x8000000000008003,
   0x8000000000008002, 0x8000000000000080, 0x000000000000800A, 0x800000008000000A,
   0x8000000080008081, 0x8000000000008080, 0x0000000080000001, 0x8000000080008008]

/-- Adds to each word the parities of the two columns beside it. -/
def theta (s : State) : State :=
  let parity : Vector UInt64 5 :=
    Vector.ofFn fun x =>
      s[x.val] ^^^ s[x.val + 5] ^^^ s[x.val + 10] ^^^ s[x.val + 15] ^^^ s[x.val + 20]
  let change : Vector UInt64 5 :=
    Vector.ofFn fun x => parity[(x.val + 4) % 5] ^^^ rotate parity[(x.val + 1) % 5] 1
  Vector.ofFn fun i => s[i] ^^^ change[i.val % 5]

/-- Turns the words and moves them to their new places. -/
def rhoPi (s : State) : State :=
  Vector.ofFn fun i =>
    let x := i.val % 5
    let y := i.val / 5
    let source := (x + 3 * y) % 5 + 5 * x
    rotate s[source] rotations[source]

/-- Mixes the words of each row. -/
def chi (s : State) : State :=
  Vector.ofFn fun i =>
    let x := i.val % 5
    let row := 5 * (i.val / 5)
    s[i] ^^^ (~~~ s[row + (x + 1) % 5] &&& s[row + (x + 2) % 5])

def round (s : State) (constant : UInt64) : State :=
  let s := chi (rhoPi (theta s))
  s.set 0 (s[0] ^^^ constant)

def permute (s : State) : State :=
  roundConstants.foldl round s

/-- The byte at a position below 200; positions beyond hold zero. -/
def byteAt (s : State) (position : Nat) : UInt8 :=
  match s[position / 8]? with
  | some word => (word >>> (8 * (position % 8)).toUInt64).toUInt8
  | none => 0

/-- Adds a byte, without carry, to the one at a position below 200. -/
def xorByte (s : State) (position : Nat) (byte : UInt8) : State :=
  if h : position / 8 < 25 then
    s.set (position / 8) (s[position / 8] ^^^ (byte.toUInt64 <<< (8 * (position % 8)).toUInt64))
  else
    s

end CommitScript.Keccak
