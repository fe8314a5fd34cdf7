import CommitScript.Algebra.Power

/-! # The Edwards curve

Arithmetic modulo 2^255 - 19 and the twisted Edwards curve over it whose quotient is the
ristretto group. Field elements are natural numbers below the prime; points have four
coordinates, so that adding needs no division.
-/

namespace CommitScript.Edwards

def prime : Nat := (1 <<< 255) - 19

def fadd (a b : Nat) : Nat := (a + b) % prime

def fneg (a : Nat) : Nat := (prime - a) % prime

def fsub (a b : Nat) : Nat := (a + (prime - b)) % prime

def fmul (a b : Nat) : Nat := a * b % prime

/-- Whether the least residue is odd, which is what the group calls negative. -/
def isNegative (a : Nat) : Bool := a % 2 == 1

/-- The one of a number and its negative that is not negative. -/
def magnitude (a : Nat) : Nat := if isNegative a then fneg a else a

/-- A square root of minus one. -/
def rootMinusOne : Nat :=
  19681161376707505956807079304988542015446066515923890162744021073123829784752

/-- The coefficient of the curve. -/
def coefficient : Nat :=
  37095705934669439343138083508754565189542113879843219016388785533085940283555

/-- The non-negative root of a quotient if the quotient is a square; otherwise the root of
    the quotient times the root of minus one, and a false mark. -/
def rootOfQuotient (numerator denominator : Nat) : Bool × Nat :=
  let cube := fmul (fmul denominator denominator) denominator
  let seventh := fmul (fmul cube cube) denominator
  let candidate :=
    fmul (fmul numerator cube)
      (Modular.power prime (fmul numerator seventh) ((prime - 5) / 8))
  let check := fmul denominator (fmul candidate candidate)
  let exact := check == numerator
  let flipped := check == fneg numerator
  let flippedRoot := check == fmul (fneg numerator) rootMinusOne
  let root := if flipped || flippedRoot then fmul rootMinusOne candidate else candidate
  (exact || flipped, magnitude root)

/-- A point by its projective coordinates and the product of the first two over the third. -/
structure Point where
  x : Nat
  y : Nat
  z : Nat
  t : Nat
  deriving Repr, DecidableEq

namespace Point

/-- The neutral point. -/
def zero : Point := ⟨0, 1, 1, 0⟩

/-- The sum of two points; the formula has no exceptions. -/
def add (p q : Point) : Point :=
  let a := fmul (fsub p.y p.x) (fsub q.y q.x)
  let b := fmul (fadd p.y p.x) (fadd q.y q.x)
  let c := fmul (fmul (fadd p.t p.t) coefficient) q.t
  let d := fmul (fadd p.z p.z) q.z
  let e := fsub b a
  let f := fsub d c
  let g := fadd d c
  let h := fadd b a
  ⟨fmul e f, fmul g h, fmul f g, fmul e h⟩

/-- The point on the other side of the second axis. -/
def negate (p : Point) : Point :=
  ⟨fneg p.x, p.y, p.z, fneg p.t⟩

/-- Adds to the accumulator a multiple of the point, taking a given number of binary digits
    of the factor from the lowest up. -/
def multipleDigits : Nat → Point → Nat → Point → Point
  | 0, _, _, acc => acc
  | digits + 1, p, factor, acc =>
      let acc := if factor % 2 = 1 then acc.add p else acc
      multipleDigits digits (p.add p) (factor / 2) acc

/-- A point added to itself as often as the factor says. -/
def multiple (factor : Nat) (p : Point) : Point :=
  multipleDigits (factor.log2 + 1) p factor zero

end Point

end CommitScript.Edwards
