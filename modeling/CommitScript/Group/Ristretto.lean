import CommitScript.Group.Basic
import CommitScript.Group.Edwards

/-! # The ristretto255 group

The group of prime order made from classes of curve points. A class is held by its code, the
one field element that encodes it, so equal elements are equal codes.
-/

namespace CommitScript

open Edwards

/-- A class of curve points, by its code. -/
structure Ristretto where
  code : Nat
  deriving Repr, DecidableEq

namespace Ristretto

def order : Nat :=
  (1 <<< 252) + 27742317777372353535851937790883648493

/-- The inverse root of minus one less the curve's coefficient. -/
def inverseRootOfDifference : Nat :=
  54469307008909316920995813868745141605393597292927456921205312896311721017578

/-- The root of minus one times the coefficient, less one. -/
def rootOfProduct : Nat :=
  25063068953384623474111414158702152701244531502492656460079210482610430750235

/-- One less the square of the coefficient. -/
def oneLessSquare : Nat := fsub 1 (fmul coefficient coefficient)

/-- The square of the coefficient less one. -/
def squareOfLess : Nat := fmul (fsub coefficient 1) (fsub coefficient 1)

/-- A point of the class of a code, when there is such a class. -/
def pointOfCode? (code : Nat) : Option Point :=
  if prime ≤ code || isNegative code then none
  else
    let square := fmul code code
    let u1 := fsub 1 square
    let u2 := fadd 1 square
    let u2Square := fmul u2 u2
    let v := fsub (fneg (fmul coefficient (fmul u1 u1))) u2Square
    let (wasSquare, inverse) := rootOfQuotient 1 (fmul v u2Square)
    let denX := fmul inverse u2
    let denY := fmul (fmul inverse denX) v
    let x := magnitude (fmul (fadd code code) denX)
    let y := fmul u1 denY
    let t := fmul x y
    if !wasSquare || isNegative t || y == 0 then none else some ⟨x, y, 1, t⟩

/-- The code of a point's class. -/
def codeOfPoint (p : Point) : Nat :=
  let u1 := fmul (fadd p.z p.y) (fsub p.z p.y)
  let u2 := fmul p.x p.y
  let (_, inverse) := rootOfQuotient 1 (fmul u1 (fmul u2 u2))
  let den1 := fmul inverse u1
  let den2 := fmul inverse u2
  let inverseZ := fmul (fmul den1 den2) p.t
  let turned := isNegative (fmul p.t inverseZ)
  let x := if turned then fmul p.y rootMinusOne else p.x
  let y := if turned then fmul p.x rootMinusOne else p.y
  let inverseDen := if turned then fmul den1 inverseRootOfDifference else den2
  let y := if isNegative (fmul x inverseZ) then fneg y else y
  magnitude (fmul inverseDen (fsub p.z y))

/-- The class of a point. -/
def ofPoint (p : Point) : Ristretto :=
  ⟨codeOfPoint p⟩

/-- A point of the class; codes of no class stand for the neutral point. -/
def point (a : Ristretto) : Point :=
  (pointOfCode? a.code).getD Point.zero

/-- The point that a field element is sent to. -/
def pointOfField (t : Nat) : Point :=
  let r := fmul rootMinusOne (fmul t t)
  let u := fmul (fadd r 1) oneLessSquare
  let v := fmul (fsub (fneg 1) (fmul r coefficient)) (fadd r coefficient)
  let (wasSquare, root) := rootOfQuotient u v
  let s := if wasSquare then root else fneg (magnitude (fmul root t))
  let c := if wasSquare then fneg 1 else r
  let n := fsub (fmul (fmul c (fsub r 1)) squareOfLess) v
  let w0 := fmul (fadd s s) v
  let w1 := fmul n rootOfProduct
  let w2 := fsub 1 (fmul s s)
  let w3 := fadd 1 (fmul s s)
  ⟨fmul w0 w3, fmul w2 w1, fmul w1 w3, fmul w0 w2⟩

/-- The field element of 32 bytes, whose highest bit is ignored. -/
def fieldOfBytes (bytes : Bytes) : Nat :=
  Bytes.toNatLittle bytes % (1 <<< 255) % prime

/-- The class that 64 uniform bytes are sent to. -/
def ofSample? (bytes : Bytes) : Option Ristretto :=
  if bytes.length = 64 then
    let first := pointOfField (fieldOfBytes (bytes.take 32))
    let second := pointOfField (fieldOfBytes (bytes.drop 32))
    some (ofPoint (first.add second))
  else
    none

def decode (bytes : Bytes) : Except AlgebraError Ristretto :=
  if bytes.length ≠ 32 then .error (.encoding (.pointWidth bytes.length))
  else
    let code := Bytes.toNatLittle bytes
    if (pointOfCode? code).isSome then .ok ⟨code⟩ else .error (.encoding .pointInvalid)

/-- The group of classes, with the standard generator. -/
def ops : GroupOps Ristretto where
  name := "ristretto255"
  order := order
  generator := ⟨0x762D8DE04559A6B68DDD82A56A0BE3585F5100C561A984A8714EBC6A0AAEF2E2⟩
  identity := ⟨0⟩
  add a b := ofPoint (a.point.add b.point)
  negate a := ofPoint a.point.negate
  multiple k a := ofPoint (Point.multiple (k % order) a.point)
  encode a := Bytes.ofNatLittle 32 a.code
  decode := decode
  sampleWidth := 64
  ofSample? := ofSample?

end Ristretto

end CommitScript
