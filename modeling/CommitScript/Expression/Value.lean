import CommitScript.Algebra.Scalar
import CommitScript.Expression.Token

/-! # Values of expressions

Integer arithmetic in a scalar field, evaluated from left to right while the tokens are read.

    sum      := product (("+" | "-") product)*
    product  := negated (("*" | "/") negated)*
    negated  := "-" negated | power
    power    := atom ("^" "-"? number)?
    atom     := number | name | "(" sum ")"

A quotient multiplies by the inverse. Exponents are whole numbers and not scalars; a negative
one raises the inverse.
-/

namespace CommitScript

/-- Why an expression has no value. -/
inductive ExpressionFault where
  /-- A character that belongs to no token. -/
  | strayCharacter (c : Char)
  /-- A token that cannot stand where it does. -/
  | strayToken (token : Token)
  /-- The expression ends where a value should stand. -/
  | noValue
  /-- A bracket that is not closed where its sum ends. -/
  | notClosed
  /-- The expression ends where an exponent should stand. -/
  | noExponent
  /-- Something else than a number stands as an exponent. -/
  | badExponent (token : Token)
  | divisionByZero
  | zeroToNegativePower
  deriving Repr, DecidableEq

/-- The wording of an expression's fault. -/
def ExpressionFault.message : ExpressionFault → String
  | strayCharacter c => s!"unexpected character '{c}'"
  | strayToken token => s!"unexpected {token.describe}"
  | noValue => "unexpected end of expression"
  | notClosed => "missing ')'"
  | noExponent => "missing exponent"
  | badExponent token => s!"exponent must be an integer literal, found {token.describe}"
  | divisionByZero => "division by zero"
  | zeroToNegativePower => "zero raised to a negative power"

/-- Why the evaluation of an expression ends without a value. -/
inductive EvaluationError where
  | fault (fault : ExpressionFault)
  /-- A name that is not bound. -/
  | undefined (name : String)
  deriving Repr, DecidableEq

/-- What names stand for while an expression is evaluated. -/
structure Scope where
  field : ScalarField
  lookup? : String → Option Scalar

namespace Scope

/-- A value and the tokens after those that were read for it. -/
abbrev Read (tokens : List Token) :=
  Scalar × { rest : List Token // rest.length < tokens.length }

/-- The inverse of a value, with a fault for zero. -/
def invert (scope : Scope) (fault : ExpressionFault) (value : Scalar) :
    Except EvaluationError Scalar :=
  match scope.field.inverse value with
  | .ok inverse => .ok inverse
  | .error _ => .error (.fault fault)

/-- Reads what may follow an atom as its exponent, and applies it. -/
def raise (scope : Scope) (base : Scalar) (tokens : List Token) :
    Except EvaluationError (Scalar × { rest : List Token // rest.length ≤ tokens.length }) :=
  match tokens with
  | .operator .power :: .operator .minus :: .number exponent :: rest => do
      let inverse ← scope.invert .zeroToNegativePower base
      return (scope.field.pow inverse exponent, ⟨rest, by simp only [List.length_cons]; omega⟩)
  | .operator .power :: .operator .minus :: token :: _ => .error (.fault (.badExponent token))
  | .operator .power :: .operator .minus :: [] => .error (.fault .noExponent)
  | .operator .power :: .number exponent :: rest =>
      .ok (scope.field.pow base exponent, ⟨rest, by simp only [List.length_cons]; omega⟩)
  | .operator .power :: token :: _ => .error (.fault (.badExponent token))
  | .operator .power :: [] => .error (.fault .noExponent)
  | tokens => .ok (base, ⟨tokens, Nat.le_refl _⟩)

mutual

def sum (scope : Scope) (tokens : List Token) : Except EvaluationError (Read tokens) := do
  let (value, ⟨rest, h⟩) ← product scope tokens
  let (value, ⟨rest, h'⟩) ← sumRest scope value rest
  return (value, ⟨rest, Nat.lt_of_le_of_lt h' h⟩)
termination_by (tokens.length, 4)

/-- Reads the further terms of a sum. -/
def sumRest (scope : Scope) (value : Scalar) (tokens : List Token) :
    Except EvaluationError (Scalar × { rest : List Token // rest.length ≤ tokens.length }) :=
  match tokens with
  | .operator .plus :: following => do
      let (term, ⟨rest, h⟩) ← product scope following
      let (value, ⟨rest, h'⟩) ← sumRest scope (scope.field.add value term) rest
      return (value, ⟨rest, by simp only [List.length_cons]; omega⟩)
  | .operator .minus :: following => do
      let (term, ⟨rest, h⟩) ← product scope following
      let (value, ⟨rest, h'⟩) ← sumRest scope (scope.field.sub value term) rest
      return (value, ⟨rest, by simp only [List.length_cons]; omega⟩)
  | tokens => .ok (value, ⟨tokens, Nat.le_refl _⟩)
termination_by (tokens.length, 4)

def product (scope : Scope) (tokens : List Token) : Except EvaluationError (Read tokens) := do
  let (value, ⟨rest, h⟩) ← negated scope tokens
  let (value, ⟨rest, h'⟩) ← productRest scope value rest
  return (value, ⟨rest, Nat.lt_of_le_of_lt h' h⟩)
termination_by (tokens.length, 3)

/-- Reads the further factors of a product. -/
def productRest (scope : Scope) (value : Scalar) (tokens : List Token) :
    Except EvaluationError (Scalar × { rest : List Token // rest.length ≤ tokens.length }) :=
  match tokens with
  | .operator .times :: following => do
      let (factor, ⟨rest, h⟩) ← negated scope following
      let (value, ⟨rest, h'⟩) ← productRest scope (scope.field.mul value factor) rest
      return (value, ⟨rest, by simp only [List.length_cons]; omega⟩)
  | .operator .divide :: following => do
      let (factor, ⟨rest, h⟩) ← negated scope following
      let inverse ← scope.invert .divisionByZero factor
      let (value, ⟨rest, h'⟩) ← productRest scope (scope.field.mul value inverse) rest
      return (value, ⟨rest, by simp only [List.length_cons]; omega⟩)
  | tokens => .ok (value, ⟨tokens, Nat.le_refl _⟩)
termination_by (tokens.length, 3)

/-- Reads a power behind any number of minus signs. -/
def negated (scope : Scope) (tokens : List Token) : Except EvaluationError (Read tokens) :=
  match tokens with
  | .operator .minus :: following => do
      let (value, ⟨rest, h⟩) ← negated scope following
      return (scope.field.neg value, ⟨rest, by simp only [List.length_cons]; omega⟩)
  | tokens => do
      let (base, ⟨rest, h⟩) ← atom scope tokens
      let (value, ⟨rest, h'⟩) ← scope.raise base rest
      return (value, ⟨rest, Nat.lt_of_le_of_lt h' h⟩)
termination_by (tokens.length, 2)

/-- Reads a number, a name or a sum in brackets. -/
def atom (scope : Scope) (tokens : List Token) : Except EvaluationError (Read tokens) :=
  match tokens with
  | .number value :: rest => .ok (scope.field.reduce value, ⟨rest, by simp⟩)
  | .name name :: rest =>
      match scope.lookup? name with
      | some value => .ok (value, ⟨rest, by simp⟩)
      | none => .error (.undefined name)
  | .opening :: inner => do
      match ← sum scope inner with
      | (value, ⟨.closing :: rest, h⟩) =>
          return (value, ⟨rest, by simp only [List.length_cons] at h ⊢; omega⟩)
      | _ => throw (.fault .notClosed)
  | token :: _ => .error (.fault (.strayToken token))
  | [] => .error (.fault .noValue)
termination_by (tokens.length, 1)

end

/-- The value of an expression: a sum with nothing after it. -/
def value (scope : Scope) (text : String) : Except EvaluationError Scalar :=
  match Token.ofChars text.toList with
  | .error c => .error (.fault (.strayCharacter c))
  | .ok tokens => do
      match ← scope.sum tokens with
      | (value, ⟨[], _⟩) => return value
      | (_, ⟨token :: _, _⟩) => throw (.fault (.strayToken token))

end Scope

end CommitScript
