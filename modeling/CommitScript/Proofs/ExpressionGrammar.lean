import Mathlib
import CommitScript.Expression.Token

/-! # The grammar of expressions

Which lists of tokens are expressions, and of what shape.

    sum      := product (("+" | "-") product)*
    product  := negated (("*" | "/") negated)*
    negated  := "-" negated | power
    power    := atom ("^" "-"? number)?
    atom     := number | name | "(" sum ")"

Further terms and factors take all that stands before them as their left operand. The main
statement says that no list of tokens has two shapes: a part ends where nothing stands that it
could go on with, and up to there its tokens determine it.
-/

namespace CommitScript

/-- An expression as a tree. -/
inductive Expression where
  | number (value : Nat)
  | name (text : String)
  | brackets (inner : Expression)
  | plus (left right : Expression)
  | minus (left right : Expression)
  | times (left right : Expression)
  | divide (left right : Expression)
  | negate (inner : Expression)
  /-- A power whose exponent is not negated. -/
  | power (base : Expression) (exponent : Nat)
  /-- A power whose exponent is negated. -/
  | inversePower (base : Expression) (exponent : Nat)
  deriving Repr, DecidableEq

namespace Expression

/-- The parts of the grammar. -/
inductive Part where
  | sum
  /-- What may follow the terms before it, which are the left operand of the next one. -/
  | moreTerms (left : Expression)
  | product
  /-- What may follow the factors before it, which are the left operand of the next one. -/
  | moreFactors (left : Expression)
  | negated
  | power
  | atom
  deriving Repr, DecidableEq

/-- What stands before a part as a left operand. -/
def Part.left? : Part → Option Expression
  | moreTerms left | moreFactors left => some left
  | _ => none

/-- Whether some tokens are a part of the grammar with a tree. -/
inductive Derives : Part → List Token → Expression → Prop
  | sum {ts us a b} : Derives .product ts a → Derives (.moreTerms a) us b →
      Derives .sum (ts ++ us) b
  | noTerm {a} : Derives (.moreTerms a) [] a
  | plus {a ts b us c} : Derives .product ts b → Derives (.moreTerms (plus a b)) us c →
      Derives (.moreTerms a) (.operator .plus :: (ts ++ us)) c
  | minus {a ts b us c} : Derives .product ts b → Derives (.moreTerms (minus a b)) us c →
      Derives (.moreTerms a) (.operator .minus :: (ts ++ us)) c
  | product {ts us a b} : Derives .negated ts a → Derives (.moreFactors a) us b →
      Derives .product (ts ++ us) b
  | noFactor {a} : Derives (.moreFactors a) [] a
  | times {a ts b us c} : Derives .negated ts b → Derives (.moreFactors (times a b)) us c →
      Derives (.moreFactors a) (.operator .times :: (ts ++ us)) c
  | divide {a ts b us c} : Derives .negated ts b → Derives (.moreFactors (divide a b)) us c →
      Derives (.moreFactors a) (.operator .divide :: (ts ++ us)) c
  | negate {ts a} : Derives .negated ts a → Derives .negated (.operator .minus :: ts) (negate a)
  | unsigned {ts a} : Derives .power ts a → Derives .negated ts a
  | base {ts a} : Derives .atom ts a → Derives .power ts a
  | power {ts a} (n : Nat) : Derives .atom ts a →
      Derives .power (ts ++ [.operator .power, .number n]) (power a n)
  | inversePower {ts a} (n : Nat) : Derives .atom ts a →
      Derives .power (ts ++ [.operator .power, .operator .minus, .number n]) (inversePower a n)
  | number (n : Nat) : Derives .atom [.number n] (number n)
  | name (text : String) : Derives .atom [.name text] (name text)
  | brackets {ts a} :
      Derives .sum ts a → Derives .atom (.opening :: (ts ++ [.closing])) (brackets a)

/-- The operators with which a part can go on. -/
def Part.goesOn : Part → Operator → Bool
  | sum, _ => true
  | moreTerms _, _ => true
  | product, op => op = .times ∨ op = .divide ∨ op = .power
  | moreFactors _, op => op = .times ∨ op = .divide ∨ op = .power
  | negated, op => op = .power
  | power, op => op = .power
  | atom, _ => false

/-- Whether a part has to end where some tokens follow. -/
def Part.Ends (part : Part) : List Token → Prop
  | .operator op :: _ => part.goesOn op = false
  | _ => True

/-- A part ends where one does that goes on with more operators. -/
theorem Part.Ends.weaken {part part' : Part} {rest : List Token} (ends : part.Ends rest)
    (h : ∀ op, part'.goesOn op = true → part.goesOn op = true) : part'.Ends rest := by
  unfold Part.Ends at ends ⊢
  split
  · next op after =>
    have := h op
    grind
  · trivial

theorem Part.ends_atom (rest : List Token) : atom.Ends rest := by
  unfold Part.Ends
  split <;> trivial

theorem Part.ends_product_of_sum {rest : List Token} (ends : sum.Ends rest) :
    product.Ends rest :=
  ends.weaken fun _ _ => rfl

theorem Part.ends_negated_of_product {rest : List Token} (ends : product.Ends rest) :
    negated.Ends rest :=
  ends.weaken fun op goes => by
    cases op with
    | power => rfl
    | _ => cases goes

/-- Whether no other tokens, and no other tree, could be what a part begins with where it ends. -/
def Determined (part : Part) (ts : List Token) (a : Expression) : Prop :=
  ∀ {us b r s}, Derives part us b → ts ++ r = us ++ s → part.Ends r → part.Ends s →
    ts = us ∧ a = b

namespace Derives

variable {ts us r s : List Token} {a b : Expression}

/-- A product ends where further terms begin. -/
theorem ends_terms (h : Derives (.moreTerms a) us b) (ends : Part.sum.Ends r) :
    Part.product.Ends (us ++ r) := by
  cases h with
  | noTerm => exact Part.ends_product_of_sum ends
  | plus => rfl
  | minus => rfl

/-- A negated power ends where further factors begin. -/
theorem ends_factors (h : Derives (.moreFactors a) us b) (ends : Part.product.Ends r) :
    Part.negated.Ends (us ++ r) := by
  cases h with
  | noFactor => exact Part.ends_negated_of_product ends
  | times => rfl
  | divide => rfl

theorem atom_ne_operator (h : Derives .atom ts a) (op : Operator) :
    ts ++ r ≠ .operator op :: s := by
  cases h with
  | number | name | brackets => simp

/-- No power begins with an operator, so none begins with a minus sign. -/
theorem power_ne_operator (h : Derives .power ts a) (op : Operator) :
    ts ++ r ≠ .operator op :: s := by
  cases h with
  | base base => exact base.atom_ne_operator op
  | power n base | inversePower n base =>
      rw [List.append_assoc]
      exact base.atom_ne_operator op

/-- An operand with what follows it is determined when both are. -/
theorem determined_append {part : Part} (more : Expression → Part) {ts' us' : List Token}
    {a' c c' : Expression}
    (follow : ∀ {a us c r}, Derives (more a) us c → (more a).Ends r → part.Ends (us ++ r))
    (first : Determined part ts a) (others : Determined (more a) us c)
    (derives : Derives (more a) us c) (derives₁ : Derives part ts' a')
    (derives₂ : Derives (more a') us' c') (same : ts ++ us ++ r = ts' ++ us' ++ s)
    (ends : (more a).Ends r) (ends' : (more a').Ends s) : ts ++ us = ts' ++ us' ∧ c = c' := by
  rw [List.append_assoc, List.append_assoc] at same
  obtain ⟨rfl, rfl⟩ := first derives₁ same (follow derives ends) (follow derives₂ ends')
  obtain ⟨rfl, rfl⟩ := others derives₂ (List.append_cancel_left same) ends ends'
  exact ⟨rfl, rfl⟩

/-- An atom is determined whatever follows it. -/
theorem determined_atom {ts' xs ys : List Token} {a' : Expression} (atom : Determined .atom ts a)
    (derives : Derives .atom ts' a') (same : ts ++ xs = ts' ++ ys) :
    ts = ts' ∧ a = a' ∧ xs = ys := by
  obtain ⟨rfl, rfl⟩ := atom derives same (Part.ends_atom xs) (Part.ends_atom ys)
  exact ⟨rfl, rfl, List.append_cancel_left same⟩

/-- Where a part ends, its tokens and its tree are determined by what it begins with. -/
theorem determined {part : Part} (h : Derives part ts a) : Determined part ts a := by
  induction h with
  | sum first more ihFirst ihMore =>
      intro us b r s h' same ends ends'
      cases h' with
      | sum first' more' =>
          exact determined_append .moreTerms ends_terms ihFirst ihMore more first' more' same ends
            ends'
  | product first more ihFirst ihMore =>
      intro us b r s h' same ends ends'
      cases h' with
      | product first' more' =>
          exact determined_append .moreFactors ends_factors ihFirst ihMore more first' more' same
            ends ends'
  | noTerm =>
      intro us b r s h' same ends ends'
      cases h' with
      | noTerm => exact ⟨rfl, rfl⟩
      | plus | minus =>
          cases same
          cases ends
  | noFactor =>
      intro us b r s h' same ends ends'
      cases h' with
      | noFactor => exact ⟨rfl, rfl⟩
      | times | divide =>
          cases same
          cases ends
  | @plus left _ _ _ _ operand more ihOperand ihMore =>
      intro us b r s h' same ends ends'
      cases h' with
      | noTerm =>
          cases same
          cases ends'
      | minus => cases same
      | plus operand' more' =>
          obtain ⟨others, tree⟩ := determined_append (fun right => .moreTerms (.plus left right))
            ends_terms ihOperand ihMore more operand' more' (List.cons.inj same).2 ends ends'
          exact ⟨congrArg _ others, tree⟩
  | @minus left _ _ _ _ operand more ihOperand ihMore =>
      intro us b r s h' same ends ends'
      cases h' with
      | noTerm =>
          cases same
          cases ends'
      | plus => cases same
      | minus operand' more' =>
          obtain ⟨others, tree⟩ := determined_append (fun right => .moreTerms (.minus left right))
            ends_terms ihOperand ihMore more operand' more' (List.cons.inj same).2 ends ends'
          exact ⟨congrArg _ others, tree⟩
  | @times left _ _ _ _ operand more ihOperand ihMore =>
      intro us b r s h' same ends ends'
      cases h' with
      | noFactor =>
          cases same
          cases ends'
      | divide => cases same
      | times operand' more' =>
          obtain ⟨others, tree⟩ := determined_append (fun right => .moreFactors (.times left right))
            ends_factors ihOperand ihMore more operand' more' (List.cons.inj same).2 ends ends'
          exact ⟨congrArg _ others, tree⟩
  | @divide left _ _ _ _ operand more ihOperand ihMore =>
      intro us b r s h' same ends ends'
      cases h' with
      | noFactor =>
          cases same
          cases ends'
      | times => cases same
      | divide operand' more' =>
          obtain ⟨others, tree⟩ :=
            determined_append (fun right => .moreFactors (.divide left right))
              ends_factors ihOperand ihMore more operand' more' (List.cons.inj same).2 ends ends'
          exact ⟨congrArg _ others, tree⟩
  | negate inner ih =>
      intro us b r s h' same ends ends'
      cases h' with
      | negate inner' =>
          obtain ⟨rfl, rfl⟩ := ih inner' (List.cons.inj same).2 ends ends'
          exact ⟨rfl, rfl⟩
      | unsigned inner' => exact absurd same.symm (inner'.power_ne_operator .minus)
  | unsigned inner ih =>
      intro us b r s h' same ends ends'
      cases h' with
      | negate inner' => exact absurd same (inner.power_ne_operator .minus)
      | unsigned inner' => exact ih inner' same ends ends'
  | base base ih =>
      intro us b r s h' same ends ends'
      cases h' with
      | base base' => exact ih base' same (Part.ends_atom r) (Part.ends_atom s)
      | power n base' | inversePower n base' =>
          rw [List.append_assoc] at same
          obtain ⟨rfl, rfl, rfl⟩ := determined_atom ih base' same
          cases ends
  | power n base ih =>
      intro us b r s h' same ends ends'
      rw [List.append_assoc] at same
      cases h' with
      | base base' =>
          obtain ⟨rfl, rfl, rfl⟩ := determined_atom ih base' same
          cases ends'
      | power n' base' =>
          rw [List.append_assoc] at same
          obtain ⟨rfl, rfl, exponent⟩ := determined_atom ih base' same
          cases exponent
          exact ⟨rfl, rfl⟩
      | inversePower n' base' =>
          rw [List.append_assoc] at same
          obtain ⟨-, -, exponent⟩ := determined_atom ih base' same
          cases exponent
  | inversePower n base ih =>
      intro us b r s h' same ends ends'
      rw [List.append_assoc] at same
      cases h' with
      | base base' =>
          obtain ⟨rfl, rfl, rfl⟩ := determined_atom ih base' same
          cases ends'
      | power n' base' =>
          rw [List.append_assoc] at same
          obtain ⟨-, -, exponent⟩ := determined_atom ih base' same
          cases exponent
      | inversePower n' base' =>
          rw [List.append_assoc] at same
          obtain ⟨rfl, rfl, exponent⟩ := determined_atom ih base' same
          cases exponent
          exact ⟨rfl, rfl⟩
  | number n =>
      intro us b r s h' same ends ends'
      cases h' with
      | number n' =>
          cases same
          exact ⟨rfl, rfl⟩
      | name | brackets => cases same
  | name text =>
      intro us b r s h' same ends ends'
      cases h' with
      | name text' =>
          cases same
          exact ⟨rfl, rfl⟩
      | number | brackets => cases same
  | brackets inner ih =>
      intro us b r s h' same ends ends'
      cases h' with
      | number | name => cases same
      | brackets inner' =>
          rw [List.cons_append, List.cons_append, List.append_assoc, List.append_assoc] at same
          have behind := (List.cons.inj same).2
          obtain ⟨rfl, rfl⟩ := ih inner' behind trivial trivial
          exact ⟨rfl, rfl⟩

/-- No list of tokens is a part with two trees. -/
theorem unique {part : Part} (h : Derives part ts a) (h' : Derives part ts b) : a = b :=
  (h.determined h' (congrArg (· ++ []) rfl) trivial trivial).2

end Derives

end Expression

end CommitScript
