import CommitScript.Proofs.ExpressionDescent
import CommitScript.Proofs.ExpressionGrammar
import CommitScript.Proofs.ReducedValues
import CommitScript.Proofs.ResidueKeys
import CommitScript.Proofs.ScalarResidue
import CommitScript.Proofs.TableLaws
import CommitScript.Proofs.TokenText

/-! # The values of expressions

What an expression stands for among residues, read off its tree. The evaluator, which has no tree,
gives just this value: whatever it reads is a part of the grammar with that value, and each part
of the grammar that has a value is read up to where it ends.
-/

namespace CommitScript

open Success

namespace Expression

/-- The residue that an expression stands for. A quotient multiplies by the inverse, and
    exponents are whole numbers. -/
def value {modulus : Nat} (names : String → ZMod modulus) : Expression → ZMod modulus
  | number n => n
  | name text => names text
  | brackets a => a.value names
  | plus a b => a.value names + b.value names
  | minus a b => a.value names - b.value names
  | times a b => a.value names * b.value names
  | divide a b => a.value names * (b.value names)⁻¹
  | negate a => -a.value names
  | power a n => a.value names ^ n
  | inversePower a n => (a.value names)⁻¹ ^ n

def names : Expression → List String
  | number _ => []
  | name text => [text]
  | brackets a | negate a | power a _ | inversePower a _ => a.names
  | plus a b | minus a b | times a b | divide a b => a.names ++ b.names

/-- What an expression inverts: its divisors and the bases of its negated exponents. -/
def inverted : Expression → List Expression
  | number _ | name _ => []
  | brackets a | negate a | power a _ => a.inverted
  | plus a b | minus a b | times a b => a.inverted ++ b.inverted
  | divide a b => a.inverted ++ b.inverted ++ [b]
  | inversePower a _ => a.inverted ++ [a]

end Expression

namespace Scope

/-- The residues that names stand for. -/
def residues (scope : Scope) (name : String) : ZMod scope.field.modulus :=
  ((scope.lookup? name).map scope.field.residue).getD 0

/-- Whether an expression has a value: its names are bound and what it inverts is not zero. -/
structure Defines (scope : Scope) (e : Expression) : Prop where
  bound : ∀ name ∈ e.names, ∃ value, scope.lookup? name = some value
  invertible : ∀ a ∈ e.inverted, a.value scope.residues ≠ 0

/-- Whether an expression has a value and a scalar is it. -/
structure Gives (scope : Scope) (e : Expression) (v : Scalar) : Prop where
  defines : scope.Defines e
  reduced : scope.field.Reduced v
  residue : scope.field.residue v = e.value scope.residues

variable {scope : Scope} {a b c : Expression} {v w : Scalar}

section Defines

theorem defines_number (n : Nat) : scope.Defines (.number n) :=
  ⟨fun _ h => absurd h List.not_mem_nil, fun _ h => absurd h List.not_mem_nil⟩

theorem defines_name {text : String} :
    scope.Defines (.name text) ↔ ∃ value, scope.lookup? text = some value := by
  constructor
  · intro h
    exact h.bound text List.mem_cons_self
  · intro h
    refine ⟨fun name member => ?_, fun _ member => absurd member List.not_mem_nil⟩
    rwa [List.mem_singleton.mp member]

/-- An operator between two operands that inverts neither needs nothing of its own. -/
theorem defines_of_append (names : c.names = a.names ++ b.names)
    (inverted : c.inverted = a.inverted ++ b.inverted) :
    scope.Defines c ↔ scope.Defines a ∧ scope.Defines b := by
  constructor
  · intro h
    have bound := List.forall_mem_append.mp (names ▸ h.bound)
    have invertible := List.forall_mem_append.mp (inverted ▸ h.invertible)
    exact ⟨⟨bound.1, invertible.1⟩, ⟨bound.2, invertible.2⟩⟩
  · rintro ⟨left, right⟩
    constructor
    · rw [names]
      exact List.forall_mem_append.mpr ⟨left.bound, right.bound⟩
    · rw [inverted]
      exact List.forall_mem_append.mpr ⟨left.invertible, right.invertible⟩

theorem defines_plus : scope.Defines (.plus a b) ↔ scope.Defines a ∧ scope.Defines b :=
  defines_of_append rfl rfl

theorem defines_minus : scope.Defines (.minus a b) ↔ scope.Defines a ∧ scope.Defines b :=
  defines_of_append rfl rfl

theorem defines_times : scope.Defines (.times a b) ↔ scope.Defines a ∧ scope.Defines b :=
  defines_of_append rfl rfl

theorem defines_divide :
    scope.Defines (.divide a b) ↔
      (scope.Defines a ∧ scope.Defines b) ∧ b.value scope.residues ≠ 0 := by
  rw [← defines_times]
  constructor
  · intro h
    have invertible := List.forall_mem_append.mp h.invertible
    exact ⟨⟨h.bound, invertible.1⟩, invertible.2 b List.mem_cons_self⟩
  · rintro ⟨operands, nonzero⟩
    exact ⟨operands.bound, List.forall_mem_append.mpr
      ⟨operands.invertible, List.forall_mem_singleton.mpr nonzero⟩⟩

theorem defines_inversePower {n : Nat} :
    scope.Defines (.inversePower a n) ↔ scope.Defines a ∧ a.value scope.residues ≠ 0 := by
  constructor
  · intro h
    have invertible := List.forall_mem_append.mp h.invertible
    exact ⟨⟨h.bound, invertible.1⟩, invertible.2 a List.mem_cons_self⟩
  · rintro ⟨base, nonzero⟩
    exact ⟨base.bound, List.forall_mem_append.mpr
      ⟨base.invertible, List.forall_mem_singleton.mpr nonzero⟩⟩

end Defines

namespace Gives

theorem number (n : Nat) : scope.Gives (.number n) (scope.field.reduce n) :=
  ⟨defines_number n, scope.field.reduced_reduce n, scope.field.residue_reduce n⟩

theorem name (closed : scope.Reduced) {text : String} (h : scope.lookup? text = some v) :
    scope.Gives (.name text) v := by
  refine ⟨defines_name.mpr ⟨v, h⟩, closed text v h, ?_⟩
  simp [Expression.value, residues, h]

theorem brackets (h : scope.Gives a v) : scope.Gives (.brackets a) v :=
  ⟨⟨h.defines.bound, h.defines.invertible⟩, h.reduced, h.residue⟩

theorem plus (h : scope.Gives a v) (h' : scope.Gives b w) :
    scope.Gives (.plus a b) (scope.field.add v w) := by
  refine ⟨defines_plus.mpr ⟨h.defines, h'.defines⟩, scope.field.reduced_add v w, ?_⟩
  rw [scope.field.residue_add, h.residue, h'.residue, Expression.value]

theorem minus (h : scope.Gives a v) (h' : scope.Gives b w) :
    scope.Gives (.minus a b) (scope.field.sub v w) := by
  refine ⟨defines_minus.mpr ⟨h.defines, h'.defines⟩, scope.field.reduced_sub v w, ?_⟩
  rw [scope.field.residue_sub v h'.reduced, h.residue, h'.residue, Expression.value]

theorem times (h : scope.Gives a v) (h' : scope.Gives b w) :
    scope.Gives (.times a b) (scope.field.mul v w) := by
  refine ⟨defines_times.mpr ⟨h.defines, h'.defines⟩, scope.field.reduced_mul v w, ?_⟩
  rw [scope.field.residue_mul, h.residue, h'.residue, Expression.value]

theorem negate (h : scope.Gives a v) : scope.Gives (.negate a) (scope.field.neg v) := by
  refine ⟨⟨h.defines.bound, h.defines.invertible⟩, scope.field.reduced_neg v, ?_⟩
  rw [scope.field.residue_neg h.reduced, h.residue, Expression.value]

theorem power (h : scope.Gives a v) (n : Nat) :
    scope.Gives (.power a n) (scope.field.pow v n) := by
  refine ⟨⟨h.defines.bound, h.defines.invertible⟩, scope.field.reduced_pow v n, ?_⟩
  rw [scope.field.residue_pow, h.residue, Expression.value]

variable (prime : scope.field.modulus.Prime)

include prime in
/-- A value is inverted just when it is not zero. -/
theorem inverse_iff (h : scope.Gives a v) {inverse : Scalar} :
    scope.field.inverse v = .ok inverse ↔
      a.value scope.residues ≠ 0 ∧ scope.field.Reduced inverse ∧
        scope.field.residue inverse = (a.value scope.residues)⁻¹ := by
  rw [ScalarField.inverse_eq_ok prime h.reduced, h.residue]

include prime in
theorem exists_inverse (h : scope.Gives a v) (nonzero : a.value scope.residues ≠ 0) :
    ∃ inverse, scope.field.inverse v = .ok inverse := by
  rw [← h.residue, ne_eq, ScalarField.residue_eq_zero h.reduced] at nonzero
  obtain ⟨inverse, inverts, -⟩ := ScalarField.exists_inverse prime h.reduced nonzero
  exact ⟨inverse, inverts⟩

include prime in
theorem divide (h : scope.Gives a v) (h' : scope.Gives b w) {inverse : Scalar}
    (inverts : scope.field.inverse w = .ok inverse) :
    scope.Gives (.divide a b) (scope.field.mul v inverse) := by
  obtain ⟨nonzero, -, residue⟩ := (h'.inverse_iff prime).mp inverts
  refine ⟨defines_divide.mpr ⟨⟨h.defines, h'.defines⟩, nonzero⟩, scope.field.reduced_mul _ _, ?_⟩
  rw [scope.field.residue_mul, h.residue, residue, Expression.value]

include prime in
theorem inversePower (h : scope.Gives a v) (n : Nat) {inverse : Scalar}
    (inverts : scope.field.inverse v = .ok inverse) :
    scope.Gives (.inversePower a n) (scope.field.pow inverse n) := by
  obtain ⟨nonzero, -, residue⟩ := (h.inverse_iff prime).mp inverts
  refine ⟨defines_inversePower.mpr ⟨h.defines, nonzero⟩, scope.field.reduced_pow _ _, ?_⟩
  rw [scope.field.residue_pow, residue, Expression.value]

end Gives

/-- Which part of the grammar is read. What stands before further terms and factors is known by
    its value. -/
inductive Reads (scope : Scope) : Call → Expression.Part → Prop
  | sum : Reads scope .sum .sum
  | moreTerms {a total} : scope.Gives a total → Reads scope (.moreTerms total) (.moreTerms a)
  | product : Reads scope .product .product
  | moreFactors {a total} : scope.Gives a total → Reads scope (.moreFactors total) (.moreFactors a)
  | negated : Reads scope .negated .negated
  | power : Reads scope .power .power
  | atom : Reads scope .atom .atom

/-- Whether some tokens begin with a part of the grammar that has a value. -/
def Begins (scope : Scope) (part : Expression.Part) (tokens : List Token) (v : Scalar)
    (rest : List Token) : Prop :=
  ∃ ts e, tokens = ts ++ rest ∧ Expression.Derives part ts e ∧ scope.Gives e v

/-- Whether all that is read is a part of the grammar with its value. -/
def Sound (scope : Scope) (below : Call → List Token → LimitedReading) : Prop :=
  ∀ {call part tokens v rest}, scope.Reads call part → below call tokens = .ok (v, rest) →
    scope.Begins part tokens v rest

theorem invert_eq_ok {fault : ExpressionFault} {inverse : Scalar} :
    scope.invert fault v = .ok inverse ↔ scope.field.inverse v = .ok inverse := by
  unfold invert
  cases scope.field.inverse v <;> simp

/-- What stands behind an atom, if it is read. -/
theorem begins_of_raise (prime : scope.field.modulus.Prime) {ts tokens rest : List Token}
    (derives : Expression.Derives .atom ts a) (gives : scope.Gives a v)
    (h : plain (scope.raise v tokens) = .ok (w, rest)) :
    scope.Begins .power (ts ++ tokens) w rest := by
  obtain ⟨found, raised, same⟩ := except_map_eq_ok.mp h
  unfold raise at raised
  split at raised
  · next exponent _ =>
    obtain ⟨inverse, inverts, ends⟩ := except_bind_eq_ok.mp raised
    cases ends
    cases same
    exact ⟨_, .inversePower a exponent, by simp, .inversePower exponent derives,
      gives.inversePower prime exponent (invert_eq_ok.mp inverts)⟩
  · cases raised
  · cases raised
  · next exponent _ =>
    cases raised
    cases same
    exact ⟨_, .power a exponent, by simp, .power exponent derives, gives.power exponent⟩
  · cases raised
  · cases raised
  · cases raised
    cases same
    exact ⟨ts, a, rfl, .base derives, gives⟩

/-- A level of the descent is sound above a sound one. -/
theorem descend_sound (prime : scope.field.modulus.Prime) (closed : scope.Reduced)
    {below : Call → List Token → LimitedReading} (sound : scope.Sound below) :
    scope.Sound (scope.descend below) := by
  intro call part tokens v rest reads h
  unfold descend at h
  split at h
  · obtain ⟨⟨first, rest'⟩, one, others⟩ := except_bind_eq_ok.mp h
    cases reads
    obtain ⟨ts, a, rfl, derives, gives⟩ := sound .product one
    obtain ⟨us, b, rfl, more, gives'⟩ := sound (.moreTerms gives) others
    exact ⟨_, b, by simp, .sum derives more, gives'⟩
  · obtain ⟨⟨term, rest'⟩, one, others⟩ := except_bind_eq_ok.mp h
    cases reads with
    | moreTerms left =>
      obtain ⟨ts, a, rfl, derives, gives⟩ := sound .product one
      obtain ⟨us, b, rfl, more, gives'⟩ := sound (.moreTerms (left.plus gives)) others
      exact ⟨_, b, by simp, .plus derives more, gives'⟩
  · obtain ⟨⟨term, rest'⟩, one, others⟩ := except_bind_eq_ok.mp h
    cases reads with
    | moreTerms left =>
      obtain ⟨ts, a, rfl, derives, gives⟩ := sound .product one
      obtain ⟨us, b, rfl, more, gives'⟩ := sound (.moreTerms (left.minus gives)) others
      exact ⟨_, b, by simp, .minus derives more, gives'⟩
  · cases h
    cases reads with
    | moreTerms left => exact ⟨[], _, rfl, .noTerm, left⟩
  · obtain ⟨⟨first, rest'⟩, one, others⟩ := except_bind_eq_ok.mp h
    cases reads
    obtain ⟨ts, a, rfl, derives, gives⟩ := sound .negated one
    obtain ⟨us, b, rfl, more, gives'⟩ := sound (.moreFactors gives) others
    exact ⟨_, b, by simp, .product derives more, gives'⟩
  · obtain ⟨⟨factor, rest'⟩, one, others⟩ := except_bind_eq_ok.mp h
    cases reads with
    | moreFactors left =>
      obtain ⟨ts, a, rfl, derives, gives⟩ := sound .negated one
      obtain ⟨us, b, rfl, more, gives'⟩ := sound (.moreFactors (left.times gives)) others
      exact ⟨_, b, by simp, .times derives more, gives'⟩
  · obtain ⟨⟨factor, rest'⟩, one, others⟩ := except_bind_eq_ok.mp h
    obtain ⟨inverse, inverts, others⟩ := except_bind_eq_ok.mp others
    rw [mapError_eq_ok, invert_eq_ok] at inverts
    cases reads with
    | moreFactors left =>
      obtain ⟨ts, a, rfl, derives, gives⟩ := sound .negated one
      obtain ⟨us, b, rfl, more, gives'⟩ :=
        sound (.moreFactors (left.divide prime gives inverts)) others
      exact ⟨_, b, by simp, .divide derives more, gives'⟩
  · cases h
    cases reads with
    | moreFactors left => exact ⟨[], _, rfl, .noFactor, left⟩
  · obtain ⟨⟨inner, rest'⟩, one, ends⟩ := except_bind_eq_ok.mp h
    cases reads
    cases ends
    obtain ⟨ts, a, rfl, derives, gives⟩ := sound .negated one
    exact ⟨_, _, by simp, .negate derives, gives.negate⟩
  · cases reads
    obtain ⟨ts, a, rfl, derives, gives⟩ := sound .power h
    exact ⟨ts, a, rfl, .unsigned derives, gives⟩
  · obtain ⟨⟨base, rest'⟩, one, raised⟩ := except_bind_eq_ok.mp h
    cases reads
    obtain ⟨ts, a, rfl, derives, gives⟩ := sound .atom one
    exact begins_of_raise prime derives gives (mapError_eq_ok.mp raised)
  · next n rest' =>
    cases h
    cases reads
    exact ⟨[.number n], _, rfl, .number n, .number n⟩
  · next text rest' =>
    split at h
    · next found =>
      cases h
      cases reads
      exact ⟨[.name text], _, rfl, .name text, .name closed found⟩
    · cases h
  · obtain ⟨⟨value, rest'⟩, one, ends⟩ := except_bind_eq_ok.mp h
    cases reads
    obtain ⟨ts, a, rfl, derives, gives⟩ := sound .sum one
    split at ends
    · next closes =>
      cases closes
      cases ends
      exact ⟨_, _, by simp, .brackets derives, gives.brackets⟩
    · cases ends
  · cases h
  · cases h

/-- Whatever the evaluator reads is a part of the grammar with its value. -/
theorem begins_of_read (prime : scope.field.modulus.Prime) (closed : scope.Reduced) {call : Call}
    {part : Expression.Part} {tokens rest : List Token} (reads : scope.Reads call part)
    (h : scope.read call tokens = .ok (v, rest)) : scope.Begins part tokens v rest := by
  have sound (levels : Nat) : scope.Sound (scope.readWithin levels) := by
    induction levels with
    | zero =>
        intro call part tokens v rest reads h
        cases h
    | succ levels ih => exact descend_sound prime closed ih
  apply sound (call.depth tokens + 1) reads
  rw [readWithin_eq (Nat.lt_succ_self _)]
  exact mapError_eq_ok.mpr h

/-- Whether a part of an expression is read with its value, up to what follows it. -/
def Evaluates (scope : Scope) (call : Call) (tokens : List Token) (e : Expression)
    (rest : List Token) : Prop :=
  ∃ v, (scope.read call tokens).unlimited = .ok (v, rest) ∧ scope.Gives e v

/-- Where a sum or a product has a value, so has what stands before its further operands. -/
theorem Defines.left {part : Expression.Part} {ts : List Token}
    (derives : Expression.Derives part ts a) (defined : scope.Defines a) :
    ∀ left ∈ part.left?, scope.Defines left := by
  induction derives with
  | noTerm | noFactor =>
      intro left before
      cases before
      exact defined
  | plus _ _ _ ih =>
      intro left before
      cases before
      exact (defines_plus.mp (ih defined _ rfl)).1
  | minus _ _ _ ih =>
      intro left before
      cases before
      exact (defines_minus.mp (ih defined _ rfl)).1
  | times _ _ _ ih =>
      intro left before
      cases before
      exact (defines_times.mp (ih defined _ rfl)).1
  | divide _ _ _ ih =>
      intro left before
      cases before
      exact (defines_divide.mp (ih defined _ rfl)).1.1
  | _ =>
      intro left before
      cases before

theorem plain_raise_of_ends {rest : List Token} (ends : Expression.Part.power.Ends rest) :
    plain (scope.raise v rest) = .ok (v, rest) := by
  unfold raise
  split
  iterate 6 cases ends
  rfl

/-- Each part of the grammar that has a value is read with it, where it ends. -/
theorem evaluates_of_derives (prime : scope.field.modulus.Prime) (closed : scope.Reduced)
    {part : Expression.Part} {ts : List Token} (derives : Expression.Derives part ts a) :
    ∀ {call rest}, scope.Reads call part → scope.Defines a → part.Ends rest →
      scope.Evaluates call (ts ++ rest) a rest := by
  induction derives with
  | sum first more ihFirst ihMore =>
      intro call rest reads defined ends
      cases reads
      obtain ⟨v, one, gives⟩ := ihFirst .product (.left more defined _ rfl) (more.ends_terms ends)
      obtain ⟨w, others, gives'⟩ := ihMore (.moreTerms gives) defined ends
      refine ⟨w, ?_, gives'⟩
      rw [List.append_assoc, read_eq_descend]
      exact except_bind_eq_ok.mpr ⟨_, one, others⟩
  | noTerm =>
      intro call rest reads defined ends
      cases reads with
      | moreTerms left =>
        refine ⟨_, ?_, left⟩
        rw [read_eq_descend, List.nil_append, descend]
        · rfl
        · rintro following rfl
          cases ends
        · rintro following rfl
          cases ends
  | plus operand more ihOperand ihMore =>
      intro call rest reads defined ends
      have operands := defines_plus.mp (.left more defined _ rfl)
      cases reads with
      | moreTerms left =>
        obtain ⟨v, one, gives⟩ := ihOperand .product operands.2 (more.ends_terms ends)
        obtain ⟨w, others, gives'⟩ := ihMore (.moreTerms (left.plus gives)) defined ends
        refine ⟨w, ?_, gives'⟩
        rw [List.cons_append, List.append_assoc, read_eq_descend]
        exact except_bind_eq_ok.mpr ⟨_, one, others⟩
  | minus operand more ihOperand ihMore =>
      intro call rest reads defined ends
      have operands := defines_minus.mp (.left more defined _ rfl)
      cases reads with
      | moreTerms left =>
        obtain ⟨v, one, gives⟩ := ihOperand .product operands.2 (more.ends_terms ends)
        obtain ⟨w, others, gives'⟩ := ihMore (.moreTerms (left.minus gives)) defined ends
        refine ⟨w, ?_, gives'⟩
        rw [List.cons_append, List.append_assoc, read_eq_descend]
        exact except_bind_eq_ok.mpr ⟨_, one, others⟩
  | product first more ihFirst ihMore =>
      intro call rest reads defined ends
      cases reads
      obtain ⟨v, one, gives⟩ := ihFirst .negated (.left more defined _ rfl) (more.ends_factors ends)
      obtain ⟨w, others, gives'⟩ := ihMore (.moreFactors gives) defined ends
      refine ⟨w, ?_, gives'⟩
      rw [List.append_assoc, read_eq_descend]
      exact except_bind_eq_ok.mpr ⟨_, one, others⟩
  | noFactor =>
      intro call rest reads defined ends
      cases reads with
      | moreFactors left =>
        refine ⟨_, ?_, left⟩
        rw [read_eq_descend, List.nil_append, descend]
        · rfl
        · rintro following rfl
          cases ends
        · rintro following rfl
          cases ends
  | times operand more ihOperand ihMore =>
      intro call rest reads defined ends
      have operands := defines_times.mp (.left more defined _ rfl)
      cases reads with
      | moreFactors left =>
        obtain ⟨v, one, gives⟩ := ihOperand .negated operands.2 (more.ends_factors ends)
        obtain ⟨w, others, gives'⟩ := ihMore (.moreFactors (left.times gives)) defined ends
        refine ⟨w, ?_, gives'⟩
        rw [List.cons_append, List.append_assoc, read_eq_descend]
        exact except_bind_eq_ok.mpr ⟨_, one, others⟩
  | divide operand more ihOperand ihMore =>
      intro call rest reads defined ends
      have operands := defines_divide.mp (.left more defined _ rfl)
      cases reads with
      | moreFactors left =>
        obtain ⟨v, one, gives⟩ := ihOperand .negated operands.1.2 (more.ends_factors ends)
        obtain ⟨inverse, inverts⟩ := gives.exists_inverse prime operands.2
        obtain ⟨w, others, gives'⟩ :=
          ihMore (.moreFactors (left.divide prime gives inverts)) defined ends
        refine ⟨w, ?_, gives'⟩
        rw [List.cons_append, List.append_assoc, read_eq_descend]
        refine except_bind_eq_ok.mpr ⟨_, one, except_bind_eq_ok.mpr ⟨inverse, ?_, others⟩⟩
        rw [mapError_eq_ok, invert_eq_ok, inverts]
  | negate inner ih =>
      intro call rest reads defined ends
      cases reads
      obtain ⟨v, one, gives⟩ := ih .negated ⟨defined.bound, defined.invertible⟩ ends
      refine ⟨_, ?_, gives.negate⟩
      rw [List.cons_append, read_eq_descend]
      exact except_bind_eq_ok.mpr ⟨_, one, rfl⟩
  | unsigned inner ih =>
      intro call rest reads defined ends
      cases reads
      obtain ⟨v, one, gives⟩ := ih .power defined ends
      refine ⟨v, ?_, gives⟩
      rw [read_eq_descend, descend]
      · exact one
      · exact fun following => inner.power_ne_operator .minus
  | base inner ih =>
      intro call rest reads defined ends
      cases reads
      obtain ⟨v, one, gives⟩ := ih .atom defined (Expression.Part.ends_atom rest)
      refine ⟨v, ?_, gives⟩
      rw [read_eq_descend]
      exact except_bind_eq_ok.mpr ⟨_, one, mapError_eq_ok.mpr (plain_raise_of_ends ends)⟩
  | power n inner ih =>
      intro call rest reads defined ends
      cases reads
      obtain ⟨v, one, gives⟩ :=
        ih .atom ⟨defined.bound, defined.invertible⟩ (Expression.Part.ends_atom _)
      refine ⟨_, ?_, gives.power n⟩
      rw [List.append_assoc, read_eq_descend]
      exact except_bind_eq_ok.mpr ⟨_, one, rfl⟩
  | inversePower n inner ih =>
      intro call rest reads defined ends
      obtain ⟨base, nonzero⟩ := defines_inversePower.mp defined
      cases reads
      obtain ⟨v, one, gives⟩ := ih .atom base (Expression.Part.ends_atom _)
      obtain ⟨inverse, inverts⟩ := gives.exists_inverse prime nonzero
      refine ⟨_, ?_, gives.inversePower prime n inverts⟩
      rw [List.append_assoc, read_eq_descend]
      refine except_bind_eq_ok.mpr ⟨_, one, mapError_eq_ok.mpr (except_map_eq_ok.mpr ?_)⟩
      exact ⟨_, except_bind_eq_ok.mpr ⟨inverse, invert_eq_ok.mpr inverts, rfl⟩, rfl⟩
  | number n =>
      intro call rest reads defined ends
      cases reads
      refine ⟨_, ?_, .number n⟩
      rw [read_eq_descend]
      rfl
  | name text =>
      intro call rest reads defined ends
      obtain ⟨v, found⟩ := defines_name.mp defined
      cases reads
      refine ⟨v, ?_, .name closed found⟩
      rw [read_eq_descend, List.singleton_append, descend, found]
      rfl
  | brackets inner ih =>
      intro call rest reads defined ends
      cases reads
      have closes : Expression.Part.sum.Ends (.closing :: rest) := trivial
      obtain ⟨v, one, gives⟩ := ih .sum ⟨defined.bound, defined.invertible⟩ closes
      refine ⟨v, ?_, gives.brackets⟩
      rw [List.cons_append, List.append_assoc, read_eq_descend]
      exact except_bind_eq_ok.mpr ⟨_, one, rfl⟩

/-- The evaluator gives the value of the tree of a text. -/
theorem value_eq_ok (prime : scope.field.modulus.Prime) (closed : scope.Reduced) {text : String} :
    scope.value text = .ok v ↔
      ∃ tokens e, Token.Spelled text.toList tokens ∧ Expression.Derives .sum tokens e ∧
        scope.Gives e v := by
  constructor
  · intro h
    unfold Scope.value at h
    split at h
    · cases h
    · next tokens cut =>
      obtain ⟨⟨first, rest, shorter⟩, one, ends⟩ := except_bind_eq_ok.mp h
      split at ends
      · next whole =>
        cases whole
        cases ends
        obtain ⟨ts, e, same, derives, gives⟩ :=
          begins_of_read prime closed .sum (except_map_eq_ok.mpr ⟨_, one, rfl⟩)
        rw [same, List.append_nil] at cut
        exact ⟨ts, e, Token.ofChars_eq_ok.mp cut, derives, gives⟩
      · cases ends
  · rintro ⟨tokens, e, spelled, derives, gives⟩
    have ends : Expression.Part.sum.Ends [] := trivial
    obtain ⟨w, one, gives'⟩ := evaluates_of_derives prime closed derives .sum gives.defines ends
    obtain rfl : w = v := by
      rw [← ScalarField.residue_inj gives'.reduced gives.reduced, gives'.residue, gives.residue]
    rw [List.append_nil] at one
    obtain ⟨⟨v', rest, shorter⟩, read, same⟩ := except_map_eq_ok.mp (mapError_eq_ok.mp one)
    cases same
    rw [Scope.value, Token.ofChars_eq_ok.mpr spelled]
    exact except_bind_eq_ok.mpr ⟨_, read, rfl⟩

/-- What names stand for in expressions over a table. -/
def ofTable (field : ScalarField) (table : Table Opening) : Scope where
  field := field
  lookup? name := (table.get? name).map Opening.secret

end Scope

/-- A text has a value just when it spells an expression whose names are bound and which inverts
    nothing that is zero, and that is the value of its only tree. Any other text gives a fault,
    and the descent comes to its end on every list of tokens. -/
theorem evaluates_spelled_expressions {field : ScalarField} (prime : field.modulus.Prime)
    {table : Table Opening} (reduced : table.All fun opening => field.Reduced opening.secret)
    (text : String) :
    (∀ v, evaluate field table text = .ok v ↔
      ∃ tokens e, Token.Spelled text.toList tokens ∧ Expression.Derives .sum tokens e ∧
        (Scope.ofTable field table).Defines e ∧ field.Reduced v ∧
        field.residue v = e.value (Scope.ofTable field table).residues) ∧
      (∀ tokens tokens' e e', Token.Spelled text.toList tokens → Expression.Derives .sum tokens e →
        Token.Spelled text.toList tokens' → Expression.Derives .sum tokens' e' →
          tokens = tokens' ∧ e = e') ∧
      ((¬∃ tokens e, Token.Spelled text.toList tokens ∧ Expression.Derives .sum tokens e ∧
          (Scope.ofTable field table).Defines e) →
        ∃ fault : EvaluationError, evaluate field table text = .error (fault.toRunError text)) ∧
      (∀ tokens levels, 5 * tokens.length + 5 ≤ levels →
        (Scope.ofTable field table).readWithin levels .sum tokens =
          ((Scope.ofTable field table).read .sum tokens).unlimited) := by
  have closed : (Scope.ofTable field table).Reduced := by
    intro name value lookup
    obtain ⟨opening, found, rfl⟩ := Option.map_eq_some_iff.mp lookup
    exact reduced name opening found
  have gives (v : Scalar) : evaluate field table text = .ok v ↔
      ∃ tokens e, Token.Spelled text.toList tokens ∧ Expression.Derives .sum tokens e ∧
        (Scope.ofTable field table).Gives e v :=
    mapError_eq_ok.trans (Scope.value_eq_ok prime closed)
  refine ⟨fun v => (gives v).trans ?_, ?_, ?_, ?_⟩
  · constructor
    · rintro ⟨tokens, e, spelled, derives, defines, small, residue⟩
      exact ⟨tokens, e, spelled, derives, defines, small, residue⟩
    · rintro ⟨tokens, e, spelled, derives, defines, small, residue⟩
      exact ⟨tokens, e, spelled, derives, defines, small, residue⟩
  · intro tokens tokens' e e' spelled derives spelled' derives'
    obtain rfl := spelled.unique spelled'
    exact ⟨rfl, derives.unique derives'⟩
  · intro undefined
    cases result : evaluate field table text with
    | ok v =>
        obtain ⟨tokens, e, spelled, derives, gives⟩ := (gives v).mp result
        exact absurd ⟨tokens, e, spelled, derives, gives.defines⟩ undefined
    | error fault =>
        obtain ⟨cause, -, same⟩ := mapError_eq_error.mp result
        exact ⟨cause, congrArg _ same.symm⟩
  · intro tokens levels enough
    exact Scope.readWithin_eq enough

/-- A third of one modulo eleven. -/
theorem evaluates_spelled_expressions_small :
    evaluate (ResidueGroup.small.keyOf ⟨3⟩).field (.ofList [("x", ⟨⟨3⟩, ⟨0⟩⟩)]) "1/x" =
      .ok ⟨4⟩ := by
  have nonzero : (3 : ZMod 11) ≠ 0 := by decide
  have third : (3 : ZMod 11) * 4 = 1 := by decide
  have prime : Fact (Nat.Prime 11) := ResidueGroup.small_lawful.prime
  have reduced : (Table.ofList [("x", (⟨⟨3⟩, ⟨0⟩⟩ : Opening))]).All fun opening =>
      (ResidueGroup.small.keyOf ⟨3⟩).field.Reduced opening.secret :=
    Table.all_insert Table.all_empty (show 3 < 11 by decide)
  have name : Token.Spelled ['x'] [.name "x"] :=
    .name (by decide) (List.forall_mem_nil _) (by simp) .nil
  have spelled : Token.Spelled ['1', '/', 'x'] [.number 1, .operator .divide, .name "x"] :=
    .number (List.cons_ne_nil '1' []) (by simp) (by simp) (.operator .divide name)
  have factors : Expression.Derives (.moreFactors (.number 1)) [.operator .divide, .name "x"]
      (.divide (.number 1) (.name "x")) :=
    .divide (.unsigned (.base (.name "x"))) .noFactor
  have derives : Expression.Derives .sum [.number 1, .operator .divide, .name "x"]
      (.divide (.number 1) (.name "x")) :=
    .sum (.product (.unsigned (.base (.number 1))) factors) .noTerm
  apply ((evaluates_spelled_expressions prime.out reduced "1/x").1 ⟨4⟩).mpr
  refine ⟨_, _, spelled, derives, ⟨?_, ?_⟩, show 4 < 11 by decide, ?_⟩
  · exact List.forall_mem_singleton.mpr ⟨⟨3⟩, rfl⟩
  · exact List.forall_mem_singleton.mpr nonzero
  · change (4 : ZMod 11) = (1 : Nat) * 3⁻¹
    rw [Nat.cast_one, one_mul]
    exact (inv_eq_of_mul_eq_one_right third).symm

end CommitScript
