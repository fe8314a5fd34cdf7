import Mathlib
import CommitScript.Proofs.ProveVerify
import CommitScript.Proofs.ResidueKeys

/-! # Proofs are bound to their statements

An accepted proof is not accepted for another statement that differs in one part. Nothing is asked
of the challenges for this but that the one in the proof is not zero: whatever the history draws
for the other statement, the equations of the proof fail.
-/

namespace CommitScript

variable {Element : Type} {key : CommitmentKey Element}

namespace ValueProof

variable (lawful : key.Lawful) {commitment commitment' : Element} {value value' : Scalar}
  {proof : ValueProof Element}
include lawful

/-- With a challenge other than zero a proof tells what a commitment hides besides the value. -/
theorem log_sub_eq_of_holds (member : key.group.Member commitment)
    (member' : key.group.Member commitment') (valid : proof.Valid key)
    (nonzero : proof.challenge ≠ key.field.zero) (holds : Holds key commitment value proof)
    (holds' : Holds key commitment' value' proof) :
    lawful.log commitment' - key.field.residue value' =
      lawful.log commitment - key.field.residue value := by
  have := lawful.prime
  rw [ne_eq, ← ScalarField.residue_eq_zero valid.challenge] at nonzero
  rw [holds_iff lawful member value valid.nonceCommitment] at holds
  rw [holds_iff lawful member' value' valid.nonceCommitment, holds, add_right_inj,
    mul_right_inj' nonzero] at holds'
  exact holds'.symm

theorem commitment_eq_of_holds (member : key.group.Member commitment)
    (member' : key.group.Member commitment') (valid : proof.Valid key)
    (nonzero : proof.challenge ≠ key.field.zero) (holds : Holds key commitment value proof)
    (holds' : Holds key commitment' value proof) : commitment' = commitment := by
  have same := log_sub_eq_of_holds lawful member member' valid nonzero holds holds'
  rwa [sub_left_inj, lawful.log_inj member' member] at same

theorem value_eq_of_holds (member : key.group.Member commitment) (reduced : key.field.Reduced value)
    (reduced' : key.field.Reduced value') (valid : proof.Valid key)
    (nonzero : proof.challenge ≠ key.field.zero) (holds : Holds key commitment value proof)
    (holds' : Holds key commitment value' proof) : value' = value := by
  have same := log_sub_eq_of_holds lawful member member valid nonzero holds holds'
  rwa [sub_right_inj, ScalarField.residue_inj reduced' reduced] at same

end ValueProof

/-- With a challenge other than zero a proof holds for one source only. -/
theorem SquareProof.source_eq_of_holds (lawful : key.Lawful)
    {source source' squared squared' : Element} (memberSource : key.group.Member source)
    (memberSource' : key.group.Member source') (memberSquared : key.group.Member squared)
    (memberSquared' : key.group.Member squared') {proof : SquareProof Element}
    (valid : proof.Valid key) (nonzero : proof.challenge ≠ key.field.zero)
    (holds : Holds key source squared proof) (holds' : Holds key source' squared' proof) :
    source' = source := by
  have := lawful.prime
  rw [ne_eq, ← ScalarField.residue_eq_zero valid.challenge] at nonzero
  have first := ((holds_iff lawful memberSource memberSquared valid).mp holds).1
  have first' := ((holds_iff lawful memberSource' memberSquared' valid).mp holds').1
  rw [← first, add_right_inj, mul_right_inj' nonzero,
    lawful.log_inj memberSource' memberSource] at first'
  exact first'

namespace SameProof

variable (lawful : key.Lawful) {left left' right right' : Element} {proof : SameProof}
include lawful

/-- A proof only holds for pairs that differ by the same. -/
theorem holds_iff_of_holds (memberLeft : key.group.Member left)
    (memberRight : key.group.Member right) (memberLeft' : key.group.Member left')
    (memberRight' : key.group.Member right') (holds : Holds key left right proof) :
    Holds key left' right' proof ↔
      lawful.log left' - lawful.log right' = lawful.log left - lawful.log right := by
  rw [holds_iff lawful memberLeft memberRight] at holds
  rw [holds_iff lawful memberLeft' memberRight', holds]

/-- Over an odd order a proof holds for the swapped pair only where there is nothing to swap. -/
theorem holds_swap_iff (odd : Odd key.field.modulus) (memberLeft : key.group.Member left)
    (memberRight : key.group.Member right) (holds : Holds key left right proof) :
    Holds key right left proof ↔ left = right := by
  have := lawful.prime
  have two : (2 : ZMod key.field.modulus) ≠ 0 := by
    intro zero
    have divides := (ZMod.natCast_eq_zero_iff 2 key.field.modulus).mp (by exact_mod_cast zero)
    rw [(Nat.prime_dvd_prime_iff_eq this.out Nat.prime_two).mp divides] at odd
    exact absurd odd (by decide)
  rw [holds_iff_of_holds lawful memberLeft memberRight memberRight memberLeft holds,
    ← lawful.log_inj memberLeft memberRight]
  constructor
  · intro swapped
    rw [← sub_eq_zero]
    apply (mul_eq_zero_iff_left two).mp
    linear_combination -swapped
  · intro same
    rw [same]

end SameProof

/-- An accepted proof whose challenge is not zero is rejected, whatever the history, for another
    commitment and for another value, or for another source and for another square. The proof of
    a shared secret is always rejected when one commitment is exchanged, and over an odd order it
    is accepted for the swapped pair just when both commitments are the same. -/
theorem accepted_proofs_bind_statements [DecidableEq Element] (lawful : key.Lawful) :
    (∀ history history' commitment value (proof : ValueProof Element),
      key.group.Member commitment → key.field.Reduced value → proof.Valid key →
      proof.challenge ≠ key.field.zero →
      (ValueProof.verify key history commitment value proof).1 = true →
        (∀ commitment', key.group.Member commitment' → commitment' ≠ commitment →
          (ValueProof.verify key history' commitment' value proof).1 = false) ∧
        (∀ value', key.field.Reduced value' → value' ≠ value →
          (ValueProof.verify key history' commitment value' proof).1 = false)) ∧
    (∀ history history' source squared (proof : SquareProof Element),
      key.group.Member source → key.group.Member squared → proof.Valid key →
      proof.challenge ≠ key.field.zero →
      (SquareProof.verify key history source squared proof).1 = true →
        (∀ source', key.group.Member source' → source' ≠ source →
          (SquareProof.verify key history' source' squared proof).1 = false) ∧
        (∀ squared', key.group.Member squared' → squared' ≠ squared →
          (SquareProof.verify key history' source squared' proof).1 = false)) ∧
    (∀ history history' left right proof, key.group.Member left → key.group.Member right →
      (SameProof.verify key history left right proof).1 = true →
        (∀ left', key.group.Member left' → left' ≠ left →
          (SameProof.verify key history' left' right proof).1 = false) ∧
        (∀ right', key.group.Member right' → right' ≠ right →
          (SameProof.verify key history' left right' proof).1 = false) ∧
        (Odd key.field.modulus →
          ((SameProof.verify key history' right left proof).1 = true ↔ left = right))) := by
  refine ⟨?_, ?_, ?_⟩
  · intro history history' commitment value proof member reduced valid nonzero accepted
    have holds := (of_decide_eq_true accepted).2
    constructor
    · intro commitment' member' differ
      rw [Bool.eq_false_iff]
      intro accepted'
      exact differ (ValueProof.commitment_eq_of_holds lawful member member' valid nonzero holds
        (of_decide_eq_true accepted').2)
    · intro value' reduced' differ
      rw [Bool.eq_false_iff]
      intro accepted'
      exact differ (ValueProof.value_eq_of_holds lawful member reduced reduced' valid nonzero holds
        (of_decide_eq_true accepted').2)
  · intro history history' source squared proof memberSource memberSquared valid nonzero accepted
    have holds := (of_decide_eq_true accepted).2
    constructor
    · intro source' memberSource' differ
      rw [Bool.eq_false_iff]
      intro accepted'
      exact differ (SquareProof.source_eq_of_holds lawful memberSource memberSource' memberSquared
        memberSquared valid nonzero holds (of_decide_eq_true accepted').2)
    · intro squared' memberSquared' differ
      rw [Bool.eq_false_iff]
      intro accepted'
      exact differ (SquareProof.squared_eq_of_verify lawful memberSource memberSquared
        memberSquared' valid nonzero accepted accepted')
  · intro history history' left right proof memberLeft memberRight accepted
    have holds := of_decide_eq_true accepted
    refine ⟨?_, ?_, ?_⟩
    · intro left' memberLeft' differ
      rw [Bool.eq_false_iff]
      intro accepted'
      have same := (SameProof.holds_iff_of_holds lawful memberLeft memberRight memberLeft'
        memberRight holds).mp (of_decide_eq_true accepted')
      rw [sub_left_inj, lawful.log_inj memberLeft' memberLeft] at same
      exact differ same
    · intro right' memberRight' differ
      rw [Bool.eq_false_iff]
      intro accepted'
      have same := (SameProof.holds_iff_of_holds lawful memberLeft memberRight memberLeft
        memberRight' holds).mp (of_decide_eq_true accepted')
      rw [sub_right_inj, lawful.log_inj memberRight' memberRight] at same
      exact differ same
    · intro odd
      exact decide_eq_true_iff.trans
        (SameProof.holds_swap_iff lawful odd memberLeft memberRight holds)

open ResidueGroup in
/-- The proof that nine hides the square of what six hides, among the residues of twenty-three,
    is none that it does so of what four hides, or that four hides that square. -/
theorem accepted_proofs_bind_statements_small :
    let key := small.keyOf ⟨3⟩
    let history := key.history.message "commitment" [6]
    let proof : SquareProof Residue := ⟨⟨12⟩, ⟨8⟩, ⟨5⟩, ⟨9⟩, ⟨3⟩, ⟨3⟩⟩
    (SquareProof.verify key history ⟨6⟩ ⟨9⟩ proof).1 = true ∧
      (SquareProof.verify key history ⟨4⟩ ⟨9⟩ proof).1 = false ∧
      (SquareProof.verify key history ⟨6⟩ ⟨4⟩ proof).1 = false := by
  intro key history proof
  have lawful : key.Lawful := small_lawful
  have four : small.ops.Member ⟨4⟩ := rfl
  have six : small.ops.Member ⟨6⟩ := rfl
  have nine : small.ops.Member ⟨9⟩ := rfl
  have eight : small.ops.Member ⟨8⟩ := rfl
  have twelve : small.ops.Member ⟨12⟩ := rfl
  have reduced : key.field.Reduced ⟨5⟩ ∧ key.field.Reduced ⟨9⟩ ∧ key.field.Reduced ⟨3⟩ := by
    unfold ScalarField.Reduced
    decide
  have valid : proof.Valid key :=
    ⟨twelve, eight, reduced.1, reduced.2.1, reduced.2.2, reduced.2.2⟩
  have bound := (accepted_proofs_bind_statements lawful).2.1 history history ⟨6⟩ ⟨9⟩ proof six nine
    valid (by decide) verify_squareReceipt
  exact ⟨verify_squareReceipt, bound.1 ⟨4⟩ four (by decide), bound.2 ⟨4⟩ four (by decide)⟩

end CommitScript
