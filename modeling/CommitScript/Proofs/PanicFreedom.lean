import CommitScript.Proofs.Checked.Commands
import CommitScript.Proofs.Checked.Provers
import CommitScript.Proofs.Checked.Texts
import CommitScript.Proofs.Checked.Verifiers
import CommitScript.Proofs.ProveVerify
import CommitScript.Proofs.WeightValues

/-! # No input makes a program panic

Every scalar that comes up anywhere is reduced: what a field computes, what is read or drawn, the
parts of proofs, the values of expressions and of all that stands in brackets, and what a prover
binds, also behind commands that have failed. So the checked programs find nothing to panic at,
and each of them does what it does unchecked.
-/

namespace CommitScript

open Success

variable {Element : Type}

/-! ## Scalars -/

/-- Whether a field gives reduced scalars only. -/
structure ScalarField.GivesReduced (field : ScalarField) : Prop where
  add : ∀ a b, field.Reduced (field.add a b)
  sub : ∀ a b, field.Reduced (field.sub a b)
  mul : ∀ a b, field.Reduced (field.mul a b)
  neg : ∀ a, field.Reduced (field.neg a)
  pow : ∀ a exponent, field.Reduced (field.pow a exponent)
  inverse : ∀ a inverse, field.inverse a = .ok inverse → field.Reduced inverse
  ofInt : ∀ value, field.Reduced (field.ofInt value)
  ofWideBytes : ∀ bytes, field.Reduced (field.ofWideBytes bytes)
  ofHex : ∀ text a, field.ofHex text = .ok a → field.Reduced a
  weight : ∀ (weight : Weight) a, weight.resolve field = .ok a → field.Reduced a

/-- Whether every scalar is reduced that comes up where a key is used. -/
structure CommitmentKey.HoldsReduced (key : CommitmentKey Element) : Prop where
  field : key.field.GivesReduced
  drawn : ∀ (tape : Tape) position, key.field.Reduced (tape.scalar position key.field)
  challenge : ∀ (history : ChallengeHistory) label,
    key.field.Reduced (history.draw label key.field).1
  expression : ∀ (table : Table Opening) text secret,
    table.All (Opening.Reduced key.field) → evaluate key.field table text = .ok secret →
      key.field.Reduced secret
  part : ∀ (scope : Scope) tokens (read : Scope.Read tokens),
    scope.field = key.field → scope.Reduced →
      scope.sum tokens = .ok read ∨ scope.product tokens = .ok read ∨
        scope.negated tokens = .ok read ∨ scope.atom tokens = .ok read →
      key.field.Reduced read.1
  sum : ∀ (table : Table Opening) terms opening,
    combineOpenings key.field table terms = .ok opening → opening.Reduced key.field
  bindings : ∀ (task : ProverTask Element) past, task.key = key →
    (Prover.runPast task past (.start task.key)).2.bindings.All (Opening.Reduced key.field)
  proofRead : ∀ kind fields proof, Proof.ofFields key kind fields = .ok proof →
    ∀ a ∈ proof.scalars, key.field.Reduced a
  valueProof : ∀ history commitment value blinding nonce,
    ∀ a ∈ Proof.scalars (.value (ValueProof.prove key history commitment value blinding nonce).1),
      key.field.Reduced a
  sameProof : ∀ history (left right : Element) leftBlinding rightBlinding,
    ∀ a ∈ (Proof.same (SameProof.prove key history left right leftBlinding rightBlinding).1 :
        Proof Element).scalars, key.field.Reduced a
  squareProof : ∀ history source secret blinding nonces,
    ∀ a ∈ Proof.scalars
        (.square (SquareProof.prove key history source secret blinding nonces).1.proof),
      key.field.Reduced a

theorem ScalarField.givesReduced (field : ScalarField) : field.GivesReduced where
  add := field.reduced_add
  sub := field.reduced_sub
  mul := field.reduced_mul
  neg := field.reduced_neg
  pow := field.reduced_pow
  inverse _ _ := field.reduced_inverse
  ofInt := field.reduced_ofInt
  ofWideBytes _ := field.reduced_reduce _
  ofHex _ _ read := (ScalarField.ofHex_eq_ok.mp read).1
  weight _ _ := Weight.reduced_resolve

section Proofs

variable {key : CommitmentKey Element}

/-- The scalars of a proof that has been read are reduced, whatever its elements are. -/
theorem Proof.reduced_ofFields {kind : ProofKind} {fields : List String} {proof : Proof Element}
    (h : ofFields key kind fields = .ok proof) : ∀ a ∈ proof.scalars, key.field.Reduced a := by
  cases kind with
  | value =>
      obtain ⟨proof, read, rfl⟩ := except_map_eq_ok.mp h
      unfold ValueProof.ofFields at read
      split at read
      · simp only [mapError_eq_ok, except_bind_eq_ok, except_pure_eq_ok] at read
        obtain ⟨nonceCommitment, -, challenge, readC, response, readZ, rfl⟩ := read
        exact List.forall_mem_cons.mpr ⟨(ScalarField.ofHex_eq_ok.mp readC).1,
          List.forall_mem_singleton.mpr (ScalarField.ofHex_eq_ok.mp readZ).1⟩
      · cases read
  | same =>
      obtain ⟨proof, read, rfl⟩ := except_map_eq_ok.mp h
      exact List.forall_mem_singleton.mpr (SameProof.ofFields_eq_ok.mp read).1
  | square =>
      obtain ⟨proof, read, rfl⟩ := except_map_eq_ok.mp h
      unfold SquareProof.ofFields at read
      split at read
      · simp only [mapError_eq_ok, except_bind_eq_ok, except_pure_eq_ok] at read
        obtain ⟨ofSource, -, ofSquare, -, challenge, readK, secret, read1, source, read2, square,
          read3, rfl⟩ := read
        simp only [scalars, List.forall_mem_cons]
        exact ⟨(ScalarField.ofHex_eq_ok.mp readK).1, (ScalarField.ofHex_eq_ok.mp read1).1,
          (ScalarField.ofHex_eq_ok.mp read2).1, (ScalarField.ofHex_eq_ok.mp read3).1,
          List.forall_mem_nil _⟩
      · cases read

theorem ValueProof.reduced_prove (history : ChallengeHistory) (commitment : Element)
    (value blinding nonce : Scalar) :
    ∀ a ∈ Proof.scalars (.value (prove key history commitment value blinding nonce).1),
      key.field.Reduced a :=
  List.forall_mem_cons.mpr ⟨ChallengeHistory.draw_reduced _ _ _,
    List.forall_mem_singleton.mpr (key.field.reduced_add _ _)⟩

theorem SquareProof.reduced_prove (history : ChallengeHistory) (source : Element)
    (secret blinding : Scalar) (nonces : SquareNonces) :
    ∀ a ∈ Proof.scalars (.square (prove key history source secret blinding nonces).1.proof),
      key.field.Reduced a := by
  simp only [Proof.scalars, List.forall_mem_cons]
  exact ⟨ChallengeHistory.draw_reduced _ _ _, key.field.reduced_add _ _, key.field.reduced_add _ _,
    key.field.reduced_add _ _, List.forall_mem_nil _⟩

end Proofs

/-- The value of any part of an expression is reduced. -/
theorem Scope.reduced_part {scope : Scope} (closed : scope.Reduced) {tokens : List Token}
    {read : Read tokens}
    (h : scope.sum tokens = .ok read ∨ scope.product tokens = .ok read ∨
      scope.negated tokens = .ok read ∨ scope.atom tokens = .ok read) :
    scope.field.Reduced read.1 := by
  obtain ⟨value, rest⟩ := read
  rcases h with sum | product | negated | atom
  · exact reduced_sum closed sum
  · exact reduced_product closed product
  · exact reduced_negated closed negated
  · exact reduced_atom closed atom

theorem CommitmentKey.holdsReduced (key : CommitmentKey Element) : key.HoldsReduced where
  field := key.field.givesReduced
  drawn _ _ := key.field.reduced_reduce _
  challenge history label := history.draw_reduced label key.field
  expression _ _ _ reduced := evaluate_reduced reduced
  part _ _ _ sameField closed read := sameField ▸ Scope.reduced_part closed read
  sum _ _ _ := combineOpenings_reduced
  bindings _ past sameKey := sameKey ▸ Prover.reduced_of_runPast past Table.all_empty
  proofRead _ _ _ := Proof.reduced_ofFields
  valueProof := ValueProof.reduced_prove
  sameProof _ _ _ _ _ := List.forall_mem_singleton.mpr (key.field.reduced_sub _ _)
  squareProof := SquareProof.reduced_prove

/-! ## Programs -/

/-- Whether the checked programs of a group never panic: each of them, whatever it is given, does
    what it does unchecked. -/
structure CheckedOps.NeverPanics [DecidableEq Element] (ops : CheckedOps Element)
    (group : GroupOps Element) : Prop where
  operations : ops.Agrees group
  createKey : ∀ label,
    ops.createKey group label = CheckedTry.ofExcept (CommitmentKey.create group label)
  readProof : ∀ (key : CommitmentKey Element) kind fields, key.group = group →
    Proof.ofFieldsChecked ops key kind fields = CheckedTry.ofExcept (Proof.ofFields key kind fields)
  checkProof : ∀ (key : CommitmentKey Element) history claim proof, key.group = group →
    Proof.verifyChecked ops key history claim proof =
      CheckedTry.ofExcept (Proof.verify key history claim proof)
  prove : ∀ (task : ProverTask Element) script, task.key.group = group →
    task.proveChecked ops script = CheckedTry.ofExcept (task.prove script)
  proveCommand : ∀ (task : ProverTask Element) past command, task.key.group = group →
    Prover.executeChecked ops task command (Prover.runPast task past (.start task.key)).2 =
      pure (Prover.execute task command (Prover.runPast task past (.start task.key)).2)
  verify : ∀ (key : CommitmentKey Element) script receipt, key.group = group →
    key.verifyChecked ops script receipt = CheckedTry.ofExcept (key.verify script receipt)
  verifyCommand : ∀ (key : CommitmentKey Element) command verifier, key.group = group →
    Verifier.executeChecked ops key command verifier =
      pure (Verifier.execute key command verifier)
  finish : ∀ (key : CommitmentKey Element) receipt past, key.group = group →
    Verifier.finishChecked receipt (Verifier.runPast key past (.start key receipt)) =
      pure (Verifier.finish (Verifier.runPast key past (.start key receipt)))
  scalars : ∀ key : CommitmentKey Element, key.group = group → key.HoldsReduced

/-- Programs never panic where the operations of the group do not. -/
theorem CheckedOps.Agrees.neverPanics [DecidableEq Element] {ops : CheckedOps Element}
    {group : GroupOps Element} (agrees : ops.Agrees group) : ops.NeverPanics group where
  operations := agrees
  createKey := agrees.createKey
  readProof := by
    rintro key kind fields rfl
    exact Proof.ofFieldsChecked_eq agrees kind fields
  checkProof := by
    rintro key history claim proof rfl
    exact Proof.verifyChecked_eq agrees history claim proof
  prove := by
    rintro task script rfl
    exact ProverTask.proveChecked_eq agrees script
  proveCommand := by
    rintro task past command rfl
    exact Prover.executeChecked_eq agrees (Prover.reduced_of_runPast past Table.all_empty) command
  verify := by
    rintro key script receipt rfl
    exact CommitmentKey.verifyChecked_eq agrees script receipt
  verifyCommand := by
    rintro key command verifier rfl
    exact congrFun (Verifier.executeChecked_eq agrees command) verifier
  finish := by
    rintro key receipt past rfl
    exact Verifier.finishChecked_eq (Verifier.within_runPast past Verifier.within_start)
  scalars key _ := key.holdsReduced

/-- No input makes a program panic: no text of a script or a receipt, no record, no parameters of
    a residue group and, in either group, no label, inputs, tape, script or receipt. -/
theorem no_input_panics :
    (∀ text, Script.readChecked text = CheckedTry.ofExcept (Script.read text)) ∧
    (∀ record, Command.ofRecordChecked record = CheckedTry.ofExcept (Command.ofRecord record)) ∧
    (∀ text, Receipt.readChecked text = CheckedTry.ofExcept (Receipt.read text)) ∧
    (∀ modulus generator, ResidueGroup.ofParametersChecked modulus generator =
      CheckedTry.ofExcept (ResidueGroup.ofParameters modulus generator)) ∧
    (∀ group : ResidueGroup, group.checkedOps.NeverPanics group.ops) ∧
    Ristretto.checkedOps.NeverPanics Ristretto.ops :=
  ⟨Script.readChecked_eq, Command.ofRecordChecked_eq, Receipt.readChecked_eq,
    ResidueGroup.ofParametersChecked_eq, fun group => group.checkedOps_agrees.neverPanics,
    Ristretto.checkedOps_agrees.neverPanics⟩

end CommitScript
