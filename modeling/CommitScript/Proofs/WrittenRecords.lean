import CommitScript.Proofs.KeyLaws
import CommitScript.Proofs.ProverSteps
import CommitScript.Proofs.ReceiptText

/-! # Records that are written

A prover writes nothing but hexadecimal texts. The elements behind them are sums of multiples of
the two generators, so as long as none of these has an empty encoding, every record of the prover
is one that reads back as it was written.
-/

namespace CommitScript

variable {Element : Type}

/-- Whether all elements that come of the two generators have an encoding with bytes. -/
structure CommitmentKey.Legible (key : CommitmentKey Element) (Written : Element → Prop) :
    Prop where
  generator : Written key.group.generator
  base : Written key.blindingBase
  add : ∀ {a b}, Written a → Written b → Written (key.group.add a b)
  multiple : ∀ (k : Nat) {a}, Written a → Written (key.group.multiple k a)
  encode_ne_nil : ∀ {a}, Written a → key.group.encode a ≠ []

theorem ScalarField.plainField_toHex (field : ScalarField) (a : Scalar) :
    Receipt.PlainField (field.toHex a) :=
  Hex.plainField_encode (Bytes.ofNatBig_ne_nil _ _)

namespace CommitmentKey

variable {key : CommitmentKey Element} {Written : Element → Prop}

theorem Lawful.legible (lawful : key.Lawful) : key.Legible key.group.Member where
  generator := lawful.group.generator_member
  base := lawful.base_member
  add := lawful.group.add_member
  multiple := lawful.group.multiple_member
  encode_ne_nil := lawful.group.encode_ne_nil

/-- Of a group in which no element at all is encoded as nothing, everything can be written. -/
theorem legible_of_encode_ne_nil (h : ∀ a, key.group.encode a ≠ []) :
    key.Legible fun _ => True where
  generator := trivial
  base := trivial
  add _ _ := trivial
  multiple _ _ _ := trivial
  encode_ne_nil _ := h _

namespace Legible

theorem plainField_toHex (legible : key.Legible Written) {a : Element} (h : Written a) :
    Receipt.PlainField (key.group.toHex a) :=
  Hex.plainField_encode (legible.encode_ne_nil h)

theorem plain_toHex (legible : key.Legible Written) {a : Element} (h : Written a) :
    Receipt.Plain [key.group.toHex a] :=
  ⟨List.cons_ne_nil _ _, List.forall_mem_singleton.mpr (legible.plainField_toHex h)⟩

theorem commitWith (legible : key.Legible Written) {base : Element} (h : Written base)
    (secret blinding : Scalar) : Written (key.commitWith base secret blinding) :=
  legible.add (legible.multiple _ h) (legible.multiple _ legible.base)

theorem commit (legible : key.Legible Written) (secret blinding : Scalar) :
    Written (key.commit secret blinding) :=
  legible.commitWith legible.generator secret blinding

end Legible

end CommitmentKey

section Fields

variable {key : CommitmentKey Element} {Written : Element → Prop}

theorem ValueProof.plain (legible : key.Legible Written) {proof : ValueProof Element}
    (h : Written proof.nonceCommitment) : Receipt.Plain (proof.toFields key) := by
  refine ⟨List.cons_ne_nil _ _, ?_⟩
  simp only [toFields, List.forall_mem_cons]
  exact ⟨legible.plainField_toHex h, key.field.plainField_toHex _, key.field.plainField_toHex _,
    List.forall_mem_nil _⟩

theorem SameProof.plain (proof : SameProof) : Receipt.Plain (proof.toFields key) :=
  ⟨List.cons_ne_nil _ _, List.forall_mem_singleton.mpr (key.field.plainField_toHex _)⟩

theorem SquareProof.plain (legible : key.Legible Written) {proof : SquareProof Element}
    (source : Written proof.sourceCommitment) (square : Written proof.squareCommitment) :
    Receipt.Plain (proof.toFields key) := by
  refine ⟨List.cons_ne_nil _ _, ?_⟩
  simp only [toFields, List.forall_mem_cons]
  exact ⟨legible.plainField_toHex source, legible.plainField_toHex square,
    key.field.plainField_toHex _, key.field.plainField_toHex _, key.field.plainField_toHex _,
    key.field.plainField_toHex _, List.forall_mem_nil _⟩

end Fields

namespace Prover

variable {task : ProverTask Element} {Written : Element → Prop} {p p' : Prover Element}

theorem Step.plain (legible : task.key.Legible Written) {command : Command}
    (step : Step task command p p') (h : ∀ fields ∈ p.records, Receipt.Plain fields) :
    ∀ fields ∈ p'.records, Receipt.Plain fields := by
  have added {written : List (List String)} (plain : ∀ fields ∈ written, Receipt.Plain fields) :
      ∀ fields ∈ p.records ++ written, Receipt.Plain fields :=
    List.forall_mem_append.mpr ⟨h, plain⟩
  cases step with
  | input => exact added (List.forall_mem_singleton.mpr (legible.plain_toHex (legible.commit _ _)))
  | commit => exact added (List.forall_mem_singleton.mpr (legible.plain_toHex (legible.commit _ _)))
  | sum => exact h
  | equal =>
      exact added (List.forall_mem_singleton.mpr
        (ValueProof.plain legible (legible.multiple _ legible.base)))
  | @square _ _ _ opening =>
      have source : Written (opening.commitment task.key) := legible.commit _ _
      exact added (List.forall_mem_cons.mpr
        ⟨legible.plain_toHex (legible.commitWith source _ _), List.forall_mem_singleton.mpr
          (SquareProof.plain legible (legible.commit _ _) (legible.commitWith source _ _))⟩)
  | same => exact added (List.forall_mem_singleton.mpr (SameProof.plain _))
  | log => exact h

theorem records_plain (legible : task.key.Legible Written) {commands : List Command}
    (steps : Steps (Step task) commands (.start task.key) p) :
    ∀ fields ∈ p.records, Receipt.Plain fields :=
  steps.preserves (fun step h => step.plain legible h) (List.forall_mem_nil _)

/-- Every record that a prover writes reads back as it was written. -/
theorem plain_of_steps (lawful : task.key.Lawful) {commands : List Command}
    (steps : Steps (Step task) commands (.start task.key) p) :
    ∀ fields ∈ p.records, Receipt.Plain fields :=
  records_plain lawful.legible steps

end Prover

end CommitScript
