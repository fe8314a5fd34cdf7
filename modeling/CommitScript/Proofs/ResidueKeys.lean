import CommitScript.Proofs.KeyLaws
import CommitScript.Proofs.PackedHistories
import CommitScript.Proofs.PackedStreams
import CommitScript.Proofs.ResidueLaws
import CommitScript.Run.Prover

/-! # Keys over residues

A commitment key whose second generator is a chosen residue. Over a safe prime it is lawful for
every residue of the subgroup but one.
-/

namespace CommitScript.ResidueGroup

theorem one_lt_order (group : ResidueGroup) : 1 < group.order := by
  have := group.modulus_large
  have := group.modulus_odd
  unfold order
  omega

/-- The key with a chosen second generator. -/
def keyOf (group : ResidueGroup) (base : Residue) : CommitmentKey Residue where
  group := group.ops
  field := ⟨group.order, group.one_lt_order⟩
  label := []
  blindingBase := base
  modulus_eq := rfl

theorem keyOf_lawful {group : ResidueGroup} (prime : group.modulus.Prime)
    (orderPrime : group.order.Prime) {base : Residue} (member : group.ops.Member base)
    (ne : base ≠ ⟨1⟩) : (group.keyOf base).Lawful where
  group := group.primeOrder prime orderPrime
  base_member := member
  base_ne := ne

/-- The residues of twenty-three, the least safe prime whose subgroup has more than a handful of
    elements. -/
def small : ResidueGroup :=
  ⟨23, 2, by decide, by decide, by decide, by decide, by decide⟩

theorem small_lawful : (small.keyOf ⟨3⟩).Lawful :=
  keyOf_lawful (by norm_num [small]) (by norm_num [small, order]) rfl (by decide)

/-- The sixth byte of the stream is the first that is no sample out of range. -/
theorem small_secondGenerator :
    small.ops.secondGenerator (Bytes.ofString CommitmentKey.defaultLabel) = .ok ⟨9⟩ := by
  have found : ∀ number < 6, small.ops.usableSample? (small.ops.sample
      (Bytes.ofString CommitmentKey.defaultLabel) number) =
        if number = 5 then some ⟨9⟩ else none := by
    simp only [GroupOps.sample, Shake.chunk, Packed.output_eq]
    decide +kernel
  obtain ⟨sampled, ne, ne'⟩ := GroupOps.usableSample?_eq_some.mp (found 5 (by decide))
  refine GroupOps.secondGenerator_eq_ok.mpr ⟨5, by decide, sampled, ne, ne', ?_⟩
  intro earlier below
  rw [← GroupOps.usableSample?_eq_none, found earlier (by omega), if_neg (by omega)]

/-- The key that is made of these residues where no label is chosen. -/
def smallDefault : CommitmentKey Residue :=
  { small.keyOf ⟨9⟩ with label := Bytes.ofString CommitmentKey.defaultLabel }

theorem small_created :
    CommitmentKey.create small.ops (Bytes.ofString CommitmentKey.defaultLabel) =
      .ok smallDefault :=
  CommitmentKey.create_eq_ok.mpr ⟨small.one_lt_order, rfl, rfl, small_secondGenerator⟩

/-- A prover over these residues with a single input. -/
def smallTask : ProverTask Residue where
  key := small.keyOf ⟨3⟩
  inputs := .ofList [("a", 5)]
  tape := .cyclic #[7]

/-- A script that squares its one input. -/
def squareScript : Script :=
  ⟨[.input "a", .square "b" "a"]⟩

/-- What that prover writes for it. The challenge is five. -/
def squareReceipt : Receipt :=
  ⟨[["06"], ["09"], ["0c", "08", "05", "09", "03", "03"]]⟩

/-- Its proof is accepted. The challenge has to be the one of the history, so the sponge is run
    here. -/
theorem verify_squareReceipt :
    (SquareProof.verify (small.keyOf ⟨3⟩) ((small.keyOf ⟨3⟩).history.message "commitment" [6])
      ⟨6⟩ ⟨9⟩ ⟨⟨12⟩, ⟨8⟩, ⟨5⟩, ⟨9⟩, ⟨3⟩, ⟨3⟩⟩).1 = true := by
  rw [SquareProof.verify, SquareProof.drawChallenge, ChallengeHistory.draw_eq]
  decide +kernel

end CommitScript.ResidueGroup
