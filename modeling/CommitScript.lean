import CommitScript.Text.Blank
import CommitScript.Text.Integer
import CommitScript.Script.Opcode
import CommitScript.Script.Error
import CommitScript.Script.Record
import CommitScript.Script.Weight
import CommitScript.Script.Command
import CommitScript.Script.Basic
import CommitScript.Bytes.Basic
import CommitScript.Bytes.Hex
import CommitScript.Text.Quoted
import CommitScript.Algebra.Power
import CommitScript.Algebra.Error
import CommitScript.Algebra.Scalar
import CommitScript.Group.Basic
import CommitScript.Group.Residue
import CommitScript.Sponge.Keccak
import CommitScript.Sponge.Shake
import CommitScript.Sponge.Strobe
import CommitScript.Challenge.History
import CommitScript.Group.Edwards
import CommitScript.Group.Ristretto
import CommitScript.Commitment.Tape
import CommitScript.Commitment.Key
import CommitScript.Proof.Basic
import CommitScript.Text.Letter
import CommitScript.Expression.Value
import CommitScript.Run.Error
import CommitScript.Run.Table
import CommitScript.Json.Reader
import CommitScript.Json.Writer
import CommitScript.Group.Kind
import CommitScript.Run.Inputs
import CommitScript.Run.Opening
import CommitScript.Run.Receipt
import CommitScript.Run.Event
import CommitScript.Run.Report
import CommitScript.Run.Settings
import CommitScript.Run.Prover
import CommitScript.Run.Verifier
import CommitScript.Tool.Basic
import CommitScript.Tool.Arguments
import CommitScript.Main
import CommitScript.Proofs.ModularPower
import CommitScript.Proofs.CanonicalText
import CommitScript.Proofs.ScalarResidue
import CommitScript.Proofs.KeyLaws
import CommitScript.Proofs.ProofFields
import CommitScript.Proofs.ProofEquations
import CommitScript.Proofs.ResidueLaws
import CommitScript.Proofs.PackedKeccak
import CommitScript.Proofs.PackedHistories
import CommitScript.Proofs.CommandOutline
import CommitScript.Proofs.HonestRuns
import CommitScript.Proofs.ReceiptShape
import CommitScript.Proofs.Tampering
import CommitScript.Proofs.Forks
import CommitScript.Proofs.ChallengeBinding
import CommitScript.Proofs.ProverFaults
import CommitScript.Proofs.PlainRuns
import CommitScript.Proofs.RecordText
import CommitScript.Proofs.LiteralText
import CommitScript.Proofs.CommandGrammar
import CommitScript.Proofs.CommandText
import CommitScript.Proofs.ScriptText
import CommitScript.Proofs.ReceiptRoundTrip
import CommitScript.Proofs.ProofCodec
import CommitScript.Proofs.Randomness
import CommitScript.Proofs.SkeletonVerdicts
import CommitScript.Proofs.ProverEvents
import CommitScript.Proofs.ZeroKnowledge
import CommitScript.Proofs.PanicFreedom
import CommitScript.Proofs.ExpressionDescent
import CommitScript.Proofs.ExpressionGrammar
import CommitScript.Proofs.TokenText
import CommitScript.Proofs.ExpressionValues
import CommitScript.Proofs.ProofChains
import CommitScript.Proofs.StatementBinding
import CommitScript.Proofs.SumAgreement
import CommitScript.Proofs.LinearCommitments
import CommitScript.Proofs.DerivedGenerators
import CommitScript.Proofs.ResidueSubgroup
import CommitScript.Proofs.CanonicalEncodings
import CommitScript.Proofs.VerifierFaults
import CommitScript.Proofs.ScalarArithmetic
import CommitScript.Proofs.WeightValues
import CommitScript.Proofs.RecordSpelling
import CommitScript.Proofs.RecordStreams
import CommitScript.Proofs.ScriptGrammar
