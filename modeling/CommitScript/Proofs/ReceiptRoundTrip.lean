import CommitScript.Proofs.ProverFaults
import CommitScript.Proofs.RecordText
import CommitScript.Proofs.ResidueKeys
import CommitScript.Proofs.WrittenRecords

/-! # Receipts that read back

The text of a receipt loses the blank characters around fields and the records that hold nothing
else. A receipt that was itself read from a text has none of either, and neither has what a
prover writes, so these read back as they are.
-/

namespace CommitScript

theorem ResidueGroup.encode_ne_nil (group : ResidueGroup) (a : Residue) :
    group.ops.encode a ≠ [] :=
  Bytes.ofNatBig_ne_nil _ _

theorem Ristretto.encode_ne_nil (a : Ristretto) : ops.encode a ≠ [] := by
  apply List.ne_nil_of_length_pos
  rw [ops, Bytes.length_ofNatLittle]
  decide

namespace Receipt

theorem read_write_of_tidy {receipt : Receipt} (h : ∀ fields ∈ receipt.records, Tidy fields) :
    read receipt.write = .ok receipt := by
  rw [read_write, normal_of_tidy h]

theorem tidy_of_read {text : String} {receipt : Receipt} (h : read text = .ok receipt) :
    ∀ fields ∈ receipt.records, Tidy fields := by
  unfold read at h
  split at h
  · next records all =>
    cases h
    exact List.forall_mem_map.mpr (RecordCursor.tidy_of_readAll all)
  · cases h

/-- Whatever a prover has written reads back. -/
theorem read_write_of_steps {Element : Type} {task : ProverTask Element}
    (encodes : ∀ a, task.key.group.encode a ≠ []) {commands : List Command}
    {p : Prover Element} (steps : Steps (Prover.Step task) commands (.start task.key) p) :
    read (write ⟨p.records⟩) = .ok ⟨p.records⟩ := by
  have plain := Prover.records_plain (CommitmentKey.legible_of_encode_ne_nil encodes) steps
  exact read_write_of_tidy fun fields member => tidy_of_plain (plain fields member)

/-- The text of a receipt reads back as its normal form: the fields are trimmed, and the records
    without text are dropped. Nothing is lost of a receipt that was read from any text. Nor is
    anything lost of what a prover has written, whichever commands it was given and whether or
    not they failed, as long as its group encodes no element as nothing; both groups are so. -/
theorem written_text_reads_back :
    (∀ receipt : Receipt, read receipt.write = .ok ⟨normal receipt.records⟩) ∧
    (∀ text receipt, read text = .ok receipt → read receipt.write = .ok receipt) ∧
    (∀ (Element : Type) (task : ProverTask Element), (∀ a, task.key.group.encode a ≠ []) →
      (∀ commands succeeded last,
        Prover.runPast task commands (.start task.key) = (succeeded, last) →
        read (write ⟨last.records⟩) = .ok ⟨last.records⟩) ∧
      ∀ script receipt, task.prove script = .ok receipt → read receipt.write = .ok receipt) ∧
    (∀ (group : ResidueGroup) (a : Residue), group.ops.encode a ≠ []) ∧
    ∀ a : Ristretto, Ristretto.ops.encode a ≠ [] := by
  refine ⟨read_write, ?_, ?_, ResidueGroup.encode_ne_nil, Ristretto.encode_ne_nil⟩
  · intro text receipt reads
    exact read_write_of_tidy (tidy_of_read reads)
  · intro Element task encodes
    constructor
    · intro commands succeeded last runs
      obtain ⟨-, steps⟩ := Prover.steps_of_runPast commands (.start task.key) 0
      rw [runs] at steps
      have written := read_write_of_steps encodes steps
      exact written
    · intro script receipt proves
      obtain ⟨last, steps, rfl⟩ := ProverTask.prove_eq_ok.mp proves
      exact read_write_of_steps encodes steps

theorem written_text_reads_back_small :
    read (write ⟨[[" a,b", ""], [], ["\n", " "], ["c;\n@d\t"]]⟩) =
        .ok ⟨[["a,b", ""], ["c;\n@d"]]⟩ ∧
      ∃ last, Prover.runPast ResidueGroup.smallTask [.square "b" "z", .input "a", .same "a" "a"]
          (.start ResidueGroup.smallTask.key) = ([.input "a", .same "a" "a"], last) ∧
        last.records = [["06"], ["00"]] ∧
        read (write ⟨last.records⟩) = .ok ⟨last.records⟩ := by
  obtain ⟨normalizes, -, proves, encodes, -⟩ := written_text_reads_back
  constructor
  · exact normalizes _
  · have runs : Prover.runPast ResidueGroup.smallTask
        [.square "b" "z", .input "a", .same "a" "a"] (.start ResidueGroup.smallTask.key) =
        ([.input "a", .same "a" "a"], _) := rfl
    exact ⟨_, runs, rfl, (proves _ ResidueGroup.smallTask (encodes _)).1 _ _ _ runs⟩

end Receipt

end CommitScript
