import CommitScript.Proofs.Checked.Verifiers
import CommitScript.Proofs.SumAgreement
import CommitScript.Proofs.VerifierRuns

/-! # Faults of a verifier

Why a verifier fails at a command, and how many records it has taken by then. A record of another
shape than the command asks for stays where it is; one of the right shape is gone even if it
encodes nothing. All that can fail comes before anything is said, judged or bound, so a verifier
that has failed has lost those records and nothing else.
-/

namespace CommitScript

open Success

variable {Element Value : Type}

namespace ReceiptReader

/-- Why no value can be read from the next record, and how many records have been taken by
    then. -/
inductive Fails (decode : List String → Except RunError Value) (opcode : Opcode) (count : Nat)
    (reader : ReceiptReader) : RunError → Nat → Prop
  | missing (unread : reader.unread = []) :
      Fails decode opcode count reader (.underrun (reader.taken + 1) opcode) 0
  | misshapen {fields : List String} {rest : List (List String)}
      (unread : reader.unread = fields :: rest) (length : fields.length ≠ count) :
      Fails decode opcode count reader
        (.malformed (reader.taken + 1) opcode count fields.length) 0
  | undecodable {fields : List String} {rest : List (List String)} {fault : RunError}
      (unread : reader.unread = fields :: rest) (length : fields.length = count)
      (decodes : decode fields = .error fault) : Fails decode opcode count reader fault 1

variable {decode : List String → Except RunError Value} {opcode : Opcode} {count taken : Nat}
  {reader : ReceiptReader} {fault : RunError}

theorem reads_or_fails (decode : List String → Except RunError Value) (opcode : Opcode)
    (count : Nat) (reader : ReceiptReader) :
    (∃ fields rest value, reader.unread = fields :: rest ∧ fields.length = count ∧
      decode fields = .ok value) ∨ ∃ fault taken, reader.Fails decode opcode count fault taken := by
  cases unread : reader.unread with
  | nil => exact .inr ⟨_, _, .missing unread⟩
  | cons fields rest =>
      by_cases length : fields.length = count
      · cases decodes : decode fields with
        | ok value => exact .inl ⟨fields, rest, value, rfl, length, decodes⟩
        | error fault => exact .inr ⟨_, _, .undecodable unread length decodes⟩
      · exact .inr ⟨_, _, .misshapen unread length⟩

/-- The records that have been taken are of the shape asked for. -/
theorem Fails.splits (fails : reader.Fails decode opcode count fault taken) (others : List Nat) :
    ∃ records rest, reader.unread = records ++ rest ∧ records.length = taken ∧
      records.map List.length = (count :: others).take taken := by
  cases fails with
  | missing => exact ⟨[], _, rfl, rfl, rfl⟩
  | misshapen => exact ⟨[], _, rfl, rfl, rfl⟩
  | @undecodable fields rest _ unread length =>
      exact ⟨[fields], rest, unread, rfl, by simp [length]⟩

end ReceiptReader

namespace Verifier

/-- The element in the fields of a record. -/
def decodeElement (key : CommitmentKey Element) (fields : List String) : Except RunError Element :=
  (key.group.ofHex (fields.headD "")).mapError .algebra

/-- The proof in the fields of a record. -/
def decodeProof (key : CommitmentKey Element) (kind : ProofKind) (fields : List String) :
    Except RunError (Proof Element) :=
  (Proof.ofFields key kind fields).mapError .proof

/-- Why a verifier fails at a command, and how many records it has taken by then. -/
inductive Fails (key : CommitmentKey Element) (verifier : Verifier Element) :
    Command → RunError → Nat → Prop
  | input {name : String} {fault : RunError} {taken : Nat}
      (element : verifier.reader.Fails (decodeElement key) .input 1 fault taken) :
      Fails key verifier (.input name) fault taken
  | commit {name expression : String} {fault : RunError} {taken : Nat}
      (element : verifier.reader.Fails (decodeElement key) .commit 1 fault taken) :
      Fails key verifier (.commit name expression) fault taken
  | sum {name : String} {terms : List (Weight × String)} {fault : RunError}
      (sumless : SumFault key.field verifier.bindings terms fault) :
      Fails key verifier (.sum name terms) fault 0
  | unbound {name : String} {value : Int} (unbound : verifier.bindings.get? name = none) :
      Fails key verifier (.equal name value) (.undefined name) 0
  | equal {name : String} {value : Int} {commitment : Element} {fault : RunError} {taken : Nat}
      (found : verifier.bindings.get? name = some commitment)
      (proof : verifier.reader.Fails (decodeProof key .value) .equal 3 fault taken) :
      Fails key verifier (.equal name value) fault taken
  | source {name source : String} (unbound : verifier.bindings.get? source = none) :
      Fails key verifier (.square name source) (.undefined source) 0
  | squared {name source : String} {commitment : Element} {fault : RunError} {taken : Nat}
      (found : verifier.bindings.get? source = some commitment)
      (element : verifier.reader.Fails (decodeElement key) .square 1 fault taken) :
      Fails key verifier (.square name source) fault taken
  | square {name source text : String} {rest : List (List String)} {commitment squared : Element}
      {fault : RunError} {taken : Nat}
      (found : verifier.bindings.get? source = some commitment)
      (unread : verifier.reader.unread = [text] :: rest)
      (read : key.group.ofHex text = .ok squared)
      (proof : ReceiptReader.Fails (decodeProof key .square) .square 6
        { unread := rest, taken := verifier.reader.taken + 1 } fault taken) :
      Fails key verifier (.square name source) fault (1 + taken)
  | left {left right : String} (unbound : verifier.bindings.get? left = none) :
      Fails key verifier (.same left right) (.undefined left) 0
  | right {left right : String} {first : Element}
      (found : verifier.bindings.get? left = some first)
      (unbound : verifier.bindings.get? right = none) :
      Fails key verifier (.same left right) (.undefined right) 0
  | same {left right : String} {first second : Element} {fault : RunError} {taken : Nat}
      (foundLeft : verifier.bindings.get? left = some first)
      (foundRight : verifier.bindings.get? right = some second)
      (proof : verifier.reader.Fails (decodeProof key .same) .same 1 fault taken) :
      Fails key verifier (.same left right) fault taken

variable {key : CommitmentKey Element} {v v' : Verifier Element} {command : Command}
  {fault : RunError} {taken : Nat}

/-- A verifier that has taken some of its records. -/
def past (verifier : Verifier Element) (count : Nat) : Verifier Element :=
  verifier.took count (verifier.reader.unread.drop count)

theorem past_past (v : Verifier Element) (m n : Nat) : (v.past m).past n = v.past (m + n) := by
  simp only [past, took, List.drop_drop, Nat.add_assoc]

theorem past_of_unread {fields : List String} {rest : List (List String)}
    (unread : v.reader.unread = fields :: rest) : v.past 1 = v.took 1 rest := by
  rw [past, unread, List.drop_succ_cons, List.drop_zero]

theorem commitment_of_unbound {name : String} (unbound : v.bindings.get? name = none) :
    commitment name v = .error (.undefined name) v :=
  ofExcept_of_error (Table.find_eq_error.mpr ⟨unbound, rfl⟩)

theorem commitment_of_found {name : String} {c : Element}
    (found : v.bindings.get? name = some c) : commitment name v = .ok c v :=
  commitment_eq_ok.mpr ⟨found, rfl⟩

theorem takeRecord_of_refused {opcode : Opcode} {count : Nat}
    (refused : v.reader.next opcode count = .error fault) :
    takeRecord opcode count v = .error fault v := by
  change (ofExcept (v.reader.next opcode count) >>= _ : Verifying Element _) v = _
  exact bind_of_error (ofExcept_of_error refused)

theorem read_of_fails {decode : List String → Except RunError Value} {opcode : Opcode}
    {count : Nat} (fails : v.reader.Fails decode opcode count fault taken) :
    (takeRecord opcode count >>= fun fields => ofExcept (decode fields) : Verifying Element Value)
      v = .error fault (v.past taken) := by
  cases fails with
  | missing unread =>
      refine bind_of_error (takeRecord_of_refused ?_)
      simp [ReceiptReader.next, unread]
  | misshapen unread length =>
      refine bind_of_error (takeRecord_of_refused ?_)
      simp [ReceiptReader.next, unread, length]
  | undecodable unread length decodes =>
      have takes : takeRecord opcode count v = .ok _ (v.took 1 _) :=
        takeRecord_eq_ok.mpr ⟨_, unread, length, rfl⟩
      rw [bind_of_ok takes, past_of_unread unread]
      exact ofExcept_of_error decodes

theorem takeElement_of_fails {opcode : Opcode}
    (fails : v.reader.Fails (decodeElement key) opcode 1 fault taken) :
    takeElement key opcode v = .error fault (v.past taken) :=
  read_of_fails fails

theorem takeProof_of_fails {opcode : Opcode} {kind : ProofKind}
    (fails : v.reader.Fails (decodeProof key kind) opcode kind.fieldCount fault taken) :
    takeProof key opcode kind v = .error fault (v.past taken) :=
  read_of_fails fails

/-- The records that a verifier has taken when it fails are the first of its command's, with the
    numbers of fields that these have. -/
theorem Fails.splits (fails : Fails key v command fault taken) :
    ∃ records rest, v.reader.unread = records ++ rest ∧ records.length = taken ∧
      records.map List.length = command.shape.take taken := by
  cases fails with
  | input element => exact element.splits []
  | commit element => exact element.splits []
  | sum => exact ⟨[], _, rfl, rfl, rfl⟩
  | unbound => exact ⟨[], _, rfl, rfl, rfl⟩
  | equal _ proof => exact proof.splits []
  | source => exact ⟨[], _, rfl, rfl, rfl⟩
  | squared _ element => exact element.splits [6]
  | @square _ _ text _ _ _ _ taken _ unread _ proof =>
      obtain ⟨records, rest, others, count, shapes⟩ := proof.splits []
      refine ⟨[text] :: records, rest, ?_, ?_, ?_⟩
      · rw [unread, List.cons_append, ← others]
      · rw [List.length_cons, count, Nat.add_comm]
      · rw [Nat.add_comm, List.map_cons, shapes]
        rfl
  | left => exact ⟨[], _, rfl, rfl, rfl⟩
  | right => exact ⟨[], _, rfl, rfl, rfl⟩
  | same _ _ proof => exact proof.splits []

theorem element_or_fails (key : CommitmentKey Element) (opcode : Opcode) (reader : ReceiptReader) :
    (∃ text rest c, reader.unread = [text] :: rest ∧ key.group.ofHex text = .ok c) ∨
      ∃ fault taken, reader.Fails (decodeElement key) opcode 1 fault taken := by
  rcases reader.reads_or_fails (decodeElement key) opcode 1 with
    ⟨fields, rest, c, unread, length, decodes⟩ | fails
  · obtain ⟨text, rfl⟩ := List.length_eq_one_iff.mp length
    exact .inl ⟨text, rest, c, unread, mapError_eq_ok.mp decodes⟩
  · exact .inr fails

variable [DecidableEq Element]

theorem execute_of_fails (fails : Fails key v command fault taken) :
    execute key command v = .error fault (v.started.past taken) := by
  cases fails with
  | input element =>
      change (takeElement key .input >>= _ : Verifying Element Unit) v.started = _
      exact bind_of_error (takeElement_of_fails element)
  | commit element =>
      change (takeElement key .commit >>= _ : Verifying Element Unit) v.started = _
      exact bind_of_error (takeElement_of_fails element)
  | @sum name terms _ sumless =>
      have combines : combineCommitments key v.bindings terms = .error fault :=
        except_map_eq_error.mpr (resolveTerms_eq_error.mpr sumless)
      change (ofExcept (combineCommitments key v.bindings terms) >>= _ : Verifying Element Unit)
        v.started = _
      exact bind_of_error (ofExcept_of_error combines)
  | @unbound name value unbound =>
      change (commitment name >>= _ : Verifying Element Unit) v.started = _
      exact bind_of_error (commitment_of_unbound unbound)
  | @equal name value _ _ _ found proof =>
      have looked : commitment name v.started = .ok _ v.started := commitment_of_found found
      change (commitment name >>= _ : Verifying Element Unit) v.started = _
      rw [bind_of_ok looked]
      exact bind_of_error (takeProof_of_fails proof)
  | @source name source unbound =>
      change (commitment source >>= _ : Verifying Element Unit) v.started = _
      exact bind_of_error (commitment_of_unbound unbound)
  | @squared name source _ _ _ found element =>
      have looked : commitment source v.started = .ok _ v.started := commitment_of_found found
      change (commitment source >>= _ : Verifying Element Unit) v.started = _
      rw [bind_of_ok looked]
      exact bind_of_error (takeElement_of_fails element)
  | @square name source text rest _ _ _ taken found unread read proof =>
      have looked : commitment source v.started = .ok _ v.started := commitment_of_found found
      have element : takeElement key .square v.started = .ok _ (v.started.took 1 rest) :=
        takeElement_eq_ok.mpr ⟨text, rest, unread, read, rfl⟩
      -- The proof is read behind the commitment, so what both readings have taken adds up.
      have first : v.started.past 1 = v.started.took 1 rest := past_of_unread unread
      change (commitment source >>= _ : Verifying Element Unit) v.started = _
      rw [bind_of_ok looked, bind_of_ok element, ← past_past, first]
      exact bind_of_error (takeProof_of_fails proof)
  | @left left right unbound =>
      change (commitment left >>= _ : Verifying Element Unit) v.started = _
      exact bind_of_error (commitment_of_unbound unbound)
  | @right left right _ found unbound =>
      have looked : commitment left v.started = .ok _ v.started := commitment_of_found found
      change (commitment left >>= _ : Verifying Element Unit) v.started = _
      rw [bind_of_ok looked]
      exact bind_of_error (commitment_of_unbound unbound)
  | @same left right _ _ _ _ foundLeft foundRight proof =>
      have lookedLeft : commitment left v.started = .ok _ v.started :=
        commitment_of_found foundLeft
      have lookedRight : commitment right v.started = .ok _ v.started :=
        commitment_of_found foundRight
      change (commitment left >>= _ : Verifying Element Unit) v.started = _
      rw [bind_of_ok lookedLeft, bind_of_ok lookedRight]
      exact bind_of_error (takeProof_of_fails proof)

/-- A command that has no step fails. -/
theorem step_or_fails (key : CommitmentKey Element) (v : Verifier Element) (command : Command) :
    (∃ v', Step key command v v') ∨ ∃ fault taken, Fails key v command fault taken := by
  cases command with
  | input name =>
      rcases element_or_fails key .input v.reader with ⟨_, _, _, unread, read⟩ | ⟨_, _, element⟩
      · exact .inl ⟨_, .input unread read⟩
      · exact .inr ⟨_, _, .input element⟩
  | commit name expression =>
      rcases element_or_fails key .commit v.reader with ⟨_, _, _, unread, read⟩ | ⟨_, _, element⟩
      · exact .inl ⟨_, .commit unread read⟩
      · exact .inr ⟨_, _, .commit element⟩
  | sum name terms =>
      cases combines : combineCommitments key v.bindings terms with
      | ok combined => exact .inl ⟨_, .sum combines⟩
      | error fault =>
          have sumless := resolveTerms_eq_error.mp (except_map_eq_error.mp combines)
          exact .inr ⟨_, _, .sum sumless⟩
  | equal name value =>
      cases found : v.bindings.get? name with
      | none => exact .inr ⟨_, _, .unbound found⟩
      | some c =>
          rcases v.reader.reads_or_fails (decodeProof key .value) .equal 3 with
            ⟨fields, rest, proof, unread, -, decodes⟩ | ⟨_, _, proof⟩
          · obtain ⟨proof, read, rfl⟩ := except_map_eq_ok.mp (mapError_eq_ok.mp decodes)
            exact .inl ⟨_, .equal found unread read⟩
          · exact .inr ⟨_, _, .equal found proof⟩
  | square name source =>
      cases found : v.bindings.get? source with
      | none => exact .inr ⟨_, _, .source found⟩
      | some c =>
          rcases element_or_fails key .square v.reader with
            ⟨_, rest, squared, unread, readSquared⟩ | ⟨_, _, element⟩
          · rcases ReceiptReader.reads_or_fails (decodeProof key .square) .square 6
              { unread := rest, taken := v.reader.taken + 1 } with
              ⟨fields, others, proof, behind, -, decodes⟩ | ⟨_, _, proof⟩
            · obtain ⟨proof, read, rfl⟩ := except_map_eq_ok.mp (mapError_eq_ok.mp decodes)
              cases behind
              exact .inl ⟨_, .square found unread readSquared read⟩
            · exact .inr ⟨_, _, .square found unread readSquared proof⟩
          · exact .inr ⟨_, _, .squared found element⟩
  | same left right =>
      cases foundLeft : v.bindings.get? left with
      | none => exact .inr ⟨_, _, .left foundLeft⟩
      | some first =>
          cases foundRight : v.bindings.get? right with
          | none => exact .inr ⟨_, _, .right foundLeft foundRight⟩
          | some second =>
              rcases v.reader.reads_or_fails (decodeProof key .same) .same 1 with
                ⟨fields, rest, proof, unread, -, decodes⟩ | ⟨_, _, proof⟩
              · obtain ⟨proof, read, rfl⟩ := except_map_eq_ok.mp (mapError_eq_ok.mp decodes)
                exact .inl ⟨_, .same foundLeft foundRight unread read⟩
              · exact .inr ⟨_, _, .same foundLeft foundRight proof⟩
  | log => exact .inl ⟨_, .log⟩

/-- A verifier that fails at a command has started it and taken some records. -/
theorem execute_eq_error :
    execute key command v = .error fault v' ↔
      ∃ taken, Fails key v command fault taken ∧ v' = v.started.past taken := by
  constructor
  · intro h
    rcases step_or_fails key v command with ⟨after, step⟩ | ⟨cause, taken, fails⟩
    · rw [execute_eq_ok.mpr step] at h
      cases h
    · rw [execute_of_fails fails] at h
      cases h
      exact ⟨taken, fails, rfl⟩
  · rintro ⟨taken, fails, rfl⟩
    exact execute_of_fails fails

/-- A command is counted even if it fails. -/
theorem executed_runPast (commands : List Command) (v : Verifier Element) :
    (runPast key commands v).executed = v.executed + commands.length := by
  induction commands generalizing v with
  | nil => rfl
  | cons command commands ih =>
      have counted : (stateAfter (execute key command v)).executed = v.executed + 1 := by
        cases ran : execute key command v with
        | ok _ after => exact (execute_eq_ok.mp ran).adds_outcome.1
        | error fault after =>
            obtain ⟨taken, -, rfl⟩ := execute_eq_error.mp ran
            rfl
      rw [runPast, List.foldl_cons, ← runPast, ih, counted, List.length_cons]
      omega

/-- A verifier that fails at a command has counted it and taken the first of its records, as many
    as had the right number of fields before the fault. Its bindings, its outcomes and its history
    are what they were. So after any commands, whether they have failed or not, an outcome still
    bears the position of its command. -/
theorem faults_change_no_verdict (key : CommitmentKey Element) :
    (∀ command fault v v', execute key command v = .error fault v' ↔
      ∃ records rest, v.reader.unread = records ++ rest ∧
        records.map List.length = command.shape.take records.length ∧
        Fails key v command fault records.length ∧
        v' = { v with
          executed := v.executed + 1
          reader := { unread := rest, taken := v.reader.taken + records.length } }) ∧
    ∀ receipt commands,
      let v := runPast key commands (.start key receipt)
      v.executed = commands.length ∧
      ∀ command v', execute key command v = .ok () v' →
        ∃ added, v'.outcomes = v.outcomes ++ added ∧
          added.map Outcome.subject = (command.subject? (commands.length + 1)).toList := by
  constructor
  · intro command fault v v'
    rw [execute_eq_error]
    constructor
    · rintro ⟨taken, fails, rfl⟩
      obtain ⟨records, rest, unread, rfl, shapes⟩ := fails.splits
      have left : v.reader.unread.drop records.length = rest := by rw [unread, List.drop_left]
      exact ⟨records, rest, unread, shapes, fails, by rw [← left]; rfl⟩
    · rintro ⟨records, rest, unread, -, fails, rfl⟩
      have left : v.reader.unread.drop records.length = rest := by rw [unread, List.drop_left]
      exact ⟨records.length, fails, by rw [← left]; rfl⟩
  · intro receipt commands v
    have executed : v.executed = commands.length :=
      (executed_runPast commands _).trans (Nat.zero_add _)
    refine ⟨executed, fun command v' ran => ?_⟩
    have adds := (execute_eq_ok.mp ran).adds_outcome.2
    rwa [executed] at adds

omit [DecidableEq Element] in
/-- The commitment to a square is taken but not the record of the proof, which has too few fields.
    That is left for the next command. -/
theorem faults_change_no_verdict_small :
    let key := ResidueGroup.small.keyOf ⟨3⟩
    let v := runPast key [.input "a"] (.start key ⟨[["06"], ["09"], ["00"]]⟩)
    execute key (.square "b" "a") v =
        .error (.malformed 3 .square 6 1)
          { v with executed := 2, reader := { unread := [["00"]], taken := 2 } } ∧
      ∃ v', execute key (.same "a" "a") (runPast key [.square "b" "a"] v) = .ok () v' ∧
        v'.outcomes.map Outcome.subject = (Command.subject? 3 (.same "a" "a")).toList := by
  have difference : SameProof.ofFields (ResidueGroup.small.keyOf ⟨3⟩) ["00"] = .ok ⟨⟨0⟩⟩ := rfl
  intro key v
  obtain ⟨faults, runs⟩ := faults_change_no_verdict key
  have proof : ReceiptReader.Fails (decodeProof key .square) .square 6
      { unread := [["00"]], taken := 2 } (.malformed 3 .square 6 1) 0 := by
    have few : ["00"].length ≠ 6 := by decide
    exact .misshapen rfl few
  have fails : Fails key v (.square "b" "a") (.malformed 3 .square 6 1) (1 + 0) :=
    .square rfl rfl rfl proof
  have ran : execute key (.same "a" "a") (runPast key [.input "a", .square "b" "a"]
      (.start key ⟨[["06"], ["09"], ["00"]]⟩)) = .ok () _ :=
    execute_eq_ok.mpr (.same rfl rfl rfl difference)
  obtain ⟨added, adds, subjects⟩ := (runs _ _).2 _ _ ran
  refine ⟨(faults _ _ _ _).mpr ⟨[["09"]], _, rfl, rfl, fails, rfl⟩, _, ran, ?_⟩
  rw [adds]
  exact subjects

end Verifier

end CommitScript
