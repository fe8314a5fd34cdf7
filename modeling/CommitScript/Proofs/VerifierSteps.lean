import CommitScript.Proofs.FieldLayout
import CommitScript.Proofs.Steps
import CommitScript.Proofs.TableLaws
import CommitScript.Run.Verifier

/-! # Steps of a verifier

What a verifier does with one command, for each of the seven commands: which records it takes,
what has to be found in them, and the state it leaves. Running a command succeeds exactly when
such a step exists, and a bad proof is no obstacle to one.
-/

namespace CommitScript

open Success

variable {Element : Type}

/-- A reader gives the first record it has not taken, if that has the number of fields asked
    for. -/
theorem ReceiptReader.next_eq_ok {reader reader' : ReceiptReader} {opcode : Opcode} {count : Nat}
    {fields : List String} :
    reader.next opcode count = .ok (fields, reader') ↔
      ∃ rest, reader.unread = fields :: rest ∧ fields.length = count ∧
        reader' = { unread := rest, taken := reader.taken + 1 } := by
  unfold next
  constructor
  · intro h
    split at h
    · cases h
    · next unread =>
      split at h
      · next length =>
        cases h
        exact ⟨_, unread, length, rfl⟩
      · cases h
  · rintro ⟨rest, unread, length, rfl⟩
    simp [unread, length]

namespace Verifier

/-- A verifier that has started one more command. -/
def started (verifier : Verifier Element) : Verifier Element :=
  { verifier with executed := verifier.executed + 1 }

/-- A verifier that has taken some records and left the rest. -/
def took (verifier : Verifier Element) (count : Nat) (rest : List (List String)) :
    Verifier Element :=
  { verifier with reader := { unread := rest, taken := verifier.reader.taken + count } }

def bound (verifier : Verifier Element) (name : String) (commitment : Element) :
    Verifier Element :=
  { verifier with bindings := verifier.bindings.insert name commitment }

def told (verifier : Verifier Element) (event : Event) : Verifier Element :=
  { verifier with events := verifier.events ++ [event] }

/-- A verifier that has heard of a fresh commitment. -/
def heard (key : CommitmentKey Element) (verifier : Verifier Element) (commitment : Element) :
    Verifier Element :=
  { verifier with
    history := verifier.history.message "commitment" (key.group.encode commitment) }

/-- The outcome of a command about a name. -/
def outcome (verifier : Verifier Element) (command : Command) (name : String) (passed : Bool) :
    Outcome :=
  { index := verifier.executed, opcode := command.opcode, name, statement := command.write,
    passed }

/-- What a verifier tells of an outcome. -/
def verdictEvent (outcome : Outcome) : Event :=
  if outcome.passed then
    { level := .debug, message := "verified", fields := [("statement", outcome.statement)] }
  else
    { level := .warn
      message := "verification failed"
      fields := [("statement", outcome.statement), ("index", Text.decimal outcome.index)] }

/-- A verifier that has noted a verdict and the history after it. -/
def judged (verifier : Verifier Element) (command : Command) (name : String)
    (verdict : Bool × ChallengeHistory) : Verifier Element :=
  { verifier with
    history := verdict.2
    outcomes := verifier.outcomes ++ [verifier.outcome command name verdict.1]
    events := verifier.events ++ [verdictEvent (verifier.outcome command name verdict.1)] }

/-- What a verifier tells of a fresh commitment. -/
def receiptEvent (opcode : Opcode) (name : String) : Event :=
  { level := .debug, message := "commitment", fields := [("name", name), ("opcode", opcode.name)] }

def sumEvent (name : String) (terms : List (Weight × String)) : Event :=
  { level := .debug
    message := "sum"
    fields := [("name", name), ("terms", Text.decimal terms.length)] }

/-- A verifier that has taken a fresh commitment and bound a name to it. -/
def received (key : CommitmentKey Element) (verifier : Verifier Element) (opcode : Opcode)
    (name : String) (rest : List (List String)) (commitment : Element) : Verifier Element :=
  (((verifier.took 1 rest).heard key commitment).told (receiptEvent opcode name)).bound name
    commitment

/-- What one command does to a verifier that meets no fault. -/
inductive Step [DecidableEq Element] (key : CommitmentKey Element) :
    Command → Verifier Element → Verifier Element → Prop
  | input {verifier : Verifier Element} {name text : String} {rest : List (List String)}
      {commitment : Element} (unread : verifier.reader.unread = [text] :: rest)
      (read : key.group.ofHex text = .ok commitment) :
      Step key (.input name) verifier (verifier.started.received key .input name rest commitment)
  | commit {verifier : Verifier Element} {name expression text : String}
      {rest : List (List String)} {commitment : Element}
      (unread : verifier.reader.unread = [text] :: rest)
      (read : key.group.ofHex text = .ok commitment) :
      Step key (.commit name expression) verifier
        (verifier.started.received key .commit name rest commitment)
  | sum {verifier : Verifier Element} {name : String} {terms : List (Weight × String)}
      {combined : Element}
      (combines : combineCommitments key verifier.bindings terms = .ok combined) :
      Step key (.sum name terms) verifier
        ((verifier.started.told (sumEvent name terms)).bound name combined)
  | equal {verifier : Verifier Element} {name : String} {value : Int} {fields : List String}
      {rest : List (List String)} {commitment : Element} {proof : ValueProof Element}
      (found : verifier.bindings.get? name = some commitment)
      (unread : verifier.reader.unread = fields :: rest)
      (read : ValueProof.ofFields key fields = .ok proof) :
      Step key (.equal name value) verifier
        ((verifier.started.took 1 rest).judged (.equal name value) name
          (ValueProof.verify key verifier.history commitment (key.field.ofInt value) proof))
  | square {verifier : Verifier Element} {name source text : String} {fields : List String}
      {rest : List (List String)} {commitment squared : Element} {proof : SquareProof Element}
      (found : verifier.bindings.get? source = some commitment)
      (unread : verifier.reader.unread = [text] :: fields :: rest)
      (readSquared : key.group.ofHex text = .ok squared)
      (read : SquareProof.ofFields key fields = .ok proof) :
      Step key (.square name source) verifier
        (((verifier.started.took 2 rest).judged (.square name source) name
          (SquareProof.verify key verifier.history commitment squared proof)).bound name squared)
  | same {verifier : Verifier Element} {left right : String} {fields : List String}
      {rest : List (List String)} {first second : Element} {proof : SameProof}
      (foundLeft : verifier.bindings.get? left = some first)
      (foundRight : verifier.bindings.get? right = some second)
      (unread : verifier.reader.unread = fields :: rest)
      (read : SameProof.ofFields key fields = .ok proof) :
      Step key (.same left right) verifier
        ((verifier.started.took 1 rest).judged (.same left right) left
          (SameProof.verify key verifier.history first second proof))
  | log {verifier : Verifier Element} : Step key .log verifier verifier.started

variable {key : CommitmentKey Element} {v v' : Verifier Element}

theorem commitment_eq_ok {name : String} {c : Element} :
    commitment name v = .ok c v' ↔ v.bindings.get? name = some c ∧ v' = v := by
  rw [← Table.find_eq_ok]
  exact ofExcept_eq_ok

theorem takeRecord_eq_ok {opcode : Opcode} {count : Nat} {fields : List String} :
    takeRecord opcode count v = .ok fields v' ↔
      ∃ rest, v.reader.unread = fields :: rest ∧ fields.length = count ∧ v' = v.took 1 rest := by
  change (ofExcept (v.reader.next opcode count) >>= _ : Verifying Element _) v = _ ↔ _
  rw [bind_eq_ok]
  constructor
  · rintro ⟨⟨fields', reader⟩, v'', next, ends⟩
    obtain ⟨next, rfl⟩ := ofExcept_eq_ok.mp next
    obtain ⟨rest, unread, length, rfl⟩ := ReceiptReader.next_eq_ok.mp next
    cases ends
    exact ⟨rest, unread, length, rfl⟩
  · rintro ⟨rest, unread, length, rfl⟩
    have next : v.reader.next opcode count = .ok (fields, _) :=
      ReceiptReader.next_eq_ok.mpr ⟨rest, unread, length, rfl⟩
    exact ⟨_, v, ofExcept_eq_ok.mpr ⟨next, rfl⟩, rfl⟩

theorem takeElement_eq_ok {opcode : Opcode} {c : Element} :
    takeElement key opcode v = .ok c v' ↔
      ∃ text rest, v.reader.unread = [text] :: rest ∧ key.group.ofHex text = .ok c ∧
        v' = v.took 1 rest := by
  rw [takeElement, bind_eq_ok]
  constructor
  · rintro ⟨fields, v'', taken, read⟩
    obtain ⟨rest, unread, length, rfl⟩ := takeRecord_eq_ok.mp taken
    obtain ⟨text, rfl⟩ := List.length_eq_one_iff.mp length
    obtain ⟨decoded, rfl⟩ := ofExcept_eq_ok.mp read
    exact ⟨text, rest, unread, mapError_eq_ok.mp decoded, rfl⟩
  · rintro ⟨text, rest, unread, read, rfl⟩
    exact ⟨[text], _, takeRecord_eq_ok.mpr ⟨rest, unread, rfl, rfl⟩,
      ofExcept_eq_ok.mpr ⟨mapError_eq_ok.mpr read, rfl⟩⟩

theorem takeProof_eq_ok {opcode : Opcode} {kind : ProofKind} {proof : Proof Element} :
    takeProof key opcode kind v = .ok proof v' ↔
      ∃ fields rest, v.reader.unread = fields :: rest ∧
        Proof.ofFields key kind fields = .ok proof ∧ v' = v.took 1 rest := by
  rw [takeProof, bind_eq_ok]
  constructor
  · rintro ⟨fields, v'', taken, read⟩
    obtain ⟨rest, unread, length, rfl⟩ := takeRecord_eq_ok.mp taken
    obtain ⟨decoded, rfl⟩ := ofExcept_eq_ok.mp read
    exact ⟨fields, rest, unread, mapError_eq_ok.mp decoded, rfl⟩
  · rintro ⟨fields, rest, unread, decoded, rfl⟩
    exact ⟨fields, _, takeRecord_eq_ok.mpr ⟨rest, unread, Proof.length_of_ofFields decoded, rfl⟩,
      ofExcept_eq_ok.mpr ⟨mapError_eq_ok.mpr decoded, rfl⟩⟩

/-- Once a proof has been checked, noting its verdict cannot fail. -/
theorem judge_eq [DecidableEq Element] {command : Command} {name : String}
    {claim : Claim Element} {proof : Proof Element} {verdict : Bool × ChallengeHistory}
    (h : Proof.verify key v.history claim proof = .ok verdict) :
    judge key command name claim proof v = .ok () (v.judged command name verdict) := by
  obtain ⟨passed, history⟩ := verdict
  have checked : (ofExcept ((Proof.verify key v.history claim proof).mapError .proof) :
      Verifying Element _) v = .ok (passed, history) v :=
    ofExcept_eq_ok.mpr ⟨mapError_eq_ok.mpr h, rfl⟩
  refine bind_eq_ok.mpr ⟨v, v, rfl, bind_eq_ok.mpr ⟨_, _, checked, ?_⟩⟩
  cases passed <;> rfl

theorem receive_eq_ok {opcode : Opcode} {name : String} :
    receive key opcode name v = .ok () v' ↔
      ∃ text rest c, v.reader.unread = [text] :: rest ∧ key.group.ofHex text = .ok c ∧
        v' = v.received key opcode name rest c := by
  rw [receive, bind_eq_ok]
  constructor
  · rintro ⟨c, v'', taken, others⟩
    obtain ⟨text, rest, unread, read, rfl⟩ := takeElement_eq_ok.mp taken
    cases others
    exact ⟨text, rest, c, unread, read, rfl⟩
  · rintro ⟨text, rest, c, unread, read, rfl⟩
    exact ⟨c, _, takeElement_eq_ok.mpr ⟨text, rest, unread, read, rfl⟩, rfl⟩

variable [DecidableEq Element]

theorem execute_equal_eq_ok {name : String} {value : Int} :
    execute key (.equal name value) v = .ok () v' ↔ Step key (.equal name value) v v' := by
  change (commitment name >>= _ : Verifying Element Unit) v.started = _ ↔ _
  rw [bind_eq_ok]
  constructor
  · rintro ⟨c, v₁, looked, others⟩
    obtain ⟨found, rfl⟩ := commitment_eq_ok.mp looked
    obtain ⟨proof, v₂, taken, judged⟩ := bind_eq_ok.mp others
    obtain ⟨fields, rest, unread, decoded, rfl⟩ := takeProof_eq_ok.mp taken
    obtain ⟨proof, read, rfl⟩ := except_map_eq_ok.mp decoded
    rw [judge_eq rfl] at judged
    cases judged
    exact .equal found unread read
  · intro step
    cases step with
    | equal found unread read =>
        refine ⟨_, _, commitment_eq_ok.mpr ⟨found, rfl⟩, bind_eq_ok.mpr ⟨_, _,
          takeProof_eq_ok.mpr ⟨_, _, unread, except_map_eq_ok.mpr ⟨_, read, rfl⟩, rfl⟩, ?_⟩⟩
        exact judge_eq rfl

theorem execute_square_eq_ok {name source : String} :
    execute key (.square name source) v = .ok () v' ↔ Step key (.square name source) v v' := by
  change (commitment source >>= _ : Verifying Element Unit) v.started = _ ↔ _
  rw [bind_eq_ok]
  constructor
  · rintro ⟨c, v₁, looked, others⟩
    obtain ⟨found, rfl⟩ := commitment_eq_ok.mp looked
    obtain ⟨squared, v₂, taken, others⟩ := bind_eq_ok.mp others
    obtain ⟨text, rest, unread, decodedSquared, rfl⟩ := takeElement_eq_ok.mp taken
    obtain ⟨proof, v₃, taken, others⟩ := bind_eq_ok.mp others
    obtain ⟨fields, rest, rfl, decoded, rfl⟩ := takeProof_eq_ok.mp taken
    obtain ⟨proof, read, rfl⟩ := except_map_eq_ok.mp decoded
    obtain ⟨⟨⟩, v₄, judged, binds⟩ := bind_eq_ok.mp others
    rw [judge_eq rfl] at judged
    cases judged
    cases binds
    exact .square found unread decodedSquared read
  · intro step
    cases step with
    | square found unread readSquared read =>
        refine ⟨_, _, commitment_eq_ok.mpr ⟨found, rfl⟩, bind_eq_ok.mpr ⟨_, _,
          takeElement_eq_ok.mpr ⟨_, _, unread, readSquared, rfl⟩, bind_eq_ok.mpr ⟨_, _,
            takeProof_eq_ok.mpr ⟨_, _, rfl, except_map_eq_ok.mpr ⟨_, read, rfl⟩, rfl⟩,
            bind_eq_ok.mpr ⟨(), _, judge_eq rfl, rfl⟩⟩⟩⟩

theorem execute_same_eq_ok {left right : String} :
    execute key (.same left right) v = .ok () v' ↔ Step key (.same left right) v v' := by
  change (commitment left >>= _ : Verifying Element Unit) v.started = _ ↔ _
  rw [bind_eq_ok]
  constructor
  · rintro ⟨first, v₁, looked, others⟩
    obtain ⟨foundLeft, rfl⟩ := commitment_eq_ok.mp looked
    obtain ⟨second, v₂, looked, others⟩ := bind_eq_ok.mp others
    obtain ⟨foundRight, rfl⟩ := commitment_eq_ok.mp looked
    obtain ⟨proof, v₃, taken, judged⟩ := bind_eq_ok.mp others
    obtain ⟨fields, rest, unread, decoded, rfl⟩ := takeProof_eq_ok.mp taken
    obtain ⟨proof, read, rfl⟩ := except_map_eq_ok.mp decoded
    rw [judge_eq rfl] at judged
    cases judged
    exact .same foundLeft foundRight unread read
  · intro step
    cases step with
    | same foundLeft foundRight unread read =>
        refine ⟨_, _, commitment_eq_ok.mpr ⟨foundLeft, rfl⟩, bind_eq_ok.mpr ⟨_, _,
          commitment_eq_ok.mpr ⟨foundRight, rfl⟩, bind_eq_ok.mpr ⟨_, _,
            takeProof_eq_ok.mpr ⟨_, _, unread, except_map_eq_ok.mpr ⟨_, read, rfl⟩, rfl⟩, ?_⟩⟩⟩
        exact judge_eq rfl

theorem execute_sum_eq_ok {name : String} {terms : List (Weight × String)} :
    execute key (.sum name terms) v = .ok () v' ↔ Step key (.sum name terms) v v' := by
  change (ofExcept (combineCommitments key v.bindings terms) >>= _ : Verifying Element Unit)
    v.started = _ ↔ _
  rw [bind_eq_ok]
  constructor
  · rintro ⟨combined, v₁, summed, others⟩
    obtain ⟨combines, rfl⟩ := ofExcept_eq_ok.mp summed
    cases others
    exact .sum combines
  · intro step
    cases step with
    | sum combines => exact ⟨_, _, ofExcept_eq_ok.mpr ⟨combines, rfl⟩, rfl⟩

/-- A verifier runs a command exactly when the command has a step. -/
theorem execute_eq_ok {command : Command} :
    execute key command v = .ok () v' ↔ Step key command v v' := by
  cases command with
  | input name =>
      refine (receive_eq_ok (v := v.started)).trans ⟨?_, ?_⟩
      · rintro ⟨text, rest, c, unread, read, rfl⟩
        exact .input unread read
      · intro step
        cases step with
        | input unread read => exact ⟨_, _, _, unread, read, rfl⟩
  | commit name expression =>
      refine (receive_eq_ok (v := v.started)).trans ⟨?_, ?_⟩
      · rintro ⟨text, rest, c, unread, read, rfl⟩
        exact .commit unread read
      · intro step
        cases step with
        | commit unread read => exact ⟨_, _, _, unread, read, rfl⟩
  | sum name terms => exact execute_sum_eq_ok
  | equal name value => exact execute_equal_eq_ok
  | square name source => exact execute_square_eq_ok
  | same left right => exact execute_same_eq_ok
  | log =>
      constructor
      · intro h
        cases h
        exact .log
      · intro step
        cases step
        rfl

/-- A verifier runs commands exactly along their steps. -/
theorem forM_eq_ok {commands : List Command} :
    commands.forM (execute key) v = .ok () v' ↔ Steps (Step key) commands v v' :=
  Steps.of_forM execute_eq_ok

/-- A command has one step at most. -/
theorem Step.unique {command : Command} {v'' : Verifier Element} (step : Step key command v v')
    (step' : Step key command v v'') : v'' = v' := by
  rw [← execute_eq_ok] at step step'
  rw [step] at step'
  cases step'
  rfl

end Verifier

end CommitScript
