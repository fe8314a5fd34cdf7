import CommitScript.Proofs.Checked.Protocols
import CommitScript.Proofs.Checked.Sums
import CommitScript.Proofs.VerifierSteps

/-! # Checked verifying

The verifier with every partial operation checked. Its steps ask nothing of the receipt, of the
script or of the state; only closing a run takes the records that have been taken away from all
records, and no command, whether it succeeds or fails, takes more than there are.
-/

namespace CommitScript

open Success

variable {Element : Type}

/-- Steps of a verifier that may panic. -/
abbrev CheckedVerifying (Element : Type) := CheckedRun RunError (Verifier Element)

namespace Verifier

section Programs

variable (ops : CheckedOps Element) (key : CommitmentKey Element)

/-- Takes a record that holds one element. -/
def takeElementChecked (opcode : Opcode) : CheckedVerifying Element Element := do
  let fields ← (takeRecord opcode 1 : Verifying Element (List String))
  let text ← (Checked.item fields 0 : Checked String)
  (ops.ofHex text).mapError RunError.algebra

def takeProofChecked (opcode : Opcode) (kind : ProofKind) :
    CheckedVerifying Element (Proof Element) := do
  let fields ← (takeRecord opcode kind.fieldCount : Verifying Element (List String))
  (Proof.ofFieldsChecked ops key kind fields).mapError RunError.proof

/-- Takes a fresh commitment and binds a name to it. -/
def receiveChecked (opcode : Opcode) (name : String) : CheckedVerifying Element Unit := do
  let commitment ← takeElementChecked ops opcode
  (modify fun verifier =>
    { verifier with
      history := verifier.history.message "commitment" (key.group.encode commitment) } :
    Verifying Element Unit)
  (emit .debug "commitment" [("name", name), ("opcode", opcode.name)] : Verifying Element Unit)
  (define name commitment : Verifying Element Unit)

variable [DecidableEq Element]

/-- Checks a proof and notes the verdict on a command about a name. -/
def judgeChecked (command : Command) (name : String) (claim : Claim Element)
    (proof : Proof Element) : CheckedVerifying Element Unit := do
  let verifier ← (get : Verifying Element (Verifier Element))
  let verdict ←
    (Proof.verifyChecked ops key verifier.history claim proof).mapError RunError.proof
  let outcome : Outcome :=
    { index := verifier.executed, opcode := command.opcode, name, statement := command.write,
      passed := verdict.1 }
  (modify fun verifier => { verifier with history := verdict.2 } : Verifying Element Unit)
  if verdict.1 then
    (emit .debug "verified" [("statement", outcome.statement)] : Verifying Element Unit)
  else
    (emit .warn "verification failed"
      [("statement", outcome.statement), ("index", Text.decimal outcome.index)] :
      Verifying Element Unit)
  (modify fun verifier => { verifier with outcomes := verifier.outcomes ++ [outcome] } :
    Verifying Element Unit)

def executeChecked (command : Command) : CheckedVerifying Element Unit := do
  (modify fun verifier => { verifier with executed := verifier.executed + 1 } :
    Verifying Element Unit)
  match command with
  | .input name => receiveChecked ops key .input name
  | .commit name _ => receiveChecked ops key .commit name
  | .sum name terms =>
      let verifier ← (get : Verifying Element (Verifier Element))
      let combined ← combineCommitmentsChecked ops key verifier.bindings terms
      (emit .debug "sum" [("name", name), ("terms", Text.decimal terms.length)] :
        Verifying Element Unit)
      (define name combined : Verifying Element Unit)
  | .equal name value =>
      let commitment ← (commitment name : Verifying Element Element)
      let claimed ← key.field.ofIntChecked value
      let proof ← takeProofChecked ops key .equal .value
      judgeChecked ops key command name (.value commitment claimed) proof
  | .square name source =>
      let source ← (commitment source : Verifying Element Element)
      let squared ← takeElementChecked ops .square
      let proof ← takeProofChecked ops key .square .square
      judgeChecked ops key command name (.square source squared) proof
      (define name squared : Verifying Element Unit)
  | .same left right =>
      let first ← (commitment left : Verifying Element Element)
      let second ← (commitment right : Verifying Element Element)
      let proof ← takeProofChecked ops key .same .same
      judgeChecked ops key command left (.same first second) proof
  | .log => (return : Verifying Element Unit)

/-- Runs the commands of a script in order, up to the first fault. -/
def runChecked (script : Script) : CheckedVerifying Element Unit :=
  script.commands.forM (executeChecked ops key)

end Programs

/-- Closes a run; every record of the receipt has to have been taken. -/
def finishChecked (receipt : Receipt) : CheckedVerifying Element Report := do
  let verifier ← (get : Verifying Element (Verifier Element))
  let remaining ← Checked.sub receipt.records.length verifier.reader.taken
  if remaining = 0 then
    let report : Report := { outcomes := verifier.outcomes }
    (emit .info "verification complete"
      [("passed", Text.decimal report.passedCount),
       ("total", Text.decimal report.outcomes.length)] : Verifying Element Unit)
    return report
  else
    (throw (.overrun remaining) : Verifying Element Report)

variable {ops : CheckedOps Element} {key : CommitmentKey Element} (agrees : ops.Agrees key.group)
include agrees

theorem takeElementChecked_eq (opcode : Opcode) :
    takeElementChecked ops opcode = CheckedRun.ofState (takeElement key opcode) := by
  funext v
  refine CheckedRun.bind_eq rfl fun fields t taken => ?_
  obtain ⟨rest, -, count, -⟩ := takeRecord_eq_ok.mp taken
  obtain ⟨text, rfl⟩ := List.length_eq_one_iff.mp count
  rw [Checked.item_of_eq_some rfl, CheckedRun.lift_pure_bind, agrees.ofHex,
    CheckedTry.mapError_ofExcept, CheckedRun.lift_ofExcept]
  rfl

theorem takeProofChecked_eq (opcode : Opcode) (kind : ProofKind) :
    takeProofChecked ops key opcode kind = CheckedRun.ofState (takeProof key opcode kind) := by
  refine CheckedRun.ofState_bind fun fields => ?_
  rw [Proof.ofFieldsChecked_eq agrees, CheckedTry.mapError_ofExcept, CheckedRun.lift_ofExcept]

theorem receiveChecked_eq (opcode : Opcode) (name : String) :
    receiveChecked ops key opcode name = CheckedRun.ofState (receive key opcode name) := by
  rw [receiveChecked, takeElementChecked_eq agrees]
  exact CheckedRun.ofState_bind fun _ => rfl

variable [DecidableEq Element]

theorem judgeChecked_eq (command : Command) (name : String) (claim : Claim Element)
    (proof : Proof Element) :
    judgeChecked ops key command name claim proof =
      CheckedRun.ofState (judge key command name claim proof) := by
  refine CheckedRun.ofState_bind fun verifier => ?_
  rw [Proof.verifyChecked_eq agrees, CheckedTry.mapError_ofExcept, CheckedRun.lift_ofExcept]
  refine CheckedRun.ofState_bind fun verdict => ?_
  obtain ⟨passed, history⟩ := verdict
  cases passed <;> rfl

/-- A verifier runs a command without a panic, whatever state it is in. -/
theorem executeChecked_eq (command : Command) :
    executeChecked ops key command = CheckedRun.ofState (execute key command) := by
  refine CheckedRun.ofState_bind fun _ => ?_
  cases command with
  | input name => exact receiveChecked_eq agrees _ _
  | commit name expression => exact receiveChecked_eq agrees _ _
  | sum name terms =>
      refine CheckedRun.ofState_bind fun verifier => ?_
      rw [agrees.combineCommitments, CheckedRun.lift_ofExcept]
      exact CheckedRun.ofState_bind fun _ => rfl
  | equal name value =>
      refine CheckedRun.ofState_bind fun commitment => ?_
      rw [ScalarField.ofIntChecked_eq, CheckedRun.lift_pure_bind, takeProofChecked_eq agrees]
      exact CheckedRun.ofState_bind fun proof => judgeChecked_eq agrees _ _ _ _
  | square name source =>
      refine CheckedRun.ofState_bind fun source => ?_
      rw [takeElementChecked_eq agrees]
      refine CheckedRun.ofState_bind fun squared => ?_
      rw [takeProofChecked_eq agrees]
      refine CheckedRun.ofState_bind fun proof => ?_
      rw [judgeChecked_eq agrees]
      exact CheckedRun.ofState_bind fun _ => rfl
  | same left right =>
      refine CheckedRun.ofState_bind fun first => ?_
      refine CheckedRun.ofState_bind fun second => ?_
      rw [takeProofChecked_eq agrees]
      exact CheckedRun.ofState_bind fun proof => judgeChecked_eq agrees _ _ _ _
  | log => rfl

theorem runChecked_eq (script : Script) :
    runChecked ops key script = CheckedRun.ofState (run key script) := by
  funext v
  have anyState : (fun _ : Verifier Element => True) v := trivial
  exact CheckedRun.forM_eq (fun command s _ => congrFun (executeChecked_eq agrees command) s)
    (fun _ _ _ _ _ => trivial) _ anyState

end Verifier

/-! ## Closing a run

A run may be closed after any commands, also where some of them have failed. What it takes from
the number of all records is never more, since no command leaves a verifier with more records
taken than it has given up.
-/

/-- The state that steps leave, whether they succeed or fail. -/
def stateAfter {ε σ α : Type} : EStateM.Result ε σ α → σ
  | .ok _ s => s
  | .error _ s => s

/-- Whether steps keep a property of the state, even where they fail. -/
def Keeping {ε σ α : Type} (Keeps : σ → Prop) (x : EStateM ε σ α) : Prop :=
  ∀ s, Keeps s → Keeps (stateAfter (x s))

namespace Keeping

variable {ε σ α β : Type} {Keeps : σ → Prop}

theorem of_bind {x : EStateM ε σ α} {f : α → EStateM ε σ β} (first : Keeping Keeps x)
    (others : ∀ a, Keeping Keeps (f a)) : Keeping Keeps (x >>= f) := by
  intro s h
  have kept := first s h
  cases ran : x s with
  | error e t =>
      rw [bind_of_error ran]
      rwa [ran] at kept
  | ok a t =>
      rw [bind_of_ok ran]
      rw [ran] at kept
      exact others a t kept

theorem of_except {x : Except ε α} : Keeping Keeps (ofExcept x : EStateM ε σ α) := by
  intro s h
  cases x <;> exact h

theorem of_get : Keeping Keeps (get : EStateM ε σ σ) :=
  fun _ h => h

theorem of_modify {f : σ → σ} (h : ∀ s, Keeps s → Keeps (f s)) :
    Keeping Keeps (modify f : EStateM ε σ Unit) :=
  h

theorem of_forM {f : α → EStateM ε σ Unit} (h : ∀ a, Keeping Keeps (f a)) (as : List α) :
    Keeping Keeps (as.forM f) := by
  induction as with
  | nil => exact fun _ kept => kept
  | cons a as ih => exact .of_bind (h a) fun _ => ih

end Keeping

namespace Verifier

/-- Whether what a verifier has taken and what it has not are together as many records as a
    receipt has. -/
def Within (receipt : Receipt) (verifier : Verifier Element) : Prop :=
  verifier.reader.taken + verifier.reader.unread.length = receipt.records.length

/-- The verifier after some commands, run past those that fail. -/
def runPast [DecidableEq Element] (key : CommitmentKey Element) (commands : List Command)
    (verifier : Verifier Element) : Verifier Element :=
  commands.foldl (fun verifier command => stateAfter (execute key command verifier)) verifier

variable {receipt : Receipt} {key : CommitmentKey Element} {v : Verifier Element}

theorem keeping_takeRecord (opcode : Opcode) (count : Nat) :
    Keeping (Within receipt) (takeRecord opcode count : Verifying Element (List String)) := by
  intro v within
  cases next : v.reader.next opcode count with
  | error fault =>
      have ran : takeRecord opcode count v = .error fault v := by
        change (ofExcept (v.reader.next opcode count) >>= _ : Verifying Element _) v = _
        exact bind_of_error (ofExcept_of_error next)
      rwa [ran]
  | ok taken =>
      obtain ⟨rest, unread, length, -⟩ := ReceiptReader.next_eq_ok.mp next
      have ran : takeRecord opcode count v = .ok taken.1 (v.took 1 rest) :=
        takeRecord_eq_ok.mpr ⟨rest, unread, length, rfl⟩
      rw [ran]
      rw [Within, unread, List.length_cons] at within
      change v.reader.taken + 1 + rest.length = receipt.records.length
      omega

theorem keeping_takeElement (opcode : Opcode) :
    Keeping (Within receipt) (takeElement key opcode) :=
  .of_bind (keeping_takeRecord _ _) fun _ => .of_except

theorem keeping_takeProof (opcode : Opcode) (kind : ProofKind) :
    Keeping (Within receipt) (takeProof key opcode kind) :=
  .of_bind (keeping_takeRecord _ _) fun _ => .of_except

theorem keeping_commitment (name : String) :
    Keeping (Within receipt) (commitment name : Verifying Element Element) :=
  .of_bind .of_get fun _ => .of_except

theorem keeping_receive (opcode : Opcode) (name : String) :
    Keeping (Within receipt) (receive key opcode name) :=
  .of_bind (keeping_takeElement _) fun _ => .of_bind (.of_modify fun _ within => within) fun _ =>
    .of_bind (.of_modify fun _ within => within) fun _ => .of_modify fun _ within => within

variable [DecidableEq Element]

theorem keeping_judge (command : Command) (name : String) (claim : Claim Element)
    (proof : Proof Element) : Keeping (Within receipt) (judge key command name claim proof) := by
  refine .of_bind .of_get fun _ => .of_bind .of_except fun (passed, history) =>
    .of_bind (.of_modify fun _ within => within) fun _ => ?_
  cases passed
  · exact .of_bind (.of_modify fun _ within => within) fun _ => .of_modify fun _ within => within
  · exact .of_bind (.of_modify fun _ within => within) fun _ => .of_modify fun _ within => within

/-- No command, whether it succeeds or fails, makes a verifier lose a record. -/
theorem keeping_execute (command : Command) :
    Keeping (Within receipt) (execute key command) := by
  refine .of_bind (.of_modify fun _ within => within) fun _ => ?_
  cases command with
  | input name => exact keeping_receive _ _
  | commit name expression => exact keeping_receive _ _
  | sum name terms =>
      exact .of_bind .of_get fun _ => .of_bind .of_except fun _ =>
        .of_bind (.of_modify fun _ within => within) fun _ => .of_modify fun _ within => within
  | equal name value =>
      exact .of_bind (keeping_commitment _) fun _ => .of_bind (keeping_takeProof _ _) fun _ =>
        keeping_judge _ _ _ _
  | square name source =>
      exact .of_bind (keeping_commitment _) fun _ => .of_bind (keeping_takeElement _) fun _ =>
        .of_bind (keeping_takeProof _ _) fun _ => .of_bind (keeping_judge _ _ _ _) fun _ =>
          .of_modify fun _ within => within
  | same left right =>
      exact .of_bind (keeping_commitment _) fun _ => .of_bind (keeping_commitment _) fun _ =>
        .of_bind (keeping_takeProof _ _) fun _ => keeping_judge _ _ _ _
  | log => exact fun _ within => within

theorem within_runPast (commands : List Command) (within : v.Within receipt) :
    (runPast key commands v).Within receipt := by
  induction commands generalizing v with
  | nil => exact within
  | cons command commands ih => exact ih (keeping_execute command v within)

omit [DecidableEq Element] in
theorem within_start : (start key receipt).Within receipt :=
  Nat.zero_add _

omit [DecidableEq Element] in
/-- A run is closed without a panic. -/
theorem finishChecked_eq (within : v.Within receipt) :
    finishChecked receipt v = pure (finish v) := by
  have enough : v.reader.taken ≤ receipt.records.length :=
    Nat.le.intro within
  have remaining : receipt.records.length - v.reader.taken = v.reader.unread.length :=
    Nat.sub_eq_of_eq_add' within.symm
  refine CheckedRun.bind_eq rfl fun _ _ gotten => ?_
  cases gotten
  rw [Checked.sub_of_le enough, CheckedRun.lift_pure_bind, remaining, ReceiptReader.finish]
  cases v.reader.unread with
  | nil => rfl
  | cons fields rest => rfl

/-- Runs a whole script and closes the run. -/
def replayChecked (ops : CheckedOps Element) (key : CommitmentKey Element) (script : Script)
    (receipt : Receipt) : CheckedVerifying Element Report := do
  runChecked ops key script
  finishChecked receipt

theorem replayChecked_eq {ops : CheckedOps Element} (agrees : ops.Agrees key.group)
    (script : Script) :
    replayChecked ops key script receipt (.start key receipt) =
      pure (replay key script (.start key receipt)) := by
  refine CheckedRun.bind_eq (congrFun (runChecked_eq agrees script) _) fun _ t ran => ?_
  have within : (stateAfter (run key script (.start key receipt))).Within receipt :=
    Keeping.of_forM keeping_execute _ _ within_start
  rw [ran] at within
  exact finishChecked_eq within

end Verifier

/-- Replays a script against a receipt from the start and gives the report. -/
def CommitmentKey.verifyChecked [DecidableEq Element] (ops : CheckedOps Element)
    (key : CommitmentKey Element) (script : Script) (receipt : Receipt) :
    CheckedTry RunError Report := do
  match ← (Verifier.replayChecked ops key script receipt (.start key receipt) : Checked _) with
  | .ok report _ => return report
  | .error fault _ => throw fault

theorem CommitmentKey.verifyChecked_eq [DecidableEq Element] {ops : CheckedOps Element}
    {key : CommitmentKey Element} (agrees : ops.Agrees key.group) (script : Script)
    (receipt : Receipt) :
    key.verifyChecked ops script receipt = CheckedTry.ofExcept (key.verify script receipt) := by
  rw [verifyChecked, Verifier.replayChecked_eq agrees, CheckedTry.lift_pure, pure_bind, verify]
  cases Verifier.replay key script (.start key receipt) <;> rfl

end CommitScript
