import CommitScript.Proofs.ResidueKeys
import CommitScript.Proofs.ScalarResidue
import CommitScript.Proofs.ScriptSkeleton
import CommitScript.Proofs.VerifierRuns
import CommitScript.Proofs.WeightedSums

/-! # Verdicts follow the skeleton

Two verifiers that read one receipt along two scripts with the same skeleton. Their names may be
different and may hide each other differently, but names that refer to the same definition stand
for the same commitment, and the two histories and the two receipts are always the same. Each step
of one is answered by a step of the other, while logs of either side go by unanswered, so both come
to the same verdicts or neither comes to any.
-/

namespace CommitScript

open Success

variable {Element : Type}

/-- The verdicts on the claims of a script in order, unless a fault ends the verification. -/
def CommitmentKey.verdicts? [DecidableEq Element] (key : CommitmentKey Element) (script : Script)
    (receipt : Receipt) : Option (List Bool) :=
  (key.verify script receipt).toOption.map fun report => report.outcomes.map Outcome.passed

/-- Integers that agree modulo the modulus stand for the same scalar. -/
theorem ScalarField.ofInt_congr {field : ScalarField} {value value' : Int}
    (h : value' % field.modulus = value % field.modulus) : field.ofInt value' = field.ofInt value :=
  eq_ofInt_iff.mpr ((field.value_ofInt value').trans h)

/-- Sums whose weights are alike and whose names stand for the same are resolved alike. -/
theorem resolveTerms_alike {Value : Type} {field : ScalarField} {table table' : Table Value}
    {terms terms' : List (Weight × String)} {pairs : List (Scalar × Value)}
    (alike : List.Forall₂ (fun term' term =>
      (term'.1.resolve field).toOption = (term.1.resolve field).toOption ∧
        table'.get? term'.2 = table.get? term.2) terms' terms)
    (h : resolveTerms field table terms = .ok pairs) :
    resolveTerms field table' terms' = .ok pairs := by
  rw [resolveTerms_eq_ok] at h ⊢
  induction alike generalizing pairs with
  | nil =>
      cases h
      exact .nil
  | cons first _ ih =>
      obtain ⟨pair, pairs, ⟨weight, found⟩, others, rfl⟩ := List.forall₂_cons_left_iff.mp h
      exact .cons ⟨first.1.trans weight, first.2.trans found⟩ (ih others)

namespace Verifier

/-- What two verifiers agree on that read one receipt along two scripts with the same skeleton.
    The names that each has defined stand newest first. -/
structure Mirrors (names names' : List String) (v w : Verifier Element) : Prop where
  length : names'.length = names.length
  bindings {name name' : String} (refers : place? names' name' = place? names name) :
    w.bindings.get? name' = v.bindings.get? name
  unread : w.reader.unread = v.reader.unread
  history : w.history = v.history
  verdicts : w.outcomes.map Outcome.passed = v.outcomes.map Outcome.passed

variable {key : CommitmentKey Element} {names names' : List String} {v v' w : Verifier Element}
  {command command' : Command} {commands : List Command}

namespace Mirrors

/-- It is no matter to one side how many commands the other has started. -/
theorem passed (mirrors : Mirrors names names' v w) : Mirrors names names' v w.started :=
  ⟨mirrors.length, mirrors.bindings, mirrors.unread, mirrors.history, mirrors.verdicts⟩

theorem started (mirrors : Mirrors names names' v w) :
    Mirrors names names' v.started w.started :=
  ⟨mirrors.length, mirrors.bindings, mirrors.unread, mirrors.history, mirrors.verdicts⟩

theorem told (mirrors : Mirrors names names' v w) (event event' : Event) :
    Mirrors names names' (v.told event) (w.told event') :=
  ⟨mirrors.length, mirrors.bindings, mirrors.unread, mirrors.history, mirrors.verdicts⟩

theorem took (mirrors : Mirrors names names' v w) (count : Nat) (rest : List (List String)) :
    Mirrors names names' (v.took count rest) (w.took count rest) :=
  ⟨mirrors.length, mirrors.bindings, rfl, mirrors.history, mirrors.verdicts⟩

theorem heard (mirrors : Mirrors names names' v w) (commitment : Element) :
    Mirrors names names' (v.heard key commitment) (w.heard key commitment) :=
  ⟨mirrors.length, mirrors.bindings, mirrors.unread,
    congrArg (ChallengeHistory.message · _ _) mirrors.history, mirrors.verdicts⟩

/-- A verdict is noted with its command, but the verdict itself is the same. -/
theorem judged (mirrors : Mirrors names names' v w) (name name' : String)
    (verdict : Bool × ChallengeHistory) :
    Mirrors names names' (v.judged command name verdict) (w.judged command' name' verdict) where
  length := mirrors.length
  bindings := mirrors.bindings
  unread := mirrors.unread
  history := rfl
  verdicts := by
    simp only [Verifier.judged, List.map_append, mirrors.verdicts, outcome, List.map_singleton]

/-- The newest name of one side refers to the newest definition, as does that of the other. -/
theorem bound (mirrors : Mirrors names names' v w) (name name' : String) (commitment : Element) :
    Mirrors (name :: names) (name' :: names') (v.bound name commitment)
      (w.bound name' commitment) where
  length := by rw [List.length_cons, List.length_cons, mirrors.length]
  bindings {other other'} refers := by
    rw [Verifier.bound, Verifier.bound, Table.get?_insert, Table.get?_insert]
    rw [place?, place?, mirrors.length] at refers
    split at refers
    · next newest' =>
      split at refers
      · next newest => rw [if_pos newest', if_pos newest]
      · exact absurd (place?_lt refers.symm) (Nat.lt_irrefl _)
    · next older' =>
      split at refers
      · exact absurd (mirrors.length ▸ place?_lt refers) (Nat.lt_irrefl _)
      · next older => rw [if_neg older', if_neg older, mirrors.bindings refers]
  unread := mirrors.unread
  history := mirrors.history
  verdicts := mirrors.verdicts

theorem received (mirrors : Mirrors names names' v w) (opcode opcode' : Opcode)
    (name name' : String) (rest : List (List String)) (commitment : Element) :
    Mirrors (name :: names) (name' :: names') (v.received key opcode name rest commitment)
      (w.received key opcode' name' rest commitment) :=
  (((mirrors.took 1 rest).heard commitment).told _ _).bound name name' commitment

end Mirrors

theorem mirrors_start {receipt : Receipt} :
    Mirrors [] [] (.start key receipt) (.start key receipt) :=
  ⟨rfl, fun _ => rfl, rfl, rfl, rfl⟩

variable [DecidableEq Element]

/-- What asks for a fresh commitment takes one, whichever command it is. -/
theorem step_of_fresh {text : String} {rest : List (List String)} {commitment : Element}
    (asks : command.part? key.field names = some .fresh)
    (unread : v.reader.unread = [text] :: rest) (read : key.group.ofHex text = .ok commitment) :
    ∃ opcode name, command.binds = [name] ∧
      Step key command v (v.started.received key opcode name rest commitment) := by
  cases command with
  | input name => exact ⟨.input, name, rfl, .input unread read⟩
  | commit name expression => exact ⟨.commit, name, rfl, .commit unread read⟩
  | _ => cases asks

/-- Where one side takes a fresh commitment the other side takes the same. -/
theorem Mirrors.receives (mirrors : Mirrors names names' v w) {opcode : Opcode} {name text : String}
    {rest : List (List String)} {commitment : Element}
    (asks : command'.part? key.field names' = some .fresh)
    (unread : v.reader.unread = [text] :: rest) (read : key.group.ofHex text = .ok commitment) :
    ∃ w', Step key command' w w' ∧
      Mirrors (name :: names) (command'.binds ++ names')
        (v.started.received key opcode name rest commitment) w' := by
  obtain ⟨opcode', name', binds, step⟩ := step_of_fresh asks (mirrors.unread.trans unread) read
  rw [binds]
  exact ⟨_, step, mirrors.started.received opcode opcode' name name' rest commitment⟩

/-- A step of one side is answered by a step of the other when both commands ask for the same. -/
theorem Step.mirror (step : Step key command v v') (mirrors : Mirrors names names' v w)
    (alike : command'.part? key.field names' = command.part? key.field names) :
    ∃ w', Step key command' w w' ∧
      Mirrors (command.binds ++ names) (command'.binds ++ names') v' w' := by
  cases step with
  | input unread read => exact mirrors.receives alike unread read
  | commit unread read => exact mirrors.receives alike unread read
  | @sum _ name terms combined combines =>
      cases command' with
      | sum name' terms' =>
          obtain ⟨pairs, resolved, rfl⟩ := except_map_eq_ok.mp combines
          have parts := Part.sum.inj (Option.some.inj alike)
          rw [← List.forall₂_eq_eq_eq, List.forall₂_map_left_iff, List.forall₂_map_right_iff]
            at parts
          have resolved' := resolveTerms_alike (parts.imp fun term' term same =>
            ⟨congrArg Prod.fst same, mirrors.bindings (congrArg Prod.snd same)⟩) resolved
          exact ⟨_, .sum (except_map_eq_ok.mpr ⟨pairs, resolved', rfl⟩),
            (mirrors.started.told _ _).bound name name' _⟩
      | _ => cases alike
  | @equal _ name value fields rest commitment proof found unread read =>
      cases command' with
      | equal name' value' =>
          obtain ⟨refers, values⟩ := Part.equal.inj (Option.some.inj alike)
          have step' : Step key (.equal name' value') w _ :=
            .equal ((mirrors.bindings refers).trans found) (mirrors.unread.trans unread) read
          rw [mirrors.history, ScalarField.ofInt_congr values] at step'
          exact ⟨_, step', (mirrors.started.took 1 rest).judged name name' _⟩
      | _ => cases alike
  | @square _ name source text fields rest commitment squared proof found unread readSquared
        read =>
      cases command' with
      | square name' source' =>
          have refers := Part.square.inj (Option.some.inj alike)
          have step' : Step key (.square name' source') w _ :=
            .square ((mirrors.bindings refers).trans found) (mirrors.unread.trans unread)
              readSquared read
          rw [mirrors.history] at step'
          exact ⟨_, step',
            ((mirrors.started.took 2 rest).judged name name' _).bound name name' squared⟩
      | _ => cases alike
  | @same _ left right fields rest first second proof foundLeft foundRight unread read =>
      cases command' with
      | same left' right' =>
          obtain ⟨refersLeft, refersRight⟩ := Part.same.inj (Option.some.inj alike)
          have step' : Step key (.same left' right') w _ :=
            .same ((mirrors.bindings refersLeft).trans foundLeft)
              ((mirrors.bindings refersRight).trans foundRight) (mirrors.unread.trans unread) read
          rw [mirrors.history] at step'
          exact ⟨_, step', (mirrors.started.took 1 rest).judged left left' _⟩
      | _ => cases alike
  | log =>
      obtain rfl := Command.part?_eq_none.mp alike
      exact ⟨_, .log, mirrors.started⟩

/-- Logs of the other side go by unanswered. -/
theorem Mirrors.pass {logs : List Command} (silent : ∀ command ∈ logs, command = .log)
    (mirrors : Mirrors names names' v w) :
    ∃ w', Steps (Step key) logs w w' ∧ Mirrors names names' v w' := by
  induction logs generalizing w with
  | nil => exact ⟨w, .nil, mirrors⟩
  | cons command logs ih =>
      obtain ⟨rfl, others⟩ := List.forall_mem_cons.mp silent
      obtain ⟨w', steps, mirrors'⟩ := ih others mirrors.passed
      exact ⟨w', .cons .log steps, mirrors'⟩

/-- A run of one side is answered by a run of the other along commands with the same skeleton. -/
theorem mirror_of_steps (steps : Steps (Step key) commands v v') {commands' : List Command}
    (mirrors : Mirrors names names' v w)
    (alike : skeletonFrom key.field names' commands' = skeletonFrom key.field names commands) :
    ∃ w' known known', Steps (Step key) commands' w w' ∧ Mirrors known known' v' w' := by
  induction steps generalizing names names' w commands' with
  | nil =>
      obtain ⟨w', passes, mirrors'⟩ := mirrors.pass (logs_of_skeletonFrom_eq_nil alike)
      exact ⟨w', names, names', passes, mirrors'⟩
  | @cons command commands v r v' first others ih =>
      cases asks : command.part? key.field names with
      | none =>
          obtain rfl := Command.part?_eq_none.mp asks
          cases first
          exact ih ⟨mirrors.length, mirrors.bindings, mirrors.unread, mirrors.history,
            mirrors.verdicts⟩ alike
      | some part =>
          rw [skeletonFrom, asks] at alike
          obtain ⟨logs, command', others', rfl, silent, asks', alike'⟩ :=
            skeletonFrom_eq_cons alike
          obtain ⟨w₁, passes, mirrors₁⟩ := mirrors.pass silent
          obtain ⟨w₂, first', mirrors₂⟩ := first.mirror mirrors₁ (asks'.trans asks.symm)
          obtain ⟨w', known, known', others', mirrors'⟩ := ih mirrors₂ alike'
          exact ⟨w', known, known', Steps.append_iff.mpr ⟨w₁, passes, .cons first' others'⟩,
            mirrors'⟩

end Verifier

namespace CommitmentKey

variable [DecidableEq Element] {key : CommitmentKey Element} {script script' : Script}
  {receipt : Receipt}

theorem verdicts?_eq_some {verdicts : List Bool} :
    key.verdicts? script receipt = some verdicts ↔
      ∃ v, Steps (Verifier.Step key) script.commands (.start key receipt) v ∧
        v.reader.unread = [] ∧ v.outcomes.map Outcome.passed = verdicts := by
  simp only [verdicts?, Option.map_eq_some_iff, toOption_eq_some, verify_eq_ok]
  constructor
  · rintro ⟨_, ⟨v, steps, left, rfl⟩, rfl⟩
    exact ⟨v, steps, left, rfl⟩
  · rintro ⟨v, steps, left, rfl⟩
    exact ⟨_, ⟨v, steps, left, rfl⟩, rfl⟩

theorem verdicts?_eq_some_of_skeleton {verdicts : List Bool}
    (alike : script'.skeleton key.field = script.skeleton key.field)
    (h : key.verdicts? script receipt = some verdicts) :
    key.verdicts? script' receipt = some verdicts := by
  obtain ⟨v, steps, left, rfl⟩ := verdicts?_eq_some.mp h
  obtain ⟨w, known, known', steps', mirrors⟩ :=
    Verifier.mirror_of_steps steps Verifier.mirrors_start alike
  exact verdicts?_eq_some.mpr ⟨w, steps', mirrors.unread.trans left, mirrors.verdicts⟩

/-- Scripts with the same skeleton get the same verdicts, or none of them gets any. -/
theorem verdicts?_congr (alike : script'.skeleton key.field = script.skeleton key.field) :
    key.verdicts? script' receipt = key.verdicts? script receipt := by
  refine Option.ext fun verdicts => ⟨?_, ?_⟩
  · exact verdicts?_eq_some_of_skeleton alike.symm
  · exact verdicts?_eq_some_of_skeleton alike

theorem verdicts?_bare (script : Script) (receipt : Receipt) :
    key.verdicts? script.bare receipt = key.verdicts? script receipt :=
  verdicts?_congr (Script.skeleton_bare script)

/-- Two scripts that ask for the same, one after the other, get the same verdicts from every
    receipt, or both verifications end in a fault. So nothing depends on what stands in an
    expression or on where logs stand, on the names as long as different names stay different, or
    on whether a name is defined again where a new one could be. -/
theorem verdicts_follow_skeleton (key : CommitmentKey Element) (script script' : Script)
    (receipt : Receipt) :
    (script'.skeleton key.field = script.skeleton key.field →
        key.verdicts? script' receipt = key.verdicts? script receipt) ∧
      (script'.bare = script.bare →
        key.verdicts? script' receipt = key.verdicts? script receipt) ∧
      (∀ f : String → String, Set.InjOn f {name | name ∈ script.names} →
        script'.bare = (script.rename f).bare →
          key.verdicts? script' receipt = key.verdicts? script receipt) ∧
      ∀ fresh : Nat → String, fresh.Injective → (∀ i, fresh i ∉ script.names) →
        ((script.apart fresh).commands.flatMap Command.binds).Nodup ∧
          (script'.bare = (script.apart fresh).bare →
            key.verdicts? script' receipt = key.verdicts? script receipt) := by
  have bare {other : Script} (alike : script'.bare = other.bare) :
      key.verdicts? script' receipt = key.verdicts? other receipt := by
    rw [← verdicts?_bare script', alike, verdicts?_bare]
  refine ⟨verdicts?_congr, bare, fun f injective alike => ?_, fun fresh injective foreign =>
    ⟨Script.nodup_binds_apart injective script, fun alike => ?_⟩⟩
  · rw [bare alike]
    exact verdicts?_congr (Script.skeleton_rename injective)
  · rw [bare alike]
    exact verdicts?_congr (Script.skeleton_apart injective foreign)

open ResidueGroup in
/-- The script binds one name twice. The others take an expression for the input and hold logs,
    use two names, or are in single-assignment form. -/
theorem verdicts_follow_skeleton_small :
    ∃ verdicts,
      (small.keyOf ⟨3⟩).verdicts? ⟨[.input "a", .square "a" "a"]⟩ squareReceipt = some verdicts ∧
        (small.keyOf ⟨3⟩).verdicts? ⟨[.log, .commit "x" "7*y", .square "y" "x", .log]⟩
          squareReceipt = some verdicts ∧
        (small.keyOf ⟨3⟩).verdicts? ⟨[.commit "a" "", .log, .square "a" "a"]⟩ squareReceipt =
          some verdicts ∧
        (small.keyOf ⟨3⟩).verdicts? ⟨[.commit "a2" "a", .square "a2" "a2"]⟩ squareReceipt =
          some verdicts ∧
        (small.keyOf ⟨3⟩).verdicts? ⟨[.input "x", .square "xx" "x"]⟩ squareReceipt =
          some verdicts := by
  have steps : Steps (Verifier.Step (small.keyOf ⟨3⟩)) [.input "a", .square "a" "a"]
      (.start (small.keyOf ⟨3⟩) squareReceipt) _ :=
    .cons (.input rfl rfl) (.cons (.square rfl rfl rfl rfl) .nil)
  have gives : (small.keyOf ⟨3⟩).verdicts? ⟨[.input "a", .square "a" "a"]⟩ squareReceipt =
      some _ := verdicts?_eq_some.mpr ⟨_, steps, rfl, rfl⟩
  let fresh (i : Nat) : String := String.ofList (List.replicate (i + 1) 'x')
  have injective : fresh.Injective := fun i j same => by
    have := congrArg String.length same
    simpa [fresh] using this
  have foreign (i : Nat) : fresh i ∉ Script.names ⟨[.input "a", .square "a" "a"]⟩ := by
    intro member
    have named : fresh i = "a" := by simpa [Script.names, Command.uses, Command.binds] using member
    have first := congrArg (fun name => name.toList.head?) named
    simp [fresh, List.replicate_succ] at first
  have follow (script' : Script) :=
    verdicts_follow_skeleton (small.keyOf ⟨3⟩) ⟨[.input "a", .square "a" "a"]⟩ script'
      squareReceipt
  have logged := (follow ⟨[.log, .commit "x" "7*y", .square "y" "x", .log]⟩).1 rfl
  have expressed := (follow ⟨[.commit "a" "", .log, .square "a" "a"]⟩).2.1 rfl
  have renamed := (follow ⟨[.commit "a2" "a", .square "a2" "a2"]⟩).2.2.1 (· ++ "2")
    (fun _ _ _ _ same => (String.append_left_inj "2").mp same) (by decide)
  have single := ((follow ⟨[.input "x", .square "xx" "x"]⟩).2.2.2 fresh injective foreign).2
    (by decide)
  exact ⟨_, gives, logged.trans gives, expressed.trans gives, renamed.trans gives,
    single.trans gives⟩

end CommitmentKey

end CommitScript
