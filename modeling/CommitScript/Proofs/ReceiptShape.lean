import CommitScript.Proofs.VerifierRuns
import CommitScript.Proofs.WeightedSums

/-! # Which receipts fit a script

A verifier gives a report exactly when the receipt has the shape that the script asks for, each
field decodes, every name is bound before it is used and every weight has a scalar. Whether the
proofs are any good does not matter for that. Records that are left over are told apart from
every other fault.
-/

namespace CommitScript

open Success

variable {Element : Type}

/-- Records fit a layout when they have its shape and the fields that meet in the joined lists
    decode. -/
theorem Verifier.fits_iff {key : CommitmentKey Element} {layouts : List (List Encoded)}
    {records : List (List String)} :
    Fits key layouts records ↔
      records.map List.length = layouts.map List.length ∧
        ∀ field ∈ layouts.flatten.zip records.flatten, field.1.Decodes key field.2 := by
  unfold Fits
  induction layouts generalizing records with
  | nil =>
      rw [List.forall₂_nil_left_iff]
      constructor
      · rintro rfl
        exact ⟨rfl, fun _ member => absurd member List.not_mem_nil⟩
      · rintro ⟨lengths, -⟩
        exact List.map_eq_nil_iff.mp lengths
  | cons layout layouts ih =>
      cases records with
      | nil => simp
      | cons fields records =>
          rw [List.forall₂_cons, ih, List.forall₂_iff_zip]
          simp only [List.map_cons, List.cons.injEq, List.flatten_cons]
          constructor
          · rintro ⟨⟨length, first⟩, lengths, others⟩
            refine ⟨⟨length.symm, lengths⟩, fun field member => ?_⟩
            rw [List.zip_append length, List.mem_append] at member
            cases member with
            | inl member => exact first member
            | inr member => exact others field member
          · rintro ⟨⟨length, lengths⟩, all⟩
            rw [List.zip_append length.symm] at all
            exact ⟨⟨length.symm, fun member => all _ (List.mem_append_left _ member)⟩, lengths,
              fun field member => all field (List.mem_append_right _ member)⟩

namespace Verifier

section Steps

variable [DecidableEq Element] {key : CommitmentKey Element} {v v' : Verifier Element}
  {command : Command} {commands : List Command}

theorem Step.uses_bound (step : Step key command v v') :
    ∀ name ∈ command.uses, (v.bindings.get? name).isSome := by
  cases step with
  | input => exact fun name used => absurd used List.not_mem_nil
  | commit => exact fun name used => absurd used List.not_mem_nil
  | sum combines =>
      intro name used
      obtain ⟨term, member, rfl⟩ := List.mem_map.mp used
      exact (exists_resolveTerms.mp (exists_map_eq_ok.mp ⟨_, combines⟩)).2 term member
  | equal found => exact fun name used => by rw [List.mem_singleton.mp used, found]; rfl
  | square found => exact fun name used => by rw [List.mem_singleton.mp used, found]; rfl
  | same foundLeft foundRight =>
      intro name used
      rcases List.mem_cons.mp used with rfl | used
      · rw [foundLeft]
        rfl
      · rw [List.mem_singleton.mp used, foundRight]
        rfl
  | log => exact fun name used => absurd used List.not_mem_nil

theorem Step.weights_resolve (step : Step key command v v') :
    ∀ weight ∈ command.weights, ∃ a, weight.resolve key.field = .ok a := by
  cases step with
  | sum combines =>
      intro weight weighs
      obtain ⟨term, member, rfl⟩ := List.mem_map.mp weighs
      exact (exists_resolveTerms.mp (exists_map_eq_ok.mp ⟨_, combines⟩)).1 term member
  | _ => exact fun weight member => absurd member List.not_mem_nil

/-- A command has a step when its names are bound, its weights have scalars and the next records
    fit it. -/
theorem exists_step {records rest : List (List String)}
    (used : ∀ name ∈ command.uses, (v.bindings.get? name).isSome)
    (weights : ∀ weight ∈ command.weights, ∃ a, weight.resolve key.field = .ok a)
    (fits : Fits key command.layout records) (unread : v.reader.unread = records ++ rest) :
    ∃ v', Step key command v v' ∧ v'.reader.unread = rest := by
  cases command with
  | input name =>
      rcases fits with _ | ⟨_ | ⟨⟨c, read⟩, _ | _⟩, _ | _⟩
      exact ⟨_, .input unread read, rfl⟩
  | commit name expression =>
      rcases fits with _ | ⟨_ | ⟨⟨c, read⟩, _ | _⟩, _ | _⟩
      exact ⟨_, .commit unread read, rfl⟩
  | sum name terms =>
      cases fits
      have resolved := exists_resolveTerms.mpr
        ⟨fun term member => weights term.1 (List.mem_map_of_mem member),
          fun term member => used term.2 (List.mem_map_of_mem member)⟩
      obtain ⟨combined, combines⟩ := exists_map_eq_ok (f := key.sumCommitments).mpr resolved
      exact ⟨_, .sum combines, unread⟩
  | equal name value =>
      obtain ⟨c, found⟩ := Option.isSome_iff_exists.mp (used name (List.mem_singleton.mpr rfl))
      rcases fits with _ | ⟨decodes, _ | _⟩
      obtain ⟨proof, read⟩ := ValueProof.exists_ofFields.mpr decodes
      exact ⟨_, .equal found unread read, rfl⟩
  | square name source =>
      obtain ⟨c, found⟩ := Option.isSome_iff_exists.mp (used source (List.mem_singleton.mpr rfl))
      rcases fits with _ | ⟨_ | ⟨⟨squared, readSquared⟩, _ | _⟩, _ | ⟨decodes, _ | _⟩⟩
      obtain ⟨proof, read⟩ := SquareProof.exists_ofFields.mpr decodes
      exact ⟨_, .square found unread readSquared read, rfl⟩
  | same left right =>
      obtain ⟨first, foundLeft⟩ := Option.isSome_iff_exists.mp (used left List.mem_cons_self)
      obtain ⟨second, foundRight⟩ := Option.isSome_iff_exists.mp
        (used right (List.mem_cons_of_mem _ List.mem_cons_self))
      rcases fits with _ | ⟨decodes, _ | _⟩
      obtain ⟨proof, read⟩ := SameProof.exists_ofFields.mpr decodes
      exact ⟨_, .same foundLeft foundRight unread read, rfl⟩
  | log =>
      cases fits
      exact ⟨_, .log, unread⟩

/-- A script runs through, leaving some records, exactly when the records before those fit it,
    its names are in scope and its weights have scalars. -/
theorem exists_steps_iff {bound : List String} {rest : List (List String)}
    (names : ∀ name, (v.bindings.get? name).isSome ↔ name ∈ bound) :
    (∃ v', Steps (Step key) commands v v' ∧ v'.reader.unread = rest) ↔
      Scoped bound commands ∧
        (∀ command ∈ commands, ∀ weight ∈ command.weights,
          ∃ a, weight.resolve key.field = .ok a) ∧
        ∃ records, v.reader.unread = records ++ rest ∧
          Fits key (commands.flatMap Command.layout) records := by
  induction commands generalizing v bound with
  | nil =>
      simp only [Steps.nil_iff, exists_eq_left]
      constructor
      · intro left
        exact ⟨scoped_nil bound, fun _ member => absurd member List.not_mem_nil, [], left, .nil⟩
      · rintro ⟨-, -, records, unread, fits⟩
        cases fits
        exact unread
  | cons command commands ih =>
      have stepNames {r : Verifier Element} (first : Step key command v r) (name : String) :
          (r.bindings.get? name).isSome ↔ name ∈ bound ++ command.binds := by
        rw [first.binds, names, List.mem_append]
      rw [scoped_cons, List.forall_mem_cons]
      constructor
      · rintro ⟨v', steps, left⟩
        obtain ⟨r, first, others⟩ := Steps.cons_iff.mp steps
        obtain ⟨inScope, weights, records', unread', fits'⟩ :=
          (ih (stepNames first)).mp ⟨v', others, left⟩
        obtain ⟨records, unread, -, fits, -⟩ := first.takes
        refine ⟨⟨fun name used => (names name).mp (first.uses_bound name used), inScope⟩,
          ⟨first.weights_resolve, weights⟩, records ++ records', ?_, List.rel_append fits fits'⟩
        rw [unread, unread', List.append_assoc]
      · rintro ⟨⟨used, inScope⟩, ⟨weight, weights⟩, records, unread, fits⟩
        obtain ⟨records, records', rfl, fits, fits'⟩ := fits_append fits
        rw [List.append_assoc] at unread
        obtain ⟨r, first, left⟩ := exists_step
          (fun name member => (names name).mpr (used name member)) weight fits unread
        obtain ⟨v', others, left⟩ :=
          (ih (stepNames first)).mpr ⟨inScope, weights, records', left, fits'⟩
        exact ⟨v', .cons first others, left⟩

end Steps

section Surplus

variable {α β : Type}

/-- A computation that never complains of records left over. -/
def Sparing (computation : Verifying Element α) : Prop :=
  ∀ v remaining v', computation v ≠ .error (.overrun remaining) v'

theorem Sparing.bind {x : Verifying Element α} {f : α → Verifying Element β} (hx : Sparing x)
    (hf : ∀ a, Sparing (f a)) : Sparing (x >>= f) := by
  intro v remaining v' h
  cases ran : x v with
  | ok a r =>
      rw [bind_of_ok ran] at h
      exact hf a r remaining v' h
  | error e r =>
      rw [bind_of_error ran] at h
      cases h
      exact hx v remaining v' ran

theorem Sparing.get : Sparing (get : Verifying Element (Verifier Element)) := by
  intro v remaining v' h
  cases h

theorem Sparing.modify (f : Verifier Element → Verifier Element) :
    Sparing (modify f : Verifying Element Unit) := by
  intro v remaining v' h
  cases h

theorem Sparing.pure (a : α) : Sparing (pure a : Verifying Element α) := by
  intro v remaining v' h
  cases h

theorem Sparing.ofExcept {x : Except RunError α}
    (h : ∀ remaining, x ≠ .error (.overrun remaining)) :
    Sparing (ofExcept x : Verifying Element α) := by
  intro v remaining v' fault
  cases x with
  | error e =>
      cases fault
      exact h remaining rfl
  | ok a => cases fault

theorem find_ne_overrun {Value : Type} (table : Table Value) (name : String) (remaining : Nat) :
    table.find name ≠ .error (.overrun remaining) := by
  unfold Table.find
  cases table.get? name <;> simp

theorem combineCommitments_ne_overrun (key : CommitmentKey Element) (table : Table Element)
    (terms : List (Weight × String)) (remaining : Nat) :
    combineCommitments key table terms ≠ .error (.overrun remaining) := by
  intro h
  rw [combineCommitments, resolveTerms] at h
  cases resolved : terms.mapM fun term => (term.1.resolve key.field).mapError RunError.algebra with
  | error e =>
      obtain ⟨term, -, fails⟩ := mapM_eq_error resolved
      obtain ⟨cause, -, rfl⟩ := mapError_eq_error.mp fails
      rw [resolved] at h
      cases h
  | ok factors =>
      rw [resolved] at h
      cases found : terms.mapM fun term => table.find term.2 with
      | error e =>
          obtain ⟨term, -, fails⟩ := mapM_eq_error found
          rw [found] at h
          cases h
          exact find_ne_overrun table term.2 remaining fails
      | ok values =>
          rw [found] at h
          cases h

theorem next_ne_overrun (reader : ReceiptReader) (opcode : Opcode) (count remaining : Nat) :
    reader.next opcode count ≠ .error (.overrun remaining) := by
  unfold ReceiptReader.next
  split
  · simp
  · split <;> simp

theorem mapError_ne_overrun {ε : Type} {x : Except ε α} {f : ε → RunError} {remaining : Nat}
    (h : ∀ cause, f cause ≠ .overrun remaining) : x.mapError f ≠ .error (.overrun remaining) := by
  intro fails
  obtain ⟨cause, -, same⟩ := mapError_eq_error.mp fails
  exact h cause same

theorem sparing_emit (level : EventLevel) (message : String) (fields : List (String × String)) :
    Sparing (emit level message fields : Verifying Element Unit) :=
  .modify _

theorem sparing_commitment (name : String) : Sparing (commitment name : Verifying Element _) :=
  Sparing.get.bind fun verifier => .ofExcept (find_ne_overrun verifier.bindings name)

theorem sparing_takeRecord (opcode : Opcode) (count : Nat) :
    Sparing (takeRecord opcode count : Verifying Element _) :=
  Sparing.get.bind fun _ => (Sparing.ofExcept (next_ne_overrun _ opcode count)).bind
    fun _ => (Sparing.modify _).bind fun _ => .pure _

theorem sparing_takeElement (key : CommitmentKey Element) (opcode : Opcode) :
    Sparing (takeElement key opcode) :=
  (sparing_takeRecord opcode 1).bind fun _ =>
    .ofExcept fun _ => mapError_ne_overrun fun _ => RunError.noConfusion

theorem sparing_takeProof (key : CommitmentKey Element) (opcode : Opcode) (kind : ProofKind) :
    Sparing (takeProof key opcode kind) :=
  (sparing_takeRecord opcode kind.fieldCount).bind fun _ =>
    .ofExcept fun _ => mapError_ne_overrun fun _ => RunError.noConfusion

theorem sparing_receive (key : CommitmentKey Element) (opcode : Opcode) (name : String) :
    Sparing (receive key opcode name) :=
  (sparing_takeElement key opcode).bind fun _ => (Sparing.modify _).bind fun _ =>
    (sparing_emit _ _ _).bind fun _ => .modify _

variable [DecidableEq Element]

theorem sparing_judge (key : CommitmentKey Element) (command : Command) (name : String)
    (claim : Claim Element) (proof : Proof Element) :
    Sparing (judge key command name claim proof) := by
  refine Sparing.get.bind fun _ => (Sparing.ofExcept fun _ =>
    mapError_ne_overrun fun _ => RunError.noConfusion).bind fun verdict =>
    (Sparing.modify _).bind fun _ => ?_
  split
  · exact (sparing_emit _ _ _).bind fun _ => .modify _
  · exact (sparing_emit _ _ _).bind fun _ => .modify _

/-- No command complains of records left over. -/
theorem sparing_execute (key : CommitmentKey Element) (command : Command) :
    Sparing (execute key command) := by
  refine (Sparing.modify _).bind fun _ => ?_
  cases command with
  | input name => exact sparing_receive key .input name
  | commit name expression => exact sparing_receive key .commit name
  | sum name terms =>
      exact Sparing.get.bind fun verifier =>
        (Sparing.ofExcept (combineCommitments_ne_overrun key verifier.bindings terms)).bind
          fun _ => (sparing_emit _ _ _).bind fun _ => .modify _
  | equal name value =>
      exact (sparing_commitment name).bind fun _ =>
        (sparing_takeProof key .equal .value).bind fun _ => sparing_judge key _ _ _ _
  | square name source =>
      exact (sparing_commitment source).bind fun _ => (sparing_takeElement key .square).bind
        fun _ => (sparing_takeProof key .square .square).bind fun _ =>
          (sparing_judge key _ _ _ _).bind fun _ => .modify _
  | same left right =>
      exact (sparing_commitment left).bind fun _ => (sparing_commitment right).bind fun _ =>
        (sparing_takeProof key .same .same).bind fun _ => sparing_judge key _ _ _ _
  | log => exact .pure ()

/-- A run of commands does not complain of records left over either. -/
theorem sparing_forM (key : CommitmentKey Element) (commands : List Command) :
    Sparing (commands.forM (execute key)) := by
  induction commands with
  | nil => exact .pure ()
  | cons command commands ih => exact (sparing_execute key command).bind fun _ => ih

end Surplus

end Verifier

namespace CommitmentKey

variable [DecidableEq Element] {key : CommitmentKey Element} {script : Script}
  {receipt : Receipt}

/-- Only records that are left over after all steps are complained of as such. -/
theorem verify_eq_overrun {remaining : Nat} :
    key.verify script receipt = .error (.overrun remaining) ↔
      ∃ v, Verifier.run key script (.start key receipt) = .ok () v ∧
        v.reader.unread.length = remaining ∧ 0 < remaining := by
  constructor
  · intro h
    cases ran : Verifier.run key script (.start key receipt) with
    | error fault v =>
        rw [verify_of_fault ran] at h
        cases h
        exact absurd ran (Verifier.sparing_forM key script.commands _ _ _)
    | ok done v =>
        rw [verify_of_steps (Verifier.forM_eq_ok.mp ran)] at h
        split at h
        · cases h
        · next left =>
          cases h
          exact ⟨v, rfl, rfl, List.length_pos_iff.mpr left⟩
  · rintro ⟨v, ran, rfl, left⟩
    rw [verify_of_steps (Verifier.forM_eq_ok.mp ran), if_neg (List.length_pos_iff.mp left)]

/-- Whether a verification gives a report is a matter of names, weights, shapes and decoding
    alone. The report then has one outcome for each claim. A surplus of records is a fault of
    its own, which says how large the surplus is. -/
theorem verify_faults_are_structural (key : CommitmentKey Element) (script : Script)
    (receipt : Receipt) :
    ((∃ report, key.verify script receipt = .ok report) ↔
        Scoped [] script.commands ∧
          (∀ command ∈ script.commands, ∀ weight ∈ command.weights,
            ∃ a, weight.resolve key.field = .ok a) ∧
          receipt.records.map List.length = script.commands.flatMap Command.shape ∧
          ∀ field ∈ (script.commands.flatMap Command.layout).flatten.zip receipt.records.flatten,
            field.1.Decodes key field.2) ∧
      (∀ report, key.verify script receipt = .ok report →
        report.outcomes.map Outcome.subject = script.subjects) ∧
      ∀ remaining, key.verify script receipt = .error (.overrun remaining) ↔
        ∃ v, Verifier.run key script (.start key receipt) = .ok () v ∧
          v.reader.unread.length = remaining ∧ 0 < remaining ∧
          receipt.records.length = Command.recordsOf script.commands + remaining := by
  refine ⟨?_, ?_, ?_⟩
  · have unbound (name : String) :
        ((Verifier.start key receipt).bindings.get? name).isSome ↔ name ∈ [] := by
      simp [Verifier.start]
    have runs : (∃ v, Steps (Verifier.Step key) script.commands (.start key receipt) v ∧
        v.reader.unread = []) ↔ _ :=
      Verifier.exists_steps_iff unbound
    have whole : (∃ records, receipt.records = records ++ [] ∧
        Verifier.Fits key (script.commands.flatMap Command.layout) records) ↔
          Verifier.Fits key (script.commands.flatMap Command.layout) receipt.records := by
      simp
    rw [← Command.map_length_flatMap_layout, ← Verifier.fits_iff, ← whole]
    refine Iff.trans ?_ runs
    simp only [verify_eq_ok]
    constructor
    · rintro ⟨report, v, steps, left, -⟩
      exact ⟨v, steps, left⟩
    · rintro ⟨v, steps, left⟩
      exact ⟨_, v, steps, left, rfl⟩
  · exact fun report h => subjects_of_verify h
  · intro remaining
    rw [verify_eq_overrun]
    refine exists_congr fun v => and_congr_right fun ran => and_congr_right fun left =>
      (and_iff_left ?_).symm
    obtain ⟨records, unread, -, fits, -⟩ := Verifier.takes_of_steps (Verifier.forM_eq_ok.mp ran)
    have length : receipt.records.length = records.length + v.reader.unread.length := by
      rw [← List.length_append, ← unread]
      rfl
    rw [length, left, Verifier.length_of_fits fits]

end CommitmentKey

end CommitScript
