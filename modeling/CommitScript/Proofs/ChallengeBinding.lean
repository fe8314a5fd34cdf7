import CommitScript.Proofs.CanonicalText
import CommitScript.Proofs.Tampering

/-! # What challenges bind

Of the fields in a receipt a verifier takes some into its history: every commitment and the
first messages of every proof, but neither challenges nor responses. Two runs of a script have
the same history exactly when their receipts agree in these fields. So a challenge depends on
all of them that come before it and on nothing else, and an answer that has been exchanged
changes the verdict on its own claim at most.
-/

namespace CommitScript

open Success

variable {Element : Type}

/-- How many leading fields of each of a command's records enter the history: a new commitment,
    the nonce commitments of a proof, and the difference that shows a shared secret. -/
def Command.spoken : Command → List Nat
  | input _ => [1]
  | commit _ _ => [1]
  | sum _ _ => []
  | equal _ _ => [1]
  | square _ _ => [1, 2]
  | same _ _ => [1]
  | log => []

/-- The fields of records that enter the history along some commands. -/
def spokenFields (commands : List Command) (records : List (List String)) : List (List String) :=
  List.zipWith List.take (commands.flatMap Command.spoken) records

/-- The label of the challenge that a command's proof answers, if it answers one. -/
def Command.challenge? : Command → Option String
  | equal _ _ => some "c"
  | square _ _ => some "k"
  | _ => none

def HistoryEntry.message? : HistoryEntry → Option (String × Bytes)
  | message label bytes => some (label, bytes)
  | challenge _ _ => none

/-- The labelled messages of a history, the newest first. -/
def ChallengeHistory.messages (history : ChallengeHistory) : List (String × Bytes) :=
  history.entries.filterMap HistoryEntry.message?

/-- Whether two receipts are the same but for what one command's proof answers to its
    challenge. -/
structure Receipt.SameButAnswers (receipt other : Receipt) (before : List Command)
    (command : Command) : Prop where
  earlier : other.records.take (Command.recordsOf before) =
    receipt.records.take (Command.recordsOf before)
  spoken : spokenFields (before ++ [command]) other.records =
    spokenFields (before ++ [command]) receipt.records
  later : other.records.drop (Command.recordsOf (before ++ [command])) =
    receipt.records.drop (Command.recordsOf (before ++ [command]))

/-- Whether a verifier gets through some commands against a receipt, and into which state. -/
def CommitmentKey.Reaches [DecidableEq Element] (key : CommitmentKey Element) (receipt : Receipt)
    (commands : List Command) (v : Verifier Element) : Prop :=
  commands.forM (Verifier.execute key) (.start key receipt) = .ok () v

section Fields

theorem Command.length_spoken (command : Command) :
    command.spoken.length = command.shape.length := by
  cases command <;> rfl

theorem Command.length_flatMap_spoken (commands : List Command) :
    (commands.flatMap spoken).length = recordsOf commands := by
  rw [recordsOf, List.length_flatMap, List.length_flatMap]
  congr 1
  exact List.map_congr_left fun command _ => command.length_spoken

theorem spokenFields_singleton (command : Command) (records : List (List String)) :
    spokenFields [command] records = List.zipWith List.take command.spoken records := by
  simp [spokenFields]

theorem spokenFields_append (before after : List Command) (records : List (List String)) :
    spokenFields (before ++ after) records =
      spokenFields before records ++
        spokenFields after (records.drop (Command.recordsOf before)) := by
  have split (counts counts' : List Nat) (records : List (List String)) :
      List.zipWith List.take (counts ++ counts') records =
        List.zipWith List.take counts records ++
          List.zipWith List.take counts' (records.drop counts.length) := by
    induction counts generalizing records with
    | nil => rfl
    | cons count counts ih =>
        cases records with
        | nil => simp
        | cons fields records => simp [ih]
  rw [spokenFields, List.flatMap_append, split, Command.length_flatMap_spoken]
  rfl

/-- Records agree in what is spoken along commands when they do in both parts. -/
theorem spokenFields_append_inj {before after : List Command}
    {records records' : List (List String)} :
    spokenFields (before ++ after) records' = spokenFields (before ++ after) records ↔
      spokenFields before records' = spokenFields before records ∧
        spokenFields after (records'.drop (Command.recordsOf before)) =
          spokenFields after (records.drop (Command.recordsOf before)) := by
  constructor
  · intro same
    have lengths := congrArg List.length same
    rw [spokenFields_append, spokenFields_append] at same
    refine List.append_inj same ?_
    simp only [spokenFields, List.length_zipWith, List.flatMap_append, List.length_append]
      at lengths ⊢
    omega
  · rintro ⟨first, others⟩
    rw [spokenFields_append, spokenFields_append, first, others]

end Fields

section Messages

variable {history : ChallengeHistory} {label : String}

@[simp]
theorem ChallengeHistory.messages_message (bytes : Bytes) :
    (history.message label bytes).messages = (label, bytes) :: history.messages :=
  rfl

/-- A challenge is drawn, not said. -/
@[simp]
theorem ChallengeHistory.messages_draw (field : ScalarField) :
    (history.draw label field).2.messages = history.messages :=
  rfl

variable [DecidableEq Element] {key : CommitmentKey Element}

@[simp]
theorem ValueProof.messages_verify (commitment : Element) (value : Scalar)
    (proof : ValueProof Element) :
    (verify key history commitment value proof).2.messages =
      ("u", key.group.encode proof.nonceCommitment) :: ("v", key.field.encode value) ::
        ("C", key.group.encode commitment) ::
        ("protocol", Bytes.ofString ProofKind.value.name) :: history.messages := by
  simp [verify, drawChallenge, statement]

@[simp]
theorem SameProof.messages_verify (left right : Element) (proof : SameProof) :
    (verify key history left right proof).2.messages =
      ("d", key.field.encode proof.difference) :: ("C2", key.group.encode right) ::
        ("C1", key.group.encode left) ::
        ("protocol", Bytes.ofString ProofKind.same.name) :: history.messages := by
  simp [verify, statement]

@[simp]
theorem SquareProof.messages_verify (source squared : Element) (proof : SquareProof Element) :
    (verify key history source squared proof).2.messages =
      ("c4", key.group.encode proof.squareCommitment) ::
        ("c3", key.group.encode proof.sourceCommitment) ::
        ("C2", key.group.encode squared) :: ("C1", key.group.encode source) ::
        ("protocol", Bytes.ofString ProofKind.square.name) :: history.messages := by
  simp [verify, drawChallenge, statement]

end Messages

section Reading

variable {key : CommitmentKey Element} {fields : List String}

theorem ValueProof.spoken_of_ofFields {proof : ValueProof Element}
    (h : ofFields key fields = .ok proof) :
    ∃ u others, fields = u :: others ∧ key.group.ofHex u = .ok proof.nonceCommitment := by
  unfold ofFields at h
  split at h
  · simp only [mapError_eq_ok, except_bind_eq_ok, except_pure_eq_ok] at h
    obtain ⟨u, read, c, -, z, -, rfl⟩ := h
    exact ⟨_, _, rfl, read⟩
  · cases h

theorem SameProof.spoken_of_ofFields {proof : SameProof} (h : ofFields key fields = .ok proof) :
    ∃ d, fields = [d] ∧ key.field.ofHex d = .ok proof.difference := by
  unfold ofFields at h
  split at h
  · simp only [mapError_eq_ok, except_bind_eq_ok, except_pure_eq_ok] at h
    obtain ⟨d, read, rfl⟩ := h
    exact ⟨_, rfl, read⟩
  · cases h

theorem SquareProof.spoken_of_ofFields {proof : SquareProof Element}
    (h : ofFields key fields = .ok proof) :
    ∃ c3 c4 others, fields = c3 :: c4 :: others ∧
      key.group.ofHex c3 = .ok proof.sourceCommitment ∧
      key.group.ofHex c4 = .ok proof.squareCommitment := by
  unfold ofFields at h
  split at h
  · simp only [mapError_eq_ok, except_bind_eq_ok, except_pure_eq_ok] at h
    obtain ⟨c3, read3, c4, read4, k, -, z1, -, z2, -, z3, -, rfl⟩ := h
    exact ⟨_, _, _, rfl, read3, read4⟩
  · cases h

variable [DecidableEq Element] {fields' : List String} {history : ChallengeHistory}

/-- Checking two proofs of one claim says the same exactly when their first messages have the
    same text, and then the same challenge is drawn. -/
theorem ValueProof.verify_alike (canonical : key.group.Canonical)
    {proof proof' : ValueProof Element} (read : ofFields key fields = .ok proof)
    (read' : ofFields key fields' = .ok proof') (commitment : Element) (value : Scalar) :
    ((verify key history commitment value proof').2.messages =
        (verify key history commitment value proof).2.messages ↔
      fields'.take 1 = fields.take 1) ∧
    (fields'.take 1 = fields.take 1 →
      (verify key history commitment value proof').2 =
        (verify key history commitment value proof).2) := by
  obtain ⟨u, others, rfl, readU⟩ := spoken_of_ofFields read
  obtain ⟨u', others', rfl, readU'⟩ := spoken_of_ofFields read'
  constructor
  · simp [canonical.encode_inj readU readU']
  · intro same
    obtain rfl : u' = u := by simpa using same
    have nonces := Except.ok.inj (readU.symm.trans readU')
    simp [verify, nonces]

theorem SameProof.verify_alike {proof proof' : SameProof} (read : ofFields key fields = .ok proof)
    (read' : ofFields key fields' = .ok proof') (left right : Element) :
    ((verify key history left right proof').2.messages =
        (verify key history left right proof).2.messages ↔ fields'.take 1 = fields.take 1) ∧
    (fields'.take 1 = fields.take 1 →
      (verify key history left right proof').2 = (verify key history left right proof).2) := by
  obtain ⟨d, rfl, readD⟩ := spoken_of_ofFields read
  obtain ⟨d', rfl, readD'⟩ := spoken_of_ofFields read'
  constructor
  · simp [ScalarField.encode_inj readD readD']
  · intro same
    obtain rfl : d' = d := by simpa using same
    have differences := Except.ok.inj (readD.symm.trans readD')
    simp [verify, statement, differences]

theorem SquareProof.verify_alike (canonical : key.group.Canonical)
    {proof proof' : SquareProof Element} {text text' : String} {squared squared' : Element}
    (readSquared : key.group.ofHex text = .ok squared)
    (readSquared' : key.group.ofHex text' = .ok squared')
    (read : ofFields key fields = .ok proof) (read' : ofFields key fields' = .ok proof')
    (source : Element) :
    ((verify key history source squared' proof').2.messages =
        (verify key history source squared proof).2.messages ↔
      text' = text ∧ fields'.take 2 = fields.take 2) ∧
    (text' = text ∧ fields'.take 2 = fields.take 2 →
      squared' = squared ∧ (verify key history source squared' proof').2 =
        (verify key history source squared proof).2) := by
  obtain ⟨c3, c4, others, rfl, read3, read4⟩ := spoken_of_ofFields read
  obtain ⟨c3', c4', others', rfl, read3', read4'⟩ := spoken_of_ofFields read'
  constructor
  · simp [canonical.encode_inj read3 read3', canonical.encode_inj read4 read4',
      canonical.encode_inj readSquared readSquared', and_comm, and_assoc]
  · rintro ⟨rfl, same⟩
    obtain ⟨rfl, rfl⟩ : c3' = c3 ∧ c4' = c4 := by simpa using same
    cases readSquared.symm.trans readSquared'
    have nonces := Except.ok.inj (read3.symm.trans read3')
    have nonces' := Except.ok.inj (read4.symm.trans read4')
    simp [verify, nonces, nonces']

end Reading

namespace Verifier

/-- Whether two verifiers have bound and heard the same. -/
structure Alike (v v' : Verifier Element) : Prop where
  bindings : v'.bindings = v.bindings
  history : v'.history = v.history

variable [DecidableEq Element] {key : CommitmentKey Element} {v v' r r' : Verifier Element}
  {command : Command} {commands : List Command}

/-- Each command says a number of messages of its own, so what was said before it can be told
    from what has been said after it. -/
theorem Step.messages_before (step : Step key command v r) (step' : Step key command v' r')
    (same : r'.history.messages = r.history.messages) :
    v'.history.messages = v.history.messages := by
  cases step with
  | input =>
      cases step' with
      | input =>
          simp only [received, heard, told, bound, took, started,
            ChallengeHistory.messages_message, List.cons.injEq] at same
          exact same.2
  | commit =>
      cases step' with
      | commit =>
          simp only [received, heard, told, bound, took, started,
            ChallengeHistory.messages_message, List.cons.injEq] at same
          exact same.2
  | sum =>
      cases step' with
      | sum => exact same
  | equal =>
      cases step' with
      | equal =>
          simp only [judged, ValueProof.messages_verify, List.cons.injEq] at same
          exact same.2.2.2.2
  | square =>
      cases step' with
      | square =>
          simp only [judged, bound, SquareProof.messages_verify, List.cons.injEq] at same
          exact same.2.2.2.2.2
  | same =>
      cases step' with
      | same =>
          simp only [judged, SameProof.messages_verify, List.cons.injEq] at same
          exact same.2.2.2.2
  | log =>
      cases step' with
      | log => exact same

omit [DecidableEq Element] in
theorem received_alike (canonical : key.group.Canonical) (alike : v.Alike v') {opcode : Opcode}
    {name text text' : String} {rest rest' : List (List String)} {c c' : Element}
    (read : key.group.ofHex text = .ok c) (read' : key.group.ofHex text' = .ok c') :
    ((v'.received key opcode name rest' c').history.messages =
        (v.received key opcode name rest c).history.messages ↔ text' = text) ∧
      (text' = text → (v.received key opcode name rest c).Alike
        (v'.received key opcode name rest' c')) := by
  obtain ⟨bindings, history⟩ := alike
  refine ⟨?_, fun same => ⟨?_, ?_⟩⟩
  · simp [received, heard, told, bound, took, history, canonical.encode_inj read read']
  · cases read.symm.trans (same ▸ read')
    simp [received, heard, told, bound, took, bindings]
  · cases read.symm.trans (same ▸ read')
    simp [received, heard, told, bound, took, history]

/-- From like states, two steps of a command say the same exactly when the records that they take
    agree in the spoken fields, and then they lead into like states again. -/
theorem Step.alike_iff (canonical : key.group.Canonical) (alike : v.Alike v')
    (step : Step key command v r) (step' : Step key command v' r') :
    (r'.history.messages = r.history.messages ↔
        spokenFields [command] v'.reader.unread = spokenFields [command] v.reader.unread) ∧
      (spokenFields [command] v'.reader.unread = spokenFields [command] v.reader.unread →
        r.Alike r') := by
  have startedAlike : v.started.Alike v'.started := ⟨alike.bindings, alike.history⟩
  simp only [spokenFields_singleton]
  cases step with
  | input unread read =>
      cases step' with
      | input unread' read' =>
          rw [unread, unread']
          simpa [Command.spoken] using received_alike canonical startedAlike read read'
  | commit unread read =>
      cases step' with
      | commit unread' read' =>
          rw [unread, unread']
          simpa [Command.spoken] using received_alike canonical startedAlike read read'
  | sum combines =>
      cases step' with
      | sum combines' =>
          rw [alike.bindings, combines] at combines'
          cases combines'
          refine ⟨?_, fun _ => ⟨?_, alike.history⟩⟩
          · simp [Command.spoken, started, told, bound, alike.history]
          · simp [started, told, bound, alike.bindings]
  | equal found unread read =>
      cases step' with
      | equal found' unread' read' =>
          rw [alike.bindings, found] at found'
          cases found'
          obtain ⟨speaks, draws⟩ := ValueProof.verify_alike canonical read read' _ _
          rw [unread, unread', alike.history]
          refine ⟨speaks.trans ?_, fun spoken => ⟨alike.bindings, draws ?_⟩⟩
          · simp [Command.spoken]
          · simpa [Command.spoken] using spoken
  | square found unread readSquared read =>
      cases step' with
      | square found' unread' readSquared' read' =>
          rw [alike.bindings, found] at found'
          cases found'
          obtain ⟨speaks, draws⟩ :=
            SquareProof.verify_alike canonical readSquared readSquared' read read' _
          rw [unread, unread', alike.history]
          refine ⟨speaks.trans ?_, fun spoken => ?_⟩
          · simp [Command.spoken]
          · obtain ⟨rfl, history⟩ := draws (by simpa [Command.spoken] using spoken)
            constructor
            · simp [judged, bound, took, started, alike.bindings]
            · exact history
  | same foundLeft foundRight unread read =>
      cases step' with
      | same foundLeft' foundRight' unread' read' =>
          rw [alike.bindings, foundLeft] at foundLeft'
          rw [alike.bindings, foundRight] at foundRight'
          cases foundLeft'
          cases foundRight'
          obtain ⟨speaks, draws⟩ := SameProof.verify_alike read read' _ _
          rw [unread, unread', alike.history]
          refine ⟨speaks.trans ?_, fun spoken => ⟨alike.bindings, draws ?_⟩⟩
          · simp [Command.spoken]
          · simpa [Command.spoken] using spoken
  | log =>
      cases step' with
      | log => simpa [Command.spoken, started, alike.history] using startedAlike

theorem messages_before_of_steps (steps : Steps (Step key) commands v r)
    (steps' : Steps (Step key) commands v' r')
    (same : r'.history.messages = r.history.messages) :
    v'.history.messages = v.history.messages := by
  induction steps generalizing v' with
  | nil =>
      cases steps'
      exact same
  | cons first _ ih =>
      obtain ⟨m', first', others'⟩ := Steps.cons_iff.mp steps'
      exact first.messages_before first' (ih others' same)

/-- From like states, two runs of the same commands say the same exactly when the records that
    they take agree in the spoken fields, and then they lead into like states again. -/
theorem alike_iff_of_steps (canonical : key.group.Canonical) (alike : v.Alike v')
    (steps : Steps (Step key) commands v r) (steps' : Steps (Step key) commands v' r') :
    (r'.history.messages = r.history.messages ↔
        spokenFields commands v'.reader.unread = spokenFields commands v.reader.unread) ∧
      (spokenFields commands v'.reader.unread = spokenFields commands v.reader.unread →
        r.Alike r') := by
  induction steps generalizing v' with
  | nil =>
      cases steps'
      simpa [spokenFields, alike.history] using alike
  | @cons command commands v m r first others ih =>
      obtain ⟨m', first', others'⟩ := Steps.cons_iff.mp steps'
      obtain ⟨speaks, leads⟩ := first.alike_iff canonical alike first'
      have drops : m.reader.unread = v.reader.unread.drop (Command.recordsOf [command]) :=
        congrArg ReceiptReader.unread (drops_of_steps (.cons first .nil))
      have drops' : m'.reader.unread = v'.reader.unread.drop (Command.recordsOf [command]) :=
        congrArg ReceiptReader.unread (drops_of_steps (.cons first' .nil))
      rw [← List.singleton_append, spokenFields_append_inj, ← drops, ← drops']
      constructor
      · constructor
        · intro same
          have spoken := speaks.mp (messages_before_of_steps others others' same)
          exact ⟨spoken, (ih (leads spoken) others').1.mp same⟩
        · rintro ⟨spoken, later⟩
          exact (ih (leads spoken) others').1.mpr later
      · rintro ⟨spoken, later⟩
        exact (ih (leads spoken) others').2 later

/-- The history after a challenged command is what drawing its challenge has left. -/
theorem Step.draws (step : Step key command v r) {label : String}
    (challenge : command.challenge? = some label) :
    ∃ history : ChallengeHistory, r.history = (history.draw label key.field).2 := by
  cases step with
  | equal =>
      cases challenge
      exact ⟨_, rfl⟩
  | square =>
      cases challenge
      exact ⟨_, rfl⟩
  | _ => cases challenge

/-- Of like states that have taken the same records, a run adds the same outcomes to both. -/
theorem adds_alike_of_steps (alike : v.Alike v') (reader : v'.reader = v.reader)
    (executed : v'.executed = v.executed) (steps : Steps (Step key) commands v r)
    (steps' : Steps (Step key) commands v' r') :
    r.Alike r' ∧ ∃ added, r.outcomes = v.outcomes ++ added ∧
      r'.outcomes = v'.outcomes ++ added := by
  obtain ⟨added, adds, recalls⟩ := recalls_of_steps steps
  obtain ⟨told, again⟩ := recalls v'.outcomes v'.events
  have same : v' = v.recalling v'.outcomes v'.events := by
    obtain ⟨bindings', reader', history', outcomes', executed', events'⟩ := v'
    obtain ⟨bindings, history⟩ := alike
    simp only at bindings history reader executed
    subst bindings history reader executed
    rfl
  rw [same] at steps'
  obtain rfl := again.unique (fun step step' => step.unique step') steps'
  exact ⟨⟨rfl, rfl⟩, added, adds, rfl⟩

/-- A command adds outcomes at its own position only. -/
theorem Step.filter_outcomes (step : Step key command v r) {index : Nat}
    (here : v.executed + 1 = index) :
    r.outcomes.filter (fun outcome => outcome.index ≠ index) =
      v.outcomes.filter (fun outcome => outcome.index ≠ index) := by
  obtain ⟨-, added, adds, subjects⟩ := step.adds_outcome
  have none : added.filter (fun outcome => outcome.index ≠ index) = [] := by
    refine List.filter_eq_nil_iff.mpr fun outcome member => ?_
    have subject : outcome.subject ∈ (command.subject? (v.executed + 1)).toList :=
      subjects ▸ List.mem_map_of_mem member
    have position : outcome.index = v.executed + 1 :=
      index_of_subject? (Option.mem_toList.mp subject)
    simpa [here] using position
  rw [adds, List.filter_append, none, List.append_nil]

/-- On receipts that are the same but for the answers of one command, two runs through that
    command and on bind and say the same and give the same verdicts on everything else. -/
theorem same_but_verdict (canonical : key.group.Canonical) {receipt other : Receipt}
    {before after : List Command} (same : receipt.SameButAnswers other before command)
    (steps : Steps (Step key) (before ++ command :: after) (.start key receipt) v)
    (steps' : Steps (Step key) (before ++ command :: after) (.start key other) v') :
    v.Alike v' ∧
      v'.outcomes.filter (fun outcome => outcome.index ≠ before.length + 1) =
        v.outcomes.filter (fun outcome => outcome.index ≠ before.length + 1) := by
  obtain ⟨w, first, rest⟩ := Steps.append_iff.mp steps
  obtain ⟨w', first', rest'⟩ := Steps.append_iff.mp steps'
  obtain ⟨r, step, others⟩ := Steps.cons_iff.mp rest
  obtain ⟨r', step', others'⟩ := Steps.cons_iff.mp rest'
  have until_here : w' = w.leaving w'.reader.unread :=
    leaving_of_steps first first' same.earlier
  have whole := Steps.append_iff.mpr ⟨w, first, .cons step .nil⟩
  have whole' := Steps.append_iff.mpr ⟨w', first', .cons step' .nil⟩
  have opened : (start key receipt).Alike (start key other) := ⟨rfl, rfl⟩
  have alike : r.Alike r' := (alike_iff_of_steps canonical opened whole whole').2 same.spoken
  have executed : w'.executed = w.executed := by rw [until_here]; rfl
  have outcomes : w'.outcomes = w.outcomes := by rw [until_here]; rfl
  have position : w.executed + 1 = before.length + 1 := by
    rw [(adds_outcomes_of_steps first).1]
    simp [start]
  have reader : r'.reader = r.reader := by
    rw [drops_of_steps whole, drops_of_steps whole', ReceiptReader.mk.injEq]
    exact ⟨same.later, rfl⟩
  have executed' : r'.executed = r.executed := by
    rw [step.adds_outcome.1, step'.adds_outcome.1, executed]
  obtain ⟨later, added, adds, adds'⟩ := adds_alike_of_steps alike reader executed' others others'
  refine ⟨later, ?_⟩
  rw [adds, adds', List.filter_append, List.filter_append, step.filter_outcomes position,
    step'.filter_outcomes (executed ▸ position), outcomes]

end Verifier

namespace CommitmentKey

variable [DecidableEq Element] {key : CommitmentKey Element} {receipt other : Receipt}
  {v v' : Verifier Element}

theorem messages_iff_of_reaches (canonical : key.group.Canonical) {commands : List Command}
    (reaches : key.Reaches receipt commands v) (reaches' : key.Reaches other commands v') :
    v'.history.messages = v.history.messages ↔
      spokenFields commands other.records = spokenFields commands receipt.records := by
  have opened : (Verifier.start key receipt).Alike (.start key other) := ⟨rfl, rfl⟩
  exact (Verifier.alike_iff_of_steps canonical opened (Verifier.forM_eq_ok.mp reaches)
    (Verifier.forM_eq_ok.mp reaches')).1

theorem same_but_verdict_of_reaches (canonical : key.group.Canonical)
    {before after commands : List Command} {command : Command}
    (same : receipt.SameButAnswers other before command)
    (among : commands <+: before ++ command :: after)
    (reaches : key.Reaches receipt commands v) (reaches' : key.Reaches other commands v') :
    v.Alike v' ∧
      v'.outcomes.filter (fun outcome => outcome.index ≠ before.length + 1) =
        v.outcomes.filter (fun outcome => outcome.index ≠ before.length + 1) := by
  have steps := Verifier.forM_eq_ok.mp reaches
  have steps' := Verifier.forM_eq_ok.mp reaches'
  by_cases short : commands.length ≤ before.length
  · -- The command in question has not been reached, so the records taken are the same.
    obtain ⟨others, rfl⟩ :=
      List.prefix_of_prefix_length_le among (List.prefix_append before _) short
    have earlier := congrArg (List.take (Command.recordsOf commands)) same.earlier
    rw [List.take_take, List.take_take, Command.recordsOf_append,
      Nat.min_eq_left (Nat.le_add_right _ _)] at earlier
    have := Verifier.leaving_of_steps steps steps' earlier
    rw [this]
    exact ⟨⟨rfl, rfl⟩, rfl⟩
  · obtain ⟨others, rfl⟩ := List.prefix_of_prefix_length_le (List.prefix_append before _) among
      (Nat.le_of_not_le short)
    obtain ⟨rest, whole⟩ := among
    rw [List.append_assoc, List.append_cancel_left_eq] at whole
    cases others with
    | nil => simp at short
    | cons next mid =>
        cases whole
        exact Verifier.same_but_verdict canonical same steps steps'

/-- What challenges bind. Two runs of the same commands have said the same messages exactly when
    their receipts agree in the fields that are spoken. Receipts that are the same but for the
    answers of one command lead to the same bindings and to the same verdicts on everything else.
    And every challenge is drawn after messages that differ as soon as a field spoken up to
    there does. -/
theorem challenges_bind_spoken_fields (canonical : key.group.Canonical) (script : Script)
    (receipt other : Receipt) :
    (∀ commands v v', commands <+: script.commands → key.Reaches receipt commands v →
      key.Reaches other commands v' →
      (v'.history.messages = v.history.messages ↔
        spokenFields commands other.records = spokenFields commands receipt.records)) ∧
    (∀ before command after, script.commands = before ++ command :: after →
      receipt.SameButAnswers other before command →
      ∀ commands v v', commands <+: script.commands → key.Reaches receipt commands v →
        key.Reaches other commands v' →
        v'.bindings = v.bindings ∧ v'.history = v.history ∧
          v'.outcomes.filter (fun outcome => outcome.index ≠ before.length + 1) =
            v.outcomes.filter (fun outcome => outcome.index ≠ before.length + 1)) ∧
    ∀ before command after label, script.commands = before ++ command :: after →
      command.challenge? = some label →
      ∀ v v', key.Reaches receipt (before ++ [command]) v →
        key.Reaches other (before ++ [command]) v' →
        ∃ history history' : ChallengeHistory,
          v.history = (history.draw label key.field).2 ∧
          v'.history = (history'.draw label key.field).2 ∧
          ∀ spoken, spoken <+: before ++ [command] →
            spokenFields spoken other.records ≠ spokenFields spoken receipt.records →
            history'.messages ≠ history.messages := by
  refine ⟨?_, ?_, ?_⟩
  · intro commands v v' _ reaches reaches'
    exact messages_iff_of_reaches canonical reaches reaches'
  · intro before command after split same commands v v' among reaches reaches'
    obtain ⟨alike, outcomes⟩ :=
      same_but_verdict_of_reaches canonical same (split ▸ among) reaches reaches'
    exact ⟨alike.bindings, alike.history, outcomes⟩
  · intro before command after label _ challenge v v' reaches reaches'
    obtain ⟨w, -, last⟩ := Steps.append_iff.mp (Verifier.forM_eq_ok.mp reaches)
    obtain ⟨w', -, last'⟩ := Steps.append_iff.mp (Verifier.forM_eq_ok.mp reaches')
    obtain ⟨r, step, ends⟩ := Steps.cons_iff.mp last
    obtain ⟨r', step', ends'⟩ := Steps.cons_iff.mp last'
    cases ends
    cases ends'
    obtain ⟨history, drawn⟩ := step.draws challenge
    obtain ⟨history', drawn'⟩ := step'.draws challenge
    refine ⟨history, history', drawn, drawn', ?_⟩
    rintro spoken ⟨others, whole⟩ differ same
    have messages : v'.history.messages = v.history.messages := by
      rw [drawn, drawn', ChallengeHistory.messages_draw, ChallengeHistory.messages_draw, same]
    have agree := (messages_iff_of_reaches canonical reaches reaches').mp messages
    rw [← whole, spokenFields_append_inj] at agree
    exact differ agree.1

open ResidueGroup in
theorem challenges_bind_spoken_fields_small :
    ∃ v v' v'' : Verifier Residue,
      (small.keyOf ⟨3⟩).Reaches squareReceipt squareScript.commands v ∧
      (small.keyOf ⟨3⟩).Reaches (squareReceipt.exchange 2 3 "08") squareScript.commands v' ∧
      v'.history = v.history ∧ v'.bindings = v.bindings ∧
      (small.keyOf ⟨3⟩).Reaches (squareReceipt.change 1 fun _ => ["04"]) squareScript.commands
        v'' ∧
      v''.history.messages ≠ v.history.messages ∧
      ∃ history history'' : ChallengeHistory,
        v.history = (history.draw "k" (small.keyOf ⟨3⟩).field).2 ∧
        v''.history = (history''.draw "k" (small.keyOf ⟨3⟩).field).2 ∧
        history''.messages ≠ history.messages := by
  have reaches (text : String) (fields : List String) {squared : Residue}
      {proof : SquareProof Residue} (readSquared : small.ops.ofHex text = .ok squared)
      (read : SquareProof.ofFields (small.keyOf ⟨3⟩) fields = .ok proof) :
      ∃ v, (small.keyOf ⟨3⟩).Reaches ⟨[["06"], [text], fields]⟩ squareScript.commands v := by
    have source : small.ops.ofHex "06" = .ok ⟨6⟩ := rfl
    have steps : Steps (Verifier.Step (small.keyOf ⟨3⟩)) squareScript.commands
        (.start (small.keyOf ⟨3⟩) ⟨[["06"], [text], fields]⟩) _ :=
      .cons (.input rfl source) (.cons (.square rfl rfl readSquared read) .nil)
    exact ⟨_, Verifier.forM_eq_ok.mpr steps⟩
  obtain ⟨v, reached⟩ := reaches "09" ["0c", "08", "05", "09", "03", "03"] rfl rfl
  obtain ⟨v', reached'⟩ := reaches "09" ["0c", "08", "05", "08", "03", "03"] rfl rfl
  obtain ⟨v'', reached''⟩ := reaches "04" ["0c", "08", "05", "09", "03", "03"] rfl rfl
  have split : squareScript.commands = [.input "a"] ++ .square "b" "a" :: [] := rfl
  have answers : squareReceipt.SameButAnswers (squareReceipt.exchange 2 3 "08") [.input "a"]
      (.square "b" "a") := ⟨rfl, rfl, rfl⟩
  have differ : spokenFields squareScript.commands [["06"], ["04"], ["0c", "08", "05", "09",
      "03", "03"]] ≠ spokenFields squareScript.commands squareReceipt.records := by decide
  have canonical : (small.keyOf ⟨3⟩).group.Canonical := small.ops_canonical
  obtain ⟨-, verdicts, -⟩ := challenges_bind_spoken_fields canonical squareScript squareReceipt
    (squareReceipt.exchange 2 3 "08")
  obtain ⟨speaks, -, draws⟩ := challenges_bind_spoken_fields canonical squareScript
    squareReceipt (squareReceipt.change 1 fun _ => ["04"])
  obtain ⟨bindings, history, -⟩ :=
    verdicts _ _ _ split answers _ v v' (List.prefix_refl _) reached reached'
  obtain ⟨before, before'', drawn, drawn'', apart⟩ :=
    draws _ _ _ "k" split rfl v v'' reached reached''
  exact ⟨v, v', v'', reached, reached', history, bindings, reached'',
    fun same => differ ((speaks _ v v'' (List.prefix_refl _) reached reached'').mp same),
    before, before'', drawn, drawn'', apart _ (List.prefix_refl _) differ⟩

end CommitmentKey

end CommitScript
