import CommitScript.Expression.Token
import CommitScript.Proofs.CommandText

/-! # Tokens of a text

How tokens are spelled: with blank characters anywhere between them, each number as a run of
digits and each name as a run of its characters, and neither could be longer. Cutting a text gives
just the tokens that it spells, so no text spells two lists of tokens.
-/

namespace CommitScript

open Success

namespace Text

/-- A run that cannot go on is all that is taken. -/
theorem takeWhile_append_of_ends {p : Char → Bool} {run rest : List Char}
    (inside : ∀ c ∈ run, p c) (ends : ∀ c ∈ rest.head?, ¬p c) :
    (run ++ rest).takeWhile p = run := by
  rw [List.takeWhile_append_of_pos inside]
  cases rest with
  | nil => simp
  | cons c rest => simp [ends c rfl]

theorem dropWhile_append_of_ends {p : Char → Bool} {run rest : List Char}
    (inside : ∀ c ∈ run, p c) (ends : ∀ c ∈ rest.head?, ¬p c) :
    (run ++ rest).dropWhile p = rest := by
  rw [List.dropWhile_append_of_pos inside]
  cases rest with
  | nil => simp
  | cons c rest => simp [ends c rfl]

theorem ends_dropWhile {p : Char → Bool} {text : List Char} :
    ∀ c ∈ (text.dropWhile p).head?, ¬p c := by
  intro c first holds
  have stops := List.head?_dropWhile_not p text
  rw [first] at stops
  simp [holds] at stops

/-- The codes of the blank characters. -/
def blankCodes : List Nat :=
  [9, 10, 11, 12, 13, 0x20, 0x85, 0xA0, 0x1680, 0x2000, 0x2001, 0x2002, 0x2003, 0x2004, 0x2005,
    0x2006, 0x2007, 0x2008, 0x2009, 0x200A, 0x2028, 0x2029, 0x202F, 0x205F, 0x3000]

theorem mem_blankCodes {c : Char} (h : isBlank c) : c.toNat ∈ blankCodes := by
  simp only [isBlank, Bool.or_eq_true, Bool.and_eq_true, decide_eq_true_eq, beq_iff_eq] at h
  simp only [blankCodes, List.mem_cons, List.not_mem_nil]
  omega

theorem not_isLetter_of_isBlank {c : Char} (h : isBlank c) : ¬isLetter c := by
  have apart : ∀ code ∈ blankCodes, ¬inRanges code letterRanges := by
    decide +kernel
  exact apart _ (mem_blankCodes h)

end Text

namespace Token

/-- How a list of tokens is spelled. -/
inductive Spelled : List Char → List Token → Prop
  | nil : Spelled [] []
  /-- Blank characters may stand before a token and at the end. -/
  | blank {c text tokens} : Text.isBlank c → Spelled text tokens → Spelled (c :: text) tokens
  /-- A number takes all the digits that follow each other. -/
  | number {digits text tokens} : digits ≠ [] → (∀ c ∈ digits, c.isDigit) →
      (∀ c ∈ text.head?, ¬c.isDigit) → Spelled text tokens →
      Spelled (digits ++ text) (number (Text.digitsValue digits) :: tokens)
  /-- A name takes all the characters that can go on with it. -/
  | name {first letters text tokens} : opensName first → (∀ c ∈ letters, continuesName c) →
      (∀ c ∈ text.head?, ¬continuesName c) → Spelled text tokens →
      Spelled (first :: letters ++ text) (name (String.ofList (first :: letters)) :: tokens)
  | operator {text tokens} (op : Operator) : Spelled text tokens →
      Spelled (op.mark :: text) (operator op :: tokens)
  | opening {text tokens} : Spelled text tokens → Spelled ('(' :: text) (opening :: tokens)
  | closing {text tokens} : Spelled text tokens → Spelled (')' :: text) (closing :: tokens)

theorem not_isBlank_of_opensName {c : Char} (h : opensName c) : ¬Text.isBlank c := by
  intro blank
  simp only [opensName, Bool.or_eq_true, beq_iff_eq] at h
  rcases h with letter | rfl
  · exact Text.not_isLetter_of_isBlank blank letter
  · exact absurd blank (by decide)

theorem not_isDigit_of_opensName {c : Char} (h : opensName c) : ¬c.isDigit := by
  intro digit
  have code := Text.toNat_of_isDigit digit
  simp only [opensName, Bool.or_eq_true, beq_iff_eq] at h
  rcases h with letter | rfl
  · change Text.inRanges c.toNat ((0x41, 0x5A) :: Text.letterRanges.drop 1) = true at letter
    simp only [Text.inRanges, Bool.and_eq_true, decide_eq_true_eq] at letter
    omega
  · exact absurd digit (by decide)

/-- The characters that are tokens of their own. -/
theorem ofMark?_eq_some {c : Char} {token : Token} :
    ofMark? c = some token ↔
      (∃ op : Operator, c = op.mark ∧ token = operator op) ∨
        (c = '(' ∧ token = opening) ∨ (c = ')' ∧ token = closing) := by
  constructor
  · intro h
    unfold ofMark? at h
    split_ifs at h with plus minus times divide power opens closes
    · cases h
      exact .inl ⟨.plus, plus, rfl⟩
    · cases h
      exact .inl ⟨.minus, minus, rfl⟩
    · cases h
      exact .inl ⟨.times, times, rfl⟩
    · cases h
      exact .inl ⟨.divide, divide, rfl⟩
    · cases h
      exact .inl ⟨.power, power, rfl⟩
    · cases h
      exact .inr (.inl ⟨opens, rfl⟩)
    · cases h
      exact .inr (.inr ⟨closes, rfl⟩)
  · rintro (⟨op, rfl, rfl⟩ | ⟨rfl, rfl⟩ | ⟨rfl, rfl⟩)
    · cases op <;> rfl
    · rfl
    · rfl

/-- A character that is a token of its own begins no other. -/
theorem ofChars_mark {c : Char} {token : Token} (mark : ofMark? c = some token)
    (text : List Char) : ofChars (c :: text) = (ofChars text).map (token :: ·) := by
  have apart : ¬Text.isBlank c ∧ ¬c.isDigit ∧ ¬opensName c := by
    rcases ofMark?_eq_some.mp mark with ⟨op, rfl, -⟩ | ⟨rfl, -⟩ | ⟨rfl, -⟩
    · cases op <;> decide
    · decide
    · decide
  rw [ofChars, if_neg apart.1, if_neg apart.2.1, if_neg apart.2.2, mark]

theorem ofChars_of_spelled {text : List Char} {tokens : List Token} (h : Spelled text tokens) :
    ofChars text = .ok tokens := by
  induction h with
  | nil => rw [ofChars]
  | blank blank _ ih => rw [ofChars, if_pos blank, ih]
  | @number digits text tokens nonempty inside ends _ ih =>
      obtain ⟨c, digits, rfl⟩ := List.exists_cons_of_ne_nil nonempty
      rw [List.forall_mem_cons] at inside
      rw [List.cons_append, ofChars, if_neg (Text.not_isBlank_of_isDigit inside.1),
        if_pos inside.1]
      simp only [Text.takeWhile_append_of_ends inside.2 ends,
        Text.dropWhile_append_of_ends inside.2 ends, ih]
      rfl
  | @name first letters text tokens opens inside ends _ ih =>
      rw [List.cons_append, ofChars, if_neg (not_isBlank_of_opensName opens),
        if_neg (not_isDigit_of_opensName opens), if_pos opens]
      simp only [Text.takeWhile_append_of_ends inside ends,
        Text.dropWhile_append_of_ends inside ends, ih]
      rfl
  | operator op _ ih => rw [ofChars_mark (ofMark?_eq_some.mpr (.inl ⟨op, rfl, rfl⟩)), ih]; rfl
  | opening _ ih => rw [ofChars_mark (ofMark?_eq_some.mpr (.inr (.inl ⟨rfl, rfl⟩))), ih]; rfl
  | closing _ ih => rw [ofChars_mark (ofMark?_eq_some.mpr (.inr (.inr ⟨rfl, rfl⟩))), ih]; rfl

theorem spelled_of_ofChars {text : List Char} {tokens : List Token}
    (h : ofChars text = .ok tokens) : Spelled text tokens := by
  induction text using ofChars.induct generalizing tokens with
  | case1 =>
      rw [ofChars] at h
      cases h
      exact .nil
  | case2 c text blank ih =>
      rw [ofChars, if_pos blank] at h
      exact .blank blank (ih h)
  | case3 c text notBlank digit ih =>
      rw [ofChars, if_neg notBlank, if_pos digit] at h
      obtain ⟨others, cut, rfl⟩ := except_map_eq_ok.mp h
      have spelled := Spelled.number (List.cons_ne_nil c (text.takeWhile Char.isDigit))
        (List.forall_mem_cons.mpr ⟨digit, fun _ => List.mem_takeWhile_imp⟩)
        Text.ends_dropWhile (ih cut)
      rwa [List.cons_append, List.takeWhile_append_dropWhile] at spelled
  | case4 c text notBlank notDigit opens ih =>
      rw [ofChars, if_neg notBlank, if_neg notDigit, if_pos opens] at h
      obtain ⟨others, cut, rfl⟩ := except_map_eq_ok.mp h
      have inside : ∀ c ∈ text.takeWhile continuesName, continuesName c :=
        fun _ => List.mem_takeWhile_imp
      have spelled := Spelled.name opens inside Text.ends_dropWhile (ih cut)
      rwa [List.cons_append, List.takeWhile_append_dropWhile] at spelled
  | case5 c text notBlank notDigit notName token mark ih =>
      rw [ofChars_mark mark] at h
      obtain ⟨others, cut, rfl⟩ := except_map_eq_ok.mp h
      rcases ofMark?_eq_some.mp mark with ⟨op, rfl, rfl⟩ | ⟨rfl, rfl⟩ | ⟨rfl, rfl⟩
      · exact .operator op (ih cut)
      · exact .opening (ih cut)
      · exact .closing (ih cut)
  | case6 c text notBlank notDigit notName unmarked =>
      rw [ofChars, if_neg notBlank, if_neg notDigit, if_neg notName, unmarked] at h
      cases h

/-- Cutting a text gives the tokens that it spells. -/
theorem ofChars_eq_ok {text : List Char} {tokens : List Token} :
    ofChars text = .ok tokens ↔ Spelled text tokens :=
  ⟨spelled_of_ofChars, ofChars_of_spelled⟩

/-- No text spells two lists of tokens. -/
theorem Spelled.unique {text : List Char} {tokens tokens' : List Token}
    (h : Spelled text tokens) (h' : Spelled text tokens') : tokens = tokens' :=
  Except.ok.inj ((ofChars_of_spelled h).symm.trans (ofChars_of_spelled h'))

end Token

end CommitScript
