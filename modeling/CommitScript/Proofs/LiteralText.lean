import Mathlib
import CommitScript.Script.Weight

/-! # How numbers and weights are written

A magnitude is a digit and then digits, worth ten times what stands in front of the last digit and
that digit; marks may be allowed behind the first digit to group the others. A signed number has at
most one sign before its magnitude. The readers take just what is written in this way, and give the
number that it is worth; so they read back what is written for a number or a weight.
-/

namespace CommitScript

namespace Text

/-- How a number is written in decimal. The marks have no worth. -/
inductive Magnitude (marks : Set Char) : List Char → Nat → Prop
  | digit {c} : c.isDigit → Magnitude marks [c] (c.toNat - '0'.toNat)
  | next {text n c} : Magnitude marks text n → c.isDigit →
      Magnitude marks (text ++ [c]) (10 * n + (c.toNat - '0'.toNat))
  | mark {text n c} : Magnitude marks text n → c ∈ marks → Magnitude marks (text ++ [c]) n

/-- How an integer is written. -/
inductive Signed (marks : Set Char) : List Char → Int → Prop
  | plain {text n} : Magnitude marks text n → Signed marks text n
  | plus {text n} : Magnitude marks text n → Signed marks ('+' :: text) n
  | minus {text n} : Magnitude marks text n → Signed marks ('-' :: text) (-n)

/-- What the digits of a text are worth. -/
def worth (text : List Char) : Nat :=
  digitsValue (text.filter Char.isDigit)

theorem worth_of_digits {text : List Char} (h : ∀ c ∈ text, c.isDigit) :
    worth text = digitsValue text := by
  rw [worth, List.filter_eq_self.mpr h]

variable {marks : Set Char} {text : List Char} {n : Nat} {c : Char}

theorem worth_digit (h : c.isDigit) : worth [c] = c.toNat - '0'.toNat := by
  rw [worth, List.filter_singleton, h]
  exact Nat.zero_add _

theorem worth_append_digit (text : List Char) (h : c.isDigit) :
    worth (text ++ [c]) = 10 * worth text + (c.toNat - '0'.toNat) := by
  rw [worth, List.filter_append, List.filter_singleton, h]
  exact Nat.ofDigitChars_append _

theorem worth_append_other (text : List Char) (h : ¬c.isDigit) :
    worth (text ++ [c]) = worth text := by
  rw [worth, List.filter_append, List.filter_singleton, Bool.eq_false_iff.mpr h]
  exact congrArg digitsValue (List.append_nil _)

theorem toNat_of_isDigit {c : Char} (h : c.isDigit) : 48 ≤ c.toNat ∧ c.toNat ≤ 57 :=
  Char.isDigit_iff_toNat.mp h

theorem digits?_eq_some {digits : List Char} {n : Nat} :
    digits? digits = some n ↔
      (digits ≠ [] ∧ ∀ c ∈ digits, c.isDigit) ∧ digitsValue digits = n := by
  simp [digits?]

/-- What is written is a digit, then digits and marks. -/
theorem magnitude_iff (apart : ∀ c ∈ marks, ¬c.isDigit) :
    Magnitude marks text n ↔
      (∃ first rest, text = first :: rest ∧ first.isDigit ∧ ∀ c ∈ rest, c.isDigit ∨ c ∈ marks) ∧
        worth text = n := by
  constructor
  · intro h
    induction h with
    | @digit c digit => exact ⟨⟨c, [], rfl, digit, List.forall_mem_nil _⟩, worth_digit digit⟩
    | @next text n c _ digit ih =>
        obtain ⟨⟨first, rest, rfl, opens, others⟩, rfl⟩ := ih
        refine ⟨⟨first, rest ++ [c], rfl, opens, ?_⟩, worth_append_digit _ digit⟩
        exact List.forall_mem_append.mpr ⟨others, List.forall_mem_singleton.mpr (.inl digit)⟩
    | @mark text n c _ mark ih =>
        obtain ⟨⟨first, rest, rfl, opens, others⟩, rfl⟩ := ih
        refine ⟨⟨first, rest ++ [c], rfl, opens, ?_⟩, worth_append_other _ (apart c mark)⟩
        exact List.forall_mem_append.mpr ⟨others, List.forall_mem_singleton.mpr (.inr mark)⟩
  · rintro ⟨⟨first, rest, rfl, opens, others⟩, rfl⟩
    induction rest using List.reverseRecOn with
    | nil =>
        rw [worth_digit opens]
        exact .digit opens
    | append_singleton rest c ih =>
        rw [List.forall_mem_append, List.forall_mem_singleton] at others
        obtain ⟨before, digit | mark⟩ := others
        · rw [← List.cons_append, worth_append_digit _ digit]
          exact .next (ih before) digit
        · rw [← List.cons_append, worth_append_other _ (apart c mark)]
          exact .mark (ih before) mark

theorem digits?_iff : digits? text = some n ↔ Magnitude ∅ text n := by
  rw [magnitude_iff fun _ none => none.elim, digits?_eq_some]
  constructor
  · rintro ⟨⟨nonempty, digits⟩, rfl⟩
    obtain ⟨first, rest, rfl⟩ := List.exists_cons_of_ne_nil nonempty
    refine ⟨⟨first, rest, rfl, digits first List.mem_cons_self, fun c member => ?_⟩,
      worth_of_digits digits⟩
    exact .inl (digits c (List.mem_cons_of_mem _ member))
  · rintro ⟨⟨first, rest, rfl, opens, others⟩, rfl⟩
    have digits : ∀ c ∈ first :: rest, c.isDigit :=
      List.forall_mem_cons.mpr ⟨opens, fun c member => (others c member).resolve_right id⟩
    exact ⟨⟨List.cons_ne_nil _ _, digits⟩, (worth_of_digits digits).symm⟩

theorem magnitude?_cons_iff {first : Char} {rest : List Char} :
    magnitude? (first :: rest) = some n ↔
      (first.isDigit ∧ ∀ c ∈ rest, c.isDigit ∨ c = '_') ∧ worth (first :: rest) = n := by
  rw [magnitude?, Option.ite_none_right_eq_some, Option.some.injEq, Bool.and_eq_true,
    List.all_eq_true]
  simp only [Bool.or_eq_true, beq_iff_eq]
  refine and_congr_right fun digits => ?_
  rw [worth, List.filter_cons_of_pos digits.1]

theorem magnitude?_iff : magnitude? text = some n ↔ Magnitude {'_'} text n := by
  have apart : ∀ c ∈ ({'_'} : Set Char), ¬c.isDigit := by
    rintro _ rfl
    decide
  rw [magnitude_iff apart]
  constructor
  · intro reads
    cases text with
    | nil => cases reads
    | cons first rest =>
        obtain ⟨⟨opens, others⟩, worth⟩ := magnitude?_cons_iff.mp reads
        exact ⟨⟨first, rest, rfl, opens, others⟩, worth⟩
  · rintro ⟨⟨first, rest, rfl, opens, others⟩, worth⟩
    exact magnitude?_cons_iff.mpr ⟨⟨opens, others⟩, worth⟩

/-- A literal is read just if it is an integer that is written with underscores at most. -/
theorem integer?_iff {value : Int} : integer? text = some value ↔ Signed {'_'} text value := by
  constructor
  · intro reads
    unfold integer? at reads
    split at reads
    · obtain ⟨_, lifted, rfl⟩ := Option.map_eq_some_iff.mp reads
      obtain ⟨n, magnitude, ⟨⟩⟩ := Option.bind_eq_some_iff.mp lifted
      exact .minus (magnitude?_iff.mp magnitude)
    · obtain ⟨n, magnitude, rfl⟩ := Option.map_eq_some_iff.mp reads
      exact .plus (magnitude?_iff.mp magnitude)
    · obtain ⟨n, magnitude, rfl⟩ := Option.map_eq_some_iff.mp reads
      exact .plain (magnitude?_iff.mp magnitude)
  · intro signed
    cases signed with
    | @plain _ n magnitude =>
        have reads := magnitude?_iff.mpr magnitude
        rw [integer?, reads]
        · rfl
        all_goals
          rintro rest rfl
          cases reads
    | plus magnitude =>
        rw [integer?, magnitude?_iff.mpr magnitude]
        rfl
    | minus magnitude =>
        rw [integer?, magnitude?_iff.mpr magnitude]
        rfl

/-- A number is zero if all its digits are. -/
theorem Magnitude.eq_zero_iff (h : Magnitude ∅ text n) : n = 0 ↔ ∀ c ∈ text, c = '0' := by
  have zero_iff {c : Char} (digit : c.isDigit) : c.toNat - '0'.toNat = 0 ↔ c = '0' := by
    have := toNat_of_isDigit digit
    rw [← Char.toNat_inj]
    change c.toNat - 48 = 0 ↔ c.toNat = 48
    omega
  induction h with
  | digit digit => rw [List.forall_mem_singleton, zero_iff digit]
  | next _ digit ih =>
      rw [List.forall_mem_append, List.forall_mem_singleton, Nat.add_eq_zero_iff, zero_iff digit,
        Nat.mul_eq_zero, or_iff_right (by decide)]
      exact and_congr_left' ih
  | mark _ none => exact none.elim

theorem Magnitude.length_pos (h : Magnitude marks text n) : 0 < text.length := by
  cases h with
  | digit => exact Nat.one_pos
  | next | mark => exact List.length_append ▸ Nat.succ_pos _

/-- Some digits stand for a number below the power of ten with as many zeros. -/
theorem Magnitude.lt (h : Magnitude ∅ text n) : n < 10 ^ text.length := by
  induction h with
  | digit digit =>
      have := toNat_of_isDigit digit
      change _ - 48 < 10
      omega
  | next _ digit ih =>
      have := toNat_of_isDigit digit
      rw [List.length_append, List.length_singleton, Nat.pow_succ]
      change _ + (_ - 48) < _
      omega
  | mark _ none => exact none.elim

/-- Zeros in front of a number do not change its value. -/
theorem digits?_leftpad (n places : Nat) :
    digits? ((decimal n).toList.leftpad places '0') = some n := by
  obtain ⟨nonempty, digits⟩ := decimal_digits n
  rw [digits?_eq_some, List.leftpad]
  refine ⟨⟨List.append_ne_nil_of_right_ne_nil _ nonempty, ?_⟩, ?_⟩
  · rintro c member
    rcases List.mem_append.mp member with zero | digit
    · rw [(List.mem_replicate.mp zero).2]
      decide
    · exact digits c digit
  · rw [digitsValue, Nat.ofDigitChars_append, Nat.ofDigitChars_replicate_zero, Nat.mul_zero]
    exact digitsValue_decimal n

theorem length_decimal_le {n places : Nat} (some : 0 < places) :
    (decimal n).toList.length ≤ places ↔ n < 10 ^ places := by
  rw [decimal, String.toList_ofList]
  exact Nat.length_toDigits_le_iff (by decide) some

theorem magnitude_decimal (n : Nat) : Magnitude ∅ (decimal n).toList n :=
  digits?_iff.mp (digits?_decimal n)

theorem toList_signedDecimal_negSucc (n : Nat) :
    (signedDecimal (.negSucc n)).toList = '-' :: (decimal (n + 1)).toList :=
  String.toList_append

theorem signed_signedDecimal (value : Int) : Signed ∅ (signedDecimal value).toList value := by
  cases value with
  | ofNat n => exact .plain (magnitude_decimal n)
  | negSucc n =>
      rw [toList_signedDecimal_negSucc]
      exact .minus (magnitude_decimal (n + 1))

end Text

namespace Weight

open Text

/-- Whether some literal stands for a weight: a fraction has digits, no more than 32 bits count,
    and is below one, and the divisor of an inverse is not zero. -/
def Literal : Weight → Prop
  | integer _ => True
  | fraction numerator places => (1 ≤ places ∧ places < UInt32.size) ∧ numerator < 10 ^ places
  | inverse divisor => divisor ≠ 0

/-- How a weight is written: as an integer, as a point and the digits behind it, as many as 32
    bits count at most, or as a slash and the digits of a divisor, which are not all zero. -/
inductive Spelled : List Char → Weight → Prop
  | integer {text value} : Signed ∅ text value → Spelled text (.integer value)
  | fraction {digits numerator} : Magnitude ∅ digits numerator → digits.length < UInt32.size →
      Spelled ('.' :: digits) (.fraction numerator digits.length)
  | inverse {digits divisor} : Magnitude ∅ digits divisor → (¬∀ c ∈ digits, c = '0') →
      Spelled ('/' :: digits) (.inverse divisor)

/-- A literal that opens with a digit is an integer without a sign. -/
theorem ofChars?_of_digits {text : List Char} (nonempty : text ≠ [])
    (digits : ∀ c ∈ text, c.isDigit) :
    ofChars? text = (Text.digits? text).map fun n => integer n := by
  obtain ⟨first, rest, rfl⟩ := List.exists_cons_of_ne_nil nonempty
  have digit := digits first List.mem_cons_self
  -- No mark is a digit, so none of the earlier patterns fits.
  have unmarked {mark : Char} {others : List Char} (fits : first :: rest = mark :: others)
      (h : ¬mark.isDigit) : False :=
    h ((List.cons.inj fits).1 ▸ digit)
  rw [ofChars?]
  all_goals intro others fits; exact unmarked fits (by decide)

/-- No fraction is read from more digits than 32 bits count. -/
theorem ofChars?_long {digits : List Char} (h : UInt32.size ≤ digits.length) :
    ofChars? ('.' :: digits) = none :=
  if_neg h.not_gt

/-- A weight is read just from what it is written as. -/
theorem ofChars?_iff {text : List Char} {weight : Weight} :
    ofChars? text = some weight ↔ Spelled text weight := by
  constructor
  · intro reads
    unfold ofChars? at reads
    split at reads
    · obtain ⟨counted, lifted⟩ := Option.ite_none_right_eq_some.mp reads
      obtain ⟨n, digits, rfl⟩ := Option.map_eq_some_iff.mp lifted
      exact .fraction (digits?_iff.mp digits) counted
    · obtain ⟨n, digits, kept⟩ := Option.bind_eq_some_iff.mp reads
      obtain ⟨positive, ⟨⟩⟩ := Option.ite_none_left_eq_some.mp kept
      have magnitude := digits?_iff.mp digits
      exact .inverse magnitude (magnitude.eq_zero_iff.not.mp positive)
    · obtain ⟨_, lifted, rfl⟩ := Option.map_eq_some_iff.mp reads
      obtain ⟨n, digits, ⟨⟩⟩ := Option.bind_eq_some_iff.mp lifted
      exact .integer (.minus (digits?_iff.mp digits))
    · obtain ⟨_, lifted, rfl⟩ := Option.map_eq_some_iff.mp reads
      obtain ⟨n, digits, ⟨⟩⟩ := Option.bind_eq_some_iff.mp lifted
      exact .integer (.plus (digits?_iff.mp digits))
    · obtain ⟨_, lifted, rfl⟩ := Option.map_eq_some_iff.mp reads
      obtain ⟨n, digits, ⟨⟩⟩ := Option.bind_eq_some_iff.mp lifted
      exact .integer (.plain (digits?_iff.mp digits))
  · intro spelled
    cases spelled with
    | integer signed =>
        cases signed with
        | plain magnitude =>
            have reads := digits?_iff.mpr magnitude
            obtain ⟨nonempty, digits⟩ := (digits?_eq_some.mp reads).1
            rw [ofChars?_of_digits nonempty digits, reads]
            rfl
        | plus magnitude | minus magnitude =>
            rw [ofChars?, digits?_iff.mpr magnitude]
            rfl
    | fraction magnitude counted =>
        rw [ofChars?, if_pos counted, digits?_iff.mpr magnitude]
        rfl
    | inverse magnitude text =>
        rw [ofChars?, digits?_iff.mpr magnitude, Option.bind_some,
          if_neg (magnitude.eq_zero_iff.not.mpr text)]

theorem ofChars?_eq_none {text : List Char} :
    ofChars? text = none ↔ ∀ weight, ¬Spelled text weight := by
  rw [Option.eq_none_iff_forall_ne_some]
  exact forall_congr' fun weight => ofChars?_iff.not

/-- A weight that is written is one that a literal stands for. -/
theorem literal_of_spelled {text : List Char} {weight : Weight} (h : Spelled text weight) :
    weight.Literal := by
  cases h with
  | integer => trivial
  | fraction magnitude counted => exact ⟨⟨magnitude.length_pos, counted⟩, magnitude.lt⟩
  | inverse magnitude text => exact magnitude.eq_zero_iff.not.mpr text

theorem toList_write_fraction (numerator places : Nat) :
    (fraction numerator places).write.toList =
      '.' :: (Text.decimal numerator).toList.leftpad places '0' := by
  have point : ".".toList = ['.'] := rfl
  rw [write, String.toList_append, point, String.toList_ofList, List.singleton_append]

theorem toList_write_inverse (divisor : Nat) :
    (inverse divisor).write.toList = '/' :: (Text.decimal divisor).toList := by
  have slash : "/".toList = ['/'] := rfl
  rw [write, String.toList_append, slash, List.singleton_append]

/-- A weight that a literal stands for is spelled as it is written. -/
theorem spelled_write {weight : Weight} (h : weight.Literal) :
    Spelled weight.write.toList weight := by
  cases weight with
  | integer value => exact .integer (signed_signedDecimal value)
  | fraction numerator places =>
      obtain ⟨⟨some, counted⟩, below⟩ := h
      have fits := (length_decimal_le some).mpr below
      have length : ((decimal numerator).toList.leftpad places '0').length = places := by
        rw [List.leftpad, List.length_append, List.length_replicate]
        omega
      have magnitude := digits?_iff.mp (digits?_leftpad numerator places)
      have spelled := Spelled.fraction magnitude (length.symm ▸ counted)
      rwa [length, ← toList_write_fraction] at spelled
  | inverse divisor =>
      have magnitude := magnitude_decimal divisor
      rw [toList_write_inverse]
      exact .inverse magnitude (magnitude.eq_zero_iff.not.mp h)

end Weight

end CommitScript
