/-! # Decimal integers

Writing a whole number in decimal and reading it back. A literal has at most one sign, then
a digit, then digits and underscores; underscores only group digits and carry no value. The
main statement says that an integer reads back as it was written.
-/

namespace CommitScript.Text

/-- The value of a run of ASCII digits. -/
def digitsValue (digits : List Char) : Nat :=
  Nat.ofDigitChars 10 digits 0

/-- The value of one or more ASCII digits with nothing else among them. -/
def digits? (text : List Char) : Option Nat :=
  if !text.isEmpty && text.all Char.isDigit then some (digitsValue text) else none

/-- The value of an unsigned literal: a digit, then digits and underscores. -/
def magnitude? : List Char → Option Nat
  | [] => none
  | first :: rest =>
      if first.isDigit && rest.all (fun c => c.isDigit || c == '_') then
        some (digitsValue (first :: rest.filter Char.isDigit))
      else
        none

/-- The value of a signed literal. -/
def integer? : List Char → Option Int
  | '-' :: rest => (magnitude? rest).map fun n => -(n : Int)
  | '+' :: rest => (magnitude? rest).map Int.ofNat
  | text => (magnitude? text).map Int.ofNat

/-- A natural number in decimal, without leading zeros. -/
def decimal (n : Nat) : String :=
  String.ofList (Nat.toDigits 10 n)

/-- An integer in decimal; only negative numbers carry a sign. -/
def signedDecimal : Int → String
  | .ofNat n => decimal n
  | .negSucc n => "-" ++ decimal (n + 1)

/-- The digits of a number are one or more ASCII digits. -/
theorem decimal_digits (n : Nat) :
    (decimal n).toList ≠ [] ∧ ∀ c ∈ (decimal n).toList, c.isDigit = true := by
  rw [decimal, String.toList_ofList]
  exact ⟨Nat.toDigits_ne_nil, fun _ => Nat.isDigit_of_mem_toDigits (by decide) (by decide)⟩

theorem digitsValue_decimal (n : Nat) : digitsValue (decimal n).toList = n := by
  rw [digitsValue, decimal, String.toList_ofList]
  exact Nat.ofDigitChars_toDigits (by decide) (by decide)

/-- Reading the digits of a number gives the number. -/
theorem digits?_decimal (n : Nat) : digits? (decimal n).toList = some n := by
  obtain ⟨some_digit, all_digits⟩ := decimal_digits n
  have := List.all_eq_true.mpr all_digits
  simp [digits?, some_digit, this, digitsValue_decimal]

/-- Digits alone are a literal without a sign. -/
theorem magnitude?_decimal (n : Nat) : magnitude? (decimal n).toList = some n := by
  obtain ⟨some_digit, all_digits⟩ := decimal_digits n
  have value := digitsValue_decimal n
  cases h : (decimal n).toList with
  | nil => exact absurd h some_digit
  | cons first rest =>
      rw [h] at all_digits value
      have head : first.isDigit = true := all_digits first (by simp)
      have tail : ∀ c ∈ rest, c.isDigit = true := fun c hc => all_digits c (by simp [hc])
      have grouped : rest.all (fun c => c.isDigit || c == '_') = true :=
        List.all_eq_true.mpr fun c hc => by simp [tail c hc]
      simp [magnitude?, head, grouped, List.filter_eq_self.mpr tail, value]

/-- Reading an integer as it is written gives the integer. -/
theorem integer?_signedDecimal (value : Int) :
    integer? (signedDecimal value).toList = some value := by
  cases value with
  | ofNat n =>
      obtain ⟨some_digit, all_digits⟩ := decimal_digits n
      have magnitude := magnitude?_decimal n
      simp only [signedDecimal]
      cases h : (decimal n).toList with
      | nil => exact absurd h some_digit
      | cons first rest =>
          rw [h] at all_digits magnitude
          have head := all_digits first (by simp)
          unfold integer?
          split
          · next heq => rw [(List.cons.inj heq).1] at head; exact absurd head (by decide)
          · next heq => rw [(List.cons.inj heq).1] at head; exact absurd head (by decide)
          · rw [magnitude]; rfl
  | negSucc n =>
      simp only [signedDecimal, String.toList_append]
      show integer? ('-' :: (decimal (n + 1)).toList) = _
      rw [integer?, magnitude?_decimal]
      rfl

end CommitScript.Text
