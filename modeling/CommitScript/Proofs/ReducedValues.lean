import CommitScript.Expression.Value
import CommitScript.Proofs.Success

/-! # Values of expressions are reduced

Where every name stands for a reduced scalar, so does every expression that has a value. The
parts of the evaluator are taken together, as they call each other.
-/

namespace CommitScript.Scope

open Success

variable {scope : Scope}

/-- Whether every name stands for a reduced scalar, if for any. -/
def Reduced (scope : Scope) : Prop :=
  ∀ name value, scope.lookup? name = some value → scope.field.Reduced value

theorem reduced_raise {base value : Scalar} {tokens : List Token}
    {rest : { rest : List Token // rest.length ≤ tokens.length }}
    (reduced : scope.field.Reduced base) (h : scope.raise base tokens = .ok (value, rest)) :
    scope.field.Reduced value := by
  unfold raise at h
  split at h
  · obtain ⟨inverse, -, raised⟩ := except_bind_eq_ok.mp h
    cases raised
    exact scope.field.reduced_pow _ _
  · cases h
  · cases h
  · cases h
    exact scope.field.reduced_pow _ _
  · cases h
  · cases h
  · cases h
    exact reduced

theorem reduced_sumRest {tokens : List Token} {total value : Scalar}
    {rest : { rest : List Token // rest.length ≤ tokens.length }}
    (reduced : scope.field.Reduced total) (h : scope.sumRest total tokens = .ok (value, rest)) :
    scope.field.Reduced value := by
  rw [sumRest.eq_def] at h
  split at h
  · next following =>
    obtain ⟨⟨term, rest₁, shorter⟩, one, others⟩ := except_bind_eq_ok.mp h
    obtain ⟨⟨last, rest₂, shorter'⟩, more, ends⟩ := except_bind_eq_ok.mp others
    cases ends
    exact reduced_sumRest (scope.field.reduced_add _ _) more
  · next following =>
    obtain ⟨⟨term, rest₁, shorter⟩, one, others⟩ := except_bind_eq_ok.mp h
    obtain ⟨⟨last, rest₂, shorter'⟩, more, ends⟩ := except_bind_eq_ok.mp others
    cases ends
    exact reduced_sumRest (scope.field.reduced_sub _ _) more
  · cases h
    exact reduced
termination_by tokens.length
decreasing_by all_goals subst_vars; simp only [List.length_cons]; omega

theorem reduced_productRest {tokens : List Token}
    {total value : Scalar} {rest : { rest : List Token // rest.length ≤ tokens.length }}
    (reduced : scope.field.Reduced total)
    (h : scope.productRest total tokens = .ok (value, rest)) : scope.field.Reduced value := by
  rw [productRest.eq_def] at h
  split at h
  · next following =>
    obtain ⟨⟨factor, rest₁, shorter⟩, one, others⟩ := except_bind_eq_ok.mp h
    obtain ⟨⟨last, rest₂, shorter'⟩, more, ends⟩ := except_bind_eq_ok.mp others
    cases ends
    exact reduced_productRest (scope.field.reduced_mul _ _) more
  · next following =>
    obtain ⟨⟨factor, rest₁, shorter⟩, one, others⟩ := except_bind_eq_ok.mp h
    obtain ⟨inverse, -, others⟩ := except_bind_eq_ok.mp others
    obtain ⟨⟨last, rest₂, shorter'⟩, more, ends⟩ := except_bind_eq_ok.mp others
    cases ends
    exact reduced_productRest (scope.field.reduced_mul _ _) more
  · cases h
    exact reduced
termination_by tokens.length
decreasing_by all_goals subst_vars; simp only [List.length_cons]; omega

mutual

theorem reduced_sum (closed : scope.Reduced) {tokens : List Token} {value : Scalar}
    {rest : { rest : List Token // rest.length < tokens.length }}
    (h : scope.sum tokens = .ok (value, rest)) : scope.field.Reduced value := by
  rw [sum] at h
  obtain ⟨⟨first, rest₁, shorter⟩, one, others⟩ := except_bind_eq_ok.mp h
  obtain ⟨⟨last, rest₂, shorter'⟩, more, ends⟩ := except_bind_eq_ok.mp others
  cases ends
  exact reduced_sumRest (reduced_product closed one) more
termination_by (tokens.length, 4)

theorem reduced_product (closed : scope.Reduced) {tokens : List Token} {value : Scalar}
    {rest : { rest : List Token // rest.length < tokens.length }}
    (h : scope.product tokens = .ok (value, rest)) : scope.field.Reduced value := by
  rw [product] at h
  obtain ⟨⟨first, rest₁, shorter⟩, one, others⟩ := except_bind_eq_ok.mp h
  obtain ⟨⟨last, rest₂, shorter'⟩, more, ends⟩ := except_bind_eq_ok.mp others
  cases ends
  exact reduced_productRest (reduced_negated closed one) more
termination_by (tokens.length, 3)

theorem reduced_negated (closed : scope.Reduced) {tokens : List Token} {value : Scalar}
    {rest : { rest : List Token // rest.length < tokens.length }}
    (h : scope.negated tokens = .ok (value, rest)) : scope.field.Reduced value := by
  rw [negated.eq_def] at h
  split at h
  · next following =>
    obtain ⟨⟨first, rest₁, shorter⟩, one, ends⟩ := except_bind_eq_ok.mp h
    cases ends
    exact scope.field.reduced_neg _
  · obtain ⟨⟨base, rest₁, shorter⟩, one, others⟩ := except_bind_eq_ok.mp h
    obtain ⟨⟨last, rest₂, shorter'⟩, raised, ends⟩ := except_bind_eq_ok.mp others
    cases ends
    exact reduced_raise (reduced_atom closed one) raised
termination_by (tokens.length, 2)

theorem reduced_atom (closed : scope.Reduced) {tokens : List Token} {value : Scalar}
    {rest : { rest : List Token // rest.length < tokens.length }}
    (h : scope.atom tokens = .ok (value, rest)) : scope.field.Reduced value := by
  rw [atom.eq_def] at h
  split at h
  · cases h
    exact scope.field.reduced_reduce _
  · split at h
    · next found =>
      cases h
      exact closed _ _ found
    · cases h
  · next inner =>
    obtain ⟨⟨first, rest₁, shorter⟩, one, ends⟩ := except_bind_eq_ok.mp h
    split at ends
    · next closes =>
      cases closes
      cases ends
      exact reduced_sum closed one
    · cases ends
  · cases h
  · cases h
termination_by (tokens.length, 1)

end

theorem reduced_value (closed : scope.Reduced) {text : String} {value : Scalar}
    (h : scope.value text = .ok value) : scope.field.Reduced value := by
  unfold Scope.value at h
  split at h
  · cases h
  · obtain ⟨⟨first, rest, shorter⟩, one, ends⟩ := except_bind_eq_ok.mp h
    split at ends
    · next whole =>
      cases whole
      cases ends
      exact reduced_sum closed one
    · cases ends

end CommitScript.Scope
