import RegexForge.Error

/-!
Computations that may be refused. A chain of them is accepted when each of its steps is, so a chain
can be taken apart step by step; a step that is known to be accepted or refused can be carried out.
-/

namespace RegexForge.Outcome

variable {ε ε' α β : Type}

theorem bind_eq_ok_iff {first : Except ε α} {next : α → Except ε β} {result : β} :
    (first >>= next) = .ok result ↔
      ∃ middle, first = .ok middle ∧ next middle = .ok result := by
  cases first with
  | error refusal => simp [bind, Except.bind]
  | ok value => simp [bind, Except.bind]

@[simp] theorem ok_bind (value : α) (next : α → Except ε β) : (.ok value >>= next) = next value :=
  rfl

@[simp] theorem error_bind (refusal : ε) (next : α → Except ε β) :
    (.error refusal >>= next) = .error refusal :=
  rfl

@[simp] theorem pure_eq_ok (value : α) : (pure value : Except ε α) = .ok value :=
  rfl

@[simp] theorem mapError_ok (value : α) (rename : ε → ε') :
    (.ok value : Except ε α).mapError rename = .ok value :=
  rfl

@[simp] theorem mapError_error (refusal : ε) (rename : ε → ε') :
    (.error refusal : Except ε α).mapError rename = .error (rename refusal) :=
  rfl

theorem mapError_eq_ok_iff {first : Except ε α} {rename : ε → ε'} {result : α} :
    first.mapError rename = .ok result ↔ first = .ok result := by
  cases first <;> simp

theorem toOption_eq_some_iff {outcome : Except ε α} {result : α} :
    outcome.toOption = some result ↔ outcome = .ok result := by
  cases outcome <;> simp [Except.toOption]

end RegexForge.Outcome
