import SpreadWatch.Failure

/-!
Results that are built step by step: what an answer or a failure of the whole says of the steps,
and which failures are possible at all.
-/

namespace SpreadWatch

section Steps

variable {ε α β : Type}

theorem bind_eq_ok {x : Except ε α} {f : α → Except ε β} {b : β} (bound : x >>= f = .ok b) :
    ∃ a, x = .ok a ∧ f a = .ok b := by
  cases x with
  | error failure => cases bound
  | ok a => exact ⟨a, rfl, bound⟩

theorem bind_eq_error {x : Except ε α} {f : α → Except ε β} {failure : ε}
    (bound : x >>= f = .error failure) :
    x = .error failure ∨ ∃ a, x = .ok a ∧ f a = .error failure := by
  cases x with
  | error early =>
      cases bound
      exact .inl rfl
  | ok a => exact .inr ⟨a, rfl, bound⟩

theorem ok_of_to_option {x : Except ε α} {a : α} (answered : x.toOption = some a) : x = .ok a := by
  cases x with
  | error failure => cases answered
  | ok b => exact congrArg _ (Option.some.inj answered)

theorem ok_nil_of_length {x : Except ε (List α)} (none : x.toOption.map List.length = some 0) :
    x = .ok [] := by
  cases x with
  | error failure => cases none
  | ok items => exact congrArg _ (List.length_eq_zero_iff.mp (Option.some.inj none))

/-- A result is known from a test that one value only passes. -/
theorem ok_of_test {x : Except ε α} {test : α → Bool} {a : α}
    (passed : x.toOption.any test = true) (only : ∀ b, test b = true → b = a) : x = .ok a := by
  cases x with
  | error failure => cases passed
  | ok b => exact congrArg _ (only b passed)

theorem lift_decimal_eq_ok {result : Except Decimal.Signal α} {a : α}
    (lifted : liftDecimal result = .ok a) : result = .ok a := by
  cases result with
  | error signal => cases lifted
  | ok value => exact congrArg _ (Except.ok.inj lifted)

end Steps

def FailsWith {α : Type} (allowed : Failure → Prop) (result : Except Failure α) : Prop :=
  ∀ failure, result = .error failure → allowed failure

namespace FailsWith

variable {α β : Type} {allowed : Failure → Prop}

theorem ok (a : α) : FailsWith allowed (.ok a) := by
  intro failure failed
  cases failed

theorem error {failure : Failure} (fine : allowed failure) :
    FailsWith allowed (.error failure : Except Failure α) := by
  intro other failed
  cases failed
  exact fine

theorem bind {x : Except Failure α} {f : α → Except Failure β} (first : FailsWith allowed x)
    (second : ∀ a, x = .ok a → FailsWith allowed (f a)) : FailsWith allowed (x >>= f) := by
  intro failure failed
  rcases bind_eq_error failed with early | ⟨a, answered, late⟩
  · exact first failure early
  · exact second a answered failure late

/-- A step that refuses, or else goes on. -/
theorem guard {refused : Prop} [Decidable refused] {failure : Failure}
    {next : Except Failure α} {after : β → Except Failure α} (fine : allowed failure)
    (rest : FailsWith allowed next) :
    FailsWith allowed (if refused then throw failure >>= after else next) := by
  split
  · exact .error fine
  · exact rest

/-- A loop, each turn of which fails in an allowed way only. -/
theorem for_in {items : List α} {start : β}
    {step : α → β → Except Failure (ForInStep β)}
    (each : ∀ item state, FailsWith allowed (step item state)) :
    FailsWith allowed (forIn items start step) := by
  induction items generalizing start with
  | nil => exact .ok _
  | cons item rest induction =>
      rw [List.forIn_cons]
      refine .bind (each item start) fun next _ => ?_
      cases next with
      | done state => exact .ok _
      | yield state => exact induction

theorem map_all {items : List α} {f : α → Except Failure β}
    (each : ∀ item, FailsWith allowed (f item)) : FailsWith allowed (items.mapM f) := by
  induction items with
  | nil => exact .ok _
  | cons item rest induction =>
      rw [List.mapM_cons]
      exact .bind (each item) fun first _ => .bind induction fun others _ => .ok _

theorem map {x : Except Failure α} (inner : FailsWith allowed x) (f : α → β) :
    FailsWith allowed (x.map f) := by
  intro failure failed
  cases x with
  | ok a => cases failed
  | error early =>
      cases failed
      exact inner _ rfl

theorem lift {result : Except Decimal.Signal α} (fine : ∀ signal, allowed (.decimal signal)) :
    FailsWith allowed (liftDecimal result) := by
  intro failure failed
  cases result with
  | ok a => cases failed
  | error signal =>
      cases failed
      exact fine signal

end FailsWith

end SpreadWatch
