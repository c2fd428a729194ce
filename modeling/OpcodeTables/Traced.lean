import OpcodeTables.Event

/-!
Outcomes together with the events on the way to them. Events that come before an error are kept.
-/

namespace OpcodeTables

/-- An outcome and the events on the way to it, the earliest first. -/
structure Traced (ε α : Type) where
  events : List Event
  outcome : Except ε α

namespace Traced

variable {ε ε' α : Type}

/-- Puts events before those of an outcome. -/
def after (events : List Event) (traced : Traced ε α) : Traced ε α :=
  { traced with events := events ++ traced.events }

def mapError (f : ε → ε') (traced : Traced ε α) : Traced ε' α :=
  { events := traced.events, outcome := traced.outcome.mapError f }

end Traced

/-- Only what works is mapped to something that works. -/
theorem map_eq_ok_iff {ε α β : Type} {outcome : Except ε α} {f : α → β} {next : β}
    : outcome.map f = .ok next ↔ ∃ value, outcome = .ok value ∧ f value = next := by
  cases outcome <;> simp [Except.map]

/-- Mapping what works keeps an error as it is. -/
theorem map_eq_error_iff {ε α β : Type} {outcome : Except ε α} {f : α → β} {error : ε}
    : outcome.map f = .error error ↔ outcome = .error error := by
  cases outcome <;> simp [Except.map]

@[simp] theorem mapError_ok {ε ε' α : Type} (f : ε → ε') (value : α)
    : (Except.ok value).mapError f = .ok value :=
  rfl

@[simp] theorem mapError_error {ε ε' α : Type} (f : ε → ε') (error : ε)
    : (Except.error error : Except ε α).mapError f = .error (f error) :=
  rfl

theorem mapError_eq_ok_iff {ε ε' α : Type} {outcome : Except ε α} {f : ε → ε'} {value : α}
    : outcome.mapError f = .ok value ↔ outcome = .ok value := by
  cases outcome <;> simp

end OpcodeTables
