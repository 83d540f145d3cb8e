import Watershed.Edge.Mask

/-!
# Computations that can be refused

A request is checked step by step, and the first step that fails refuses it. A run that answers
therefore says that every step before the answer has succeeded, and a run is put together from the
runs of its steps; both are stated here once, without and with a source of random numbers.
-/

namespace Watershed

namespace Error

variable {ε φ α β : Type}

theorem bind_eq_ok_iff {outcome : Except ε α} {next : α → Except ε β} {answer : β} :
    (outcome >>= next) = .ok answer ↔ ∃ value, outcome = .ok value ∧ next value = .ok answer := by
  cases outcome <;> simp [bind, Except.bind]

theorem map_eq_ok_iff {outcome : Except ε α} {change : α → β} {answer : β} :
    change <$> outcome = .ok answer ↔ ∃ value, outcome = .ok value ∧ change value = answer := by
  cases outcome <;> simp [Functor.map, Except.map]

theorem mapError_eq_ok_iff {outcome : Except ε α} {reason : ε → φ} {value : α} :
    outcome.mapError reason = .ok value ↔ outcome = .ok value := by
  cases outcome with
  | error => exact iff_of_false nofun nofun
  | ok =>
      exact ⟨fun same => congrArg Except.ok (Except.ok.inj same),
        fun same => congrArg Except.ok (Except.ok.inj same)⟩

theorem check_eq_ok_iff {holds : Prop} [Decidable holds] {error : Error} :
    (if holds then Except.ok () else Except.error error) = Except.ok () ↔ holds := by
  by_cases known : holds <;> simp [known]

end Error

namespace Sampled

variable {γ α β : Type} {computation : Sampled γ α} {next : α → Sampled γ β}
  {generator after : γ}

theorem run_lift {outcome : Except Error α} {value : α} (found : outcome = .ok value)
    (generator : γ) : (liftM outcome : Sampled γ α) generator = (.ok value, generator) := by
  rw [found]
  rfl

theorem run_bind {value : α} (ran : computation generator = (.ok value, after)) :
    (computation >>= next) generator = next value after := by
  change (match computation generator with
    | (outcome, after) => ExceptT.bindCont next outcome after) = _
  rw [ran]
  rfl

theorem run_bind_of_error {error : Error} (ran : computation generator = (.error error, after)) :
    (computation >>= next) generator = (.error error, after) := by
  change (match computation generator with
    | (outcome, after) => ExceptT.bindCont next outcome after) = _
  rw [ran]
  rfl

end Sampled

end Watershed
