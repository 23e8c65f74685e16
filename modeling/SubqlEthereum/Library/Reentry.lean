import Mathlib.Data.Nat.Notation
import Mathlib.Tactic.TypeStar

/-!
# Functions that call themselves as their last step

One entry of such a function either is done or enters it again in another state.  `entered` is
the state the `n`-th entry finds, and `runFor` the result when a number of entries is enough.  A
function that has an invariant under which it always enters again never ends (`never_done`).
-/

namespace SubqlEthereum.Reentry

/-- How one entry ends. -/
inductive Outcome (σ ρ : Type*)
  | done (result : ρ)
  | again (state : σ)

variable {σ ρ : Type*}

/-- The state in which the `n`-th entry begins, counted from zero. -/
def entered (step : σ → Outcome σ ρ) : σ → ℕ → Option σ
  | s, 0 => some s
  | s, n + 1 =>
    match step s with
    | .done _ => none
    | .again s' => entered step s' n

/-- The result, when at most `n` entries are needed. -/
def runFor (step : σ → Outcome σ ρ) : ℕ → σ → Option ρ
  | 0, _ => none
  | n + 1, s =>
    match step s with
    | .done result => some result
    | .again s' => runFor step n s'

/-- **`n` entries are enough exactly when there is no entry after them.** -/
theorem runFor_isSome_iff (step : σ → Outcome σ ρ) (n : ℕ) :
    ∀ s, (runFor step n s).isSome = true ↔ entered step s n = none := by
  induction n with
  | zero =>
    intro s
    simp [runFor, entered]
  | succ n ih =>
    intro s
    rw [runFor, entered]
    cases step s with
    | done result => simp
    | again s' => exact ih s'

/-- **An invariant of entries that enter again**: every entry is reached and has it. -/
theorem entered_of_invariant (step : σ → Outcome σ ρ) (P : σ → Prop)
    (hstep : ∀ s, P s → ∃ s', step s = .again s' ∧ P s') (n : ℕ) :
    ∀ s, P s → ∃ s', entered step s n = some s' ∧ P s' := by
  induction n with
  | zero =>
    intro s hs
    exact ⟨s, rfl, hs⟩
  | succ n ih =>
    intro s hs
    obtain ⟨s', hs', hP⟩ := hstep s hs
    rw [entered, hs']
    exact ih s' hP

/-- No number of entries is enough then. -/
theorem never_done (step : σ → Outcome σ ρ) (P : σ → Prop)
    (hstep : ∀ s, P s → ∃ s', step s = .again s' ∧ P s') (s : σ) (hs : P s) (n : ℕ) :
    runFor step n s = none := by
  obtain ⟨s', hs', -⟩ := entered_of_invariant step P hstep n s hs
  rw [← Option.not_isSome_iff_eq_none, runFor_isSome_iff, hs']
  simp

end SubqlEthereum.Reentry
