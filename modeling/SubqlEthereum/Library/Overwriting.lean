import Mathlib.Data.List.Induction

/-!
# Cells that steps write over

Each step of a system writes some of its cells and leaves the others as they are.  After a list of
steps a cell holds what the last step writes, whatever came before, if that step writes it or if
no step before it does (`cells_run_concat`).
-/

namespace SubqlEthereum.Overwriting

variable {σ κ ι α : Type*}

/-- The steps that are taken keep an invariant, under which a step writes what `written` says. -/
structure Writes (step : σ → κ → σ) (Inv : σ → Prop) (Taken : κ → Prop) (cells : σ → ι → Option α)
    (written : κ → ι → Option α) : Prop where
  inv : ∀ s k, Inv s → Taken k → Inv (step s k)
  cells : ∀ s k, Inv s → Taken k → ∀ i, cells (step s k) i = (written k i).or (cells s i)

section Runs

variable {step : σ → κ → σ} {Inv : σ → Prop} {Taken : κ → Prop} {cells : σ → ι → Option α}
variable {written : κ → ι → Option α} (h : Writes step Inv Taken cells written) (start : σ)
include h

theorem inv_run (hstart : Inv start) (steps : List κ) (htaken : ∀ k ∈ steps, Taken k) :
    Inv (steps.foldl step start) := by
  induction steps using List.reverseRecOn with
  | nil => exact hstart
  | append_singleton steps last ih =>
    rw [List.foldl_append]
    have hbefore := ih fun k hk => htaken k (List.mem_append_left [last] hk)
    exact h.inv _ last hbefore (htaken last (List.mem_append_right steps List.mem_cons_self))

/-- A cell no step writes stays as it was. -/
theorem cells_run_of_not_written (hstart : Inv start) (i : ι) (steps : List κ)
    (htaken : ∀ k ∈ steps, Taken k) (hnone : ∀ k ∈ steps, written k i = none) :
    cells (steps.foldl step start) i = cells start i := by
  induction steps using List.reverseRecOn with
  | nil => rfl
  | append_singleton steps last ih =>
    have hin : last ∈ steps ++ [last] := List.mem_append_right steps List.mem_cons_self
    have hearlier : ∀ k ∈ steps, Taken k := fun k hk => htaken k (List.mem_append_left [last] hk)
    have hbefore := ih hearlier fun k hk => hnone k (List.mem_append_left [last] hk)
    have hinv := inv_run h start hstart steps hearlier
    rw [List.foldl_append]
    show cells (step (steps.foldl step start) last) i = cells start i
    rw [h.cells _ last hinv (htaken last hin), hnone last hin, hbefore]
    rfl

/-- **What the last step writes is there**, over cells that were empty. -/
theorem cells_run_concat (hstart : Inv start) (i : ι) (hempty : cells start i = none)
    (history : List κ) (last : κ) (htaken : ∀ k ∈ history ++ [last], Taken k)
    (hwrites : written last i ≠ none ∨ ∀ k ∈ history, written k i = none) :
    cells ((history ++ [last]).foldl step start) i = written last i := by
  have hearlier : ∀ k ∈ history, Taken k := fun k hk => htaken k (List.mem_append_left [last] hk)
  have hinv := inv_run h start hstart history hearlier
  have hlast := htaken last (List.mem_append_right history List.mem_cons_self)
  rw [List.foldl_append]
  show cells (step (history.foldl step start) last) i = written last i
  rw [h.cells _ last hinv hlast]
  rcases hwrites with hsome | hnone
  · obtain ⟨value, hvalue⟩ := Option.ne_none_iff_exists'.mp hsome
    rw [hvalue]
    rfl
  · rw [cells_run_of_not_written h start hstart i history hearlier hnone, hempty, Option.or_none]

end Runs

end SubqlEthereum.Overwriting
