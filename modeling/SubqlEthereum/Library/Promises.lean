import Mathlib.Data.List.Basic

/-!
# Promises that settle once

The promises a program has created, each unsettled or settled.  A promise is settled by the first
`resolve` or `reject` called on it, and later calls do nothing.  `settleAll_get` reads a promise
after any list of calls.
-/

namespace SubqlEthereum.Promises

/-- How a promise ends. -/
inductive Outcome (α ε : Type*)
  | resolved (value : α)
  | rejected (error : ε)
deriving Repr

/-- The promises in the order of their creation; one without an outcome is unsettled. -/
abbrev Heap (α ε : Type*) := List (Option (Outcome α ε))

variable {α ε : Type*}

/-- A call that settles a promise, unless it already is. -/
def settle (promises : Heap α ε) (promise : ℕ) (outcome : Outcome α ε) : Heap α ε :=
  promises.modify promise fun state => state.or (some outcome)

/-- Several such calls, in order. -/
def settleAll (promises : Heap α ε) (calls : List (ℕ × Outcome α ε)) : Heap α ε :=
  calls.foldl (fun promises call => settle promises call.1 call.2) promises

theorem settle_get (promises : Heap α ε) (promise : ℕ) (outcome : Outcome α ε) (p : ℕ) :
    (settle promises promise outcome)[p]? =
      promises[p]?.map fun state => if promise = p then state.or (some outcome) else state := by
  rw [settle, List.getElem?_modify]
  by_cases h : promise = p
  · simp only [if_pos h]
    rfl
  · simp [h]

/-- **The first call on a promise decides**, unless the promise was settled before. -/
theorem settleAll_get (promises : Heap α ε) (calls : List (ℕ × Outcome α ε)) (p : ℕ) :
    (settleAll promises calls)[p]? = promises[p]?.map (·.or (calls.lookup p)) := by
  induction calls generalizing promises with
  | nil =>
    show promises[p]? = promises[p]?.map (·.or none)
    simp
  | cons call calls ih =>
    show (settleAll (settle promises call.1 call.2) calls)[p]? = _
    rw [ih, settle_get, Option.map_map]
    congr 1
    funext state
    by_cases h : call.1 = p
    · have hfound : (call :: calls).lookup p = some call.2 := by
        have heq : (p == call.1) = true := by simpa using h.symm
        rw [List.lookup_cons, heq]
      simp only [Function.comp_apply, if_pos h, hfound]
      rw [Option.or_assoc]
      rfl
    · have hskip : (call :: calls).lookup p = calls.lookup p := by
        have hne : (p == call.1) = false := by simpa using Ne.symm h
        rw [List.lookup_cons, hne]
      simp only [Function.comp_apply, if_neg h, hskip]

theorem settleAll_append (promises : Heap α ε) (calls more : List (ℕ × Outcome α ε)) :
    settleAll promises (calls ++ more) = settleAll (settleAll promises calls) more :=
  List.foldl_append

/-- No promise is created or dropped by the calls. -/
theorem length_settleAll (promises : Heap α ε) (calls : List (ℕ × Outcome α ε)) :
    (settleAll promises calls).length = promises.length := by
  induction calls generalizing promises with
  | nil => rfl
  | cons call calls ih =>
    show (settleAll (settle promises call.1 call.2) calls).length = promises.length
    rw [ih, settle, List.length_modify]

/-- A settled promise stays as it is. -/
theorem settleAll_settled (promises : Heap α ε) (calls : List (ℕ × Outcome α ε)) (p : ℕ)
    (outcome : Outcome α ε) (h : promises[p]? = some (some outcome)) :
    (settleAll promises calls)[p]? = some (some outcome) := by
  rw [settleAll_get, h]
  rfl

/-- A promise that is not called on stays as it is. -/
theorem settleAll_other (promises : Heap α ε) (calls : List (ℕ × Outcome α ε)) (p : ℕ)
    (h : ∀ call ∈ calls, call.1 ≠ p) :
    (settleAll promises calls)[p]? = promises[p]? := by
  have hnone : calls.lookup p = none := by
    rw [List.lookup_eq_none_iff]
    intro call hcall
    simpa using Ne.symm (h call hcall)
  rw [settleAll_get, hnone]
  simp

/-- An unsettled promise that every call on it settles the same way is settled that way. -/
theorem settleAll_called (promises : Heap α ε) (calls : List (ℕ × Outcome α ε)) (p : ℕ)
    (outcome : Outcome α ε) (hp : promises[p]? = some none) (hmem : (p, outcome) ∈ calls)
    (hagree : ∀ call ∈ calls, call.1 = p → call.2 = outcome) :
    (settleAll promises calls)[p]? = some (some outcome) := by
  have hfound : calls.lookup p = some outcome := by
    cases hlookup : calls.lookup p with
    | none =>
      have hno := List.lookup_eq_none_iff.mp hlookup _ hmem
      exact absurd hno (by simp)
    | some other =>
      have hother : (p, other) ∈ calls := by
        obtain ⟨front, back, hsplit, _⟩ := List.lookup_eq_some_iff.mp hlookup
        rw [hsplit]
        simp
      rw [show other = outcome by simpa using hagree _ hother rfl]
  rw [settleAll_get, hp, hfound]
  rfl

end SubqlEthereum.Promises
