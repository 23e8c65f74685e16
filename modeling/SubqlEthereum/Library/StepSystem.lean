import Mathlib.Logic.Relation

/-!
# Systems that step by actions

A system has initial states and a step that an action may or may not take.  `invariant` is the
induction over runs from an initial state, and `kept` the one over runs from a reachable state.
`Along` asks something of every step of a run, and `outputs` collects what the steps put out.
-/

namespace SubqlEthereum.StepSystem

/-- A deterministic system; an action that is not possible in a state has no step. -/
structure System (State Action : Type*) where
  initial : State → Prop
  step : State → Action → Option State

variable {State Action : Type*} {S : System State Action}

/-- Some action leads from one state to the other. -/
def System.Moves (S : System State Action) (s s' : State) : Prop :=
  ∃ action, S.step s action = some s'

/-- Any number of steps lead from one state to the other. -/
def System.Leads (S : System State Action) : State → State → Prop :=
  Relation.ReflTransGen S.Moves

def System.Reachable (S : System State Action) (s : State) : Prop :=
  ∃ start, S.initial start ∧ S.Leads start s

/-- The state after a list of actions, when each is possible in turn. -/
def System.run (S : System State Action) : State → List Action → Option State
  | s, [] => some s
  | s, action :: actions => (S.step s action).bind fun s' => S.run s' actions

theorem leads_of_run (actions : List Action) (s s' : State) (h : S.run s actions = some s') :
    S.Leads s s' := by
  induction actions generalizing s with
  | nil =>
    have hsame : s = s' := Option.some.inj h
    rw [hsame]
    exact Relation.ReflTransGen.refl
  | cons action actions ih =>
    rw [System.run] at h
    obtain ⟨s₁, hstep, hrest⟩ := Option.bind_eq_some_iff.mp h
    exact Relation.ReflTransGen.head ⟨action, hstep⟩ (ih s₁ hrest)

theorem Reachable.leads {s s' : State} (hreachable : S.Reachable s) (hleads : S.Leads s s') :
    S.Reachable s' := by
  obtain ⟨start, hstart, hs⟩ := hreachable
  exact ⟨start, hstart, hs.trans hleads⟩

/-- **Invariants.**  What holds at the start and is preserved by a step holds of every reachable
state. -/
theorem invariant (P : State → Prop) (hinitial : ∀ s, S.initial s → P s)
    (hstep : ∀ s action s', P s → S.step s action = some s' → P s') (s : State)
    (hreachable : S.Reachable s) : P s := by
  obtain ⟨start, hstart, hleads⟩ := hreachable
  induction hleads with
  | refl => exact hinitial start hstart
  | tail _ hmove ih =>
    obtain ⟨action, hmove⟩ := hmove
    exact hstep _ action _ ih hmove

/-- What holds of a reachable state and is preserved by a step from a reachable state holds from
then on. -/
theorem kept (P : State → Prop)
    (hstep : ∀ s action s', S.Reachable s → P s → S.step s action = some s' → P s')
    (s s' : State) (hreachable : S.Reachable s) (hs : P s) (hleads : S.Leads s s') : P s' := by
  induction hleads with
  | refl => exact hs
  | tail hbefore hmove ih =>
    obtain ⟨action, hmove⟩ := hmove
    exact hstep _ action _ (Reachable.leads hreachable hbefore) ih hmove

/-! ### Along a run -/

/-- Every step of the run by a list of actions has a property, as far as the run gets. -/
def System.Along (S : System State Action) (P : State → Action → Prop) : State → List Action → Prop
  | _, [] => True
  | s, action :: actions => P s action ∧ ∀ s', S.step s action = some s' → S.Along P s' actions

/-- It can be decided where the property of a single step can. -/
instance System.decidableAlong (S : System State Action) (P : State → Action → Prop)
    [∀ s action, Decidable (P s action)] :
    ∀ s actions, Decidable (S.Along P s actions)
  | _, [] => isTrue trivial
  | s, action :: actions =>
    have := fun s' => decidableAlong S P s' actions
    inferInstanceAs (Decidable (P s action ∧ ∀ s' ∈ S.step s action, S.Along P s' actions))

theorem along_cons (P : State → Action → Prop) {s s' : State} {action : Action}
    {actions : List Action} (hstep : S.step s action = some s') (hP : P s action)
    (hrest : S.Along P s' actions) : S.Along P s (action :: actions) := by
  refine ⟨hP, fun s₁ hs₁ => ?_⟩
  rw [hstep] at hs₁
  rw [← Option.some.inj hs₁]
  exact hrest

/-- What the steps of a run put out, in order. -/
def System.outputs {β : Type*} (S : System State Action) (emit : State → Action → List β) :
    State → List Action → List β
  | _, [] => []
  | s, action :: actions =>
    emit s action ++
      match S.step s action with
      | some s' => S.outputs emit s' actions
      | none => []

theorem along_imp (P Q : State → Action → Prop) (himp : ∀ s action, P s action → Q s action)
    (actions : List Action) (s : State) (h : S.Along P s actions) : S.Along Q s actions := by
  induction actions generalizing s with
  | nil => trivial
  | cons action actions ih => exact ⟨himp s action h.1, fun s' hs' => ih s' (h.2 s' hs')⟩

/-- **Properties that agree in every step of a run**, given an invariant of it. -/
theorem along_congr (I : State → Prop) (R P Q : State → Action → Prop)
    (hstep : ∀ s action s', I s → R s action → S.step s action = some s' → I s')
    (hagree : ∀ s action, I s → R s action → (P s action ↔ Q s action)) (actions : List Action)
    (s : State) (hs : I s) (hR : S.Along R s actions) :
    S.Along P s actions ↔ S.Along Q s actions := by
  induction actions generalizing s with
  | nil => exact Iff.rfl
  | cons action actions ih =>
    obtain ⟨hfirst, hrest⟩ := hR
    refine and_congr (hagree s action hs hfirst) (forall₂_congr fun s' hs' => ?_)
    exact ih s' (hstep s action s' hs hfirst hs') (hrest s' hs')

/-- **Invariants of a run** whose steps all have a property. -/
theorem invariant_along (I : State → Prop) (R : State → Action → Prop)
    (hstep : ∀ s action s', I s → R s action → S.step s action = some s' → I s')
    (actions : List Action) (s s' : State) (hs : I s) (hR : S.Along R s actions)
    (hrun : S.run s actions = some s') : I s' := by
  induction actions generalizing s with
  | nil =>
    rw [← Option.some.inj hrun]
    exact hs
  | cons action actions ih =>
    rw [System.run] at hrun
    obtain ⟨s₁, hs₁, hrest⟩ := Option.bind_eq_some_iff.mp hrun
    exact ih s₁ (hstep s action s₁ hs hR.1 hs₁) (hR.2 s₁ hs₁) hrest

/-- **Invariants of a run with a record** of what its actions ask for. -/
theorem record_along {β : Type*} (asks : Action → List β) (I : List β → State → Prop)
    (R : State → Action → Prop)
    (hstep : ∀ record s action s', I record s → R s action → S.step s action = some s' →
      I (record ++ asks action) s')
    (actions : List Action) : ∀ (record : List β) (s s' : State), I record s →
      S.Along R s actions → S.run s actions = some s' → I (record ++ actions.flatMap asks) s' := by
  induction actions with
  | nil =>
    intro record s s' hs _ hrun
    rw [← Option.some.inj hrun, List.flatMap_nil, List.append_nil]
    exact hs
  | cons action actions ih =>
    intro record s s' hs hR hrun
    rw [System.run] at hrun
    obtain ⟨s₁, hs₁, hrest⟩ := Option.bind_eq_some_iff.mp hrun
    rw [List.flatMap_cons, ← List.append_assoc]
    exact ih _ s₁ s' (hstep record s action s₁ hs hR.1 hs₁) (hR.2 s₁ hs₁) hrest

/-- In a run that gets to its end every step is possible. -/
theorem along_possible (actions : List Action) (s s' : State) (hrun : S.run s actions = some s') :
    S.Along (fun s action => (S.step s action).isSome = true) s actions := by
  induction actions generalizing s with
  | nil => trivial
  | cons action actions ih =>
    rw [System.run] at hrun
    obtain ⟨s₁, hs₁, hrest⟩ := Option.bind_eq_some_iff.mp hrun
    refine ⟨Option.isSome_iff_exists.mpr ⟨s₁, hs₁⟩, fun s₂ hs₂ => ?_⟩
    rw [hs₁] at hs₂
    rw [← Option.some.inj hs₂]
    exact ih s₁ hrest

/-- **A view of the state that changes by what the steps put out**, given an invariant. -/
theorem view_run {β γ : Type*} (emit : State → Action → List β) (view : State → γ)
    (f : γ → β → γ) (I : State → Prop) (R : State → Action → Prop)
    (hI : ∀ s action s', I s → R s action → S.step s action = some s' → I s')
    (hview : ∀ s action s', I s → R s action → S.step s action = some s' →
      view s' = (emit s action).foldl f (view s))
    (actions : List Action) (s s' : State) (hs : I s) (hR : S.Along R s actions)
    (hrun : S.run s actions = some s') :
    view s' = (S.outputs emit s actions).foldl f (view s) := by
  induction actions generalizing s with
  | nil =>
    rw [← Option.some.inj hrun]
    rfl
  | cons action actions ih =>
    rw [System.run] at hrun
    obtain ⟨s₁, hs₁, hrest⟩ := Option.bind_eq_some_iff.mp hrun
    rw [System.outputs, hs₁, List.foldl_append, ← hview s action s₁ hs hR.1 hs₁]
    exact ih s₁ (hI s action s₁ hs hR.1 hs₁) (hR.2 s₁ hs₁) hrest

/-- What every step puts out is good, and so is one good output after another. -/
theorem outputs_good {β : Type*} (emit : State → Action → List β) (R : State → Action → Prop)
    (Good : List β → Prop) (hnil : Good [])
    (happend : ∀ front back, Good front → Good back → Good (front ++ back))
    (hemit : ∀ s action, R s action → Good (emit s action)) (actions : List Action) (s : State)
    (hR : S.Along R s actions) : Good (S.outputs emit s actions) := by
  induction actions generalizing s with
  | nil => exact hnil
  | cons action actions ih =>
    apply happend _ _ (hemit s action hR.1)
    cases hs' : S.step s action with
    | none => exact hnil
    | some s' => exact ih s' (hR.2 s' hs')

/-- Two outputs that agree in every step of a run. -/
theorem outputs_congr {β : Type*} (emit emit' : State → Action → List β)
    (R : State → Action → Prop) (hemit : ∀ s action, R s action → emit s action = emit' s action)
    (actions : List Action) (s : State) (hR : S.Along R s actions) :
    S.outputs emit s actions = S.outputs emit' s actions := by
  induction actions generalizing s with
  | nil => rfl
  | cons action actions ih =>
    rw [System.outputs, System.outputs, hemit s action hR.1]
    congr 1
    cases hs' : S.step s action with
    | none => rfl
    | some s' => exact ih s' (hR.2 s' hs')

end SubqlEthereum.StepSystem
