import SubqlEthereum.Library.PlainObject

/-!
# State that cannot be observed

A computation that keeps a state and may throw, in `EStateM`: a throw keeps what was done to the
state.  It hides the state behind an invariant when it keeps the invariant, and when its outcome is
one and the same from every state with it, at least under a condition (`Hides`).  Such computations
compose, and in a row of them each has its own outcome wherever its own condition holds
(`getElem?_outcomes`).

The case at hand are caches: `memo` is a function of names whose results are kept in an object,
`if (!cache[name]) cache[name] = compute(name); return cache[name]`.  Under an inherited name the
object has a property from the start, and gives that.
-/

namespace SubqlEthereum.HiddenState

open SubqlEthereum.PlainObject

section Hides

variable {ε σ α β : Type}

/-- The end of a computation with that outcome in that state. -/
def ending : Except ε α → σ → EStateM.Result ε σ α
  | .ok a, s => .ok a s
  | .error e, s => .error e s

/-- From every state with the invariant, the invariant holds after `x` too, and under the condition
the outcome of `x` is `y`. -/
def Hides (c : Prop) (inv : σ → Prop) (x : EStateM ε σ α) (y : Except ε α) : Prop :=
  ∀ s, inv s → ∃ r s', inv s' ∧ x s = ending r s' ∧ (c → r = y)

variable {c : Prop} {inv : σ → Prop}

theorem Hides.pure (a : α) : Hides c inv (pure a : EStateM ε σ α) (.ok a) :=
  fun s h => ⟨.ok a, s, h, rfl, fun _ => rfl⟩

theorem Hides.throw (e : ε) : Hides c inv (throw e : EStateM ε σ α) (.error e) :=
  fun s h => ⟨.error e, s, h, rfl, fun _ => rfl⟩

/-- The outcome may be rewritten under the condition. -/
theorem Hides.congr {x : EStateM ε σ α} {y y' : Except ε α} (hx : Hides c inv x y)
    (hy : c → y = y') : Hides c inv x y' := by
  intro s h
  obtain ⟨r, s', hinv, hrun, hr⟩ := hx s h
  exact ⟨r, s', hinv, hrun, fun hc => (hr hc).trans (hy hc)⟩

/-- **One computation after another.** -/
theorem Hides.bind {x : EStateM ε σ α} {y : Except ε α} {f : α → EStateM ε σ β}
    {g : α → Except ε β} (hx : Hides c inv x y) (hf : ∀ a, Hides c inv (f a) (g a)) :
    Hides c inv (x >>= f) (y >>= g) := by
  intro s h
  obtain ⟨r, s', hinv, hrun, hr⟩ := hx s h
  have hbind : (x >>= f) s = match x s with
      | .ok a s => f a s
      | .error e s => .error e s := rfl
  rw [hbind, hrun]
  cases r with
  | error e =>
    refine ⟨.error e, s', hinv, rfl, fun hc => ?_⟩
    rw [← hr hc]
    rfl
  | ok a =>
    obtain ⟨r, s'', hinv', hrun', hr'⟩ := hf a s' hinv
    refine ⟨r, s'', hinv', hrun', fun hc => ?_⟩
    rw [hr' hc, ← hr hc]
    rfl

theorem Hides.ite {b : Prop} [Decidable b] {x x' : EStateM ε σ α} {y y' : Except ε α}
    (h : Hides c inv x y) (h' : Hides c inv x' y') :
    Hides c inv (if b then x else x') (if b then y else y') := by
  by_cases hb : b
  · rw [if_pos hb, if_pos hb]
    exact h
  · rw [if_neg hb, if_neg hb]
    exact h'

/-- A computation on a part of the state. -/
def onPart {τ : Type} (read : σ → τ) (write : τ → σ → σ) (x : EStateM ε τ α) : EStateM ε σ α :=
  fun s =>
    match x (read s) with
    | .ok a t => .ok a (write t s)
    | .error e t => .error e (write t s)

theorem Hides.onPart {τ : Type} {inv' : τ → Prop} {read : σ → τ} {write : τ → σ → σ}
    {x : EStateM ε τ α} {y : Except ε α} (hx : Hides c inv' x y)
    (hread : ∀ s, inv s → inv' (read s)) (hwrite : ∀ s t, inv s → inv' t → inv (write t s)) :
    Hides c inv (onPart read write x) y := by
  intro s h
  obtain ⟨r, t, ht, hrun, hr⟩ := hx (read s) (hread s h)
  refine ⟨r, write t s, hwrite s t h ht, ?_, hr⟩
  rw [HiddenState.onPart, hrun]
  cases r with
  | ok a => rfl
  | error e => rfl

/-- Computations one after another, each with its outcome; a throw does not stop the next one. -/
def outcomes : List (EStateM ε σ α) → σ → List (Except ε α)
  | [], _ => []
  | x :: rest, s =>
    match x s with
    | .ok a s => .ok a :: outcomes rest s
    | .error e s => .error e :: outcomes rest s

theorem outcomes_cons {x : EStateM ε σ α} {s s' : σ} {r : Except ε α} (hrun : x s = ending r s')
    (rest : List (EStateM ε σ α)) : outcomes (x :: rest) s = r :: outcomes rest s' := by
  rw [outcomes, hrun]
  cases r with
  | ok a => rfl
  | error e => rfl

/-- **In a row of computations that hide the state** each has its own outcome where its own
condition holds, whatever becomes of the others. -/
theorem getElem?_outcomes {ι : Type} {perform : ι → EStateM ε σ α} {plain : ι → Except ε α}
    {condition : ι → Prop} (h : ∀ e, Hides (condition e) inv (perform e) (plain e)) (es : List ι) :
    ∀ s, inv s → ∀ (i : ℕ) (e : ι), es[i]? = some e → condition e →
      (outcomes (es.map perform) s)[i]? = some (plain e) := by
  induction es with
  | nil => exact fun s _ i e he => absurd he (by simp)
  | cons first rest ih =>
    intro s hs i e he hcondition
    obtain ⟨r, s', hinv, hrun, hr⟩ := h first s hs
    rw [List.map_cons, outcomes_cons hrun]
    cases i with
    | zero =>
      obtain rfl : first = e := Option.some.inj he
      exact congrArg some (hr hcondition)
    | succ i => exact ih s' hinv i e he hcondition

end Hides

/-! ### Caches -/

/-- What a cache gives: a result, or the member every object has under the name. -/
inductive Found (α : Type)
  | result (value : α)
  | inherited (name : String)
deriving DecidableEq, Repr

section Memo

variable {ε α : Type} (compute : String → Except ε α)

/-- Computes the result and keeps it; a throw keeps nothing. -/
def keep (name : String) : EStateM ε (Properties α) (Found α) := fun cache =>
  match compute name with
  | .ok value => .ok (.result value) (set cache name value)
  | .error e => .error e cache

/-- The function with its cache; `falsy` tells the results that are computed again. -/
def memo (falsy : α → Bool) (name : String) : EStateM ε (Properties α) (Found α) := fun cache =>
  match get cache name with
  | .inherited => .ok (.inherited name) cache
  | .own value => if falsy value then keep compute name cache else .ok (.result value) cache
  | .absent => keep compute name cache

/-- The function without a cache. -/
def unkept (name : String) : Except ε (Found α) :=
  if name ∈ inheritedNames then .ok (.inherited name) else (compute name).map .result

/-- What a cache keeps are results, and under no inherited name. -/
def Coherent (cache : Properties α) : Prop :=
  ∀ name value, cache.lookup name = some value →
    name ∉ inheritedNames ∧ compute name = .ok value

theorem coherent_empty : Coherent compute [] := fun name value h => absurd h (by simp)

variable {compute}

theorem Coherent.set {cache : Properties α} (h : Coherent compute cache) (name : String)
    (value : α) (hname : name ∉ inheritedNames) (hvalue : compute name = .ok value) :
    Coherent compute (set cache name value) := by
  have hproto : name ≠ "__proto__" := fun heq => hname (by rw [heq]; decide)
  intro other found hfound
  rw [lookup_set cache name other value hproto] at hfound
  by_cases hother : other = name
  · rw [if_pos hother] at hfound
    rw [hother, ← Option.some.inj hfound]
    exact ⟨hname, hvalue⟩
  · rw [if_neg hother] at hfound
    exact h other found hfound

variable {c : Prop}

theorem keep_hides (name : String) (hname : name ∉ inheritedNames) :
    Hides c (Coherent compute) (keep compute name) ((compute name).map .result) := by
  intro cache h
  cases hvalue : compute name with
  | error e => exact ⟨.error e, cache, h, by rw [keep, hvalue]; rfl, fun _ => rfl⟩
  | ok value =>
    exact ⟨.ok (.result value), PlainObject.set cache name value, h.set name value hname hvalue,
      by rw [keep, hvalue]; rfl, fun _ => rfl⟩

/-- **A coherent cache cannot be observed.** -/
theorem memo_hides (falsy : α → Bool) (name : String) :
    Hides c (Coherent compute) (memo compute falsy name) (unkept compute name) := by
  intro cache h
  rw [memo]
  cases hget : get cache name with
  | inherited =>
    refine ⟨.ok (.inherited name), cache, h, rfl, fun _ => ?_⟩
    rw [unkept, if_pos ((get_eq_inherited_iff cache name).mp hget).2]
  | own value =>
    obtain ⟨hname, hvalue⟩ := h name value ((get_eq_own_iff cache name value).mp hget)
    rw [unkept, if_neg hname]
    by_cases hfalsy : falsy value = true
    · simp only [hfalsy, ↓reduceIte]
      exact keep_hides name hname cache h
    · simp only [hfalsy]
      exact ⟨.ok (.result value), cache, h, rfl, fun _ => by rw [hvalue]; rfl⟩
  | absent =>
    have hname := ((get_eq_absent_iff cache name).mp hget).2
    rw [unkept, if_neg hname]
    exact keep_hides name hname cache h

end Memo

end SubqlEthereum.HiddenState
