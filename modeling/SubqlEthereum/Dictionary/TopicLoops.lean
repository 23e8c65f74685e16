import SubqlEthereum.Dictionary.EthDictionaryV2
import SubqlEthereum.Library.Positions

/-!
# The loops over the topics of a log filter

Both builders go through the first four topics of a filter, V1 writing a condition for each and V2
setting a key.  Both are loops over positions that put out entries named after the position, and
both throw only for a topic they look up.
-/

namespace SubqlEthereum.Dictionary

open SubqlEthereum.External SubqlEthereum.Project SubqlEthereum.Strings SubqlEthereum.Fallible
open SubqlEthereum.Positions
open SubqlEthereum.DictionaryV2 (available topicFields)

/-- What one position of the topics puts into a query: `notNull` for a topic that only has to be
there, `equals` for a concrete one, nothing for a position that cannot be `asked` for. -/
def topicPut {β : Type} (p : Platform) (asked : ℕ → Bool) (notNull : ℕ → β)
    (equals : ℕ → String → β) (i : ℕ) (topic : Option String) : Except JsError (List β) :=
  match truthy topic with
  | none => .ok []
  | some t =>
    if asked i then
      if t = NOT_NULL_FILTER then .ok [notNull i]
      else do
        let value ← eventToTopic p t
        return [equals i value]
    else .ok []

/-- V1 writes a condition for each position. -/
def topicCondition (p : Platform) :
    ℕ → Option String → Except JsError (List DictionaryQueryCondition) :=
  topicPut p (fun _ => true) (fun i => ⟨topicField i, .flag false, .isNull⟩)
    fun i value => ⟨topicField i, .text value, .equalTo⟩

/-- V2 sets a key for each position. -/
def topicFieldAt (p : Platform) (availableFilters : Option (List String)) :
    ℕ → Option String → Except JsError (List (String × List String)) :=
  topicPut p (fun i => available availableFilters (topicField i)) (fun i => (topicField i, []))
    fun i value => (topicField i, [value])

theorem topicConditions_eq (p : Platform) (topics : List (Option String)) :
    ∀ i, topicConditions p i topics = atPositions (topicCondition p) i topics := by
  induction topics with
  | nil =>
    intro i
    rfl
  | cons topic topics ih =>
    intro i
    rw [topicConditions, atPositions, topicCondition, topicPut, ← topicCondition, ih]
    cases truthy topic with
    | none => cases atPositions (topicCondition p) (i + 1) topics <;> rfl
    | some t =>
      by_cases hnull : t = NOT_NULL_FILTER
      · simp only [hnull, ↓reduceIte]
        cases atPositions (topicCondition p) (i + 1) topics <;> rfl
      · simp only [hnull, ↓reduceIte]
        cases eventToTopic p t with
        | error e => rfl
        | ok value => cases atPositions (topicCondition p) (i + 1) topics <;> rfl

theorem topicFields_eq (p : Platform) (availableFilters : Option (List String))
    (topics : List (Option String)) :
    ∀ i, topicFields p availableFilters i topics =
      atPositions (topicFieldAt p availableFilters) i topics := by
  induction topics with
  | nil =>
    intro i
    rfl
  | cons topic topics ih =>
    intro i
    rw [topicFields, atPositions, topicFieldAt, topicPut, ← topicFieldAt, ih]
    cases truthy topic with
    | none => cases atPositions (topicFieldAt p availableFilters) (i + 1) topics <;> rfl
    | some t =>
      by_cases havailable : available availableFilters (topicField i) = true
      · by_cases hnull : t = NOT_NULL_FILTER
        · simp only [havailable, hnull, ↓reduceIte]
          cases atPositions (topicFieldAt p availableFilters) (i + 1) topics <;> rfl
        · simp only [havailable, hnull, ↓reduceIte]
          cases eventToTopic p t with
          | error e => rfl
          | ok value => cases atPositions (topicFieldAt p availableFilters) (i + 1) topics <;> rfl
      · simp only [havailable, Bool.false_eq_true, ↓reduceIte]
        cases atPositions (topicFieldAt p availableFilters) (i + 1) topics <;> rfl

section OnePosition

variable {β : Type} {p : Platform} {asked : ℕ → Bool} {notNull : ℕ → β} {equals : ℕ → String → β}

/-- A position only puts entries under its own name. -/
theorem topicPut_key (key : β → String) (hnotNull : ∀ i, key (notNull i) = topicField i)
    (hequals : ∀ i value, key (equals i value) = topicField i) (i : ℕ) (topic : Option String)
    (out : List β) (h : topicPut p asked notNull equals i topic = .ok out) :
    ∀ b ∈ out, key b = topicField i := by
  rw [topicPut] at h
  cases htruthy : truthy topic with
  | none =>
    rw [htruthy] at h
    rw [← Except.ok.inj h]
    exact List.forall_mem_nil _
  | some t =>
    rw [htruthy] at h
    by_cases hasked : asked i = true
    · by_cases hnull : t = NOT_NULL_FILTER
      · simp only [hasked, hnull, ↓reduceIte] at h
        rw [← Except.ok.inj h]
        exact List.forall_mem_singleton.mpr (hnotNull i)
      · simp only [hasked, hnull, ↓reduceIte] at h
        obtain ⟨value, -, hout⟩ := ok_of_bind_ok h
        rw [← Except.ok.inj hout]
        exact List.forall_mem_singleton.mpr (hequals i value)
    · simp only [hasked, Bool.false_eq_true, ↓reduceIte] at h
      rw [← Except.ok.inj h]
      exact List.forall_mem_nil _

/-- A position throws only for a topic that is looked up and is no signature. -/
theorem topicPut_isOk_iff (i : ℕ) (topic : Option String) :
    (topicPut p asked notNull equals i topic).isOk = true ↔
      (asked i = true → ∀ t, truthy topic = some t → t ≠ NOT_NULL_FILTER →
        (eventToTopic p t).isOk = true) := by
  rw [topicPut]
  cases truthy topic with
  | none => exact iff_of_true rfl fun _ t ht => absurd ht (by simp)
  | some t =>
    by_cases hasked : asked i = true
    · by_cases hnull : t = NOT_NULL_FILTER
      · simp only [hasked, hnull, ↓reduceIte]
        exact iff_of_true rfl fun _ u hu hne => absurd (Option.some.inj hu).symm hne
      · simp only [hasked, hnull, ↓reduceIte, isOk_bind_ok, forall_const]
        constructor
        · intro h u hu _
          rw [← Option.some.inj hu]
          exact h
        · intro h
          exact h t rfl hnull
    · simp only [hasked, Bool.false_eq_true, ↓reduceIte]
      exact iff_of_true rfl fun h => absurd h (by simp)

end OnePosition

end SubqlEthereum.Dictionary
