import Mathlib.Data.List.Induction
import Mathlib.Data.List.Nodup

/-!
# The last entry under a key

A map that is filled from a list, entry by entry, holds the last entry under each key.  With
distinct keys the order of the list does not matter, which is `insertAll_perm`.
-/

namespace SubqlEthereum.LastEntry

variable {α κ : Type*}

/-- `x` has the key `k` and no later entry has it. -/
def LastUnder (key : α → κ) (xs : List α) (k : κ) (x : α) : Prop :=
  ∃ front back, xs = front ++ x :: back ∧ key x = k ∧ ∀ later ∈ back, key later ≠ k

/-- An entry at the end is the last one under its key. -/
theorem lastUnder_concat_same (key : α → κ) (xs : List α) (last x : α) :
    LastUnder key (xs ++ [last]) (key last) x ↔ last = x := by
  constructor
  · intro h
    obtain ⟨front, back, hsplit, _, hlater⟩ := h
    rcases List.eq_nil_or_concat back with hback | ⟨rest, other, hback⟩
    · rw [hback] at hsplit
      have hsame := (List.append_inj' hsplit rfl).2
      exact List.head_eq_of_cons_eq hsame
    · rw [hback, List.concat_eq_append, ← List.cons_append, ← List.append_assoc] at hsplit
      have hsame := List.head_eq_of_cons_eq (List.append_inj' hsplit rfl).2
      exact absurd (congrArg key hsame.symm) (hlater other (by simp [hback]))
  · intro h
    rw [h]
    exact ⟨xs, [], rfl, rfl, fun later hlater => absurd hlater List.not_mem_nil⟩

/-- An entry at the end does not matter to another key. -/
theorem lastUnder_concat_other (key : α → κ) (xs : List α) (last : α) (k : κ) (hk : key last ≠ k)
    (x : α) : LastUnder key (xs ++ [last]) k x ↔ LastUnder key xs k x := by
  constructor
  · intro h
    obtain ⟨front, back, hsplit, hkey, hlater⟩ := h
    rcases List.eq_nil_or_concat back with hback | ⟨rest, other, hback⟩
    · rw [hback] at hsplit
      have hsame := List.head_eq_of_cons_eq (List.append_inj' hsplit rfl).2
      exact absurd (hsame ▸ hkey) hk
    · rw [hback, List.concat_eq_append, ← List.cons_append, ← List.append_assoc] at hsplit
      refine ⟨front, rest, (List.append_inj' hsplit rfl).1, hkey, ?_⟩
      intro later hmem
      exact hlater later (by simp [hback, hmem])
  · intro h
    obtain ⟨front, back, hsplit, hkey, hlater⟩ := h
    refine ⟨front, back ++ [last], by simp [hsplit], hkey, ?_⟩
    intro later hmem
    rcases List.mem_append.mp hmem with hin | hin
    · exact hlater later hin
    · rw [List.mem_singleton.mp hin]
      exact hk

theorem lastUnder_iff_of_nodup (key : α → κ) (xs : List α) (hdistinct : (xs.map key).Nodup) (k : κ)
    (x : α) : LastUnder key xs k x ↔ x ∈ xs ∧ key x = k := by
  constructor
  · intro h
    obtain ⟨front, back, hsplit, hkey, _⟩ := h
    exact ⟨by simp [hsplit], hkey⟩
  · intro h
    obtain ⟨hmem, hkey⟩ := h
    obtain ⟨front, back, hsplit⟩ := List.append_of_mem hmem
    refine ⟨front, back, hsplit, hkey, ?_⟩
    intro later hlater hsame
    rw [hsplit, List.map_append, List.map_cons] at hdistinct
    apply (List.nodup_cons.mp (List.Nodup.of_append_right hdistinct)).1
    rw [hkey, ← hsame]
    exact List.mem_map_of_mem hlater

/-! ### Filling a map -/

variable [DecidableEq κ]

/-- The map that inserts the entries of a list in order. -/
def insertAll (key : α → κ) (xs : List α) : κ → Option α :=
  xs.foldl (fun entries x k => if k = key x then some x else entries k) fun _ => none

theorem insertAll_concat (key : α → κ) (xs : List α) (last : α) (k : κ) :
    insertAll key (xs ++ [last]) k = if k = key last then some last else insertAll key xs k := by
  rw [insertAll, List.foldl_append]
  rfl

theorem insertAll_eq_none_iff (key : α → κ) (xs : List α) (k : κ) :
    insertAll key xs k = none ↔ ∀ x ∈ xs, key x ≠ k := by
  induction xs using List.reverseRecOn with
  | nil => simp [insertAll]
  | append_singleton xs last ih =>
    rw [insertAll_concat, List.forall_mem_append, List.forall_mem_singleton]
    by_cases h : k = key last
    · rw [if_pos h]
      simp [h]
    · rw [if_neg h, ih]
      exact (and_iff_left (Ne.symm h)).symm

/-- **The map holds the last entry under each key.** -/
theorem insertAll_eq_some_iff (key : α → κ) (xs : List α) (k : κ) (x : α) :
    insertAll key xs k = some x ↔ LastUnder key xs k x := by
  induction xs using List.reverseRecOn with
  | nil => simp [insertAll, LastUnder]
  | append_singleton xs last ih =>
    rw [insertAll_concat]
    by_cases h : k = key last
    · rw [if_pos h, Option.some_inj, h]
      exact (lastUnder_concat_same key xs last x).symm
    · rw [if_neg h, ih]
      exact (lastUnder_concat_other key xs last k (Ne.symm h) x).symm

theorem mem_of_insertAll (key : α → κ) (xs : List α) (k : κ) (x : α)
    (h : insertAll key xs k = some x) : x ∈ xs := by
  obtain ⟨front, back, hsplit, _, _⟩ := (insertAll_eq_some_iff key xs k x).mp h
  rw [hsplit]
  exact List.mem_append_right front List.mem_cons_self

theorem insertAll_perm (key : α → κ) (xs ys : List α) (hperm : xs.Perm ys)
    (hdistinct : (xs.map key).Nodup) : insertAll key xs = insertAll key ys := by
  have hdistinct' : (ys.map key).Nodup := (hperm.map key).nodup_iff.mp hdistinct
  funext k
  apply Option.ext
  intro x
  rw [insertAll_eq_some_iff, insertAll_eq_some_iff, lastUnder_iff_of_nodup key xs hdistinct,
    lastUnder_iff_of_nodup key ys hdistinct', hperm.mem_iff]

end SubqlEthereum.LastEntry
