import Mathlib.Data.List.Flatten
import Mathlib.Data.List.Nodup

/-!
# Items shipped in batches

Items wait in a list and are shipped in batches, in the order of their arrival.  When no two items
share a key, an item stands in one place only, among those waiting or in a single batch.
-/

namespace SubqlEthereum.Batches

variable {α β : Type*}

/-- An item waits and was never shipped, or was shipped in one batch and does not wait. -/
def InOnePlace (batches : List (List α)) (waiting : List α) (x : α) : Prop :=
  (x ∈ waiting ∧ ∀ batch ∈ batches, x ∉ batch) ∨
    (x ∉ waiting ∧ ∃! i : ℕ, ∃ batch, batches[i]? = some batch ∧ x ∈ batch)

/-- No item of a batch has the key of one that waits. -/
theorem waiting_apart (key : α → β) (batches : List (List α)) (waiting : List α)
    (hnodup : ((batches.flatten ++ waiting).map key).Nodup) (batch : List α)
    (hbatch : batch ∈ batches) (x y : α) (hx : x ∈ batch) (hy : y ∈ waiting) : key x ≠ key y := by
  rw [List.map_append] at hnodup
  have hdisjoint := List.disjoint_of_nodup_append hnodup
  intro hkey
  apply hdisjoint (List.mem_map_of_mem (List.mem_flatten_of_mem hbatch hx))
  rw [hkey]
  exact List.mem_map_of_mem hy

/-- Two batches with items of one key are the same batch. -/
theorem batches_apart (key : α → β) (batches : List (List α)) (waiting : List α)
    (hnodup : ((batches.flatten ++ waiting).map key).Nodup) (i j : ℕ) (batch batch' : List α)
    (hi : batches[i]? = some batch) (hj : batches[j]? = some batch') (x y : α) (hx : x ∈ batch)
    (hy : y ∈ batch') (hkey : key x = key y) : i = j := by
  rw [List.map_append, List.map_flatten] at hnodup
  have hpairwise := (List.nodup_flatten.mp (List.Nodup.of_append_left hnodup)).2
  obtain ⟨hi', hgeti⟩ := List.getElem?_eq_some_iff.mp hi
  obtain ⟨hj', hgetj⟩ := List.getElem?_eq_some_iff.mp hj
  have hdisjoint := List.pairwise_iff_getElem.mp hpairwise
  have hxi : key x ∈ batch.map key := List.mem_map_of_mem hx
  have hyj : key x ∈ batch'.map key := hkey ▸ List.mem_map_of_mem hy
  rcases Nat.lt_trichotomy i j with h | h | h
  · have := hdisjoint i j (by simpa using hi') (by simpa using hj') h
    simp only [List.getElem_map, hgeti, hgetj] at this
    exact absurd hyj (this hxi)
  · exact h
  · have := hdisjoint j i (by simpa using hj') (by simpa using hi') h
    simp only [List.getElem_map, hgeti, hgetj] at this
    exact absurd hxi (this hyj)

/-- The items of a batch have distinct keys. -/
theorem batch_nodup (key : α → β) (batches : List (List α)) (waiting : List α)
    (hnodup : ((batches.flatten ++ waiting).map key).Nodup) (batch : List α)
    (hbatch : batch ∈ batches) : (batch.map key).Nodup := by
  rw [List.map_append, List.map_flatten] at hnodup
  apply (List.nodup_flatten.mp (List.Nodup.of_append_left hnodup)).1
  exact List.mem_map_of_mem hbatch

/-- **Nothing is lost and nothing is shipped twice.** -/
theorem inOnePlace (key : α → β) (batches : List (List α)) (waiting : List α)
    (hnodup : ((batches.flatten ++ waiting).map key).Nodup) (x : α)
    (hx : x ∈ batches.flatten ++ waiting) : InOnePlace batches waiting x := by
  rcases List.mem_append.mp hx with hshipped | hwaiting
  · obtain ⟨batch, hbatch, hmem⟩ := List.mem_flatten.mp hshipped
    obtain ⟨i, hi⟩ := List.mem_iff_getElem?.mp hbatch
    right
    refine ⟨?_, i, ⟨batch, hi, hmem⟩, ?_⟩
    · intro hwaits
      exact waiting_apart key batches waiting hnodup batch hbatch x x hmem hwaits rfl
    · intro j hj
      obtain ⟨batch', hj, hmem'⟩ := hj
      exact batches_apart key batches waiting hnodup j i batch' batch hj hi x x hmem' hmem rfl
  · left
    refine ⟨hwaiting, ?_⟩
    intro batch hbatch hmem
    exact waiting_apart key batches waiting hnodup batch hbatch x x hmem hwaiting rfl

end SubqlEthereum.Batches
