import Mathlib.Data.List.Sort

/-!
# Grouping and de-duplicating a list by a key

`uniqBy` keeps the first element of each key, `groupBy` collects the elements of each key under
the key's first occurrence, and `sortBy` is a stable sort by a key.  The lemmas say what a
consumer of the results needs: nothing is lost (every element has a representative of its own
key) and nothing is invented.
-/

namespace SubqlEthereum.Grouping

section Keys

variable {α κ : Type*} [DecidableEq κ]

/-- Keeps the first element of each key, in order of first occurrence. -/
def uniqBy (key : α → κ) : List α → List α
  | [] => []
  | x :: xs => x :: (uniqBy key xs).filter fun y => key y ≠ key x

/-- The distinct elements in order of first occurrence. -/
def uniq (l : List κ) : List κ := uniqBy id l

/-- The groups of equal keys, in order of each key's first occurrence. -/
def groupBy (key : α → κ) (l : List α) : List (κ × List α) :=
  (uniq (l.map key)).map fun k => (k, l.filter fun x => key x = k)

theorem mem_of_mem_uniqBy (key : α → κ) (l : List α) (x : α) (h : x ∈ uniqBy key l) : x ∈ l := by
  induction l with
  | nil => exact h
  | cons y ys ih =>
    rw [uniqBy, List.mem_cons, List.mem_filter] at h
    rcases h with rfl | h
    · exact List.mem_cons_self
    · exact List.mem_cons_of_mem y (ih h.1)

/-- **Nothing is lost**: every element's key survives in the element kept for it. -/
theorem exists_mem_uniqBy (key : α → κ) (l : List α) (x : α) (h : x ∈ l) :
    ∃ y ∈ uniqBy key l, key y = key x := by
  induction l with
  | nil => exact absurd h List.not_mem_nil
  | cons z zs ih =>
    by_cases hz : key z = key x
    · exact ⟨z, List.mem_cons_self, hz⟩
    · rcases List.mem_cons.mp h with rfl | hx
      · exact absurd rfl hz
      · obtain ⟨y, hy, hk⟩ := ih hx
        refine ⟨y, List.mem_cons_of_mem z (List.mem_filter.mpr ⟨hy, ?_⟩), hk⟩
        rw [hk]
        simpa using Ne.symm hz

theorem mem_uniq (l : List κ) (k : κ) : k ∈ uniq l ↔ k ∈ l := by
  constructor
  · exact mem_of_mem_uniqBy id l k
  · intro h
    obtain ⟨y, hy, hk⟩ := exists_mem_uniqBy id l k h
    rwa [← show y = k from hk]

/-- The elements kept have different keys. -/
theorem nodup_uniqBy (key : α → κ) (l : List α) : ((uniqBy key l).map key).Nodup := by
  induction l with
  | nil => exact List.nodup_nil
  | cons x xs ih =>
    rw [uniqBy, List.map_cons, List.nodup_cons]
    constructor
    · intro hmem
      obtain ⟨y, hy, hkey⟩ := List.mem_map.mp hmem
      exact absurd hkey (of_decide_eq_true (List.mem_filter.mp hy).2)
    · exact ih.sublist (List.filter_sublist.map key)

theorem nodup_uniq (l : List κ) : (uniq l).Nodup := by
  have h := nodup_uniqBy id l
  rwa [List.map_id] at h

/-- No two groups have the same key. -/
theorem nodup_groupBy (key : α → κ) (l : List α) : ((groupBy key l).map Prod.fst).Nodup := by
  have hkeys : (groupBy key l).map Prod.fst = uniq (l.map key) := by
    rw [groupBy, List.map_map]
    exact List.map_id _
  rw [hkeys]
  exact nodup_uniq _

/-- **What a group is**: a key that occurs, with all the elements of that key. -/
theorem mem_groupBy (key : α → κ) (l : List α) (k : κ) (xs : List α) :
    (k, xs) ∈ groupBy key l ↔ (∃ x ∈ l, key x = k) ∧ xs = l.filter fun x => key x = k := by
  simp only [groupBy, List.mem_map, mem_uniq, Prod.mk.injEq]
  constructor
  · rintro ⟨k', ⟨x, hx, rfl⟩, rfl, rfl⟩
    exact ⟨⟨x, hx, rfl⟩, rfl⟩
  · rintro ⟨⟨x, hx, hk⟩, hxs⟩
    exact ⟨k, ⟨x, hx, hk⟩, rfl, hxs.symm⟩

/-- Every element is in the group of its key. -/
theorem exists_mem_groupBy (key : α → κ) (l : List α) (x : α) (h : x ∈ l) :
    ∃ xs, (key x, xs) ∈ groupBy key l ∧ x ∈ xs :=
  ⟨_, (mem_groupBy key l _ _).mpr ⟨⟨x, h, rfl⟩, rfl⟩, List.mem_filter.mpr ⟨h, by simp⟩⟩

/-- A group is not empty, and its elements are elements of the list with the group's key. -/
theorem groupBy_group (key : α → κ) (l : List α) (k : κ) (xs : List α)
    (h : (k, xs) ∈ groupBy key l) : xs ≠ [] ∧ ∀ x ∈ xs, x ∈ l ∧ key x = k := by
  obtain ⟨⟨x, hx, hk⟩, rfl⟩ := (mem_groupBy key l k xs).mp h
  refine ⟨List.ne_nil_of_mem (List.mem_filter.mpr ⟨hx, by simpa using hk⟩), ?_⟩
  intro y hy
  obtain ⟨hyl, hyk⟩ := List.mem_filter.mp hy
  exact ⟨hyl, by simpa using hyk⟩

/-- Keys other than `k` select nothing from the elements of key `k`. -/
theorem flatMap_filter_of_not_mem (key : α → κ) (k : κ) (keys : List κ) (hk : k ∉ keys)
    (l : List α) :
    (keys.flatMap fun k' => l.filter fun x => key x = k') =
      keys.flatMap fun k' => (l.filter fun x => ¬key x = k).filter fun x => key x = k' := by
  apply List.flatMap_congr
  intro k' hk'
  rw [List.filter_filter]
  apply List.filter_congr
  intro x hx
  have hne : k' ≠ k := fun h => hk (h ▸ hk')
  by_cases hx : key x = k'
  · simp [hx, hne]
  · simp [hx]

/-- The elements of the other keys are covered by the other keys. -/
theorem mem_of_mem_filter_not (key : α → κ) (k : κ) (keys : List κ) (l : List α)
    (hcover : ∀ x ∈ l, key x ∈ k :: keys) : ∀ x ∈ l.filter fun x => ¬key x = k, key x ∈ keys := by
  intro x hx
  obtain ⟨hxl, hxk⟩ := List.mem_filter.mp hx
  rcases List.mem_cons.mp (hcover x hxl) with h | h
  · exact absurd h (by simpa using hxk)
  · exact h

/-- **Selecting by distinct keys that cover a list rearranges it.**  The induction is on the keys:
the elements with the first key are selected, and the other keys select from the rest. -/
theorem flatMap_filter_perm (key : α → κ) (keys : List κ) (hnodup : keys.Nodup) :
    ∀ l : List α, (∀ x ∈ l, key x ∈ keys) →
      (keys.flatMap fun k => l.filter fun x => key x = k).Perm l := by
  induction keys with
  | nil =>
    intro l hcover
    have hnil : l = [] := by
      rw [List.eq_nil_iff_forall_not_mem]
      intro x hx
      exact absurd (hcover x hx) List.not_mem_nil
    rw [hnil]
    exact List.Perm.refl []
  | cons k ks ih =>
    intro l hcover
    obtain ⟨hk, hks⟩ := List.nodup_cons.mp hnodup
    have hih := ih hks _ (mem_of_mem_filter_not key k ks l hcover)
    rw [List.flatMap_cons, flatMap_filter_of_not_mem key k ks hk]
    have hsplit : (l.filter (fun x => key x = k) ++ l.filter fun x => ¬key x = k).Perm l := by
      have happend := List.filter_append_perm (fun x => decide (key x = k)) l
      simpa only [decide_not] using happend
    exact (hih.append_left _).trans hsplit

/-- Elements of key `k` that all come first are the front of the list. -/
theorem filter_append_filter_not (key : α → κ) (k : κ) (l : List α)
    (hfirst : l.Pairwise fun a b => key b = k → key a = k) :
    l.filter (fun x => key x = k) ++ l.filter (fun x => ¬key x = k) = l := by
  induction l with
  | nil => rfl
  | cons x xs ih =>
    obtain ⟨hx, hxs⟩ := List.pairwise_cons.mp hfirst
    by_cases hkey : key x = k
    · rw [List.filter_cons_of_pos (by simpa using hkey),
        List.filter_cons_of_neg (by simpa using hkey), List.cons_append, ih hxs]
    · have hnone : ∀ y ∈ xs, ¬key y = k := fun y hy h => hkey (hx y hy h)
      have hempty : xs.filter (fun y => key y = k) = [] := by
        simpa [List.filter_eq_nil_iff] using hnone
      have hall : xs.filter (fun y => ¬key y = k) = xs := by
        simpa [List.filter_eq_self] using hnone
      rw [List.filter_cons_of_neg (by simpa using hkey), hempty, List.nil_append,
        List.filter_cons_of_pos (by simpa using hkey), hall]

/-- **Selecting by distinct keys from a list already in their order changes nothing.**  The
induction is on the keys, as in `flatMap_filter_perm`. -/
theorem flatMap_filter_sorted (key : α → κ) (keys : List κ) (hnodup : keys.Nodup) :
    ∀ l : List α, (∀ x ∈ l, key x ∈ keys) →
      (l.Pairwise fun a b => keys.idxOf (key a) ≤ keys.idxOf (key b)) →
      (keys.flatMap fun k => l.filter fun x => key x = k) = l := by
  induction keys with
  | nil =>
    intro l hcover hsorted
    have hnil : l = [] := by
      rw [List.eq_nil_iff_forall_not_mem]
      intro x hx
      exact absurd (hcover x hx) List.not_mem_nil
    rw [hnil]
    rfl
  | cons k ks ih =>
    intro l hcover hsorted
    obtain ⟨hk, hks⟩ := List.nodup_cons.mp hnodup
    -- the first key has index zero, so its elements come first
    have hfirst : l.Pairwise fun a b => key b = k → key a = k := by
      apply hsorted.imp
      intro a b hle hb
      rw [hb, List.idxOf_cons_self, Nat.le_zero] at hle
      by_contra hne
      rw [List.idxOf_cons_ne _ (Ne.symm hne)] at hle
      exact absurd hle (Nat.succ_ne_zero _)
    have hrest : (l.filter fun x => ¬key x = k).Pairwise
        fun a b => ks.idxOf (key a) ≤ ks.idxOf (key b) := by
      have hfiltered := List.Pairwise.filter (fun x => ¬key x = k) hsorted
      apply hfiltered.imp_of_mem
      intro a b ha hb hle
      have hak : key a ≠ k := by simpa using (List.mem_filter.mp ha).2
      have hbk : key b ≠ k := by simpa using (List.mem_filter.mp hb).2
      rw [List.idxOf_cons_ne _ hak.symm, List.idxOf_cons_ne _ hbk.symm] at hle
      omega
    rw [List.flatMap_cons, flatMap_filter_of_not_mem key k ks hk,
      ih hks _ (mem_of_mem_filter_not key k ks l hcover) hrest]
    exact filter_append_filter_not key k l hfirst

end Keys

section Sorting

variable {α κ : Type*} [LE κ] [DecidableRel ((· ≤ ·) : κ → κ → Prop)]

/-- Sorts by a key; elements of equal keys keep their order. -/
def sortBy (key : α → κ) (l : List α) : List α := l.insertionSort fun a b => key a ≤ key b

theorem sortBy_perm (key : α → κ) (l : List α) : (sortBy key l).Perm l :=
  List.perm_insertionSort _ l

end Sorting

end SubqlEthereum.Grouping
