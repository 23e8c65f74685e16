import SubqlEthereum.Library.Fallible

/-!
# What the positions of a list put out

A loop over the positions of a list that puts out entries named after the position.  As long as the
names are different, the entries of a name are those of its position: `atPositions_filter`.
-/

namespace SubqlEthereum.Positions

open SubqlEthereum.Fallible

variable {α β κ ε : Type}

/-- Concatenates what each position puts out, from position `i` on. -/
def atPositions (put : ℕ → α → Except ε (List β)) : ℕ → List α → Except ε (List β)
  | _, [] => .ok []
  | i, x :: xs => do
    let here ← put i x
    let later ← atPositions put (i + 1) xs
    return here ++ later

variable {put : ℕ → α → Except ε (List β)}

/-- A loop that completes past its first position, split into that position and the rest. -/
theorem atPositions_cons (i : ℕ) (x : α) (xs : List α) (out : List β)
    (h : atPositions put i (x :: xs) = .ok out) :
    ∃ here later, put i x = .ok here ∧ atPositions put (i + 1) xs = .ok later ∧
      out = here ++ later := by
  rw [atPositions] at h
  obtain ⟨here, hhere, hrest⟩ := ok_of_bind_ok h
  obtain ⟨later, hlater, hout⟩ := ok_of_bind_ok hrest
  exact ⟨here, later, hhere, hlater, (Except.ok.inj hout).symm⟩

/-- **The loop completes when every position puts out something.** -/
theorem atPositions_isOk (xs : List α) :
    ∀ i, (atPositions put i xs).isOk = true ↔
      ∀ j x, xs[j]? = some x → (put (i + j) x).isOk = true := by
  induction xs with
  | nil =>
    intro i
    exact iff_of_true rfl fun j x hx => absurd hx (by simp)
  | cons y ys ih =>
    intro i
    rw [atPositions, isOk_bind_bind, Bool.and_eq_true, ih (i + 1)]
    constructor
    · intro h j x hx
      cases j with
      | zero =>
        obtain rfl : y = x := by simpa using hx
        exact h.1
      | succ j =>
        rw [Nat.add_comm j 1, ← Nat.add_assoc]
        exact h.2 j x (by simpa using hx)
    · intro h
      refine ⟨h 0 y rfl, fun j x hx => ?_⟩
      rw [Nat.add_assoc, Nat.add_comm 1 j]
      exact h (j + 1) x (by simpa using hx)

variable {key : β → κ} {name : ℕ → κ}

/-- Every entry is named after one of the positions. -/
theorem atPositions_key (hput : ∀ i x out, put i x = .ok out → ∀ b ∈ out, key b = name i)
    (xs : List α) :
    ∀ i out, atPositions put i xs = .ok out →
      ∀ b ∈ out, ∃ j, i ≤ j ∧ j < i + xs.length ∧ key b = name j := by
  induction xs with
  | nil =>
    intro i out h b hb
    rw [← Except.ok.inj h] at hb
    exact absurd hb List.not_mem_nil
  | cons x xs ih =>
    intro i out h b hb
    obtain ⟨here, later, hhere, hlater, rfl⟩ := atPositions_cons i x xs out h
    rw [List.length_cons]
    rcases List.mem_append.mp hb with hfirst | hrest
    · exact ⟨i, Nat.le_refl i, by omega, hput i x here hhere b hfirst⟩
    · obtain ⟨j, hj, hlt, hkey⟩ := ih (i + 1) later hlater b hrest
      exact ⟨j, by omega, by omega, hkey⟩

/-- **The entries of a name are those of its position.** -/
theorem atPositions_filter [DecidableEq κ]
    (hput : ∀ i x out, put i x = .ok out → ∀ b ∈ out, key b = name i) (bound : ℕ)
    (hname : ∀ i < bound, ∀ j < bound, name i = name j → i = j) (xs : List α) :
    ∀ i out, i + xs.length ≤ bound → atPositions put i xs = .ok out →
      ∀ j x, xs[j]? = some x →
        ∃ here, put (i + j) x = .ok here ∧ out.filter (fun b => key b = name (i + j)) = here := by
  induction xs with
  | nil =>
    intro i out _ _ j x hx
    exact absurd hx (by simp)
  | cons y xs ih =>
    intro i out hbound h j x hx
    obtain ⟨here, later, hhere, hlater, rfl⟩ := atPositions_cons i y xs out h
    rw [List.length_cons] at hbound
    rw [List.filter_append]
    cases j with
    | zero =>
      obtain rfl : y = x := by simpa using hx
      refine ⟨here, hhere, ?_⟩
      have hall : here.filter (fun b => key b = name (i + 0)) = here := by
        rw [List.filter_eq_self]
        intro b hb
        simpa using hput i y here hhere b hb
      have hnone : later.filter (fun b => key b = name (i + 0)) = [] := by
        rw [List.filter_eq_nil_iff]
        intro b hb
        obtain ⟨k, hk, hlt, hkey⟩ := atPositions_key hput xs (i + 1) later hlater b hb
        rw [decide_eq_true_eq, hkey]
        intro hsame
        have hik := hname k (by omega) (i + 0) (by omega) hsame
        omega
      rw [hall, hnone, List.append_nil]
    | succ j =>
      have hlt : j < xs.length := by
        rw [List.getElem?_cons_succ] at hx
        exact (List.getElem?_eq_some_iff.mp hx).1
      obtain ⟨there, hthere, hfilter⟩ :=
        ih (i + 1) later (by omega) hlater j x (by simpa using hx)
      rw [show i + 1 + j = i + (j + 1) by omega] at hthere hfilter
      refine ⟨there, hthere, ?_⟩
      have hnone : here.filter (fun b => key b = name (i + (j + 1))) = [] := by
        rw [List.filter_eq_nil_iff]
        intro b hb
        rw [decide_eq_true_eq, hput i y here hhere b hb]
        intro hsame
        have hij := hname i (by omega) (i + (j + 1)) (by omega) hsame
        omega
      rw [hnone, List.nil_append, hfilter]

end SubqlEthereum.Positions
