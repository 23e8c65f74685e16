import Mathlib.Data.Bool.Count
import Mathlib.Data.Nat.Notation
import Mathlib.Tactic.TypeStar
import Mathlib.Data.List.Induction
import Mathlib.Order.Defs.PartialOrder

/-!
# Tallies in windows of a fixed length

A tally counts successes and failures next to a value.  When the counts of a window are complete
the value is reconsidered, from the number of successes among them, and the counters start again.

`run_partial` and `run_window` say what the counts of a part of a window and of its rest do,
`recent` that the counters are about the last counts.  Counts in which every success comes right
after a failure fill no window with successes (`LedByFailure.not_full`).
-/

namespace SubqlEthereum.CountWindows

variable {σ : Type*}

structure Tally (σ : Type*) where
  value : σ
  successes : ℕ
  failures : ℕ

/-- One count.  `reconsider` is given the value and the successes of the window it closes. -/
def Tally.count (interval : ℕ) (reconsider : σ → ℕ → σ) (t : Tally σ) (success : Bool) : Tally σ :=
  let successes := t.successes + success.toNat
  let failures := t.failures + (!success).toNat
  if successes + failures = interval then ⟨reconsider t.value successes, 0, 0⟩
  else ⟨t.value, successes, failures⟩

/-- Several counts, in order. -/
def Tally.run (interval : ℕ) (reconsider : σ → ℕ → σ) (t : Tally σ) (counts : List Bool) :
    Tally σ :=
  counts.foldl (Tally.count interval reconsider) t

/-- A window is open, or about to be opened. -/
def Tally.Open (interval : ℕ) (t : Tally σ) : Prop := t.successes + t.failures < interval

/-- Between two windows. -/
def Tally.Fresh (t : Tally σ) : Prop := t.successes = 0 ∧ t.failures = 0

variable {interval : ℕ} {reconsider : σ → ℕ → σ}

theorem Tally.Fresh.open {t : Tally σ} (hinterval : 0 < interval) (h : t.Fresh) :
    t.Open interval := by
  show t.successes + t.failures < interval
  rw [h.1, h.2]
  exact hinterval

theorem run_append (t : Tally σ) (front back : List Bool) :
    t.run interval reconsider (front ++ back) =
      (t.run interval reconsider front).run interval reconsider back :=
  List.foldl_append

theorem run_cons (t : Tally σ) (success : Bool) (counts : List Bool) :
    t.run interval reconsider (success :: counts) =
      (t.count interval reconsider success).run interval reconsider counts := rfl

/-- One more count goes to one of the two counters. -/
theorem counted_succ (t : Tally σ) (success : Bool) :
    t.successes + success.toNat + (t.failures + (!success).toNat) =
      t.successes + t.failures + 1 := by
  cases success
  · show t.successes + 0 + (t.failures + 1) = t.successes + t.failures + 1
    omega
  · show t.successes + 1 + (t.failures + 0) = t.successes + t.failures + 1
    omega

/-- The count that completes a window. -/
theorem count_closing (t : Tally σ) (success : Bool)
    (h : t.successes + t.failures + 1 = interval) :
    t.count interval reconsider success =
      ⟨reconsider t.value (t.successes + success.toNat), 0, 0⟩ := by
  rw [Tally.count]
  simp only [counted_succ, h, ↓reduceIte]

/-- Any other count. -/
theorem count_within (t : Tally σ) (success : Bool)
    (h : t.successes + t.failures + 1 ≠ interval) :
    t.count interval reconsider success =
      ⟨t.value, t.successes + success.toNat, t.failures + (!success).toNat⟩ := by
  rw [Tally.count]
  simp only [counted_succ, h, ↓reduceIte]

theorem open_count (reconsider : σ → ℕ → σ) (hinterval : 0 < interval) (t : Tally σ)
    (success : Bool) (h : t.Open interval) :
    (t.count interval reconsider success).Open interval := by
  have hopen : t.successes + t.failures < interval := h
  by_cases hlast : t.successes + t.failures + 1 = interval
  · rw [count_closing t success hlast]
    exact hinterval
  · rw [count_within t success hlast]
    show t.successes + success.toNat + (t.failures + (!success).toNat) < interval
    rw [counted_succ]
    omega

/-- **A window stays open or is closed in time.** -/
theorem open_run (reconsider : σ → ℕ → σ) (hinterval : 0 < interval) (t : Tally σ)
    (counts : List Bool) (h : t.Open interval) :
    (t.run interval reconsider counts).Open interval := by
  induction counts generalizing t with
  | nil => exact h
  | cons success counts ih => exact ih _ (open_count reconsider hinterval t success h)

/-- **Fewer counts than the window lacks** are all kept. -/
theorem run_partial (t : Tally σ) (counts : List Bool)
    (h : t.successes + t.failures + counts.length < interval) :
    t.run interval reconsider counts =
      ⟨t.value, t.successes + counts.count true, t.failures + counts.count false⟩ := by
  induction counts generalizing t with
  | nil => rfl
  | cons success counts ih =>
    rw [List.length_cons] at h
    rw [run_cons, count_within t success (by omega), ih]
    · cases success
      · simp only [Bool.toNat_false, Bool.not_false, Bool.toNat_true, Nat.add_zero,
          List.count_cons_self, Tally.mk.injEq, true_and]
        refine ⟨by simp, by omega⟩
      · simp only [Bool.toNat_true, Bool.not_true, Bool.toNat_false, Nat.add_zero,
          List.count_cons_self, Tally.mk.injEq, true_and]
        refine ⟨by omega, by simp⟩
    · show t.successes + success.toNat + (t.failures + (!success).toNat) + counts.length < interval
      rw [counted_succ]
      omega

/-- **The counts a window lacks** close it. -/
theorem run_window (t : Tally σ) (counts : List Bool) (hcounts : counts ≠ [])
    (h : t.successes + t.failures + counts.length = interval) :
    t.run interval reconsider counts =
      ⟨reconsider t.value (t.successes + counts.count true), 0, 0⟩ := by
  obtain ⟨front, last, hsplit⟩ := (List.eq_nil_or_concat counts).resolve_left hcounts
  rw [List.concat_eq_append] at hsplit
  rw [hsplit, List.length_append, List.length_singleton] at h
  rw [hsplit, run_append, run_partial t front (by omega), run_cons, count_closing]
  · rw [List.count_append]
    cases last <;> rfl
  · show t.successes + front.count true + (t.failures + front.count false) + 1 = interval
    have hlength := List.count_true_add_count_false front
    omega

/-- The counts of one window, from its beginning. -/
theorem run_whole_window (t : Tally σ) (ht : t.Fresh) (window : List Bool) (hwindow : window ≠ [])
    (hlength : window.length = interval) :
    t.run interval reconsider window = ⟨reconsider t.value (window.count true), 0, 0⟩ := by
  have hsum : t.successes + t.failures + window.length = interval := by
    rw [ht.1, ht.2]
    omega
  rw [run_window t window hwindow hsum, ht.1, Nat.zero_add]

/-! ### What the counters are about -/

/-- The counters of a tally that started fresh are those of the counts since the last window. -/
theorem recent (interval : ℕ) (reconsider : σ → ℕ → σ) (t : Tally σ) (ht : t.Fresh)
    (counts : List Bool) :
    ∃ older since, counts = older ++ since ∧
      (t.run interval reconsider counts).successes = since.count true ∧
      (t.run interval reconsider counts).failures = since.count false := by
  induction counts using List.reverseRecOn with
  | nil => exact ⟨[], [], rfl, ht.1, ht.2⟩
  | append_singleton counts success ih =>
    obtain ⟨older, since, hsplit, hsuccesses, hfailures⟩ := ih
    rw [run_append]
    show ∃ older' since', _ ∧
      ((t.run interval reconsider counts).count interval reconsider success).successes = _ ∧
      ((t.run interval reconsider counts).count interval reconsider success).failures = _
    by_cases hlast : (t.run interval reconsider counts).successes +
        (t.run interval reconsider counts).failures + 1 = interval
    · rw [count_closing _ success hlast]
      exact ⟨counts ++ [success], [], (List.append_nil _).symm, rfl, rfl⟩
    · rw [count_within _ success hlast, hsuccesses, hfailures]
      refine ⟨older, since ++ [success], by rw [hsplit, List.append_assoc], ?_, ?_⟩
      · cases success <;> simp
      · cases success <;> simp

/-- **A count that closes a window** is the last one of it, and the successes are those of the
window. -/
theorem closing_recent (interval : ℕ) (reconsider : σ → ℕ → σ) (t : Tally σ) (ht : t.Fresh)
    (counts : List Bool) (success : Bool)
    (h : (t.run interval reconsider counts).successes +
      (t.run interval reconsider counts).failures + 1 = interval) :
    ∃ older window, counts ++ [success] = older ++ window ∧ window.length = interval ∧
      (t.run interval reconsider counts).successes + success.toNat = window.count true := by
  obtain ⟨older, since, hsplit, hsuccesses, hfailures⟩ :=
    recent interval reconsider t ht counts
  refine ⟨older, since ++ [success], by rw [← List.append_assoc, ← hsplit], ?_, ?_⟩
  · have hlength := List.count_true_add_count_false since
    rw [List.length_append, List.length_singleton]
    omega
  · rw [hsuccesses, List.count_append]
    cases success <;> rfl

/-- Counts none of which raises the value do not raise it together. -/
theorem run_value_le [Preorder σ] (t : Tally σ) (counts : List Bool)
    (h : ∀ front success back, counts = front ++ success :: back →
      ((t.run interval reconsider front).count interval reconsider success).value ≤
        (t.run interval reconsider front).value) :
    (t.run interval reconsider counts).value ≤ t.value := by
  induction counts using List.reverseRecOn with
  | nil => exact le_refl _
  | append_singleton counts success ih =>
    rw [run_append]
    have hlast := h counts success [] rfl
    have hearlier := ih fun front other back hsplit =>
      h front other (back ++ [success]) (by rw [hsplit, List.append_assoc, List.cons_append])
    exact le_trans hlast hearlier

/-! ### Successes that follow failures -/

/-- Every success comes right after a failure. -/
def LedByFailure (counts : List Bool) : Prop :=
  (true :: counts).IsChain fun before after => before = true → after = false

theorem ledByFailure_nil : LedByFailure [] := List.isChain_singleton true

/-- Failures, and then perhaps a success. -/
theorem ledByFailure_cons (counts : List Bool)
    (h : counts.IsChain fun before after => before = true → after = false) :
    LedByFailure (false :: counts) := by
  have hfirst : ∀ after ∈ counts.head?, false = true → after = false :=
    fun _ _ hfalse => absurd hfalse (by simp)
  refine List.isChain_cons_cons.mpr ⟨fun _ => rfl, ?_⟩
  exact List.isChain_cons.mpr ⟨hfirst, h⟩

/-- One failure for each element of a list, and then a success. -/
theorem ledByFailure_failures {α : Type*} (failed : List α) (hfailed : failed ≠ []) :
    LedByFailure (failed.map (fun _ => false) ++ [true]) := by
  obtain ⟨first, rest, hsplit⟩ := List.exists_cons_of_ne_nil hfailed
  rw [hsplit]
  apply ledByFailure_cons
  show ((rest.map fun _ => false) ++ [true]).IsChain _
  clear hsplit
  induction rest with
  | nil => exact List.isChain_singleton true
  | cons second rest ih =>
    exact List.isChain_cons.mpr ⟨fun _ _ hfalse => absurd hfalse (by simp), ih⟩

theorem LedByFailure.append {front back : List Bool} (hfront : LedByFailure front)
    (hback : LedByFailure back) : LedByFailure (front ++ back) := by
  have hjoin : ∀ after ∈ back.head?, after = false := by
    intro after hafter
    exact (List.isChain_cons.mp hback).1 after hafter rfl
  show (true :: front ++ back).IsChain _
  refine List.isChain_append.mpr ⟨hfront, (List.isChain_cons.mp hback).2, ?_⟩
  intro before _ after hafter _
  exact hjoin after hafter

/-- What comes right before a success. -/
theorem LedByFailure.before_success {front back : List Bool}
    (h : LedByFailure (front ++ true :: back)) : ∃ rest, front = rest ++ [false] := by
  have hchain : (true :: front ++ true :: back).IsChain _ := h
  have hsplit := (List.isChain_append.mp hchain).2.2
  rcases List.eq_nil_or_concat front with hnil | ⟨rest, last, hlast⟩
  · rw [hnil] at hsplit
    exact absurd (hsplit true rfl true rfl rfl) (by simp)
  · rw [List.concat_eq_append] at hlast
    refine ⟨rest, ?_⟩
    cases last with
    | false => exact hlast
    | true =>
      have hin : true ∈ (true :: front).getLast? := by
        rw [hlast, ← List.cons_append, List.getLast?_concat]
        rfl
      exact absurd (hsplit true hin true rfl rfl) (by simp)

/-- Of any counts in a row, at most every second one is a success. -/
theorem two_mul_count_le : ∀ counts : List Bool,
    (counts.IsChain fun before after => before = true → after = false) →
      2 * counts.count true ≤ counts.length + 1
  | [], _ => by simp
  | [success], _ => by cases success <;> simp
  | false :: next :: rest, h => by
    have hrest := two_mul_count_le (next :: rest) (List.isChain_cons_cons.mp h).2
    rw [List.count_cons_of_ne (by simp), List.length_cons]
    omega
  | true :: next :: rest, h => by
    obtain ⟨hnext, hchain⟩ := List.isChain_cons_cons.mp h
    have hrest := two_mul_count_le rest (List.isChain_cons.mp hchain).2
    rw [hnext rfl, List.count_cons_self, List.count_cons_of_ne (by simp), List.length_cons,
      List.length_cons]
    omega

theorem LedByFailure.window {front window back : List Bool}
    (h : LedByFailure (front ++ window ++ back)) :
    2 * window.count true ≤ window.length + 1 := by
  apply two_mul_count_le
  have hall := (List.isChain_cons.mp h).2
  exact (List.isChain_append.mp (List.isChain_append.mp hall).1).2.1

/-- **No window is closed by successes only**, not even one that was opened before. -/
theorem LedByFailure.not_full (reconsider : σ → ℕ → σ) (hinterval : 1 < interval) (t : Tally σ)
    (ht : t.Open interval) {front back : List Bool} {success : Bool}
    (h : LedByFailure (front ++ success :: back)) :
    (t.run interval reconsider front).successes + success.toNat < interval := by
  have hopen := open_run reconsider (by omega) t front ht
  cases success with
  | false =>
    show (t.run interval reconsider front).successes + 0 < interval
    exact Nat.lt_of_le_of_lt (Nat.le_add_right _ _) hopen
  | true =>
    obtain ⟨rest, hrest⟩ := h.before_success
    rw [hrest, run_append] at hopen ⊢
    show ((t.run interval reconsider rest).count interval reconsider false).successes + 1 < interval
    have hopen : ((t.run interval reconsider rest).count interval reconsider false).Open interval :=
      hopen
    by_cases hlast : (t.run interval reconsider rest).successes +
        (t.run interval reconsider rest).failures + 1 = interval
    · rw [count_closing _ false hlast]
      exact hinterval
    · rw [count_within _ false hlast] at hopen ⊢
      have hlt : (t.run interval reconsider rest).successes + 0 +
        ((t.run interval reconsider rest).failures + 1) < interval := hopen
      show (t.run interval reconsider rest).successes + 0 + 1 < interval
      omega

end SubqlEthereum.CountWindows
