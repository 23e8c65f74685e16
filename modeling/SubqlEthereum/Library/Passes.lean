import Mathlib.Data.List.Forall2

/-!
# Passes over a list that skip what does nothing

A pass `l.forM f` in a lawful monad.  Where `f` does nothing the pass may leave the element out,
so two lists with the same elements that matter make the same pass (`forM_eq_of_kept`).  The same
holds of `l.flatMap f`, where what was kept of the list may have been converted in another way
(`flatMap_converted`).
-/

namespace SubqlEthereum.Passes

variable {α β : Type} {m : Type → Type} [Monad m]

theorem forM_cons_eq (f : α → m Unit) (x : α) (xs : List α) :
    (x :: xs).forM f = f x >>= fun _ => xs.forM f := rfl

/-- Elements on which the body does nothing may be left out. -/
theorem forM_filter_idle [LawfulMonad m] (keep : α → Bool) (f : α → m Unit) (l : List α)
    (hidle : ∀ x ∈ l, keep x = false → f x = pure ()) :
    (l.filter keep).forM f = l.forM f := by
  induction l with
  | nil => rfl
  | cons x xs ih =>
    have hrest : (xs.filter keep).forM f = xs.forM f :=
      ih fun y hy => hidle y (List.mem_cons_of_mem x hy)
    cases hkeep : keep x with
    | true => rw [List.filter_cons_of_pos hkeep, forM_cons_eq, forM_cons_eq, hrest]
    | false =>
      have hskip : xs.filter keep = (x :: xs).filter keep := by simp [hkeep]
      rw [← hskip, hrest, forM_cons_eq, hidle x List.mem_cons_self hkeep, pure_bind]

/-- A pass in which the body does nothing at all. -/
theorem forM_idle [LawfulMonad m] (f : α → m Unit) (l : List α) (h : ∀ x ∈ l, f x = pure ()) :
    l.forM f = pure () := by
  have hnone := forM_filter_idle (fun _ => false) f l fun x hx _ => h x hx
  rw [← hnone, List.filter_false]
  rfl

/-- **Passes over lists that keep the same elements** are the same, when the body does nothing on
the others. -/
theorem forM_eq_of_kept [LawfulMonad m] (keep : α → Bool) (f : α → m Unit) (l l' : List α)
    (hidle : ∀ x ∈ l, keep x = false → f x = pure ())
    (hidle' : ∀ x ∈ l', keep x = false → f x = pure ())
    (hkept : l.filter keep = l'.filter keep) : l.forM f = l'.forM f := by
  rw [← forM_filter_idle keep f l hidle, hkept, forM_filter_idle keep f l' hidle']

/-- Passes over related lists, whose bodies agree on related elements. -/
theorem forM_eq_of_forall₂ (R : α → β → Prop) (f : α → m Unit) (g : β → m Unit)
    (hagree : ∀ x y, R x y → f x = g y) {l : List α} {l' : List β} (h : List.Forall₂ R l l') :
    l.forM f = l'.forM g := by
  induction h with
  | nil => rfl
  | cons hxy _ ih => rw [forM_cons_eq, forM_cons_eq, hagree _ _ hxy, ih]

/-- A list is traversed without the elements that give nothing. -/
theorem flatMap_filter_nil (keep : α → Bool) (f : α → List β) (l : List α)
    (h : ∀ x ∈ l, keep x = false → f x = []) : (l.filter keep).flatMap f = l.flatMap f := by
  induction l with
  | nil => rfl
  | cons x xs ih =>
    have hrest := ih fun y hy => h y (List.mem_cons_of_mem x hy)
    cases hkeep : keep x with
    | true =>
      rw [List.filter_cons_of_pos hkeep, List.flatMap_cons, List.flatMap_cons, hrest]
    | false =>
      have hskip : (x :: xs).filter keep = xs.filter keep := by simp [hkeep]
      rw [hskip, hrest, List.flatMap_cons, h x List.mem_cons_self hkeep, List.nil_append]

/-- **Traversals of a list and of what was kept of it**, each after a conversion of its own. -/
theorem flatMap_converted {γ : Type} (keep : α → Bool) (P Q : α → β → Prop)
    (f : β → List γ) {raws : List α} {xs ys : List β} (hP : List.Forall₂ P raws xs)
    (hQ : List.Forall₂ Q (raws.filter keep) ys)
    (hdrop : ∀ raw x, x ∈ xs → P raw x → keep raw = false → f x = [])
    (hkeep : ∀ raw x y, x ∈ xs → P raw x → Q raw y → keep raw = true → f x = f y) :
    xs.flatMap f = ys.flatMap f := by
  induction hP generalizing ys with
  | nil =>
    cases hQ
    rfl
  | @cons raw x raws xs hx _ ih =>
    have hdrop' : ∀ raw y, y ∈ xs → P raw y → keep raw = false → f y = [] :=
      fun raw y hy => hdrop raw y (List.mem_cons_of_mem x hy)
    have hkeep' : ∀ raw y z, y ∈ xs → P raw y → Q raw z → keep raw = true → f y = f z :=
      fun raw y z hy => hkeep raw y z (List.mem_cons_of_mem x hy)
    cases hraw : keep raw with
    | true =>
      rw [List.filter_cons_of_pos hraw] at hQ
      cases hQ with
      | @cons _ y _ ys hy hrest =>
        rw [List.flatMap_cons, List.flatMap_cons, ih hrest hdrop' hkeep',
          hkeep raw x y List.mem_cons_self hx hy hraw]
    | false =>
      have hskip : (raw :: raws).filter keep = raws.filter keep := by simp [hraw]
      rw [hskip] at hQ
      rw [List.flatMap_cons, hdrop raw x List.mem_cons_self hx hraw, List.nil_append,
        ih hQ hdrop' hkeep']

end SubqlEthereum.Passes
