import Mathlib.Data.Set.Finite.Lattice
import Mathlib.Data.Set.Prod

/-!
# Covering a box by finitely many boxes

A box restricts each coordinate on its own.  When is a target box contained in a finite union of
query boxes?  In general the query boxes may share the work.  They cannot when every side of the
target is a single point or infinite, and every side of a query is a finite list of values or
unrestricted: a point of the target that avoids, in each infinite side, all listed values lies
in some query box, and that query box is then unrestricted wherever the target has room to
move, so it contains the whole target.

`Side α` is a query side: `none` for an unrestricted one, else the listed values.
-/

namespace SubqlEthereum.Boxes

variable {ι α : Type*}

/-- One side of a query: unrestricted, or the listed values. -/
abbrev Side (α : Type*) := Option (List α)

/-- The values a side lets through. -/
def Side.Admits (side : Side α) (a : α) : Prop := ∀ values ∈ side, a ∈ values

/-- A query box lets a point through when every side does. -/
def Covers (query : ι → Side α) (x : ι → α) : Prop := ∀ i, (query i).Admits (x i)

/-- A target side is tight when it is one point or infinite. -/
def Tight (side : Set α) : Prop := side.Infinite ∨ ∃ a, side = {a}

theorem Side.admits_none (a : α) : Side.Admits (none : Side α) a := by
  intro values hv
  exact absurd hv (by simp)

theorem Side.admits_some (values : List α) (a : α) :
    Side.Admits (some values) a ↔ a ∈ values := by
  simp [Side.Admits]

/-- In a tight side there is a value that a side of some listed queries lets through only when
it lets through all of them. -/
theorem exists_generic_value (target : Set α) (htight : Tight target) (sides : List (Side α)) :
    ∃ a ∈ target, ∀ side ∈ sides, side.Admits a → ∀ b ∈ target, side.Admits b := by
  rcases htight with hinf | hsingle
  · have hfinite : {a | ∃ side ∈ sides, ∃ values ∈ side, a ∈ values}.Finite := by
      have hlisted : {a | ∃ side ∈ sides, ∃ values ∈ side, a ∈ values} =
          ⋃ side ∈ {s | s ∈ sides}, {a | ∃ values ∈ side, a ∈ values} := by
        ext a
        simp
      rw [hlisted]
      refine Set.Finite.biUnion (List.finite_toSet sides) fun side hside => ?_
      cases side with
      | none => simp
      | some values => simp
    obtain ⟨a, ha, hfresh⟩ := (hinf.sdiff hfinite).nonempty
    refine ⟨a, ha, fun side hside hadmits b hb => ?_⟩
    cases side with
    | none => exact Side.admits_none b
    | some values =>
      have hin : a ∈ values := (Side.admits_some values a).mp hadmits
      exact absurd ⟨some values, hside, values, rfl, hin⟩ hfresh
  · obtain ⟨a, rfl⟩ := hsingle
    refine ⟨a, rfl, fun side hside hadmits b hb => ?_⟩
    have hba : b = a := hb
    rw [hba]
    exact hadmits

/-- **A tight target is covered by finitely many queries only if one of them covers it alone.** -/
theorem covered_iff_of_tight (target : ι → Set α) (htight : ∀ i, Tight (target i))
    (queries : List (ι → Side α)) :
    (∀ x : ι → α, (∀ i, x i ∈ target i) → ∃ query ∈ queries, Covers query x) ↔
      ∃ query ∈ queries, ∀ i, ∀ a ∈ target i, (query i).Admits a := by
  constructor
  · intro hcovered
    have hgeneric := fun i => exists_generic_value (target i) (htight i) (queries.map (· i))
    choose x hx hgen using hgeneric
    obtain ⟨query, hquery, hcovers⟩ := hcovered x hx
    exact ⟨query, hquery, fun i => hgen i (query i) (List.mem_map_of_mem hquery) (hcovers i)⟩
  · intro hone x hx
    obtain ⟨query, hquery, hall⟩ := hone
    exact ⟨query, hquery, fun i => hall i (x i) (hx i)⟩

end SubqlEthereum.Boxes
