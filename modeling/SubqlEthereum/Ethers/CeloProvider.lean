import SubqlEthereum.External
import SubqlEthereum.Library.DecimalOrder
import SubqlEthereum.Library.PlainObject

/-!
# Blocks of Celo

The block formatter of `celo-provider.ts`.  Blocks from before a hard fork come without a gas limit
and get one of zero.  Whether a block is one of those is asked with `<` of two `BigNumber`s, which
compares their decimal texts: `9` comes after `16068685`, and `100000000` before it.
`gasLimit_follows_order_iff` says for which numbers the answer is right.
-/

namespace SubqlEthereum.CeloProvider

open SubqlEthereum.External SubqlEthereum.JsonText SubqlEthereum.DecimalOrder
open SubqlEthereum.PlainObject

/-! ### The formatter -/

/-- A block as the endpoint returns it; a key occurs once. -/
structure RawBlock where
  fields : List (String × Json)
  nodup : (fields.map Prod.fst).Nodup

def RawBlock.get (value : RawBlock) (key : String) : Option Json := value.fields.lookup key

/-- What a property of the block passed on is. -/
inductive FieldValue
  | raw (value : Json)
  | zero
  | undefined

/-- `<` on two `BigNumber`s: they have no `valueOf`, so their decimal texts are compared. -/
def lessThan (a b : ℤ) : Bool := decide (toString a < toString b)

def flanHardForkBlock : ℤ := 16068685

section Formatter

variable (bigNumberFrom : Option Json → Except JsError ℤ)

/-- What `formatter._block` passes on to the original formatter. -/
def formatterBlock (value : RawBlock) : Except JsError (List (String × FieldValue)) := do
  let number ← bigNumberFrom (value.get "number")
  let gasLimit := if lessThan number flanHardForkBlock then FieldValue.zero
    else
      match value.get "gasLimit" with
      | some limit => .raw limit
      | none => .undefined
  return spread [("gasLimit", gasLimit)] (value.fields.map fun field => (field.1, .raw field.2))

/-- The gas limit passed on is zero for the blocks before the hard fork that have none, and
otherwise the block's own. -/
def FollowsOrder (value : RawBlock) (n : ℕ) : Prop :=
  ∀ passed, formatterBlock bigNumberFrom value = .ok passed →
    (value.get "gasLimit" = none → (passed.lookup "gasLimit" = some .zero ↔ n < 16068685)) ∧
      ∀ limit, value.get "gasLimit" = some limit → passed.lookup "gasLimit" = some (.raw limit)

end Formatter

/-! ### The order of the texts -/

/-- As many digits as the shorter of the two numbers has decide. -/
theorem lessThan_flanHardForkBlock (n : ℕ) :
    lessThan n flanHardForkBlock = true ↔
      if (toString n).length < 8 then n ≤ 16068685 / 10 ^ (8 - (toString n).length)
      else n / 10 ^ ((toString n).length - 8) < 16068685 := by
  have hbound : (toString 16068685).length = 8 := by decide
  have htexts : lessThan n flanHardForkBlock = true ↔ toString n < toString 16068685 :=
    decide_eq_true_iff
  rw [htexts, toString_lt_iff, hbound]

theorem length_le_iff (n k : ℕ) (hk : 0 < k) : (toString n).length ≤ k ↔ n < 10 ^ k := by
  rw [← String.length_toList, Nat.toString_eq_repr, Nat.toList_repr]
  exact Nat.length_toDigits_le_iff (by decide) hk

/-- **When the texts are in the order of the numbers.** -/
theorem lessThan_right_iff (n : ℕ) :
    (lessThan n flanHardForkBlock = true ↔ n < 16068685) ↔
      (toString n).length = 8 ∨
        ((toString n).length < 8 ∧ n ≤ 16068685 / 10 ^ (8 - (toString n).length)) ∨
        (8 < (toString n).length ∧ 16068685 ≤ n / 10 ^ ((toString n).length - 8)) := by
  rw [lessThan_flanHardForkBlock]
  have hseven := length_le_iff n 7 (by decide)
  have height := length_le_iff n 8 (by decide)
  rcases Nat.lt_trichotomy (toString n).length 8 with hshort | heq | hlong
  · have hbefore : n < 16068685 := by
      have hlt := hseven.mp (by omega)
      omega
    rw [if_pos hshort]
    simp only [hbefore, iff_true, hshort, true_and]
    omega
  · rw [heq]
    simp
  · have hafter : ¬ n < 16068685 := by
      have hnot := mt height.mpr (by omega)
      omega
    rw [if_neg (by omega)]
    simp only [hafter, iff_false, hlong, true_and, Nat.not_lt]
    omega

/-! ### The gas limit passed on -/

section GasLimit

variable (bigNumberFrom : Option Json → Except JsError ℤ) (value : RawBlock) (n : ℕ)
  (h : bigNumberFrom (value.get "number") = .ok (n : ℤ))

include h

/-- A block that has a gas limit keeps it; any other gets zero or nothing. -/
theorem formatterBlock_gasLimit :
    ∃ passed, formatterBlock bigNumberFrom value = .ok passed ∧
      passed.lookup "gasLimit" = some (match value.get "gasLimit" with
        | some limit => .raw limit
        | none => if lessThan n flanHardForkBlock then .zero else .undefined) := by
  have hraw : ∀ fields : List (String × Json),
      (fields.map fun field => (field.1, FieldValue.raw field.2)).lookup "gasLimit" =
        (fields.lookup "gasLimit").map FieldValue.raw := by
    intro fields
    induction fields with
    | nil => rfl
    | cons field rest ih =>
      rw [List.map_cons, List.lookup_cons, List.lookup_cons, ih]
      cases "gasLimit" == field.1 with
      | true => rfl
      | false => rfl
  have hnodup : ((value.fields.map fun field => (field.1, FieldValue.raw field.2)).map
      Prod.fst).Nodup := by
    rw [List.map_map]
    exact value.nodup
  rw [formatterBlock, h]
  refine ⟨_, rfl, ?_⟩
  rw [lookup_spread _ _ _ hnodup, hraw, RawBlock.get]
  cases value.fields.lookup "gasLimit" with
  | some limit => rfl
  | none => rfl

/-- **When the gas limit follows the order of the blocks**: where the block has one of its own, and
for the numbers whose texts are in their order. -/
theorem gasLimit_follows_order_iff :
    FollowsOrder bigNumberFrom value n ↔
      value.get "gasLimit" ≠ none ∨ (toString n).length = 8 ∨
        ((toString n).length < 8 ∧ n ≤ 16068685 / 10 ^ (8 - (toString n).length)) ∨
        (8 < (toString n).length ∧ 16068685 ≤ n / 10 ^ ((toString n).length - 8)) := by
  obtain ⟨passed, hpassed, hlimit⟩ := formatterBlock_gasLimit bigNumberFrom value n h
  have hzero : value.get "gasLimit" = none →
      (passed.lookup "gasLimit" = some .zero ↔ lessThan n flanHardForkBlock = true) := by
    intro hnone
    rw [hlimit, hnone]
    cases lessThan n flanHardForkBlock <;> simp
  rw [← lessThan_right_iff]
  constructor
  · intro hfollows
    by_cases hnone : value.get "gasLimit" = none
    · exact .inr ((hzero hnone).symm.trans ((hfollows passed hpassed).1 hnone))
    · exact .inl hnone
  · intro hcondition other hother
    obtain rfl : passed = other := Except.ok.inj (hpassed.symm.trans hother)
    constructor
    · intro hnone
      rcases hcondition with hsome | hright
      · exact absurd hnone hsome
      · exact (hzero hnone).trans hright
    · intro limit hsome
      rw [hlimit, hsome]

end GasLimit

/-- The number of a block as the endpoint writes it. -/
def readQuantity (p : Platform) : Option Json → Except JsError ℤ
  | some (.str text) => p.bigNumberFrom text
  | _ => .error { message := "invalid BigNumber value" }

/-- A block without a gas limit. -/
def blockWithout (number : String) : RawBlock where
  fields := [("number", .str number), ("gasUsed", .str "0x5208")]
  nodup := by
    show ["number", "gasUsed"].Nodup
    decide

/-- The last block before the hard fork gets a gas limit of zero. -/
theorem gasLimit_of_last_block_before :
    FollowsOrder (readQuantity erc20Platform) (blockWithout "0xf5304c") 16068684 :=
  (gasLimit_follows_order_iff _ _ 16068684 rfl).mpr (.inr (.inl (by decide)))

/-- **Block 9 gets no gas limit, block 100000000 gets one of zero.** -/
theorem gasLimit_out_of_order :
    ¬ FollowsOrder (readQuantity erc20Platform) (blockWithout "0x9") 9 ∧
      ¬ FollowsOrder (readQuantity erc20Platform) (blockWithout "0x5f5e100") 100000000 := by
  constructor
  · intro hfollows
    obtain ⟨passed, hpassed, hlimit⟩ :=
      formatterBlock_gasLimit (readQuantity erc20Platform) (blockWithout "0x9") 9 rfl
    have hafter : lessThan 9 flanHardForkBlock = false := by decide
    have hundefined : passed.lookup "gasLimit" = some .undefined := by
      rw [hlimit, show (blockWithout "0x9").get "gasLimit" = none from rfl]
      exact congrArg some (if_neg (ne_true_of_eq_false hafter))
    have hzero := ((hfollows passed hpassed).1 rfl).mpr (by decide)
    rw [hundefined] at hzero
    exact absurd hzero (by simp)
  · intro hfollows
    obtain ⟨passed, hpassed, hlimit⟩ :=
      formatterBlock_gasLimit (readQuantity erc20Platform) (blockWithout "0x5f5e100") 100000000 rfl
    have hbefore : lessThan 100000000 flanHardForkBlock = true := by decide
    have hzero : passed.lookup "gasLimit" = some .zero := by
      rw [hlimit, show (blockWithout "0x5f5e100").get "gasLimit" = none from rfl]
      exact congrArg some (if_pos hbefore)
    exact absurd (((hfollows passed hpassed).1 rfl).mp hzero) (by decide)

end SubqlEthereum.CeloProvider
