import Mathlib.Algebra.Order.Field.Rat
import Mathlib.Tactic.NormNum
import SubqlEthereum.Ethers.JsonRpcBatchProvider
import SubqlEthereum.Library.CountWindows

/-!
# The batch size under control

`adjustBatchSize` is a tally in windows of ten counts: `adjustBatchSize_tally` says so of every
provider whose counters are below ten, and `resize` is what a completed window makes of the size.
The counters stay below ten and the size in its bounds, from call to call.
-/

namespace SubqlEthereum.Ethers

open SubqlEthereum.CountWindows

/-- The part of a provider that `adjustBatchSize` reads and writes. -/
def JsonRpcBatchProvider.tally (provider : JsonRpcBatchProvider) : Tally ℤ where
  value := provider.batchSize
  successes := provider.successfulBatchCount
  failures := provider.failedBatchCount

/-- The batch size after a window with the given number of successes. -/
def resize (batchSize : ℤ) (successes : ℕ) : ℤ :=
  if successes ≤ 8 ∧ 1 < batchSize then batchSize - 1
  else if 10 ≤ successes ∧ batchSize < 10 then batchSize + 1
  else batchSize

/-! ### What one call does -/

theorem rate_lt_iff (successes : ℕ) : (successes : ℚ) / (10 : ℕ) < 9 / 10 ↔ successes ≤ 8 := by
  have hten : ((10 : ℕ) : ℚ) = 10 := rfl
  rw [hten, div_lt_div_iff_of_pos_right (by norm_num)]
  constructor
  · intro h
    have hnat : successes < 9 := by exact_mod_cast h
    omega
  · intro h
    have hnat : successes < 9 := by omega
    exact_mod_cast hnat

theorem lt_rate_iff (successes : ℕ) : 95 / 100 < (successes : ℚ) / (10 : ℕ) ↔ 10 ≤ successes := by
  have hten : ((10 : ℕ) : ℚ) = 10 := rfl
  rw [hten, lt_div_iff₀ (by norm_num)]
  constructor
  · intro h
    by_contra hnot
    have hnat : (successes : ℚ) ≤ 9 := by exact_mod_cast (by omega : successes ≤ 9)
    have hless : (95 / 100 : ℚ) * 10 < 9 := lt_of_lt_of_le h hnat
    norm_num at hless
  · intro h
    have hnat : (10 : ℚ) ≤ successes := by exact_mod_cast h
    exact lt_of_lt_of_le (by norm_num) hnat

/-- `resize` in terms of the success rate. -/
theorem resize_eq_rate (batchSize : ℤ) (successes : ℕ) :
    resize batchSize successes =
      if (successes : ℚ) / (10 : ℕ) < 9 / 10 ∧ 1 < batchSize then batchSize - 1
      else if 95 / 100 < (successes : ℚ) / (10 : ℕ) ∧ batchSize < 10 then batchSize + 1
      else batchSize := by
  simp only [rate_lt_iff, lt_rate_iff]
  rfl

theorem totalBatches_countBatch (provider : JsonRpcBatchProvider) (success : Bool) :
    (provider.countBatch success).totalBatches =
      provider.successfulBatchCount + provider.failedBatchCount + 1 := by
  show provider.successfulBatchCount + (if success then 1 else 0) +
    (provider.failedBatchCount + (if success then 0 else 1)) = _
  cases success
  · simp only [Bool.false_eq_true, ↓reduceIte]
    omega
  · simp only [↓reduceIte]
    omega

/-- With counters below ten, the next total is a multiple of ten only when it is ten. -/
theorem totalBatches_mod (provider : JsonRpcBatchProvider) (success : Bool)
    (hopen : provider.tally.Open batchSizeAdjustmentInterval) :
    (provider.countBatch success).totalBatches % batchSizeAdjustmentInterval = 0 ↔
      (provider.countBatch success).totalBatches = batchSizeAdjustmentInterval := by
  have hlt : provider.successfulBatchCount + provider.failedBatchCount < 10 := hopen
  rw [totalBatches_countBatch]
  show _ % 10 = 0 ↔ _ = 10
  omega

/-- **A call of `adjustBatchSize` is a count of the tally.** -/
theorem adjustBatchSize_tally (provider : JsonRpcBatchProvider) (success : Bool)
    (hopen : provider.tally.Open batchSizeAdjustmentInterval) :
    (provider.adjustBatchSize success).tally =
      provider.tally.count batchSizeAdjustmentInterval resize success := by
  have hsuccesses : (if success then 1 else 0) = success.toNat := by cases success <;> rfl
  have hfailures : (if success then 0 else 1) = (!success).toNat := by cases success <;> rfl
  have htotal := totalBatches_countBatch provider success
  have hmod := totalBatches_mod provider success hopen
  rw [JsonRpcBatchProvider.adjustBatchSize]
  by_cases hlast : (provider.countBatch success).totalBatches = batchSizeAdjustmentInterval
  · rw [if_pos (hmod.mpr hlast), count_closing _ success (htotal.symm.trans hlast), hlast]
    show Tally.mk _ 0 0 = Tally.mk (resize provider.batchSize _) 0 0
    simp only [batchSizeAdjustmentInterval, rate_lt_iff, lt_rate_iff]
    rw [← hsuccesses]
    rfl
  · rw [if_neg (mt hmod.mp hlast), count_within _ success fun hnot => hlast (htotal.trans hnot),
      ← hsuccesses, ← hfailures]
    rfl

/-- Several calls. -/
theorem foldl_adjustBatchSize_tally (counts : List Bool) (provider : JsonRpcBatchProvider)
    (hopen : provider.tally.Open batchSizeAdjustmentInterval) :
    (counts.foldl JsonRpcBatchProvider.adjustBatchSize provider).tally =
      provider.tally.run batchSizeAdjustmentInterval resize counts := by
  induction counts generalizing provider with
  | nil => rfl
  | cons success counts ih =>
    have hone := adjustBatchSize_tally provider success hopen
    rw [List.foldl_cons, run_cons, ← hone]
    apply ih
    rw [hone]
    exact open_count resize (by decide) provider.tally success hopen

/-- **Ten calls from zeroed counters** reconsider the size by their successes. -/
theorem foldl_adjustBatchSize_window (provider : JsonRpcBatchProvider)
    (hsuccesses : provider.successfulBatchCount = 0) (hfailures : provider.failedBatchCount = 0)
    (window : List Bool) (hlength : window.length = 10) :
    (window.foldl JsonRpcBatchProvider.adjustBatchSize provider).tally =
      ⟨resize provider.batchSize (window.count true), 0, 0⟩ := by
  have hfresh : provider.tally.Fresh := ⟨hsuccesses, hfailures⟩
  have hnonempty : window ≠ [] := by
    intro hnil
    rw [hnil] at hlength
    exact absurd hlength (by decide)
  rw [foldl_adjustBatchSize_tally window provider (hfresh.open (by decide))]
  exact run_whole_window provider.tally hfresh window hnonempty hlength

/-! ### The size in its bounds -/

/-- A window changes the size by one at most. -/
theorem resize_cases (batchSize : ℤ) (successes : ℕ) :
    resize batchSize successes = batchSize ∨
      (resize batchSize successes = batchSize - 1 ∧ successes ≤ 8 ∧ 1 < batchSize) ∨
      (resize batchSize successes = batchSize + 1 ∧ 10 ≤ successes ∧ batchSize < 10) := by
  unfold resize
  split_ifs with hlow hhigh
  · exact .inr (.inl ⟨rfl, hlow⟩)
  · exact .inr (.inr ⟨rfl, hhigh⟩)
  · exact .inl rfl

/-- **The bounds of the size**, where it starts from `b₀`. -/
theorem run_value_bounds (b₀ : ℤ) (counts : List Bool) (t : Tally ℤ)
    (ht : 1 ≤ t.value ∧ t.value ≤ max 10 b₀) :
    1 ≤ (t.run batchSizeAdjustmentInterval resize counts).value ∧
      (t.run batchSizeAdjustmentInterval resize counts).value ≤ max 10 b₀ := by
  induction counts generalizing t with
  | nil => exact ht
  | cons success counts ih =>
    rw [run_cons]
    apply ih
    by_cases hlast : t.successes + t.failures + 1 = batchSizeAdjustmentInterval
    · rw [count_closing t success hlast]
      have hcases := resize_cases t.value (t.successes + success.toNat)
      show 1 ≤ resize t.value (t.successes + success.toNat) ∧
        resize t.value (t.successes + success.toNat) ≤ max 10 b₀
      omega
    · rw [count_within t success hlast]
      exact ht

/-- **The controller keeps its bounds.**  After every call the counters are below ten, the divisor
of a rate is ten, and the size is between one and ten, or what it was set to.  A call changes the
size by one at most, down only when at most eight of the last ten counts were successes and up only
when all of them were. -/
theorem adjustBatchSize_controlled (nextId : ℕ) (b₀ : ℤ) (hb₀ : 0 < b₀) (counts : List Bool)
    (success : Bool) :
    let before := counts.foldl JsonRpcBatchProvider.adjustBatchSize
      (({ nextId } : JsonRpcBatchProvider).setBatchSize b₀)
    let after := before.adjustBatchSize success
    after.totalBatches ≤ 9 ∧
    ((before.countBatch success).totalBatches % batchSizeAdjustmentInterval = 0 →
      (before.countBatch success).totalBatches = 10) ∧
    (1 ≤ after.batchSize ∧ after.batchSize ≤ max 10 b₀) ∧
    |after.batchSize - before.batchSize| ≤ 1 ∧
    (after.batchSize < before.batchSize →
      ∃ lastTen, lastTen <:+ counts ++ [success] ∧ lastTen.length = 10 ∧
        lastTen.count true ≤ 8) ∧
    (before.batchSize < after.batchSize →
      ∃ lastTen, lastTen <:+ counts ++ [success] ∧ lastTen.length = 10 ∧
        lastTen.count true = 10) := by
  let start := ({ nextId } : JsonRpcBatchProvider).setBatchSize b₀
  have hfresh : start.tally.Fresh := ⟨rfl, rfl⟩
  have hstart := hfresh.open (show 0 < batchSizeAdjustmentInterval by decide)
  have hbefore := foldl_adjustBatchSize_tally counts start hstart
  intro before after
  have hopen : before.tally.Open batchSizeAdjustmentInterval := by
    show (counts.foldl JsonRpcBatchProvider.adjustBatchSize start).tally.Open _
    rw [hbefore]
    exact open_run resize (by decide) start.tally counts hstart
  have hafter : after.tally = before.tally.count batchSizeAdjustmentInterval resize success :=
    adjustBatchSize_tally before success hopen
  have hclosed : after.tally.Open batchSizeAdjustmentInterval := by
    rw [hafter]
    exact open_count resize (by decide) before.tally success hopen
  have hrun : after.tally = start.tally.run batchSizeAdjustmentInterval resize
      (counts ++ [success]) := by
    rw [run_append, ← hbefore]
    exact hafter
  have hbounds : 1 ≤ after.tally.value ∧ after.tally.value ≤ max 10 b₀ := by
    rw [hrun]
    exact run_value_bounds b₀ _ start.tally ⟨hb₀, le_max_right _ _⟩
  have hcounters : after.totalBatches < 10 := hclosed
  refine ⟨by omega, (totalBatches_mod before success hopen).mp, hbounds, ?_⟩
  -- the size changes only with a count that completes a window
  by_cases hlast : before.successfulBatchCount + before.failedBatchCount + 1 =
      batchSizeAdjustmentInterval
  · have hsize : after.batchSize =
        resize before.batchSize (before.successfulBatchCount + success.toNat) := by
      have hvalue := congrArg Tally.value (hafter.trans (count_closing _ success hlast))
      exact hvalue
    obtain ⟨older, window, hsplit, hlength, hcount⟩ :=
      closing_recent _ resize start.tally hfresh counts success (by rw [← hbefore]; exact hlast)
    rw [← hbefore] at hcount
    have hcount : before.successfulBatchCount + success.toNat = window.count true := hcount
    have hlastTen : window <:+ counts ++ [success] := ⟨older, hsplit.symm⟩
    have hten : window.length = 10 := hlength
    have hmost : window.count true ≤ window.length := List.count_le_length
    rw [hsize, hcount]
    have hcases := resize_cases before.batchSize (window.count true)
    refine ⟨by rw [abs_le]; omega, fun hdown => ?_, fun hup => ?_⟩
    · exact ⟨window, hlastTen, hten, by omega⟩
    · exact ⟨window, hlastTen, hten, by omega⟩
  · have hsize : after.batchSize = before.batchSize := by
      have hvalue := congrArg Tally.value (hafter.trans (count_within _ success hlast))
      exact hvalue
    rw [hsize]
    refine ⟨by simp, fun hdown => ?_, fun hup => ?_⟩
    · exact absurd hdown (lt_irrefl _)
    · exact absurd hup (lt_irrefl _)

/-- Ten successes raise a size of three to four. -/
theorem adjustBatchSize_controlled_three :
    let after := ((List.replicate 9 true).foldl JsonRpcBatchProvider.adjustBatchSize
      (({ nextId := 42 } : JsonRpcBatchProvider).setBatchSize 3)).adjustBatchSize true
    after.batchSize = 4 ∧ after.totalBatches ≤ 9 ∧ after.batchSize ≤ max 10 3 := by
  have hcontrolled :=
    adjustBatchSize_controlled 42 3 (by decide) (List.replicate 9 true) true
  exact ⟨by decide +kernel, hcontrolled.1, hcontrolled.2.2.1.2⟩

end SubqlEthereum.Ethers
