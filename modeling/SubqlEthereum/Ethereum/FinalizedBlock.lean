import SubqlEthereum.Ethereum.ApiInit

/-!
# The finalized block

`getFinalizedBlock`, `getFinalizedBlockHeight` and `getBestBlockHeight` of `api.ethereum.ts`.
Without the `finalized` tag the height asked for is the best height less the number of
confirmations.  The difference may be negative, and the provider counts a negative height back
from the latest block, so a short chain reports a block that is not final
(`confirmations_iff`).
-/

namespace SubqlEthereum.FinalizedBlock

open SubqlEthereum.External
open SubqlEthereum.ApiInit (EthereumApi BlockTag)

/-! ### What the API asks for -/

structure Block where
  number : ℤ
  hash : String
deriving DecidableEq, Repr

/-- The answers of `client.getBlock`, none for a block it does not have. -/
structure Provider where
  getBlock : BlockTag → Except JsError (Option Block)

/-- An API with the settings of its constructor that decide what counts as final. -/
structure Api extends EthereumApi where
  blockConfirmations : ℤ
  unfinalizedBlocks : Bool := false

/-- The getter `supportsSafe`: the tag of Cronos is not used, whatever the probe said. -/
def Api.safeTagUsed (api : Api) : Bool :=
  api.supportsSafe && api.chainId ≠ some 25

def Api.bestTag (api : Api) : BlockTag :=
  if !api.unfinalizedBlocks && api.safeTagUsed then .safe else .latest

def getBestBlockHeight (provider : Provider) (api : Api) : Except JsError ℤ := do
  match ← provider.getBlock api.bestTag with
  | none =>
    throw { name := "TypeError", message := "Cannot read properties of null (reading 'number')" }
  | some block => return block.number

def finalizedHeight (provider : Provider) (api : Api) : Except JsError BlockTag :=
  if api.supportsFinalization then .ok .finalized
  else do
    let best ← getBestBlockHeight provider api
    return .number (best - api.blockConfirmations)

def getFinalizedBlock (provider : Provider) (api : Api) : Except JsError Block := do
  let height ← finalizedHeight provider api
  match ← provider.getBlock height with
  | none => throw { message := "get finalized block \"" ++ height.text ++ "\" failed " }
  | some block => return block

def getFinalizedBlockHeight (provider : Provider) (api : Api) : Except JsError ℤ := do
  return (← getFinalizedBlock provider api).number

/-! ### What the provider answers -/

/-- The height a provider takes a number for: a negative one counts back from the latest block. -/
def resolveHeight (latest n : ℤ) : ℤ := if n < 0 then max 0 (latest + n) else n

/-- The best block is at height `best`; a number up to that is answered with the block at the height
it resolves to, while the latest block is at height `latest`. -/
structure Serves (provider : Provider) (api : Api) (best latest : ℕ) : Prop where
  bestBlock : ∃ block, provider.getBlock api.bestTag = .ok (some block) ∧ block.number = best
  numbered : ∀ n ≤ (best : ℤ), ∃ block, provider.getBlock (.number n) = .ok (some block) ∧
    block.number = resolveHeight latest n

/-- The height with the confirmations asked for, or genesis. -/
def confirmedHeight (api : Api) (best : ℕ) : ℤ := max 0 (best - api.blockConfirmations)

/-- The chain has as many blocks as confirmations are asked for, or so few that counting back from
the latest block reaches genesis. -/
def CountsBack (api : Api) (best latest : ℕ) : Prop :=
  api.blockConfirmations ≤ best ∨ (best : ℤ) + latest ≤ api.blockConfirmations

/-! ### The height that is reported -/

section Height

variable {provider : Provider} {api : Api} {best latest : ℕ}

theorem getBestBlockHeight_spec (h : Serves provider api best latest) :
    getBestBlockHeight provider api = .ok (best : ℤ) := by
  obtain ⟨block, hblock, hnumber⟩ := h.bestBlock
  rw [getBestBlockHeight, hblock, ← hnumber]
  rfl

/-- Without the tag the provider resolves the difference. -/
theorem getFinalizedBlockHeight_spec (hfinalized : api.supportsFinalization = false)
    (hconfirmations : 0 ≤ api.blockConfirmations) (h : Serves provider api best latest) :
    getFinalizedBlockHeight provider api =
      .ok (resolveHeight latest (best - api.blockConfirmations)) := by
  obtain ⟨block, hblock, hnumber⟩ := h.numbered (best - api.blockConfirmations) (by omega)
  have hheight : finalizedHeight provider api =
      .ok (.number (best - api.blockConfirmations)) := by
    rw [finalizedHeight, hfinalized, getBestBlockHeight_spec h]
    rfl
  have hfound : getFinalizedBlock provider api = .ok block := by
    rw [getFinalizedBlock, hheight]
    show (do
      match ← provider.getBlock (.number (best - api.blockConfirmations)) with
      | none => throw _
      | some block => return block) = _
    rw [hblock]
    rfl
  rw [getFinalizedBlockHeight, hfound, ← hnumber]
  rfl

/-- The difference resolves to the confirmed height unless counting back stops above genesis. -/
theorem resolveHeight_eq_iff :
    resolveHeight latest (best - api.blockConfirmations) = confirmedHeight api best ↔
      CountsBack api best latest := by
  rw [resolveHeight, confirmedHeight, CountsBack]
  split_ifs with hnegative
  · omega
  · omega

theorem reported_iff (hfinalized : api.supportsFinalization = false)
    (hconfirmations : 0 ≤ api.blockConfirmations) (h : Serves provider api best latest) :
    getFinalizedBlockHeight provider api = .ok (confirmedHeight api best) ↔
      CountsBack api best latest := by
  rw [getFinalizedBlockHeight_spec hfinalized hconfirmations h, Except.ok.injEq]
  exact resolveHeight_eq_iff

end Height

theorem confirmedHeight_mono (api : Api) {best best' : ℕ} (h : best ≤ best') :
    confirmedHeight api best ≤ confirmedHeight api best' := by
  rw [confirmedHeight, confirmedHeight]
  omega

/-- **Both reports are confirmed and the later one is no lower exactly when neither chain is of the
lengths for which counting back stops above genesis.** -/
theorem confirmations_iff (api : Api) (hfinalized : api.supportsFinalization = false)
    (hconfirmations : 0 ≤ api.blockConfirmations) {earlier later : Provider}
    {best latest best' latest' : ℕ} (hearlier : Serves earlier api best latest)
    (hlater : Serves later api best' latest') (hle : best ≤ best') :
    (getFinalizedBlockHeight earlier api = .ok (confirmedHeight api best) ∧
      getFinalizedBlockHeight later api = .ok (confirmedHeight api best') ∧
      ∀ n n', getFinalizedBlockHeight earlier api = .ok n →
        getFinalizedBlockHeight later api = .ok n' → n ≤ n') ↔
      CountsBack api best latest ∧ CountsBack api best' latest' := by
  rw [← reported_iff hfinalized hconfirmations hearlier,
    ← reported_iff hfinalized hconfirmations hlater]
  constructor
  · intro h
    obtain ⟨hfirst, hsecond, -⟩ := h
    exact ⟨hfirst, hsecond⟩
  · intro h
    obtain ⟨hfirst, hsecond⟩ := h
    refine ⟨hfirst, hsecond, ?_⟩
    intro n n' hn hn'
    rw [hfirst, Except.ok.injEq] at hn
    rw [hsecond, Except.ok.injEq] at hn'
    rw [← hn, ← hn']
    exact confirmedHeight_mono api hle

/-! ### A chain with the default number of confirmations -/

/-- A provider of a chain with the given head, as ethers resolves numbers. -/
def chainProvider (head : ℕ) : Provider where
  getBlock
    | .number n =>
      if n ≤ head then .ok (some { number := resolveHeight head n, hash := "0x00" }) else .ok none
    | .earliest => .ok (some { number := 0, hash := "0x00" })
    | .finalized => .error { message := "finalized block not found" }
    | .safe => .error { message := "safe block not found" }
    | .latest => .ok (some { number := head, hash := "0x00" })

/-- An API of a chain without either tag, with the default settings. -/
def polygon : Api where
  client := { object := 0, transport := .batch }
  nonBatchClient := none
  batchSize := none
  created := 1
  supportsFinalization := false
  supportsSafe := false
  chainId := some 137
  blockConfirmations := 200

theorem chainProvider_serves (head : ℕ) : Serves (chainProvider head) polygon head head where
  bestBlock := ⟨_, rfl, rfl⟩
  numbered _ hn := ⟨_, if_pos hn, rfl⟩

/-- Blocks 300 and 400 of the chain have 200 confirmations on the block that is reported. -/
theorem confirmed_at_300 :
    CountsBack polygon 300 300 ∧ CountsBack polygon 400 400 ∧
      getFinalizedBlockHeight (chainProvider 300) polygon = .ok 100 ∧
      getFinalizedBlockHeight (chainProvider 400) polygon = .ok 200 := by
  have hcounts : CountsBack polygon 300 300 ∧ CountsBack polygon 400 400 := by
    constructor
    · exact .inl (by decide)
    · exact .inl (by decide)
  have h := (confirmations_iff polygon rfl (by decide) (chainProvider_serves 300)
    (chainProvider_serves 400) (by decide)).mpr hcounts
  exact ⟨hcounts.1, hcounts.2, h.1, h.2.1⟩

/-- At height 150 the block reported has 50 confirmations, and the step from height 199 to 200 takes
the report from 198 down to 0. -/
theorem unconfirmed_below_200 :
    (Serves (chainProvider 150) polygon 150 150 ∧
      getFinalizedBlockHeight (chainProvider 150) polygon = .ok 100 ∧
      confirmedHeight polygon 150 = 0) ∧
    (Serves (chainProvider 199) polygon 199 199 ∧ Serves (chainProvider 200) polygon 200 200 ∧
      getFinalizedBlockHeight (chainProvider 199) polygon = .ok 198 ∧
      getFinalizedBlockHeight (chainProvider 200) polygon = .ok 0) :=
  ⟨⟨chainProvider_serves 150, rfl, rfl⟩,
    ⟨chainProvider_serves 199, chainProvider_serves 200, rfl, rfl⟩⟩

end SubqlEthereum.FinalizedBlock
