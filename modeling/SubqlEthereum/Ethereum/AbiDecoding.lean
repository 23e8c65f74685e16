import Mathlib.Logic.Function.Basic
import SubqlEthereum.Abi
import SubqlEthereum.Blocks
import SubqlEthereum.Library.Overwriting

/-!
# Decoding logs and transactions in place

`parseLog` and `parseTransaction` of `api.ethereum.ts`.  One object is handed to a data source
after the other and its `args` are written in place, while the interfaces built from the ABIs are
kept by their names for all data sources.  A history is any list of these calls, on any objects.

`applyCall_spec` says what one call writes: what it decodes with the ABI of its own data source,
over what is there.  So whatever was processed before, a call that decodes an object leaves what
it would have left on a fresh copy (`args_as_first_seen`).
-/

namespace SubqlEthereum.Ethereum.AbiDecoding

open SubqlEthereum.External SubqlEthereum.Project SubqlEthereum.Blocks SubqlEthereum.PlainObject
open SubqlEthereum.Abi SubqlEthereum.Overwriting

/-- The loader together with the decoding methods of `Interface` and the slice of an input. -/
structure AbiDecoder (ι φ α : Type) extends AbiLoader ι where
  /-- `hexDataSlice(data, offset, endOffset)`. -/
  hexDataSlice : String → ℕ → ℕ → Except JsError String
  /-- `iface.parseLog({ topics, data }).args`. -/
  parseLogArgs : ι → List String → String → Except JsError α
  getFunction : ι → String → Except JsError φ
  decodeFunctionData : ι → φ → String → Except JsError α

/-- The logs and transactions, by number: what decoding reads of them and never writes. -/
structure Objects where
  log : ℕ → EthereumLog
  input : ℕ → String
  logsOf : ℕ → Option (List ℕ)

/-- What decoding writes: the interfaces kept by the API, and the `args` of the objects. -/
structure DecodingState (ι α : Type) where
  contractInterfaces : Properties ι := []
  logArgs : ℕ → Option α := fun _ => none
  transactionArgs : ℕ → Option α := fun _ => none

variable {ι φ α : Type}

/-! ### The two parsers -/

/-- `iface?.parseLog(log).args`. -/
def decodeLog (decoder : AbiDecoder ι φ α) (iface : Property ι) (log : EthereumLog) :
    Except JsError α :=
  match iface with
  | .own iface => decoder.parseLogArgs iface log.topics log.data
  | _ => .error { name := "TypeError", message := "iface?.parseLog is not a function" }

/-- The function an input selects, and the arguments for it. -/
def decodeInput (decoder : AbiDecoder ι φ α) (iface : Property ι) (input : String) :
    Except JsError α :=
  match iface with
  | .own iface => do
    let sighash ← decoder.hexDataSlice input 0 4
    let func ← decoder.getFunction iface sighash
    decoder.decodeFunctionData iface func input
  | _ => .error { name := "TypeError", message := "iface.getFunction is not a function" }

/-- A failure of any kind is logged and leaves the object as it is. -/
def parseLog (decoder : AbiDecoder ι φ α) (objects : Objects) (ds : SubqlRuntimeDatasource)
    (log : ℕ) (st : DecodingState ι α) : DecodingState ι α :=
  match abiName ds with
  | none => st
  | some name =>
    match loadInterface decoder.toAbiLoader ds name st.contractInterfaces with
    | .error _ => st
    | .ok (iface, contractInterfaces) =>
      match decodeLog decoder iface (objects.log log) with
      | .error _ => { st with contractInterfaces }
      | .ok args =>
        { st with contractInterfaces, logArgs := Function.update st.logArgs log (some args) }

def parseTransaction (decoder : AbiDecoder ι φ α) (objects : Objects)
    (ds : SubqlRuntimeDatasource) (transaction : ℕ) (st : DecodingState ι α) :
    DecodingState ι α :=
  match abiName ds with
  | none => st
  | some name =>
    match loadInterface decoder.toAbiLoader ds name st.contractInterfaces with
    | .error _ => st
    | .ok (iface, contractInterfaces) =>
      match decodeInput decoder iface (objects.input transaction) with
      | .error _ => { st with contractInterfaces }
      | .ok args =>
        let st := ((objects.logsOf transaction).getD []).foldl
          (fun st log => parseLog decoder objects ds log st) { st with contractInterfaces }
        { st with transactionArgs := Function.update st.transactionArgs transaction (some args) }

/-- A call of one of the parsers. -/
inductive Call
  | parseLog (log : ℕ) (ds : SubqlRuntimeDatasource)
  | parseTransaction (transaction : ℕ) (ds : SubqlRuntimeDatasource)

def Call.ds : Call → SubqlRuntimeDatasource
  | .parseLog _ ds => ds
  | .parseTransaction _ ds => ds

def applyCall (decoder : AbiDecoder ι φ α) (objects : Objects) (st : DecodingState ι α) :
    Call → DecodingState ι α
  | .parseLog log ds => parseLog decoder objects ds log st
  | .parseTransaction transaction ds => parseTransaction decoder objects ds transaction st

/-- The state after a history, from a new API and objects without `args`. -/
def run (decoder : AbiDecoder ι φ α) (objects : Objects) (history : List Call) :
    DecodingState ι α :=
  history.foldl (applyCall decoder objects) {}

/-! ### What a data source decodes by itself -/

/-- The arguments of a log under the data source's own ABI. -/
def ownLogArgs (decoder : AbiDecoder ι φ α) (ds : SubqlRuntimeDatasource) (log : EthereumLog) :
    Option α :=
  (dsInterface decoder.toAbiLoader ds).bind fun iface =>
    (decodeLog decoder (.own iface) log).toOption

def ownInputArgs (decoder : AbiDecoder ι φ α) (ds : SubqlRuntimeDatasource) (input : String) :
    Option α :=
  (dsInterface decoder.toAbiLoader ds).bind fun iface =>
    (decodeInput decoder (.own iface) input).toOption

/-- What a call decodes for a log.  The logs of a transaction are decoded once its input is. -/
def Call.logArgs (decoder : AbiDecoder ι φ α) (objects : Objects) (log : ℕ) : Call → Option α
  | .parseLog log' ds => if log = log' then ownLogArgs decoder ds (objects.log log) else none
  | .parseTransaction transaction ds =>
    if (ownInputArgs decoder ds (objects.input transaction)).isSome ∧
        log ∈ (objects.logsOf transaction).getD [] then
      ownLogArgs decoder ds (objects.log log)
    else none

def Call.transactionArgs (decoder : AbiDecoder ι φ α) (objects : Objects) (transaction : ℕ) :
    Call → Option α
  | .parseLog _ _ => none
  | .parseTransaction transaction' ds =>
    if transaction = transaction' then ownInputArgs decoder ds (objects.input transaction)
    else none

/-- What is decoded goes over what is there. -/
def overwrite (decoded args : ℕ → Option α) : ℕ → Option α := fun n => (decoded n).or (args n)

/-! ### What one call writes -/

/-- What there is afterwards: the given arguments over those of the state before. -/
structure Wrote (decoder : AbiDecoder ι φ α) (dataSources : List SubqlRuntimeDatasource)
    (logs transactions : ℕ → Option α) (st st' : DecodingState ι α) : Prop where
  kept : KeptFrom decoder.toAbiLoader dataSources st'.contractInterfaces
  logArgs : st'.logArgs = overwrite logs st.logArgs
  transactionArgs : st'.transactionArgs = overwrite transactions st.transactionArgs

section Calls

variable {decoder : AbiDecoder ι φ α} {objects : Objects}
variable {dataSources : List SubqlRuntimeDatasource} {ds : SubqlRuntimeDatasource}

theorem overwrite_none (args : ℕ → Option α) : overwrite (fun _ => none) args = args := rfl

theorem overwrite_single (args : ℕ → Option α) (n : ℕ) (decoded : α) :
    overwrite (fun m => if m = n then some decoded else none) args =
      Function.update args n (some decoded) := by
  funext m
  by_cases h : m = n
  · rw [overwrite, if_pos h, h, Function.update_self]
    rfl
  · rw [overwrite, if_neg h, Function.update_of_ne h]
    rfl

/-- A call that decodes nothing. -/
theorem wrote_nothing (st : DecodingState ι α) (contractInterfaces : Properties ι)
    (hkept : KeptFrom decoder.toAbiLoader dataSources contractInterfaces) :
    Wrote decoder dataSources (fun _ => none) (fun _ => none) st
      { st with contractInterfaces } where
  kept := hkept
  logArgs := rfl
  transactionArgs := rfl

/-- What `loadInterface` finds decodes as the data source's own ABI does; when it finds nothing, the
data source decodes nothing. -/
theorem loadInterface_decodes (hsame : SameAbi decoder.toAbiLoader dataSources)
    (hds : ds ∈ dataSources) {name : String} (hname : abiName ds = some name)
    {contractInterfaces : Properties ι}
    (hkept : KeptFrom decoder.toAbiLoader dataSources contractInterfaces) :
    (∃ e, loadInterface decoder.toAbiLoader ds name contractInterfaces = .error e ∧
      (∀ log, ownLogArgs decoder ds log = none) ∧
      ∀ input, ownInputArgs decoder ds input = none) ∨
    ∃ property kept,
      loadInterface decoder.toAbiLoader ds name contractInterfaces = .ok (property, kept) ∧
      KeptFrom decoder.toAbiLoader dataSources kept ∧
      (∀ log, ownLogArgs decoder ds log = (decodeLog decoder property log).toOption) ∧
      ∀ input, ownInputArgs decoder ds input = (decodeInput decoder property input).toOption := by
  obtain ⟨hfound, hkept'⟩ := loadInterface_spec hsame hkept hds hname
  cases hbuilt : loadInterface decoder.toAbiLoader ds name contractInterfaces with
  | error e =>
    rw [hbuilt] at hfound
    left
    refine ⟨e, rfl, ?_, ?_⟩
    · intro log
      rw [ownLogArgs, ← hfound]
      rfl
    · intro input
      rw [ownInputArgs, ← hfound]
      rfl
  | ok built =>
    obtain ⟨property, kept⟩ := built
    rw [hbuilt] at hfound hkept'
    right
    refine ⟨property, kept, rfl, hkept', ?_, ?_⟩
    · intro log
      rw [ownLogArgs, ← hfound]
      cases property with
      | own iface => rfl
      | inherited => rfl
      | absent => rfl
    · intro input
      rw [ownInputArgs, ← hfound]
      cases property with
      | own iface => rfl
      | inherited => rfl
      | absent => rfl

/-- **`parseLog` writes what the data source's own ABI decodes**, and nothing else. -/
theorem parseLog_spec (objects : Objects) (hsame : SameAbi decoder.toAbiLoader dataSources)
    (hds : ds ∈ dataSources) (log : ℕ) (st : DecodingState ι α)
    (hkept : KeptFrom decoder.toAbiLoader dataSources st.contractInterfaces) :
    Wrote decoder dataSources
      (fun l => if l = log then ownLogArgs decoder ds (objects.log l) else none) (fun _ => none)
      st (parseLog decoder objects ds log st) := by
  have hnothing : ownLogArgs decoder ds (objects.log log) = none →
      (fun l => if l = log then ownLogArgs decoder ds (objects.log l) else none) =
        fun _ => none := by
    intro h
    funext l
    by_cases hl : l = log
    · rw [if_pos hl, hl, h]
    · rw [if_neg hl]
  rw [parseLog]
  cases hname : abiName ds with
  | none =>
    rw [hnothing (by rw [ownLogArgs, dsInterface, hname]; rfl)]
    exact wrote_nothing st _ hkept
  | some name =>
    rcases loadInterface_decodes hsame hds hname hkept with
      ⟨e, hbuilt, hown, -⟩ | ⟨property, kept, hbuilt, hkept', hown, -⟩
    · simp only [hbuilt]
      rw [hnothing (hown _)]
      exact wrote_nothing st _ hkept
    · have hlog := hown (objects.log log)
      simp only [hbuilt]
      cases hdecoded : decodeLog decoder property (objects.log log) with
      | error e =>
        rw [hdecoded] at hlog
        rw [hnothing hlog]
        exact wrote_nothing st _ hkept'
      | ok args =>
        rw [hdecoded] at hlog
        refine ⟨hkept', ?_, rfl⟩
        show Function.update st.logArgs log (some args) = _
        rw [← overwrite_single]
        congr 1
        funext l
        by_cases hl : l = log
        · rw [if_pos hl, if_pos hl, hl, hlog]
          rfl
        · rw [if_neg hl, if_neg hl]

/-- The logs of a transaction, one after the other. -/
theorem parseLogs_spec (objects : Objects) (hsame : SameAbi decoder.toAbiLoader dataSources)
    (hds : ds ∈ dataSources) (logs : List ℕ) : ∀ st : DecodingState ι α,
    KeptFrom decoder.toAbiLoader dataSources st.contractInterfaces →
    Wrote decoder dataSources
      (fun l => if l ∈ logs then ownLogArgs decoder ds (objects.log l) else none) (fun _ => none)
      st (logs.foldl (fun st log => parseLog decoder objects ds log st) st) := by
  induction logs with
  | nil =>
    intro st hkept
    exact wrote_nothing st _ hkept
  | cons log logs ih =>
    intro st hkept
    have hfirst := parseLog_spec objects hsame hds log st hkept
    have hrest := ih (parseLog decoder objects ds log st) hfirst.kept
    rw [List.foldl_cons]
    refine ⟨hrest.kept, ?_, ?_⟩
    · rw [hrest.logArgs, hfirst.logArgs]
      funext l
      simp only [overwrite, List.mem_cons]
      by_cases hl : l = log
      · by_cases hmem : l ∈ logs
        · simp only [hl ▸ hmem, hl, if_true, or_true]
          cases ownLogArgs decoder ds (objects.log log) with
          | none => rfl
          | some args => rfl
        · simp only [hl ▸ hmem, hl, if_true, or_false, if_false, Option.none_or]
      · simp only [hl, false_or, if_false, Option.none_or]
    · rw [hrest.transactionArgs, hfirst.transactionArgs]
      rfl

/-- A transaction whose input is not decoded is left alone, with its logs. -/
theorem wrote_of_input_not_decoded (transaction : ℕ) (st : DecodingState ι α)
    (contractInterfaces : Properties ι)
    (hkept : KeptFrom decoder.toAbiLoader dataSources contractInterfaces)
    (hnone : ownInputArgs decoder ds (objects.input transaction) = none) :
    Wrote decoder dataSources
      (fun l => (Call.parseTransaction transaction ds).logArgs decoder objects l)
      (fun t => (Call.parseTransaction transaction ds).transactionArgs decoder objects t)
      st { st with contractInterfaces } where
  kept := hkept
  logArgs := by
    funext l
    simp only [overwrite, Call.logArgs, hnone, Option.isSome_none, Bool.false_eq_true, false_and,
      if_false, Option.none_or]
  transactionArgs := by
    funext t
    simp only [overwrite, Call.transactionArgs]
    by_cases ht : t = transaction
    · rw [if_pos ht, ht, hnone, Option.none_or]
    · rw [if_neg ht, Option.none_or]

/-- **`parseTransaction` writes** the arguments of the input and of the logs, if it can decode the
input. -/
theorem parseTransaction_spec (objects : Objects)
    (hsame : SameAbi decoder.toAbiLoader dataSources) (hds : ds ∈ dataSources)
    (transaction : ℕ) (st : DecodingState ι α)
    (hkept : KeptFrom decoder.toAbiLoader dataSources st.contractInterfaces) :
    Wrote decoder dataSources
      (fun l => (Call.parseTransaction transaction ds).logArgs decoder objects l)
      (fun t => (Call.parseTransaction transaction ds).transactionArgs decoder objects t)
      st (parseTransaction decoder objects ds transaction st) := by
  rw [parseTransaction]
  cases hname : abiName ds with
  | none =>
    exact wrote_of_input_not_decoded transaction st _ hkept
      (by rw [ownInputArgs, dsInterface, hname]; rfl)
  | some name =>
    rcases loadInterface_decodes hsame hds hname hkept with
      ⟨e, hbuilt, -, hown⟩ | ⟨property, kept, hbuilt, hkept', -, hown⟩
    · simp only [hbuilt]
      exact wrote_of_input_not_decoded transaction st _ hkept (hown _)
    · have hinput := hown (objects.input transaction)
      simp only [hbuilt]
      cases hdecoded : decodeInput decoder property (objects.input transaction) with
      | error e =>
        rw [hdecoded] at hinput
        exact wrote_of_input_not_decoded transaction st _ hkept' hinput
      | ok args =>
        rw [hdecoded] at hinput
        have hsome : (ownInputArgs decoder ds (objects.input transaction)).isSome = true := by
          rw [hinput]
          rfl
        have hlogs := parseLogs_spec objects hsame hds
          ((objects.logsOf transaction).getD []) { st with contractInterfaces := kept } hkept'
        refine ⟨hlogs.kept, ?_, ?_⟩
        · simp only [hlogs.logArgs, Call.logArgs, hsome, true_and]
        · simp only [hlogs.transactionArgs, overwrite_none, ← overwrite_single]
          funext t
          simp only [overwrite, Call.transactionArgs]
          by_cases ht : t = transaction
          · rw [if_pos ht, if_pos ht, ht, hinput]
            rfl
          · rw [if_neg ht, if_neg ht]

/-- **What one call writes.** -/
theorem applyCall_spec (objects : Objects) (hsame : SameAbi decoder.toAbiLoader dataSources)
    (call : Call) (hds : call.ds ∈ dataSources) (st : DecodingState ι α)
    (hkept : KeptFrom decoder.toAbiLoader dataSources st.contractInterfaces) :
    Wrote decoder dataSources (fun l => call.logArgs decoder objects l)
      (fun t => call.transactionArgs decoder objects t) st
      (applyCall decoder objects st call) := by
  cases call with
  | parseLog log ds => exact parseLog_spec objects hsame hds log st hkept
  | parseTransaction transaction ds =>
    exact parseTransaction_spec objects hsame hds transaction st hkept

end Calls

/-! ### What a history leaves -/

section Histories

variable {decoder : AbiDecoder ι φ α} {dataSources : List SubqlRuntimeDatasource}

/-- The calls write over the arguments of the logs. -/
theorem writes_logArgs (objects : Objects) (hsame : SameAbi decoder.toAbiLoader dataSources) :
    Writes (applyCall decoder objects)
      (fun st => KeptFrom decoder.toAbiLoader dataSources st.contractInterfaces)
      (fun call => call.ds ∈ dataSources) DecodingState.logArgs
      (fun call log => call.logArgs decoder objects log) where
  inv st call hkept hds := (applyCall_spec objects hsame call hds st hkept).kept
  cells st call hkept hds log := by
    rw [(applyCall_spec objects hsame call hds st hkept).logArgs]
    rfl

/-- And over those of the transactions. -/
theorem writes_transactionArgs (objects : Objects)
    (hsame : SameAbi decoder.toAbiLoader dataSources) :
    Writes (applyCall decoder objects)
      (fun st => KeptFrom decoder.toAbiLoader dataSources st.contractInterfaces)
      (fun call => call.ds ∈ dataSources) DecodingState.transactionArgs
      (fun call transaction => call.transactionArgs decoder objects transaction) where
  inv st call hkept hds := (applyCall_spec objects hsame call hds st hkept).kept
  cells st call hkept hds transaction := by
    rw [(applyCall_spec objects hsame call hds st hkept).transactionArgs]
    rfl

/-- **What was processed before does not show in the arguments.**  Among data sources that share
an ABI only under one name, a call leaves on a log, and on a transaction, what it would leave on a
fresh copy, namely what the data source's own ABI decodes.  This covers every object it decodes,
and every object no earlier call has decoded. -/
theorem args_as_first_seen (decoder : AbiDecoder ι φ α) (objects : Objects) (history : List Call)
    (call : Call) (hsame : SameAbi decoder.toAbiLoader ((history ++ [call]).map Call.ds)) :
    (∀ log, (call.logArgs decoder objects log ≠ none ∨
        ∀ earlier ∈ history, earlier.logArgs decoder objects log = none) →
      (run decoder objects (history ++ [call])).logArgs log =
          (run decoder objects [call]).logArgs log ∧
        (run decoder objects [call]).logArgs log = call.logArgs decoder objects log) ∧
    (∀ transaction, (call.transactionArgs decoder objects transaction ≠ none ∨
        ∀ earlier ∈ history, earlier.transactionArgs decoder objects transaction = none) →
      (run decoder objects (history ++ [call])).transactionArgs transaction =
          (run decoder objects [call]).transactionArgs transaction ∧
        (run decoder objects [call]).transactionArgs transaction =
          call.transactionArgs decoder objects transaction) := by
  have hall : ∀ earlier ∈ history ++ [call], earlier.ds ∈ (history ++ [call]).map Call.ds :=
    fun earlier h => List.mem_map_of_mem h
  have hlast : ∀ earlier ∈ [] ++ [call], earlier.ds ∈ (history ++ [call]).map Call.ds :=
    fun earlier h => hall earlier (List.mem_append_right history h)
  have hnew : KeptFrom decoder.toAbiLoader ((history ++ [call]).map Call.ds) [] := by
    intro name iface h
    exact absurd h (by simp)
  constructor
  · intro log h
    have hwrites := writes_logArgs objects hsame
    have hfirst : (run decoder objects [call]).logArgs log = call.logArgs decoder objects log :=
      cells_run_concat hwrites {} hnew log rfl [] call hlast (.inr (by simp))
    exact ⟨(cells_run_concat hwrites {} hnew log rfl history call hall h).trans hfirst.symm, hfirst⟩
  · intro transaction h
    have hwrites := writes_transactionArgs objects hsame
    have hfirst : (run decoder objects [call]).transactionArgs transaction =
        call.transactionArgs decoder objects transaction :=
      cells_run_concat hwrites {} hnew transaction rfl [] call hlast (.inr (by simp))
    exact ⟨(cells_run_concat hwrites {} hnew transaction rfl history call hall h).trans hfirst.symm,
      hfirst⟩

end Histories

/-! ### Contracts that can be paused -/

/-- Two ABI files whose event `Paused(address)` names its argument differently.  An interface is
known by that name. -/
def pausedDecoder : AbiDecoder String Unit (List (String × String)) where
  readFile path :=
    if path = "./abis/pausable.json" then .ok "[\"event Paused(address account)\"]"
    else if path = "./abis/guarded.json" then .ok "[\"event Paused(address guardian)\"]"
    else .error { message := "ENOENT: no such file or directory" }
  parseJson text :=
    if text = "[\"event Paused(address account)\"]" then
      .ok (.arr [.str "event Paused(address account)"])
    else if text = "[\"event Paused(address guardian)\"]" then
      .ok (.arr [.str "event Paused(address guardian)"])
    else .error { name := "SyntaxError", message := "Unexpected token" }
  newInterface
    | .arr [.str text] =>
      if text = "event Paused(address account)" then .ok "account"
      else if text = "event Paused(address guardian)" then .ok "guardian"
      else .error { message := "unsupported fragment" }
    | _ => .error { message := "unsupported fragment" }
  hexDataSlice := erc20Platform.hexDataSlice
  parseLogArgs iface topics data :=
    if topics = ["0x62e78cea01bee320cd4e420270b5ea74000d11b0c9f74754ebdbfc544b05a258"] then do
      let address ← erc20Platform.hexDataSlice data 12 32
      return [(iface, address)]
    else .error { message := "no matching event" }
  getFunction _ _ := .error { message := "no matching function" }
  decodeFunctionData _ _ _ := .error { message := "no matching function" }

/-- One log of the event. -/
def pausedObjects : Objects where
  log _ :=
    { address := some "0x2222222222222222222222222222222222222222"
      topics := ["0x62e78cea01bee320cd4e420270b5ea74000d11b0c9f74754ebdbfc544b05a258"]
      data := "0x0000000000000000000000001111111111111111111111111111111111111111" }
  input _ := "0x"
  logsOf _ := none

def pausedDs (abi : Option String) (file : String) : SubqlRuntimeDatasource where
  options := some { abi }
  assets := some [(abi.getD "abi", file)]
  handlers := []

/-- An ABI of another data source is used under its name, and arguments stay when a data source
has no ABI. -/
theorem args_of_earlier_data_source :
    (run pausedDecoder pausedObjects
        [.parseLog 0 (pausedDs (some "token") "./abis/pausable.json"),
         .parseLog 0 (pausedDs (some "token") "./abis/guarded.json")]).logArgs 0 ≠
      (run pausedDecoder pausedObjects
        [.parseLog 0 (pausedDs (some "token") "./abis/guarded.json")]).logArgs 0 ∧
    (run pausedDecoder pausedObjects
        [.parseLog 0 (pausedDs (some "token") "./abis/pausable.json"),
         .parseLog 0 (pausedDs none "./abis/guarded.json")]).logArgs 0 ≠
      (run pausedDecoder pausedObjects
        [.parseLog 0 (pausedDs none "./abis/guarded.json")]).logArgs 0 := by
  decide

/-- With ABI names of their own, the second data source decodes as if it were the first. -/
theorem args_as_first_seen_paused :
    (run pausedDecoder pausedObjects
        ([.parseLog 0 (pausedDs (some "pausable") "./abis/pausable.json")] ++
         [.parseLog 0 (pausedDs (some "guarded") "./abis/guarded.json")])).logArgs 0 =
      some [("guardian", "0x1111111111111111111111111111111111111111")] := by
  obtain ⟨hlogs, -⟩ := args_as_first_seen pausedDecoder pausedObjects
    [.parseLog 0 (pausedDs (some "pausable") "./abis/pausable.json")]
    (.parseLog 0 (pausedDs (some "guarded") "./abis/guarded.json"))
    (by unfold SameAbi; decide)
  obtain ⟨hsame, hown⟩ := hlogs 0 (.inl (by decide))
  rw [hsame, hown]
  decide

end SubqlEthereum.Ethereum.AbiDecoding
