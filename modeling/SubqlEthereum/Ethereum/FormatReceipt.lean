import SubqlEthereum.Ethereum.Format
import SubqlEthereum.Library.Fallible

/-!
# Receipts

`formatReceipt` of `utils.ethereum.ts`.  It hands `formatLog` to `map` as it is, and `map` calls it
with the log and the position of the log, which `formatLog` takes for the block.  So a log of a
receipt has a number where other logs have their block, and no transaction; splitting the logs of a
receipt changes them (`logsSplit_iff`).
-/

namespace SubqlEthereum.FormatReceipt

open SubqlEthereum.External SubqlEthereum.Blocks SubqlEthereum.Fallible
open SubqlEthereum.Ethereum (RpcNumber handleNumber handleAddress toNumber)

/-! ### A log -/

/-- A log as it comes with a receipt. -/
structure RawLog where
  address : Option String := none
  topics : List String := []
  data : String := "0x"
  blockHash : Option String := none
  blockNumber : RpcNumber := .undefined
  transactionHash : String := ""
  transactionIndex : RpcNumber := .undefined
  logIndex : RpcNumber := .undefined
  removed : Bool := false
deriving DecidableEq, Repr

/-- What `formatLog` is called with next to the log: a block, or the position `map` passes. -/
inductive LogBlock
  | block (block : EthereumBlock)
  | position (i : ℕ)
deriving DecidableEq, Repr

/-- A log with the reference to its block. -/
structure FormattedLog extends EthereumLog where
  block : LogBlock
deriving DecidableEq, Repr

def formatLog (p : Platform) (log : RawLog) (block : LogBlock) : Except JsError FormattedLog := do
  let address ← handleAddress p log.address
  let blockNumber ← handleNumber p log.blockNumber >>= toNumber
  let transactionIndex ← handleNumber p log.transactionIndex >>= toNumber
  let logIndex ← handleNumber p log.logIndex >>= toNumber
  return { address, topics := log.topics, data := log.data, blockHash := log.blockHash, blockNumber,
           transactionHash := log.transactionHash, transactionIndex, logIndex,
           removed := log.removed, block }

/-- The getter `transaction`: a number has no transactions to look in. -/
def FormattedLog.transaction (log : FormattedLog) : Option EthereumTransaction :=
  match log.block with
  | .block block => block.transactions.find? (·.hash = log.transactionHash)
  | .position _ => none

/-- The fields of a formatted log that do not refer to the block. -/
def logFields (p : Platform) (log : RawLog) : Except JsError EthereumLog := do
  let address ← handleAddress p log.address
  let blockNumber ← handleNumber p log.blockNumber >>= toNumber
  let transactionIndex ← handleNumber p log.transactionIndex >>= toNumber
  let logIndex ← handleNumber p log.logIndex >>= toNumber
  return { address, topics := log.topics, data := log.data, blockHash := log.blockHash, blockNumber,
           transactionHash := log.transactionHash, transactionIndex, logIndex,
           removed := log.removed }

theorem formatLog_eq (p : Platform) (log : RawLog) (block : LogBlock) :
    formatLog p log block = do
      let fields ← logFields p log
      return { fields with block } := by
  simp only [formatLog, logFields, bind_assoc, pure_bind]

/-! ### A receipt -/

structure RawReceipt where
  blockHash : String := ""
  contractAddress : Option String := none
  logsBloom : String := ""
  transactionHash : String := ""
  type : String := "0x0"
  «from» : Option String := none
  «to» : Option String := none
  blockNumber : RpcNumber := .undefined
  cumulativeGasUsed : RpcNumber := .undefined
  effectiveGasPrice : RpcNumber := .undefined
  gasUsed : RpcNumber := .undefined
  status : RpcNumber := .undefined
  transactionIndex : RpcNumber := .undefined
  logs : List RawLog := []
deriving DecidableEq, Repr

structure EthereumReceipt where
  blockHash : String
  contractAddress : Option String
  logsBloom : String
  transactionHash : String
  type : String
  «from» : Option String
  «to» : Option String
  blockNumber : ℤ
  cumulativeGasUsed : ℤ
  effectiveGasPrice : ℤ
  gasUsed : ℤ
  status : Bool
  transactionIndex : ℤ
  logs : List FormattedLog
deriving DecidableEq, Repr

/-- `logs.map(formatLog)`, for logs that start at position `i`. -/
def formatLogs (p : Platform) (i : ℕ) (logs : List RawLog) : Except JsError (List FormattedLog) :=
  (logs.zipIdx i).mapM fun entry => formatLog p entry.1 (.position entry.2)

def formatReceipt (p : Platform) (receipt : RawReceipt) : Except JsError EthereumReceipt := do
  let sender ← handleAddress p receipt.from
  let recipient ← handleAddress p receipt.to
  let blockNumber ← handleNumber p receipt.blockNumber >>= toNumber
  let cumulativeGasUsed ← handleNumber p receipt.cumulativeGasUsed
  let effectiveGasPrice ← handleNumber p receipt.effectiveGasPrice
  let gasUsed ← handleNumber p receipt.gasUsed
  let logs ← formatLogs p 0 receipt.logs
  let status ← handleNumber p receipt.status >>= toNumber
  let transactionIndex ← handleNumber p receipt.transactionIndex >>= toNumber
  return { blockHash := receipt.blockHash, contractAddress := receipt.contractAddress,
           logsBloom := receipt.logsBloom, transactionHash := receipt.transactionHash,
           type := receipt.type, «from» := sender, «to» := recipient, blockNumber,
           cumulativeGasUsed, effectiveGasPrice, gasUsed, status := status ≠ 0, transactionIndex,
           logs }

/-! ### What is formatted -/

/-- Every field of the log converts. -/
def RawLog.converts (p : Platform) (log : RawLog) : Bool :=
  (handleAddress p log.address).isOk && (handleNumber p log.blockNumber >>= toNumber).isOk &&
    (handleNumber p log.transactionIndex >>= toNumber).isOk &&
    (handleNumber p log.logIndex >>= toNumber).isOk

/-- Every field of the receipt converts, and those of its logs. -/
def RawReceipt.converts (p : Platform) (receipt : RawReceipt) : Bool :=
  (handleAddress p receipt.from).isOk && (handleAddress p receipt.to).isOk &&
    (handleNumber p receipt.blockNumber >>= toNumber).isOk &&
    (handleNumber p receipt.cumulativeGasUsed).isOk &&
    (handleNumber p receipt.effectiveGasPrice).isOk && (handleNumber p receipt.gasUsed).isOk &&
    receipt.logs.all (·.converts p) && (handleNumber p receipt.status >>= toNumber).isOk &&
    (handleNumber p receipt.transactionIndex >>= toNumber).isOk

theorem logFields_isOk (p : Platform) (log : RawLog) :
    (logFields p log).isOk = log.converts p := by
  simp only [RawLog.converts, Bool.and_assoc]
  refine isOk_bind fun address => isOk_bind fun blockNumber => isOk_bind fun transactionIndex => ?_
  exact isOk_bind_ok _ _

/-- The logs with the positions `map` passes with them. -/
def placed (i : ℕ) (fields : List EthereumLog) : List FormattedLog :=
  (fields.zipIdx i).map fun entry => { entry.1 with block := .position entry.2 }

/-- **The traversal**: each log is formatted for itself, and refers to its position. -/
theorem formatLogs_eq (p : Platform) (logs : List RawLog) :
    ∀ i, formatLogs p i logs = placed i <$> logs.mapM (logFields p) := by
  induction logs with
  | nil => exact fun i => rfl
  | cons log rest ih =>
    intro i
    have hrest := ih (i + 1)
    rw [formatLogs] at hrest ⊢
    rw [List.zipIdx_cons, List.mapM_cons, hrest, List.mapM_cons, formatLog_eq]
    cases logFields p log with
    | error e => rfl
    | ok fields =>
      cases rest.mapM (logFields p) with
      | error e => rfl
      | ok others => rfl

theorem formatLogs_isOk (p : Platform) (i : ℕ) (logs : List RawLog) :
    (formatLogs p i logs).isOk = logs.all (·.converts p) := by
  have hmap : ∀ x : Except JsError (List EthereumLog), (placed i <$> x).isOk = x.isOk := by
    intro x
    cases x <;> rfl
  rw [formatLogs_eq, hmap, mapM_isOk]
  exact congrArg logs.all (funext (logFields_isOk p))

/-- **A receipt is formatted when all its fields convert.** -/
theorem formatReceipt_isOk (p : Platform) (receipt : RawReceipt) :
    (formatReceipt p receipt).isOk = receipt.converts p := by
  simp only [RawReceipt.converts, Bool.and_assoc]
  refine isOk_bind fun sender => isOk_bind fun recipient => isOk_bind fun blockNumber => ?_
  refine isOk_bind fun cumulativeGasUsed => isOk_bind fun effectiveGasPrice => ?_
  refine isOk_bind fun gasUsed => ?_
  rw [← formatLogs_isOk p 0]
  refine isOk_bind fun logs => isOk_bind fun status => ?_
  exact isOk_bind_ok _ _

/-- The receipt with other logs: only the logs are formatted anew. -/
theorem formatReceipt_with_logs (p : Platform) (receipt : RawReceipt) (out : EthereumReceipt)
    (h : formatReceipt p receipt = .ok out) :
    formatLogs p 0 receipt.logs = .ok out.logs ∧ ∀ logs,
      formatReceipt p { receipt with logs } =
        (fun logs => { out with logs }) <$> formatLogs p 0 logs := by
  obtain ⟨sender, hsender, h⟩ := ok_of_bind_ok h
  obtain ⟨recipient, hrecipient, h⟩ := ok_of_bind_ok h
  obtain ⟨blockNumber, hblock, h⟩ := ok_of_bind_ok h
  obtain ⟨cumulativeGasUsed, hcumulative, h⟩ := ok_of_bind_ok h
  obtain ⟨effectiveGasPrice, hprice, h⟩ := ok_of_bind_ok h
  obtain ⟨gasUsed, hgas, h⟩ := ok_of_bind_ok h
  obtain ⟨formatted, hlogs, h⟩ := ok_of_bind_ok h
  obtain ⟨status, hstatus, h⟩ := ok_of_bind_ok h
  obtain ⟨transactionIndex, hindex, h⟩ := ok_of_bind_ok h
  obtain rfl := Except.ok.inj h
  refine ⟨hlogs, fun logs => ?_⟩
  simp only [formatReceipt, hsender, hrecipient, hblock, hcumulative, hprice, hgas]
  show (formatLogs p 0 logs >>= fun logs => _) = _
  cases formatLogs p 0 logs with
  | error e => rfl
  | ok others =>
    simp only [hstatus, hindex]
    rfl

/-! ### Splitting the logs -/

theorem placed_append (i : ℕ) (xs ys : List EthereumLog) :
    placed i (xs ++ ys) = placed i xs ++ placed (i + xs.length) ys := by
  rw [placed, List.zipIdx_append, List.map_append]
  rfl

/-- Logs keep their positions only when they start at the same one. -/
theorem placed_eq_iff (i j : ℕ) (fields : List EthereumLog) :
    placed i fields = placed j fields ↔ i = j ∨ fields = [] := by
  constructor
  · intro h
    cases fields with
    | nil => exact .inr rfl
    | cons log rest =>
      have hfirst : (log.1, LogBlock.position i) = (log.1, LogBlock.position j) :=
        congrArg (fun l : FormattedLog => (l.address, l.block)) (List.cons.inj h).1
      exact .inl (LogBlock.position.inj (Prod.mk.inj hfirst).2)
  · rintro (rfl | rfl)
    · rfl
    · rfl

/-- Formatting all the logs is formatting the two parts, with the second further on. -/
theorem mapM_append_ok (p : Platform) (front back : List RawLog) (fields : List EthereumLog)
    (h : (front ++ back).mapM (logFields p) = .ok fields) :
    ∃ first second, front.mapM (logFields p) = .ok first ∧ back.mapM (logFields p) = .ok second ∧
      fields = first ++ second := by
  rw [List.mapM_append] at h
  obtain ⟨first, hfirst, h⟩ := ok_of_bind_ok h
  obtain ⟨second, hsecond, h⟩ := ok_of_bind_ok h
  exact ⟨first, second, hfirst, hsecond, (Except.ok.inj h).symm⟩

/-- **The logs of the whole and of the parts.**  All three receipts are formatted together, with the
same fields for each log, at positions from the start of its receipt. -/
theorem formatReceipt_split (p : Platform) (receipt : RawReceipt) (front back : List RawLog)
    (out : EthereumReceipt)
    (h : formatReceipt p { receipt with logs := front ++ back } = .ok out) :
    ∃ first second, first.length = front.length ∧ second.length = back.length ∧
      formatReceipt p { receipt with logs := front } = .ok { out with logs := placed 0 first } ∧
      formatReceipt p { receipt with logs := back } = .ok { out with logs := placed 0 second } ∧
      out.logs = placed 0 first ++ placed front.length second := by
  obtain ⟨hlogs, hother⟩ := formatReceipt_with_logs p _ out h
  rw [formatLogs_eq] at hlogs
  cases hall : (front ++ back).mapM (logFields p) with
  | error e =>
    rw [hall] at hlogs
    exact absurd hlogs (by simp)
  | ok fields =>
    obtain ⟨first, second, hfirst, hsecond, rfl⟩ := mapM_append_ok p front back fields hall
    have hlength := ((mapM_ok_iff _ _ _).mp hfirst).length_eq
    have hfront := hother front
    have hback := hother back
    rw [formatLogs_eq, hfirst] at hfront
    rw [formatLogs_eq, hsecond] at hback
    rw [hall] at hlogs
    refine ⟨first, second, hlength.symm, ((mapM_ok_iff _ _ _).mp hsecond).length_eq.symm, hfront,
      hback, ?_⟩
    rw [hlength, ← Nat.zero_add first.length, ← placed_append]
    exact (Except.ok.inj hlogs).symm

/-- The logs of a receipt are those of its parts, one after the other. -/
def LogsSplit (p : Platform) (receipt : RawReceipt) (front back : List RawLog) : Prop :=
  ∀ out, formatReceipt p { receipt with logs := front ++ back } = .ok out →
    ∃ first second, formatReceipt p { receipt with logs := front } = .ok first ∧
      formatReceipt p { receipt with logs := back } = .ok second ∧
      out.logs = first.logs ++ second.logs

/-- **When the logs split**: only where there is nothing to split, since every log has its position
for a block. -/
theorem logsSplit_iff (p : Platform) (receipt : RawReceipt) (front back : List RawLog) :
    LogsSplit p receipt front back ↔
      front = [] ∨ back = [] ∨
        RawReceipt.converts p { receipt with logs := front ++ back } = false := by
  constructor
  · intro hsplit
    by_cases hconverts : RawReceipt.converts p { receipt with logs := front ++ back } = true
    · rw [← formatReceipt_isOk, isOk_iff] at hconverts
      obtain ⟨out, hout⟩ := hconverts
      obtain ⟨first, second, hfirst, hsecond, hfront, hback, hlogs⟩ :=
        formatReceipt_split p receipt front back out hout
      obtain ⟨whole, part, hwhole, hpart, hsame⟩ := hsplit out hout
      rw [hfront] at hwhole
      rw [hback] at hpart
      obtain rfl := Except.ok.inj hwhole
      obtain rfl := Except.ok.inj hpart
      rw [hlogs, List.append_cancel_left_eq, placed_eq_iff] at hsame
      rcases hsame with hzero | hnil
      · exact .inl (List.length_eq_zero_iff.mp hzero)
      · rw [hnil] at hsecond
        exact .inr (.inl (List.length_eq_zero_iff.mp hsecond.symm))
    · exact .inr (.inr (by simpa using hconverts))
  · intro hcondition out hout
    obtain ⟨first, second, hfirst, hsecond, hfront, hback, hlogs⟩ :=
      formatReceipt_split p receipt front back out hout
    refine ⟨_, _, hfront, hback, ?_⟩
    rw [hlogs, List.append_cancel_left_eq, placed_eq_iff]
    rcases hcondition with hnil | hnil | hfails
    · exact .inl (by rw [hnil]; rfl)
    · rw [hnil] at hsecond
      exact .inr (List.length_eq_zero_iff.mp hsecond)
    · rw [← formatReceipt_isOk, hout] at hfails
      exact absurd hfails (by simp [Except.isOk, Except.toBool])

/-- A log of a token with the place it has in its block. -/
def tokenLog (logIndex : String) : RawLog where
  address := some "0x2791000000000000000000000000000000004174"
  blockNumber := .text "0xf5"
  logIndex := .text logIndex

/-- **Two logs of one receipt**: in a receipt of its own, the second would have the block of the
first. -/
theorem token_logs_not_split :
    ¬ LogsSplit erc20Platform { status := .text "0x1" } [tokenLog "0x3"] [tokenLog "0x4"] := by
  intro hsplit
  obtain ⟨first, second, hfirst, hsecond, hlogs⟩ := hsplit _ rfl
  obtain rfl := Except.ok.inj hfirst
  obtain rfl := Except.ok.inj hsecond
  exact absurd hlogs (by decide)

/-- The other fields of the logs do split. -/
theorem fields_split (p : Platform) (receipt : RawReceipt) (front back : List RawLog)
    (out : EthereumReceipt)
    (h : formatReceipt p { receipt with logs := front ++ back } = .ok out) :
    ∃ first second, formatReceipt p { receipt with logs := front } = .ok first ∧
      formatReceipt p { receipt with logs := back } = .ok second ∧
      out.logs.map (·.toEthereumLog) =
        (first.logs ++ second.logs).map (·.toEthereumLog) := by
  obtain ⟨first, second, -, -, hfront, hback, hlogs⟩ :=
    formatReceipt_split p receipt front back out h
  have hfields : ∀ i (fields : List EthereumLog),
      (placed i fields).map (·.toEthereumLog) = fields := by
    intro i fields
    rw [placed, List.map_map]
    exact List.zipIdx_map_fst i fields
  refine ⟨_, _, hfront, hback, ?_⟩
  rw [hlogs, List.map_append, List.map_append, hfields, hfields, hfields]

/-- **No log of a receipt has its transaction.** -/
theorem receipt_log_transaction (p : Platform) (receipt : RawReceipt) (out : EthereumReceipt)
    (h : formatReceipt p receipt = .ok out) : ∀ log ∈ out.logs, log.transaction = none := by
  obtain ⟨hlogs, -⟩ := formatReceipt_with_logs p receipt out h
  rw [formatLogs_eq] at hlogs
  intro log hlog
  cases hfields : receipt.logs.mapM (logFields p) with
  | error e =>
    rw [hfields] at hlogs
    exact absurd hlogs (by simp)
  | ok fields =>
    rw [hfields] at hlogs
    rw [← Except.ok.inj hlogs] at hlog
    obtain ⟨entry, -, rfl⟩ := List.mem_map.mp hlog
    rfl

end SubqlEthereum.FormatReceipt
