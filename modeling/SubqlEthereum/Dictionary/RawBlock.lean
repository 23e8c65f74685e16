import SubqlEthereum.IndexerManager
import SubqlEthereum.Library.Grouping

/-!
# Blocks of the V2 dictionary

`rawBlockToEthBlock` of `dictionary/v2/utils.ts`, and what becomes of the logs of such a block.
The transactions are joined to the logs by hash.  The indexer passes on the logs of the
transactions when there is a transaction, and the logs of the block when there is none; a log
whose transaction did not come with it is passed on only in the second case.

Whether transactions come with the logs is asked for in the field selector of `getData`, which
looks at `skipTransactions` alone.
-/

namespace SubqlEthereum.Dictionary

open SubqlEthereum.External SubqlEthereum.Project SubqlEthereum.Blocks SubqlEthereum.Fallible
open SubqlEthereum.Ethereum SubqlEthereum.IndexerManager SubqlEthereum.Grouping

/-! ### The block as the dictionary returns it -/

structure RawEthLog where
  address : String := ""
  topics : List String := []
  data : String := "0x"
  blockHash : String := ""
  blockNumber : RpcNumber := .undefined
  transactionHash : String := ""
  transactionIndex : RpcNumber := .undefined
  logIndex : RpcNumber := .undefined
  removed : Bool := false
deriving DecidableEq, Repr

/-- A missing list stands for an empty one. -/
structure RawEthBlock where
  header : RawHeader
  transactions : Option (List RawTransaction)
  logs : Option (List RawEthLog)
deriving DecidableEq, Repr

/-- The formatter of the API, with its documented treatment of hashes: they come out in lower
case. -/
structure Formatter (p : Platform) where
  filterLog : RawEthLog → Except JsError Log
  filterLog_transactionHash : ∀ raw log, filterLog raw = .ok log →
    log.transactionHash = p.toLowerCase raw.transactionHash

/-- A number inside a template string. -/
def printNumber : RpcNumber → String
  | .undefined => "undefined"
  | .null => "null"
  | .text s => s
  | .number n => toString n

def rawBlockToEthBlock (p : Platform) (formatter : Formatter p) (block : RawEthBlock) :
    Except JsError EthereumBlock :=
  let wrap (e : JsError) : JsError :=
    { message := "Convert raw block to Eth block failed at " ++
        printNumber block.header.number ++ "," ++ e.message }
  Except.mapError wrap do
    let ethBlock ← formatBlock p block.header
    let filtered ← (block.logs.getD []).mapM formatter.filterLog
    let logs ← filtered.mapM (formatLog p)
    let transactions ← (block.transactions.getD []).mapM (withLogs p ethBlock logs)
    return { toBlockHeader := ethBlock, logs, transactions }

/-! ### What the dictionary is asked for -/

/-- The field selector of a request. -/
structure FieldSelector where
  blockHeader : Bool
  logsTransaction : Bool
  transactionsLog : Bool
deriving DecidableEq, Repr

/-- The selector `getData` sends. -/
def fieldSelector (skipTransactions : Bool) : FieldSelector where
  blockHeader := true
  logsTransaction := !skipTransactions
  transactionsLog := true

/-- A block that conforms to a selector: the hashes are distinct and, when transactions were
asked for with the logs, every log comes with its transaction. -/
def Conforms (selector : FieldSelector) (block : RawEthBlock) : Prop :=
  ((block.transactions.getD []).map (·.hash)).Nodup ∧
    (selector.logsTransaction = true → ∀ log ∈ block.logs.getD [],
      ∃ tx ∈ block.transactions.getD [], tx.hash = log.transactionHash)

/-! ### Joining the logs to the transactions -/

/-- The hashes of the formatted logs are those of the raw logs in lower case. -/
theorem logs_transactionHash (p : Platform) (formatter : Formatter p) (raws : List RawEthLog)
    (filtered : List Log) (logs : List EthereumLog)
    (hfilter : List.Forall₂ (fun raw log => formatter.filterLog raw = .ok log) raws filtered)
    (hformat : List.Forall₂ (fun raw log => formatLog p raw = .ok log) filtered logs) :
    logs.map (·.transactionHash) = raws.map fun raw => p.toLowerCase raw.transactionHash := by
  induction hfilter generalizing logs with
  | nil =>
    cases hformat
    rfl
  | cons hraw _ ih =>
    cases hformat with
    | cons hlog hrest =>
      rw [List.map_cons, List.map_cons, ih _ hrest, formatLog_transactionHash p _ _ hlog,
        formatter.filterLog_transactionHash _ _ hraw]

/-- **A converted block**: the hashes of its logs, and the logs its transactions carry. -/
theorem rawBlockToEthBlock_ok (p : Platform) (formatter : Formatter p) (raw : RawEthBlock)
    (block : EthereumBlock) (h : rawBlockToEthBlock p formatter raw = .ok block) :
    block.logs.map (·.transactionHash) =
        (raw.logs.getD []).map (fun log => p.toLowerCase log.transactionHash) ∧
      (block.transactions.flatMap fun tx => tx.logs.getD []) =
        ((raw.transactions.getD []).map (·.hash)).flatMap (fun hash =>
          block.logs.filter fun log => log.transactionHash = hash) ∧
      block.transactions.length = (raw.transactions.getD []).length := by
  rw [rawBlockToEthBlock] at h
  obtain ⟨header, -, hrest⟩ := ok_of_bind_ok (ok_of_mapError_ok h)
  obtain ⟨filtered, hfiltered, hrest⟩ := ok_of_bind_ok hrest
  obtain ⟨logs, hlogs, hrest⟩ := ok_of_bind_ok hrest
  obtain ⟨transactions, htransactions, hrest⟩ := ok_of_bind_ok hrest
  have heq : block = { toBlockHeader := header, logs, transactions } :=
    (Except.ok.inj hrest).symm
  subst heq
  have hforall := (mapM_ok_iff _ _ _).mp htransactions
  exact ⟨logs_transactionHash p formatter _ filtered logs ((mapM_ok_iff _ _ _).mp hfiltered)
      ((mapM_ok_iff _ _ _).mp hlogs), transactions_logs p header logs _ transactions hforall,
    hforall.length_eq.symm⟩

/-! ### Delivery -/

/-- **When every log of a dictionary block is delivered once.**  Of a conforming block: the Event
handlers of every data source are passed each log exactly once, for all data sources, if and
only if the block has no transactions or every log comes with its transaction. -/
theorem dictionary_logs_delivered_iff (p : Platform) (formatter : Formatter p)
    (skipTransactions : Bool) (raw : RawEthBlock)
    (hconforms : Conforms (fieldSelector skipTransactions) raw) (block : EthereumBlock)
    (h : rawBlockToEthBlock p formatter raw = .ok block) :
    (∀ dataSources : List SubqlDatasource,
      (eventCalls (recordedCalls (.full block) dataSources)).Perm
        (block.logs.flatMap fun log => dataSources.map fun ds => (log, ds))) ↔
      raw.transactions.getD [] = [] ∨ ∀ log ∈ raw.logs.getD [],
        ∃ tx ∈ raw.transactions.getD [], tx.hash = p.toLowerCase log.transactionHash := by
  obtain ⟨hhashes, hjoined, hlength⟩ := rawBlockToEthBlock_ok p formatter raw block h
  -- the raw logs come with their transactions exactly when the formatted ones do
  have hcover : (∀ log ∈ raw.logs.getD [],
      ∃ tx ∈ raw.transactions.getD [], tx.hash = p.toLowerCase log.transactionHash) ↔
      ∀ log ∈ block.logs, log.transactionHash ∈ (raw.transactions.getD []).map (·.hash) := by
    have hall : ∀ P : String → Prop, (∀ log ∈ raw.logs.getD [],
        P (p.toLowerCase log.transactionHash)) ↔ ∀ log ∈ block.logs, P log.transactionHash := by
      intro P
      have hmap : (∀ hash ∈ (raw.logs.getD []).map fun log => p.toLowerCase log.transactionHash,
          P hash) ↔ ∀ log ∈ raw.logs.getD [], P (p.toLowerCase log.transactionHash) :=
        List.forall_mem_map
      rw [← hmap, ← hhashes, List.forall_mem_map]
    simpa only [List.mem_map] using
      hall fun hash => ∃ tx ∈ raw.transactions.getD [], tx.hash = hash
  rw [hcover]
  by_cases hnil : raw.transactions.getD [] = []
  · have hempty : block.transactions = [] := by
      rw [hnil] at hlength
      exact List.eq_nil_of_length_eq_zero hlength
    refine iff_of_true (fun dataSources => ?_) (.inl hnil)
    rw [(calls_of_no_transactions block hempty dataSources).2.2]
  · have hne : block.transactions ≠ [] := by
      intro hempty
      rw [hempty] at hlength
      exact hnil (List.eq_nil_of_length_eq_zero hlength.symm)
    constructor
    · intro hall
      refine .inr fun log hlog => ?_
      have hperm := hall [.runtime { handlers := [] }]
      rw [(calls_of_transactions block hne _).2.2, hjoined] at hperm
      have hcall : (log, SubqlDatasource.runtime { handlers := [] }) ∈
          block.logs.flatMap fun l => [SubqlDatasource.runtime { handlers := [] }].map
            fun ds => (l, ds) :=
        List.mem_flatMap.mpr ⟨log, hlog, List.mem_singleton_self _⟩
      obtain ⟨l, hl, hpair⟩ := List.mem_flatMap.mp (hperm.mem_iff.mpr hcall)
      obtain ⟨hash, hhash, hfiltered⟩ := List.mem_flatMap.mp hl
      have hlog' : log = l := (Prod.mk.inj (List.mem_singleton.mp hpair)).1
      have hkey : l.transactionHash = hash := by
        simpa using (List.mem_filter.mp hfiltered).2
      rw [hlog', hkey]
      exact hhash
    · intro hcond dataSources
      have hall : ∀ log ∈ block.logs,
          log.transactionHash ∈ (raw.transactions.getD []).map (·.hash) := by
        rcases hcond with hcontra | hall
        · exact absurd hcontra hnil
        · exact hall
      rw [(calls_of_transactions block hne dataSources).2.2, hjoined]
      exact (flatMap_filter_perm (·.transactionHash) _ hconforms.1 block.logs hall).flatMap_right _

/-- A formatter of logs whose numbers are converted as everywhere. -/
def erc20Formatter : Formatter erc20Platform where
  filterLog raw := do
    let blockNumber ← handleNumber erc20Platform raw.blockNumber
    let transactionIndex ← handleNumber erc20Platform raw.transactionIndex
    let address ← erc20Platform.getAddress raw.address
    let transactionHash ← erc20Platform.formatHash raw.transactionHash
    let logIndex ← handleNumber erc20Platform raw.logIndex
    let blockHash ← erc20Platform.formatHash raw.blockHash
    return { address, topics := raw.topics, data := raw.data, blockHash := some blockHash,
             blockNumber, transactionHash, transactionIndex, logIndex, removed := raw.removed }
  filterLog_transactionHash := by
    intro raw log h
    obtain ⟨blockNumber, -, h⟩ := ok_of_bind_ok h
    obtain ⟨transactionIndex, -, h⟩ := ok_of_bind_ok h
    obtain ⟨address, -, h⟩ := ok_of_bind_ok h
    obtain ⟨transactionHash, hhash, h⟩ := ok_of_bind_ok h
    obtain ⟨logIndex, -, h⟩ := ok_of_bind_ok h
    obtain ⟨blockHash, -, h⟩ := ok_of_bind_ok h
    rw [← Except.ok.inj h]
    simp only [erc20Platform] at hhash
    split at hhash
    · exact (Except.ok.inj hhash).symm
    · exact absurd hhash (by simp)

/-- A hex string of one digit repeated. -/
def repeated (n : ℕ) (digit : Char) : String := String.ofList ('0' :: 'x' :: List.replicate n digit)

/-- A block with a matched transaction, and a matched log of another transaction. -/
def mixedBlock : RawEthBlock where
  header := { hash := repeated 64 '9' }
  transactions := some [{ hash := repeated 64 '1' }]
  logs := some [{ address := repeated 40 '5', blockHash := repeated 64 '9',
                  transactionHash := repeated 64 '2' }]

/-- What it is converted to. -/
def mixedEthBlock : EthereumBlock where
  hash := repeated 64 '9'
  logs := [{ address := some (repeated 40 '5'), topics := [],
             blockHash := some (repeated 64 '9'), transactionHash := repeated 64 '2' }]
  transactions := [{ hash := repeated 64 '1', logs := some [] }]

/-- **With `skipTransactions` a log can come without its transaction, and is then lost** when
another transaction comes with the block. -/
theorem mixed_block_loses_log :
    Conforms (fieldSelector true) mixedBlock ∧
      rawBlockToEthBlock erc20Platform erc20Formatter mixedBlock = .ok mixedEthBlock ∧
      eventCalls (recordedCalls (.full mixedEthBlock)
        [SubqlDatasource.runtime { handlers := [.event "handleLog" none] }]) = [] := by
  refine ⟨⟨by decide, ?_⟩, by rfl, by rfl⟩
  intro hselected
  exact absurd hselected (by decide)

/-- There neither side of the condition holds. -/
theorem dictionary_logs_delivered_mixed :
    (∀ dataSources : List SubqlDatasource,
      (eventCalls (recordedCalls (.full mixedEthBlock) dataSources)).Perm
        (mixedEthBlock.logs.flatMap fun log => dataSources.map fun ds => (log, ds))) ↔
      mixedBlock.transactions.getD [] = [] ∨ ∀ log ∈ mixedBlock.logs.getD [],
        ∃ tx ∈ mixedBlock.transactions.getD [],
          tx.hash = erc20Platform.toLowerCase log.transactionHash :=
  dictionary_logs_delivered_iff erc20Platform erc20Formatter true mixedBlock
    ⟨by decide, fun hselected => absurd hselected (by decide)⟩ mixedEthBlock (by rfl)

end SubqlEthereum.Dictionary
