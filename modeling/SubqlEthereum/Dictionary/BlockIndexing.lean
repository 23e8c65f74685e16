import SubqlEthereum.Dictionary.LogCoverageV2
import SubqlEthereum.Dictionary.RawBlock
import SubqlEthereum.Dictionary.TransactionMatching
import SubqlEthereum.HandlerFilters
import SubqlEthereum.SkipTransactions

/-!
# Indexing a block of the V2 dictionary

A dictionary answers a query with a part of the block: the logs and transactions that match, and
what the field selector asks for with them, the transaction of a matched log and the logs of a
matched transaction.  The indexer is handed this part in place of the block an endpoint returns.

`covered_block_indexed_alike` says that this makes no difference when the query covers what the
handlers accept of the block: the two are indexed with the same effects.  Block handlers are
excluded, since they are handed the block itself.  The inputs are compared in the fields of
`Blocks`, which do not include the references from a log back to its block and its transaction:
those lead a handler to the part of the block that was answered, where it can see the difference.

`dictionary_block_indexed_alike` is about the query that is built from the data sources, which
covers their handlers under the conditions of `Coverable`.
-/

namespace SubqlEthereum.BlockIndexing

open SubqlEthereum.External SubqlEthereum.Project SubqlEthereum.Strings SubqlEthereum.Blocks
open SubqlEthereum.Fallible SubqlEthereum.Ethereum SubqlEthereum.BlockEthereum
open SubqlEthereum.IndexerManager SubqlEthereum.HandlerFilters SubqlEthereum.Passes
open SubqlEthereum.Dictionary (RawEthBlock Formatter rawBlockToEthBlock FieldSelector fieldSelector
  filterTopics groupedDataSources runtimeDataSources exists_runtime_group
  event_representative DocumentedLogFilter)
open SubqlEthereum.DictionaryV2 (EthDictionaryV2QueryEntry V2MetadataFilters
  buildDictionaryV2QueryEntry takesPart built_of_takesPart eventGroupUnfiltered
  eventGroupUnconstrained log_condition_mem eventFilterToDictionaryCondition_match
  covered_of_unconstrained)
open SubqlEthereum.TransactionCoverage (matchesV2 callQueriesV2 queries_cover_iff buildV2_lets_iff)
open SubqlEthereum.UnusableQueries (topicUnreadable unreadable_of_not_takesPart
  callFilterToDictionaryCondition_isOk)

/-! ### What the dictionary answers -/

section Answer

variable (p : Platform) (entry : EthDictionaryV2QueryEntry)

def selectsLog (log : EthereumLog) : Bool := (entry.logs.getD []).any (·.matchesLog p log)

def selectsTransaction (tx : EthereumTransaction) : Bool :=
  (entry.transactions.getD []).any (matchesV2 p tx)

/-- Whether a transaction of the block matches the query. -/
def matchesRaw (block : BlockHeader) (raw : RawTransaction) : Bool :=
  match formatTransaction p raw block with
  | .ok tx => selectsTransaction p entry tx
  | .error _ => false

def matchesRawLog (raw : Log) : Bool :=
  match formatLog p raw with
  | .ok log => selectsLog p entry log
  | .error _ => false

variable (selector : FieldSelector) (block : BlockHeader)

/-- A transaction is returned when it matches, and with a log that matches when the selector asks
for it. -/
def returnsTransaction (logs : List Log) (raw : RawTransaction) : Bool :=
  matchesRaw p entry block raw ||
    (selector.logsTransaction &&
      logs.any fun log => log.transactionHash = raw.hash && matchesRawLog p entry log)

/-- A log is returned when it matches, and with a transaction that matches when the selector asks
for it. -/
def returnsLog (transactions : List RawTransaction) (raw : Log) : Bool :=
  matchesRawLog p entry raw ||
    (selector.transactionsLog &&
      transactions.any fun tx => tx.hash = raw.transactionHash && matchesRaw p entry block tx)

/-- The answer of the dictionary for a block of the chain: the part of it that is returned, in the
order of the block. -/
structure Answers (formatter : Formatter p) (rawBlock : RawBlock RawTransaction)
    (logsRaw : List Log) (raw : RawEthBlock) : Prop where
  header : raw.header = rawBlock.header
  transactions : raw.transactions.getD [] =
    rawBlock.transactions.filter (returnsTransaction p entry selector block logsRaw)
  logs : (raw.logs.getD []).mapM formatter.filterLog =
    .ok (logsRaw.filter (returnsLog p entry selector block rawBlock.transactions))

end Answer

/-- The query covers what the handlers accept of a block. -/
structure Covers (p : Platform) (entry : EthDictionaryV2QueryEntry)
    (dataSources : List SubqlDatasource) (block : EthereumBlock) : Prop where
  runtime : ∀ ds ∈ dataSources, ∃ runtimeDs, ds = .runtime runtimeDs
  no_block_handlers : ∀ ds ∈ dataSources, ∀ handler filter,
    SubqlHandler.base (.block handler filter) ∉ ds.handlers
  logs : ∀ ds ∈ dataSources, ∀ log ∈ block.logs, dsMayRun p (.log log) ds = true →
    selectsLog p entry log = true
  transactions : ∀ ds ∈ dataSources, ∀ tx ∈ block.transactions,
    dsMayRun p (.transaction tx) ds = true → selectsTransaction p entry tx = true

/-! ### Converting the answer -/

/-- Of a block that was fetched: its header is the formatted one, but for the state root. -/
theorem fetchBlock_header (p : Platform) (api : EthereumApi) (endpoint : Endpoint) (num : ℤ)
    (rawBlock : RawBlock RawTransaction) (block : EthereumBlock)
    (hanswer : endpoint.blockByNumber num = .ok (some rawBlock))
    (hfetch : api.fetchBlock p endpoint num = .ok block) :
    ∃ header stateRoot, formatBlock p rawBlock.header = .ok header ∧
      block.toBlockHeader = { header with stateRoot } := by
  rw [EthereumApi.fetchBlock] at hfetch
  obtain ⟨⟨fetched, txs⟩, hblock, hrest⟩ := ok_of_bind_ok (ok_of_mapError_ok hfetch)
  have hsame : block.toBlockHeader = fetched := by
    iterate 4 obtain ⟨_, -, hrest⟩ := ok_of_bind_ok hrest
    rw [← Except.ok.inj hrest]
  rw [hsame]
  rw [hanswer, EthereumApi.getBlockPromise] at hblock
  obtain ⟨found, hfound, hblock⟩ := ok_of_bind_ok hblock
  rw [← Except.ok.inj hfound] at hblock
  obtain ⟨header, hheader, hroot⟩ := ok_of_bind_ok hblock
  split at hroot
  · exact ⟨header, _, hheader, (Prod.mk.inj (Except.ok.inj hroot)).1.symm⟩
  · obtain ⟨stateRoot, -, hpair⟩ := ok_of_bind_ok hroot
    exact ⟨header, stateRoot, hheader, (Prod.mk.inj (Except.ok.inj hpair)).1.symm⟩

theorem withLogs_formatted (p : Platform) (block : BlockHeader) (logs : List EthereumLog)
    (raw : RawTransaction) (tx : EthereumTransaction) (h : withLogs p block logs raw = .ok tx) :
    ∃ t, formatTransaction p raw block = .ok t ∧
      tx = { t with logs := some (logs.filter (·.transactionHash = raw.hash)) } := by
  rw [withLogs] at h
  obtain ⟨t, ht, hrest⟩ := ok_of_bind_ok h
  exact ⟨t, ht, (Except.ok.inj hrest).symm⟩

/-- The logs of the answer, among those of the block. -/
def returned (p : Platform) (entry : EthDictionaryV2QueryEntry) (selector : FieldSelector)
    (block : BlockHeader) (transactions : List RawTransaction) (log : EthereumLog) : Bool :=
  selectsLog p entry log ||
    (selector.transactionsLog &&
      transactions.any fun tx => tx.hash = log.transactionHash && matchesRaw p entry block tx)

/-- The transactions of the answer, with the returned logs, are those of the block that are
returned. -/
structure Converted (p : Platform) (entry : EthDictionaryV2QueryEntry) (selector : FieldSelector)
    (header : BlockHeader) (rawBlock : RawBlock RawTransaction) (logsRaw : List Log)
    (block dict : EthereumBlock) : Prop where
  logs : dict.logs =
    block.logs.filter (returned p entry selector header rawBlock.transactions)
  transactions : List.Forall₂ (fun raw tx => withLogs p header dict.logs raw = .ok tx)
    (rawBlock.transactions.filter (returnsTransaction p entry selector header logsRaw))
    dict.transactions

/-- **The answer is converted**, whenever the block itself can be fetched. -/
theorem converted_of_answers (p : Platform) (entry : EthDictionaryV2QueryEntry)
    (selector : FieldSelector) (formatter : Formatter p) (header : BlockHeader)
    (rawBlock : RawBlock RawTransaction) (logsRaw : List Log) (raw : RawEthBlock)
    (hraw : Answers p entry selector header formatter rawBlock logsRaw raw)
    (hheader : formatBlock p rawBlock.header = .ok header) (block : EthereumBlock)
    (hlogs : List.Forall₂ (fun raw log => formatLog p raw = .ok log) logsRaw block.logs)
    (htxs : List.Forall₂ (fun raw tx => withLogs p header block.logs raw = .ok tx)
      rawBlock.transactions block.transactions) :
    ∃ dict, rawBlockToEthBlock p formatter raw = .ok dict ∧
      Converted p entry selector header rawBlock logsRaw block dict := by
  have hformatted : (logsRaw.filter (returnsLog p entry selector header
      rawBlock.transactions)).mapM (formatLog p) = .ok (block.logs.filter
        (returned p entry selector header rawBlock.transactions)) := by
    rw [mapM_ok_iff]
    refine List.rel_filter ?_ hlogs
    intro rawLog log hlog
    simp only [returnsLog, returned, matchesRawLog, hlog, formatLog_transactionHash p _ _ hlog]
  obtain ⟨transactions, htransactions⟩ := withLogs_ok p header (block.logs.filter
      (returned p entry selector header rawBlock.transactions))
    (rawBlock.transactions.filter (returnsTransaction p entry selector header logsRaw)) (by
      intro tx htx
      obtain ⟨formatted, -, hok⟩ := exists_related htxs (List.mem_of_mem_filter htx)
      obtain ⟨t, ht, -⟩ := withLogs_formatted p header _ tx formatted hok
      exact ⟨t, ht⟩)
  refine ⟨{ toBlockHeader := header, logs := _, transactions := transactions }, ?_, rfl,
    (mapM_ok_iff _ _ _).mp htransactions⟩
  rw [rawBlockToEthBlock, hraw.header, hheader, hraw.logs, hraw.transactions]
  simp only [bind, Except.bind, hformatted, htransactions]
  rfl

/-! ### The calls of the two blocks -/

/-- Whether the data source of a call may run a handler for its input. -/
def accepted (p : Platform) (call : IndexDataCall SubqlDatasource) : Bool :=
  dsMayRun p call.data call.ds

/-- No call for the input is accepted. -/
theorem filter_callsFor_nil (p : Platform) (data : IndexedData)
    (dataSources : List SubqlDatasource) (h : ∀ ds ∈ dataSources, dsMayRun p data ds = false) :
    (callsFor data dataSources).filter (accepted p) = [] := by
  rw [List.filter_eq_nil_iff]
  intro call hcall
  obtain ⟨ds, hds, rfl⟩ := List.mem_map.mp hcall
  rw [accepted, h ds hds]
  simp

/-- The accepted calls of one transaction and its logs. -/
def transactionCallsOf (p : Platform) (dataSources : List SubqlDatasource)
    (tx : EthereumTransaction) : List (IndexDataCall SubqlDatasource) :=
  (callsFor (.transaction tx) dataSources).filter (accepted p) ++
    (eventCallsFor (tx.logs.getD []) dataSources).filter (accepted p)

/-- Without Block handlers the accepted calls of a block are those of its transactions. -/
theorem accepted_calls (p : Platform) (dataSources : List SubqlDatasource) (block : EthereumBlock)
    (hne : block.transactions ≠ [])
    (hblock : ∀ ds ∈ dataSources, dsMayRun p (.block block) ds = false) :
    (indexCalls (.full block) dataSources).filter (accepted p) =
      block.transactions.flatMap (transactionCallsOf p dataSources) := by
  have hfull : isFullBlock (.full block) = true := by
    rw [isFullBlock, Bool.not_eq_true', List.isEmpty_eq_false_iff]
    exact hne
  simp only [indexCalls, hfull]
  rw [List.filter_append, filter_callsFor_nil p _ dataSources hblock, List.nil_append,
    List.filter_flatMap]
  congr 1
  funext tx
  rw [List.filter_append]
  rfl

/-- A data source without Block handlers runs nothing for a block. -/
theorem Covers.block_idle {p : Platform} {entry : EthDictionaryV2QueryEntry}
    {dataSources : List SubqlDatasource} {block : EthereumBlock}
    (h : Covers p entry dataSources block) (other : EthereumBlock) :
    ∀ ds ∈ dataSources, dsMayRun p (.block other) ds = false := by
  intro ds hds
  obtain ⟨runtimeDs, rfl⟩ := h.runtime ds hds
  rw [dsMayRun, List.any_eq_false]
  intro handler hhandler
  cases handler with
  | call name filter => simp [mayRun]
  | event name filter => simp [mayRun]
  | block name filter =>
    exact absurd (List.mem_map.mpr ⟨_, hhandler, rfl⟩) (h.no_block_handlers _ hds name filter)

/-- Whether handlers may be run for a transaction does not depend on its logs. -/
theorem dsMayRun_logs (p : Platform) (tx : EthereumTransaction) (logs : Option (List EthereumLog))
    (ds : SubqlDatasource) :
    dsMayRun p (.transaction { tx with logs }) ds = dsMayRun p (.transaction tx) ds := by
  cases ds with
  | custom ds => rfl
  | runtime ds =>
    rw [dsMayRun, dsMayRun]
    congr 1
    funext handler
    cases handler <;> rfl

theorem selectsTransaction_logs (p : Platform) (entry : EthDictionaryV2QueryEntry)
    (tx : EthereumTransaction) (logs : Option (List EthereumLog)) :
    selectsTransaction p entry { tx with logs } = selectsTransaction p entry tx := rfl

/-- The logs of a block that were not returned are accepted by no handler. -/
theorem eventCalls_returned (p : Platform) (entry : EthDictionaryV2QueryEntry)
    (selector : FieldSelector) (header : BlockHeader) (transactions : List RawTransaction)
    (dataSources : List SubqlDatasource) (block : EthereumBlock)
    (hcovers : Covers p entry dataSources block) (logs : List EthereumLog)
    (hlogs : ∀ log ∈ logs, log ∈ block.logs) :
    (eventCallsFor (logs.filter (returned p entry selector header transactions))
        dataSources).filter (accepted p) =
      (eventCallsFor logs dataSources).filter (accepted p) := by
  rw [eventCallsFor, eventCallsFor, List.filter_flatMap, List.filter_flatMap]
  apply flatMap_filter_nil
  intro log hlog hnot
  apply filter_callsFor_nil
  intro ds hds
  rw [← Bool.not_eq_true]
  intro hrun
  have hselected := hcovers.logs ds hds log (hlogs log hlog) hrun
  rw [returned, hselected, Bool.true_or] at hnot
  exact absurd hnot (by simp)

/-- **One transaction** of the block and of the answer: the same calls are accepted. -/
theorem transactionCallsOf_converted (p : Platform) (entry : EthDictionaryV2QueryEntry)
    (selector : FieldSelector) (hselector : selector.transactionsLog = true)
    (header : BlockHeader) (rawTxs : List RawTransaction) (dataSources : List SubqlDatasource)
    (block : EthereumBlock) (hcovers : Covers p entry dataSources block) (raw : RawTransaction)
    (hraw : raw ∈ rawTxs) (tx tx' : EthereumTransaction) (htx : tx ∈ block.transactions)
    (h : withLogs p header block.logs raw = .ok tx)
    (h' : withLogs p header
      (block.logs.filter (returned p entry selector header rawTxs)) raw = .ok tx') :
    transactionCallsOf p dataSources tx = transactionCallsOf p dataSources tx' := by
  obtain ⟨t, ht, rfl⟩ := withLogs_formatted p header _ raw tx h
  obtain ⟨t', ht', rfl⟩ := withLogs_formatted p header _ raw tx' h'
  rw [ht] at ht'
  rw [← Except.ok.inj ht']
  cases hmatch : matchesRaw p entry header raw with
  | true =>
    -- the transaction matches: all its logs are returned with it
    have hall : (block.logs.filter (returned p entry selector header rawTxs)).filter
        (fun log => log.transactionHash = raw.hash) =
          block.logs.filter fun log => log.transactionHash = raw.hash := by
      rw [List.filter_filter]
      apply List.filter_congr
      intro log _
      by_cases hhash : log.transactionHash = raw.hash
      · have hreturned : returned p entry selector header rawTxs log = true := by
          rw [returned, hselector, Bool.true_and, Bool.or_eq_true, List.any_eq_true]
          right
          exact ⟨raw, hraw, by rw [hmatch, hhash]; simp⟩
        rw [hreturned, Bool.and_true]
      · simp [hhash]
    rw [hall]
  | false =>
    -- it does not: no handler is run for it, and for none of its logs that are missing
    have hidle : ∀ logs, ∀ ds ∈ dataSources,
        dsMayRun p (.transaction { t with logs }) ds = false := by
      intro logs ds hds
      rw [← Bool.not_eq_true]
      intro hrun
      rw [dsMayRun_logs, ← dsMayRun_logs p t (some _) ds] at hrun
      have hselected := hcovers.transactions ds hds _ htx hrun
      rw [selectsTransaction_logs] at hselected
      rw [matchesRaw, ht] at hmatch
      simp only at hmatch
      rw [hselected] at hmatch
      exact absurd hmatch (by simp)
    have hlogs : ∀ log ∈ block.logs.filter fun log => log.transactionHash = raw.hash,
        log ∈ block.logs := fun log hlog => List.mem_of_mem_filter hlog
    rw [transactionCallsOf, transactionCallsOf, filter_callsFor_nil p _ dataSources (hidle _),
      filter_callsFor_nil p _ dataSources (hidle _), List.nil_append, List.nil_append]
    show (eventCallsFor (block.logs.filter _) dataSources).filter _ =
      (eventCallsFor ((block.logs.filter _).filter _) dataSources).filter _
    rw [← eventCalls_returned p entry selector header rawTxs dataSources block hcovers _ hlogs,
      List.filter_filter, List.filter_filter]
    congr 3
    funext log
    rw [Bool.and_comm]

/-- A transaction that was not returned is accepted by no handler, and none of its logs is. -/
theorem transactionCallsOf_dropped (p : Platform) (entry : EthDictionaryV2QueryEntry)
    (selector : FieldSelector) (hselector : selector.logsTransaction = true)
    (header : BlockHeader) (logsRaw : List Log) (dataSources : List SubqlDatasource)
    (block : EthereumBlock) (hcovers : Covers p entry dataSources block)
    (hlogs : List.Forall₂ (fun raw log => formatLog p raw = .ok log) logsRaw block.logs)
    (raw : RawTransaction) (tx : EthereumTransaction) (htx : tx ∈ block.transactions)
    (h : withLogs p header block.logs raw = .ok tx)
    (hdrop : returnsTransaction p entry selector header logsRaw raw = false) :
    transactionCallsOf p dataSources tx = [] := by
  obtain ⟨t, ht, rfl⟩ := withLogs_formatted p header _ raw tx h
  rw [returnsTransaction, Bool.or_eq_false_iff, hselector, Bool.true_and,
    List.any_eq_false] at hdrop
  obtain ⟨hmatch, hlogsNot⟩ := hdrop
  rw [matchesRaw, ht] at hmatch
  rw [transactionCallsOf, List.append_eq_nil_iff]
  constructor
  · apply filter_callsFor_nil
    intro ds hds
    rw [← Bool.not_eq_true]
    intro hrun
    have hselected := hcovers.transactions ds hds _ htx hrun
    rw [selectsTransaction_logs] at hselected
    simp only at hmatch
    rw [hselected] at hmatch
    exact absurd hmatch (by simp)
  · show (eventCallsFor (block.logs.filter _) dataSources).filter _ = []
    rw [eventCallsFor, List.filter_flatMap, List.flatMap_eq_nil_iff]
    intro log hlog
    obtain ⟨hin, hhash⟩ := List.mem_filter.mp hlog
    apply filter_callsFor_nil
    intro ds hds
    rw [← Bool.not_eq_true]
    intro hrun
    have hselected := hcovers.logs ds hds log hin hrun
    obtain ⟨rawLog, hrawLog, hformat⟩ := exists_related hlogs.flip hin
    apply hlogsNot rawLog hrawLog
    rw [matchesRawLog, hformat, ← formatLog_transactionHash p rawLog log hformat]
    simpa using ⟨of_decide_eq_true hhash, hselected⟩

/-- When no transaction of the block is returned, no log is either. -/
theorem no_logs_of_no_transactions (p : Platform) (entry : EthDictionaryV2QueryEntry)
    (selector : FieldSelector) (hselector : selector.logsTransaction = true)
    (header : BlockHeader) (rawTxs : List RawTransaction) (logsRaw : List Log)
    (logs : List EthereumLog)
    (hlogs : List.Forall₂ (fun raw log => formatLog p raw = .ok log) logsRaw logs)
    (hnamed : ∀ log ∈ logsRaw, log.transactionHash ∈ rawTxs.map (·.hash))
    (hnone : rawTxs.filter (returnsTransaction p entry selector header logsRaw) = []) :
    logs.filter (returned p entry selector header rawTxs) = [] := by
  rw [List.filter_eq_nil_iff] at hnone ⊢
  intro log hlog hreturned
  obtain ⟨rawLog, hrawLog, hformat⟩ := exists_related hlogs.flip hlog
  have hhash := formatLog_transactionHash p rawLog log hformat
  rw [returned, Bool.or_eq_true, Bool.and_eq_true, List.any_eq_true] at hreturned
  rcases hreturned with hselected | ⟨-, tx, htx, hmatch⟩
  · obtain ⟨tx, htx, hname⟩ := List.mem_map.mp (hnamed rawLog hrawLog)
    apply hnone tx htx
    rw [returnsTransaction, hselector, Bool.true_and, Bool.or_eq_true, List.any_eq_true]
    right
    refine ⟨rawLog, hrawLog, ?_⟩
    rw [matchesRawLog, hformat]
    simpa using ⟨hname.symm, hselected⟩
  · apply hnone tx htx
    rw [returnsTransaction, (Bool.and_eq_true_iff.mp hmatch).2, Bool.true_or]

/-- A block without transactions and logs is passed on to nobody. -/
theorem indexCalls_empty (block : EthereumBlock) (htxs : block.transactions = [])
    (hlogs : block.logs = []) (dataSources : List SubqlDatasource) :
    indexCalls (.full block) dataSources = [] := by
  have hlight : isFullBlock (.full block) = false := by
    rw [isFullBlock, htxs]
    rfl
  simp only [indexCalls, hlight, blockLogs, hlogs]
  rfl

/-- **The accepted calls are the same** for the block and for the answer of the dictionary. -/
theorem accepted_calls_converted (p : Platform) (entry : EthDictionaryV2QueryEntry)
    (header : BlockHeader) (rawBlock : RawBlock RawTransaction) (logsRaw : List Log)
    (dataSources : List SubqlDatasource) (block dict : EthereumBlock)
    (hcovers : Covers p entry dataSources block)
    (hconverted : Converted p entry (fieldSelector false) header rawBlock logsRaw block dict)
    (hlogs : List.Forall₂ (fun raw log => formatLog p raw = .ok log) logsRaw block.logs)
    (htxs : List.Forall₂ (fun raw tx => withLogs p header block.logs raw = .ok tx)
      rawBlock.transactions block.transactions)
    (hnamed : ∀ log ∈ logsRaw, log.transactionHash ∈ rawBlock.transactions.map (·.hash)) :
    (indexCalls (.full dict) dataSources).filter (accepted p) =
      (indexCalls (.full block) dataSources).filter (accepted p) := by
  have hmember : List.Forall₂ (fun raw tx => raw ∈ rawBlock.transactions ∧
      withLogs p header block.logs raw = .ok tx) rawBlock.transactions block.transactions :=
    (List.forall₂_and_left _ _).mpr ⟨fun _ h => h, htxs⟩
  have hsame : block.transactions.flatMap (transactionCallsOf p dataSources) =
      dict.transactions.flatMap (transactionCallsOf p dataSources) := by
    apply flatMap_converted _ _ _ _ hmember hconverted.transactions
    · intro raw tx htx h hdrop
      exact transactionCallsOf_dropped p entry _ rfl header logsRaw dataSources block hcovers hlogs
        raw tx htx h.2 hdrop
    · intro raw tx tx' htx h h' _
      rw [hconverted.logs] at h'
      exact transactionCallsOf_converted p entry _ rfl header rawBlock.transactions dataSources
        block hcovers raw h.1 tx tx' htx h.2 h'
  have hdictLogs : dict.transactions = [] → dict.logs = [] := by
    intro hnil
    have hnone := hconverted.transactions
    rw [hnil, List.forall₂_nil_right_iff] at hnone
    rw [hconverted.logs]
    exact no_logs_of_no_transactions p entry _ rfl header rawBlock.transactions logsRaw block.logs
      hlogs hnamed hnone
  have hdict : (indexCalls (.full dict) dataSources).filter (accepted p) =
      dict.transactions.flatMap (transactionCallsOf p dataSources) := by
    by_cases hnil : dict.transactions = []
    · rw [indexCalls_empty dict hnil (hdictLogs hnil), hnil]
      rfl
    · exact accepted_calls p dataSources dict hnil (hcovers.block_idle dict)
  rw [hdict, ← hsame]
  by_cases hnil : block.transactions = []
  · have hraw : rawBlock.transactions = [] := by
      rw [hnil, List.forall₂_nil_right_iff] at htxs
      exact htxs
    have hnoLogs : logsRaw = [] := by
      rw [List.eq_nil_iff_forall_not_mem]
      intro log hlog
      have hname := hnamed log hlog
      rw [hraw] at hname
      exact absurd hname List.not_mem_nil
    rw [hnoLogs, List.forall₂_nil_left_iff] at hlogs
    rw [indexCalls_empty block hnil hlogs, hnil]
    rfl
  · exact (accepted_calls p dataSources block hnil (hcovers.block_idle block)).symm

/-- **A block the query covers is indexed alike.**  The answer of the dictionary, with the
transactions of the logs, is converted, and has the effects of the block. -/
theorem covered_block_indexed_alike {m : Type → Type} [Monad m] [LawfulMonad m] (p : Platform)
    (api : EthereumApi) (endpoint : Endpoint) (num : ℤ) (rawBlock : RawBlock RawTransaction)
    (logsRaw : List Log) (block : EthereumBlock)
    (hanswer : endpoint.blockByNumber num = .ok (some rawBlock))
    (hlogs : endpoint.logsByHash block.hash = .ok logsRaw)
    (hfetch : api.fetchBlock p endpoint num = .ok block)
    (hnamed : ∀ log ∈ logsRaw, log.transactionHash ∈ rawBlock.transactions.map (·.hash))
    (entry : EthDictionaryV2QueryEntry) (formatter : Formatter p) (raw : RawEthBlock)
    (hraw : Answers p entry (fieldSelector false) block.toBlockHeader formatter rawBlock logsRaw
      raw)
    (dataSources : List SubqlDatasource) (hcovers : Covers p entry dataSources block)
    (indexData : IndexDataCall SubqlDatasource → m Unit) (hruns : RunsAccepted p indexData) :
    ∃ dict, rawBlockToEthBlock p formatter raw = .ok dict ∧
      indexBlockData indexData (.full dict) dataSources =
        indexBlockData indexData (.full block) dataSources := by
  obtain ⟨rawBlock', logsRaw', hanswer', hlogs', hformat, htxs⟩ :=
    fetchBlock_ok p api endpoint num block hfetch
  have hsameBlock : rawBlock' = rawBlock := by
    rw [hanswer] at hanswer'
    exact (Option.some.inj (Except.ok.inj hanswer')).symm
  have hsameLogs : logsRaw' = logsRaw := by
    rw [hlogs] at hlogs'
    exact (Except.ok.inj hlogs').symm
  rw [hsameBlock] at htxs
  rw [hsameLogs] at hformat
  obtain ⟨header, stateRoot, hheader, hroot⟩ :=
    fetchBlock_header p api endpoint num rawBlock block hanswer hfetch
  rw [hroot] at hraw htxs
  obtain ⟨dict, hdict, hconverted⟩ := converted_of_answers p entry (fieldSelector false) formatter
    header rawBlock logsRaw raw ⟨hraw.header, hraw.transactions, hraw.logs⟩ hheader block hformat
    htxs
  refine ⟨dict, hdict, ?_⟩
  rw [indexBlockData_eq_forM, indexBlockData_eq_forM]
  apply forM_eq_of_kept (accepted p) indexData
  · exact fun call _ hnot => hruns call.data call.ds hnot
  · exact fun call _ hnot => hruns call.data call.ds hnot
  · exact accepted_calls_converted p entry header rawBlock logsRaw dataSources block dict hcovers
      hconverted hformat htxs hnamed

/-! ### The query as it is built -/

/-- Data sources whose handlers the V2 query covers. -/
structure Coverable (p : Platform) (limit : ℤ) (availableFilters : Option V2MetadataFilters)
    (dataSources : List SubqlRuntimeDatasource) : Prop where
  plain : PlainFilters dataSources
  no_block_handlers : ∀ ds ∈ dataSources, ∀ handler filter,
    SubqlRuntimeHandler.block handler filter ∉ ds.handlers
  /-- The event signatures can be parsed, those of topics the dictionary has no filter for too. -/
  readable : ∀ ds ∈ dataSources, ∀ handler filter,
    SubqlRuntimeHandler.event handler filter ∈ ds.handlers →
    ∀ i < 4, topicUnreadable p (filterTopics filter)[i]?.join = false
  /-- No Event group is left out of the query, or another one asks for every log. -/
  events : (∀ group ∈ groupedDataSources (runtimeDataSources dataSources),
      eventGroupUnfiltered group = false) ∨
    ∃ group ∈ groupedDataSources (runtimeDataSources dataSources),
      eventGroupUnconstrained limit (availableFilters.bind (·.logs)) group = true
  calls : CallsCovered p dataSources (callQueriesV2 p limit
    (availableFilters.bind (·.transactions)) (groupedDataSources (runtimeDataSources dataSources)))

/-- The representative of a Call handler's group has the handler's own filter. -/
theorem call_representative (b : SubqlRuntimeHandler) (handler : String)
    (filter : Option EthereumTransactionFilter)
    (hkind : b.kind = (SubqlRuntimeHandler.call handler filter).kind)
    (hjson : b.filterJson = (SubqlRuntimeHandler.call handler filter).filterJson) :
    ∃ name, b = .call name filter := by
  rcases runtimeHandler_filter_eq b _ hkind hjson with ⟨_, _, _, -, hcontra⟩ |
    ⟨m, _, f, hm, hn⟩ | ⟨_, _, _, -, hcontra⟩
  · exact absurd hcontra (by simp)
  · have hf : filter = f := (SubqlRuntimeHandler.call.inj hn).2
    exact ⟨m, by rw [hm, hf]⟩
  · exact absurd hcontra (by simp)

section Built

variable (p : Platform) (limit : ℤ) (dataSources : List SubqlRuntimeDatasource)
  (availableFilters : Option V2MetadataFilters) (entry : EthDictionaryV2QueryEntry)

/-- The function filter of a Call handler can be parsed, its group having been built or having no
filter. -/
theorem signature_readable
    (hbuild : buildDictionaryV2QueryEntry p limit (runtimeDataSources dataSources)
      availableFilters = .ok entry) (husable : entry.usable = true)
    (ds : SubqlRuntimeDatasource) (hds : ds ∈ dataSources) (handler : String)
    (filter : Option EthereumTransactionFilter)
    (hh : SubqlRuntimeHandler.call handler filter ∈ ds.handlers) :
    ((truthy (filter.bind (·.function)).join).any fun signature =>
      !(functionToSighash p signature).isOk) = false := by
  obtain ⟨b, addresses, hg, hkind, hjson, -⟩ := exists_runtime_group dataSources ds hds _ hh
  obtain ⟨name, rfl⟩ := call_representative b handler filter hkind hjson
  cases htakes : takesPart (SubqlHandler.base (.call name filter), addresses) with
  | false => exact unreadable_of_not_takesPart p (fun _ => true) _ htakes
  | true =>
    rcases built_of_takesPart p limit _ availableFilters entry hbuild husable _ addresses hg
      htakes with ⟨name', filter', c, heq, hcondition⟩ | ⟨_, _, _, hcontra, -⟩
    · have hfilter : filter = filter' :=
        (SubqlRuntimeHandler.call.inj (SubqlHandler.base.inj heq)).2
      rw [← hfilter] at hcondition
      exact (callFilterToDictionaryCondition_isOk p limit (fun _ => true) name filter addresses
        _).mp (by rw [hcondition]; rfl)
    · exact absurd hcontra (by simp)

/-- A log of the documented filter of an Event handler is selected. -/
theorem event_selected
    (hbuild : buildDictionaryV2QueryEntry p limit (runtimeDataSources dataSources)
      availableFilters = .ok entry) (husable : entry.usable = true)
    (hcoverable : Coverable p limit availableFilters dataSources)
    (ds : SubqlRuntimeDatasource) (hds : ds ∈ dataSources) (handler : String)
    (filter : Option EthereumLogFilter)
    (hh : SubqlRuntimeHandler.event handler filter ∈ ds.handlers) (log : EthereumLog)
    (hdoc : DocumentedLogFilter p ds.address filter log) : selectsLog p entry log = true := by
  rw [selectsLog, List.any_eq_true]
  rcases hcoverable.events with hall | ⟨group, hgroup, hun⟩
  · obtain ⟨b, addresses, hg, hkind, hjson, haddr⟩ := exists_runtime_group dataSources ds hds _ hh
    obtain ⟨name, rfl⟩ := event_representative b handler filter hkind hjson
    obtain ⟨c, hc, hcondition⟩ := log_condition_mem p limit _ availableFilters entry hbuild
      husable name filter addresses hg (hall _ hg)
    exact ⟨c, hc, eventFilterToDictionaryCondition_match p limit filter addresses _ c hcondition
      ds.address haddr log hdoc⟩
  · exact covered_of_unconstrained p limit _ availableFilters entry hbuild husable group hgroup
      hun log

/-- **The query that is built covers the handlers.** -/
theorem covers_of_built
    (hbuild : buildDictionaryV2QueryEntry p limit (runtimeDataSources dataSources)
      availableFilters = .ok entry) (husable : entry.usable = true)
    (hcoverable : Coverable p limit availableFilters dataSources) (block : EthereumBlock)
    (hhex : ∀ log ∈ block.logs, HexTopics log) :
    Covers p entry (runtimeDataSources dataSources) block where
  runtime := by
    intro ds hds
    obtain ⟨runtimeDs, -, rfl⟩ := List.mem_map.mp hds
    exact ⟨runtimeDs, rfl⟩
  no_block_handlers := by
    intro ds hds handler filter hblock
    obtain ⟨runtimeDs, hin, rfl⟩ := List.mem_map.mp hds
    obtain ⟨h, hh, heq⟩ := List.mem_map.mp hblock
    rw [SubqlHandler.base.inj heq] at hh
    exact hcoverable.no_block_handlers runtimeDs hin handler filter hh
  logs := by
    intro ds hds log hlog hrun
    obtain ⟨runtimeDs, hin, rfl⟩ := List.mem_map.mp hds
    rw [dsMayRun, List.any_eq_true] at hrun
    obtain ⟨handler, hh, hrun⟩ := hrun
    cases handler with
    | block name filter => exact absurd hrun (by simp [mayRun])
    | call name filter => exact absurd hrun (by simp [mayRun])
    | event name filter =>
      have hdoc := documented_of_mayRun p dataSources hcoverable.plain runtimeDs hin name filter
        hh (hcoverable.readable runtimeDs hin name filter hh) log (hhex log hlog) hrun
      exact event_selected p limit dataSources availableFilters entry hbuild husable hcoverable
        runtimeDs hin name filter hh log hdoc
  transactions := by
    intro ds hds tx htx hrun
    obtain ⟨runtimeDs, hin, rfl⟩ := List.mem_map.mp hds
    rw [dsMayRun, List.any_eq_true] at hrun
    obtain ⟨handler, hh, hrun⟩ := hrun
    cases handler with
    | block name filter => exact absurd hrun (by simp [mayRun])
    | event name filter => exact absurd hrun (by simp [mayRun])
    | call name filter =>
      have hreadable := signature_readable p limit dataSources availableFilters entry hbuild
        husable runtimeDs hin name filter hh
      have haccepted := accepted_of_mayRun p dataSources hcoverable.plain runtimeDs hin name
        filter hh hreadable tx hrun
      have hquery := (queries_cover_iff p filter runtimeDs.address _).mpr
        (hcoverable.calls runtimeDs hin name filter hh) tx haccepted
      obtain ⟨c, hc, hmatch⟩ :=
        (buildV2_lets_iff p limit _ availableFilters entry hbuild husable tx).mpr hquery
      exact List.any_eq_true.mpr ⟨c, hc, hmatch⟩

end Built

/-- **A dictionary block is indexed like the block itself.**  Given a usable query built from data
sources whose handlers it covers, none of them Block handlers, a block of the chain whose topics
are hex strings and the answer of the dictionary, with the transactions requested with the logs:
the answer is converted, and passing it to the handlers has the effects of passing them the block,
whatever a handler does with the fields of its input. -/
theorem dictionary_block_indexed_alike {m : Type → Type} [Monad m] [LawfulMonad m] (p : Platform)
    (api : EthereumApi) (endpoint : Endpoint) (num : ℤ) (rawBlock : RawBlock RawTransaction)
    (logsRaw : List Log) (block : EthereumBlock)
    (hanswer : endpoint.blockByNumber num = .ok (some rawBlock))
    (hlogs : endpoint.logsByHash block.hash = .ok logsRaw)
    (hfetch : api.fetchBlock p endpoint num = .ok block)
    (hnamed : ∀ log ∈ logsRaw, log.transactionHash ∈ rawBlock.transactions.map (·.hash))
    (hhex : ∀ log ∈ block.logs, HexTopics log) (limit : ℤ)
    (dataSources : List SubqlRuntimeDatasource) (availableFilters : Option V2MetadataFilters)
    (entry : EthDictionaryV2QueryEntry)
    (hbuild : buildDictionaryV2QueryEntry p limit (runtimeDataSources dataSources)
      availableFilters = .ok entry) (husable : entry.usable = true)
    (hcoverable : Coverable p limit availableFilters dataSources) (formatter : Formatter p)
    (raw : RawEthBlock)
    (hraw : Answers p entry (fieldSelector false) block.toBlockHeader formatter rawBlock logsRaw
      raw)
    (indexData : IndexDataCall SubqlDatasource → m Unit) (hruns : RunsAccepted p indexData) :
    ∃ dict, rawBlockToEthBlock p formatter raw = .ok dict ∧
      indexBlockData indexData (.full dict) (runtimeDataSources dataSources) =
        indexBlockData indexData (.full block) (runtimeDataSources dataSources) := by
  have hcovers := covers_of_built p limit dataSources availableFilters entry hbuild husable
    hcoverable block hhex
  exact covered_block_indexed_alike p api endpoint num rawBlock logsRaw block hanswer hlogs hfetch
    hnamed entry formatter raw hraw (runtimeDataSources dataSources) hcovers indexData hruns

open SubqlEthereum.Dictionary (erc20Formatter repeated)

/-- A block of two transactions, each with a log of its own contract. -/
def twoContractsBlock : RawBlock RawTransaction where
  header := { hash := repeated 64 '9', stateRoot := repeated 64 '0' }
  transactions := [{ hash := repeated 64 '1' }, { hash := repeated 64 '2' }]

def twoContractsLogs : List Log :=
  [{ address := repeated 40 '5', blockHash := some (repeated 64 '9'),
     transactionHash := repeated 64 '1' },
    { address := repeated 40 '6', blockHash := some (repeated 64 '9'),
      transactionHash := repeated 64 '2', logIndex := 1 }]

def twoContractsEndpoint : Endpoint where
  blockByNumber _ := .ok (some twoContractsBlock)
  logsByHash _ := .ok twoContractsLogs

def firstContractLog : EthereumLog where
  address := some (repeated 40 '5')
  topics := []
  blockHash := some (repeated 64 '9')
  transactionHash := repeated 64 '1'

def secondContractLog : EthereumLog where
  address := some (repeated 40 '6')
  topics := []
  blockHash := some (repeated 64 '9')
  transactionHash := repeated 64 '2'
  logIndex := 1

/-- The block as it is fetched. -/
def twoContractsEthBlock : EthereumBlock where
  hash := repeated 64 '9'
  stateRoot := repeated 64 '0'
  logs := [firstContractLog, secondContractLog]
  transactions := [{ hash := repeated 64 '1', logs := some [firstContractLog] },
    { hash := repeated 64 '2', logs := some [secondContractLog] }]

/-- A data source for the first contract, the query for it, and the part of the block that is
returned. -/
def firstContractDs : SubqlRuntimeDatasource where
  options := some { address := some (repeated 40 '5') }
  handlers := [.event "handleLog" none]

def firstContractEntry : EthDictionaryV2QueryEntry where
  logs := some [⟨[("address", [repeated 40 '5'])]⟩]

def firstContractAnswer : RawEthBlock where
  header := { hash := repeated 64 '9', stateRoot := repeated 64 '0' }
  transactions := some [{ hash := repeated 64 '1' }]
  logs := some [{ address := repeated 40 '5', blockHash := repeated 64 '9',
                  transactionHash := repeated 64 '1' }]

theorem firstContractAnswer_answers : Answers erc20Platform firstContractEntry (fieldSelector false)
    twoContractsEthBlock.toBlockHeader erc20Formatter twoContractsBlock twoContractsLogs
    firstContractAnswer where
  header := rfl
  transactions := by rfl
  logs := by rfl

theorem firstContract_coverable : Coverable erc20Platform 100 none [firstContractDs] where
  plain := by
    refine ⟨?_, ?_⟩
    · intro ds hds handler filter hh i hi hnull
      rw [List.mem_singleton.mp hds] at hh
      rw [(SubqlRuntimeHandler.event.inj (List.mem_singleton.mp hh)).2] at hnull
      exact absurd hnull (by simp [filterTopics])
    · intro ds hds handler filter hh
      rw [List.mem_singleton.mp hds] at hh
      exact absurd (List.mem_singleton.mp hh) (by simp)
  no_block_handlers := by
    intro ds hds handler filter hh
    rw [List.mem_singleton.mp hds] at hh
    exact absurd (List.mem_singleton.mp hh) (by simp)
  readable := by
    intro ds hds handler filter hh i hi
    rw [List.mem_singleton.mp hds] at hh
    rw [(SubqlRuntimeHandler.event.inj (List.mem_singleton.mp hh)).2]
    rfl
  events := .inl (by
    intro group hgroup
    rw [List.mem_singleton.mp hgroup]
    rfl)
  calls := by
    intro ds hds handler filter hh
    rw [List.mem_singleton.mp hds] at hh
    exact absurd (List.mem_singleton.mp hh) (by simp)

/-- The log of the first contract, from the block and from the answer. -/
theorem dictionary_block_indexed_alike_firstContract :
    ∃ dict, rawBlockToEthBlock erc20Platform erc20Formatter firstContractAnswer = .ok dict ∧
      indexBlockData (recordAccepted erc20Platform) (.full dict)
          (runtimeDataSources [firstContractDs]) =
        indexBlockData (recordAccepted erc20Platform) (.full twoContractsEthBlock)
          (runtimeDataSources [firstContractDs]) :=
  dictionary_block_indexed_alike erc20Platform {} twoContractsEndpoint 5 twoContractsBlock
    twoContractsLogs twoContractsEthBlock rfl rfl (by rfl) (by decide) (by decide) 100
    [firstContractDs] none firstContractEntry (by rfl) rfl firstContract_coverable erc20Formatter
    firstContractAnswer firstContractAnswer_answers (recordAccepted erc20Platform)
    (recordAccepted_runsAccepted erc20Platform)

end SubqlEthereum.BlockIndexing
