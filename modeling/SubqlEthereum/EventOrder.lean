import SubqlEthereum.IndexerManager
import SubqlEthereum.Library.Grouping

/-!
# The order of events

A block fetched in full is passed on transaction by transaction, each followed by its own logs; a
light block is passed on as its list of logs.  In a block of the chain the logs come in the order
of their transactions, and then both give the Event handlers one and the same sequence, the list
of logs (`indexing_paths_same_events`).
-/

namespace SubqlEthereum.EventOrder

open SubqlEthereum.External SubqlEthereum.Blocks SubqlEthereum.Ethereum
open SubqlEthereum.IndexerManager SubqlEthereum.Grouping

/-- The transactions and the logs of a block of the chain: the hashes are distinct, every log
names one of the transactions, and the places of these never decrease along the logs. -/
structure OrderedBlock (transactions : List RawTransaction) (logs : List Log) : Prop where
  nonempty : transactions ≠ []
  hashes_distinct : (transactions.map (·.hash)).Nodup
  logs_named : ∀ log ∈ logs, log.transactionHash ∈ transactions.map (·.hash)
  logs_ordered : logs.Pairwise fun a b =>
    (transactions.map (·.hash)).idxOf a.transactionHash ≤
      (transactions.map (·.hash)).idxOf b.transactionHash

/-- The formatter keeps the transaction a log names. -/
theorem formatted_transactionHash (p : Platform) (raws : List Log) (logs : List EthereumLog)
    (h : List.Forall₂ (fun raw log => formatLog p raw = .ok log) raws logs) :
    logs.map (·.transactionHash) = raws.map (·.transactionHash) := by
  induction h with
  | nil => rfl
  | cons hlog _ ih => rw [List.map_cons, List.map_cons, ih, formatLog_transactionHash p _ _ hlog]

/-- **The logs of the transactions, put together, are the logs of the block.** -/
theorem OrderedBlock.joined (p : Platform) {rawTxs : List RawTransaction} {logsRaw : List Log}
    (h : OrderedBlock rawTxs logsRaw) (block : EthereumBlock)
    (hlogs : List.Forall₂ (fun raw log => formatLog p raw = .ok log) logsRaw block.logs)
    (htxs : List.Forall₂ (fun raw tx => withLogs p block.toBlockHeader block.logs raw = .ok tx)
      rawTxs block.transactions) :
    (block.transactions.flatMap fun tx => tx.logs.getD []) = block.logs := by
  have hhashes := formatted_transactionHash p logsRaw block.logs hlogs
  rw [transactions_logs p block.toBlockHeader block.logs rawTxs block.transactions htxs]
  apply flatMap_filter_sorted (fun log : EthereumLog => log.transactionHash) _ h.hashes_distinct
  · intro log hlog
    have hmem : log.transactionHash ∈ logsRaw.map (·.transactionHash) := by
      rw [← hhashes]
      exact List.mem_map_of_mem hlog
    obtain ⟨raw, hraw, heq⟩ := List.mem_map.mp hmem
    rw [← heq]
    exact h.logs_named raw hraw
  · have hordered : (logsRaw.map (·.transactionHash)).Pairwise fun a b =>
        (rawTxs.map (·.hash)).idxOf a ≤ (rawTxs.map (·.hash)).idxOf b :=
      List.pairwise_map.mpr h.logs_ordered
    rw [← hhashes, List.pairwise_map] at hordered
    exact hordered

section Events

variable {δ : Type}

/-- The calls for a list of logs: each log in turn, for every data source. -/
def logSequence (logs : List EthereumLog) (dataSources : List δ) : List (EthereumLog × δ) :=
  logs.flatMap fun log => dataSources.map fun ds => (log, ds)

/-- A light block is passed on as its logs. -/
theorem eventCalls_light (block : LightEthereumBlock) (dataSources : List δ) :
    eventCalls (recordedCalls (.light block) dataSources) = logSequence block.logs dataSources := by
  rw [recordedCalls_eq]
  show callsOf IndexedData.log? (eventCallsFor block.logs dataSources) = _
  rw [callsOf_eventCallsFor]
  rfl

end Events

/-- **Full and light indexing deliver the same events in the same order.**  Of a block of the chain
that is fetched in full, the Event handlers are given the logs of the block in their order; the
light fetch succeeds as well and gives them the same. -/
theorem indexing_paths_same_events (p : Platform) (api : EthereumApi) (endpoint : Endpoint)
    (num : ℤ) (rawBlock : RawBlock RawTransaction) (logsRaw : List Log) (block : EthereumBlock)
    (hanswer : endpoint.blockByNumber num = .ok (some rawBlock))
    (hlogs : endpoint.logsByHash block.hash = .ok logsRaw)
    (hordered : OrderedBlock rawBlock.transactions logsRaw)
    (hfetch : api.fetchBlock p endpoint num = .ok block) :
    ∃ light, api.fetchLightBlock p endpoint num = .ok light ∧ light.logs = block.logs ∧
      ∀ (δ : Type) (dataSources : List δ),
        eventCalls (recordedCalls (.full block) dataSources) =
            logSequence block.logs dataSources ∧
          eventCalls (recordedCalls (.light light) dataSources) =
            logSequence block.logs dataSources := by
  obtain ⟨light, hlight, -, hsame⟩ := fetchLightBlock_of_fetchBlock p api endpoint num block hfetch
  obtain ⟨rawBlock', logsRaw', hanswer', hlogs', hformat, htxs⟩ :=
    fetchBlock_ok p api endpoint num block hfetch
  have hblock : rawBlock' = rawBlock := by
    rw [hanswer] at hanswer'
    exact (Option.some.inj (Except.ok.inj hanswer')).symm
  have hraw : logsRaw' = logsRaw := by
    rw [hlogs] at hlogs'
    exact (Except.ok.inj hlogs').symm
  rw [hblock] at htxs
  rw [hraw] at hformat
  have hjoined := hordered.joined p block hformat htxs
  have hne : block.transactions ≠ [] := by
    intro hnil
    rw [hnil] at htxs
    exact hordered.nonempty (List.forall₂_nil_right_iff.mp htxs)
  refine ⟨light, hlight, hsame, fun δ dataSources => ⟨?_, ?_⟩⟩
  · rw [(calls_of_transactions block hne dataSources).2.2, hjoined]
    rfl
  · rw [eventCalls_light, hsame]

/-- Two transactions, the first with two logs, and their block. -/
def transferBlock : RawBlock RawTransaction where
  header := emptyHeader
  transactions := [{ hash := "0x01" }, { hash := "0x02" }]

def transferLogs : List Log :=
  [{ blockHash := some "0xaa", transactionHash := "0x01", logIndex := 0 },
    { blockHash := some "0xaa", transactionHash := "0x01", logIndex := 1 },
    { blockHash := some "0xaa", transactionHash := "0x02", logIndex := 2 }]

def transferEndpoint : Endpoint where
  blockByNumber _ := .ok (some transferBlock)
  logsByHash _ := .ok transferLogs

theorem transferBlock_ordered : OrderedBlock transferBlock.transactions transferLogs where
  nonempty := by simp [transferBlock]
  hashes_distinct := by decide
  logs_named := by decide
  logs_ordered := by decide

/-- The two transactions as fetched, in full and light. -/
theorem indexing_paths_same_events_transfer :
    ∃ block, EthereumApi.fetchBlock erc20Platform {} transferEndpoint 5 = .ok block ∧
      ∃ light, EthereumApi.fetchLightBlock erc20Platform {} transferEndpoint 5 = .ok light ∧
        light.logs = block.logs ∧ ∀ (δ : Type) (dataSources : List δ),
          eventCalls (recordedCalls (.full block) dataSources) =
              logSequence block.logs dataSources ∧
            eventCalls (recordedCalls (.light light) dataSources) =
              logSequence block.logs dataSources :=
  ⟨_, rfl, indexing_paths_same_events erc20Platform {} transferEndpoint 5 transferBlock
    transferLogs _ rfl rfl transferBlock_ordered rfl⟩

end SubqlEthereum.EventOrder
