import SubqlEthereum.Dictionary.BlockIndexing

/-!
# Blocks the V1 dictionary does not name

With a V1 dictionary only some blocks are fetched and indexed: those the dictionary names for the
query, and those at a height some Block handler asks for by its `modulo`.  The others are passed
over, with every handler that might have been run for them.

`unnamed_blocks_passed_over` says that none would have been, for data sources with plain filters
whose Call handlers meet the condition of `TransactionCoverage`.
-/

namespace SubqlEthereum.SkippedBlocks

open SubqlEthereum.External SubqlEthereum.Project SubqlEthereum.Strings SubqlEthereum.Blocks
open SubqlEthereum.Fallible SubqlEthereum.Ethereum SubqlEthereum.BlockEthereum
open SubqlEthereum.IndexerManager SubqlEthereum.Passes SubqlEthereum.HandlerFilters
open SubqlEthereum.TransactionCoverage SubqlEthereum.Dictionary
open SubqlEthereum.SkipTransactions (ds_of_indexCalls blockNumber)
open SubqlEthereum.UnusableQueries (topicUnreadable unreadable_event
  eventFilterToQueryEntry_isOk callFilterToQueryEntry_isOk)

/-! ### What is indexed -/

def blockTransactions : BlockContent → List EthereumTransaction
  | .full block => block.transactions
  | .light _ => []

/-- A block with a log or a transaction that matches the query. -/
def matched (p : Platform) (entries : List DictionaryQueryEntry) (block : BlockContent) : Bool :=
  (blockLogs block).any (fun log => entries.any (·.matchesLog p log)) ||
    (blockTransactions block).any fun tx => entries.any (matchesV1 p tx)

/-- A height some Block handler asks for. -/
def atModulo (dataSources : List SubqlRuntimeDatasource) (number : ℤ) : Bool :=
  dataSources.any fun ds => ds.handlers.any fun
    | .block _ filter => (filter.bind (·.modulo)).any fun modulo =>
        modulo = 0 || number.tmod modulo = 0
    | _ => false

/-! ### The groups of the handlers -/

/-- **An Event handler has an entry of the query**, made of its own filter and of the addresses of
its group, its data source's among them. -/
theorem event_entry (p : Platform) (limit : ℤ) (dataSources : List SubqlRuntimeDatasource)
    (entries : List DictionaryQueryEntry)
    (hbuild : buildDictionaryV1QueryEntries p limit (runtimeDataSources dataSources) =
      .ok entries) (hne : entries ≠ []) (ds : SubqlRuntimeDatasource) (hds : ds ∈ dataSources)
    (handler : String) (filter : Option EthereumLogFilter)
    (hh : SubqlRuntimeHandler.event handler filter ∈ ds.handlers) :
    ∃ addresses entry, ds.address ∈ addresses ∧
      eventFilterToQueryEntry p limit filter addresses = .ok entry ∧
      ∃ kept ∈ entries, kept.entity = entry.entity ∧ kept.conditions.Perm entry.conditions := by
  obtain ⟨b, addresses, hg, hkind, hjson, haddr⟩ := exists_runtime_group dataSources ds hds _ hh
  obtain ⟨name, rfl⟩ := event_representative b handler filter hkind hjson
  obtain ⟨out, hout, hkept⟩ := buildV1_group p limit _ entries hbuild hne _ hg
  rcases groupQueryEntries_cases p limit _ addresses out hout with
    ⟨-, hnot, -⟩ | ⟨_, _, _, hcontra, -, -⟩ | ⟨name', filter', entry, heq, hentry, hone⟩
  · exact absurd rfl (hnot name filter)
  · exact absurd hcontra (by simp)
  · have hfilter : filter = filter' :=
      (SubqlRuntimeHandler.event.inj (SubqlHandler.base.inj heq)).2
    rw [← hfilter] at hentry
    exact ⟨addresses, entry, haddr, hentry,
      hkept entry (by rw [hone]; exact List.mem_singleton_self entry)⟩

/-- A Call handler has an entry of its own filter. -/
theorem call_entry (p : Platform) (limit : ℤ) (dataSources : List SubqlRuntimeDatasource)
    (entries : List DictionaryQueryEntry)
    (hbuild : buildDictionaryV1QueryEntries p limit (runtimeDataSources dataSources) =
      .ok entries) (hne : entries ≠ []) (ds : SubqlRuntimeDatasource) (hds : ds ∈ dataSources)
    (handler : String) (filter : Option EthereumTransactionFilter)
    (hh : SubqlRuntimeHandler.call handler filter ∈ ds.handlers) :
    ∃ addresses, (callFilterToQueryEntry p limit filter addresses).isOk = true := by
  obtain ⟨b, addresses, hg, hkind, hjson, -⟩ := exists_runtime_group dataSources ds hds _ hh
  obtain ⟨name, rfl⟩ := BlockIndexing.call_representative b handler filter hkind hjson
  obtain ⟨out, hout, -⟩ := buildV1_group p limit _ entries hbuild hne _ hg
  rcases groupQueryEntries_cases p limit _ addresses out hout with
    ⟨hnot, -, -⟩ | ⟨name', filter', entry, heq, hentry, -⟩ | ⟨_, _, _, hcontra, -, -⟩
  · exact absurd rfl (hnot name filter)
  · have hfilter : filter = filter' :=
      (SubqlRuntimeHandler.call.inj (SubqlHandler.base.inj heq)).2
    rw [← hfilter] at hentry
    exact ⟨addresses, by rw [hentry]; rfl⟩
  · exact absurd hcontra (by simp)

/-- With a usable query every Block handler has a `modulo`. -/
theorem block_modulo (p : Platform) (limit : ℤ) (dataSources : List SubqlRuntimeDatasource)
    (entries : List DictionaryQueryEntry)
    (hbuild : buildDictionaryV1QueryEntries p limit (runtimeDataSources dataSources) =
      .ok entries) (hne : entries ≠ []) (ds : SubqlRuntimeDatasource) (hds : ds ∈ dataSources)
    (handler : String) (filter : Option EthereumBlockFilter)
    (hh : SubqlRuntimeHandler.block handler filter ∈ ds.handlers) :
    ∃ modulo, filter.bind (·.modulo) = some modulo := by
  obtain ⟨b, addresses, hg, hkind, hjson, -⟩ := exists_runtime_group dataSources ds hds _ hh
  have hrepresentative : ∃ name, b = .block name filter := by
    rcases runtimeHandler_filter_eq b _ hkind hjson with ⟨m, _, f, hm, hn⟩ |
      ⟨_, _, _, -, hcontra⟩ | ⟨_, _, _, -, hcontra⟩
    · have hf : filter = f := (SubqlRuntimeHandler.block.inj hn).2
      exact ⟨m, by rw [hm, hf]⟩
    · exact absurd hcontra (by simp)
    · exact absurd hcontra (by simp)
  obtain ⟨name, rfl⟩ := hrepresentative
  obtain ⟨out, hout, -⟩ := buildV1_group p limit _ entries hbuild hne _ hg
  rw [← Option.isSome_iff_exists]
  cases hmodulo : filter.bind (·.modulo) with
  | some modulo => rfl
  | none =>
    simp only [groupQueryEntries, hmodulo, Option.isNone_none, ↓reduceIte] at hout
    split at hout
    · exact absurd hout (by simp)
    · exact absurd hout (by simp)

/-! ### What the filters accept is asked for -/

/-- A log some Event handler may be run for matches the query. -/
theorem matches_of_event (p : Platform) (limit : ℤ) (dataSources : List SubqlRuntimeDatasource)
    (entries : List DictionaryQueryEntry)
    (hbuild : buildDictionaryV1QueryEntries p limit (runtimeDataSources dataSources) =
      .ok entries) (hne : entries ≠ []) (hplain : PlainFilters dataSources)
    (ds : SubqlRuntimeDatasource) (hds : ds ∈ dataSources) (handler : String)
    (filter : Option EthereumLogFilter)
    (hh : SubqlRuntimeHandler.event handler filter ∈ ds.handlers) (log : EthereumLog)
    (hlog : HexTopics log) (hrun : mayRun p ds.address (.log log) (.event handler filter) = true) :
    entries.any (·.matchesLog p log) = true := by
  obtain ⟨addresses, entry, haddr, hentry, kept, hkept, hentity, hperm⟩ :=
    event_entry p limit dataSources entries hbuild hne ds hds handler filter hh
  have hreadable : ∀ i < 4, topicUnreadable p (filterTopics filter)[i]?.join = false := by
    have hok := (eventFilterToQueryEntry_isOk p limit handler filter addresses).mp
      (by rw [hentry]; rfl)
    simpa using (unreadable_event p _ handler filter addresses).mp hok
  have hdocumented :=
    documented_of_mayRun p dataSources hplain ds hds handler filter hh hreadable log hlog hrun
  have hmatch := eventFilterToQueryEntry_match p limit filter addresses entry hentry ds.address
    haddr log hdocumented
  rw [List.any_eq_true]
  refine ⟨kept, hkept, ?_⟩
  simp only [DictionaryQueryEntry.matchesLog, Bool.and_eq_true, decide_eq_true_eq,
    List.all_eq_true] at hmatch ⊢
  exact ⟨hentity.trans hmatch.1, fun c hc => hmatch.2 c (hperm.mem_iff.mp hc)⟩

/-- A transaction some Call handler may be run for matches the query. -/
theorem matches_of_call (p : Platform) (limit : ℤ) (dataSources : List SubqlRuntimeDatasource)
    (entries : List DictionaryQueryEntry)
    (hbuild : buildDictionaryV1QueryEntries p limit (runtimeDataSources dataSources) =
      .ok entries) (hne : entries ≠ []) (hplain : PlainFilters dataSources)
    (hcalls : CallsCovered p dataSources
      (callQueriesV1 p limit (groupedDataSources (runtimeDataSources dataSources))))
    (ds : SubqlRuntimeDatasource) (hds : ds ∈ dataSources) (handler : String)
    (filter : Option EthereumTransactionFilter)
    (hh : SubqlRuntimeHandler.call handler filter ∈ ds.handlers) (tx : EthereumTransaction)
    (hrun : mayRun p ds.address (.transaction tx) (.call handler filter) = true) :
    entries.any (matchesV1 p tx) = true := by
  obtain ⟨addresses, hentry⟩ :=
    call_entry p limit dataSources entries hbuild hne ds hds handler filter hh
  have hreadable := (callFilterToQueryEntry_isOk p limit (fun _ => true) handler filter
    addresses).mp hentry
  have haccepted :=
    accepted_of_mayRun p dataSources hplain ds hds handler filter hh hreadable tx hrun
  have hquery := (queries_cover_iff p filter ds.address _).mpr
    (hcalls ds hds handler filter hh) tx haccepted
  obtain ⟨entry, hin, hmatch⟩ :=
    (buildV1_lets_iff p limit _ entries hbuild hne tx).mpr hquery
  exact List.any_eq_true.mpr ⟨entry, hin, hmatch⟩

/-- The height of a block some Block handler may be run for is asked for. -/
theorem atModulo_of_block (p : Platform) (limit : ℤ) (dataSources : List SubqlRuntimeDatasource)
    (entries : List DictionaryQueryEntry)
    (hbuild : buildDictionaryV1QueryEntries p limit (runtimeDataSources dataSources) =
      .ok entries) (hne : entries ≠ []) (ds : SubqlRuntimeDatasource) (hds : ds ∈ dataSources)
    (handler : String) (filter : Option EthereumBlockFilter)
    (hh : SubqlRuntimeHandler.block handler filter ∈ ds.handlers) (block : EthereumBlock)
    (hrun : mayRun p ds.address (.block block) (.block handler filter) = true) :
    atModulo dataSources block.number = true := by
  obtain ⟨modulo, hmodulo⟩ :=
    block_modulo p limit dataSources entries hbuild hne ds hds handler filter hh
  rw [atModulo, List.any_eq_true]
  refine ⟨ds, hds, List.any_eq_true.mpr ⟨_, hh, ?_⟩⟩
  simp only [hmodulo, Option.any_some, Bool.or_eq_true, decide_eq_true_eq]
  by_contra hneither
  rw [not_or] at hneither
  rw [mayRun, filterBlocksProcessor, hmodulo, Option.any_some, decide_eq_true hneither] at hrun
  exact absurd hrun (by simp)

/-! ### Passing over a block -/

/-- What a call is for: the block, one of its transactions, or one of its logs. -/
theorem data_of_indexCalls {δ : Type} (block : BlockContent) (dataSources : List δ)
    (hlogs : ∀ tx ∈ blockTransactions block, ∀ log ∈ tx.logs.getD [], log ∈ blockLogs block) :
    ∀ call ∈ indexCalls block dataSources,
      (∃ full, block = .full full ∧ call.data = .block full) ∨
        (∃ tx ∈ blockTransactions block, call.data = .transaction tx) ∨
        ∃ log ∈ blockLogs block, call.data = .log log := by
  have hevents : ∀ logs : List EthereumLog, (∀ log ∈ logs, log ∈ blockLogs block) →
      ∀ call ∈ eventCallsFor logs dataSources, ∃ log ∈ blockLogs block, call.data = .log log := by
    intro logs hin call hcall
    obtain ⟨log, hlog, hcall⟩ := List.mem_flatMap.mp hcall
    obtain ⟨ds, -, rfl⟩ := List.mem_map.mp hcall
    exact ⟨log, hin log hlog, rfl⟩
  intro call hcall
  rw [indexCalls.eq_def] at hcall
  split at hcall
  · rename_i full _
    rcases List.mem_append.mp hcall with hcall | hcall
    · obtain ⟨ds, -, rfl⟩ := List.mem_map.mp hcall
      exact .inl ⟨full, rfl, rfl⟩
    · obtain ⟨tx, htx, hcall⟩ := List.mem_flatMap.mp hcall
      rcases List.mem_append.mp hcall with hcall | hcall
      · obtain ⟨ds, -, rfl⟩ := List.mem_map.mp hcall
        exact .inr (.inl ⟨tx, htx, rfl⟩)
      · exact .inr (.inr (hevents _ (hlogs tx htx) call hcall))
  · exact .inr (.inr (hevents _ (fun log hlog => hlog) call hcall))

/-- The logs of a fetched transaction are logs of its block. -/
theorem logs_of_fetched (p : Platform) (api : EthereumApi) (endpoint : Endpoint)
    (block : BlockContent)
    (hfetched : ∀ full, block = .full full → ∃ num, api.fetchBlock p endpoint num = .ok full) :
    ∀ tx ∈ blockTransactions block, ∀ log ∈ tx.logs.getD [], log ∈ blockLogs block := by
  intro tx htx log hlog
  cases block with
  | light block => exact absurd htx List.not_mem_nil
  | full block =>
    obtain ⟨num, hfetch⟩ := hfetched block rfl
    obtain ⟨rawBlock, logsRaw, -, -, -, htxs⟩ := fetchBlock_ok p api endpoint num block hfetch
    obtain ⟨raw, -, hformatted⟩ := exists_related htxs.flip htx
    obtain ⟨t, -, rfl⟩ := BlockIndexing.withLogs_formatted p _ block.logs raw tx hformatted
    exact List.mem_of_mem_filter hlog

/-- **No handler may be run for a block that is not asked for.** -/
theorem call_idle (p : Platform) (limit : ℤ) (dataSources : List SubqlRuntimeDatasource)
    (entries : List DictionaryQueryEntry)
    (hbuild : buildDictionaryV1QueryEntries p limit (runtimeDataSources dataSources) =
      .ok entries) (hne : entries ≠ []) (hplain : PlainFilters dataSources)
    (hcalls : CallsCovered p dataSources
      (callQueriesV1 p limit (groupedDataSources (runtimeDataSources dataSources))))
    (block : BlockContent)
    (hlogs : ∀ tx ∈ blockTransactions block, ∀ log ∈ tx.logs.getD [], log ∈ blockLogs block)
    (hhex : ∀ log ∈ blockLogs block, HexTopics log) (hunmatched : matched p entries block = false)
    (hheight : atModulo dataSources (blockNumber block) = false) :
    ∀ call ∈ indexCalls block (runtimeDataSources dataSources),
      dsMayRun p call.data call.ds = false := by
  rw [matched, Bool.or_eq_false_iff] at hunmatched
  intro call hcall
  have hin := ds_of_indexCalls block (runtimeDataSources dataSources) call hcall
  obtain ⟨ds, hds, heq⟩ := List.mem_map.mp hin
  rw [← heq, dsMayRun, List.any_eq_false]
  intro handler hh hrun
  rcases data_of_indexCalls block (runtimeDataSources dataSources) hlogs call hcall with
    ⟨full, rfl, hdata⟩ | ⟨tx, htx, hdata⟩ | ⟨log, hlog, hdata⟩
  · rw [hdata] at hrun
    cases handler with
    | block name filter =>
      have hasked := atModulo_of_block p limit dataSources entries hbuild hne ds hds name filter
        hh full hrun
      rw [show blockNumber (.full full) = full.number from rfl, hasked] at hheight
      exact absurd hheight (by simp)
    | call name filter => exact absurd hrun (by simp [mayRun])
    | event name filter => exact absurd hrun (by simp [mayRun])
  · rw [hdata] at hrun
    cases handler with
    | block name filter => exact absurd hrun (by simp [mayRun])
    | call name filter =>
      have hmatch := matches_of_call p limit dataSources entries hbuild hne hplain hcalls ds hds
        name filter hh tx hrun
      exact List.any_eq_false.mp hunmatched.2 tx htx hmatch
    | event name filter => exact absurd hrun (by simp [mayRun])
  · rw [hdata] at hrun
    cases handler with
    | block name filter => exact absurd hrun (by simp [mayRun])
    | call name filter => exact absurd hrun (by simp [mayRun])
    | event name filter =>
      have hmatch := matches_of_event p limit dataSources entries hbuild hne hplain ds hds name
        filter hh log (hhex log hlog) hrun
      exact List.any_eq_false.mp hunmatched.1 log hlog hmatch

/-- **Passing over the blocks that are not named makes no difference.**  Given a usable query of
data sources whose filters accept no more than it asks for, and a dictionary that names at least
the blocks that match it and those at the heights Block handlers ask for: indexing the named
blocks has the effects of indexing all of them, whatever a handler does. -/
theorem unnamed_blocks_passed_over {m : Type → Type} [Monad m] [LawfulMonad m] (p : Platform)
    (limit : ℤ) (dataSources : List SubqlRuntimeDatasource) (entries : List DictionaryQueryEntry)
    (hbuild : buildDictionaryV1QueryEntries p limit (runtimeDataSources dataSources) =
      .ok entries) (hne : entries ≠ []) (hplain : PlainFilters dataSources)
    (hcalls : CallsCovered p dataSources
      (callQueriesV1 p limit (groupedDataSources (runtimeDataSources dataSources))))
    (api : EthereumApi) (endpoint : Endpoint) (blocks : List BlockContent)
    (hfetched : ∀ block, BlockContent.full block ∈ blocks →
      ∃ num, api.fetchBlock p endpoint num = .ok block)
    (hhex : ∀ block ∈ blocks, ∀ log ∈ blockLogs block, HexTopics log)
    (named : BlockContent → Bool)
    (hmatched : ∀ block ∈ blocks, matched p entries block = true → named block = true)
    (hheights : ∀ block ∈ blocks, atModulo dataSources (blockNumber block) = true →
      named block = true)
    (indexData : IndexDataCall SubqlDatasource → m Unit) (hruns : RunsAccepted p indexData) :
    ((blocks.filter named).forM fun block =>
        indexBlockData indexData block (runtimeDataSources dataSources)) =
      blocks.forM fun block =>
        indexBlockData indexData block (runtimeDataSources dataSources) := by
  apply forM_filter_idle
  intro block hblock hunnamed
  have hunmatched : matched p entries block = false := by
    rw [← Bool.not_eq_true]
    intro h
    exact absurd (hmatched block hblock h) (by rw [hunnamed]; simp)
  have hheight : atModulo dataSources (blockNumber block) = false := by
    rw [← Bool.not_eq_true]
    intro h
    exact absurd (hheights block hblock h) (by rw [hunnamed]; simp)
  have hlogs := logs_of_fetched p api endpoint block fun full heq =>
    hfetched full (by rw [← heq]; exact hblock)
  rw [indexBlockData_eq_forM]
  apply forM_idle
  intro call hcall
  exact hruns call.data call.ds
    (call_idle p limit dataSources entries hbuild hne hplain hcalls block hlogs
      (hhex block hblock) hunmatched hheight call hcall)

/-- A token followed by its transfers and approvals, and at every tenth block. -/
def tokenDs : SubqlRuntimeDatasource where
  options := some { address := some (repeated 40 '5') }
  handlers :=
    [.event "handleTransfer" (some ⟨some [some "Transfer(address,address,uint256)"]⟩),
      .call "handleApprove" (some approvalsFilter),
      .block "handleTenth" (some ⟨[.modulo 10], by decide⟩)]

/-- Its query. -/
def tokenEntries : List DictionaryQueryEntry :=
  [⟨.evmLogs, [⟨"address", .text (repeated 40 '5'), .equalTo⟩,
      ⟨"topics0", .text "0xddf252ad1be2c89b69c2b068fc378daa952ba7f163c4a11628f55a4df523b3ef",
        .equalTo⟩]⟩,
    ⟨.evmTransactions, [⟨"to", .text (repeated 40 '5'), .equalTo⟩,
      ⟨"func", .text "0x095ea7b3", .equalTo⟩]⟩]

theorem tokenDs_plainFilters : PlainFilters [tokenDs] where
  topics := by
    intro ds hds handler filter hh i hi hnull
    rw [List.mem_singleton.mp hds] at hh
    have hfilter : handler = "handleTransfer" ∧
        filter = some ⟨some [some "Transfer(address,address,uint256)"]⟩ := by
      simpa [tokenDs] using hh
    have hnever : ∀ k < 4, (filterTopics (some
        ⟨some [some "Transfer(address,address,uint256)"]⟩))[k]?.join ≠ some NOT_NULL_FILTER := by
      decide
    rw [hfilter.2] at hnull
    exact absurd hnull (hnever i hi)
  signatures := by
    intro ds hds handler filter hh
    rw [List.mem_singleton.mp hds] at hh
    have hfilter := (SubqlRuntimeHandler.call.inj (by simpa [tokenDs] using hh)).2
    rw [hfilter]
    decide

theorem tokenDs_callsCovered : CallsCovered erc20Platform [tokenDs] (callQueriesV1 erc20Platform 100
    (groupedDataSources (runtimeDataSources [tokenDs]))) := by
  intro ds hds handler filter hh input hinput
  rw [List.mem_singleton.mp hds] at hh ⊢
  have hfilter := (SubqlRuntimeHandler.call.inj (by simpa [tokenDs] using hh)).2
  rw [hfilter] at hinput ⊢
  refine ⟨_, List.mem_singleton_self _, ?_, by rfl⟩
  show decide (selector input = "0x095ea7b3") = true
  exact decide_eq_true (selector_of_approval input hinput)

/-- A log of another contract, in the block at height 3. -/
def otherLog : EthereumLog where
  address := some (repeated 40 '6')
  topics := []
  blockHash := some (repeated 64 '3')
  transactionHash := repeated 64 '1'

/-- A transfer of the token, in the block at height 7. -/
def tokenTransfer : EthereumLog where
  address := some (repeated 40 '5')
  topics := ["0xddf252ad1be2c89b69c2b068fc378daa952ba7f163c4a11628f55a4df523b3ef"]
  blockHash := some (repeated 64 '7')
  transactionHash := repeated 64 '2'

def otherLogRaw : Log where
  address := repeated 40 '6'
  blockHash := some (repeated 64 '3')
  transactionHash := repeated 64 '1'

def tokenTransferRaw : Log where
  address := repeated 40 '5'
  topics := ["0xddf252ad1be2c89b69c2b068fc378daa952ba7f163c4a11628f55a4df523b3ef"]
  blockHash := some (repeated 64 '7')
  transactionHash := repeated 64 '2'

/-- A chain with these two blocks. -/
def tokenEndpoint : Endpoint where
  blockByNumber num := .ok (some (if num = 7 then
      ⟨{ hash := repeated 64 '7', number := .number 7, stateRoot := repeated 64 '0' },
        [{ hash := repeated 64 '2' }]⟩
    else
      ⟨{ hash := repeated 64 '3', number := .number 3, stateRoot := repeated 64 '0' },
        [{ hash := repeated 64 '1' }]⟩))
  logsByHash hash := .ok (if hash = repeated 64 '7' then [tokenTransferRaw] else [otherLogRaw])

def otherBlock : EthereumBlock where
  hash := repeated 64 '3'
  number := 3
  stateRoot := repeated 64 '0'
  logs := [otherLog]
  transactions := [{ hash := repeated 64 '1', logs := some [otherLog] }]

def transferBlock : EthereumBlock where
  hash := repeated 64 '7'
  number := 7
  stateRoot := repeated 64 '0'
  logs := [tokenTransfer]
  transactions := [{ hash := repeated 64 '2', logs := some [tokenTransfer] }]

/-- The dictionary names the block with the transfer only. -/
def namesTransfer (block : BlockContent) : Bool := blockNumber block = 7

theorem tokenBlocks_fetched (block : EthereumBlock)
    (h : BlockContent.full block ∈ [.full otherBlock, .full transferBlock]) :
    ∃ num, EthereumApi.fetchBlock erc20Platform {} tokenEndpoint num = .ok block := by
  rcases List.mem_cons.mp h with heq | h
  · rw [BlockContent.full.inj heq]
    exact ⟨3, rfl⟩
  · rw [BlockContent.full.inj (List.mem_singleton.mp h)]
    exact ⟨7, rfl⟩

/-- The block at height 3 is passed over. -/
theorem unnamed_blocks_passed_over_other :
    ([BlockContent.full otherBlock, .full transferBlock].filter namesTransfer).forM (fun block =>
        indexBlockData (recordAccepted erc20Platform) block (runtimeDataSources [tokenDs])) =
      [BlockContent.full otherBlock, .full transferBlock].forM fun block =>
        indexBlockData (recordAccepted erc20Platform) block (runtimeDataSources [tokenDs]) :=
  unnamed_blocks_passed_over erc20Platform 100 [tokenDs] tokenEntries (by rfl) (by decide)
    tokenDs_plainFilters tokenDs_callsCovered {} tokenEndpoint
    [.full otherBlock, .full transferBlock] tokenBlocks_fetched (by decide) namesTransfer
    (by decide) (by decide) (recordAccepted erc20Platform)
    (recordAccepted_runsAccepted erc20Platform)

end SubqlEthereum.SkippedBlocks
