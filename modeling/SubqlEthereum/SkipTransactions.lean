import SubqlEthereum.EventOrder
import SubqlEthereum.Library.Passes

/-!
# Fetching blocks without their transactions

`isOnlyEventHandlers` of `utils/project.ts`, and the choice between the two ways of fetching a
block in `api.service.ethereum.ts`.  With `skipTransactions` set the service fetches light
blocks, but only as long as the project and its templates have Event handlers only; the choice
is made when the service is built and again at every change of the project.

The option is an optimisation.  `skipTransactions_unobservable` says of every run of project
changes and fetched blocks that the handlers are run in the same way with it and without it.  Logs
are compared in the fields of `Blocks`, which do not include the references from a log back to its
block and its transaction.
-/

namespace SubqlEthereum.SkipTransactions

open SubqlEthereum.External SubqlEthereum.Project SubqlEthereum.Blocks SubqlEthereum.Fallible
open SubqlEthereum.Ethereum SubqlEthereum.BlockEthereum SubqlEthereum.IndexerManager
open SubqlEthereum.EventOrder SubqlEthereum.Passes

/-! ### The handlers of a project -/

/-- The data sources of a project, and those it may create later. -/
structure SubqueryProject where
  dataSources : List SubqlDatasource
  templates : List SubqlDatasource

def dsContainsNonEventHandlers : SubqlDatasource → Bool
  | .runtime ds => (ds.handlers.find? fun handler => handler.kind ≠ .event).isSome
  | .custom _ => true

def isOnlyEventHandlers (project : SubqueryProject) : Bool :=
  let hasNonEventHandler := (project.dataSources.find? dsContainsNonEventHandlers).isSome
  let hasNonEventTemplate := (project.templates.find? dsContainsNonEventHandlers).isSome
  !hasNonEventHandler && !hasNonEventTemplate

/-! ### The service -/

inductive FetchFunc
  | fetchFullBlocksBatch
  | fetchLightBlocksBatch
deriving DecidableEq, Repr

/-- The batch of a fetch function: `Promise.all` of the blocks, which rejects when one of them
does. -/
def FetchFunc.apply (p : Platform) (api : EthereumApi) (endpoint : Endpoint)
    (batch : List ℤ) : FetchFunc → Except JsError (List BlockContent)
  | .fetchFullBlocksBatch =>
    batch.mapM fun num => (api.fetchBlock p endpoint num).map BlockContent.full
  | .fetchLightBlocksBatch =>
    batch.mapM fun num => (api.fetchLightBlock p endpoint num).map BlockContent.light

structure EthereumApiService where
  project : SubqueryProject
  skipTransactions : Bool
  fetchBlocksFunction : Option FetchFunc := none

namespace EthereumApiService

def updateBlockFetching (service : EthereumApiService) : EthereumApiService :=
  let onlyEventHandlers := isOnlyEventHandlers service.project
  let skipTransactions := service.skipTransactions && onlyEventHandlers
  { service with
    fetchBlocksFunction :=
      some (if skipTransactions then .fetchLightBlocksBatch else .fetchFullBlocksBatch) }

def create (project : SubqueryProject) (skipTransactions : Bool) : EthereumApiService :=
  updateBlockFetching { project, skipTransactions }

/-- The project the service holds is the current one, also after a change. -/
def onProjectChange (service : EthereumApiService) (project : SubqueryProject) :
    EthereumApiService :=
  updateBlockFetching { service with project }

def fetchBlocksBatches (service : EthereumApiService) : Except JsError FetchFunc :=
  match service.fetchBlocksFunction with
  | some fetchFunc => .ok fetchFunc
  | none => .error { name := "AssertionError",
                     message := "Fetch blocks function is not defined" }

def fetchBlocks (p : Platform) (api : EthereumApi) (endpoint : Endpoint)
    (service : EthereumApiService) (heights : List ℤ) : Except JsError (List BlockContent) := do
  let fetchFunc ← service.fetchBlocksBatches
  fetchFunc.apply p api endpoint heights

end EthereumApiService

/-! ### Indexing -/

/-- A data source made from a template has the handlers of the template. -/
def InstanceOf : SubqlDatasource → SubqlDatasource → Prop
  | .runtime template, .runtime ds => ds.handlers = template.handlers
  | .custom template, .custom ds => ds.handlers = template.handlers
  | _, _ => False

/-- The data sources that may be indexed for a project. -/
def SubqueryProject.Offers (project : SubqueryProject) (ds : SubqlDatasource) : Prop :=
  ds ∈ project.dataSources ∨ ∃ template ∈ project.templates, InstanceOf template ds

/-- A change of the project, or a batch of blocks with the data sources of each height. -/
inductive Command
  | projectChange (project : SubqueryProject)
  | index (heights : List ℤ) (dataSources : ℤ → List SubqlDatasource)

def blockNumber : BlockContent → ℤ
  | .full block => block.number
  | .light block => block.number

section Runs

variable {m : Type → Type} [Monad m]

/-- `indexData` runs handlers: it does nothing for a runtime data source that has no handler of
the kind of the input. -/
def RunsHandlers (indexData : IndexDataCall SubqlDatasource → m Unit) : Prop :=
  ∀ (data : IndexedData) (ds : SubqlRuntimeDatasource),
    (∀ handler ∈ ds.handlers, handler.kind ≠ data.kind) →
      indexData ⟨data, .runtime ds⟩ = pure ()

/-- A batch is fetched and its blocks are indexed in turn; `rejected` stands for what is done
about a batch that could not be fetched. -/
def indexBatch (p : Platform) (api : EthereumApi) (endpoint : Endpoint)
    (indexData : IndexDataCall SubqlDatasource → m Unit) (rejected : m Unit)
    (service : EthereumApiService) (heights : List ℤ)
    (dataSources : ℤ → List SubqlDatasource) : m Unit :=
  match service.fetchBlocks p api endpoint heights with
  | .error _ => rejected
  | .ok blocks => blocks.forM fun block =>
      indexBlockData indexData block (dataSources (blockNumber block))

def runCommands (p : Platform) (api : EthereumApi) (endpoint : Endpoint)
    (indexData : IndexDataCall SubqlDatasource → m Unit) (rejected : m Unit) :
    EthereumApiService → List Command → m Unit
  | _, [] => pure ()
  | service, .projectChange project :: rest =>
    runCommands p api endpoint indexData rejected (service.onProjectChange project) rest
  | service, .index heights dataSources :: rest => do
    indexBatch p api endpoint indexData rejected service heights dataSources
    runCommands p api endpoint indexData rejected service rest

end Runs

/-! ### One block -/

theorem isOnlyEventHandlers_offers (project : SubqueryProject)
    (h : isOnlyEventHandlers project = true) (ds : SubqlDatasource) (hds : project.Offers ds) :
    dsContainsNonEventHandlers ds = false := by
  simp only [isOnlyEventHandlers, Bool.and_eq_true, Bool.not_eq_true', Option.isSome_eq_false_iff,
    Option.isNone_iff_eq_none, List.find?_eq_none, Bool.not_eq_true] at h
  rcases hds with hds | ⟨template, htemplate, hinstance⟩
  · exact h.1 ds hds
  · have hnone := h.2 template htemplate
    cases template with
    | custom template => exact absurd hnone (by simp [dsContainsNonEventHandlers])
    | runtime template =>
      cases ds with
      | custom ds => exact absurd hinstance id
      | runtime ds =>
        have hsame : ds.handlers = template.handlers := hinstance
        rw [dsContainsNonEventHandlers, hsame]
        exact hnone

/-- A data source without other handlers is a runtime one whose handlers are Event handlers. -/
theorem eventHandlers_only (ds : SubqlDatasource) (h : dsContainsNonEventHandlers ds = false) :
    ∃ runtimeDs, ds = .runtime runtimeDs ∧
      ∀ handler ∈ runtimeDs.handlers, handler.kind = .event := by
  cases ds with
  | custom ds => exact absurd h (by simp [dsContainsNonEventHandlers])
  | runtime ds =>
    refine ⟨ds, rfl, fun handler hhandler => ?_⟩
    simp only [dsContainsNonEventHandlers, Option.isSome_eq_false_iff, Option.isNone_iff_eq_none,
      List.find?_eq_none, decide_not, Bool.not_eq_true', decide_eq_false_iff_not, not_not] at h
    exact h handler hhandler

section Calls

variable {δ : Type}

theorem ds_of_callsFor (data : IndexedData) (dataSources : List δ) :
    ∀ call ∈ callsFor data dataSources, call.ds ∈ dataSources := by
  intro call hcall
  obtain ⟨ds, hds, rfl⟩ := List.mem_map.mp hcall
  exact hds

theorem ds_of_eventCallsFor (logs : List EthereumLog) (dataSources : List δ) :
    ∀ call ∈ eventCallsFor logs dataSources, call.ds ∈ dataSources := by
  intro call hcall
  obtain ⟨log, -, hcall⟩ := List.mem_flatMap.mp hcall
  exact ds_of_callsFor _ dataSources call hcall

/-- Every call is for one of the data sources. -/
theorem ds_of_indexCalls (block : BlockContent) (dataSources : List δ) :
    ∀ call ∈ indexCalls block dataSources, call.ds ∈ dataSources := by
  intro call hcall
  rw [indexCalls.eq_def] at hcall
  split at hcall
  · rcases List.mem_append.mp hcall with hcall | hcall
    · exact ds_of_callsFor _ dataSources call hcall
    · obtain ⟨tx, -, hcall⟩ := List.mem_flatMap.mp hcall
      rcases List.mem_append.mp hcall with hcall | hcall
      · exact ds_of_callsFor _ dataSources call hcall
      · exact ds_of_eventCallsFor _ dataSources call hcall
  · exact ds_of_eventCallsFor _ dataSources call hcall

/-- The calls for Event handlers. -/
def isEventCall (call : IndexDataCall δ) : Bool := call.data.kind = .event

theorem filter_callsFor (data : IndexedData) (dataSources : List δ) :
    (callsFor data dataSources).filter isEventCall =
      if data.kind = .event then callsFor data dataSources else [] := by
  by_cases h : data.kind = .event
  · rw [if_pos h, List.filter_eq_self]
    intro call hcall
    obtain ⟨ds, -, rfl⟩ := List.mem_map.mp hcall
    exact decide_eq_true h
  · rw [if_neg h, List.filter_eq_nil_iff]
    intro call hcall
    obtain ⟨ds, -, rfl⟩ := List.mem_map.mp hcall
    simpa [isEventCall] using h

theorem filter_eventCallsFor (logs : List EthereumLog) (dataSources : List δ) :
    (eventCallsFor logs dataSources).filter isEventCall = eventCallsFor logs dataSources := by
  rw [List.filter_eq_self]
  intro call hcall
  obtain ⟨log, -, hcall⟩ := List.mem_flatMap.mp hcall
  obtain ⟨ds, -, rfl⟩ := List.mem_map.mp hcall
  rfl

/-- The Event calls of a full block are those of the logs of its transactions, put together. -/
theorem filter_indexCalls_full (block : EthereumBlock) (hne : block.transactions ≠ [])
    (dataSources : List δ) :
    (indexCalls (.full block) dataSources).filter isEventCall =
      eventCallsFor (block.transactions.flatMap fun tx => tx.logs.getD []) dataSources := by
  have hfull : isFullBlock (.full block) = true := by
    rw [isFullBlock, Bool.not_eq_true', List.isEmpty_eq_false_iff]
    exact hne
  simp only [indexCalls, hfull]
  rw [List.filter_append, filter_callsFor, List.filter_flatMap]
  simp only [List.filter_append, filter_callsFor, filter_eventCallsFor, IndexedData.kind,
    reduceCtorEq, if_false, List.nil_append]
  rw [eventCallsFor, List.flatMap_assoc]
  rfl

end Calls

/-- **One block**, in full and light.  Data sources with Event handlers only are run in the same
way on both, when the transactions carry the logs of the block in their order. -/
theorem indexBlockData_light {m : Type → Type} [Monad m] [LawfulMonad m]
    (indexData : IndexDataCall SubqlDatasource → m Unit) (hruns : RunsHandlers indexData)
    (block : EthereumBlock) (light : LightEthereumBlock) (hlogs : block.logs = light.logs)
    (hjoined : block.transactions ≠ [] →
      (block.transactions.flatMap fun tx => tx.logs.getD []) = block.logs)
    (dataSources : List SubqlDatasource)
    (hevents : ∀ ds ∈ dataSources, dsContainsNonEventHandlers ds = false) :
    indexBlockData indexData (.full block) dataSources =
      indexBlockData indexData (.light light) dataSources := by
  have hidle : ∀ content, ∀ call ∈ indexCalls content dataSources, isEventCall call = false →
      indexData call = pure () := by
    intro content call hcall hother
    obtain ⟨data, ds⟩ := call
    obtain ⟨ds, rfl, hhandlers⟩ :=
      eventHandlers_only _ (hevents _ (ds_of_indexCalls content dataSources _ hcall))
    apply hruns
    intro handler hhandler hkind
    rw [hhandlers handler hhandler] at hkind
    exact absurd hkind.symm (of_decide_eq_false hother)
  rw [indexBlockData_eq_forM, indexBlockData_eq_forM]
  apply forM_eq_of_kept isEventCall indexData _ _ (hidle _) (hidle _)
  have hlight : indexCalls (.light light) dataSources = eventCallsFor light.logs dataSources := rfl
  rw [hlight, filter_eventCallsFor, ← hlogs]
  by_cases hne : block.transactions = []
  · have hempty : isFullBlock (.full block) = false := by
      rw [isFullBlock, hne]
      rfl
    have hcalls : indexCalls (.full block) dataSources = eventCallsFor block.logs dataSources := by
      simp only [indexCalls, hempty, blockLogs]
    rw [hcalls, filter_eventCallsFor]
  · rw [filter_indexCalls_full block hne, hjoined hne]

/-! ### One batch -/

/-- What is relied on of an endpoint at a height: it is consistent, its transactions can be
formatted, and its logs come in the order of the transactions. -/
structure OrdinaryAt (p : Platform) (api : EthereumApi) (endpoint : Endpoint) (num : ℤ) : Prop where
  consistent : EndpointConsistent p api endpoint num
  transactions : ∀ rawBlock, endpoint.blockByNumber num = .ok (some rawBlock) →
    ∀ tx ∈ rawBlock.transactions, ∀ block, ∃ t, formatTransaction p tx block = .ok t
  ordered : ∀ rawBlock, endpoint.blockByNumber num = .ok (some rawBlock) →
    rawBlock.transactions ≠ [] → ∀ logs, endpoint.logsByHash rawBlock.header.hash = .ok logs →
      OrderedBlock rawBlock.transactions logs

/-- The formatter keeps the hash of the block. -/
theorem getBlockPromise_hash {τ : Type} (p : Platform) (api : EthereumApi)
    (rawBlock : RawBlock τ) (num : ℤ) (block : BlockHeader) (txs : List τ)
    (h : api.getBlockPromise p (.ok (some rawBlock)) num = .ok (block, txs)) :
    block.hash = rawBlock.header.hash := by
  rw [EthereumApi.getBlockPromise] at h
  obtain ⟨found, hfound, hrest⟩ := ok_of_bind_ok h
  rw [← Except.ok.inj hfound] at hrest
  obtain ⟨header, hheader, hroot⟩ := ok_of_bind_ok hrest
  have hkept : header.hash = rawBlock.header.hash := by
    rw [formatBlock] at hheader
    iterate 11 obtain ⟨_, -, hheader⟩ := ok_of_bind_ok hheader
    rw [← Except.ok.inj hheader]
  split at hroot
  · rw [← (Prod.mk.inj (Except.ok.inj hroot)).1]
    exact hkept
  · obtain ⟨stateRoot, -, hpair⟩ := ok_of_bind_ok hroot
    rw [← (Prod.mk.inj (Except.ok.inj hpair)).1]
    exact hkept

/-- A consistent endpoint that rejects one request rejects the other, too. -/
theorem OrdinaryAt.fetchesAgree {p : Platform} {api : EthereumApi} {endpoint : Endpoint} {num : ℤ}
    (h : OrdinaryAt p api endpoint num) :
    FetchesAgree (api.fetchBlock p endpoint num) (api.fetchLightBlock p endpoint num) := by
  have hconsistent := h.consistent
  rw [EndpointConsistent] at hconsistent
  rw [EthereumApi.fetchBlock, EthereumApi.fetchLightBlock, getBlockPromise_light]
  cases hblock : api.getBlockPromise p (endpoint.blockByNumber num) num with
  | error e =>
    rw [hblock] at hconsistent
    exact (handleError_eq_self api e).mpr hconsistent
  | ok found =>
    obtain ⟨block, txs⟩ := found
    rw [hblock] at hconsistent
    obtain ⟨rawBlock, hanswer, htxs⟩ := getBlockPromise_ok p api _ num block txs hblock
    simp only [bind, Except.bind, Except.map]
    cases hlogs : endpoint.logsByHash block.hash with
    | error e =>
      simp only [hlogs] at hconsistent
      exact (handleError_eq_self api e).mpr hconsistent
    | ok logsRaw =>
      simp only [hlogs] at hconsistent
      apply agree_of_own_logs p api num block txs logsRaw _ hconsistent
      intro tx htx
      rw [htxs] at htx
      exact h.transactions rawBlock hanswer tx htx block

/-- The transactions of a block that was fetched carry the logs of the block in their order. -/
theorem OrdinaryAt.joined {p : Platform} {api : EthereumApi} {endpoint : Endpoint} {num : ℤ}
    (h : OrdinaryAt p api endpoint num) (block : EthereumBlock)
    (hfetch : api.fetchBlock p endpoint num = .ok block) (hne : block.transactions ≠ []) :
    (block.transactions.flatMap fun tx => tx.logs.getD []) = block.logs := by
  obtain ⟨rawBlock, logsRaw, hanswer, hlogs, hformat, htxs⟩ :=
    fetchBlock_ok p api endpoint num block hfetch
  have hraw : rawBlock.transactions ≠ [] := by
    intro hnil
    rw [hnil] at htxs
    exact hne (List.forall₂_nil_left_iff.mp htxs)
  have hhash : block.hash = rawBlock.header.hash := by
    have hpromise := hfetch
    rw [EthereumApi.fetchBlock] at hpromise
    obtain ⟨⟨header, txs⟩, hblock, hrest⟩ := ok_of_bind_ok (ok_of_mapError_ok hpromise)
    rw [hanswer] at hblock
    rw [← getBlockPromise_hash p api rawBlock num header txs hblock]
    obtain ⟨_, -, hrest⟩ := ok_of_bind_ok hrest
    obtain ⟨_, -, hrest⟩ := ok_of_bind_ok hrest
    obtain ⟨_, -, hrest⟩ := ok_of_bind_ok hrest
    obtain ⟨_, -, hrest⟩ := ok_of_bind_ok hrest
    rw [← Except.ok.inj hrest]
  rw [hhash] at hlogs
  exact (h.ordered rawBlock hanswer hraw logsRaw hlogs).joined p block hformat htxs

/-- A block fetched in full and the same block fetched light. -/
def SameBlock : BlockContent → BlockContent → Prop
  | .full block, .light light =>
    block.toBlockHeader = light.toBlockHeader ∧ block.logs = light.logs ∧
      (block.transactions ≠ [] →
        (block.transactions.flatMap fun tx => tx.logs.getD []) = block.logs)
  | _, _ => False

/-- The two fetches of a height reject alike, or give the same block. -/
theorem OrdinaryAt.fetches {p : Platform} {api : EthereumApi} {endpoint : Endpoint} {num : ℤ}
    (h : OrdinaryAt p api endpoint num) :
    (∃ e, api.fetchBlock p endpoint num = .error e ∧
        api.fetchLightBlock p endpoint num = .error e) ∨
      ∃ block light, api.fetchBlock p endpoint num = .ok block ∧
        api.fetchLightBlock p endpoint num = .ok light ∧
        SameBlock (.full block) (.light light) := by
  have hagree := h.fetchesAgree
  cases hfull : api.fetchBlock p endpoint num with
  | error e =>
    cases hlight : api.fetchLightBlock p endpoint num with
    | error e' =>
      rw [hfull, hlight] at hagree
      exact .inl ⟨e, rfl, by rw [show e = e' from hagree]⟩
    | ok light =>
      rw [hfull, hlight] at hagree
      exact absurd hagree id
  | ok block =>
    cases hlight : api.fetchLightBlock p endpoint num with
    | error e =>
      rw [hfull, hlight] at hagree
      exact absurd hagree id
    | ok light =>
      rw [hfull, hlight] at hagree
      exact .inr ⟨block, light, rfl, rfl, hagree.1, hagree.2, h.joined block hfull⟩

/-- **One batch**: both fetch functions reject it, or both give the same blocks. -/
theorem apply_batch (p : Platform) (api : EthereumApi) (endpoint : Endpoint) (batch : List ℤ)
    (h : ∀ num ∈ batch, OrdinaryAt p api endpoint num) :
    (∃ e, FetchFunc.fetchFullBlocksBatch.apply p api endpoint batch = .error e ∧
        FetchFunc.fetchLightBlocksBatch.apply p api endpoint batch = .error e) ∨
      ∃ full light, FetchFunc.fetchFullBlocksBatch.apply p api endpoint batch = .ok full ∧
        FetchFunc.fetchLightBlocksBatch.apply p api endpoint batch = .ok light ∧
        List.Forall₂ SameBlock full light := by
  simp only [FetchFunc.apply]
  induction batch with
  | nil => exact .inr ⟨[], [], rfl, rfl, .nil⟩
  | cons num rest ih =>
    simp only [List.mapM_cons]
    rcases (h num List.mem_cons_self).fetches with
      ⟨e, hfull, hlight⟩ | ⟨block, light, hfull, hlight, hsame⟩
    · rw [hfull, hlight]
      exact .inl ⟨e, rfl, rfl⟩
    · rw [hfull, hlight]
      rcases ih fun num hnum => h num (List.mem_cons_of_mem _ hnum) with ⟨e, hfulls, hlights⟩ |
        ⟨blocks, lights, hfulls, hlights, hsames⟩
      · rw [hfulls, hlights]
        exact .inl ⟨e, rfl, rfl⟩
      · rw [hfulls, hlights]
        exact .inr ⟨_, _, rfl, rfl, .cons hsame hsames⟩

/-! ### Runs -/

section Equality

variable {m : Type → Type} [Monad m] [LawfulMonad m]

/-- Every batch of a run is indexed for data sources of the project at that time, at heights where
the endpoint is ordinary. -/
def RunFrom (p : Platform) (api : EthereumApi) (endpoint : Endpoint) :
    SubqueryProject → List Command → Prop
  | _, [] => True
  | _, .projectChange project :: rest => RunFrom p api endpoint project rest
  | project, .index heights dataSources :: rest =>
    (∀ num ∈ heights, OrdinaryAt p api endpoint num) ∧
      (∀ height, ∀ ds ∈ dataSources height, project.Offers ds) ∧
      RunFrom p api endpoint project rest

/-- Blocks that are the same are indexed alike, for data sources with Event handlers only. -/
theorem index_same_blocks (indexData : IndexDataCall SubqlDatasource → m Unit)
    (hruns : RunsHandlers indexData) (dataSources : ℤ → List SubqlDatasource)
    (hevents : ∀ height, ∀ ds ∈ dataSources height, dsContainsNonEventHandlers ds = false)
    (full light : List BlockContent) (hsame : List.Forall₂ SameBlock full light) :
    (full.forM fun block => indexBlockData indexData block (dataSources (blockNumber block))) =
      light.forM fun block => indexBlockData indexData block (dataSources (blockNumber block)) := by
  refine forM_eq_of_forall₂ SameBlock _ _ ?_ hsame
  intro content content' h
  cases content with
  | light block => exact absurd h id
  | full block =>
    cases content' with
    | full block' => exact absurd h id
    | light light =>
      obtain ⟨hheader, hlogs, hjoined⟩ := h
      have hnumber : blockNumber (.full block) = blockNumber (.light light) :=
        congrArg BlockHeader.number hheader
      rw [hnumber]
      exact indexBlockData_light indexData hruns block light hlogs hjoined _ (hevents _)

/-- **One batch is indexed alike** whether the option is set or not. -/
theorem indexBatch_skipTransactions (p : Platform) (api : EthereumApi) (endpoint : Endpoint)
    (indexData : IndexDataCall SubqlDatasource → m Unit) (hruns : RunsHandlers indexData)
    (rejected : m Unit) (project : SubqueryProject) (heights : List ℤ)
    (dataSources : ℤ → List SubqlDatasource)
    (hordinary : ∀ num ∈ heights, OrdinaryAt p api endpoint num)
    (hoffers : ∀ height, ∀ ds ∈ dataSources height, project.Offers ds) :
    indexBatch p api endpoint indexData rejected (.create project true) heights dataSources =
      indexBatch p api endpoint indexData rejected (.create project false) heights dataSources := by
  cases honly : isOnlyEventHandlers project with
  | false =>
    have hsame : (EthereumApiService.create project true).fetchBlocks p api endpoint heights =
        (EthereumApiService.create project false).fetchBlocks p api endpoint heights := by
      simp only [EthereumApiService.fetchBlocks, EthereumApiService.fetchBlocksBatches,
        EthereumApiService.create, EthereumApiService.updateBlockFetching, honly, Bool.and_false]
    rw [indexBatch, indexBatch, hsame]
  | true =>
    have hlightFetch : (EthereumApiService.create project true).fetchBlocks p api endpoint heights =
        FetchFunc.fetchLightBlocksBatch.apply p api endpoint heights := by
      simp only [EthereumApiService.fetchBlocks, EthereumApiService.fetchBlocksBatches,
        EthereumApiService.create, EthereumApiService.updateBlockFetching, honly, Bool.and_self]
      rfl
    have hfullFetch : (EthereumApiService.create project false).fetchBlocks p api endpoint heights =
        FetchFunc.fetchFullBlocksBatch.apply p api endpoint heights := rfl
    rw [indexBatch, indexBatch, hlightFetch, hfullFetch]
    rcases apply_batch p api endpoint heights hordinary with ⟨e, hfull, hlight⟩ |
      ⟨full, light, hfull, hlight, hsame⟩
    · rw [hfull, hlight]
    · rw [hfull, hlight]
      refine (index_same_blocks indexData hruns dataSources ?_ full light hsame).symm
      intro height ds hds
      exact isOnlyEventHandlers_offers project honly ds (hoffers height ds hds)

/-- **The option `skipTransactions` cannot be observed.**  In every run of project changes and
batches the handlers are run in the same way with the option and without it: the same calls with
the same inputs in the same order, whatever a call does. -/
theorem skipTransactions_unobservable (p : Platform) (api : EthereumApi) (endpoint : Endpoint)
    (indexData : IndexDataCall SubqlDatasource → m Unit) (hruns : RunsHandlers indexData)
    (rejected : m Unit) (commands : List Command) (project : SubqueryProject)
    (hrun : RunFrom p api endpoint project commands) :
    runCommands p api endpoint indexData rejected (.create project true) commands =
      runCommands p api endpoint indexData rejected (.create project false) commands := by
  induction commands generalizing project with
  | nil => rfl
  | cons command rest ih =>
    cases command with
    | projectChange project' => exact ih project' hrun
    | index heights dataSources =>
      obtain ⟨hordinary, hoffers, hrest⟩ := hrun
      rw [runCommands, runCommands, ih project hrest,
        indexBatch_skipTransactions p api endpoint indexData hruns rejected project heights
          dataSources hordinary hoffers]

end Equality

/-- Writes down what the handlers of a runtime data source are run with. -/
def recordHandled (call : IndexDataCall SubqlDatasource) : StateM (List IndexedData) Unit :=
  match call.ds with
  | .runtime ds =>
    if ds.handlers.any (·.kind = call.data.kind) then modify (· ++ [call.data]) else pure ()
  | .custom _ => pure ()

theorem recordHandled_runsHandlers : RunsHandlers recordHandled := by
  intro data ds hnone
  have hany : ds.handlers.any (fun handler => handler.kind = data.kind) = false := by
    rw [List.any_eq_false]
    intro handler hhandler
    simpa using hnone handler hhandler
  rw [recordHandled]
  simp only [hany, Bool.false_eq_true, if_false]

/-- A project that handles every log, with a template that does, and one that handles every
transaction, too. -/
def logsProject : SubqueryProject where
  dataSources := [.runtime { handlers := [.event "handleLog" none] }]
  templates := [.runtime { handlers := [.event "handlePool" none] }]

def transactionsProject : SubqueryProject where
  dataSources :=
    [.runtime { handlers := [.event "handleLog" none, .call "handleTransaction" none] }]
  templates := []

theorem transferEndpoint_ordinary : OrdinaryAt erc20Platform {} transferEndpoint 5 where
  consistent := by
    intro log hlog
    have hall : ∀ log ∈ transferLogs, log.blockHash = some "0xaa" := by decide
    rw [hall log hlog]
    rfl
  transactions := by
    intro rawBlock hanswer tx htx block
    have hblock : transferBlock = rawBlock := Option.some.inj (Except.ok.inj hanswer)
    rw [← hblock] at htx
    have hcases : tx = { hash := "0x01" } ∨ tx = { hash := "0x02" } := by
      simpa [transferBlock] using htx
    rcases hcases with rfl | rfl
    · exact ⟨_, rfl⟩
    · exact ⟨_, rfl⟩
  ordered := by
    intro rawBlock hanswer _ logs hlogs
    have hblock : transferBlock = rawBlock := Option.some.inj (Except.ok.inj hanswer)
    rw [← hblock, ← Except.ok.inj hlogs]
    exact transferBlock_ordered

/-- A batch for Event handlers, a change of the project, and the same batch again. -/
theorem skipTransactions_unobservable_transfer :
    runCommands erc20Platform {} transferEndpoint recordHandled (pure ())
        (.create logsProject true)
        [.index [5] fun _ => logsProject.dataSources, .projectChange transactionsProject,
          .index [5] fun _ => transactionsProject.dataSources] =
      runCommands erc20Platform {} transferEndpoint recordHandled (pure ())
        (.create logsProject false)
        [.index [5] fun _ => logsProject.dataSources, .projectChange transactionsProject,
          .index [5] fun _ => transactionsProject.dataSources] := by
  have hordinary : ∀ num ∈ [(5 : ℤ)], OrdinaryAt erc20Platform {} transferEndpoint num := by
    intro num hnum
    rw [List.mem_singleton.mp hnum]
    exact transferEndpoint_ordinary
  exact skipTransactions_unobservable erc20Platform {} transferEndpoint recordHandled
    recordHandled_runsHandlers (pure ()) _ logsProject
    ⟨hordinary, fun _ ds hds => .inl hds, hordinary, fun _ ds hds => .inl hds, trivial⟩

end SubqlEthereum.SkipTransactions
