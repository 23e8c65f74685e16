import SubqlEthereum.BlockEthereum
import SubqlEthereum.Ethereum.FetchBlock

/-!
# Passing a block to the handlers

`IndexerManager.indexBlockData` of `indexer.manager.ts`: nested loops that call `indexData` for
the block, its transactions and its logs, once for each data source.  What `indexData` does is
not part of the repository, so the loops are written over an arbitrary monad and take it as an
argument.

`indexBlockData_eq_forM` says what the loops amount to in any monad: one pass over a list of
calls, `indexCalls`.  Recording the calls gives that list back, and the counting results are
about it.
-/

namespace SubqlEthereum.IndexerManager

open SubqlEthereum.External SubqlEthereum.Project SubqlEthereum.Blocks
open SubqlEthereum.BlockEthereum SubqlEthereum.Ethereum

/-- The input of a handler. -/
inductive IndexedData
  | block (block : EthereumBlock)
  | transaction (tx : EthereumTransaction)
  | log (log : EthereumLog)
deriving DecidableEq, Repr

/-- The kind of handler an input is for. -/
def IndexedData.kind : IndexedData → EthereumHandlerKind
  | .block _ => .block
  | .transaction _ => .call
  | .log _ => .event

/-- One call of `indexData`. -/
structure IndexDataCall (δ : Type) where
  data : IndexedData
  ds : δ

section Loops

variable {δ : Type} {m : Type → Type} [Monad m]

def indexBlockContent (indexData : IndexDataCall δ → m Unit) (block : EthereumBlock)
    (dataSources : List δ) : m Unit :=
  dataSources.forM fun ds => indexData ⟨.block block, ds⟩

def indexTransaction (indexData : IndexDataCall δ → m Unit) (tx : EthereumTransaction)
    (dataSources : List δ) : m Unit :=
  dataSources.forM fun ds => indexData ⟨.transaction tx, ds⟩

def indexEvent (indexData : IndexDataCall δ → m Unit) (log : EthereumLog)
    (dataSources : List δ) : m Unit :=
  dataSources.forM fun ds => indexData ⟨.log log, ds⟩

/-- The logs of a block, of either form. -/
def blockLogs : BlockContent → List EthereumLog
  | .full block => block.logs
  | .light block => block.logs

def indexBlockData (indexData : IndexDataCall δ → m Unit) (block : BlockContent)
    (dataSources : List δ) : m Unit :=
  match block, isFullBlock block with
  | .full block, true => do
    indexBlockContent indexData block dataSources
    block.transactions.forM fun tx => do
      indexTransaction indexData tx dataSources
      (tx.logs.getD []).forM fun log => indexEvent indexData log dataSources
  | block, _ => (blockLogs block).forM fun log => indexEvent indexData log dataSources

end Loops

/-! ### The calls as a list -/

section Calls

variable {δ : Type}

def callsFor (data : IndexedData) (dataSources : List δ) : List (IndexDataCall δ) :=
  dataSources.map fun ds => ⟨data, ds⟩

def eventCallsFor (logs : List EthereumLog) (dataSources : List δ) : List (IndexDataCall δ) :=
  logs.flatMap fun log => callsFor (.log log) dataSources

/-- The calls `indexBlockData` makes, in order. -/
def indexCalls (block : BlockContent) (dataSources : List δ) : List (IndexDataCall δ) :=
  match block, isFullBlock block with
  | .full block, true =>
    callsFor (.block block) dataSources ++ block.transactions.flatMap fun tx =>
      callsFor (.transaction tx) dataSources ++ eventCallsFor (tx.logs.getD []) dataSources
  | block, _ => eventCallsFor (blockLogs block) dataSources

theorem forM_append_eq {α : Type} {m : Type → Type} [Monad m] [LawfulMonad m]
    (body : α → m Unit) (l r : List α) :
    (l ++ r).forM body = l.forM body >>= fun _ => r.forM body := List.forM_append

theorem forM_flatMap {α β : Type} {m : Type → Type} [Monad m] [LawfulMonad m]
    (body : β → m Unit) (f : α → List β) (l : List α) :
    (l.flatMap f).forM body = l.forM fun x => (f x).forM body := by
  induction l with
  | nil => rfl
  | cons x xs ih =>
    rw [List.flatMap_cons, forM_append_eq, ih]
    rfl

theorem forM_callsFor {m : Type → Type} [Monad m] (indexData : IndexDataCall δ → m Unit)
    (data : IndexedData) (dataSources : List δ) :
    (callsFor data dataSources).forM indexData =
      dataSources.forM fun ds => indexData ⟨data, ds⟩ := by
  induction dataSources with
  | nil => rfl
  | cons ds rest ih =>
    show (indexData ⟨data, ds⟩ >>= fun _ => (callsFor data rest).forM indexData) = _
    rw [ih]
    rfl

/-- **The loops make exactly the calls of `indexCalls`, in that order**, whatever a call does. -/
theorem indexBlockData_eq_forM {m : Type → Type} [Monad m] [LawfulMonad m]
    (indexData : IndexDataCall δ → m Unit) (block : BlockContent) (dataSources : List δ) :
    indexBlockData indexData block dataSources =
      (indexCalls block dataSources).forM indexData := by
  have hevents : ∀ logs : List EthereumLog,
      (logs.forM fun log => indexEvent indexData log dataSources) =
        (eventCallsFor logs dataSources).forM indexData := by
    intro logs
    rw [eventCallsFor, forM_flatMap]
    congr 1
    funext log
    rw [forM_callsFor]
    rfl
  cases block with
  | light block => exact hevents block.logs
  | full block =>
    cases hempty : block.transactions.isEmpty with
    | true =>
      have hlight : isFullBlock (.full block) = false := by rw [isFullBlock, hempty]; rfl
      simp only [indexBlockData, indexCalls, hlight]
      exact hevents block.logs
    | false =>
      have hfull : isFullBlock (.full block) = true := by rw [isFullBlock, hempty]; rfl
      simp only [indexBlockData, indexCalls, hfull]
      rw [forM_append_eq, forM_flatMap, forM_callsFor]
      congr 1
      funext u
      congr 1
      funext tx
      rw [forM_append_eq, forM_callsFor, ← hevents]
      rfl

/-- Writing a call down. -/
def record (call : IndexDataCall δ) : StateM (List (IndexDataCall δ)) Unit :=
  modify (· ++ [call])

/-- The calls a run of `indexBlockData` makes. -/
def recordedCalls (block : BlockContent) (dataSources : List δ) : List (IndexDataCall δ) :=
  ((indexBlockData record block dataSources).run []).2

theorem recordedCalls_eq (block : BlockContent) (dataSources : List δ) :
    recordedCalls block dataSources = indexCalls block dataSources := by
  have hrecord : ∀ (calls seen : List (IndexDataCall δ)),
      ((calls.forM record).run seen).2 = seen ++ calls := by
    intro calls
    induction calls with
    | nil =>
      intro seen
      exact (List.append_nil seen).symm
    | cons call rest ih =>
      intro seen
      show ((rest.forM record).run (seen ++ [call])).2 = seen ++ call :: rest
      rw [ih, List.append_assoc]
      rfl
  rw [recordedCalls, indexBlockData_eq_forM, hrecord]
  rfl

/-- The calls with an input of one form, as the input and the data source. -/
def callsOf {α : Type} (pick : IndexedData → Option α) (calls : List (IndexDataCall δ)) :
    List (α × δ) :=
  calls.filterMap fun call => (pick call.data).map fun a => (a, call.ds)

def IndexedData.block? : IndexedData → Option EthereumBlock
  | .block b => some b
  | _ => none

def IndexedData.transaction? : IndexedData → Option EthereumTransaction
  | .transaction t => some t
  | _ => none

def IndexedData.log? : IndexedData → Option EthereumLog
  | .log l => some l
  | _ => none

/-- The calls for Block handlers. -/
def blockCalls (calls : List (IndexDataCall δ)) : List (EthereumBlock × δ) :=
  callsOf IndexedData.block? calls

/-- The calls for Call handlers. -/
def transactionCalls (calls : List (IndexDataCall δ)) : List (EthereumTransaction × δ) :=
  callsOf IndexedData.transaction? calls

/-- The calls for Event handlers. -/
def eventCalls (calls : List (IndexDataCall δ)) : List (EthereumLog × δ) :=
  callsOf IndexedData.log? calls

theorem callsOf_append {α : Type} (pick : IndexedData → Option α)
    (l r : List (IndexDataCall δ)) : callsOf pick (l ++ r) = callsOf pick l ++ callsOf pick r :=
  List.filterMap_append

theorem callsOf_flatMap {α β : Type} (pick : IndexedData → Option α)
    (f : β → List (IndexDataCall δ)) (l : List β) :
    callsOf pick (l.flatMap f) = l.flatMap fun x => callsOf pick (f x) := by
  induction l with
  | nil => rfl
  | cons x xs ih => rw [List.flatMap_cons, callsOf_append, ih, List.flatMap_cons]

/-- One input for every data source is picked for every data source, or not at all. -/
theorem callsOf_callsFor {α : Type} (pick : IndexedData → Option α) (data : IndexedData)
    (dataSources : List δ) :
    callsOf pick (callsFor data dataSources) =
      ((pick data).map fun a => dataSources.map fun ds => (a, ds)).getD [] := by
  rw [callsOf, callsFor, List.filterMap_map]
  cases hpick : pick data with
  | none =>
    have hnone : ((fun call : IndexDataCall δ => (pick call.data).map fun a => (a, call.ds)) ∘
        fun ds => ⟨data, ds⟩) = fun _ => none := by
      funext ds
      show (pick data).map _ = none
      rw [hpick]
      rfl
    rw [hnone]
    simp
  | some a =>
    have hsome : ((fun call : IndexDataCall δ => (pick call.data).map fun a => (a, call.ds)) ∘
        fun ds => ⟨data, ds⟩) = some ∘ fun ds => (a, ds) := by
      funext ds
      show (pick data).map _ = some (a, ds)
      rw [hpick]
      rfl
    rw [hsome, List.filterMap_eq_map]
    rfl

theorem callsOf_eventCallsFor {α : Type} (pick : IndexedData → Option α)
    (logs : List EthereumLog) (dataSources : List δ) :
    callsOf pick (eventCallsFor logs dataSources) = logs.flatMap fun log =>
      ((pick (.log log)).map fun a => dataSources.map fun ds => (a, ds)).getD [] := by
  rw [eventCallsFor, callsOf_flatMap]
  congr 1
  funext log
  exact callsOf_callsFor pick (.log log) dataSources

theorem flatMap_nothing {α β : Type} (l : List α) : (l.flatMap fun _ => ([] : List β)) = [] := by
  rw [List.flatMap_eq_nil_iff]
  intro x hx
  rfl

/-- **What a block with transactions is passed on as**: itself, its transactions, and of its logs
those its transactions carry. -/
theorem calls_of_transactions (block : EthereumBlock) (hne : block.transactions ≠ [])
    (dataSources : List δ) :
    blockCalls (recordedCalls (.full block) dataSources) = dataSources.map (fun ds => (block, ds)) ∧
      transactionCalls (recordedCalls (.full block) dataSources) =
        block.transactions.flatMap (fun tx => dataSources.map fun ds => (tx, ds)) ∧
      eventCalls (recordedCalls (.full block) dataSources) =
        (block.transactions.flatMap fun tx => tx.logs.getD []).flatMap fun log =>
          dataSources.map fun ds => (log, ds) := by
  have hfull : isFullBlock (.full block) = true := by
    rw [isFullBlock, Bool.not_eq_true', List.isEmpty_eq_false_iff]
    exact hne
  rw [recordedCalls_eq]
  simp only [indexCalls, hfull, blockCalls, transactionCalls, eventCalls, callsOf_append,
    callsOf_flatMap, callsOf_callsFor, callsOf_eventCallsFor]
  refine ⟨?_, ?_, ?_⟩
  · simp [IndexedData.block?, flatMap_nothing]
  · simp [IndexedData.transaction?, flatMap_nothing]
  · simp [IndexedData.log?, List.flatMap_assoc]

/-- **What a block without transactions is passed on as**: its logs only. -/
theorem calls_of_no_transactions (block : EthereumBlock) (hnil : block.transactions = [])
    (dataSources : List δ) :
    blockCalls (recordedCalls (.full block) dataSources) = [] ∧
      transactionCalls (recordedCalls (.full block) dataSources) = [] ∧
      eventCalls (recordedCalls (.full block) dataSources) =
        block.logs.flatMap fun log => dataSources.map fun ds => (log, ds) := by
  have hlight : isFullBlock (.full block) = false := by
    rw [isFullBlock, hnil]
    rfl
  rw [recordedCalls_eq]
  simp only [indexCalls, hlight, blockCalls, transactionCalls, eventCalls, blockLogs,
    callsOf_eventCallsFor]
  refine ⟨?_, ?_, ?_⟩
  · exact flatMap_nothing block.logs
  · exact flatMap_nothing block.logs
  · rfl

end Calls

/-! ### Fetched blocks -/

/-- **When Block handlers see a fully fetched block.**  Every data source is passed the block once
and every transaction once, for all data sources, if and only if the answer of the endpoint
lists a transaction. -/
theorem fetched_block_delivered_iff (p : Platform) (api : EthereumApi) (endpoint : Endpoint)
    (num : ℤ) (block : EthereumBlock) (hfetch : api.fetchBlock p endpoint num = .ok block) :
    (∀ dataSources : List SubqlDatasource,
      blockCalls (recordedCalls (.full block) dataSources) =
          dataSources.map (fun ds => (block, ds)) ∧
        transactionCalls (recordedCalls (.full block) dataSources) =
          block.transactions.flatMap fun tx => dataSources.map fun ds => (tx, ds)) ↔
      ∃ rawBlock, endpoint.blockByNumber num = .ok (some rawBlock) ∧
        rawBlock.transactions ≠ [] := by
  obtain ⟨rawBlock, logsRaw, hanswer, -, -, htransactions⟩ :=
    fetchBlock_ok p api endpoint num block hfetch
  have hlength : rawBlock.transactions.length = block.transactions.length :=
    htransactions.length_eq
  constructor
  · intro hall
    refine ⟨rawBlock, hanswer, fun hnil => ?_⟩
    have hempty : block.transactions = [] := by
      rw [hnil] at hlength
      exact List.eq_nil_of_length_eq_zero hlength.symm
    have hds := (hall [.runtime { handlers := [] }]).1
    rw [(calls_of_no_transactions block hempty _).1] at hds
    exact absurd hds (by simp)
  · intro hsome dataSources
    obtain ⟨rawBlock', hanswer', hne⟩ := hsome
    have heq : rawBlock = rawBlock' := by
      rw [hanswer] at hanswer'
      exact Option.some.inj (Except.ok.inj hanswer')
    have hfull : block.transactions ≠ [] := by
      intro hnil
      rw [hnil, heq] at hlength
      exact hne (List.eq_nil_of_length_eq_zero hlength)
    obtain ⟨hblock, htxs, -⟩ := calls_of_transactions block hfull dataSources
    exact ⟨hblock, htxs⟩

/-- An endpoint that answers with an empty block without logs. -/
def emptyBlockEndpoint : Endpoint where
  blockByNumber _ := .ok (some ⟨emptyHeader, []⟩)
  logsByHash _ := .ok []

/-- What is fetched from it. -/
def emptyBlock : EthereumBlock where
  hash := "0xaa"
  stateRoot := "0x0000000000000000000000000000000000000000000000000000000000000000"
  logs := []
  transactions := []

/-- **A block without transactions is passed to no Block handler**, though it was fetched in
full. -/
theorem empty_block_not_delivered :
    EthereumApi.fetchBlock erc20Platform {} emptyBlockEndpoint 5 = .ok emptyBlock ∧
      blockCalls (recordedCalls (.full emptyBlock) [SubqlDatasource.runtime
        { handlers := [.block "handleBlock" none] }]) = [] :=
  ⟨rfl, rfl⟩

/-- Its answer lists no transaction. -/
theorem fetched_block_delivered_empty :
    (∀ dataSources : List SubqlDatasource,
      blockCalls (recordedCalls (.full emptyBlock) dataSources) =
          dataSources.map (fun ds => (emptyBlock, ds)) ∧
        transactionCalls (recordedCalls (.full emptyBlock) dataSources) =
          emptyBlock.transactions.flatMap fun tx => dataSources.map fun ds => (tx, ds)) ↔
      ∃ rawBlock, emptyBlockEndpoint.blockByNumber 5 = .ok (some rawBlock) ∧
        rawBlock.transactions ≠ [] :=
  fetched_block_delivered_iff erc20Platform {} emptyBlockEndpoint 5 emptyBlock rfl

end SubqlEthereum.IndexerManager
