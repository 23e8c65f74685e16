import SubqlEthereum.Ethereum.Format
import SubqlEthereum.Library.Fallible

/-!
# Fetching a block, with and without its transactions

`fetchBlock` and `fetchLightBlock` of `api.ethereum.ts`.  Both ask for the block and then for
the logs of its hash.  The full path also checks that every log belongs to the block, formats
the transactions, and maps its errors; the light path does neither.

An endpoint is given by its answers.  The light answer to a block request is the full one with
the transactions replaced by their hashes (`RawBlock.withHashes`), so the two paths see the same
chain.
-/

namespace SubqlEthereum.Ethereum

open SubqlEthereum.External SubqlEthereum.JsonText SubqlEthereum.Blocks SubqlEthereum.Fallible

/-! ### The endpoint and the API -/

/-- The answer to `eth_getBlockByNumber`: what stands under `transactions` depends on the mode. -/
structure RawBlock (τ : Type) where
  header : RawHeader
  transactions : List τ
deriving DecidableEq, Repr

def RawBlock.withHashes (block : RawBlock RawTransaction) : RawBlock String where
  header := block.header
  transactions := block.transactions.map (·.hash)

/-- What an endpoint answers to the two requests; `none` for an empty answer. -/
structure Endpoint where
  blockByNumber : ℤ → Except JsError (Option (RawBlock RawTransaction))
  logsByHash : String → Except JsError (List Log)

/-- The answer without transactions. -/
def Endpoint.lightBlockByNumber (endpoint : Endpoint) (num : ℤ) :
    Except JsError (Option (RawBlock String)) :=
  (endpoint.blockByNumber num).map (Option.map RawBlock.withHashes)

/-- The state of an `EthereumApi` the two paths read. -/
structure EthereumApi where
  chainId : Option ℤ := none
  hostname : String := ""
deriving DecidableEq, Repr

def TRON_CHAIN_IDS : List ℤ := [728126428, 2494104990, 3448148188]

/-- Maps an HTTP 429 to a readable error, and leaves any other as it is. -/
def EthereumApi.handleError (api : EthereumApi) (e : JsError) : JsError :=
  if e.status = some 429 then
    { message := "Rate Limited at endpoint: " ++ api.hostname }
  else e

/-! ### The two paths -/

/-- The block of a height, with its transactions as the answer has them. -/
def EthereumApi.getBlockPromise {τ : Type} (p : Platform) (api : EthereumApi)
    (answer : Except JsError (Option (RawBlock τ))) (num : ℤ) :
    Except JsError (BlockHeader × List τ) := do
  match ← answer with
  | none => throw { message := "Failed to fetch block " ++ toString num }
  | some rawBlock => do
    let block ← formatBlock p rawBlock.header
    -- Tron sometimes returns '0x' as stateRoot, which fails the formatter
    if api.chainId.any (TRON_CHAIN_IDS.contains ·) ∧ block.stateRoot = "0x" then
      return ({ block with stateRoot :=
        "0x0000000000000000000000000000000000000000000000000000000000000000" },
        rawBlock.transactions)
    else do
      let stateRoot ← p.formatHash block.stateRoot
      return ({ block with stateRoot := stateRoot }, rawBlock.transactions)

def blockHashMismatch (blockNumber : ℤ) (block : BlockHeader) (log : Log)
    (blockHash : String) : JsError where
  message :=
    "Log BlockHash does not match block: " ++ toString blockNumber ++ ", blockHash " ++
      block.hash ++ ". Log " ++ toString log.logIndex ++ " got block " ++
      toString log.blockNumber ++ " blockHash " ++ blockHash ++
      ". Please check with rpc provider"

/-- Certain RPC may not accommodate for blockHash, and would return wrong logs. -/
def checkBlockHash (p : Platform) (blockNumber : ℤ) (block : BlockHeader) (log : Log) :
    Except JsError Unit :=
  match log.blockHash with
  | none => .error { name := "TypeError",
                     message := "Cannot read properties of undefined (reading 'toLowerCase')" }
  | some blockHash =>
    if p.toLowerCase blockHash = p.toLowerCase block.hash then .ok ()
    else .error (blockHashMismatch blockNumber block log blockHash)

/-- A formatted transaction with the logs of the block that carry its hash. -/
def withLogs (p : Platform) (block : BlockHeader) (logs : List EthereumLog)
    (tx : RawTransaction) : Except JsError EthereumTransaction := do
  let transaction ← formatTransaction p tx block
  return { transaction with logs := some (logs.filter (·.transactionHash = tx.hash)) }

def EthereumApi.fetchBlock (p : Platform) (api : EthereumApi) (endpoint : Endpoint)
    (blockNumber : ℤ) : Except JsError EthereumBlock :=
  Except.mapError api.handleError do
    let (block, txs) ← api.getBlockPromise p (endpoint.blockByNumber blockNumber) blockNumber
    let logsRaw ← endpoint.logsByHash block.hash
    logsRaw.forM (checkBlockHash p blockNumber block)
    let logs ← logsRaw.mapM (formatLog p)
    let transactions ← txs.mapM (withLogs p block logs)
    return { toBlockHeader := block, logs, transactions }

def EthereumApi.fetchLightBlock (p : Platform) (api : EthereumApi) (endpoint : Endpoint)
    (blockNumber : ℤ) : Except JsError LightEthereumBlock := do
  let (block, hashes) ←
    api.getBlockPromise p (endpoint.lightBlockByNumber blockNumber) blockNumber
  let logsRaw ← endpoint.logsByHash block.hash
  let logs ← logsRaw.mapM (formatLog p)
  return { toBlockHeader := block, logs, transactions := hashes }

/-! ### What the two paths have in common -/

/-- The block request of the light path is that of the full path, but for the transactions. -/
theorem getBlockPromise_light (p : Platform) (api : EthereumApi) (endpoint : Endpoint)
    (num : ℤ) :
    api.getBlockPromise p (endpoint.lightBlockByNumber num) num =
      (api.getBlockPromise p (endpoint.blockByNumber num) num).map fun block =>
        (block.1, block.2.map (·.hash)) := by
  rw [Endpoint.lightBlockByNumber]
  cases endpoint.blockByNumber num with
  | error e => rfl
  | ok answer =>
    cases answer with
    | none => rfl
    | some rawBlock =>
      have hheader : rawBlock.withHashes.header = rawBlock.header := rfl
      show api.getBlockPromise p (.ok (some rawBlock.withHashes)) num = _
      simp only [EthereumApi.getBlockPromise, bind, Except.bind, hheader]
      cases formatBlock p rawBlock.header with
      | error e => rfl
      | ok block =>
        simp only
        split
        · rfl
        · cases p.formatHash block.stateRoot with
          | error e => rfl
          | ok stateRoot => rfl

/-- An error is left as it is exactly when it carries no status 429. -/
theorem handleError_eq_self (api : EthereumApi) (e : JsError) :
    api.handleError e = e ↔ e.status ≠ some 429 := by
  rw [EthereumApi.handleError]
  constructor
  · intro h hstatus
    rw [if_pos hstatus] at h
    rw [← h] at hstatus
    exact absurd hstatus (by simp [JsError.status, JsError.get])
  · intro h
    rw [if_neg h]

/-- Errors of the address formatter are those of ethers. -/
theorem formatLog_error (p : Platform) (log : Log) (e : JsError)
    (h : formatLog p log = .error e) : e.get "code" ≠ none ∧ e.status = none := by
  have haddress : handleAddress p (some log.address) = .error e := by
    rw [formatLog] at h
    cases ha : handleAddress p (some log.address) with
    | error e' =>
      rw [ha] at h
      have he : e' = e := Except.error.inj h
      rw [he]
    | ok address => rw [ha] at h; exact absurd h (by simp [bind, Except.bind, pure, Except.pure])
  rw [handleAddress] at haddress
  split at haddress
  · exact absurd haddress (by simp)
  · cases hg : p.getAddress log.address with
    | error e' =>
      rw [hg] at haddress
      have he : e' = e := Except.error.inj haddress
      exact he ▸ p.getAddress_error log.address e' hg
    | ok address => rw [hg] at haddress; exact absurd haddress (by simp [Functor.map, Except.map])

/-- The check passes exactly when the log has the hash of the block, ignoring case. -/
theorem checkBlockHash_ok_iff (p : Platform) (num : ℤ) (block : BlockHeader) (log : Log) :
    checkBlockHash p num block log = .ok () ↔
      log.blockHash.map p.toLowerCase = some (p.toLowerCase block.hash) := by
  rw [checkBlockHash]
  cases log.blockHash with
  | none => simp
  | some blockHash =>
    by_cases h : p.toLowerCase blockHash = p.toLowerCase block.hash
    · simp [h]
    · simp [h]

/-- Errors of the check have no code, so they are not errors of ethers. -/
theorem checkBlockHash_error (p : Platform) (num : ℤ) (block : BlockHeader) (log : Log)
    (e : JsError) (h : checkBlockHash p num block log = .error e) :
    e.get "code" = none ∧ e.status = none := by
  rw [checkBlockHash] at h
  split at h
  · rw [← Except.error.inj h]
    exact ⟨rfl, rfl⟩
  · split at h
    · exact absurd h (by simp)
    · rw [← Except.error.inj h]
      exact ⟨rfl, rfl⟩

/-- The transactions of a block are those of the answer. -/
theorem getBlockPromise_ok {τ : Type} (p : Platform) (api : EthereumApi)
    (answer : Except JsError (Option (RawBlock τ))) (num : ℤ) (block : BlockHeader)
    (txs : List τ) (h : api.getBlockPromise p answer num = .ok (block, txs)) :
    ∃ rawBlock, answer = .ok (some rawBlock) ∧ txs = rawBlock.transactions := by
  rw [EthereumApi.getBlockPromise] at h
  obtain ⟨found, hfound, hrest⟩ := ok_of_bind_ok h
  cases found with
  | none => exact absurd hrest (by simp [throw, throwThe, MonadExceptOf.throw])
  | some rawBlock =>
    refine ⟨rawBlock, hfound, ?_⟩
    obtain ⟨header, -, hroot⟩ := ok_of_bind_ok hrest
    split at hroot
    · exact (Prod.mk.inj (Except.ok.inj hroot)).2.symm
    · obtain ⟨stateRoot, -, hpair⟩ := ok_of_bind_ok hroot
      exact (Prod.mk.inj (Except.ok.inj hpair)).2.symm

/-- **A block that was fetched**: its header, its logs and its transactions are the formatted
answers, in order. -/
theorem fetchBlock_ok (p : Platform) (api : EthereumApi) (endpoint : Endpoint) (num : ℤ)
    (block : EthereumBlock) (h : api.fetchBlock p endpoint num = .ok block) :
    ∃ rawBlock logsRaw, endpoint.blockByNumber num = .ok (some rawBlock) ∧
      endpoint.logsByHash block.hash = .ok logsRaw ∧
      List.Forall₂ (fun raw log => formatLog p raw = .ok log) logsRaw block.logs ∧
      List.Forall₂ (fun raw tx => withLogs p block.toBlockHeader block.logs raw = .ok tx)
        rawBlock.transactions block.transactions := by
  rw [EthereumApi.fetchBlock] at h
  obtain ⟨⟨header, txs⟩, hblock, hrest⟩ := ok_of_bind_ok (ok_of_mapError_ok h)
  obtain ⟨rawBlock, hanswer, rfl⟩ := getBlockPromise_ok p api _ num header txs hblock
  obtain ⟨logsRaw, hlogsRaw, hrest⟩ := ok_of_bind_ok hrest
  obtain ⟨-, -, hrest⟩ := ok_of_bind_ok hrest
  obtain ⟨logs, hlogs, hrest⟩ := ok_of_bind_ok hrest
  obtain ⟨transactions, htransactions, hrest⟩ := ok_of_bind_ok hrest
  have heq : block = { toBlockHeader := header, logs, transactions } :=
    (Except.ok.inj hrest).symm
  subst heq
  exact ⟨rawBlock, logsRaw, hanswer, hlogsRaw, (mapM_ok_iff _ _ _).mp hlogs,
    (mapM_ok_iff _ _ _).mp htransactions⟩

/-! ### Joining the logs to the transactions -/

theorem formatLog_transactionHash (p : Platform) (raw : Log) (log : EthereumLog)
    (h : formatLog p raw = .ok log) : log.transactionHash = raw.transactionHash := by
  rw [formatLog] at h
  obtain ⟨address, -, hrest⟩ := ok_of_bind_ok h
  rw [← Except.ok.inj hrest]

theorem withLogs_ok_logs (p : Platform) (block : BlockHeader) (logs : List EthereumLog)
    (raw : RawTransaction) (tx : EthereumTransaction) (h : withLogs p block logs raw = .ok tx) :
    tx.logs = some (logs.filter (·.transactionHash = raw.hash)) := by
  rw [withLogs] at h
  obtain ⟨t, -, hrest⟩ := ok_of_bind_ok h
  rw [← Except.ok.inj hrest]

/-- The logs of the transactions, taken together, are selected by the hashes. -/
theorem transactions_logs (p : Platform) (block : BlockHeader) (logs : List EthereumLog)
    (raws : List RawTransaction) (txs : List EthereumTransaction)
    (h : List.Forall₂ (fun raw tx => withLogs p block logs raw = .ok tx) raws txs) :
    (txs.flatMap fun tx => tx.logs.getD []) =
      (raws.map (·.hash)).flatMap fun hash =>
        logs.filter fun log => log.transactionHash = hash := by
  induction h with
  | nil => rfl
  | cons hhead _ ih =>
    rw [List.flatMap_cons, ih, withLogs_ok_logs p block logs _ _ hhead]
    rfl

/-- A block that is fetched in full can be fetched light, with the same header and logs. -/
theorem fetchLightBlock_of_fetchBlock (p : Platform) (api : EthereumApi) (endpoint : Endpoint)
    (num : ℤ) (block : EthereumBlock) (h : api.fetchBlock p endpoint num = .ok block) :
    ∃ light, api.fetchLightBlock p endpoint num = .ok light ∧
      light.toBlockHeader = block.toBlockHeader ∧ light.logs = block.logs := by
  rw [EthereumApi.fetchBlock] at h
  obtain ⟨⟨header, txs⟩, hblock, hrest⟩ := ok_of_bind_ok (ok_of_mapError_ok h)
  obtain ⟨logsRaw, hlogsRaw, hrest⟩ := ok_of_bind_ok hrest
  obtain ⟨-, -, hrest⟩ := ok_of_bind_ok hrest
  obtain ⟨logs, hlogs, hrest⟩ := ok_of_bind_ok hrest
  obtain ⟨transactions, -, hrest⟩ := ok_of_bind_ok hrest
  have heq : block = { toBlockHeader := header, logs, transactions } :=
    (Except.ok.inj hrest).symm
  refine ⟨{ toBlockHeader := header, logs, transactions := txs.map (·.hash) }, ?_, ?_, ?_⟩
  · rw [EthereumApi.fetchLightBlock, getBlockPromise_light, hblock]
    show (endpoint.logsByHash header.hash >>= fun logsRaw => logsRaw.mapM (formatLog p) >>=
      fun logs => pure _) = _
    rw [hlogsRaw]
    show (logsRaw.mapM (formatLog p) >>= fun logs => pure _) = _
    rw [hlogs]
    rfl
  · rw [heq]
  · rw [heq]

/-! ### When the two paths agree -/

/-- Both paths fail with one error, or both succeed with the same header and the same logs. -/
def FetchesAgree (full : Except JsError EthereumBlock)
    (light : Except JsError LightEthereumBlock) : Prop :=
  match full, light with
  | .error e, .error e' => e = e'
  | .ok block, .ok block' => block.toBlockHeader = block'.toBlockHeader ∧ block.logs = block'.logs
  | _, _ => False

/-- No request is refused with status 429, and the logs that are returned carry the hash of the
block. -/
def EndpointConsistent (p : Platform) (api : EthereumApi) (endpoint : Endpoint)
    (num : ℤ) : Prop :=
  match api.getBlockPromise p (endpoint.blockByNumber num) num with
  | .error e => e.status ≠ some 429
  | .ok (block, _) =>
    match endpoint.logsByHash block.hash with
    | .error e => e.status ≠ some 429
    | .ok logs =>
      ∀ log ∈ logs, log.blockHash.map p.toLowerCase = some (p.toLowerCase block.hash)

/-- Transactions that can be formatted with their logs, one by one. -/
theorem withLogs_ok (p : Platform) (block : BlockHeader) (logs : List EthereumLog)
    (txs : List RawTransaction) (hwf : ∀ tx ∈ txs, ∃ t, formatTransaction p tx block = .ok t) :
    ∃ transactions, txs.mapM (withLogs p block logs) = .ok transactions := by
  apply mapM_ok
  intro tx htx
  obtain ⟨t, ht⟩ := hwf tx htx
  exact ⟨{ t with logs := some (logs.filter (·.transactionHash = tx.hash)) }, by
    rw [withLogs, ht]; rfl⟩

/-- Logs of the block: only the formatter can fail, and it fails on both paths. -/
theorem agree_of_own_logs (p : Platform) (api : EthereumApi) (num : ℤ) (block : BlockHeader)
    (txs : List RawTransaction) (logsRaw : List Log)
    (hwf : ∀ tx ∈ txs, ∃ t, formatTransaction p tx block = .ok t)
    (hown : ∀ log ∈ logsRaw, log.blockHash.map p.toLowerCase = some (p.toLowerCase block.hash)) :
    FetchesAgree
      (Except.mapError api.handleError (logsRaw.forM (checkBlockHash p num block) >>= fun _ =>
        logsRaw.mapM (formatLog p) >>= fun logs =>
          txs.mapM (withLogs p block logs) >>= fun transactions =>
            pure { toBlockHeader := block, logs, transactions }))
      (logsRaw.mapM (formatLog p) >>= fun logs =>
        pure { toBlockHeader := block, logs, transactions := txs.map (·.hash) }) := by
  have hcheck : logsRaw.forM (checkBlockHash p num block) = .ok () :=
    forM_ok _ _ fun log hlog => (checkBlockHash_ok_iff p num block log).mpr (hown log hlog)
  rw [hcheck]
  cases hformat : logsRaw.mapM (formatLog p) with
  | error e =>
    obtain ⟨log, -, hlog⟩ := mapM_error _ _ _ hformat
    have hstatus : e.status ≠ some 429 := by
      rw [(formatLog_error p log e hlog).2]
      simp
    exact (handleError_eq_self api e).mpr hstatus
  | ok logs =>
    obtain ⟨transactions, htransactions⟩ := withLogs_ok p block logs txs hwf
    show FetchesAgree (Except.mapError api.handleError
      (txs.mapM (withLogs p block logs) >>= fun transactions =>
        pure { toBlockHeader := block, logs, transactions })) _
    rw [htransactions]
    exact ⟨rfl, rfl⟩

/-- A foreign log: the full path fails, with an error that no formatter throws. -/
theorem disagree_of_foreign_log (p : Platform) (api : EthereumApi) (num : ℤ)
    (block : BlockHeader) (txs : List RawTransaction) (logsRaw : List Log) (log : Log)
    (hlog : log ∈ logsRaw)
    (hforeign : log.blockHash.map p.toLowerCase ≠ some (p.toLowerCase block.hash)) :
    ¬FetchesAgree
      (Except.mapError api.handleError (logsRaw.forM (checkBlockHash p num block) >>= fun _ =>
        logsRaw.mapM (formatLog p) >>= fun logs =>
          txs.mapM (withLogs p block logs) >>= fun transactions =>
            pure { toBlockHeader := block, logs, transactions }))
      (logsRaw.mapM (formatLog p) >>= fun logs =>
        pure { toBlockHeader := block, logs, transactions := txs.map (·.hash) }) := by
  obtain ⟨log', -, e, he, hcheck⟩ := forM_error (checkBlockHash p num block) logsRaw log hlog
    fun hok => hforeign ((checkBlockHash_ok_iff p num block log).mp hok)
  obtain ⟨hcode, hstatus⟩ := checkBlockHash_error p num block log' e he
  have hkeep : api.handleError e = e := by
    rw [handleError_eq_self, hstatus]
    simp
  rw [hcheck]
  cases hformat : logsRaw.mapM (formatLog p) with
  | error e' =>
    obtain ⟨log'', -, hlog''⟩ := mapM_error _ _ _ hformat
    intro hagree
    have heq : api.handleError e = e' := hagree
    rw [hkeep] at heq
    rw [heq] at hcode
    exact (formatLog_error p log'' e' hlog'').1 hcode
  | ok logs => exact id

/-- **When light and full block fetching agree.**  Given transactions that can be formatted: the
two paths have the same outcome if and only if the endpoint is consistent. -/
theorem fetch_paths_agree_iff (p : Platform) (api : EthereumApi) (endpoint : Endpoint) (num : ℤ)
    (hwf : ∀ rawBlock, endpoint.blockByNumber num = .ok (some rawBlock) →
      ∀ tx ∈ rawBlock.transactions, ∀ block, ∃ t, formatTransaction p tx block = .ok t) :
    FetchesAgree (api.fetchBlock p endpoint num) (api.fetchLightBlock p endpoint num) ↔
      EndpointConsistent p api endpoint num := by
  rw [EthereumApi.fetchBlock, EthereumApi.fetchLightBlock, getBlockPromise_light,
    EndpointConsistent]
  cases hblock : api.getBlockPromise p (endpoint.blockByNumber num) num with
  | error e => exact handleError_eq_self api e
  | ok found =>
    obtain ⟨block, txs⟩ := found
    obtain ⟨rawBlock, hanswer, htxs⟩ := getBlockPromise_ok p api _ num block txs hblock
    have hwf' : ∀ tx ∈ txs, ∃ t, formatTransaction p tx block = .ok t := by
      intro tx htx
      rw [htxs] at htx
      exact hwf rawBlock hanswer tx htx block
    simp only [bind, Except.bind, Except.map]
    cases hlogs : endpoint.logsByHash block.hash with
    | error e => exact handleError_eq_self api e
    | ok logsRaw =>
      by_cases hown : ∀ log ∈ logsRaw,
          log.blockHash.map p.toLowerCase = some (p.toLowerCase block.hash)
      · exact iff_of_true (agree_of_own_logs p api num block txs logsRaw hwf' hown) hown
      · refine iff_of_false ?_ hown
        push Not at hown
        obtain ⟨log, hlog, hforeign⟩ := hown
        exact disagree_of_foreign_log p api num block txs logsRaw log hlog hforeign

/-- A header without numbers. -/
def emptyHeader : RawHeader where
  hash := "0xaa"
  stateRoot := "0x0000000000000000000000000000000000000000000000000000000000000000"

/-- An endpoint that answers with an empty block and one log of another block. -/
def foreignLogEndpoint : Endpoint where
  blockByNumber _ := .ok (some ⟨emptyHeader, []⟩)
  logsByHash _ := .ok [{ blockHash := some "0xbb" }]

/-- **The light path lets a foreign log through** that the full path refuses. -/
theorem fetchLightBlock_keeps_foreign_log :
    (EthereumApi.fetchBlock erc20Platform {} foreignLogEndpoint 5).toOption = none ∧
      (EthereumApi.fetchLightBlock erc20Platform {} foreignLogEndpoint 5).toOption.map
        (·.logs.map (·.blockHash)) = some [some "0xbb"] ∧
      ¬FetchesAgree (EthereumApi.fetchBlock erc20Platform {} foreignLogEndpoint 5)
        (EthereumApi.fetchLightBlock erc20Platform {} foreignLogEndpoint 5) :=
  ⟨by decide, by decide, id⟩

/-- A transaction to an account. -/
def paymentTransaction : RawTransaction where
  hash := "0x01"
  «to» := some "0x1111111111111111111111111111111111111111"
  gas := .text "0x5208"

/-- An endpoint whose block has one transaction with one log, which names the block in capitals. -/
def ownLogEndpoint : Endpoint where
  blockByNumber _ := .ok (some ⟨emptyHeader, [paymentTransaction]⟩)
  logsByHash _ := .ok [{ blockHash := some "0xAA", transactionHash := "0x01" }]

/-- **The paths agree there**: the log carries the hash of the block up to case. -/
theorem fetch_paths_agree_own_log :
    FetchesAgree (EthereumApi.fetchBlock erc20Platform {} ownLogEndpoint 5)
      (EthereumApi.fetchLightBlock erc20Platform {} ownLogEndpoint 5) := by
  refine (fetch_paths_agree_iff erc20Platform {} ownLogEndpoint 5 ?_).mpr ?_
  · intro rawBlock h tx htx block
    rw [← Option.some.inj (Except.ok.inj h)] at htx
    rw [List.mem_singleton.mp htx]
    exact ⟨_, rfl⟩
  · show ∀ log ∈ [({ blockHash := some "0xAA", transactionHash := "0x01" } : Log)],
      log.blockHash.map erc20Platform.toLowerCase = some (erc20Platform.toLowerCase "0xaa")
    decide

end SubqlEthereum.Ethereum
