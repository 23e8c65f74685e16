import SubqlEthereum.Ethereum.ApiInit

/-!
# The provider of the handlers

`SafeEthProvider` of `safe-api.ts`, `getSafeApi` of `api.ethereum.ts` and the proxy that `safeApi`
of `api.service.ethereum.ts` puts around it.  A handler may read the state of the chain at the
height of the block it handles.  A call that fails for a reason of the network is made again, each
time over whatever connection the node then hands out, and five times at most.

`safeApi_calls` says what every call comes to.  Whichever connections it goes over, all of it is
asked at the one height and never over a client with batches, and the answers asked for determine
the result.
-/

namespace SubqlEthereum.SafeApi

open SubqlEthereum.External SubqlEthereum.JsonText SubqlEthereum.ApiInit SubqlEthereum.Reentry

/-! ### What is asked of a client -/

/-- The methods that are passed on. -/
inductive BaseMethod
  | getBalance
  | getTransactionCount
  | getCode
  | getStorageAt
  | call
  | getNetwork
deriving DecidableEq, Repr

/-- A call of a client; `blockTag` is the height it is made at, if it is made at one. -/
structure BaseCall where
  client : Client
  method : BaseMethod
  args : List Json
  blockTag : Option ℤ

/-- A call of a client with its answer. -/
structure Attempt (ν : Type) where
  call : BaseCall
  answer : Except JsError ν

/-- The node around the handlers: what clients answer, and the API handed out next.  Both may
change with everything else that goes on, which is the state. -/
structure Node (σ ν : Type) where
  answer : BaseCall → σ → Except JsError ν × σ
  unsafeApi : σ → Except JsError EthereumApi × σ

/-! ### The provider -/

structure SafeEthProvider (ν : Type) where
  baseApi : Client
  blockHeight : ℤ
  network : Option ν := none

/-- The methods that throw. -/
inductive UnsupportedMethod
  | getBlockWithTransactions
  | getBlock
  | getTransaction
  | getTransactionReceipt
  | getLogs
  | getBlockNumber
  | getGasPrice
  | estimateGas
  | sendTransaction
  | resolveName
  | lookupAddress
  | on
  | once
  | emit
  | listenerCount
  | listeners
  | off
  | removeAllListeners
  | waitForTransaction
deriving DecidableEq, Repr

def UnsupportedMethod.name : UnsupportedMethod → String
  | .getBlockWithTransactions => "getBlockWithTransactions"
  | .getBlock => "getBlock"
  | .getTransaction => "getTransaction"
  | .getTransactionReceipt => "getTransactionReceipt"
  | .getLogs => "getLogs"
  | .getBlockNumber => "getBlockNumber"
  | .getGasPrice => "getGasPrice"
  | .estimateGas => "estimateGas"
  | .sendTransaction => "sendTransaction"
  | .resolveName => "resolveName"
  | .lookupAddress => "lookupAddress"
  | .on => "on"
  | .once => "once"
  | .emit => "emit"
  | .listenerCount => "listenerCount"
  | .listeners => "listeners"
  | .off => "off"
  | .removeAllListeners => "removeAllListeners"
  | .waitForTransaction => "waitForTransaction"

/-- A call a handler makes; the block tag is what it passes, if anything. -/
inductive SafeCall
  | getBalance (addressOrName : Json) (blockTag : Option Json)
  | getTransactionCount (addressOrName : Json) (blockTag : Option Json)
  | getCode (addressOrName : Json) (blockTag : Option Json)
  | getStorageAt (addressOrName position : Json) (blockTag : Option Json)
  | call (transaction : Json) (blockTag : Option Json)
  | getNetwork
  | unsupported (method : UnsupportedMethod)

variable {σ ν : Type}

namespace SafeEthProvider

/-- A call at the height of the provider; the block tag that was passed is not used. -/
def historical (provider : SafeEthProvider ν) (method : BaseMethod) (args : List Json)
    (_blockTag : Option Json) : BaseCall where
  client := provider.baseApi
  method := method
  args := args
  blockTag := some provider.blockHeight

def getBalance (provider : SafeEthProvider ν) (addressOrName : Json) (blockTag : Option Json) :
    BaseCall :=
  historical provider .getBalance [addressOrName] blockTag

def getTransactionCount (provider : SafeEthProvider ν) (addressOrName : Json)
    (blockTag : Option Json) : BaseCall :=
  historical provider .getTransactionCount [addressOrName] blockTag

def getCode (provider : SafeEthProvider ν) (addressOrName : Json) (blockTag : Option Json) :
    BaseCall :=
  historical provider .getCode [addressOrName] blockTag

def getStorageAt (provider : SafeEthProvider ν) (addressOrName position : Json)
    (blockTag : Option Json) : BaseCall :=
  historical provider .getStorageAt [addressOrName, position] blockTag

def call (provider : SafeEthProvider ν) (transaction : Json) (blockTag : Option Json) :
    BaseCall :=
  historical provider .call [transaction] blockTag

/-- The network is asked for once. -/
def getNetwork (provider : SafeEthProvider ν) : Except ν BaseCall :=
  match provider.network with
  | some network => .error network
  | none => .ok { client := provider.baseApi, method := .getNetwork, args := [], blockTag := none }

def notSupported (method : UnsupportedMethod) : JsError where
  message := "Method `" ++ method.name ++ "` not supported."

/-- What a call leads to: an answer at once, or a call of the client. -/
def request (provider : SafeEthProvider ν) : SafeCall → Except (Except JsError ν) BaseCall
  | .getBalance addressOrName blockTag => .ok (provider.getBalance addressOrName blockTag)
  | .getTransactionCount addressOrName blockTag =>
    .ok (provider.getTransactionCount addressOrName blockTag)
  | .getCode addressOrName blockTag => .ok (provider.getCode addressOrName blockTag)
  | .getStorageAt addressOrName position blockTag =>
    .ok (provider.getStorageAt addressOrName position blockTag)
  | .call transaction blockTag => .ok (provider.call transaction blockTag)
  | .getNetwork => provider.getNetwork.mapError .ok
  | .unsupported method => .error (.error (notSupported method))

/-- The provider after an answer: it keeps the network. -/
def answered (provider : SafeEthProvider ν) : SafeCall → Except JsError ν → SafeEthProvider ν
  | .getNetwork, .ok network => { provider with network := some network }
  | _, _ => provider

end SafeEthProvider

/-- One call of a provider: its answer, the provider after it, and the calls made of a client. -/
def perform (node : Node σ ν) (provider : SafeEthProvider ν) (safeCall : SafeCall) (s : σ) :
    Except JsError ν × SafeEthProvider ν × List (Attempt ν) × σ :=
  match provider.request safeCall with
  | .error answer => (answer, provider, [], s)
  | .ok call =>
    let (answer, s) := node.answer call s
    (answer, provider.answered safeCall answer, [⟨call, answer⟩], s)

/-! ### The proxy -/

/-- Batches do not get to an archive node, so that a client without them is taken. -/
def getSafeApi (api : EthereumApi) (blockHeight : ℤ) : Except JsError (SafeEthProvider ν) :=
  let client := if api.client.transport = .webSocket then some api.client else api.nonBatchClient
  match client with
  | some client => .ok { baseApi := client, blockHeight }
  | none => .error { name := "AssertionError", message := "Unable to find client to make SafeApi" }

def maxRetries : ℕ := 5

def retryErrorCodes : List String :=
  ["UNKNOWN_ERROR", "NOT_IMPLEMENTED", "NETWORK_ERROR", "SERVER_ERROR", "TIMEOUT", "BAD_DATA",
    "CANCELLED"]

/-- `retryErrorCodes.includes(error?.code)`. -/
def isRetryError (e : JsError) : Bool :=
  match e.get "code" with
  | some (.str code) => code ∈ retryErrorCodes
  | _ => false

/-- `this.unsafeApi.getSafeApi(height)`. -/
def nextSafeApi (node : Node σ ν) (height : ℤ) (s : σ) :
    Except JsError (SafeEthProvider ν) × σ :=
  let (api, s) := node.unsafeApi s
  (api.bind fun api => getSafeApi api height, s)

/-- The loop of the proxy, with what is left of the retries. -/
def retryLoop (node : Node σ ν) (height : ℤ) (safeCall : SafeCall) :
    ℕ → SafeEthProvider ν → Option JsError → σ → Except JsError ν × List (Attempt ν) × σ
  | 0, _, throwingError, s =>
    (.error (throwingError.getD { message := "Failed to make request, maximum retries failed" }),
      [], s)
  | retries + 1, currentApi, _, s =>
    let (answer, _, asked, s) := perform node currentApi safeCall s
    match answer with
    | .ok value => (.ok value, asked, s)
    | .error e =>
      if !isRetryError e then (.error e, asked, s)
      else
        match nextSafeApi node height s with
        | (.error e', s) => (.error e', asked, s)
        | (.ok currentApi, s) =>
          let (result, later, s) := retryLoop node height safeCall retries currentApi (some e) s
          (result, asked ++ later, s)

/-- A call of the proxy around a provider, which keeps what the first attempt left on it. -/
def callSafe (node : Node σ ν) (height : ℤ) (target : SafeEthProvider ν) (safeCall : SafeCall)
    (s : σ) : Except JsError ν × SafeEthProvider ν × List (Attempt ν) × σ :=
  let (result, asked, s') := retryLoop node height safeCall maxRetries target none s
  (result, (perform node target safeCall s).2.1, asked, s')

/-- What a call of a handler came to. -/
structure Entry (ν : Type) where
  call : SafeCall
  result : Except JsError ν
  asked : List (Attempt ν)

/-- The calls of a handler, one after another. -/
def runCalls (node : Node σ ν) (height : ℤ) :
    SafeEthProvider ν → List SafeCall → σ → List (Entry ν) × σ
  | _, [], s => ([], s)
  | target, safeCall :: rest, s =>
    let (result, target, asked, s) := callSafe node height target safeCall s
    let (entries, s) := runCalls node height target rest s
    (⟨safeCall, result, asked⟩ :: entries, s)

/-- The safe API of a height, and the calls of a handler on it. -/
def safeApi (node : Node σ ν) (height : ℤ) (calls : List SafeCall) (s : σ) :
    Except JsError (List (Entry ν)) × σ :=
  match nextSafeApi node height s with
  | (.error e, s) => (.error e, s)
  | (.ok target, s) =>
    let (entries, s) := runCalls node height target calls s
    (.ok entries, s)

/-! ### The APIs there are -/

/-- The states of an API: as the constructor makes it, and as a call of `init` leaves it, whatever
the endpoint answers then. -/
inductive Lifetime : EthereumApi → Prop
  | new (protocol : String) (batchSize : Option ℤ) (api : EthereumApi)
      (h : EthereumApi.new protocol batchSize = .ok api) : Lifetime api
  | entry (endpoint : Endpoint) (api : EthereumApi) (h : Lifetime api) :
      Lifetime (leftApi endpoint api)

/-- An API over a web socket has that client alone; any other has one without batches. -/
def HasSafeClient (api : EthereumApi) : Prop :=
  api.nonBatchClient = none ∧ api.client.transport = .webSocket ∨
    ∃ client, api.nonBatchClient = some client ∧ client.transport = .nonBatch

theorem hasSafeClient_applyBatchSize {api : EthereumApi} {client : Client}
    (h : api.nonBatchClient = some client) (htransport : client.transport = .nonBatch) :
    HasSafeClient (applyBatchSize api) := by
  rw [applyBatchSize_eq api client h]
  by_cases hsize : api.batchSize.any (· ≤ 0) = true
  · rw [if_pos hsize]
    exact .inr ⟨client, h, htransport⟩
  · rw [if_neg hsize]
    exact .inr ⟨client, h, htransport⟩

theorem hasSafeClient_new {protocol : String} {batchSize : Option ℤ} {api : EthereumApi}
    (h : EthereumApi.new protocol batchSize = .ok api) : HasSafeClient api := by
  rcases EthereumApi.new_cases h with ⟨client, hconfigured⟩ | ⟨hnone, hsocket, -⟩
  · exact .inr ⟨client, hconfigured.hasNonBatch, hconfigured.transport⟩
  · exact .inl ⟨hnone, hsocket⟩

theorem hasSafeClient_celoClients {api : EthereumApi} (h : HasSafeClient api) :
    HasSafeClient (celoClients api) := by
  rw [celoClients]
  by_cases hsocket : api.client.transport = .webSocket
  · rw [if_pos hsocket]
    rcases h with ⟨hnone, -⟩ | ⟨client, hsome, htransport⟩
    · exact .inl ⟨hnone, rfl⟩
    · exact .inr ⟨client, hsome, htransport⟩
  · rw [if_neg hsocket]
    exact hasSafeClient_applyBatchSize rfl rfl

/-- The probes leave the clients alone, or take the one without batches. -/
theorem hasSafeClient_initProbes (endpoint : Endpoint) (network : Network) {api : EthereumApi}
    (h : HasSafeClient api) :
    (∀ result, initProbes endpoint network api = .done result → HasSafeClient result.api) ∧
      ∀ next, initProbes endpoint network api = .again next → HasSafeClient next := by
  rw [initProbes]
  cases fetchGenesisHash endpoint api.client.transport network.chainId with
  | ok genesisHash =>
    refine ⟨fun result hdone => ?_, fun next hagain => absurd hagain (by simp)⟩
    rw [← Outcome.done.inj hdone]
    exact h
  | error e =>
    by_cases hinvalid : startsWith e.message "Invalid response" = true
    · simp only [hinvalid, if_true]
      cases hclient : api.nonBatchClient with
      | none =>
        refine ⟨fun result hdone => ?_, fun next hagain => absurd hagain (by simp)⟩
        rw [← Outcome.done.inj hdone]
        exact h
      | some client =>
        refine ⟨fun result hdone => absurd hdone (by simp), fun next hagain => ?_⟩
        rw [← Outcome.again.inj hagain]
        rcases h with ⟨hnone, -⟩ | ⟨other, hsome, htransport⟩
        · rw [hclient] at hnone
          exact absurd hnone (by simp)
        · rw [hclient] at hsome
          exact .inr ⟨other, hsome, htransport⟩
    · simp only [hinvalid]
      refine ⟨fun result hdone => ?_, fun next hagain => absurd hagain (by simp)⟩
      have hsame : InitResult.mk (.error e) api = result := by simpa using hdone
      rw [← hsame]
      exact h

theorem hasSafeClient_initEntry (endpoint : Endpoint) {api : EthereumApi} (h : HasSafeClient api) :
    (∀ result, initEntry endpoint api = .done result → HasSafeClient result.api) ∧
      ∀ next, initEntry endpoint api = .again next → HasSafeClient next := by
  rw [initEntry, injectClient]
  by_cases hinjected : api.client.object ∈ api.injected
  · rw [if_pos hinjected]
    refine ⟨fun result hdone => ?_, fun next hagain => absurd hagain (by simp)⟩
    rw [← Outcome.done.inj hdone]
    exact h
  · rw [if_neg hinjected]
    have hinjects : HasSafeClient { api with injected := api.client.object :: api.injected } := h
    simp only
    cases endpoint.getNetwork api.client.transport with
    | error e =>
      refine ⟨fun result hdone => ?_, fun next hagain => absurd hagain (by simp)⟩
      rw [← Outcome.done.inj hdone]
      exact hinjects
    | ok network =>
      apply hasSafeClient_initProbes endpoint network
      by_cases hcelo : network.chainId = 42220
      · simp only [if_pos hcelo]
        exact hasSafeClient_celoClients hinjects
      · simp only [if_neg hcelo]
        exact hinjects

/-- **A call of `init` leaves a client for the handlers**, however it ends. -/
theorem hasSafeClient_leftApi (endpoint : Endpoint) {api : EthereumApi} (h : HasSafeClient api) :
    HasSafeClient (leftApi endpoint api) := by
  obtain ⟨hdone, hagain⟩ := hasSafeClient_initEntry endpoint h
  rw [leftApi]
  cases hentry : initEntry endpoint api with
  | done result => exact hdone result hentry
  | again next => exact hagain next hentry

theorem Lifetime.hasSafeClient {api : EthereumApi} (h : Lifetime api) : HasSafeClient api := by
  induction h with
  | new protocol batchSize api hnew => exact hasSafeClient_new hnew
  | entry endpoint api _ ih => exact hasSafeClient_leftApi endpoint ih

/-- **No API that was ever made is without a client for the handlers**, and that client sends no
batches. -/
theorem Lifetime.getSafeApi {api : EthereumApi} (h : Lifetime api) (height : ℤ) :
    ∃ client, SafeApi.getSafeApi (ν := ν) api height =
        .ok { baseApi := client, blockHeight := height } ∧ client.transport ≠ .batch := by
  rw [SafeApi.getSafeApi]
  by_cases hsocket : api.client.transport = .webSocket
  · refine ⟨api.client, ?_, by rw [hsocket]; decide⟩
    simp only [if_pos hsocket]
  · rcases h.hasSafeClient with ⟨-, habsurd⟩ | ⟨client, hsome, htransport⟩
    · exact absurd habsurd hsocket
    · refine ⟨client, ?_, by rw [htransport]; decide⟩
      simp only [if_neg hsocket, hsome]

/-! ### What a call comes to -/

/-- The method and the arguments a call is passed on with. -/
def SafeCall.passed : SafeCall → Option (BaseMethod × List Json)
  | .getBalance addressOrName _ => some (.getBalance, [addressOrName])
  | .getTransactionCount addressOrName _ => some (.getTransactionCount, [addressOrName])
  | .getCode addressOrName _ => some (.getCode, [addressOrName])
  | .getStorageAt addressOrName position _ => some (.getStorageAt, [addressOrName, position])
  | .call transaction _ => some (.call, [transaction])
  | .getNetwork => some (.getNetwork, [])
  | .unsupported _ => none

/-- It is the call of the handler that is made, at the height unless it is for the network, and
never over a client with batches. -/
structure Pinned (height : ℤ) (safeCall : SafeCall) (call : BaseCall) : Prop where
  passed : safeCall.passed = some (call.method, call.args)
  height : call.method ≠ .getNetwork → call.blockTag = some height
  transport : call.client.transport ≠ .batch

/-- An attempt that is followed by another one while retries are left. -/
def Attempt.Retried (attempt : Attempt ν) : Prop :=
  ∃ e, attempt.answer = .error e ∧ isRetryError e = true

/-- How a call settles: with the answer of the last attempt, where only attempts that are retried go
before it and it is one itself only as the fifth; with the error of a node that has no API to hand
out; or without an attempt. -/
inductive Settles (node : Node σ ν) (known : ν → Prop) :
    SafeCall → List (Attempt ν) → Except JsError ν → Prop
  | answered (safeCall : SafeCall) (failures : List (Attempt ν)) (last : Attempt ν)
      (hfailures : ∀ failure ∈ failures, failure.Retried) (hbound : failures.length < maxRetries)
      (hlast : last.Retried → failures.length + 1 = maxRetries) :
      Settles node known safeCall (failures ++ [last]) last.answer
  | noApi (safeCall : SafeCall) (failures : List (Attempt ν)) (e : JsError)
      (hfailures : ∀ failure ∈ failures, failure.Retried) (hsome : failures ≠ [])
      (hbound : failures.length ≤ maxRetries) (he : ∃ s, (node.unsafeApi s).1 = .error e) :
      Settles node known safeCall failures (.error e)
  | unsupported (method : UnsupportedMethod) :
      Settles node known (.unsupported method) [] (.error (SafeEthProvider.notSupported method))
  | known (network : ν) (h : known network) : Settles node known .getNetwork [] (.ok network)

section Loop

variable {node : Node σ ν} {height : ℤ}

/-- What the providers made for a height have in common. -/
structure SafeAt (height : ℤ) (provider : SafeEthProvider ν) : Prop where
  transport : provider.baseApi.transport ≠ .batch
  height : provider.blockHeight = height

/-- A call that is passed on is made of the client of the provider, at its height. -/
theorem request_pinned {provider : SafeEthProvider ν} (h : SafeAt height provider)
    (safeCall : SafeCall) (call : BaseCall) (hrequest : provider.request safeCall = .ok call) :
    Pinned height safeCall call := by
  obtain ⟨htransport, rfl⟩ := h
  cases safeCall with
  | getBalance addressOrName blockTag =>
    rw [← Except.ok.inj hrequest]
    exact ⟨rfl, fun _ => rfl, htransport⟩
  | getTransactionCount addressOrName blockTag =>
    rw [← Except.ok.inj hrequest]
    exact ⟨rfl, fun _ => rfl, htransport⟩
  | getCode addressOrName blockTag =>
    rw [← Except.ok.inj hrequest]
    exact ⟨rfl, fun _ => rfl, htransport⟩
  | getStorageAt addressOrName position blockTag =>
    rw [← Except.ok.inj hrequest]
    exact ⟨rfl, fun _ => rfl, htransport⟩
  | call transaction blockTag =>
    rw [← Except.ok.inj hrequest]
    exact ⟨rfl, fun _ => rfl, htransport⟩
  | getNetwork =>
    rw [SafeEthProvider.request, SafeEthProvider.getNetwork] at hrequest
    cases hnetwork : provider.network with
    | some network =>
      rw [hnetwork] at hrequest
      exact absurd hrequest (by simp [Except.mapError])
    | none =>
      rw [hnetwork] at hrequest
      rw [← Except.ok.inj hrequest]
      exact ⟨rfl, fun hne => absurd rfl hne, htransport⟩
  | unsupported method => exact absurd hrequest (by simp [SafeEthProvider.request])

/-- A provider that knows no network passes on all but the methods that are not supported. -/
theorem request_cases (provider : SafeEthProvider ν) (safeCall : SafeCall) :
    (∃ call, provider.request safeCall = .ok call) ∨
      (∃ method, safeCall = .unsupported method ∧
        provider.request safeCall = .error (.error (SafeEthProvider.notSupported method))) ∨
      ∃ network, safeCall = .getNetwork ∧ provider.network = some network ∧
        provider.request safeCall = .error (.ok network) := by
  cases safeCall with
  | getBalance addressOrName blockTag => exact .inl ⟨_, rfl⟩
  | getTransactionCount addressOrName blockTag => exact .inl ⟨_, rfl⟩
  | getCode addressOrName blockTag => exact .inl ⟨_, rfl⟩
  | getStorageAt addressOrName position blockTag => exact .inl ⟨_, rfl⟩
  | call transaction blockTag => exact .inl ⟨_, rfl⟩
  | unsupported method => exact .inr (.inl ⟨method, rfl, rfl⟩)
  | getNetwork =>
    cases hnetwork : provider.network with
    | some network =>
      refine .inr (.inr ⟨network, rfl, rfl, ?_⟩)
      rw [SafeEthProvider.request, SafeEthProvider.getNetwork, hnetwork]
      rfl
    | none =>
      rw [SafeEthProvider.request, SafeEthProvider.getNetwork, hnetwork]
      exact .inl ⟨_, rfl⟩

/-- The APIs handed out are APIs that were made. -/
def HandsOutApis (node : Node σ ν) : Prop :=
  ∀ s api, (node.unsafeApi s).1 = .ok api → Lifetime api

/-- The next provider is one for the height that knows no network, unless there is no API. -/
theorem nextSafeApi_spec (hnode : HandsOutApis node) (height : ℤ) (s : σ) :
    (∃ provider, (nextSafeApi node height s).1 = .ok provider ∧ SafeAt height provider ∧
        provider.network = none) ∨
      ∃ e, (nextSafeApi node height s).1 = .error e ∧ (node.unsafeApi s).1 = .error e := by
  rw [nextSafeApi]
  cases hapi : (node.unsafeApi s).1 with
  | error e =>
    refine .inr ⟨e, ?_, rfl⟩
    show (node.unsafeApi s).1.bind _ = .error e
    rw [hapi]
    rfl
  | ok api =>
    obtain ⟨client, hclient, htransport⟩ := (hnode s api hapi).getSafeApi (ν := ν) height
    refine .inl ⟨{ baseApi := client, blockHeight := height }, ?_, ⟨htransport, rfl⟩, rfl⟩
    show (node.unsafeApi s).1.bind _ = _
    rw [hapi]
    exact hclient

theorem perform_ok (node : Node σ ν) (provider : SafeEthProvider ν) (safeCall : SafeCall)
    (call : BaseCall) (hrequest : provider.request safeCall = .ok call) (s : σ) :
    perform node provider safeCall s = ((node.answer call s).1,
      provider.answered safeCall (node.answer call s).1, [⟨call, (node.answer call s).1⟩],
      (node.answer call s).2) := by
  rw [perform, hrequest]

theorem perform_error (provider : SafeEthProvider ν) (safeCall : SafeCall)
    (answer : Except JsError ν) (hrequest : provider.request safeCall = .error answer) (s : σ) :
    perform node provider safeCall s = (answer, provider, [], s) := by
  rw [perform, hrequest]

/-- What the loop comes to with `retries` left, for a call that is passed on. -/
structure LoopSpec (node : Node σ ν) (height : ℤ) (safeCall : SafeCall) (retries : ℕ)
    (asked : List (Attempt ν)) (result : Except JsError ν) : Prop where
  pinned : ∀ attempt ∈ asked, Pinned height safeCall attempt.call
  outcome : (∃ failures last, asked = failures ++ [last] ∧ result = last.answer ∧
      (∀ failure ∈ failures, failure.Retried) ∧ failures.length < retries ∧
      (last.Retried → failures.length + 1 = retries)) ∨
    (∃ e, result = .error e ∧ (∀ failure ∈ asked, failure.Retried) ∧ asked ≠ [] ∧
      asked.length ≤ retries ∧ ∃ s, (node.unsafeApi s).1 = .error e)

/-- One attempt that is not retried. -/
theorem LoopSpec.last {safeCall : SafeCall} {attempt : Attempt ν} (retries : ℕ)
    (hpinned : Pinned height safeCall attempt.call)
    (hlast : attempt.Retried → retries = 0) :
    LoopSpec node height safeCall (retries + 1) [attempt] attempt.answer where
  pinned := by
    intro other hother
    rw [List.mem_singleton.mp hother]
    exact hpinned
  outcome := by
    refine .inl ⟨[], attempt, rfl, rfl, List.forall_mem_nil _, Nat.succ_pos retries, ?_⟩
    intro hretried
    rw [hlast hretried]
    rfl

/-- A failed attempt before what comes of the others. -/
theorem LoopSpec.retry {safeCall : SafeCall} {attempt : Attempt ν} {retries : ℕ}
    {asked : List (Attempt ν)} {result : Except JsError ν}
    (h : LoopSpec node height safeCall retries asked result)
    (hpinned : Pinned height safeCall attempt.call) (hretried : attempt.Retried) :
    LoopSpec node height safeCall (retries + 1) (attempt :: asked) result where
  pinned := by
    intro other hother
    rcases List.mem_cons.mp hother with rfl | hlater
    · exact hpinned
    · exact h.pinned other hlater
  outcome := by
    rcases h.outcome with ⟨failures, last, rfl, hresult, hfailures, hbound, hlast⟩ |
      ⟨e, hresult, hfailures, hsome, hbound, hnoApi⟩
    · refine .inl ⟨attempt :: failures, last, rfl, hresult, ?_, ?_, ?_⟩
      · exact List.forall_mem_cons.mpr ⟨hretried, hfailures⟩
      · rw [List.length_cons]
        omega
      · intro hagain
        rw [List.length_cons, hlast hagain]
    · refine .inr ⟨e, hresult, ?_, by simp, ?_, hnoApi⟩
      · exact List.forall_mem_cons.mpr ⟨hretried, hfailures⟩
      · rw [List.length_cons]
        omega

/-- One turn of the loop, for a call that is passed on. -/
theorem retryLoop_turn (node : Node σ ν) (height : ℤ) (safeCall : SafeCall) (retries : ℕ)
    (provider : SafeEthProvider ν) (previous : Option JsError) (s : σ) (call : BaseCall)
    (hcall : provider.request safeCall = .ok call) :
    let attempt : Attempt ν := ⟨call, (node.answer call s).1⟩
    let next := nextSafeApi node height (node.answer call s).2
    let run := retryLoop node height safeCall (retries + 1) provider previous s
    (¬ attempt.Retried ∧ run.1 = attempt.answer ∧ run.2.1 = [attempt]) ∨
    (attempt.Retried ∧ ∃ e, next.1 = .error e ∧ run.1 = .error e ∧ run.2.1 = [attempt]) ∨
    (attempt.Retried ∧ ∃ provider' e, next.1 = .ok provider' ∧ attempt.answer = .error e ∧
      let later := retryLoop node height safeCall retries provider' (some e) next.2
      run.1 = later.1 ∧ run.2.1 = attempt :: later.2.1) := by
  intro attempt next run
  have hrun : run = retryLoop node height safeCall (retries + 1) provider previous s := rfl
  rw [retryLoop, perform_ok node provider safeCall call hcall] at hrun
  cases hanswer : (node.answer call s).1 with
  | ok value =>
    simp only [hanswer] at hrun
    refine .inl ⟨?_, ?_, ?_⟩
    · rintro ⟨e, he, -⟩
      rw [show attempt.answer = .ok value from hanswer] at he
      exact absurd he (by simp)
    · rw [hrun, show attempt.answer = .ok value from hanswer]
    · rw [hrun, show attempt = ⟨call, .ok value⟩ from congrArg (Attempt.mk call) hanswer]
  | error e =>
    simp only [hanswer] at hrun
    have hattempt : attempt = ⟨call, .error e⟩ := congrArg (Attempt.mk call) hanswer
    have hanswered : attempt.answer = .error e := hanswer
    by_cases hretry : isRetryError e = true
    · simp only [hretry, Bool.not_true, Bool.false_eq_true, if_false] at hrun
      have hretried : attempt.Retried := ⟨e, hanswered, hretry⟩
      cases hnext : nextSafeApi node height (node.answer call s).2 with
      | mk found s' =>
        have hfound : next = (found, s') := hnext
        rw [hnext] at hrun
        cases found with
        | error e' =>
          refine .inr (.inl ⟨hretried, e', by rw [hfound], ?_, ?_⟩)
          · rw [hrun]
          · rw [hrun, hattempt]
        | ok provider' =>
          refine .inr (.inr ⟨hretried, provider', e, by rw [hfound], hanswered, ?_⟩)
          rw [hfound, hattempt]
          exact ⟨by rw [hrun], by rw [hrun]; rfl⟩
    · simp only [hretry] at hrun
      refine .inl ⟨?_, ?_, ?_⟩
      · rintro ⟨e', he', hyes⟩
        rw [hanswered] at he'
        rw [← Except.error.inj he'] at hyes
        exact hretry hyes
      · rw [hrun, hanswered]
        rfl
      · rw [hrun, hattempt]
        rfl

/-- A provider that knows no network passes the call on. -/
theorem request_of_fresh {provider : SafeEthProvider ν} (hnetwork : provider.network = none)
    {safeCall : SafeCall} (hpassed : ∀ method, safeCall ≠ .unsupported method) :
    ∃ call, provider.request safeCall = .ok call := by
  rcases request_cases provider safeCall with hcall | ⟨method, hmethod, -⟩ | ⟨network, -, hknown, -⟩
  · exact hcall
  · exact absurd hmethod (hpassed method)
  · rw [hnetwork] at hknown
    exact absurd hknown (by simp)

/-- One turn, when the turns after it do what they should, or there are none. -/
theorem loopSpec_turn (hnode : HandsOutApis node) (safeCall : SafeCall)
    (hpassed : ∀ method, safeCall ≠ .unsupported method) (retries : ℕ)
    (hlater : retries = 0 ∨ ∀ (provider : SafeEthProvider ν) (previous : Option JsError) (s : σ),
      SafeAt height provider → (∃ call, provider.request safeCall = .ok call) →
      LoopSpec node height safeCall retries
        (retryLoop node height safeCall retries provider previous s).2.1
        (retryLoop node height safeCall retries provider previous s).1)
    (provider : SafeEthProvider ν) (previous : Option JsError) (s : σ)
    (hprovider : SafeAt height provider) (hrequest : ∃ call, provider.request safeCall = .ok call) :
    LoopSpec node height safeCall (retries + 1)
      (retryLoop node height safeCall (retries + 1) provider previous s).2.1
      (retryLoop node height safeCall (retries + 1) provider previous s).1 := by
  obtain ⟨call, hcall⟩ := hrequest
  have hpinned := request_pinned hprovider safeCall call hcall
  have hspec := nextSafeApi_spec hnode height (node.answer call s).2
  rcases retryLoop_turn node height safeCall retries provider previous s call
    hcall with ⟨hnot, hresult, hasked⟩ | ⟨hretried, e, hnext, hresult, hasked⟩ |
    ⟨hretried, next, e, hnext, hanswer, hresult, hasked⟩
  · rw [hresult, hasked]
    exact LoopSpec.last retries hpinned fun hretried => absurd hretried hnot
  · rw [hresult, hasked]
    rcases hspec with ⟨found, hfound, -, -⟩ | ⟨e', hfound, hnoApi⟩
    · rw [hnext] at hfound
      exact absurd hfound (by simp)
    · rw [hnext] at hfound
      rw [Except.error.inj hfound]
      constructor
      · intro attempt hattempt
        rw [List.mem_singleton.mp hattempt]
        exact hpinned
      · refine .inr ⟨e', rfl, ?_, by simp, by simp, _, hnoApi⟩
        intro attempt hattempt
        rw [List.mem_singleton.mp hattempt]
        exact hretried
  · rw [hresult, hasked]
    rcases hspec with ⟨found, hfound, hsafe, hfresh⟩ | ⟨e', hfound, -⟩
    · rw [hnext] at hfound
      obtain rfl : next = found := Except.ok.inj hfound
      rcases hlater with rfl | hlater
      · show LoopSpec node height safeCall 1 [⟨call, (node.answer call s).1⟩] (.error e)
        rw [← hanswer]
        exact LoopSpec.last 0 hpinned fun _ => rfl
      · have hrequest := request_of_fresh hfresh hpassed
        exact (hlater next (some e) _ hsafe hrequest).retry hpinned hretried
    · rw [hnext] at hfound
      exact absurd hfound (by simp)

/-- **The loop**, by induction on the retries that are left. -/
theorem retryLoop_spec (hnode : HandsOutApis node) (safeCall : SafeCall)
    (hpassed : ∀ method, safeCall ≠ .unsupported method) (retries : ℕ) :
    ∀ (provider : SafeEthProvider ν) (previous : Option JsError) (s : σ),
      SafeAt height provider → (∃ call, provider.request safeCall = .ok call) →
      LoopSpec node height safeCall (retries + 1)
        (retryLoop node height safeCall (retries + 1) provider previous s).2.1
        (retryLoop node height safeCall (retries + 1) provider previous s).1 := by
  induction retries with
  | zero => exact loopSpec_turn hnode safeCall hpassed 0 (.inl rfl)
  | succ retries ih => exact loopSpec_turn hnode safeCall hpassed (retries + 1) (.inr ih)

/-! ### The calls of a handler -/

/-- The network that a provider knows, if any. -/
def Knows (provider : SafeEthProvider ν) (network : ν) : Prop := provider.network = some network

/-- **One call.** -/
theorem callSafe_spec (hnode : HandsOutApis node) (target : SafeEthProvider ν)
    (htarget : SafeAt height target) (safeCall : SafeCall) (s : σ) :
    let run := callSafe node height target safeCall s
    (∀ attempt ∈ run.2.2.1, Pinned height safeCall attempt.call) ∧
      Settles node (Knows target) safeCall run.2.2.1 run.1 := by
  intro run
  have hresult : run.1 = (retryLoop node height safeCall maxRetries target none s).1 := rfl
  have hasked : run.2.2.1 = (retryLoop node height safeCall maxRetries target none s).2.1 := rfl
  rcases request_cases target safeCall with
    ⟨call, hcall⟩ | ⟨method, rfl, herror⟩ | ⟨network, rfl, hknown, hanswer⟩
  · have hpassed : ∀ method, safeCall ≠ .unsupported method := by
      rintro method rfl
      exact absurd hcall (by simp [SafeEthProvider.request])
    have hloop := retryLoop_spec hnode safeCall hpassed 4 target none s htarget ⟨call, hcall⟩
    rw [hresult, hasked]
    refine ⟨hloop.pinned, ?_⟩
    rcases hloop.outcome with ⟨failures, last, hlist, hlast, hfailures, hbound, hfifth⟩ |
      ⟨e, he, hfailures, hsome, hbound, hnoApi⟩
    · have hsettles : Settles node (Knows target) safeCall (failures ++ [last]) last.answer :=
        .answered safeCall failures last hfailures hbound hfifth
      rw [← hlist, ← hlast] at hsettles
      exact hsettles
    · have hsettles : Settles node (Knows target) safeCall
          (retryLoop node height safeCall maxRetries target none s).2.1 (.error e) :=
        .noApi safeCall _ e hfailures hsome hbound hnoApi
      rw [← he] at hsettles
      exact hsettles
  · have hloop : retryLoop node height (.unsupported method) maxRetries target none s =
        (.error (SafeEthProvider.notSupported method), [], s) := by
      rw [show maxRetries = 4 + 1 from rfl, retryLoop, perform_error target _ _ herror]
      rfl
    rw [hresult, hasked, hloop]
    exact ⟨fun attempt hattempt => absurd hattempt List.not_mem_nil, .unsupported method⟩
  · have hloop : retryLoop node height .getNetwork maxRetries target none s =
        (.ok network, [], s) := by
      rw [show maxRetries = 4 + 1 from rfl, retryLoop, perform_error target _ _ hanswer]
    rw [hresult, hasked, hloop]
    exact ⟨fun attempt hattempt => absurd hattempt List.not_mem_nil, .known network hknown⟩

theorem Settles.mono {known known' : ν → Prop} (h : ∀ network, known network → known' network)
    {safeCall : SafeCall} {asked : List (Attempt ν)} {result : Except JsError ν}
    (hsettles : Settles node known safeCall asked result) :
    Settles node known' safeCall asked result := by
  cases hsettles with
  | answered safeCall failures last hfailures hbound hlast =>
    exact .answered safeCall failures last hfailures hbound hlast
  | noApi safeCall failures e hfailures hsome hbound he =>
    exact .noApi safeCall asked e hfailures hsome hbound he
  | unsupported method => exact .unsupported method
  | known network hnetwork => exact .known network (h network hnetwork)

theorem Settles.length_le {known : ν → Prop} {safeCall : SafeCall} {asked : List (Attempt ν)}
    {result : Except JsError ν} (h : Settles node known safeCall asked result) :
    asked.length ≤ maxRetries := by
  cases h with
  | answered safeCall failures last hfailures hbound hlast =>
    rw [List.length_append, List.length_singleton]
    exact hbound
  | noApi safeCall failures e hfailures hsome hbound he => exact hbound
  | unsupported method => exact Nat.zero_le _
  | known network hnetwork => exact Nat.zero_le _

/-- A first attempt that succeeds ends the call. -/
theorem callSafe_of_ok (target : SafeEthProvider ν) (safeCall : SafeCall) (s : σ) (value : ν)
    (h : (perform node target safeCall s).1 = .ok value) :
    (callSafe node height target safeCall s).1 = .ok value := by
  show (retryLoop node height safeCall (4 + 1) target none s).1 = .ok value
  rw [retryLoop]
  cases hperform : perform node target safeCall s with
  | mk answer rest =>
    rw [hperform] at h
    obtain rfl : answer = .ok value := h
    rfl

/-- The provider after a call: it knows what it knew, and the network if it was asked for it. -/
theorem callSafe_target (node : Node σ ν) (target : SafeEthProvider ν)
    (htarget : SafeAt height target) (safeCall : SafeCall) (s : σ) :
    let run := callSafe node height target safeCall s
    SafeAt height run.2.1 ∧ ∀ network, Knows run.2.1 network →
      Knows target network ∨ safeCall = .getNetwork ∧ run.1 = .ok network := by
  intro run
  have hafter : run.2.1 = (perform node target safeCall s).2.1 := rfl
  have hsame : run.2.1 = target → SafeAt height run.2.1 ∧ ∀ network, Knows run.2.1 network →
      Knows target network ∨ safeCall = .getNetwork ∧ run.1 = .ok network := by
    intro h
    rw [h]
    exact ⟨htarget, fun network hknown => .inl hknown⟩
  cases hrequest : target.request safeCall with
  | error answer =>
    apply hsame
    rw [hafter, perform_error target safeCall answer hrequest]
  | ok call =>
    have hperform := perform_ok node target safeCall call hrequest s
    cases safeCall with
    | getNetwork =>
      cases hanswer : (node.answer call s).1 with
      | error e =>
        apply hsame
        rw [hafter, hperform, hanswer]
        rfl
      | ok network =>
        have hleft : run.2.1 = { target with network := some network } := by
          rw [hafter, hperform, hanswer]
          rfl
        have hresult : run.1 = .ok network := by
          apply callSafe_of_ok
          rw [hperform, hanswer]
        rw [hleft, hresult]
        refine ⟨⟨htarget.transport, htarget.height⟩, fun other hother => .inr ⟨rfl, ?_⟩⟩
        rw [show network = other from Option.some.inj hother]
    | getBalance addressOrName blockTag => exact hsame (by rw [hafter, hperform]; rfl)
    | getTransactionCount addressOrName blockTag => exact hsame (by rw [hafter, hperform]; rfl)
    | getCode addressOrName blockTag => exact hsame (by rw [hafter, hperform]; rfl)
    | getStorageAt addressOrName position blockTag => exact hsame (by rw [hafter, hperform]; rfl)
    | call transaction blockTag => exact hsame (by rw [hafter, hperform]; rfl)
    | unsupported method => exact hsame (by rw [hafter, hperform]; rfl)

/-- The network was the result of an earlier call for it. -/
def ToldBefore (before : List (Entry ν)) (network : ν) : Prop :=
  ∃ entry ∈ before, entry.call = .getNetwork ∧ entry.result = .ok network

/-- **The calls of a handler**, by induction on them. -/
theorem runCalls_spec (hnode : HandsOutApis node) (calls : List SafeCall) :
    ∀ (target : SafeEthProvider ν) (s : σ), SafeAt height target →
      let entries := (runCalls node height target calls s).1
      entries.map Entry.call = calls ∧
      ∀ before entry after, entries = before ++ entry :: after →
        (∀ attempt ∈ entry.asked, Pinned height entry.call attempt.call) ∧
        Settles node (fun network => Knows target network ∨ ToldBefore before network)
          entry.call entry.asked entry.result := by
  induction calls with
  | nil =>
    intro target s _
    refine ⟨rfl, fun before entry after h => ?_⟩
    exact absurd h.symm (by simp [runCalls])
  | cons safeCall rest ih =>
    intro target s htarget
    obtain ⟨hpinned, hsettles⟩ := callSafe_spec hnode target htarget safeCall s
    obtain ⟨hsafe, hknows⟩ := callSafe_target node target htarget safeCall s
    let run := callSafe node height target safeCall s
    have hentries : (runCalls node height target (safeCall :: rest) s).1 =
        ⟨safeCall, run.1, run.2.2.1⟩ :: (runCalls node height run.2.1 rest run.2.2.2).1 := rfl
    obtain ⟨hcalls, hlater⟩ := ih run.2.1 run.2.2.2 hsafe
    intro entries
    have hlist : entries = ⟨safeCall, run.1, run.2.2.1⟩ ::
        (runCalls node height run.2.1 rest run.2.2.2).1 := hentries
    refine ⟨by rw [hlist, List.map_cons, hcalls], ?_⟩
    intro before entry after hsplit
    rw [hlist] at hsplit
    cases before with
    | nil =>
      obtain ⟨rfl, -⟩ := List.cons.inj hsplit
      exact ⟨hpinned, hsettles.mono fun network => .inl⟩
    | cons first before =>
      obtain ⟨rfl, hrest⟩ := List.cons.inj hsplit
      obtain ⟨hpinned', hsettles'⟩ := hlater before entry after hrest
      refine ⟨hpinned', hsettles'.mono ?_⟩
      rintro network (hknown | ⟨told, hmem, htold⟩)
      · rcases hknows network hknown with hold | ⟨rfl, hnew⟩
        · exact .inl hold
        · exact .inr ⟨_, List.mem_cons_self, rfl, hnew⟩
      · exact .inr ⟨told, List.mem_cons_of_mem _ hmem, htold⟩

end Loop

/-- **What the calls of a handler come to.**  Every attempt of every call is the call the handler
made, at the height of its block and not over a client with batches; there are at most five for each
call, and they settle it.  Without calls at all it fails only where the node has no API. -/
theorem safeApi_calls (node : Node σ ν) (hnode : HandsOutApis node) (height : ℤ)
    (calls : List SafeCall) (s : σ) :
    match (safeApi node height calls s).1 with
    | .error e => (node.unsafeApi s).1 = .error e
    | .ok entries => entries.map Entry.call = calls ∧
      ∀ before entry after, entries = before ++ entry :: after →
        (∀ attempt ∈ entry.asked, Pinned height entry.call attempt.call) ∧
        entry.asked.length ≤ 5 ∧
        Settles node (ToldBefore before) entry.call entry.asked entry.result := by
  rw [safeApi]
  have hspec := nextSafeApi_spec hnode height s
  cases hnext : nextSafeApi node height s with
  | mk found s' =>
    rw [hnext] at hspec
    cases found with
    | error e =>
      rcases hspec with ⟨provider, hfound, -, -⟩ | ⟨e', hfound, hnoApi⟩
      · exact absurd hfound (by simp)
      · show (node.unsafeApi s).1 = .error e
        rw [hnoApi, Except.error.inj hfound]
    | ok target =>
      rcases hspec with ⟨provider, hfound, hsafe, hfresh⟩ | ⟨e', hfound, -⟩
      · obtain rfl : target = provider := Except.ok.inj hfound
        obtain ⟨hcalls, hentries⟩ := runCalls_spec hnode calls target s' hsafe
        refine ⟨hcalls, fun before entry after hsplit => ?_⟩
        obtain ⟨hpinned, hsettles⟩ := hentries before entry after hsplit
        refine ⟨hpinned, hsettles.length_le, hsettles.mono ?_⟩
        rintro network (hknown | htold)
        · rw [Knows, hfresh] at hknown
          exact absurd hknown (by simp)
        · exact htold
      · exact absurd hfound (by simp)

/-! ### A call that is made twice -/

/-- An API over HTTP. -/
def httpApi : EthereumApi where
  client := { object := 0, transport := .batch }
  nonBatchClient := some { object := 1, transport := .nonBatch }
  batchSize := none
  created := 2

/-- A node of one API whose server has an error for the first request. -/
def onceFailing : Node ℕ Json where
  answer _ s :=
    if s = 0 then
      (.error { message := "bad response", fields := [("code", .str "SERVER_ERROR")] }, 1)
    else (.ok (.str "0x01"), s + 1)
  unsafeApi s := (.ok httpApi, s)

theorem onceFailing_handsOutApis : HandsOutApis onceFailing := by
  intro s api h
  obtain rfl : httpApi = api := Except.ok.inj h
  exact .new "https" none httpApi rfl

/-- The balance of an account, asked for with a block tag of its own, and the network. -/
def sampleCalls : List SafeCall := [.getBalance (.str "0xab") (some (.str "latest")), .getNetwork]

theorem safeApi_calls_onceFailing :
    match (safeApi onceFailing 100 sampleCalls 0).1 with
    | .error e => (onceFailing.unsafeApi 0).1 = .error e
    | .ok entries => entries.map Entry.call = sampleCalls ∧
      ∀ before entry after, entries = before ++ entry :: after →
        (∀ attempt ∈ entry.asked, Pinned 100 entry.call attempt.call) ∧
        entry.asked.length ≤ 5 ∧
        Settles onceFailing (ToldBefore before) entry.call entry.asked entry.result :=
  safeApi_calls onceFailing onceFailing_handsOutApis 100 sampleCalls 0

end SubqlEthereum.SafeApi
