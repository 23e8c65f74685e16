import SubqlEthereum.External
import SubqlEthereum.Library.Reentry
import Mathlib.Data.Int.Notation

/-!
# Initialising the API

The constructor, `applyBatchSize` and `init` of `api.ethereum.ts`.  `init` probes the endpoint for
its genesis block.  When the probe fails with an invalid response it takes the client without
batches and calls itself again; on Celo every call builds new clients first.

Clients are objects: `injectClient` gives a client a `send` of its own that cannot be given a
second time, so each client has a number to tell it by, and the API remembers which have one.
What an endpoint answers depends on how it is asked, so the answers are given by transport.
-/

namespace SubqlEthereum.ApiInit

open SubqlEthereum.External SubqlEthereum.Reentry

/-! ### The clients -/

/-- How a client sends its requests. -/
inductive Transport
  | batch
  | nonBatch
  | webSocket
deriving DecidableEq, Repr

structure Client where
  object : ℕ
  transport : Transport
  celo : Bool := false
deriving DecidableEq, Repr

structure Network where
  chainId : ℤ
  name : String
deriving DecidableEq, Repr

/-- The block tags that are asked for. -/
inductive BlockTag
  | earliest
  | number (n : ℤ)
  | finalized
  | safe
  | latest
deriving DecidableEq, Repr

/-- The tag as a template literal writes it. -/
def BlockTag.text : BlockTag → String
  | .earliest => "earliest"
  | .number n => toString n
  | .finalized => "finalized"
  | .safe => "safe"
  | .latest => "latest"

/-- What an endpoint answers by each transport: its network, and the hash of a block, none for a
block it does not have.  An answer for `finalized` or `safe` that takes too long is an error. -/
structure Endpoint where
  getNetwork : Transport → Except JsError Network
  getBlock : Transport → BlockTag → Except JsError (Option String)

/-- The part of an `EthereumApi` that `init` reads and writes, with the objects made so far and
those that have a `send` of their own. -/
structure EthereumApi where
  client : Client
  nonBatchClient : Option Client
  batchSize : Option ℤ
  created : ℕ
  injected : List ℕ := []
  genesisHash : String := ""
  chainId : Option ℤ := none
  name : Option String := none
  supportsFinalization : Bool := true
  supportsSafe : Bool := true
deriving DecidableEq, Repr

/-- New clients for an HTTP endpoint, one with batches and one without. -/
def newClients (api : EthereumApi) (celo : Bool) : EthereumApi :=
  { api with client := { object := api.created, transport := .batch, celo },
             nonBatchClient := some { object := api.created + 1, transport := .nonBatch, celo },
             created := api.created + 2 }

/-- A batch size that is not positive selects the client without batches; another one is set on
the batch client, which changes nothing here. -/
def applyBatchSize (api : EthereumApi) : EthereumApi :=
  match api.batchSize, api.nonBatchClient with
  | some size, some nonBatchClient =>
    if size ≤ 0 then { api with client := nonBatchClient } else api
  | _, _ => api

/-- The constructor, by the protocol of the endpoint. -/
def EthereumApi.new (protocol : String) (batchSize : Option ℤ) : Except JsError EthereumApi :=
  if protocol = "https" ∨ protocol = "http" then
    .ok (applyBatchSize
      { client := { object := 0, transport := .batch },
        nonBatchClient := some { object := 1, transport := .nonBatch }, batchSize, created := 2 })
  else if protocol = "ws" ∨ protocol = "wss" then
    .ok { client := { object := 0, transport := .webSocket }, nonBatchClient := none, batchSize,
          created := 1 }
  else .error { message := "Unsupported protocol: " ++ protocol ++ ":" }

/-! ### One call of `init` -/

/-- Gives the client a `send` of its own, which can be done once for each client. -/
def injectClient (api : EthereumApi) : Except JsError EthereumApi :=
  if api.client.object ∈ api.injected then
    .error { name := "TypeError", message := "Cannot redefine property: send" }
  else .ok { api with injected := api.client.object :: api.injected }

/-- The clients for Celo. -/
def celoClients (api : EthereumApi) : EthereumApi :=
  if api.client.transport = .webSocket then
    { api with client := { object := api.created, transport := .webSocket, celo := true },
               created := api.created + 1 }
  else applyBatchSize (newClients api true)

def genesisTag (chainId : ℤ) : BlockTag :=
  if chainId = 1501 then .number 4157986
  else if chainId = 420420419 then .number 11405259
  else if chainId = 420420417 then .number 4367914
  else .earliest

def fetchGenesisHash (endpoint : Endpoint) (transport : Transport) (chainId : ℤ) :
    Except JsError String := do
  match ← endpoint.getBlock transport (genesisTag chainId) with
  | none => return ""
  | some hash => return hash

def getSupportsTag (endpoint : Endpoint) (transport : Transport) (tag : BlockTag) : Bool :=
  match endpoint.getBlock transport tag with
  | .ok _ => true
  | .error _ => false

/-- How a call of `init` settles, with the API it leaves. -/
structure InitResult where
  result : Except JsError Unit
  api : EthereumApi

/-- The guarded part of `init`: the probes, and what is made of their failure. -/
def initProbes (endpoint : Endpoint) (network : Network) (api : EthereumApi) :
    Outcome EthereumApi InitResult :=
  let transport := api.client.transport
  match fetchGenesisHash endpoint transport network.chainId with
  | .ok genesisHash =>
    .done ⟨.ok (), { api with
      genesisHash
      supportsFinalization := getSupportsTag endpoint transport .finalized
      supportsSafe := getSupportsTag endpoint transport .safe
      chainId := some network.chainId
      name := some network.name }⟩
  | .error e =>
    if startsWith e.message "Invalid response" then
      match api.nonBatchClient with
      | none => .done ⟨.error { message := "No suitable client found" }, api⟩
      | some nonBatchClient => .again { api with client := nonBatchClient }
    else .done ⟨.error e, api⟩

/-- One call of `init`, up to the call of itself. -/
def initEntry (endpoint : Endpoint) (api : EthereumApi) : Outcome EthereumApi InitResult :=
  match injectClient api with
  | .error e => .done ⟨.error e, api⟩
  | .ok api =>
    match endpoint.getNetwork api.client.transport with
    | .error e => .done ⟨.error e, api⟩
    | .ok network =>
      initProbes endpoint network (if network.chainId = 42220 then celoClients api else api)

/-- `init`, when at most `entries` calls are needed. -/
def init (endpoint : Endpoint) (entries : ℕ) (api : EthereumApi) : Option InitResult :=
  runFor (initEntry endpoint) entries api

/-- The transport of the genesis probe a call of `init` makes, if it comes to that. -/
def probeTransport (endpoint : Endpoint) (api : EthereumApi) : Option Transport :=
  match injectClient api with
  | .error _ => none
  | .ok api =>
    match endpoint.getNetwork api.client.transport with
    | .error _ => none
    | .ok network =>
      some (if network.chainId = 42220 then celoClients api else api).client.transport

/-- The API a call of `init` leaves, whether it settles or enters again. -/
def leftApi (endpoint : Endpoint) (api : EthereumApi) : EthereumApi :=
  match initEntry endpoint api with
  | .done result => result.api
  | .again api => api

/-! ### What one call does -/

/-- The genesis probe by a transport is answered with an invalid response. -/
def probeInvalid (endpoint : Endpoint) (chainId : ℤ) (transport : Transport) : Bool :=
  match fetchGenesisHash endpoint transport chainId with
  | .error e => startsWith e.message "Invalid response"
  | .ok _ => false

/-- The API as a call probes with it: the client has its own `send`, and on Celo the clients are
new. -/
def prepared (network : Network) (api : EthereumApi) : EthereumApi :=
  let api := { api with injected := api.client.object :: api.injected }
  if network.chainId = 42220 then celoClients api else api

section Entry

variable {endpoint : Endpoint} {network : Network}

/-- A client that has its own `send` already makes the call fail. -/
theorem initEntry_injected (api : EthereumApi) (h : api.client.object ∈ api.injected) :
    initEntry endpoint api =
      .done ⟨.error { name := "TypeError", message := "Cannot redefine property: send" }, api⟩ := by
  rw [initEntry, injectClient, if_pos h]

theorem probeTransport_injected (api : EthereumApi) (h : api.client.object ∈ api.injected) :
    probeTransport endpoint api = none := by
  rw [probeTransport, injectClient, if_pos h]

/-- Any other client makes the probe. -/
theorem probeTransport_eq (hnetwork : ∀ t, endpoint.getNetwork t = .ok network)
    (api : EthereumApi) (h : api.client.object ∉ api.injected) :
    probeTransport endpoint api = some (prepared network api).client.transport := by
  rw [probeTransport, injectClient, if_neg h]
  simp only [hnetwork]
  rfl

theorem initEntry_eq (hnetwork : ∀ t, endpoint.getNetwork t = .ok network)
    (api : EthereumApi) (h : api.client.object ∉ api.injected) :
    initEntry endpoint api = initProbes endpoint network (prepared network api) := by
  rw [initEntry, injectClient, if_neg h]
  simp only [hnetwork]
  rfl

/-- **A probe that is not answered with an invalid response ends the initialisation**, with the
client it was made with. -/
theorem initProbes_valid (api : EthereumApi)
    (hvalid : probeInvalid endpoint network.chainId api.client.transport = false) :
    ∃ result, initProbes endpoint network api = .done result ∧ result.api.client = api.client := by
  rw [probeInvalid] at hvalid
  rw [initProbes]
  cases hprobe : fetchGenesisHash endpoint api.client.transport network.chainId with
  | ok genesisHash => exact ⟨_, rfl, rfl⟩
  | error e =>
    rw [hprobe] at hvalid
    have hmessage : startsWith e.message "Invalid response" = false := hvalid
    refine ⟨⟨.error e, api⟩, ?_, rfl⟩
    simp only [hmessage, Bool.false_eq_true, ↓reduceIte]

/-- **A probe answered with an invalid response** leads to the client without batches, if there is
one. -/
theorem initProbes_invalid (api : EthereumApi)
    (hinvalid : probeInvalid endpoint network.chainId api.client.transport = true) :
    initProbes endpoint network api =
      match api.nonBatchClient with
      | none => .done ⟨.error { message := "No suitable client found" }, api⟩
      | some nonBatchClient => .again { api with client := nonBatchClient } := by
  rw [probeInvalid] at hinvalid
  rw [initProbes]
  cases hprobe : fetchGenesisHash endpoint api.client.transport network.chainId with
  | ok genesisHash =>
    rw [hprobe] at hinvalid
    exact absurd hinvalid (by simp)
  | error e =>
    rw [hprobe] at hinvalid
    have hmessage : startsWith e.message "Invalid response" = true := hinvalid
    simp only [hmessage, ↓reduceIte]

end Entry

/-! ### Falling back once -/

/-- `init` settles after calling itself at most once, and every call after the first probes by the
client without batches, if it comes to a probe, and leaves that client behind. -/
structure FallsBackOnce (endpoint : Endpoint) (api : EthereumApi) : Prop where
  settles : (init endpoint 2 api).isSome = true
  stays_nonBatch : ∀ n api', entered (initEntry endpoint) api (n + 1) = some api' →
    (∀ t ∈ probeTransport endpoint api', t = .nonBatch) ∧
      (leftApi endpoint api').client.transport = .nonBatch

section FallsBack

variable {endpoint : Endpoint}

/-- A first call that settles. -/
theorem fallsBackOnce_of_done (api : EthereumApi) (result : InitResult)
    (h : initEntry endpoint api = .done result) : FallsBackOnce endpoint api where
  settles := by
    rw [init, runFor, h]
    rfl
  stays_nonBatch := by
    intro n api' hentered
    rw [entered, h] at hentered
    exact absurd hentered (by simp)

/-- A second call that settles. -/
theorem fallsBackOnce_of_again (api next : EthereumApi) (result : InitResult)
    (hfirst : initEntry endpoint api = .again next)
    (hsecond : initEntry endpoint next = .done result)
    (hprobe : ∀ t ∈ probeTransport endpoint next, t = .nonBatch)
    (hleft : result.api.client.transport = .nonBatch) : FallsBackOnce endpoint api where
  settles := by
    rw [init, runFor, hfirst]
    simp only [runFor, hsecond]
    rfl
  stays_nonBatch := by
    intro n api' hentered
    rw [entered, hfirst] at hentered
    cases n with
    | zero =>
      have hsame : next = api' := Option.some.inj hentered
      rw [← hsame, leftApi, hsecond]
      exact ⟨hprobe, hleft⟩
    | succ n =>
      simp only [entered, hsecond] at hentered
      exact absurd hentered (by simp)

/-- A second call that enters again. -/
theorem not_fallsBackOnce (api next third : EthereumApi)
    (hfirst : initEntry endpoint api = .again next)
    (hsecond : initEntry endpoint next = .again third) : ¬ FallsBackOnce endpoint api := by
  intro h
  have hsettles := h.settles
  rw [init, runFor_isSome_iff] at hsettles
  simp [entered, hfirst, hsecond] at hsettles

end FallsBack

/-! ### The clients of an HTTP endpoint -/

/-- The transport the batch size selects. -/
def selectedTransport (batchSize : Option ℤ) : Transport :=
  if batchSize.any (· ≤ 0) then .nonBatch else .batch

/-- The API of an HTTP endpoint before the first call: it has a client without batches, the client
in use is the one the batch size selects, and neither has a `send` of its own. -/
structure Configured (api : EthereumApi) (nonBatchClient : Client) : Prop where
  hasNonBatch : api.nonBatchClient = some nonBatchClient
  transport : nonBatchClient.transport = .nonBatch
  bySize : api.client.transport = selectedTransport api.batchSize
  selected : api.client = nonBatchClient ∨
    api.client.transport = .batch ∧ nonBatchClient.object ≠ api.client.object
  fresh : api.client.object ∉ api.injected ∧ nonBatchClient.object ∉ api.injected
  numbered : api.client.object < api.created ∧ nonBatchClient.object < api.created ∧
    ∀ object ∈ api.injected, object < api.created

theorem applyBatchSize_eq (api : EthereumApi) (nonBatchClient : Client)
    (h : api.nonBatchClient = some nonBatchClient) :
    applyBatchSize api =
      if api.batchSize.any (· ≤ 0) then { api with client := nonBatchClient } else api := by
  rw [applyBatchSize, h]
  cases api.batchSize with
  | none => rfl
  | some size => simp

/-- Selecting by the batch size, from new clients. -/
theorem configured_newClients (api : EthereumApi) (celo : Bool)
    (hinjected : ∀ object ∈ api.injected, object < api.created) :
    Configured (applyBatchSize (newClients api celo))
      { object := api.created + 1, transport := .nonBatch, celo } := by
  have hcreated : api.created ∉ api.injected := fun h => by
    have := hinjected _ h
    omega
  have hnext : api.created + 1 ∉ api.injected := fun h => by
    have := hinjected _ h
    omega
  have hlater : ∀ object ∈ api.injected, object < api.created + 2 := fun object h => by
    have := hinjected object h
    omega
  have hsize : (newClients api celo).batchSize = api.batchSize := rfl
  rw [applyBatchSize_eq (newClients api celo) _ rfl, hsize]
  by_cases hnot : api.batchSize.any (· ≤ 0) = true
  · rw [if_pos hnot]
    refine ⟨rfl, rfl, ?_, .inl rfl, ⟨hnext, hnext⟩,
      Nat.lt_succ_self _, Nat.lt_succ_self _, hlater⟩
    show Transport.nonBatch = selectedTransport api.batchSize
    rw [selectedTransport, if_pos hnot]
  · rw [if_neg hnot]
    refine ⟨rfl, rfl, ?_, .inr ⟨rfl, Nat.succ_ne_self _⟩, ⟨hcreated, hnext⟩,
      ?_, Nat.lt_succ_self _, hlater⟩
    · show Transport.batch = selectedTransport api.batchSize
      rw [selectedTransport, if_neg hnot]
    · show api.created < api.created + 2
      omega

theorem applyBatchSize_newClients_batchSize (api : EthereumApi) (celo : Bool) :
    (applyBatchSize (newClients api celo)).batchSize = api.batchSize := by
  rw [applyBatchSize_eq (newClients api celo) _ rfl]
  split
  · rfl
  · rfl

/-- What the constructor makes: a configured API over HTTP, or one client over a web socket. -/
theorem EthereumApi.new_cases {protocol : String} {batchSize : Option ℤ} {api : EthereumApi}
    (hnew : EthereumApi.new protocol batchSize = .ok api) :
    (∃ nonBatchClient, Configured api nonBatchClient) ∨
      api.nonBatchClient = none ∧ api.client.transport = .webSocket ∧ api.injected = [] := by
  rw [EthereumApi.new] at hnew
  split at hnew
  · left
    have hconfigured := configured_newClients
      { client := { object := 0, transport := .batch }, nonBatchClient := none, batchSize,
        created := 0 } false (by simp)
    rw [← Except.ok.inj hnew]
    exact ⟨_, hconfigured⟩
  · split at hnew
    · right
      rw [← Except.ok.inj hnew]
      exact ⟨rfl, rfl, rfl⟩
    · exact absurd hnew (by simp)

/-! ### The calls over each kind of endpoint -/

section Calls

variable {endpoint : Endpoint} {network : Network}

/-- **Without a client to fall back to, the first call settles.** -/
theorem fallsBackOnce_webSocket (hnetwork : ∀ t, endpoint.getNetwork t = .ok network)
    (api : EthereumApi) (hnone : api.nonBatchClient = none)
    (hsocket : api.client.transport = .webSocket) (hfresh : api.injected = []) :
    FallsBackOnce endpoint api := by
  have hprobe : initEntry endpoint api = initProbes endpoint network (prepared network api) :=
    initEntry_eq hnetwork api (by simp [hfresh])
  have hstill : (prepared network api).nonBatchClient = none := by
    simp only [prepared]
    split
    · rw [celoClients, if_pos hsocket]
      exact hnone
    · exact hnone
  cases hanswer :
      probeInvalid endpoint network.chainId (prepared network api).client.transport with
  | false =>
    obtain ⟨result, hdone, -⟩ := initProbes_valid (prepared network api) hanswer
    exact fallsBackOnce_of_done api result (hprobe.trans hdone)
  | true =>
    have hdone := initProbes_invalid (prepared network api) hanswer
    rw [hstill] at hdone
    exact fallsBackOnce_of_done api _ (hprobe.trans hdone)

/-- **Away from Celo** the clients stay, so the second call is the one by the client without
batches, and it fails if that client was in use already. -/
theorem fallsBackOnce_iff_of_ne_celo (hnetwork : ∀ t, endpoint.getNetwork t = .ok network)
    (hchain : network.chainId ≠ 42220) (api : EthereumApi) (nonBatchClient : Client)
    (hapi : Configured api nonBatchClient) :
    FallsBackOnce endpoint api ↔
      probeInvalid endpoint network.chainId api.client.transport = false ∨
        api.client.transport = .nonBatch ∨
        probeInvalid endpoint network.chainId .nonBatch = false := by
  have hkeep : ∀ api : EthereumApi, prepared network api =
      { api with injected := api.client.object :: api.injected } := fun api => by
    rw [prepared, if_neg hchain]
  have hentry : initEntry endpoint api = initProbes endpoint network (prepared network api) :=
    initEntry_eq hnetwork api hapi.fresh.1
  have hclient : (prepared network api).client = api.client := by rw [hkeep]
  cases hanswer : probeInvalid endpoint network.chainId api.client.transport with
  | false =>
    obtain ⟨result, hdone, -⟩ := initProbes_valid (prepared network api) (by rw [hclient, hanswer])
    exact iff_of_true (fallsBackOnce_of_done api result (hentry.trans hdone)) (.inl rfl)
  | true =>
    -- the state of the second call: the client without batches, the first one with its own `send`
    let next : EthereumApi :=
      { api with client := nonBatchClient, nonBatchClient := some nonBatchClient,
                 injected := api.client.object :: api.injected }
    have hagain : initEntry endpoint api = .again next := by
      rw [hentry, initProbes_invalid (prepared network api) (by rw [hclient, hanswer]), hkeep]
      simp only [hapi.hasNonBatch]
      rfl
    rcases hapi.selected with hsame | ⟨hbatch, hother⟩
    · have hnonBatch : api.client.transport = .nonBatch := by rw [hsame, hapi.transport]
      refine iff_of_true ?_ (.inr (.inl hnonBatch))
      have hin : next.client.object ∈ next.injected := by
        show nonBatchClient.object ∈ api.client.object :: api.injected
        rw [hsame]
        exact List.mem_cons_self
      refine fallsBackOnce_of_again api next _ hagain (initEntry_injected next hin) ?_
        hapi.transport
      rw [probeTransport_injected next hin]
      exact fun t ht => absurd ht (by simp)
    · have hout : next.client.object ∉ next.injected :=
        fun h => (List.mem_cons.mp h).elim hother hapi.fresh.2
      have hsecond := initEntry_eq hnetwork next hout
      have hnonBatch : (prepared network next).client.transport = .nonBatch := by
        rw [hkeep]
        exact hapi.transport
      have hneither : api.client.transport ≠ .nonBatch := by simp [hbatch]
      cases hanswer' : probeInvalid endpoint network.chainId .nonBatch with
      | false =>
        refine iff_of_true ?_ (.inr (.inr rfl))
        obtain ⟨result, hdone, hleft⟩ := initProbes_valid (prepared network next)
          (by rw [hnonBatch, hanswer'])
        refine fallsBackOnce_of_again api next result hagain (hsecond.trans hdone) ?_ ?_
        · intro t ht
          rw [probeTransport_eq hnetwork next hout] at ht
          rw [← Option.some.inj ht, hnonBatch]
        · rw [hleft, hnonBatch]
      | true =>
        refine iff_of_false ?_ (by simp [hneither])
        have hthird := initProbes_invalid (prepared network next) (by rw [hnonBatch, hanswer'])
        rw [← hsecond, hkeep next] at hthird
        exact not_fallsBackOnce api next _ hagain hthird

/-- What stays true of the API over HTTP on Celo, from call to call. -/
structure OverHttp (batchSize : Option ℤ) (api : EthereumApi) : Prop where
  http : api.client.transport ≠ .webSocket
  size : api.batchSize = batchSize
  fresh : api.client.object ∉ api.injected
  numbered : api.client.object < api.created ∧ ∀ object ∈ api.injected, object < api.created

theorem Configured.overHttp {api : EthereumApi} {nonBatchClient : Client}
    (h : Configured api nonBatchClient) : OverHttp api.batchSize api where
  http := by
    rw [h.bySize, selectedTransport]
    split
    · simp
    · simp
  size := rfl
  fresh := h.fresh.1
  numbered := ⟨h.numbered.1, h.numbered.2.2⟩

/-- On Celo each call probes with new clients, selected by the batch size. -/
theorem prepared_celo (hchain : network.chainId = 42220) (batchSize : Option ℤ) (api : EthereumApi)
    (hapi : OverHttp batchSize api) :
    ∃ nonBatchClient, Configured (prepared network api) nonBatchClient ∧
      (prepared network api).batchSize = batchSize := by
  have hinjected : ∀ object ∈ api.client.object :: api.injected, object < api.created := by
    intro object hobject
    rcases List.mem_cons.mp hobject with hfirst | hrest
    · rw [hfirst]
      exact hapi.numbered.1
    · exact hapi.numbered.2 object hrest
  have hprepared : prepared network api =
      applyBatchSize
        (newClients { api with injected := api.client.object :: api.injected } true) := by
    rw [prepared, if_pos hchain, celoClients, if_neg hapi.http]
  rw [hprepared]
  refine ⟨_, configured_newClients _ true hinjected, ?_⟩
  rw [applyBatchSize_newClients_batchSize]
  exact hapi.size

/-- **A call on Celo whose probe is answered with an invalid response** enters again, and nothing
it depends on has changed. -/
theorem initEntry_celo_again (hnetwork : ∀ t, endpoint.getNetwork t = .ok network)
    (hchain : network.chainId = 42220) (batchSize : Option ℤ)
    (hinvalid : probeInvalid endpoint network.chainId (selectedTransport batchSize) = true)
    (api : EthereumApi) (hapi : OverHttp batchSize api) :
    ∃ api', initEntry endpoint api = .again api' ∧ OverHttp batchSize api' := by
  obtain ⟨nonBatchClient, hconfigured, hsize⟩ := prepared_celo hchain batchSize api hapi
  have htransport := hconfigured.bySize
  rw [hsize] at htransport
  have hagain := initProbes_invalid (prepared network api) (by rw [htransport, hinvalid])
  rw [← initEntry_eq hnetwork api hapi.fresh] at hagain
  simp only [hconfigured.hasNonBatch] at hagain
  refine ⟨_, hagain, ?_, hsize, hconfigured.fresh.2, hconfigured.numbered.2⟩
  show nonBatchClient.transport ≠ .webSocket
  simp [hconfigured.transport]

/-- **On Celo** no call gets past an invalid response, whatever client it fell back to. -/
theorem fallsBackOnce_iff_of_celo (hnetwork : ∀ t, endpoint.getNetwork t = .ok network)
    (hchain : network.chainId = 42220) (api : EthereumApi) (nonBatchClient : Client)
    (hapi : Configured api nonBatchClient) :
    FallsBackOnce endpoint api ↔
      probeInvalid endpoint network.chainId api.client.transport = false := by
  have htransport : (prepared network api).client.transport = api.client.transport := by
    obtain ⟨_, hconfigured, hsize⟩ := prepared_celo hchain api.batchSize api hapi.overHttp
    rw [hconfigured.bySize, hsize, hapi.bySize]
  cases hanswer : probeInvalid endpoint network.chainId api.client.transport with
  | false =>
    obtain ⟨result, hdone, -⟩ := initProbes_valid (prepared network api)
      (by rw [htransport, hanswer])
    have hfirst := initEntry_eq hnetwork api hapi.fresh.1
    exact iff_of_true (fallsBackOnce_of_done api result (hfirst.trans hdone)) rfl
  | true =>
    refine iff_of_false ?_ (by simp)
    rw [hapi.bySize] at hanswer
    have hstep := initEntry_celo_again hnetwork hchain api.batchSize hanswer
    obtain ⟨next, hfirst, hnext⟩ := hstep api hapi.overHttp
    obtain ⟨third, hsecond, -⟩ := hstep next hnext
    exact not_fallsBackOnce api next third hfirst hsecond

/-- It calls itself without end. -/
theorem init_celo_never_settles (hnetwork : ∀ t, endpoint.getNetwork t = .ok network)
    (hchain : network.chainId = 42220) (api : EthereumApi) (nonBatchClient : Client)
    (hapi : Configured api nonBatchClient)
    (hinvalid : probeInvalid endpoint network.chainId api.client.transport = true) (entries : ℕ) :
    init endpoint entries api = none := by
  rw [hapi.bySize] at hinvalid
  exact never_done (initEntry endpoint) (OverHttp api.batchSize)
    (initEntry_celo_again hnetwork hchain api.batchSize hinvalid) api hapi.overHttp entries

/-- **When the initialisation falls back at most once.**  The endpoint is not an HTTP one, or the
first probe is not answered with an invalid response, or the chain is not Celo and the client
without batches is in use already or has its probe answered. -/
theorem init_fallsBackOnce_iff (endpoint : Endpoint) (network : Network) (protocol : String)
    (batchSize : Option ℤ) (api : EthereumApi)
    (hnew : EthereumApi.new protocol batchSize = .ok api)
    (hnetwork : ∀ t, endpoint.getNetwork t = .ok network) :
    FallsBackOnce endpoint api ↔
      api.nonBatchClient = none ∨
      probeInvalid endpoint network.chainId api.client.transport = false ∨
      (network.chainId ≠ 42220 ∧ (api.client.transport = .nonBatch ∨
        probeInvalid endpoint network.chainId .nonBatch = false)) := by
  rcases EthereumApi.new_cases hnew with ⟨nonBatchClient, hapi⟩ | ⟨hnone, hsocket, hfresh⟩
  · have hsome : api.nonBatchClient ≠ none := by simp [hapi.hasNonBatch]
    by_cases hchain : network.chainId = 42220
    · rw [fallsBackOnce_iff_of_celo hnetwork hchain api nonBatchClient hapi]
      simp [hsome, hchain]
    · rw [fallsBackOnce_iff_of_ne_celo hnetwork hchain api nonBatchClient hapi]
      simp [hsome, hchain]
  · exact iff_of_true (fallsBackOnce_webSocket hnetwork api hnone hsocket hfresh) (.inl hnone)

end Calls

/-! ### A Celo endpoint -/

/-- An endpoint that answers the request for the network, and every request by itself, but gives
no array for the probes sent as one batch. -/
def smallBatches (chainId : ℤ) : Endpoint where
  getNetwork _ := .ok { chainId, name := "celo" }
  getBlock transport _ :=
    if transport = .batch then .error { message := "Invalid response \n\"batch too large\"" }
    else .ok (some "0x19ea")

/-- On Celo the client without batches is replaced before it is asked. -/
theorem init_celo_enters_without_end :
    ∃ api, EthereumApi.new "https" none = .ok api ∧ ¬ FallsBackOnce (smallBatches 42220) api ∧
      ∀ entries, init (smallBatches 42220) entries api = none := by
  have hapi := configured_newClients
    { client := { object := 0, transport := .batch }, nonBatchClient := none, batchSize := none,
      created := 0 } false (by simp)
  have hnetwork : ∀ t, (smallBatches 42220).getNetwork t =
      .ok { chainId := 42220, name := "celo" } := fun _ => rfl
  refine ⟨_, rfl, ?_, fun entries => init_celo_never_settles hnetwork rfl _ _ hapi rfl entries⟩
  intro hfalls
  have hvalid := (fallsBackOnce_iff_of_celo hnetwork rfl _ _ hapi).mp hfalls
  exact absurd hvalid (by decide)

/-- Elsewhere it takes over. -/
theorem init_fallsBackOnce_smallBatches :
    ∃ api, EthereumApi.new "https" none = .ok api ∧ FallsBackOnce (smallBatches 1) api ∧
      (init (smallBatches 1) 2 api).any (·.api.client.transport = .nonBatch) :=
  ⟨_, rfl, (init_fallsBackOnce_iff (smallBatches 1) { chainId := 1, name := "celo" } "https" none _
    rfl fun _ => rfl).mpr (by decide),
    by decide⟩

end SubqlEthereum.ApiInit
