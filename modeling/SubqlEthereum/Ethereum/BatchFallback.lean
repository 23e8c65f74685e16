import SubqlEthereum.Ethereum.ApiInit
import SubqlEthereum.Ethers.InvalidResponses

/-!
# Initialising with an endpoint that has no batch requests

Such an endpoint answers every request sent by itself and gives no array for an array of requests.
What the clients of ethers make of these answers is `EthersClient`: `getNetwork` asks for the chain
id, then for the version of the network, and `getBlock` rejects with the error of its request.

The first request of `init` is the one for the network, and it is made before the guarded probes.
So the fallback is never reached by a client that needs it: `init_single_requests_iff`.
-/

namespace SubqlEthereum.ApiInit

open SubqlEthereum.External SubqlEthereum.JsonText SubqlEthereum.Reentry SubqlEthereum.StepSystem
open SubqlEthereum.Ethers (Request Body Settles NoBatches settles_invalid settles_alone
  invalidResponse)

/-! ### The clients over an endpoint -/

/-- How a request settles, by the transport of the client. -/
abbrev Send := Transport → String → List Json → Except JsError (Option Json)

/-- What ethers makes of the answers: the network they tell, the hash of a block, and the error of
a network that cannot be detected. -/
structure EthersClient where
  readNetwork : Option Json → Except JsError Network
  readBlock : Option Json → Except JsError (Option String)
  tag : BlockTag → Json
  noNetwork : JsError

def EthersClient.getNetwork (ethers : EthersClient) (send : Send) (transport : Transport) :
    Except JsError Network :=
  match send transport "eth_chainId" [] with
  | .ok chainId => ethers.readNetwork chainId
  | .error _ =>
    match send transport "net_version" [] with
    | .ok version => ethers.readNetwork version
    | .error _ => .error ethers.noNetwork

def EthersClient.getBlock (ethers : EthersClient) (send : Send) (transport : Transport)
    (tag : BlockTag) : Except JsError (Option String) := do
  let block ← send transport "eth_getBlockByNumber" [ethers.tag tag, .bool false]
  ethers.readBlock block

/-- The endpoint as the clients see it. -/
def EthersClient.endpoint (ethers : EthersClient) (send : Send) : Endpoint where
  getNetwork := ethers.getNetwork send
  getBlock := ethers.getBlock send

/-- An endpoint without batch requests: the requests of a batch settle as those of a batching
provider that gets no array, and those sent by themselves tell the network and its genesis block. -/
structure SingleRequestsOnly (ethers : EthersClient) (array : List Request → Body) (send : Send)
    (network : Network) : Prop where
  noBatches : NoBatches array
  batch : ∀ method params, Settles array method params (send .batch method params)
  tellsNetwork : ethers.getNetwork send .nonBatch = .ok network
  tellsGenesis : ∃ hash, ethers.getBlock send .nonBatch (genesisTag network.chainId) = .ok hash

section Initialising

variable {ethers : EthersClient} {array : List Request → Body} {send : Send} {network : Network}

/-- **The batching client never learns the network.** -/
theorem getNetwork_batch (h : SingleRequestsOnly ethers array send network) :
    ethers.getNetwork send .batch = .error ethers.noNetwork := by
  obtain ⟨_, hchainId⟩ := settles_invalid array h.noBatches _ _ _ (h.batch "eth_chainId" [])
  obtain ⟨_, hversion⟩ := settles_invalid array h.noBatches _ _ _ (h.batch "net_version" [])
  rw [EthersClient.getNetwork, hchainId]
  simp only [hversion]

/-- It makes `init` fail at once, outside the guarded probes. -/
theorem initEntry_batch (h : SingleRequestsOnly ethers array send network) (api : EthereumApi)
    (hfresh : api.client.object ∉ api.injected) (hbatch : api.client.transport = .batch) :
    ∃ left, initEntry (ethers.endpoint send) api = .done ⟨.error ethers.noNetwork, left⟩ := by
  refine ⟨{ api with injected := api.client.object :: api.injected }, ?_⟩
  rw [initEntry, injectClient, if_neg hfresh]
  simp only [EthersClient.endpoint, hbatch, getNetwork_batch h]

/-- **The client without batches** gets through, and stays. -/
theorem initEntry_nonBatch (h : SingleRequestsOnly ethers array send network)
    (hchain : network.chainId ≠ 42220) (api : EthereumApi)
    (hfresh : api.client.object ∉ api.injected) (hnonBatch : api.client.transport = .nonBatch) :
    ∃ left, initEntry (ethers.endpoint send) api = .done ⟨.ok (), left⟩ ∧
      left.client.transport = .nonBatch := by
  obtain ⟨hash, hgenesis⟩ := h.tellsGenesis
  have hprobe : ∃ genesisHash, fetchGenesisHash (ethers.endpoint send) .nonBatch network.chainId =
      .ok genesisHash := by
    have hblock : (ethers.endpoint send).getBlock .nonBatch (genesisTag network.chainId) =
      .ok hash := hgenesis
    rw [fetchGenesisHash, hblock]
    cases hash with
    | none => exact ⟨"", rfl⟩
    | some hash => exact ⟨hash, rfl⟩
  obtain ⟨genesisHash, hprobe⟩ := hprobe
  have hnetwork : (ethers.endpoint send).getNetwork .nonBatch = .ok network := h.tellsNetwork
  rw [initEntry, injectClient, if_neg hfresh]
  simp only [hnonBatch, hnetwork, if_neg hchain]
  rw [initProbes]
  simp only [hnonBatch, hprobe]
  exact ⟨_, rfl, hnonBatch⟩

/-- A first call that settles is the whole initialisation. -/
theorem init_of_done {endpoint : Endpoint} {api : EthereumApi} {result : InitResult}
    (h : initEntry endpoint api = .done result) (entries : ℕ) :
    init endpoint (entries + 1) api = some result := by
  rw [init, runFor, h]

/-- What the constructor makes for an HTTP endpoint. -/
theorem EthereumApi.new_http {protocol : String}
    (hprotocol : protocol = "https" ∨ protocol = "http") {batchSize : Option ℤ}
    {api : EthereumApi} (hnew : EthereumApi.new protocol batchSize = .ok api) :
    api.client.object ∉ api.injected ∧
      api.client.transport = selectedTransport batchSize := by
  rw [EthereumApi.new, if_pos hprotocol] at hnew
  have hconfigured := configured_newClients
    { client := { object := 0, transport := .batch }, nonBatchClient := none, batchSize,
      created := 0 } false (by simp)
  rw [← Except.ok.inj hnew]
  have hsize := applyBatchSize_newClients_batchSize
    { client := { object := 0, transport := .batch }, nonBatchClient := none, batchSize,
      created := 0 } false
  refine ⟨hconfigured.fresh.1, ?_⟩
  have hselected := hconfigured.bySize
  rw [hsize] at hselected
  exact hselected

/-- **When the fallback to single requests works.**  With an endpoint that has no batch requests,
on a chain that is not Celo, the initialisation succeeds with the client without batches exactly
when a batch size of zero or less has selected that client before. -/
theorem init_single_requests_iff (h : SingleRequestsOnly ethers array send network)
    (hchain : network.chainId ≠ 42220) (protocol : String)
    (hprotocol : protocol = "https" ∨ protocol = "http") (batchSize : Option ℤ)
    (api : EthereumApi) (hnew : EthereumApi.new protocol batchSize = .ok api) :
    (∃ entries result, init (ethers.endpoint send) entries api = some result ∧
      result.result = .ok () ∧ result.api.client.transport = .nonBatch) ↔
        ∃ size, batchSize = some size ∧ size ≤ 0 := by
  obtain ⟨hfresh, htransport⟩ := EthereumApi.new_http hprotocol hnew
  by_cases hsize : batchSize.any (· ≤ 0) = true
  · have hselected : ∃ size, batchSize = some size ∧ size ≤ 0 := by
      obtain ⟨size, hsome, hle⟩ := (Option.any_eq_true _ _).mp hsize
      exact ⟨size, hsome, of_decide_eq_true hle⟩
    rw [selectedTransport, if_pos hsize] at htransport
    obtain ⟨left, hdone, hleft⟩ := initEntry_nonBatch h hchain api hfresh htransport
    exact iff_of_true ⟨1, _, init_of_done hdone 0, rfl, hleft⟩ hselected
  · have hnot : ¬ ∃ size, batchSize = some size ∧ size ≤ 0 := by
      intro h
      obtain ⟨size, hsome, hle⟩ := h
      rw [hsome] at hsize
      exact hsize (decide_eq_true hle)
    rw [selectedTransport, if_neg hsize] at htransport
    obtain ⟨left, hdone⟩ := initEntry_batch h api hfresh htransport
    refine iff_of_false ?_ hnot
    intro h
    obtain ⟨entries, result, hinit, hok, -⟩ := h
    cases entries with
    | zero => exact absurd hinit (by simp [init, runFor])
    | succ entries =>
      rw [init_of_done hdone entries] at hinit
      rw [← Option.some.inj hinit] at hok
      exact absurd hok (by simp)

end Initialising

/-! ### An endpoint that has no batch requests -/

/-- It answers any array with one text. -/
def plainText (_ : List Request) : Body :=
  .other (.str "batch requests are not supported") (by simp)

def singleAnswers : Send
  | .batch, _, _ => .error (invalidResponse (.str "batch requests are not supported"))
  | _, "eth_chainId", _ => .ok (some (.str "0x1"))
  | _, _, _ => .ok (some (.str "0xd4e5"))

def mainnetClient : EthersClient where
  readNetwork _ := .ok { chainId := 1, name := "homestead" }
  readBlock _ := .ok (some "0xd4e5")
  tag _ := .str "earliest"
  noNetwork := { message := "could not detect network" }

theorem singleRequestsOnly_plainText :
    SingleRequestsOnly mainnetClient plainText singleAnswers
      { chainId := 1, name := "homestead" } where
  noBatches _ := ⟨_, _, rfl⟩
  batch method params := settles_alone plainText method params _ _ rfl
  tellsNetwork := rfl
  tellsGenesis := ⟨_, rfl⟩

/-- Without a batch size the client for batches asks for the network, and `init` fails. -/
theorem init_rejects_without_batches :
    ∃ api, EthereumApi.new "https" none = .ok api ∧
      SingleRequestsOnly mainnetClient plainText singleAnswers
        { chainId := 1, name := "homestead" } ∧
      ¬ ∃ entries result, init (mainnetClient.endpoint singleAnswers) entries api = some result ∧
        result.result = .ok () ∧ result.api.client.transport = .nonBatch := by
  refine ⟨_, rfl, singleRequestsOnly_plainText, ?_⟩
  intro h
  obtain ⟨entries, result, hinit, hok, -⟩ := h
  obtain ⟨left, hdone⟩ := initEntry_batch singleRequestsOnly_plainText
    { client := { object := 0, transport := .batch },
      nonBatchClient := some { object := 1, transport := .nonBatch }, batchSize := none,
      created := 2 } (by decide) rfl
  cases entries with
  | zero => exact absurd hinit (by simp [init, runFor])
  | succ entries =>
    have hsettled := (init_of_done hdone entries).symm.trans hinit
    rw [← Option.some.inj hsettled] at hok
    exact absurd hok (by simp)

/-- The sizes zero and below select the client without batches, with which `init` succeeds; a
positive size leaves the other one, with which it does not. -/
theorem init_single_requests_sizes :
    (∃ api, EthereumApi.new "https" (some 0) = .ok api ∧
      ∃ entries result, init (mainnetClient.endpoint singleAnswers) entries api = some result ∧
        result.result = .ok () ∧ result.api.client.transport = .nonBatch) ∧
    (∃ api, EthereumApi.new "http" (some (-5)) = .ok api ∧
      ∃ entries result, init (mainnetClient.endpoint singleAnswers) entries api = some result ∧
        result.result = .ok () ∧ result.api.client.transport = .nonBatch) ∧
    ∃ api, EthereumApi.new "https" (some 3) = .ok api ∧
      ¬ ∃ entries result, init (mainnetClient.endpoint singleAnswers) entries api = some result ∧
        result.result = .ok () ∧ result.api.client.transport = .nonBatch := by
  refine ⟨⟨_, rfl, ?_⟩, ⟨_, rfl, ?_⟩, ⟨_, rfl, ?_⟩⟩
  · exact (init_single_requests_iff singleRequestsOnly_plainText (by decide) "https" (.inl rfl)
      (some 0) _ rfl).mpr ⟨0, rfl, by decide⟩
  · exact (init_single_requests_iff singleRequestsOnly_plainText (by decide) "http" (.inr rfl)
      (some (-5)) _ rfl).mpr ⟨-5, rfl, by decide⟩
  · rw [init_single_requests_iff singleRequestsOnly_plainText (by decide) "https" (.inl rfl)
      (some 3) _ rfl]
    rintro ⟨size, hsize, hle⟩
    rw [← Option.some.inj hsize] at hle
    exact absurd hle (by decide)

end SubqlEthereum.ApiInit
