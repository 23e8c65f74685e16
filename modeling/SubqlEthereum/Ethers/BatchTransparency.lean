import SubqlEthereum.Ethereum.ApiConnection
import SubqlEthereum.Ethers.InvalidResponses
import SubqlEthereum.Ethers.JsonRpcProvider
import SubqlEthereum.Ethers.Quiescence
import SubqlEthereum.Ethers.Web

/-!
# Calls have the same answers with batches and without

The batching provider stands in for the provider without batches, which makes a request of its own
for every call.  The two are compared over a node whose replies do not change: `Node.outcome` says
how a call is to end, and each provider is shown to end it so, in every run in which the node
replies to what it is sent.

The providers agree in the results, and in the errors up to one difference.  The batching provider
passes the error of an entry on, whereas without batches `getResult` throws it inside of
`fetchJson`, which reports it as a response that could not be processed.
-/

namespace SubqlEthereum.Ethers.BatchTransparency

open SubqlEthereum.External SubqlEthereum.JsonText SubqlEthereum.StepSystem
open SubqlEthereum.Promises SubqlEthereum.Batches SubqlEthereum.LastEntry
open SubqlEthereum.Ethers.Unbatched (cachedMethods unbatched)

/-! ### How calls are to end -/

/-- A method with its parameters. -/
abbrev Call := String × List Json

/-- A node whose replies do not change.  Methods whose reply a provider may keep have no
parameters that matter. -/
structure Node where
  reply : Call → Except RpcError (Option Json)
  kept : ∀ method ∈ cachedMethods, ∀ params, reply (method, params) = reply (method, [])

/-- The entry of a response for a request. -/
def Node.entry (node : Node) (request : Request) : RpcResult :=
  match node.reply (request.method, request.params) with
  | .ok result => { id := some request.id, result }
  | .error error => { id := some request.id, error := some error }

def Node.outcome (node : Node) (call : Call) : Outcome (Option Json) JsError :=
  match node.reply call with
  | .ok result => .resolved result
  | .error error => .rejected (payloadError error)

theorem entry_id (node : Node) (request : Request) :
    (node.entry request).id = some (request.id : ℤ) := by
  rw [Node.entry]
  cases node.reply (request.method, request.params) <;> rfl

theorem payloadOutcome_entry (node : Node) (request : Request) :
    payloadOutcome request (some (node.entry request)) =
      node.outcome (request.method, request.params) := by
  rw [Node.entry, Node.outcome]
  cases node.reply (request.method, request.params) <;> rfl

theorem outcome_kept (node : Node) {method : String} (hmethod : method ∈ cachedMethods)
    (params params' : List Json) :
    node.outcome (method, params) = node.outcome (method, params') := by
  rw [Node.outcome, Node.outcome, node.kept method hmethod params, node.kept method hmethod params']

/-! ### With batches -/

section Batched

variable (node : Node)

/-- The node has replied to every request of a batch: there is an entry for it, and the entries
with its id are no other ones. -/
def Node.Answers (batch : List InflightRequest) (result : List RpcResult) : Prop :=
  ∀ inflight ∈ batch, node.entry inflight.request ∈ result ∧
    ∀ payload ∈ result, payload.id = some (inflight.request.id : ℤ) →
      payload = node.entry inflight.request

/-- The batches that are answered are answered by the node, in any order. -/
def Node.Batched (w : World) : Action → Prop
  | .answer i answer => ∀ batch, w.dispatched[i]? = some batch →
      ∃ result, answer = .response (.array result) ∧ node.Answers batch result
  | _ => True

/-- The calls an action makes. -/
def calls : Action → List Call
  | .send method params => [(method, params)]
  | _ => []

variable {node}

theorem resultMap_answers {batch : List InflightRequest} {result : List RpcResult}
    (h : node.Answers batch result) (inflight : InflightRequest) (hinflight : inflight ∈ batch) :
    resultMap result (some inflight.request.id) = some (node.entry inflight.request) := by
  obtain ⟨hentry, hother⟩ := h inflight hinflight
  rw [resultMap_eq]
  cases hfound : insertAll RpcResult.id result (some (inflight.request.id : ℤ)) with
  | none =>
    have hnone := (insertAll_eq_none_iff _ result _).mp hfound _ hentry
    exact absurd (entry_id node inflight.request) hnone
  | some payload =>
    obtain ⟨front, back, hsplit, hid, -⟩ := (insertAll_eq_some_iff _ result _ payload).mp hfound
    rw [hother payload (by rw [hsplit]; simp) hid]

/-- The answer of an endpoint that limits the rate holds no entry for a request. -/
theorem not_singleNullId {batch : List InflightRequest} {result : List RpcResult}
    (h : node.Answers batch result) (inflight : InflightRequest) (hinflight : inflight ∈ batch) :
    ¬ SingleNullId result := by
  rintro ⟨payload, rfl, hid⟩
  have hsame := List.mem_singleton.mp (h inflight hinflight).1
  rw [← hsame, entry_id] at hid
  exact absurd hid (by simp)

theorem answerOutcome_answers {batch : List InflightRequest} {result : List RpcResult}
    (h : node.Answers batch result) (inflight : InflightRequest) (hinflight : inflight ∈ batch) :
    answerOutcome (.response (.array result)) inflight.request =
      node.outcome (inflight.request.method, inflight.request.params) := by
  rw [answerOutcome_array result (not_singleNullId h inflight hinflight),
    resultMap_answers h inflight hinflight, payloadOutcome_entry]

/-! #### The chain id that is kept -/

theorem adjustBatchSize_chainIdCache (w : World) (success : Bool) :
    (w.adjustBatchSize success).provider.chainIdCache = w.provider.chainIdCache := by
  rw [World.adjustBatchSize, JsonRpcBatchProvider.adjustBatchSize]
  split_ifs <;> rfl

theorem cachedChainId_eq_some (result : Option Json) (chainId : Json)
    (h : cachedChainId result = some chainId) : result = some chainId := by
  unfold cachedChainId at h
  split at h
  · exact absurd h (by simp)
  · exact h

/-- A chain id that is kept after an entry was kept before, or is the result of that entry. -/
theorem settlePayload_chainIdCache (result : List RpcResult) (w : World)
    (inflight : InflightRequest) (chainId : Json)
    (h : (w.settlePayload result inflight).provider.chainIdCache = some chainId) :
    w.provider.chainIdCache = some chainId ∨
      inflight.request.method = "eth_chainId" ∧ ∃ payload,
        resultMap result (some inflight.request.id) = some payload ∧ payload.error = none ∧
          payload.result = some chainId := by
  rw [World.settlePayload] at h
  cases hfound : resultMap result (some inflight.request.id) with
  | none =>
    rw [hfound] at h
    exact .inl h
  | some payload =>
    simp only [hfound] at h
    cases herror : payload.error with
    | some error =>
      simp only [herror] at h
      left
      split_ifs at h
      · rw [← adjustBatchSize_chainIdCache w false]
        exact h
      · exact h
    | none =>
      simp only [herror] at h
      split_ifs at h with hmethod
      · exact .inr ⟨hmethod, payload, rfl, herror, cachedChainId_eq_some _ _ h⟩
      · exact .inl h

theorem settleLoop_chainIdCache (result : List RpcResult) (batch : List InflightRequest)
    (chainId : Json) : ∀ w : World,
      (batch.foldl (World.settlePayload result) w).provider.chainIdCache = some chainId →
      w.provider.chainIdCache = some chainId ∨
        ∃ inflight ∈ batch, inflight.request.method = "eth_chainId" ∧ ∃ payload,
          resultMap result (some inflight.request.id) = some payload ∧ payload.error = none ∧
            payload.result = some chainId := by
  induction batch with
  | nil => exact fun w h => .inl h
  | cons inflight rest ih =>
    intro w h
    rw [List.foldl_cons] at h
    rcases ih _ h with hfirst | ⟨other, hother, hkept⟩
    · rcases settlePayload_chainIdCache result w inflight chainId hfirst with hold | hkept
      · exact .inl hold
      · exact .inr ⟨inflight, List.mem_cons_self, hkept⟩
    · exact .inr ⟨other, List.mem_cons_of_mem inflight hother, hkept⟩

/-- The chain id that is kept after an answer of the node is the reply of the node. -/
theorem answer_chainIdCache (w : World) (batch : List InflightRequest) (result : List RpcResult)
    (hanswers : node.Answers batch result) (chainId : Json)
    (h : (w.answer batch (.response (.array result))).provider.chainIdCache = some chainId) :
    w.provider.chainIdCache = some chainId ∨
      ∃ params, node.outcome ("eth_chainId", params) = .resolved (some chainId) := by
  by_cases hsingle : SingleNullId result
  · left
    obtain ⟨⟨id, value, error⟩, rfl, hid⟩ := hsingle
    obtain rfl : id = none := hid
    have hrejected :
        ((w.rejectAll batch { message := (error.map (·.message)).getD "" }).adjustBatchSize
          false).provider.chainIdCache = some chainId := h
    rw [adjustBatchSize_chainIdCache, rejectAll_chainIdCache] at hrejected
    exact hrejected
  · rw [World.answer, respond_array w batch result hsingle] at h
    simp only [adjustBatchSize_chainIdCache] at h
    rcases settleLoop_chainIdCache result batch chainId w h with
      hold | ⟨inflight, hinflight, hmethod, payload, hpayload, herror, hresult⟩
    · exact .inl hold
    · right
      refine ⟨inflight.request.params, ?_⟩
      rw [← hmethod, ← payloadOutcome_entry, ← resultMap_answers hanswers inflight hinflight,
        hpayload]
      simp only [payloadOutcome, herror, hresult]

/-! #### The invariant -/

variable (node)

/-- The promises are those of the calls, in order; the settled ones are settled as they should be,
and a chain id that is kept is that of the node. -/
structure Correct (record : List Call) (w : World) : Prop where
  length : w.promises.length = record.length
  created : ∀ inflight ∈ w.created,
    record[inflight.promise]? = some (inflight.request.method, inflight.request.params)
  settled : ∀ (n : ℕ) outcome, w.promises[n]? = some (some outcome) →
    ∃ call, record[n]? = some call ∧ outcome = node.outcome call
  chainId : ∀ chainId, w.provider.chainIdCache = some chainId →
    ∃ params, node.outcome ("eth_chainId", params) = .resolved (some chainId)

variable {node}

/-- Steps that leave the promises alone. -/
theorem Correct.same {record : List Call} {w w' : World} (h : Correct node record w)
    (hpromises : w'.promises = w.promises) (hcreated : w'.created = w.created)
    (hcache : w'.provider.chainIdCache = w.provider.chainIdCache) : Correct node record w' where
  length := by
    rw [hpromises]
    exact h.length
  created := by
    rw [hcreated]
    exact h.created
  settled := by
    rw [hpromises]
    exact h.settled
  chainId := by
    rw [hcache]
    exact h.chainId

theorem Correct.fire {record : List Call} {w : World} (h : Correct node record w) (timer : ℕ) :
    Correct node record (w.fire timer) :=
  h.same rfl rfl rfl

theorem Correct.flush {record : List Call} {w : World} (h : Correct node record w) :
    Correct node record w.flush := by
  rcases flush_cases w with hflush | ⟨timer, -, hflush⟩
  · rw [hflush]
    exact h
  · rw [hflush]
    exact h.fire timer

/-- The record grows by a call whose promise is new. -/
theorem Correct.concat {record : List Call} {w : World} (h : Correct node record w) (call : Call)
    (state : Option (Outcome (Option Json) JsError))
    (hstate : ∀ outcome, state = some outcome → outcome = node.outcome call) :
    (w.promises ++ [state]).length = (record ++ [call]).length ∧
    (∀ inflight ∈ w.created, (record ++ [call])[inflight.promise]? =
      some (inflight.request.method, inflight.request.params)) ∧
    ∀ (n : ℕ) outcome, (w.promises ++ [state])[n]? = some (some outcome) →
      ∃ call', (record ++ [call])[n]? = some call' ∧ outcome = node.outcome call' := by
  refine ⟨?_, ?_, ?_⟩
  · rw [List.length_append, List.length_append, h.length]
    rfl
  · intro inflight hinflight
    have hold := h.created inflight hinflight
    rw [List.getElem?_append_left (List.getElem?_eq_some_iff.mp hold).1, hold]
  · intro n outcome hn
    rcases Nat.lt_trichotomy n w.promises.length with hlt | heq | hgt
    · rw [List.getElem?_append_left hlt] at hn
      rw [List.getElem?_append_left (by rw [← h.length]; exact hlt)]
      exact h.settled n outcome hn
    · rw [heq, List.getElem?_concat_length] at hn
      refine ⟨call, ?_, hstate outcome (Option.some.inj hn)⟩
      rw [heq, h.length, List.getElem?_concat_length]
    · rw [List.getElem?_eq_none (by simp; omega)] at hn
      exact absurd hn (by simp)

theorem Correct.enqueue {record : List Call} {w : World} (h : Correct node record w)
    (method : String) (params : List Json) :
    Correct node (record ++ [(method, params)]) (w.enqueue method params) := by
  obtain ⟨hlength, hcreated, hsettled⟩ :=
    h.concat (method, params) none fun outcome hnone => absurd hnone (by simp)
  refine ⟨hlength, ?_, hsettled, h.chainId⟩
  intro inflight hinflight
  rcases List.mem_append.mp hinflight with hold | hnew
  · exact hcreated inflight hold
  · rw [List.mem_singleton.mp hnew]
    show (record ++ [(method, params)])[w.promises.length]? = some (method, params)
    rw [h.length, List.getElem?_concat_length]

theorem Correct.scheduleBatch {record : List Call} {w : World} (h : Correct node record w) :
    Correct node record w.scheduleBatch := by
  rw [World.scheduleBatch]
  cases w.provider.pendingBatchAggregator with
  | some timer => exact h
  | none => exact h.same rfl rfl rfl

/-- A call is recorded, and answered from the cache only with the chain id of the node. -/
theorem Correct.send {record : List Call} {w : World} (h : Correct node record w)
    (method : String) (params : List Json) :
    Correct node (record ++ [(method, params)]) (w.send method params) := by
  rw [World.send]
  by_cases hcached : method = "eth_chainId" ∧ w.provider.chainIdCache.isSome
  · rw [if_pos hcached]
    obtain ⟨hmethod, hsome⟩ := hcached
    obtain ⟨chainId, hchainId⟩ := Option.isSome_iff_exists.mp hsome
    obtain ⟨params', hparams⟩ := h.chainId chainId hchainId
    have hstate : ∀ outcome, some (.resolved w.provider.chainIdCache) = some outcome →
        outcome = node.outcome (method, params) := by
      intro outcome hsame
      rw [← Option.some.inj hsame, hchainId, ← hparams, hmethod]
      exact outcome_kept node (by decide) params' params
    obtain ⟨hlength, hcreated, hsettled⟩ := h.concat (method, params) _ hstate
    exact ⟨hlength, hcreated, hsettled, h.chainId⟩
  · rw [if_neg hcached]
    simp only
    split_ifs
    · exact (h.enqueue method params).scheduleBatch.flush
    · exact (h.enqueue method params).scheduleBatch

/-- **An answer of the node** settles the promises of its batch as they should be. -/
theorem Correct.answer {record : List Call} {w : World} (h : Correct node record w)
    (haccounted : w.requests.Accounted) (hpromised : w.Promised) (i : ℕ)
    (batch : List InflightRequest) (hbatch : w.dispatched[i]? = some batch)
    (hi : i ∈ w.outstanding) (result : List RpcResult) (hanswers : node.Answers batch result) :
    Correct node record
      ({ w with outstanding := w.outstanding.erase i }.answer batch
        (.response (.array result))) := by
  have hdistinct := batch_nodup (·.promise) _ _
    (World.Promised.keys w haccounted hpromised) batch (List.mem_of_getElem? hbatch)
  have hplaced : w.dispatched.flatten ++ w.provider.pendingBatch.getD [] = w.created :=
    haccounted.placed
  have hcreated : ∀ inflight ∈ batch, inflight ∈ w.created := by
    intro inflight hinflight
    rw [← hplaced, List.mem_append]
    exact .inl (List.mem_flatten.mpr ⟨batch, List.mem_of_getElem? hbatch, hinflight⟩)
  have hrequests := answer_requests { w with outstanding := w.outstanding.erase i } batch
    (.response (.array result))
  constructor
  case length =>
    rw [answer_length]
    exact h.length
  case created =>
    have hsame : ({ w with outstanding := w.outstanding.erase i }.answer batch
        (.response (.array result))).created = w.created :=
      congrArg Requests.created hrequests
    rw [hsame]
    exact h.created
  case settled =>
    intro n outcome hn
    by_cases hmine : ∃ inflight ∈ batch, inflight.promise = n
    · obtain ⟨inflight, hinflight, rfl⟩ := hmine
      have hsettles := answer_settles { w with outstanding := w.outstanding.erase i } batch
        (.response (.array result)) hdistinct inflight hinflight
        (hpromised.unanswered i hi batch hbatch inflight hinflight)
      rw [hsettles] at hn
      refine ⟨_, h.created inflight (hcreated inflight hinflight), ?_⟩
      rw [← Option.some.inj (Option.some.inj hn), answerOutcome_answers hanswers inflight hinflight]
    · rw [answer_other _ batch _ n fun inflight hinflight heq => hmine ⟨inflight, hinflight, heq⟩]
        at hn
      exact h.settled n outcome hn
  case chainId =>
    intro chainId hchainId
    rcases answer_chainIdCache _ batch result hanswers chainId hchainId with hold | hnew
    · exact h.chainId chainId hold
    · exact hnew

/-- **The step lemma.** -/
theorem correct_step (record : List Call) (w : World) (action : Action) (w' : World)
    (h : w.requests.Accounted ∧ w.Promised ∧ Correct node record w)
    (hbatched : node.Batched w action) (hstep : step w action = some w') :
    w'.requests.Accounted ∧ w'.Promised ∧ Correct node (record ++ calls action) w' := by
  obtain ⟨haccounted, hpromised, hcorrect⟩ := h
  refine ⟨accounted_step w action w' haccounted hstep,
    promised_step w action w' haccounted hpromised hstep, ?_⟩
  cases action with
  | setBatchSize batchSize =>
    show Correct node (record ++ []) w'
    rw [← Option.some.inj hstep, List.append_nil]
    exact hcorrect.same rfl rfl rfl
  | send method params =>
    rw [← Option.some.inj hstep]
    exact hcorrect.send method params
  | flush =>
    show Correct node (record ++ []) w'
    rw [← Option.some.inj hstep, List.append_nil]
    exact hcorrect.flush
  | timer timer =>
    show Correct node (record ++ []) w'
    rw [(step_timer hstep).2, List.append_nil]
    exact hcorrect.fire timer
  | answer i answer =>
    obtain ⟨batch, hbatch, hi, hanswer⟩ := step_answer hstep
    obtain ⟨result, rfl, hanswers⟩ := hbatched batch hbatch
    show Correct node (record ++ []) w'
    rw [hanswer, List.append_nil]
    exact hcorrect.answer haccounted hpromised i batch hbatch hi result hanswers

theorem correct_run (nextId : ℕ) (actions : List Action) (w : World)
    (hrun : batching.run { provider := { nextId } } actions = some w)
    (hbatched : batching.Along node.Batched { provider := { nextId } } actions) :
    Correct node (actions.flatMap calls) w := by
  have hstart : batching.Reachable { provider := { nextId } } :=
    ⟨_, ⟨nextId, rfl⟩, Relation.ReflTransGen.refl⟩
  have hcorrect : Correct node [] { provider := { nextId } } := by
    refine ⟨rfl, fun inflight hinflight => absurd hinflight List.not_mem_nil,
      fun n outcome hn => absurd hn (by simp), fun chainId h => absurd h (by simp)⟩
  exact (record_along calls (fun record w => w.requests.Accounted ∧ w.Promised ∧
      Correct node record w) node.Batched correct_step actions [] _ w
    ⟨accounted _ hstart, promised _ hstart, hcorrect⟩ hbatched hrun).2.2

end Batched

/-! ### Without batches -/

section Single

variable (node : Node) (logger : Logger) (connection : ConnectionInfo)

-- a request as the bytes of its body, and the bytes of a response as a payload
variable (encode : Request → Bytes) (parse : Bytes → Except JsError RpcResult)

def getResult (payload : RpcResult) : Except JsError (Option Json) :=
  match payload.error with
  | some error => .error (payloadError error)
  | none => .ok payload.result

/-- What `fetchJson` makes of a body with `getResult`. -/
def processJsonFunc (value : Option Bytes) (_response : GetUrlResponse) :
    Except JsError (Option Json) :=
  match value with
  | some value => do
    let payload ← parse value
    getResult payload
  | none =>
    .error { name := "TypeError", message := "Cannot read properties of null (reading 'error')" }

def fetchJson (request : Request) (server : Server) : Except JsError (Option Json) :=
  fetchData logger connection (some (encode request)) (processJsonFunc parse) server none

/-- How the promise of an asynchronous function ends. -/
def ending {α : Type} : Except JsError α → Outcome α JsError
  | .ok value => .resolved value
  | .error e => .rejected e

/-- A server that answers with a payload, after it has limited the rate of some attempts. -/
def Delivers (payload : RpcResult) (server : Server) : Prop :=
  ∃ attempt response bytes, attempt < connection.attemptLimit.toNat ∧
    Throttles server attempt connection.url ∧ server attempt connection.url = .ok response ∧
    200 ≤ response.statusCode ∧ response.statusCode < 300 ∧ response.body = some bytes ∧
    parse bytes = .ok payload

/-- The requests that are answered are answered by the node. -/
def Node.Single (w : Unbatched.World) : Unbatched.Action → Prop
  | .answer i outcome => ∀ inflight, w.fetches[i]? = some inflight → ∃ server,
      Delivers connection parse (node.entry inflight.request) server ∧
        outcome = ending (fetchJson logger connection encode parse inflight.request server)
  | _ => True

/-- The outcome a call has without batches: an error is reported as one in the processing of the
response. -/
inductive Reports : Outcome (Option Json) JsError → Outcome (Option Json) JsError → Prop
  | resolved (value : Option Json) : Reports (.resolved value) (.resolved value)
  | rejected (e : JsError) (params : List (String × Json))
      (herror : params.lookup "error" = some (errorJson e)) :
      Reports (.rejected e)
        (.rejected (logger.makeError "processing response error" SERVER_ERROR params))

/-! #### A fetch -/

theorem tryAttempt_again (options : Options) (server : Server) (attemptLimit attempt : ℕ)
    (url : String) (response : GetUrlResponse) (hcallback : connection.throttleCallback = none)
    (hresponse : server attempt url = .ok response) (hstatus : response.statusCode = 429)
    (hmore : attempt + 1 ≠ attemptLimit) :
    tryAttempt connection options server attemptLimit attempt url = .ok (.again url) := by
  have hredirect : ¬ (response.statusCode = 301 ∨ response.statusCode = 302) := by omega
  rw [tryAttempt, hresponse]
  show (if response.statusCode = 301 ∨ response.statusCode = 302 then _ else _) = _
  rw [if_neg hredirect, if_pos hstatus, if_neg hmore, ConnectionInfo.tryAgain, hcallback]
  rfl

theorem tryAttempt_answered (options : Options) (server : Server) (attemptLimit attempt : ℕ)
    (url : String) (response : GetUrlResponse) (hresponse : server attempt url = .ok response)
    (hlow : 200 ≤ response.statusCode) (hhigh : response.statusCode < 300) :
    tryAttempt connection options server attemptLimit attempt url =
      .ok (.answered response) := by
  have hredirect : ¬ (response.statusCode = 301 ∨ response.statusCode = 302) := by omega
  have hlimited : ¬ response.statusCode = 429 := by omega
  rw [tryAttempt, hresponse]
  show (if response.statusCode = 301 ∨ response.statusCode = 302 then _ else _) = _
  rw [if_neg hredirect, if_neg hlimited]
  rfl

/-- **A fetch goes on while the rate is limited**, and ends with what is made of the answer. -/
theorem runningFetch_delivers {α : Type} (options : Options) (server : Server)
    (processFunc : Option Bytes → GetUrlResponse → Except JsError α) (attemptLimit last : ℕ)
    (url : String) (response : GetUrlResponse) (hcallback : connection.throttleCallback = none)
    (hthrottles : Throttles server last url) (hresponse : server last url = .ok response)
    (hlow : 200 ≤ response.statusCode) (hhigh : response.statusCode < 300)
    (hlast : last < attemptLimit)
    (hretry : ∀ e, processFunc response.body response = .error e →
      JsError.throttleRetry e = false) :
    ∀ wait attempt left, attempt + wait = last → attempt + left = attemptLimit →
      runningFetch logger connection options server processFunc attemptLimit left attempt url =
        (processFunc response.body response).mapError
          (processingError logger options url response response.body) := by
  intro wait
  induction wait with
  | zero =>
    intro attempt left hattempt hleft
    obtain ⟨left, rfl⟩ : ∃ more, left = more + 1 := ⟨left - 1, by omega⟩
    obtain rfl : attempt = last := by omega
    have hnot : ¬ (connection.allow304 = true ∧ response.statusCode = 304) := by omega
    have hok : ¬ (¬ (connection.allow304 = true ∧ response.statusCode = 304) ∧
        connection.errorPassThrough = false ∧
          (response.statusCode < 200 ∨ 300 ≤ response.statusCode)) := by omega
    rw [runningFetch, tryAttempt_answered connection options server attemptLimit attempt url
      response hresponse hlow hhigh]
    simp only [if_neg hok, if_neg hnot]
    cases hresult : processFunc response.body response with
    | ok result => rfl
    | error e =>
      simp only [hretry e hresult]
      rfl
  | succ wait ih =>
    intro attempt left hattempt hleft
    obtain ⟨left, rfl⟩ : ∃ more, left = more + 1 := ⟨left - 1, by omega⟩
    obtain ⟨limited, hlimited, hstatus⟩ := hthrottles attempt (by omega)
    rw [runningFetch, tryAttempt_again connection options server attemptLimit attempt url limited
      hcallback hlimited hstatus (by omega)]
    exact ih (attempt + 1) left (by omega) (by omega)

theorem payloadError_throttleRetry (error : RpcError) :
    JsError.throttleRetry (payloadError error) = false := by
  rw [JsError.throttleRetry, JsError.get, payloadError]
  cases error.data <;> rfl

/-- **The fetch of a request** ends as the node replies, but for how an error is reported. -/
theorem fetchJson_delivers (node : Node) (request : Request) (server : Server)
    (hslot : 0 < connection.slotInterval) (hcallback : connection.throttleCallback = none)
    (hdelivers : Delivers connection parse (node.entry request) server) :
    Reports logger (node.outcome (request.method, request.params))
      (ending (fetchJson logger connection encode parse request server)) := by
  obtain ⟨last, response, bytes, hlast, hthrottles, hresponse, hlow, hhigh, hbody, hparse⟩ :=
    hdelivers
  have hprocess :
      processJsonFunc parse response.body response = getResult (node.entry request) := by
    rw [hbody]
    show parse bytes >>= getResult = _
    rw [hparse]
    rfl
  have hretry : ∀ e, processJsonFunc parse response.body response = .error e →
      JsError.throttleRetry e = false := by
    intro e he
    rw [hprocess, getResult] at he
    cases herror : (node.entry request).error with
    | none =>
      rw [herror] at he
      exact absurd he (by simp)
    | some error =>
      rw [herror] at he
      rw [← Except.error.inj he]
      exact payloadError_throttleRetry error
  have hfetch := runningFetch_delivers logger connection (connection.options logger
    (some (encode request))) server (processJsonFunc parse) connection.attemptLimit.toNat last
    connection.url response hcallback hthrottles hresponse hlow hhigh hlast hretry last 0
    connection.attemptLimit.toNat (by omega) (by omega)
  rw [fetchJson, fetchData, if_neg (by omega), if_neg (by omega)]
  show Reports logger _ (ending (runningFetch _ _ _ _ _ _ _ _ _))
  rw [hfetch, hprocess, getResult, Node.entry, Node.outcome]
  cases node.reply (request.method, request.params) with
  | ok result => exact .resolved result
  | error error => exact .rejected (payloadError error) _ rfl

/-! #### The invariant -/

/-- The calls an action makes. -/
def singleCalls : Unbatched.Action → List Call
  | .send method params => [(method, params)]
  | _ => []

/-- How the call of a number has ended. -/
def answerOf (w : Unbatched.World) (n : ℕ) : Option (Outcome (Option Json) JsError) := do
  let c ← w.calls[n]?
  (w.promises[c.promise]?).join

structure Told (record : List Call) (w : Unbatched.World) : Prop where
  recorded : w.calls.map (fun c => (c.method, c.params)) = record
  settled : ∀ inflight ∈ w.fetches, ∀ outcome, w.promises[inflight.promise]? = some (some outcome) →
    Reports logger (node.outcome (inflight.request.method, inflight.request.params)) outcome

variable {node logger}

theorem Told.fetch {record : List Call} {w : Unbatched.World} (h : Told node logger record w)
    (hw : w.Answered) (method : String) (params : List Json) (id : ℕ) :
    Told node logger (record ++ [(method, params)]) (w.fetch method params id) where
  recorded := by
    show (w.calls ++ [_]).map _ = _
    rw [List.map_append, h.recorded]
    rfl
  settled := by
    intro inflight hin outcome houtcome
    have houtcome : (w.promises ++ [none])[inflight.promise]? = some (some outcome) := houtcome
    rcases List.mem_append.mp hin with hold | hnew
    · rw [List.getElem?_append_left (hw.below inflight hold)] at houtcome
      exact h.settled inflight hold outcome houtcome
    · rw [List.mem_singleton.mp hnew, List.getElem?_concat_length] at houtcome
      exact absurd houtcome (by simp)

theorem Told.send {record : List Call} {w : Unbatched.World} (h : Told node logger record w)
    (hw : w.Answered) (method : String) (params : List Json) :
    Told node logger (record ++ [(method, params)]) (w.send method params) := by
  have hnext : Told node logger record { w with nextId := w.nextId + 1 } :=
    ⟨h.recorded, h.settled⟩
  have hanswered : Unbatched.World.Answered { w with nextId := w.nextId + 1 } :=
    ⟨fun inflight hin => Nat.lt_succ_of_lt (hw.ids_below inflight hin), hw.ids_nodup, hw.below,
      hw.distinct, hw.kept, hw.served, hw.outstanding_nodup, hw.outstanding_below, hw.unsettled⟩
  have hfetch := hnext.fetch hanswered method params w.nextId
  rcases Unbatched.send_cases w method params with ⟨promise, -, -, hsend⟩ | ⟨-, -, hsend⟩ |
    ⟨-, hsend⟩
  · rw [hsend]
    refine ⟨?_, h.settled⟩
    show (w.calls ++ [_]).map _ = _
    rw [List.map_append, h.recorded]
    rfl
  · rw [hsend]
    exact ⟨hfetch.recorded, hfetch.settled⟩
  · rw [hsend]
    exact hfetch

/-- **An answer of the node** settles the promise of its request only. -/
theorem Told.answer {record : List Call} {w : Unbatched.World} (h : Told node logger record w)
    (hw : w.Answered) (i : ℕ) (inflight : InflightRequest) (hi : w.fetches[i]? = some inflight)
    (hout : i ∈ w.outstanding) (outcome : Outcome (Option Json) JsError)
    (hreports : Reports logger
      (node.outcome (inflight.request.method, inflight.request.params)) outcome) :
    Told node logger record (w.answer i inflight outcome) where
  recorded := h.recorded
  settled := by
    intro other hother found hfound
    have hfound : (settle w.promises inflight.promise outcome)[other.promise]? =
      some (some found) := hfound
    rw [settle_get] at hfound
    by_cases hsame : inflight.promise = other.promise
    · obtain rfl : inflight = other :=
        List.inj_on_of_nodup_map hw.distinct (List.mem_of_getElem? hi) hother hsame
      rw [(hw.unsettled i inflight hi).mpr hout] at hfound
      have hnew : outcome = found := by simpa using hfound
      rw [← hnew]
      exact hreports
    · simp only [if_neg hsame, Option.map_id'] at hfound
      exact h.settled other hother found hfound

theorem told_step (hslot : 0 < connection.slotInterval)
    (hcallback : connection.throttleCallback = none) (record : List Call) (w : Unbatched.World)
    (action : Unbatched.Action) (w' : Unbatched.World)
    (h : (w.Timed ∧ w.Shared ∧ w.Answered) ∧ Told node logger record w)
    (hsingle : node.Single logger connection encode parse w action)
    (hstep : Unbatched.step w action = some w') :
    (w'.Timed ∧ w'.Shared ∧ w'.Answered) ∧
      Told node logger (record ++ singleCalls action) w' := by
  obtain ⟨⟨htimed, hshared, hanswered⟩, htold⟩ := h
  refine ⟨⟨Unbatched.timed_step w action w' htimed hstep,
    Unbatched.shared_step w action w' hshared htimed hstep,
    Unbatched.answered_step w action w' hanswered hstep⟩, ?_⟩
  rcases Unbatched.step_cases w action w' hstep with
    ⟨method, params, rfl, h⟩ | ⟨method, rfl, -, h⟩ | ⟨i, inflight, outcome, rfl, hi, hout, h⟩
  · rw [h]
    exact htold.send hanswered method params
  · show Told node logger (record ++ []) w'
    rw [h, List.append_nil]
    exact ⟨htold.recorded, htold.settled⟩
  · show Told node logger (record ++ []) w'
    obtain ⟨server, hdelivers, rfl⟩ := hsingle inflight hi
    rw [h, List.append_nil]
    exact htold.answer hanswered i inflight hi hout _
      (fetchJson_delivers logger connection encode parse node inflight.request server hslot
        hcallback hdelivers)

theorem told_run (hslot : 0 < connection.slotInterval)
    (hcallback : connection.throttleCallback = none) (nextId : ℕ)
    (actions : List Unbatched.Action) (w : Unbatched.World)
    (hrun : unbatched.run { nextId } actions = some w)
    (hsingle : unbatched.Along (node.Single logger connection encode parse) { nextId } actions) :
    w.Answered ∧ Told node logger (actions.flatMap singleCalls) w := by
  have hstart := Unbatched.sound { nextId } ⟨_, ⟨nextId, rfl⟩, Relation.ReflTransGen.refl⟩
  have htold : Told node logger [] { nextId } :=
    ⟨rfl, fun inflight hin => absurd hin List.not_mem_nil⟩
  have hend := record_along singleCalls (fun record (w : Unbatched.World) =>
      (w.Timed ∧ w.Shared ∧ w.Answered) ∧ Told node logger record w)
    (node.Single logger connection encode parse)
    (told_step connection encode parse hslot hcallback) actions [] _ w ⟨hstart, htold⟩ hsingle hrun
  exact ⟨hend.1.2.2, hend.2⟩

/-- Each call is served by a request that the node replies to in the same way. -/
theorem call_served {record : List Call} {w : Unbatched.World} (h : Told node logger record w)
    (hw : w.Answered) (n : ℕ) (call : Call) (hn : record[n]? = some call) :
    ∃ (i : ℕ) (inflight : InflightRequest), w.fetches[i]? = some inflight ∧
      answerOf w n = (w.promises[inflight.promise]?).join ∧
      node.outcome (inflight.request.method, inflight.request.params) = node.outcome call := by
  rw [← h.recorded, List.getElem?_map] at hn
  obtain ⟨c, hc, rfl⟩ := Option.map_eq_some_iff.mp hn
  obtain ⟨inflight, hin, hpromise, hmethod, hparams⟩ := hw.served c (List.mem_of_getElem? hc)
  obtain ⟨i, hi⟩ := List.mem_iff_getElem?.mp hin
  refine ⟨i, inflight, hi, ?_, ?_⟩
  · rw [answerOf, hc, hpromise]
    rfl
  · rw [hmethod]
    by_cases hcached : c.method ∈ cachedMethods
    · exact outcome_kept node hcached inflight.request.params c.params
    · rw [hparams hcached]

end Single

/-! ### The providers agree -/

/-- **Calls are answered alike with batches and without.**  Take any run of the batching provider
and any run of the provider without batches with the same calls, in both of which the node replies
to what it is sent, in whatever batches and whatever order.  With batches every call ends as the
node replies; without them it ends the same way, but for how an error is reported; and when
nothing is under way every call has ended. -/
theorem batching_unobservable (node : Node) (logger : Logger) (connection : ConnectionInfo)
    (encode : Request → Bytes) (parse : Bytes → Except JsError RpcResult)
    (hslot : 0 < connection.slotInterval) (hcallback : connection.throttleCallback = none)
    (nextId nextId' : ℕ) (batched : List Action) (single : List Unbatched.Action) (w : World)
    (w' : Unbatched.World)
    (hrun : batching.run { provider := { nextId } } batched = some w)
    (hbatched : batching.Along node.Batched { provider := { nextId } } batched)
    (hrun' : unbatched.run { nextId := nextId' } single = some w')
    (hsingle : unbatched.Along (node.Single logger connection encode parse) { nextId := nextId' }
      single)
    (hcalls : batched.flatMap calls = single.flatMap singleCalls) (n : ℕ) (call : Call)
    (hn : (batched.flatMap calls)[n]? = some call) :
    (∀ outcome, w.promises[n]? = some (some outcome) → outcome = node.outcome call) ∧
    (∀ outcome, answerOf w' n = some outcome → Reports logger (node.outcome call) outcome) ∧
    (w.timers = [] → w.outstanding = [] → w.promises[n]? = some (some (node.outcome call))) ∧
    (w'.outstanding = [] → ∃ outcome, answerOf w' n = some outcome) := by
  have hcorrect := correct_run nextId batched w hrun hbatched
  obtain ⟨hanswered, htold⟩ := told_run connection encode parse hslot hcallback nextId' single w'
    hrun' hsingle
  rw [← hcalls] at htold
  obtain ⟨i, inflight, hi, hanswer, hsame⟩ := call_served htold hanswered n call hn
  have hbatchedOutcome : ∀ outcome, w.promises[n]? = some (some outcome) →
      outcome = node.outcome call := by
    intro outcome houtcome
    obtain ⟨call', hcall', heq⟩ := hcorrect.settled n outcome houtcome
    rw [hn] at hcall'
    rw [heq, Option.some.inj hcall']
  refine ⟨hbatchedOutcome, ?_, ?_, ?_⟩
  · intro outcome houtcome
    rw [hanswer, Option.join_eq_some_iff] at houtcome
    rw [← hsame]
    exact htold.settled inflight (List.mem_of_getElem? hi) outcome houtcome
  · intro htimers hout
    have hreachable : batching.Reachable w :=
      ⟨_, ⟨nextId, rfl⟩, leads_of_run batched _ w hrun⟩
    have hsettled := (settled_iff w hreachable).mpr ⟨htimers, hout⟩ n
    have hlt : n < w.promises.length := by
      rw [hcorrect.length]
      exact (List.getElem?_eq_some_iff.mp hn).1
    cases hstate : w.promises[n] with
    | none =>
      rw [List.getElem?_eq_getElem hlt, hstate] at hsettled
      exact absurd rfl hsettled
    | some outcome =>
      have hget : w.promises[n]? = some (some outcome) := by
        rw [List.getElem?_eq_getElem hlt, hstate]
      rw [hget, hbatchedOutcome outcome hget]
  · intro hout
    have hlt := hanswered.below inflight (List.mem_of_getElem? hi)
    have hunsettled := hanswered.unsettled i inflight hi
    rw [List.getElem?_eq_getElem hlt] at hanswer hunsettled
    cases hstate : w'.promises[inflight.promise] with
    | none =>
      rw [hstate, hout] at hunsettled
      exact absurd (hunsettled.mp rfl) List.not_mem_nil
    | some outcome =>
      refine ⟨outcome, ?_⟩
      rw [hanswer, hstate]
      rfl

/-- A node with a chain id, where calls of contracts revert. -/
def revertingNode : Node where
  reply call :=
    if call.1 = "eth_call" then .error { code := -32000, message := "execution reverted" }
    else .ok (some (.str "0x1"))
  kept := by
    intro method hmethod params
    rfl

def chainIdRequest : Request := ⟨"eth_chainId", [], 42⟩

def callRequest : Request := ⟨"eth_call", [], 43⟩

/-- The texts of its two replies. -/
def parseReply (bytes : Bytes) : Except JsError RpcResult :=
  .ok (revertingNode.entry (if bytes = [43] then callRequest else chainIdRequest))

/-- An endpoint that limits the rate of the first attempt. -/
def limitingServer (request : Request) : Server := fun attempt _ =>
  if attempt = 0 then .ok { statusCode := 429 }
  else .ok { statusCode := 200, body := some [request.id.toUInt8] }

def revertingConnection : ConnectionInfo where
  url := "https://rpc"
  throttleLimit := some 5
  throttleSlotInterval := some 1

def revertingFetch (request : Request) : Outcome (Option Json) JsError :=
  ending (fetchJson Ethereum.sampleLogger revertingConnection (fun _ => []) parseReply request
    (limitingServer request))

/-- The chain id, a call that reverts, and the chain id again, which is kept: the first two are in
one batch, answered in the other order. -/
def batchedActions : List Action :=
  [.setBatchSize 2, .send "eth_chainId" [], .send "eth_call" [], .timer 0,
    .answer 0 (.response (.array [revertingNode.entry callRequest,
      revertingNode.entry chainIdRequest])), .send "eth_chainId" []]

def singleActions : List Unbatched.Action :=
  [.send "eth_chainId" [], .send "eth_call" [], .answer 1 (revertingFetch callRequest),
    .answer 0 (revertingFetch chainIdRequest), .send "eth_chainId" []]

theorem batchedActions_batched :
    batching.Along revertingNode.Batched { provider := { nextId := 42 } } batchedActions := by
  refine along_cons _ rfl trivial (along_cons _ rfl trivial (along_cons _ rfl trivial
    (along_cons _ rfl trivial (along_cons _ rfl ?_ (along_cons _ rfl trivial trivial)))))
  intro batch hbatch
  obtain rfl := Option.some.inj hbatch
  refine ⟨_, rfl, ?_⟩
  intro inflight hinflight
  rcases List.mem_cons.mp hinflight with rfl | hinflight
  · refine ⟨List.mem_cons_of_mem _ List.mem_cons_self, fun payload hpayload hid => ?_⟩
    rcases List.mem_cons.mp hpayload with rfl | hpayload
    · exact absurd hid (by decide)
    · exact List.mem_singleton.mp hpayload
  · rw [List.mem_singleton.mp hinflight]
    refine ⟨List.mem_cons_self, fun payload hpayload hid => ?_⟩
    rcases List.mem_cons.mp hpayload with rfl | hpayload
    · rfl
    · rw [List.mem_singleton.mp hpayload] at hid
      exact absurd hid (by decide)

theorem limitingServer_delivers (request : Request)
    (hparse : parseReply [request.id.toUInt8] = .ok (revertingNode.entry request)) :
    Delivers revertingConnection parseReply (revertingNode.entry request)
      (limitingServer request) := by
  refine ⟨1, _, [request.id.toUInt8], by decide, ?_, rfl, ?_, ?_, rfl, hparse⟩
  · intro attempt hattempt
    obtain rfl : attempt = 0 := by omega
    exact ⟨_, rfl, rfl⟩
  · show (200 : ℤ) ≤ 200
    omega
  · show (200 : ℤ) < 300
    omega

theorem singleActions_single :
    unbatched.Along (revertingNode.Single Ethereum.sampleLogger revertingConnection (fun _ => [])
      parseReply) { nextId := 42 } singleActions := by
  refine along_cons _ rfl trivial (along_cons _ rfl trivial (along_cons _ rfl ?_
    (along_cons _ rfl ?_ (along_cons _ rfl trivial trivial))))
  · intro inflight hi
    obtain rfl := Option.some.inj hi
    exact ⟨limitingServer callRequest, limitingServer_delivers callRequest rfl, rfl⟩
  · intro inflight hi
    obtain rfl := Option.some.inj hi
    exact ⟨limitingServer chainIdRequest, limitingServer_delivers chainIdRequest rfl, rfl⟩

/-- The call has reverted for both providers, after two requests for three calls. -/
theorem batching_unobservable_reverted :
    ∃ w w', batching.run { provider := { nextId := 42 } } batchedActions = some w ∧
      unbatched.run { nextId := 42 } singleActions = some w' ∧
      w.promises[1]? = some (some (.rejected
        (payloadError { code := -32000, message := "execution reverted" }))) ∧
      (∃ outcome, answerOf w' 1 = some outcome) ∧ w.created.length = 2 := by
  refine ⟨_, _, rfl, rfl, ?_, ?_, rfl⟩
  · exact (batching_unobservable revertingNode Ethereum.sampleLogger revertingConnection
      (fun _ => []) parseReply (by decide) rfl 42 42 batchedActions singleActions _ _ rfl
      batchedActions_batched rfl singleActions_single rfl 1 ("eth_call", []) rfl).2.2.1 rfl rfl
  · exact (batching_unobservable revertingNode Ethereum.sampleLogger revertingConnection
      (fun _ => []) parseReply (by decide) rfl 42 42 batchedActions singleActions _ _ rfl
      batchedActions_batched rfl singleActions_single rfl 1 ("eth_call", []) rfl).2.2.2 rfl

end SubqlEthereum.Ethers.BatchTransparency
