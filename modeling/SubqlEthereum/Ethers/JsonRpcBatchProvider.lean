import Mathlib.Data.Rat.Defs
import SubqlEthereum.External
import SubqlEthereum.Library.Batches
import SubqlEthereum.Library.Promises
import SubqlEthereum.Library.StepSystem

/-!
# The batching provider

`json-rpc-batch-provider.ts`.  `send` puts a request into the pending batch and schedules a timer
that dispatches it; `flush` dispatches at once.  The answer to a batch settles the promises of its
requests and adjusts the batch size.

A `World` holds the provider with what stands around it: the timers that are scheduled, the
promises, and the batches handed to `fetchJson`, by number, with those still unanswered.  The
provider's connection is taken to be well formed, so that `fetchJson` returns a promise.
-/

namespace SubqlEthereum.Ethers

open SubqlEthereum.External SubqlEthereum.JsonText SubqlEthereum.StepSystem
open SubqlEthereum.Promises SubqlEthereum.Batches

/-! ### Requests and answers -/

structure Request where
  method : String
  params : List Json
  id : ℕ
deriving Repr

/-- A request with the number of its promise, which stands for `resolve` and `reject`. -/
structure InflightRequest where
  request : Request
  promise : ℕ
deriving Repr

structure RpcError where
  code : ℤ
  message : String
  data : Option Json := none
deriving Repr

/-- An entry of an array response; `id` is `null` in the special answer of a rate limit. -/
structure RpcResult where
  id : Option ℤ
  result : Option Json := none
  error : Option RpcError := none
deriving Repr

/-- A response body: an array of results, or any other JSON value. -/
inductive Body
  | array (result : List RpcResult)
  | other (result : Json) (not_array : ∀ items, result ≠ .arr items)

/-- What becomes of a dispatched batch: a response, or an error of the transport. -/
inductive Answer
  | response (body : Body)
  | failure (error : JsError)

/-! ### The provider -/

structure JsonRpcBatchProvider where
  batchSize : ℤ := 1
  successfulBatchCount : ℕ := 0
  failedBatchCount : ℕ := 0
  pendingBatchAggregator : Option ℕ := none
  pendingBatch : Option (List InflightRequest) := none
  chainIdCache : Option Json := none
  nextId : ℕ := 42
deriving Repr

/-- The batch size is adjusted after every ten counts. -/
def batchSizeAdjustmentInterval : ℕ := 10

def JsonRpcBatchProvider.setBatchSize (provider : JsonRpcBatchProvider) (batchSize : ℤ) :
    JsonRpcBatchProvider :=
  { provider with batchSize }

/-- The counters with one more batch. -/
def JsonRpcBatchProvider.countBatch (provider : JsonRpcBatchProvider) (success : Bool) :
    JsonRpcBatchProvider :=
  { provider with
    successfulBatchCount := provider.successfulBatchCount + (if success then 1 else 0)
    failedBatchCount := provider.failedBatchCount + (if success then 0 else 1) }

def JsonRpcBatchProvider.totalBatches (provider : JsonRpcBatchProvider) : ℕ :=
  provider.successfulBatchCount + provider.failedBatchCount

def JsonRpcBatchProvider.adjustBatchSize (provider : JsonRpcBatchProvider) (success : Bool) :
    JsonRpcBatchProvider :=
  let provider := provider.countBatch success
  if provider.totalBatches % batchSizeAdjustmentInterval = 0 then
    let successRate : ℚ := provider.successfulBatchCount / provider.totalBatches
    { provider with
      batchSize :=
        if successRate < 9 / 10 ∧ 1 < provider.batchSize then provider.batchSize - 1
        else if 95 / 100 < successRate ∧ provider.batchSize < 10 then provider.batchSize + 1
        else provider.batchSize
      successfulBatchCount := 0
      failedBatchCount := 0 }
  else provider

/-- The provider with its timers, its promises and its dispatched batches.  `created` records the
requests `send` has made, in order. -/
structure World where
  provider : JsonRpcBatchProvider
  promises : Heap (Option Json) JsError := []
  timers : List ℕ := []
  timersCreated : ℕ := 0
  dispatched : List (List InflightRequest) := []
  outstanding : List ℕ := []
  created : List InflightRequest := []

/-! ### Sending -/

/-- Hands the pending batch to `fetchJson` and clears it. -/
def World.runRequests (w : World) : World :=
  let batch := w.provider.pendingBatch.getD []
  { w with
    provider := { w.provider with pendingBatch := none, pendingBatchAggregator := none }
    dispatched := w.dispatched ++ [batch]
    outstanding := w.outstanding ++ [w.dispatched.length] }

def World.flush (w : World) : World :=
  match w.provider.pendingBatchAggregator with
  | some timer => { w with timers := w.timers.erase timer }.runRequests
  | none => w

/-- Schedules the dispatch of the pending batch, unless it is scheduled already. -/
def World.scheduleBatch (w : World) : World :=
  match w.provider.pendingBatchAggregator with
  | some _ => w
  | none =>
    { w with
      provider := { w.provider with pendingBatchAggregator := some w.timersCreated }
      timers := w.timers ++ [w.timersCreated]
      timersCreated := w.timersCreated + 1 }

/-- Puts a new request, with a new promise, at the end of the pending batch. -/
def World.enqueue (w : World) (method : String) (params : List Json) : World :=
  let request : Request := { method, params, id := w.provider.nextId }
  let inflightRequest : InflightRequest := { request, promise := w.promises.length }
  { w with
    provider := { w.provider with
      nextId := w.provider.nextId + 1
      pendingBatch := some (w.provider.pendingBatch.getD [] ++ [inflightRequest]) }
    promises := w.promises ++ [none]
    created := w.created ++ [inflightRequest] }

/-- The promise returned is the last one created. -/
def World.send (w : World) (method : String) (params : List Json) : World :=
  if method = "eth_chainId" ∧ w.provider.chainIdCache.isSome then
    { w with promises := w.promises ++ [some (.resolved w.provider.chainIdCache)] }
  else
    let w := (w.enqueue method params).scheduleBatch
    if w.provider.batchSize < (w.provider.pendingBatch.getD []).length then w.flush else w

/-- A timer that is due runs its callback. -/
def World.fire (w : World) (timer : ℕ) : World :=
  { w with timers := w.timers.erase timer }.runRequests

/-! ### Answers -/

def World.adjustBatchSize (w : World) (success : Bool) : World :=
  { w with provider := w.provider.adjustBatchSize success }

def World.resolve (w : World) (inflightRequest : InflightRequest) (result : Option Json) : World :=
  { w with promises := settle w.promises inflightRequest.promise (.resolved result) }

def World.reject (w : World) (inflightRequest : InflightRequest) (error : JsError) : World :=
  { w with promises := settle w.promises inflightRequest.promise (.rejected error) }

/-- `batch.forEach` with a call of `reject` that gives every request the same error. -/
def World.rejectAll (w : World) (batch : List InflightRequest) (error : JsError) : World :=
  batch.foldl (fun w inflightRequest => w.reject inflightRequest error) w

def invalidResponse (result : Json) : JsError where
  message := "Invalid response \n" ++ stringify result

def missingPayload (request : Request) : JsError where
  message := "Missing payload in response for request " ++ toString request.id

/-- The error a request is rejected with for an entry that has one. -/
def payloadError (error : RpcError) : JsError where
  message := error.message
  fields := ("code", .num error.code) :: (error.data.map fun data => ("data", data)).toList

/-- The messages that count as a failed batch. -/
def limitExceeded (message : String) : Bool :=
  message = "Batch size limit exceeded" || message = "exceeded project rate limit" ||
    includes message "Failed to buffer the request body" ||
    includes message "Too Many Requests" || includes message "Request Entity Too Large"

/-- `resultMap`, the last entry under each id. -/
def resultMap (result : List RpcResult) : Option ℤ → Option RpcResult :=
  result.foldl (fun resultMap payload id => if id = payload.id then some payload else resultMap id)
    fun _ => none

/-- `payload.result ?? null`. -/
def cachedChainId : Option Json → Option Json
  | some .null => none
  | result => result

/-- Feeds an entry to its promise. -/
def World.settlePayload (result : List RpcResult) (w : World) (inflightRequest : InflightRequest) :
    World :=
  match resultMap result (some inflightRequest.request.id) with
  | none => w.reject inflightRequest (missingPayload inflightRequest.request)
  | some payload =>
    match payload.error with
    | some error =>
      let w := if limitExceeded error.message then w.adjustBatchSize false else w
      w.reject inflightRequest (payloadError error)
    | none =>
      let w : World :=
        if inflightRequest.request.method = "eth_chainId" then
          { w with provider := { w.provider with chainIdCache := cachedChainId payload.result } }
        else w
      w.resolve inflightRequest payload.result

/-- `result.error?.message` of a body that is no array; `null` has no fields to read. -/
def bodyErrorMessage : Json → Except JsError (Option Json)
  | .null =>
    .error { name := "TypeError", message := "Cannot read properties of null (reading 'error')" }
  | .obj fields =>
    match fields.lookup "error" with
    | some (.obj error) => .ok (error.lookup "message")
    | _ => .ok none
  | _ => .ok none

def isText (value : Option Json) (text : String) : Bool :=
  match value with
  | some (.str s) => s = text
  | _ => false

/-- The handler of a response; it fails where the source throws. -/
def World.respond (w : World) (batch : List InflightRequest) : Body → Except (JsError × World) World
  | .other result _ =>
    let w := w.rejectAll batch (invalidResponse result)
    match bodyErrorMessage result with
    | .error e => .error (e, w)
    | .ok message =>
      .ok (if isText message "Batch size is too large" then w.adjustBatchSize false else w)
  | .array result =>
    match result with
    | [{ id := none, error, .. }] =>
      -- the answer of an endpoint that limits the rate of batches
      let w := w.rejectAll batch { message := (error.map (·.message)).getD "" }
      .ok (w.adjustBatchSize false)
    | _ => .ok ((batch.foldl (World.settlePayload result) w).adjustBatchSize true)

/-- The handler with its `catch`. -/
def World.answer (w : World) (batch : List InflightRequest) : Answer → World
  | .response body =>
    match w.respond batch body with
    | .ok w => w
    | .error (e, w) => w.rejectAll batch e
  | .failure e => w.rejectAll batch e

/-! ### The system -/

inductive Action
  | setBatchSize (batchSize : ℤ)
  | send (method : String) (params : List Json)
  | flush
  | timer (timer : ℕ)
  | answer (batch : ℕ) (answer : Answer)

/-- A timer that is scheduled may fire, and a batch without an answer may get one. -/
def step (w : World) : Action → Option World
  | .setBatchSize batchSize => some { w with provider := { w.provider with batchSize } }
  | .send method params => some (w.send method params)
  | .flush => some w.flush
  | .timer timer => if timer ∈ w.timers then some (w.fire timer) else none
  | .answer i answer =>
    match w.dispatched[i]? with
    | some batch =>
      if i ∈ w.outstanding then
        some ({ w with outstanding := w.outstanding.erase i }.answer batch answer)
      else none
    | none => none

/-- A provider as its constructor leaves it. -/
def batching : System World Action where
  initial w := ∃ nextId, w = { provider := { nextId } }
  step := step

/-! ### What a step does -/

theorem flush_eq_fire (w : World) (timer : ℕ)
    (htimer : w.provider.pendingBatchAggregator = some timer) : w.flush = w.fire timer := by
  rw [World.flush, htimer]
  rfl

/-- A flush does nothing, or what the scheduled timer would do. -/
theorem flush_cases (w : World) :
    w.flush = w ∨
      ∃ timer, w.provider.pendingBatchAggregator = some timer ∧ w.flush = w.fire timer := by
  cases htimer : w.provider.pendingBatchAggregator with
  | none =>
    left
    rw [World.flush, htimer]
  | some timer =>
    right
    exact ⟨timer, rfl, flush_eq_fire w timer htimer⟩

/-- A call is answered from the cache, or its request joins the pending batch, which may then be
flushed. -/
theorem send_cases (w : World) (method : String) (params : List Json) :
    w.send method params =
        { w with promises := w.promises ++ [some (.resolved w.provider.chainIdCache)] } ∨
      w.send method params = (w.enqueue method params).scheduleBatch ∨
      w.send method params = (w.enqueue method params).scheduleBatch.flush := by
  rw [World.send]
  by_cases hcached : method = "eth_chainId" ∧ w.provider.chainIdCache.isSome
  · left
    rw [if_pos hcached]
  · right
    rw [if_neg hcached]
    simp only
    split_ifs
    · right
      rfl
    · left
      rfl

/-- A timer that fires was scheduled. -/
theorem step_timer {w w' : World} {timer : ℕ} (hstep : step w (.timer timer) = some w') :
    timer ∈ w.timers ∧ w' = w.fire timer := by
  rw [step] at hstep
  split_ifs at hstep with hscheduled
  exact ⟨hscheduled, (Option.some.inj hstep).symm⟩

/-- An answer is one to a batch that has none yet. -/
theorem step_answer {w w' : World} {i : ℕ} {answer : Answer}
    (hstep : step w (.answer i answer) = some w') :
    ∃ batch, w.dispatched[i]? = some batch ∧ i ∈ w.outstanding ∧
      w' = { w with outstanding := w.outstanding.erase i }.answer batch answer := by
  rw [step] at hstep
  cases hbatch : w.dispatched[i]? with
  | none =>
    rw [hbatch] at hstep
    exact absurd hstep (by simp)
  | some batch =>
    simp only [hbatch] at hstep
    split_ifs at hstep with houtstanding
    exact ⟨batch, rfl, houtstanding, (Option.some.inj hstep).symm⟩

/-- What a step does, with the conditions under which it is possible. -/
theorem step_cases (w : World) (action : Action) (w' : World) (hstep : step w action = some w') :
    (∃ batchSize, w' = { w with provider := { w.provider with batchSize } }) ∨
    (∃ method params, w' = w.send method params) ∨
    w' = w.flush ∨
    (∃ timer ∈ w.timers, w' = w.fire timer) ∨
    ∃ i batch answer, w.dispatched[i]? = some batch ∧ i ∈ w.outstanding ∧
      w' = { w with outstanding := w.outstanding.erase i }.answer batch answer := by
  cases action with
  | setBatchSize batchSize => exact .inl ⟨batchSize, (Option.some.inj hstep).symm⟩
  | send method params => exact .inr (.inl ⟨method, params, (Option.some.inj hstep).symm⟩)
  | flush => exact .inr (.inr (.inl (Option.some.inj hstep).symm))
  | timer timer =>
    obtain ⟨hscheduled, hfire⟩ := step_timer hstep
    exact .inr (.inr (.inr (.inl ⟨timer, hscheduled, hfire⟩)))
  | answer i answer =>
    obtain ⟨batch, hbatch, houtstanding, hanswer⟩ := step_answer hstep
    exact .inr (.inr (.inr (.inr ⟨i, batch, answer, hbatch, houtstanding, hanswer⟩)))

end SubqlEthereum.Ethers
