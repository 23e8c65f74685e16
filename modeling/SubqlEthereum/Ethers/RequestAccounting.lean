import SubqlEthereum.Ethers.JsonRpcBatchProvider

/-!
# Every request is dispatched once

The requests of the batching provider pass from the pending batch into one dispatched batch.
`Accounted` is the invariant: while a batch is pending its timer is scheduled, and the dispatched
batches followed by the pending one are the requests in the order in which they were sent.
Answers change the batch size and the promises only, which is `answer_requests`.
-/

namespace SubqlEthereum.Ethers

open SubqlEthereum.External SubqlEthereum.JsonText SubqlEthereum.StepSystem
open SubqlEthereum.Promises SubqlEthereum.Batches

/-! ### What an answer leaves alone -/

/-- The part of a world that requests pass through. -/
structure Requests where
  nextId : ℕ
  pendingBatch : Option (List InflightRequest)
  pendingBatchAggregator : Option ℕ
  timers : List ℕ
  dispatched : List (List InflightRequest)
  outstanding : List ℕ
  created : List InflightRequest

def World.requests (w : World) : Requests where
  nextId := w.provider.nextId
  pendingBatch := w.provider.pendingBatch
  pendingBatchAggregator := w.provider.pendingBatchAggregator
  timers := w.timers
  dispatched := w.dispatched
  outstanding := w.outstanding
  created := w.created

@[simp] theorem adjustBatchSize_requests (w : World) (success : Bool) :
    (w.adjustBatchSize success).requests = w.requests := by
  rw [World.adjustBatchSize, JsonRpcBatchProvider.adjustBatchSize]
  split_ifs <;> rfl

@[simp] theorem reject_requests (w : World) (inflightRequest : InflightRequest) (e : JsError) :
    (w.reject inflightRequest e).requests = w.requests := rfl

@[simp] theorem resolve_requests (w : World) (inflightRequest : InflightRequest)
    (result : Option Json) : (w.resolve inflightRequest result).requests = w.requests := rfl

@[simp] theorem rejectAll_requests (w : World) (batch : List InflightRequest) (e : JsError) :
    (w.rejectAll batch e).requests = w.requests := by
  induction batch generalizing w with
  | nil => rfl
  | cons inflightRequest rest ih =>
    show ((w.reject inflightRequest e).rejectAll rest e).requests = w.requests
    rw [ih, reject_requests]

@[simp] theorem settlePayload_requests (result : List RpcResult) (w : World)
    (inflightRequest : InflightRequest) :
    (w.settlePayload result inflightRequest).requests = w.requests := by
  rw [World.settlePayload]
  cases resultMap result (some inflightRequest.request.id) with
  | none => rfl
  | some payload =>
    cases herror : payload.error with
    | some error =>
      simp only [herror, reject_requests]
      split_ifs
      · exact adjustBatchSize_requests w false
      · rfl
    | none =>
      simp only [herror, resolve_requests]
      split_ifs <;> rfl

@[simp] theorem settleLoop_requests (result : List RpcResult) (w : World)
    (batch : List InflightRequest) :
    (batch.foldl (World.settlePayload result) w).requests = w.requests := by
  induction batch generalizing w with
  | nil => rfl
  | cons inflightRequest rest ih =>
    rw [List.foldl_cons, ih, settlePayload_requests]

/-- **An answer does not touch the requests.** -/
@[simp] theorem answer_requests (w : World) (batch : List InflightRequest) (answer : Answer) :
    (w.answer batch answer).requests = w.requests := by
  cases answer with
  | failure e => exact rejectAll_requests w batch e
  | response body =>
    rw [World.answer]
    cases body with
    | other result not_array =>
      simp only [World.respond]
      cases bodyErrorMessage result with
      | error e => simp only [rejectAll_requests]
      | ok message =>
        simp only
        split_ifs
        · rw [adjustBatchSize_requests, rejectAll_requests]
        · exact rejectAll_requests w batch _
    | array result =>
      simp only [World.respond]
      split <;> rename_i h
      · split at h <;> rw [← Except.ok.inj h] <;> simp
      · split at h <;> exact absurd h (by simp)

/-! ### The invariant -/

structure Requests.Accounted (q : Requests) : Prop where
  aggregator_iff : q.pendingBatch = none ↔ q.pendingBatchAggregator = none
  nonempty : ∀ batch, q.pendingBatch = some batch → batch ≠ []
  ids_below : ∀ inflight ∈ q.created, inflight.request.id < q.nextId
  ids_nodup : (q.created.map (·.request.id)).Nodup
  placed : q.dispatched.flatten ++ q.pendingBatch.getD [] = q.created
  timers_eq : q.timers = q.pendingBatchAggregator.toList

/-- Dispatching the pending batch, with its timer gone. -/
theorem accounted_fire (w : World) (timer : ℕ) (hw : w.requests.Accounted)
    (htimer : w.provider.pendingBatchAggregator = some timer) :
    (w.fire timer).requests.Accounted where
  aggregator_iff := ⟨fun _ => rfl, fun _ => rfl⟩
  nonempty := by
    intro batch hbatch
    exact absurd hbatch (by simp [World.requests, World.fire, World.runRequests])
  ids_below := hw.ids_below
  ids_nodup := hw.ids_nodup
  placed := by
    show (w.dispatched ++ [w.provider.pendingBatch.getD []]).flatten ++ [] = w.created
    rw [List.append_nil, List.flatten_append, List.flatten_singleton]
    exact hw.placed
  timers_eq := by
    have htimers : w.timers = w.provider.pendingBatchAggregator.toList := hw.timers_eq
    show w.timers.erase timer = []
    rw [htimers, htimer]
    simp

theorem accounted_flush (w : World) (hw : w.requests.Accounted) :
    w.flush.requests.Accounted := by
  rcases flush_cases w with h | ⟨timer, htimer, h⟩
  · rw [h]
    exact hw
  · rw [h]
    exact accounted_fire w timer hw htimer

/-- A request that joins the pending batch has a timer, old or new. -/
theorem accounted_enqueue (w : World) (hw : w.requests.Accounted) (method : String)
    (params : List Json) : (w.enqueue method params).scheduleBatch.requests.Accounted := by
  have hplaced : w.dispatched.flatten ++ w.provider.pendingBatch.getD [] = w.created := hw.placed
  have hbelow : ∀ inflight ∈ w.created, inflight.request.id < w.provider.nextId := hw.ids_below
  have htimers : w.timers = w.provider.pendingBatchAggregator.toList := hw.timers_eq
  have hids : ((w.enqueue method params).created.map (·.request.id)).Nodup := by
    show ((w.created ++ [_]).map fun inflight : InflightRequest => inflight.request.id).Nodup
    rw [List.map_append, List.map_singleton, ← List.concat_eq_append, List.nodup_concat]
    refine ⟨?_, hw.ids_nodup⟩
    intro hmem
    obtain ⟨inflight, hinflight, hid⟩ := List.mem_map.mp hmem
    have hlt := hbelow inflight hinflight
    have heq : inflight.request.id = w.provider.nextId := hid
    omega
  have hlt : ∀ inflight ∈ (w.enqueue method params).created,
      inflight.request.id < w.provider.nextId + 1 := by
    intro inflight hinflight
    rcases List.mem_append.mp hinflight with h | h
    · have := hbelow inflight h
      omega
    · rw [List.mem_singleton.mp h]
      exact Nat.lt_succ_self _
  have hflat : w.dispatched.flatten ++ ((w.enqueue method params).provider.pendingBatch.getD []) =
      (w.enqueue method params).created := by
    show w.dispatched.flatten ++ (w.provider.pendingBatch.getD [] ++ [_]) = w.created ++ [_]
    rw [← List.append_assoc, hplaced]
  have hnonempty : ∀ batch, (w.enqueue method params).provider.pendingBatch = some batch →
      batch ≠ [] := by
    intro batch hbatch
    have hlast : w.provider.pendingBatch.getD [] ++ [_] = batch := Option.some.inj hbatch
    rw [← hlast]
    exact List.append_ne_nil_of_right_ne_nil _ (List.cons_ne_nil _ _)
  have hsame : (w.enqueue method params).provider.pendingBatchAggregator =
    w.provider.pendingBatchAggregator := rfl
  rw [World.scheduleBatch, hsame]
  cases htimer : w.provider.pendingBatchAggregator with
  | some timer =>
    refine ⟨?_, hnonempty, hlt, hids, hflat, ?_⟩
    · simp [World.requests, World.enqueue, htimer]
    · exact htimers
  | none =>
    rw [htimer] at htimers
    refine ⟨?_, hnonempty, hlt, hids, hflat, ?_⟩
    · simp [World.requests, World.enqueue]
    · show w.timers ++ [w.timersCreated] = [w.timersCreated]
      rw [htimers]
      rfl

theorem accounted_send (w : World) (hw : w.requests.Accounted) (method : String)
    (params : List Json) : (w.send method params).requests.Accounted := by
  have henqueued := accounted_enqueue w hw method params
  rcases send_cases w method params with h | h | h
  · rw [h]
    exact hw
  · rw [h]
    exact henqueued
  · rw [h]
    exact accounted_flush _ henqueued

/-- **The step lemma.** -/
theorem accounted_step (w : World) (action : Action) (w' : World) (hw : w.requests.Accounted)
    (hstep : step w action = some w') : w'.requests.Accounted := by
  rcases step_cases w action w' hstep with ⟨batchSize, h⟩ | ⟨method, params, h⟩ | h |
    ⟨timer, hscheduled, h⟩ | ⟨i, batch, answer, hbatch, houtstanding, h⟩
  · rw [h]
    exact hw
  · rw [h]
    exact accounted_send w hw method params
  · rw [h]
    exact accounted_flush w hw
  · rw [h]
    have htimers : w.timers = w.provider.pendingBatchAggregator.toList := hw.timers_eq
    rw [htimers, Option.mem_toList] at hscheduled
    exact accounted_fire w timer hw hscheduled
  · rw [h, answer_requests]
    exact ⟨hw.aggregator_iff, hw.nonempty, hw.ids_below, hw.ids_nodup, hw.placed, hw.timers_eq⟩

theorem accounted (w : World) (hw : batching.Reachable w) : w.requests.Accounted := by
  apply invariant (fun w => w.requests.Accounted) ?_ (fun w action w' => accounted_step w action w')
    w hw
  intro start hstart
  obtain ⟨nextId, hstart⟩ := hstart
  rw [hstart]
  exact {
    aggregator_iff := ⟨fun _ => rfl, fun _ => rfl⟩
    nonempty := fun batch hbatch => absurd hbatch (by simp [World.requests])
    ids_below := fun inflight hinflight => absurd hinflight List.not_mem_nil
    ids_nodup := List.nodup_nil
    placed := rfl
    timers_eq := rfl }

/-! ### Nothing is lost or sent twice -/

/-- **Request batching loses and duplicates nothing.**  In every reachable state there is a timer
exactly while there is a pending batch, and that batch is not empty; no two requests share an id;
every request is pending or in one dispatched batch, in the order of sending; and the timer of a
pending request is scheduled and dispatches it. -/
theorem requests_dispatched_once (w : World) (hw : batching.Reachable w) :
    (w.provider.pendingBatch = none ↔ w.provider.pendingBatchAggregator = none) ∧
    (∀ batch, w.provider.pendingBatch = some batch → batch ≠ []) ∧
    (w.created.map (·.request.id)).Nodup ∧
    (∀ inflight ∈ w.created,
      InOnePlace w.dispatched (w.provider.pendingBatch.getD []) inflight) ∧
    w.dispatched.flatten ++ w.provider.pendingBatch.getD [] = w.created ∧
    (∀ batch, w.provider.pendingBatch = some batch →
      ∃ timer ∈ w.timers, w.provider.pendingBatchAggregator = some timer ∧
        ∃ w', step w (.timer timer) = some w' ∧ w'.dispatched = w.dispatched ++ [batch]) := by
  have haccounted := accounted w hw
  have hplaced : w.dispatched.flatten ++ w.provider.pendingBatch.getD [] = w.created :=
    haccounted.placed
  refine ⟨haccounted.aggregator_iff, haccounted.nonempty, haccounted.ids_nodup, ?_, hplaced, ?_⟩
  · intro inflight hinflight
    apply inOnePlace (·.request.id)
    · rw [hplaced]
      exact haccounted.ids_nodup
    · rw [hplaced]
      exact hinflight
  · intro batch hbatch
    cases htimer : w.provider.pendingBatchAggregator with
    | none =>
      have hnone := haccounted.aggregator_iff.mpr htimer
      exact absurd (hnone.symm.trans hbatch) (by simp)
    | some timer =>
      have htimers : w.timers = w.provider.pendingBatchAggregator.toList := haccounted.timers_eq
      have hscheduled : timer ∈ w.timers := by
        rw [htimers, htimer]
        exact List.mem_singleton_self timer
      refine ⟨timer, hscheduled, rfl, w.fire timer, if_pos hscheduled, ?_⟩
      show w.dispatched ++ [w.provider.pendingBatch.getD []] = w.dispatched ++ [batch]
      rw [hbatch]
      rfl

/-- A second request overflows a batch of one, and a third one waits for its timer. -/
theorem three_requests_dispatched_once :
    ∃ w, batching.run { provider := {} }
        [.send "eth_blockNumber" [], .send "eth_gasPrice" [], .send "eth_chainId" []] = some w ∧
      w.dispatched.flatten ++ w.provider.pendingBatch.getD [] = w.created ∧
      w.dispatched.length = 1 := by
  refine ⟨_, rfl, ?_, rfl⟩
  have hreachable := leads_of_run _ _ _
    (show batching.run { provider := {} }
      [.send "eth_blockNumber" [], .send "eth_gasPrice" [], .send "eth_chainId" []] = some _ from
      rfl)
  exact (requests_dispatched_once _ ⟨_, ⟨42, rfl⟩, hreachable⟩).2.2.2.2.1

end SubqlEthereum.Ethers
