import SubqlEthereum.Ethers.AnswerDelivery

/-!
# Batches that are answered without an array

An endpoint without batch requests gives some other JSON value for an array of requests.  The
batching provider then rejects every request of the batch with an invalid response, whatever the
order of its steps: `settles_invalid`.
-/

namespace SubqlEthereum.Ethers

open SubqlEthereum.External SubqlEthereum.JsonText SubqlEthereum.StepSystem
open SubqlEthereum.Promises

/-! ### The endpoint -/

/-- The answer of a step is the endpoint's answer to the requests of its batch. -/
def ServedBy (array : List Request → Body) (w : World) : Action → Prop
  | .answer i answer =>
    ∀ batch, w.dispatched[i]? = some batch → answer = .response (array (batch.map (·.request)))
  | _ => True

/-- A way to settle, as the outcome of a promise. -/
def settled : Except JsError (Option Json) → Outcome (Option Json) JsError
  | .ok result => .resolved result
  | .error e => .rejected e

/-- A request settles so in some run of a batching provider with the endpoint. -/
def Settles (array : List Request → Body) (method : String) (params : List Json)
    (result : Except JsError (Option Json)) : Prop :=
  ∃ start actions w, batching.initial start ∧ batching.run start actions = some w ∧
    batching.Along (ServedBy array) start actions ∧
    ∃ inflight ∈ w.created, inflight.request.method = method ∧
      inflight.request.params = params ∧
      w.promises[inflight.promise]? = some (some (settled result))

/-- The endpoint gives no array for an array. -/
def NoBatches (array : List Request → Body) : Prop :=
  ∀ requests, ∃ result not_array, array requests = .other result not_array

/-- No chain id is cached, and what is settled is rejected with an invalid response. -/
structure AllInvalid (w : World) : Prop where
  uncached : w.provider.chainIdCache = none
  rejected : ∀ (promise : ℕ) (outcome : Outcome (Option Json) JsError),
      w.promises[promise]? = some (some outcome) →
        ∃ result, outcome = .rejected (invalidResponse result)

theorem allInvalid_of_eq (w w' : World) (hw : AllInvalid w)
    (hcache : w'.provider.chainIdCache = w.provider.chainIdCache)
    (hpromises : w'.promises = w.promises) : AllInvalid w' where
  uncached := hcache.trans hw.uncached
  rejected := by
    rw [hpromises]
    exact hw.rejected

theorem allInvalid_flush (w : World) (hw : AllInvalid w) : AllInvalid w.flush := by
  rcases flush_cases w with h | ⟨timer, _, h⟩
  · rw [h]
    exact hw
  · rw [h]
    exact allInvalid_of_eq w _ hw rfl rfl

/-- A new request has an unsettled promise. -/
theorem allInvalid_enqueue (w : World) (method : String) (params : List Json) (hw : AllInvalid w) :
    AllInvalid (w.enqueue method params).scheduleBatch := by
  have henqueued : AllInvalid (w.enqueue method params) := by
    refine ⟨hw.uncached, ?_⟩
    intro promise outcome hpromise
    have hget : (w.promises ++ [none])[promise]? = some (some outcome) := hpromise
    rw [List.getElem?_append] at hget
    split_ifs at hget with hold
    · exact hw.rejected promise outcome hget
    · have hmem := List.mem_of_getElem? hget
      exact absurd (List.mem_singleton.mp hmem) (by simp)
  rw [World.scheduleBatch]
  cases (w.enqueue method params).provider.pendingBatchAggregator with
  | none => exact allInvalid_of_eq _ _ henqueued rfl rfl
  | some timer => exact henqueued

theorem allInvalid_send (w : World) (method : String) (params : List Json) (hw : AllInvalid w) :
    AllInvalid (w.send method params) := by
  have hnot : ¬ (method = "eth_chainId" ∧ w.provider.chainIdCache.isSome = true) := by
    rw [hw.uncached]
    simp
  have henqueued := allInvalid_enqueue w method params hw
  rw [World.send, if_neg hnot]
  simp only
  split_ifs
  · exact allInvalid_flush _ henqueued
  · exact henqueued

theorem rejectAll_chainIdCache (w : World) (batch : List InflightRequest) (e : JsError) :
    (w.rejectAll batch e).provider.chainIdCache = w.provider.chainIdCache := by
  induction batch generalizing w with
  | nil => rfl
  | cons inflight rest ih =>
    show ((w.reject inflight e).rejectAll rest e).provider.chainIdCache = _
    rw [ih]
    rfl

/-- A response that is no array leaves the cached chain id alone. -/
theorem answer_other_chainIdCache (w : World) (batch : List InflightRequest) (result : Json)
    (not_array : ∀ items, result ≠ .arr items) :
    (w.answer batch (.response (.other result not_array))).provider.chainIdCache =
      w.provider.chainIdCache := by
  have hrejected := rejectAll_chainIdCache w batch (invalidResponse result)
  simp only [World.answer, World.respond]
  cases bodyErrorMessage result with
  | error e =>
    show ((w.rejectAll batch (invalidResponse result)).rejectAll batch e).provider.chainIdCache = _
    rw [rejectAll_chainIdCache, hrejected]
  | ok message =>
    simp only
    split_ifs
    · rw [World.adjustBatchSize, JsonRpcBatchProvider.adjustBatchSize]
      split_ifs <;> exact hrejected
    · exact hrejected

/-- The first call on a promise of the batch, the one that decides, is an invalid response. -/
theorem other_lookup (batch : List InflightRequest) (result : Json)
    (not_array : ∀ items, result ≠ .arr items)
    (more : List (ℕ × Outcome (Option Json) JsError))
    (hmore : ∀ call ∈ more, ∃ inflight ∈ batch, inflight.promise = call.1) (promise : ℕ)
    (outcome : Outcome (Option Json) JsError)
    (h : (calls batch (answerOutcome (.response (.other result not_array))) ++ more).lookup
      promise = some outcome) : ∃ result, outcome = .rejected (invalidResponse result) := by
  rw [List.lookup_append] at h
  cases hfirst : (calls batch (answerOutcome (.response (.other result not_array)))).lookup
      promise with
  | some first =>
    rw [hfirst, Option.some_or, Option.some_inj] at h
    obtain ⟨front, back, hsplit, _⟩ := List.lookup_eq_some_iff.mp hfirst
    have hmem : (promise, first) ∈
        calls batch (answerOutcome (.response (.other result not_array))) := by
      rw [hsplit]
      exact List.mem_append_right front List.mem_cons_self
    obtain ⟨inflight, _, hcall⟩ := List.mem_map.mp hmem
    refine ⟨result, ?_⟩
    rw [← h]
    exact (congrArg Prod.snd hcall).symm
  | none =>
    rw [hfirst, Option.none_or] at h
    obtain ⟨front, back, hsplit, _⟩ := List.lookup_eq_some_iff.mp h
    have hmem : (promise, outcome) ∈ more := by
      rw [hsplit]
      exact List.mem_append_right front List.mem_cons_self
    obtain ⟨inflight, hinflight, hpromise⟩ := hmore _ hmem
    have hnot := List.lookup_eq_none_iff.mp hfirst _
      (List.mem_map.mpr ⟨inflight, hinflight, rfl⟩)
    exact absurd hpromise.symm (by simpa using hnot)

/-- **A response that is no array** rejects the batch with an invalid response; what the `catch`
does after it comes too late. -/
theorem allInvalid_answer (w : World) (batch : List InflightRequest) (result : Json)
    (not_array : ∀ items, result ≠ .arr items) (hw : AllInvalid w) :
    AllInvalid (w.answer batch (.response (.other result not_array))) where
  uncached := (answer_other_chainIdCache w batch result not_array).trans hw.uncached
  rejected := by
    intro promise outcome hpromise
    obtain ⟨more, hpromises, hmore⟩ := answer_promises w batch (.response (.other result not_array))
    rw [hpromises, settleAll_get] at hpromise
    obtain ⟨state, hstate, hor⟩ := Option.map_eq_some_iff.mp hpromise
    cases state with
    | some earlier =>
      rw [Option.some_or, Option.some_inj] at hor
      rw [← hor]
      exact hw.rejected promise earlier hstate
    | none =>
      rw [Option.none_or] at hor
      exact other_lookup batch result not_array more hmore promise outcome hor

/-- **The step lemma.** -/
theorem allInvalid_step (array : List Request → Body) (harray : NoBatches array) (w : World)
    (action : Action) (w' : World) (hw : AllInvalid w) (hserved : ServedBy array w action)
    (hstep : step w action = some w') : AllInvalid w' := by
  cases action with
  | setBatchSize batchSize =>
    rw [← Option.some.inj hstep]
    exact allInvalid_of_eq w _ hw rfl rfl
  | send method params =>
    rw [← Option.some.inj hstep]
    exact allInvalid_send w method params hw
  | flush =>
    rw [← Option.some.inj hstep]
    exact allInvalid_flush w hw
  | timer timer =>
    rw [(step_timer hstep).2]
    exact allInvalid_of_eq w _ hw rfl rfl
  | answer i answer =>
    obtain ⟨batch, hbatch, -, hanswer⟩ := step_answer hstep
    obtain ⟨result, not_array, hother⟩ := harray (batch.map (·.request))
    have hbody : answer = .response (.other result not_array) := by
      rw [← hother]
      exact hserved batch hbatch
    rw [hanswer, hbody]
    exact allInvalid_answer { w with outstanding := w.outstanding.erase i } batch result not_array
      (allInvalid_of_eq w _ hw rfl rfl)

/-- **An endpoint without batch requests** makes every request of a batching provider fail with an
invalid response. -/
theorem settles_invalid (array : List Request → Body) (harray : NoBatches array) (method : String)
    (params : List Json) (result : Except JsError (Option Json))
    (h : Settles array method params result) : ∃ body, result = .error (invalidResponse body) := by
  obtain ⟨start, actions, w, hstart, hrun, hanswered, inflight, _, _, _, hpromise⟩ := h
  have hinitial : AllInvalid start := by
    obtain ⟨nextId, hstart⟩ := hstart
    rw [hstart]
    exact ⟨rfl, fun promise outcome hsettled => absurd hsettled (by simp)⟩
  have hw : AllInvalid w := invariant_along AllInvalid (ServedBy array)
    (fun w action w' hw hanswer hstep => allInvalid_step array harray w action w' hw hanswer hstep)
    actions start w hinitial hanswered hrun
  obtain ⟨body, hbody⟩ := hw.rejected _ _ hpromise
  cases result with
  | ok value => exact absurd hbody (by simp [settled])
  | error e => exact ⟨body, congrArg Except.error (Outcome.rejected.inj hbody)⟩

/-- A request sent by itself, in a batch of its own, settles so. -/
theorem settles_alone (array : List Request → Body) (method : String) (params : List Json)
    (result : Json) (not_array : ∀ items, result ≠ .arr items)
    (harray : array [{ method, params, id := 42 }] = .other result not_array) :
    Settles array method params (.error (invalidResponse result)) := by
  let inflight : InflightRequest := { request := { method, params, id := 42 }, promise := 0 }
  let sent : World := (({ provider := {} } : World).enqueue method params).scheduleBatch
  let answer : Answer := .response (array [{ method, params, id := 42 }])
  have hsend : batching.step { provider := {} } (.send method params) = some sent := by
    show some (World.send _ method params) = some sent
    rw [World.send, if_neg (by simp)]
    rfl
  have hfire : batching.step sent (.timer 0) = some (sent.fire 0) := rfl
  have hanswer : batching.step (sent.fire 0) (.answer 0 answer) =
      some (World.answer { sent.fire 0 with outstanding := [] } [inflight] answer) := rfl
  refine ⟨{ provider := {} }, [.send method params, .timer 0, .answer 0 answer],
    World.answer { sent.fire 0 with outstanding := [] } [inflight] answer, ⟨42, rfl⟩, ?_, ?_,
    inflight, ?_, rfl, rfl, ?_⟩
  · rw [System.run, hsend, Option.bind_some, System.run, hfire, Option.bind_some, System.run,
      hanswer]
    rfl
  · refine ⟨trivial, fun s₁ h₁ => ⟨trivial, fun s₂ h₂ => ⟨?_, fun _ _ => trivial⟩⟩⟩
    rw [hsend] at h₁
    rw [← Option.some.inj h₁, hfire] at h₂
    rw [← Option.some.inj h₂]
    intro batch hbatch
    rw [← Option.some.inj (show some [inflight] = some batch from hbatch)]
    rfl
  · have hcreated := congrArg Requests.created
      (answer_requests { sent.fire 0 with outstanding := [] } [inflight] answer)
    show inflight ∈ World.created _
    rw [show World.created _ = _ from hcreated]
    exact List.mem_singleton_self inflight
  · have hsettles := answer_settles { sent.fire 0 with outstanding := [] } [inflight] answer
      (List.nodup_singleton _) inflight (List.mem_singleton_self inflight) rfl
    rw [hsettles]
    show some (some (answerOutcome (.response (array [{ method, params, id := 42 }])) _)) = _
    rw [harray]
    rfl

end SubqlEthereum.Ethers
