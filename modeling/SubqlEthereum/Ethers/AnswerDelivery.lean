import SubqlEthereum.Ethers.RequestAccounting
import SubqlEthereum.Library.LastEntry

/-!
# Every request gets its own answer

The promises of a batch are settled by the answer to it, each by the last entry with its id.
`answer_promises` gives the calls an answer makes.  The invariant `Promised` says that no two
requests share a promise and that what is pending or unanswered is unsettled, so that the calls
settle the promises of the batch and no others.
-/

namespace SubqlEthereum.Ethers

open SubqlEthereum.External SubqlEthereum.JsonText SubqlEthereum.StepSystem
open SubqlEthereum.Promises SubqlEthereum.Batches SubqlEthereum.LastEntry

/-! ### The calls of an answer -/

/-- The last entry of a result with an id. -/
abbrev LastWithId (result : List RpcResult) (id : Option ℤ) (payload : RpcResult) : Prop :=
  LastUnder (·.id) result id payload

theorem resultMap_eq (result : List RpcResult) : resultMap result = insertAll (·.id) result := rfl

/-- An array with a single entry, whose id is `null`. -/
def SingleNullId (result : List RpcResult) : Prop :=
  ∃ payload, result = [payload] ∧ payload.id = none

instance : DecidablePred SingleNullId
  | [] => isFalse (by simp [SingleNullId])
  | [payload] => decidable_of_iff (payload.id = none) (by simp [SingleNullId])
  | _ :: _ :: _ => isFalse (by simp [SingleNullId])

/-- What a request makes of the entry with its id. -/
def payloadOutcome (request : Request) : Option RpcResult → Outcome (Option Json) JsError
  | none => .rejected (missingPayload request)
  | some payload =>
    match payload.error with
    | some error => .rejected (payloadError error)
    | none => .resolved payload.result

/-- The outcome an answer has for a request of its batch. -/
def answerOutcome (answer : Answer) (request : Request) : Outcome (Option Json) JsError :=
  match answer with
  | .failure e => .rejected e
  | .response (.other result _) => .rejected (invalidResponse result)
  | .response (.array [{ id := none, error, .. }]) =>
    .rejected { message := (error.map (·.message)).getD "" }
  | .response (.array result) => payloadOutcome request (resultMap result (some request.id))

/-- The calls that give every request of a batch its outcome. -/
def calls (batch : List InflightRequest) (outcome : Request → Outcome (Option Json) JsError) :
    List (ℕ × Outcome (Option Json) JsError) :=
  batch.map fun inflight => (inflight.promise, outcome inflight.request)

theorem rejectAll_promises (w : World) (batch : List InflightRequest) (e : JsError) :
    (w.rejectAll batch e).promises = settleAll w.promises (calls batch fun _ => .rejected e) := by
  induction batch generalizing w with
  | nil => rfl
  | cons inflight rest ih =>
    show ((w.reject inflight e).rejectAll rest e).promises = _
    rw [ih]
    rfl

theorem settlePayload_promises (result : List RpcResult) (w : World) (inflight : InflightRequest) :
    (w.settlePayload result inflight).promises =
      settle w.promises inflight.promise
        (payloadOutcome inflight.request (resultMap result (some inflight.request.id))) := by
  rw [World.settlePayload]
  cases resultMap result (some inflight.request.id) with
  | none => rfl
  | some payload =>
    cases herror : payload.error with
    | some error =>
      simp only [herror, payloadOutcome]
      split_ifs <;> rfl
    | none =>
      simp only [herror, payloadOutcome]
      split_ifs <;> rfl

theorem settleLoop_promises (result : List RpcResult) (w : World) (batch : List InflightRequest) :
    (batch.foldl (World.settlePayload result) w).promises =
      settleAll w.promises (calls batch fun request =>
        payloadOutcome request (resultMap result (some request.id))) := by
  induction batch generalizing w with
  | nil => rfl
  | cons inflight rest ih =>
    rw [List.foldl_cons, ih, settlePayload_promises]
    rfl

/-- The response handler on an array that is not the single-entry form. -/
theorem respond_array (w : World) (batch : List InflightRequest) (result : List RpcResult)
    (hresult : ¬ SingleNullId result) :
    w.respond batch (.array result) =
      .ok ((batch.foldl (World.settlePayload result) w).adjustBatchSize true) := by
  rw [World.respond]
  intro result' error hsingle
  exact hresult ⟨_, hsingle, rfl⟩

theorem answerOutcome_array (result : List RpcResult) (hresult : ¬ SingleNullId result)
    (request : Request) :
    answerOutcome (.response (.array result)) request =
      payloadOutcome request (resultMap result (some request.id)) := by
  rw [answerOutcome]
  intro result' error hsingle
  exact hresult ⟨_, hsingle, rfl⟩

/-- **The calls of an answer.**  Every request of the batch is given its outcome first; where the
handler itself fails, the `catch` makes further calls on the same promises. -/
theorem answer_promises (w : World) (batch : List InflightRequest) (answer : Answer) :
    ∃ more, (w.answer batch answer).promises =
        settleAll w.promises (calls batch (answerOutcome answer) ++ more) ∧
      ∀ call ∈ more, ∃ inflight ∈ batch, inflight.promise = call.1 := by
  have hnone : ∀ call ∈ ([] : List (ℕ × Outcome (Option Json) JsError)),
      ∃ inflight ∈ batch, inflight.promise = call.1 :=
    fun call hcall => absurd hcall List.not_mem_nil
  cases answer with
  | failure e =>
    refine ⟨[], ?_, hnone⟩
    rw [List.append_nil]
    exact rejectAll_promises w batch e
  | response body =>
    cases body with
    | other result not_array =>
      have hrejected := rejectAll_promises w batch (invalidResponse result)
      simp only [World.answer, World.respond]
      cases bodyErrorMessage result with
      | error e =>
        refine ⟨calls batch fun _ => .rejected e, ?_, ?_⟩
        · show ((w.rejectAll batch (invalidResponse result)).rejectAll batch e).promises = _
          rw [rejectAll_promises, hrejected, settleAll_append]
          rfl
        · intro call hcall
          obtain ⟨inflight, hinflight, hcall⟩ := List.mem_map.mp hcall
          exact ⟨inflight, hinflight, by rw [← hcall]⟩
      | ok message =>
        refine ⟨[], ?_, hnone⟩
        rw [List.append_nil]
        simp only
        split_ifs <;> exact hrejected
    | array result =>
      refine ⟨[], ?_, hnone⟩
      rw [List.append_nil]
      by_cases hresult : SingleNullId result
      · obtain ⟨payload, hsingle, hid⟩ := hresult
        obtain ⟨id, result', error⟩ := payload
        have hid : id = none := hid
        subst hsingle
        subst hid
        exact rejectAll_promises w batch _
      · rw [World.answer, respond_array w batch result hresult]
        have houtcome : answerOutcome (.response (.array result)) = fun request =>
            payloadOutcome request (resultMap result (some request.id)) := by
          funext request
          exact answerOutcome_array result hresult request
        rw [houtcome]
        exact settleLoop_promises result w batch

/-! ### What an answer does to a promise -/

theorem answer_settles (w : World) (batch : List InflightRequest) (answer : Answer)
    (hdistinct : (batch.map (·.promise)).Nodup) (inflight : InflightRequest)
    (hinflight : inflight ∈ batch) (hunsettled : w.promises[inflight.promise]? = some none) :
    (w.answer batch answer).promises[inflight.promise]? =
      some (some (answerOutcome answer inflight.request)) := by
  obtain ⟨more, hpromises, _⟩ := answer_promises w batch answer
  rw [hpromises, settleAll_append]
  apply settleAll_settled
  apply settleAll_called _ _ _ _ hunsettled
  · exact List.mem_map.mpr ⟨inflight, hinflight, rfl⟩
  · intro call hcall hsame
    obtain ⟨other, hother, hcall⟩ := List.mem_map.mp hcall
    have heq : other = inflight := by
      apply List.inj_on_of_nodup_map hdistinct hother hinflight
      rw [← hsame, ← hcall]
    rw [← hcall, heq]

theorem answer_other (w : World) (batch : List InflightRequest) (answer : Answer) (p : ℕ)
    (hp : ∀ inflight ∈ batch, inflight.promise ≠ p) :
    (w.answer batch answer).promises[p]? = w.promises[p]? := by
  obtain ⟨more, hpromises, hmore⟩ := answer_promises w batch answer
  rw [hpromises]
  apply settleAll_other
  intro call hcall
  rcases List.mem_append.mp hcall with h | h
  · obtain ⟨inflight, hinflight, hcall⟩ := List.mem_map.mp h
    rw [← hcall]
    exact hp inflight hinflight
  · obtain ⟨inflight, hinflight, hpromise⟩ := hmore call h
    rw [← hpromise]
    exact hp inflight hinflight

theorem answer_settled (w : World) (batch : List InflightRequest) (answer : Answer) (p : ℕ)
    (outcome : Outcome (Option Json) JsError) (hp : w.promises[p]? = some (some outcome)) :
    (w.answer batch answer).promises[p]? = some (some outcome) := by
  obtain ⟨more, hpromises, _⟩ := answer_promises w batch answer
  rw [hpromises]
  exact settleAll_settled _ _ p outcome hp

theorem answer_length (w : World) (batch : List InflightRequest) (answer : Answer) :
    (w.answer batch answer).promises.length = w.promises.length := by
  obtain ⟨more, hpromises, _⟩ := answer_promises w batch answer
  rw [hpromises, length_settleAll]

/-! ### The invariant -/

structure World.Promised (w : World) : Prop where
  below : ∀ inflight ∈ w.created, inflight.promise < w.promises.length
  distinct : (w.created.map (·.promise)).Nodup
  pending : ∀ inflight ∈ w.provider.pendingBatch.getD [], w.promises[inflight.promise]? = some none
  unanswered : ∀ i ∈ w.outstanding, ∀ batch, w.dispatched[i]? = some batch →
    ∀ inflight ∈ batch, w.promises[inflight.promise]? = some none
  outstanding_below : ∀ i ∈ w.outstanding, i < w.dispatched.length
  outstanding_nodup : w.outstanding.Nodup

/-- A new promise leaves the others as they are. -/
theorem get_concat (promises : Heap (Option Json) JsError)
    (state state' : Option (Outcome (Option Json) JsError)) (p : ℕ)
    (hp : promises[p]? = some state) : (promises ++ [state'])[p]? = some state := by
  obtain ⟨hlt, _⟩ := List.getElem?_eq_some_iff.mp hp
  rw [List.getElem?_append_left hlt, hp]

theorem promised_fire (w : World) (timer : ℕ) (hw : w.Promised) : (w.fire timer).Promised where
  below := hw.below
  distinct := hw.distinct
  pending := by
    intro inflight hinflight
    exact absurd hinflight List.not_mem_nil
  unanswered := by
    intro i hi batch hbatch
    have hbatch : (w.dispatched ++ [w.provider.pendingBatch.getD []])[i]? = some batch := hbatch
    rcases List.mem_append.mp hi with hold | hnew
    · rw [List.getElem?_append_left (hw.outstanding_below i hold)] at hbatch
      exact hw.unanswered i hold batch hbatch
    · rw [List.mem_singleton.mp hnew, List.getElem?_concat_length] at hbatch
      rw [← Option.some.inj hbatch]
      exact hw.pending
  outstanding_below := by
    intro i hi
    show i < (w.dispatched ++ [_]).length
    rw [List.length_append, List.length_singleton]
    rcases List.mem_append.mp hi with hold | hnew
    · have := hw.outstanding_below i hold
      omega
    · rw [List.mem_singleton.mp hnew]
      exact Nat.lt_succ_self _
  outstanding_nodup := by
    show (w.outstanding ++ [w.dispatched.length]).Nodup
    rw [← List.concat_eq_append, List.nodup_concat]
    refine ⟨?_, hw.outstanding_nodup⟩
    intro hmem
    exact Nat.lt_irrefl _ (hw.outstanding_below _ hmem)

theorem promised_flush (w : World) (hw : w.Promised) : w.flush.Promised := by
  rcases flush_cases w with h | ⟨timer, htimer, h⟩
  · rw [h]
    exact hw
  · rw [h]
    exact promised_fire w timer hw

theorem promised_scheduleBatch (w : World) (hw : w.Promised) : w.scheduleBatch.Promised := by
  rw [World.scheduleBatch]
  cases w.provider.pendingBatchAggregator with
  | some timer => exact hw
  | none =>
    exact ⟨hw.below, hw.distinct, hw.pending, hw.unanswered, hw.outstanding_below,
      hw.outstanding_nodup⟩

theorem promised_enqueue (w : World) (hw : w.Promised) (method : String) (params : List Json) :
    (w.enqueue method params).Promised where
  below := by
    intro inflight hinflight
    show inflight.promise < (w.promises ++ [none]).length
    rw [List.length_append, List.length_singleton]
    rcases List.mem_append.mp hinflight with hold | hnew
    · have := hw.below inflight hold
      omega
    · rw [List.mem_singleton.mp hnew]
      exact Nat.lt_succ_self _
  distinct := by
    show ((w.created ++ [_]).map fun inflight : InflightRequest => inflight.promise).Nodup
    rw [List.map_append, List.map_singleton, ← List.concat_eq_append, List.nodup_concat]
    refine ⟨?_, hw.distinct⟩
    intro hmem
    obtain ⟨inflight, hinflight, hpromise⟩ := List.mem_map.mp hmem
    have hlt := hw.below inflight hinflight
    have heq : inflight.promise = w.promises.length := hpromise
    omega
  pending := by
    intro inflight hinflight
    rcases List.mem_append.mp hinflight with hold | hnew
    · exact get_concat _ _ _ _ (hw.pending inflight hold)
    · rw [List.mem_singleton.mp hnew]
      exact List.getElem?_concat_length
  unanswered := by
    intro i hi batch hbatch inflight hinflight
    exact get_concat _ _ _ _ (hw.unanswered i hi batch hbatch inflight hinflight)
  outstanding_below := hw.outstanding_below
  outstanding_nodup := hw.outstanding_nodup

/-- A call answered from the cache has a promise of its own. -/
theorem promised_concat (w : World) (hw : w.Promised)
    (state : Option (Outcome (Option Json) JsError)) :
    { w with promises := w.promises ++ [state] }.Promised where
  below := by
    intro inflight hinflight
    have hlt := hw.below inflight hinflight
    show inflight.promise < (w.promises ++ [state]).length
    rw [List.length_append]
    omega
  distinct := hw.distinct
  pending := by
    intro inflight hinflight
    exact get_concat _ _ _ _ (hw.pending inflight hinflight)
  unanswered := by
    intro i hi batch hbatch inflight hinflight
    exact get_concat _ _ _ _ (hw.unanswered i hi batch hbatch inflight hinflight)
  outstanding_below := hw.outstanding_below
  outstanding_nodup := hw.outstanding_nodup

theorem promised_send (w : World) (hw : w.Promised) (method : String) (params : List Json) :
    (w.send method params).Promised := by
  have hscheduled := promised_scheduleBatch _ (promised_enqueue w hw method params)
  rcases send_cases w method params with h | h | h
  · rw [h]
    exact promised_concat w hw _
  · rw [h]
    exact hscheduled
  · rw [h]
    exact promised_flush _ hscheduled

/-- The promises of all requests, in the order of sending, are distinct. -/
theorem World.Promised.keys (w : World) (haccounted : w.requests.Accounted) (hw : w.Promised) :
    ((w.dispatched.flatten ++ w.provider.pendingBatch.getD []).map (·.promise)).Nodup := by
  have hplaced : w.dispatched.flatten ++ w.provider.pendingBatch.getD [] = w.created :=
    haccounted.placed
  rw [hplaced]
  exact hw.distinct

theorem promised_answer (w : World) (haccounted : w.requests.Accounted) (hw : w.Promised) (i : ℕ)
    (batch : List InflightRequest) (hbatch : w.dispatched[i]? = some batch) (answer : Answer) :
    ({ w with outstanding := w.outstanding.erase i }.answer batch answer).Promised := by
  have hkeys := World.Promised.keys w haccounted hw
  have hmem : batch ∈ w.dispatched := List.mem_of_getElem? hbatch
  generalize hw' : { w with outstanding := w.outstanding.erase i }.answer batch answer = w'
  have hrequests : w'.requests = { w with outstanding := w.outstanding.erase i }.requests := by
    rw [← hw', answer_requests]
  have hcreated : w'.created = w.created := congrArg Requests.created hrequests
  have hdispatched : w'.dispatched = w.dispatched := congrArg Requests.dispatched hrequests
  have hpending : w'.provider.pendingBatch = w.provider.pendingBatch :=
    congrArg Requests.pendingBatch hrequests
  have houtstanding : w'.outstanding = w.outstanding.erase i :=
    congrArg Requests.outstanding hrequests
  have hlength : w'.promises.length = w.promises.length := by
    rw [← hw', answer_length]
  have hother : ∀ p, (∀ inflight ∈ batch, inflight.promise ≠ p) →
      w'.promises[p]? = w.promises[p]? := by
    intro p hp
    rw [← hw', answer_other _ batch answer p hp]
  constructor
  case below =>
    rw [hcreated, hlength]
    exact hw.below
  case distinct =>
    rw [hcreated]
    exact hw.distinct
  case pending =>
    rw [hpending]
    intro inflight hinflight
    rw [hother]
    · exact hw.pending inflight hinflight
    · intro answered hanswered
      exact waiting_apart (·.promise) _ _ hkeys batch hmem answered inflight hanswered hinflight
  case unanswered =>
    rw [houtstanding, hdispatched]
    intro j hj batch' hbatch' inflight hinflight
    obtain ⟨hne, hj⟩ := (hw.outstanding_nodup.mem_erase_iff).mp hj
    rw [hother]
    · exact hw.unanswered j hj batch' hbatch' inflight hinflight
    · intro answered hanswered hsame
      exact hne (batches_apart (·.promise) _ _ hkeys j i batch' batch hbatch' hbatch inflight
        answered hinflight hanswered hsame.symm)
  case outstanding_below =>
    rw [houtstanding, hdispatched]
    intro j hj
    exact hw.outstanding_below j (List.mem_of_mem_erase hj)
  case outstanding_nodup =>
    rw [houtstanding]
    exact hw.outstanding_nodup.erase i

/-- **The step lemma.** -/
theorem promised_step (w : World) (action : Action) (w' : World)
    (haccounted : w.requests.Accounted) (hw : w.Promised) (hstep : step w action = some w') :
    w'.Promised := by
  rcases step_cases w action w' hstep with ⟨batchSize, h⟩ | ⟨method, params, h⟩ | h |
    ⟨timer, hscheduled, h⟩ | ⟨i, batch, answer, hbatch, houtstanding, h⟩
  · rw [h]
    exact ⟨hw.below, hw.distinct, hw.pending, hw.unanswered, hw.outstanding_below,
      hw.outstanding_nodup⟩
  · rw [h]
    exact promised_send w hw method params
  · rw [h]
    exact promised_flush w hw
  · rw [h]
    exact promised_fire w timer hw
  · rw [h]
    exact promised_answer w haccounted hw i batch hbatch answer

theorem promised (w : World) (hw : batching.Reachable w) : w.Promised := by
  have hboth : w.requests.Accounted ∧ w.Promised := by
    apply invariant (fun w => w.requests.Accounted ∧ w.Promised) ?_ ?_ w hw
    · intro start hstart
      refine ⟨accounted start ⟨start, hstart, Relation.ReflTransGen.refl⟩, ?_⟩
      obtain ⟨nextId, hstart⟩ := hstart
      rw [hstart]
      exact {
        below := fun inflight hinflight => absurd hinflight List.not_mem_nil
        distinct := List.nodup_nil
        pending := fun inflight hinflight => absurd hinflight List.not_mem_nil
        unanswered := fun i hi => absurd hi List.not_mem_nil
        outstanding_below := fun i hi => absurd hi List.not_mem_nil
        outstanding_nodup := List.nodup_nil }
    · intro w action w' h hstep
      exact ⟨accounted_step w action w' h.1 hstep, promised_step w action w' h.1 h.2 hstep⟩
  exact hboth.2

/-! ### The outcome of a request -/

/-- How an answer settles a request.  The array form is read entry by entry: the request is
resolved, rejected with an error or rejected as missing according to the last entry with its id. -/
def AnsweredBy (answer : Answer) (request : Request) (outcome : Outcome (Option Json) JsError) :
    Prop :=
  match answer with
  | .failure e => outcome = .rejected e
  | .response (.other result _) => outcome = .rejected (invalidResponse result)
  | .response (.array result) =>
    (∀ payload, result = [payload] → payload.id = none →
      outcome = .rejected { message := (payload.error.map (·.message)).getD "" }) ∧
    (¬ SingleNullId result →
      (∀ value, outcome = .resolved value ↔
        ∃ payload, LastWithId result (some request.id) payload ∧ payload.error = none ∧
          payload.result = value) ∧
      (∀ error, outcome = .rejected (payloadError error) ↔
        ∃ payload, LastWithId result (some request.id) payload ∧ payload.error = some error) ∧
      (outcome = .rejected (missingPayload request) ↔
        ∀ payload ∈ result, payload.id ≠ some request.id))

theorem payloadError_injective : Function.Injective payloadError := by
  intro a b h
  obtain ⟨code, message, data⟩ := a
  obtain ⟨code', message', data'⟩ := b
  have hmessage : message = message' := congrArg JsError.message h
  have hfields := congrArg JsError.fields h
  simp only [payloadError, List.cons.injEq, Prod.mk.injEq, Json.num.injEq, true_and] at hfields
  obtain ⟨hcode, hdata⟩ := hfields
  have hdata : data = data' := by
    cases data <;> cases data' <;> simp_all
  rw [hmessage, hcode, hdata]

theorem payloadError_ne_missingPayload (error : RpcError) (request : Request) :
    payloadError error ≠ missingPayload request := by
  intro h
  have hfields := congrArg JsError.fields h
  exact absurd hfields (List.cons_ne_nil _ _)

/-- An outcome tells whether there was an entry, and its error or result. -/
theorem payloadOutcome_spec (request : Request) (found : Option RpcResult) :
    (∀ value, payloadOutcome request found = .resolved value ↔
      ∃ payload, found = some payload ∧ payload.error = none ∧ payload.result = value) ∧
    (∀ error, payloadOutcome request found = .rejected (payloadError error) ↔
      ∃ payload, found = some payload ∧ payload.error = some error) ∧
    (payloadOutcome request found = .rejected (missingPayload request) ↔ found = none) := by
  cases found with
  | none =>
    refine ⟨fun value => ?_, fun error => ?_, ?_⟩
    · simp [payloadOutcome]
    · simpa [payloadOutcome] using (payloadError_ne_missingPayload error request).symm
    · simp [payloadOutcome]
  | some payload =>
    cases herror : payload.error with
    | none => simp [payloadOutcome, herror]
    | some error =>
      refine ⟨fun value => ?_, fun error' => ?_, ?_⟩
      · simp [payloadOutcome, herror]
      · simp [payloadOutcome, herror, payloadError_injective.eq_iff]
      · simpa [payloadOutcome, herror] using payloadError_ne_missingPayload error request

theorem answeredBy_answerOutcome (answer : Answer) (request : Request) :
    AnsweredBy answer request (answerOutcome answer request) := by
  cases answer with
  | failure e => rfl
  | response body =>
    cases body with
    | other result not_array => rfl
    | array result =>
      refine ⟨?_, ?_⟩
      · intro payload hsingle hid
        obtain ⟨id, result', error⟩ := payload
        have hid : id = none := hid
        subst hid
        subst hsingle
        rfl
      · intro hresult
        rw [answerOutcome_array result hresult]
        simp only [LastWithId, ← insertAll_eq_some_iff, ← insertAll_eq_none_iff]
        exact payloadOutcome_spec request (resultMap result (some request.id))

/-! ### A settled promise is settled for good -/

theorem scheduleBatch_promises (w : World) : w.scheduleBatch.promises = w.promises := by
  rw [World.scheduleBatch]
  cases w.provider.pendingBatchAggregator <;> rfl

theorem flush_promises (w : World) : w.flush.promises = w.promises := by
  rcases flush_cases w with h | ⟨timer, htimer, h⟩
  · rw [h]
  · rw [h]
    rfl

theorem settled_step (w : World) (action : Action) (w' : World) (p : ℕ)
    (outcome : Outcome (Option Json) JsError) (hp : w.promises[p]? = some (some outcome))
    (hstep : step w action = some w') : w'.promises[p]? = some (some outcome) := by
  rcases step_cases w action w' hstep with ⟨batchSize, h⟩ | ⟨method, params, h⟩ | h |
    ⟨timer, hscheduled, h⟩ | ⟨i, batch, answer, hbatch, houtstanding, h⟩
  · rw [h]
    exact hp
  · rw [h]
    rcases send_cases w method params with hsend | hsend | hsend
    · rw [hsend]
      exact get_concat _ _ _ _ hp
    · rw [hsend, scheduleBatch_promises]
      exact get_concat _ _ _ _ hp
    · rw [hsend, flush_promises, scheduleBatch_promises]
      exact get_concat _ _ _ _ hp
  · rw [h, flush_promises]
    exact hp
  · rw [h]
    exact hp
  · rw [h]
    exact answer_settled _ batch answer p outcome hp

theorem settled_stays (w w' : World) (hw : batching.Reachable w) (hleads : batching.Leads w w')
    (p : ℕ) (outcome : Outcome (Option Json) JsError)
    (hp : w.promises[p]? = some (some outcome)) : w'.promises[p]? = some (some outcome) :=
  kept (fun w => w.promises[p]? = some (some outcome))
    (fun s action s' _ hs hstep => settled_step s action s' p outcome hs hstep) w w' hw hp hleads

/-! ### The order of an array -/

theorem settlePayload_perm (result result' : List RpcResult) (hperm : result.Perm result')
    (hdistinct : (result.map (·.id)).Nodup) :
    World.settlePayload result = World.settlePayload result' := by
  have hmap : resultMap result = resultMap result' := by
    rw [resultMap_eq, resultMap_eq]
    exact insertAll_perm (·.id) result result' hperm hdistinct
  funext w inflight
  rw [World.settlePayload, hmap]
  rfl

/-- Permuting an array with distinct ids changes nothing at all. -/
theorem answer_perm (w : World) (batch : List InflightRequest) (result result' : List RpcResult)
    (hperm : result.Perm result') (hdistinct : (result.map (·.id)).Nodup) :
    w.answer batch (.response (.array result)) = w.answer batch (.response (.array result')) := by
  by_cases hresult : SingleNullId result
  · obtain ⟨payload, hsingle, _⟩ := hresult
    rw [hsingle] at hperm ⊢
    rw [List.perm_singleton.mp hperm.symm]
  · have hresult' : ¬ SingleNullId result' := by
      intro h
      obtain ⟨payload, hsingle, hid⟩ := h
      rw [hsingle] at hperm
      exact hresult ⟨payload, List.perm_singleton.mp hperm, hid⟩
    rw [World.answer, World.answer, respond_array w batch result hresult,
      respond_array w batch result' hresult', settlePayload_perm result result' hperm hdistinct]

/-! ### Each request is answered by its own response -/

/-- **Each request is answered by its own response, exactly once.**  An outstanding batch of a
reachable state has unsettled promises.  Whatever the answer, it is processed, settles each of
them as `AnsweredBy` says and for good, and touches no other promise, so none of another batch;
the batch is outstanding no more.  Permuting an array with distinct ids changes nothing. -/
theorem batch_answered_once (w : World) (hw : batching.Reachable w) (i : ℕ)
    (hi : i ∈ w.outstanding) :
    ∃ batch, w.dispatched[i]? = some batch ∧
      (∀ inflight ∈ batch, w.promises[inflight.promise]? = some none) ∧
      (∀ j batch', j ≠ i → w.dispatched[j]? = some batch' →
        ∀ inflight' ∈ batch', ∀ inflight ∈ batch, inflight.promise ≠ inflight'.promise) ∧
      (∀ answer, ∃ w', step w (.answer i answer) = some w' ∧ i ∉ w'.outstanding ∧
        (∀ inflight ∈ batch, ∃ outcome, AnsweredBy answer inflight.request outcome ∧
          ∀ later, batching.Leads w' later →
            later.promises[inflight.promise]? = some (some outcome)) ∧
        (∀ p, (∀ inflight ∈ batch, inflight.promise ≠ p) → w'.promises[p]? = w.promises[p]?)) ∧
      (∀ result result' : List RpcResult, result.Perm result' → (result.map (·.id)).Nodup →
        step w (.answer i (.response (.array result))) =
          step w (.answer i (.response (.array result')))) := by
  have haccounted := accounted w hw
  have hpromised := promised w hw
  have hkeys := World.Promised.keys w haccounted hpromised
  have hlt := hpromised.outstanding_below i hi
  have hbatch : w.dispatched[i]? = some w.dispatched[i] := List.getElem?_eq_getElem hlt
  have hmem : w.dispatched[i] ∈ w.dispatched := List.getElem_mem hlt
  have hstep : ∀ answer, step w (.answer i answer) =
      some ({ w with outstanding := w.outstanding.erase i }.answer w.dispatched[i] answer) := by
    intro answer
    simp only [step, hbatch, if_pos hi]
  refine ⟨w.dispatched[i], hbatch, hpromised.unanswered i hi _ hbatch, ?_, ?_, ?_⟩
  · intro j batch' hj hbatch' inflight' hinflight' inflight hinflight hsame
    exact hj (batches_apart (·.promise) _ _ hkeys j i batch' _ hbatch' hbatch inflight' inflight
      hinflight' hinflight hsame.symm)
  · intro answer
    refine ⟨_, hstep answer, ?_, ?_, ?_⟩
    · have hrequests := answer_requests { w with outstanding := w.outstanding.erase i }
        w.dispatched[i] answer
      have houtstanding : _ = w.outstanding.erase i := congrArg Requests.outstanding hrequests
      intro hstill
      have hstill : i ∈ w.outstanding.erase i := houtstanding.subst hstill
      exact (hpromised.outstanding_nodup.mem_erase_iff.mp hstill).1 rfl
    · intro inflight hinflight
      refine ⟨answerOutcome answer inflight.request,
        answeredBy_answerOutcome answer inflight.request, ?_⟩
      intro later hlater
      apply settled_stays _ later _ hlater
      · exact answer_settles _ _ answer (batch_nodup (·.promise) _ _ hkeys _ hmem) inflight
          hinflight (hpromised.unanswered i hi _ hbatch inflight hinflight)
      · exact Reachable.leads hw (Relation.ReflTransGen.single ⟨.answer i answer, hstep answer⟩)
    · intro p hp
      exact answer_other _ _ answer p hp
  · intro result result' hperm hdistinct
    rw [hstep, hstep, answer_perm _ _ result result' hperm hdistinct]

/-- Two requests in one batch, whatever the answer to it. -/
theorem two_requests_answered_once :
    ∃ w, batching.run { provider := {} }
        [.send "eth_blockNumber" [], .send "eth_gasPrice" []] = some w ∧
      ∀ answer, ∃ w', step w (.answer 0 answer) = some w' ∧ 0 ∉ w'.outstanding := by
  refine ⟨_, rfl, ?_⟩
  have hleads := leads_of_run _ _ _
    (show batching.run { provider := {} }
      [.send "eth_blockNumber" [], .send "eth_gasPrice" []] = some _ from rfl)
  obtain ⟨batch, _, _, _, hanswer, _⟩ :=
    batch_answered_once _ ⟨_, ⟨42, rfl⟩, hleads⟩ 0 List.mem_cons_self
  intro answer
  obtain ⟨w', hstep, houtstanding, _⟩ := hanswer answer
  exact ⟨w', hstep, houtstanding⟩

end SubqlEthereum.Ethers
