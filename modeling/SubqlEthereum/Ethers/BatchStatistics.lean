import SubqlEthereum.Ethers.AnswerDelivery
import SubqlEthereum.Ethers.BatchControl

/-!
# What the batch statistics count

The handler of a response calls `adjustBatchSize` once for every request whose entry reports a
limit and once more at its end.  `Answer.counts` lists these calls, and `tally_run` says that the
counts of a run make the batch size and the counters what they are.

A response with a limit error so makes failures and then a success.  In a run of such responses
every success follows a failure, and no window is filled with successes.
-/

namespace SubqlEthereum.Ethers

open SubqlEthereum.External SubqlEthereum.JsonText SubqlEthereum.StepSystem
open SubqlEthereum.CountWindows SubqlEthereum.LastEntry

/-! ### The calls of `adjustBatchSize` -/

/-- Whether the entry for a request reports a limit. -/
def limitReported (result : List RpcResult) (inflight : InflightRequest) : Bool :=
  (resultMap result (some inflight.request.id)).any fun payload =>
    payload.error.any fun error => limitExceeded error.message

/-- The arguments `adjustBatchSize` is called with by the handler of an answer, in order. -/
def Answer.counts (batch : List InflightRequest) : Answer → List Bool
  | .failure _ => []
  | .response (.other result _) =>
    match bodyErrorMessage result with
    | .error _ => []
    | .ok message => if isText message "Batch size is too large" then [false] else []
  | .response (.array [{ id := none, .. }]) => [false]
  | .response (.array result) =>
    (batch.filter (limitReported result)).map (fun _ => false) ++ [true]

theorem counts_array (batch : List InflightRequest) (result : List RpcResult)
    (hresult : ¬ SingleNullId result) :
    Answer.counts batch (.response (.array result)) =
      (batch.filter (limitReported result)).map (fun _ => false) ++ [true] := by
  rw [Answer.counts]
  intro result' error hsingle
  exact hresult ⟨_, hsingle, rfl⟩

theorem counts_singleNullId (batch : List InflightRequest) (result : List RpcResult)
    (hresult : SingleNullId result) :
    Answer.counts batch (.response (.array result)) = [false] := by
  obtain ⟨payload, hsingle, hid⟩ := hresult
  obtain ⟨id, result', error⟩ := payload
  have hid : id = none := hid
  rw [hsingle, hid]
  rfl

/-! ### What a handler does to the tally -/

def World.tally (w : World) : Tally ℤ := w.provider.tally

theorem adjustBatchSize_world_tally (w : World) (success : Bool)
    (hopen : w.tally.Open batchSizeAdjustmentInterval) :
    (w.adjustBatchSize success).tally =
      w.tally.run batchSizeAdjustmentInterval resize [success] :=
  adjustBatchSize_tally w.provider success hopen

theorem rejectAll_tally (w : World) (batch : List InflightRequest) (e : JsError) :
    (w.rejectAll batch e).tally = w.tally := by
  induction batch generalizing w with
  | nil => rfl
  | cons inflight rest ih =>
    show ((w.reject inflight e).rejectAll rest e).tally = w.tally
    rw [ih]
    rfl

/-- One entry counts when it reports a limit. -/
theorem settlePayload_tally (result : List RpcResult) (w : World) (inflight : InflightRequest)
    (hopen : w.tally.Open batchSizeAdjustmentInterval) :
    (w.settlePayload result inflight).tally =
      w.tally.run batchSizeAdjustmentInterval resize
        (([inflight].filter (limitReported result)).map fun _ => false) := by
  rw [World.settlePayload]
  cases hpayload : resultMap result (some inflight.request.id) with
  | none => simp [limitReported, hpayload]; rfl
  | some payload =>
    cases herror : payload.error with
    | none =>
      simp only [herror]
      have hnot : limitReported result inflight = false := by simp [limitReported, hpayload, herror]
      simp only [List.filter_cons_of_neg (by simp [hnot] : ¬ limitReported result inflight = true)]
      split_ifs <;> rfl
    | some error =>
      have hlimit : limitReported result inflight = limitExceeded error.message := by
        simp [limitReported, hpayload, herror]
      simp only [herror]
      by_cases hcounts : limitExceeded error.message = true
      · rw [List.filter_cons_of_pos (hlimit.trans hcounts), if_pos hcounts]
        exact adjustBatchSize_world_tally w false hopen
      · rw [List.filter_cons_of_neg (by rw [hlimit]; exact hcounts), if_neg hcounts]
        rfl

/-- The entries of a batch count one after another. -/
theorem settleLoop_tally (result : List RpcResult) (batch : List InflightRequest) (w : World)
    (hopen : w.tally.Open batchSizeAdjustmentInterval) :
    (batch.foldl (World.settlePayload result) w).tally =
      w.tally.run batchSizeAdjustmentInterval resize
        ((batch.filter (limitReported result)).map fun _ => false) := by
  induction batch generalizing w with
  | nil => rfl
  | cons inflight rest ih =>
    have hfirst := settlePayload_tally result w inflight hopen
    have hsplit : (inflight :: rest).filter (limitReported result) =
        [inflight].filter (limitReported result) ++ rest.filter (limitReported result) := by
      rw [← List.filter_append]
      rfl
    rw [List.foldl_cons, ih, hfirst, hsplit, List.map_append, run_append]
    rw [hfirst]
    exact open_run resize (by decide) w.tally _ hopen

/-- **An answer changes the tally by its counts.** -/
theorem answer_tally (w : World) (batch : List InflightRequest) (answer : Answer)
    (hopen : w.tally.Open batchSizeAdjustmentInterval) :
    (w.answer batch answer).tally =
      w.tally.run batchSizeAdjustmentInterval resize (answer.counts batch) := by
  cases answer with
  | failure e => exact rejectAll_tally w batch e
  | response body =>
    cases body with
    | other result not_array =>
      have hrejected := rejectAll_tally w batch (invalidResponse result)
      simp only [World.answer, World.respond, Answer.counts]
      cases bodyErrorMessage result with
      | error e =>
        show ((w.rejectAll batch (invalidResponse result)).rejectAll batch e).tally = w.tally
        rw [rejectAll_tally, hrejected]
      | ok message =>
        simp only
        split_ifs
        · rw [adjustBatchSize_world_tally _ false (by rw [hrejected]; exact hopen), hrejected]
        · exact hrejected
    | array result =>
      by_cases hresult : SingleNullId result
      · rw [counts_singleNullId batch result hresult]
        obtain ⟨payload, hsingle, hid⟩ := hresult
        obtain ⟨id, result', error⟩ := payload
        have hid : id = none := hid
        subst hsingle
        subst hid
        have hrejected := rejectAll_tally w batch { message := (error.map (·.message)).getD "" }
        have hcount := adjustBatchSize_world_tally
          (w.rejectAll batch { message := (error.map (·.message)).getD "" }) false
          (by rw [hrejected]; exact hopen)
        rw [hrejected] at hcount
        exact hcount
      · have hloop := settleLoop_tally result batch w hopen
        rw [World.answer, respond_array w batch result hresult, counts_array batch result hresult,
          run_append, ← hloop]
        apply adjustBatchSize_world_tally
        rw [hloop]
        exact open_run resize (by decide) w.tally _ hopen

/-! ### The counts of a run -/

/-- The calls of `adjustBatchSize` in a step. -/
def stepCounts (w : World) : Action → List Bool
  | .answer i answer =>
    match w.dispatched[i]? with
    | some batch => answer.counts batch
    | none => []
  | _ => []

/-- A step that does not set the batch size from outside. -/
def LeavesSize : Action → Prop
  | .setBatchSize _ => False
  | _ => True

instance : DecidablePred LeavesSize
  | .setBatchSize _ => inferInstanceAs (Decidable False)
  | .send _ _ | .flush | .timer _ | .answer _ _ => inferInstanceAs (Decidable True)

theorem flush_tally (w : World) : w.flush.tally = w.tally := by
  rcases flush_cases w with h | ⟨timer, _, h⟩
  · rw [h]
  · rw [h]
    rfl

theorem scheduleBatch_tally (w : World) : w.scheduleBatch.tally = w.tally := by
  rw [World.scheduleBatch]
  cases w.provider.pendingBatchAggregator <;> rfl

theorem send_tally (w : World) (method : String) (params : List Json) :
    (w.send method params).tally = w.tally := by
  have henqueued : (w.enqueue method params).scheduleBatch.tally = w.tally := by
    rw [scheduleBatch_tally]
    rfl
  rcases send_cases w method params with h | h | h
  · rw [h]
    rfl
  · rw [h]
    exact henqueued
  · rw [h, flush_tally]
    exact henqueued

/-- **A step changes the tally by its counts**, unless the size is set. -/
theorem step_tally (w : World) (action : Action) (w' : World) (hstep : step w action = some w')
    (hopen : w.tally.Open batchSizeAdjustmentInterval) (hleaves : LeavesSize action) :
    w'.tally = w.tally.run batchSizeAdjustmentInterval resize (stepCounts w action) := by
  cases action with
  | setBatchSize batchSize => exact absurd hleaves id
  | send method params =>
    rw [← Option.some.inj hstep]
    exact send_tally w method params
  | flush =>
    rw [← Option.some.inj hstep]
    exact flush_tally w
  | timer timer =>
    rw [(step_timer hstep).2]
    rfl
  | answer i answer =>
    obtain ⟨batch, hbatch, -, hanswer⟩ := step_answer hstep
    rw [hanswer, stepCounts, hbatch]
    exact answer_tally { w with outstanding := w.outstanding.erase i } batch answer hopen

/-- The counters stay below ten, whatever the step. -/
theorem open_step (w : World) (action : Action) (w' : World) (hstep : step w action = some w')
    (hopen : w.tally.Open batchSizeAdjustmentInterval) :
    w'.tally.Open batchSizeAdjustmentInterval := by
  cases action with
  | setBatchSize batchSize =>
    rw [← Option.some.inj hstep]
    exact hopen
  | send _ _ | flush | timer _ | answer _ _ =>
    rw [step_tally w _ w' hstep hopen trivial]
    exact open_run resize (by decide) w.tally _ hopen

theorem open_reachable (w : World) (hw : batching.Reachable w) :
    w.tally.Open batchSizeAdjustmentInterval := by
  apply invariant (fun w => w.tally.Open batchSizeAdjustmentInterval) ?_
    (fun w action w' hopen hstep => open_step w action w' hstep hopen) w hw
  intro start hstart
  obtain ⟨nextId, hstart⟩ := hstart
  rw [hstart]
  show 0 + 0 < 10
  omega

/-- **The counts of a run** make the size and the counters what they are. -/
theorem tally_run (w : World) (hw : batching.Reachable w) (actions : List Action) (w' : World)
    (hrun : batching.run w actions = some w')
    (hleaves : batching.Along (fun _ action => LeavesSize action) w actions) :
    w'.tally = w.tally.run batchSizeAdjustmentInterval resize
      (batching.outputs stepCounts w actions) :=
  view_run stepCounts World.tally (Tally.count batchSizeAdjustmentInterval resize)
    (fun w => w.tally.Open batchSizeAdjustmentInterval) (fun _ action => LeavesSize action)
    (fun w action w' hopen _ hstep => open_step w action w' hstep hopen)
    (fun w action w' hopen hleaves hstep => step_tally w action w' hstep hopen hleaves)
    actions w w' (open_reachable w hw) hleaves hrun

/-! ### Sustained rate limiting -/

/-- A step of a run in which every response processed makes a failure count.  The size is not set
from outside. -/
def RateLimited (w : World) : Action → Prop
  | .setBatchSize _ => False
  | .answer i (.response body) => false ∈ stepCounts w (.answer i (.response body))
  | _ => True

instance (w : World) : ∀ action, Decidable (RateLimited w action)
  | .setBatchSize _ => inferInstanceAs (Decidable False)
  | .answer i (.response body) =>
    inferInstanceAs (Decidable (false ∈ stepCounts w (.answer i (.response body))))
  | .answer _ (.failure _) | .send _ _ | .flush | .timer _ => inferInstanceAs (Decidable True)

theorem RateLimited.leavesSize {w : World} {action : Action} (h : RateLimited w action) :
    LeavesSize action := by
  cases action with
  | setBatchSize batchSize => exact h
  | send _ _ | flush | timer _ | answer _ _ => trivial

/-- The counts of a response with a failure: failures, and then perhaps a success. -/
theorem led_counts (batch : List InflightRequest) (body : Body)
    (hfailure : false ∈ Answer.counts batch (.response body)) :
    LedByFailure (Answer.counts batch (.response body)) := by
  have hone : LedByFailure [false] := ledByFailure_cons [] List.isChain_nil
  cases body with
  | other result not_array =>
    rw [Answer.counts] at hfailure ⊢
    cases bodyErrorMessage result with
    | error e => exact ledByFailure_nil
    | ok message =>
      simp only
      split_ifs
      · exact hone
      · exact ledByFailure_nil
  | array result =>
    by_cases hresult : SingleNullId result
    · rw [counts_singleNullId batch result hresult]
      exact hone
    · rw [counts_array batch result hresult] at hfailure ⊢
      apply ledByFailure_failures
      intro hnone
      rw [hnone] at hfailure
      exact absurd hfailure (by simp)

theorem led_stepCounts (w : World) (action : Action) (h : RateLimited w action) :
    LedByFailure (stepCounts w action) := by
  cases action with
  | setBatchSize _ | send _ _ | flush | timer _ => exact ledByFailure_nil
  | answer i answer =>
    cases answer with
    | failure e =>
      rw [stepCounts]
      cases w.dispatched[i]? <;> exact ledByFailure_nil
    | response body =>
      have hfailure : false ∈ stepCounts w (.answer i (.response body)) := h
      rw [stepCounts] at hfailure ⊢
      cases hbatch : w.dispatched[i]? with
      | none => exact ledByFailure_nil
      | some batch =>
        rw [hbatch] at hfailure
        exact led_counts batch body hfailure

/-- Fewer than ten successes do not raise the size. -/
theorem resize_le (batchSize : ℤ) (successes : ℕ) (h : successes < 10) :
    resize batchSize successes ≤ batchSize := by
  have hcases := resize_cases batchSize successes
  omega

/-- **Sustained rate limiting only shrinks the batch.**  The counts of the run, taken one by one,
never raise the size, and any ten of them between two resets lower it by one while it is above
one. -/
theorem rateLimited_run_shrinks (w : World) (hw : batching.Reachable w) (actions : List Action)
    (w' : World) (hrun : batching.run w actions = some w')
    (hlimited : batching.Along RateLimited w actions) :
    let counts := batching.outputs stepCounts w actions
    let after := fun counts : List Bool =>
      counts.foldl JsonRpcBatchProvider.adjustBatchSize w.provider
    w'.provider.tally = (after counts).tally ∧
    w'.provider.batchSize ≤ w.provider.batchSize ∧
    (∀ front success back, counts = front ++ success :: back →
      (after (front ++ [success])).batchSize ≤ (after front).batchSize) ∧
    (∀ front window back, counts = front ++ window ++ back → window.length = 10 →
      (after front).successfulBatchCount = 0 → (after front).failedBatchCount = 0 →
      (after (front ++ window)).successfulBatchCount = 0 ∧
        (after (front ++ window)).failedBatchCount = 0 ∧
        (after (front ++ window)).batchSize =
          if 1 < (after front).batchSize then (after front).batchSize - 1
          else (after front).batchSize) := by
  intro counts after
  have hopen : w.provider.tally.Open batchSizeAdjustmentInterval := open_reachable w hw
  have hafter : ∀ counts, (after counts).tally =
      w.provider.tally.run batchSizeAdjustmentInterval resize counts :=
    fun counts => foldl_adjustBatchSize_tally counts w.provider hopen
  have hleaves : batching.Along (fun _ action => LeavesSize action) w actions :=
    along_imp RateLimited _ (fun _ _ h => h.leavesSize) actions w hlimited
  have hend : w'.provider.tally =
      w.provider.tally.run batchSizeAdjustmentInterval resize counts :=
    tally_run w hw actions w' hrun hleaves
  have hled : LedByFailure counts :=
    outputs_good stepCounts RateLimited LedByFailure ledByFailure_nil
      (fun _ _ hfront hback => hfront.append hback) led_stepCounts actions w hlimited
  have hone : ∀ front success back, counts = front ++ success :: back →
      ((w.provider.tally.run batchSizeAdjustmentInterval resize front).count
        batchSizeAdjustmentInterval resize success).value ≤
          (w.provider.tally.run batchSizeAdjustmentInterval resize front).value := by
    intro front success back hsplit
    rw [hsplit] at hled
    have hnotFull := hled.not_full resize (by decide) w.provider.tally hopen
    by_cases hlast : (w.provider.tally.run batchSizeAdjustmentInterval resize front).successes +
        (w.provider.tally.run batchSizeAdjustmentInterval resize front).failures + 1 =
          batchSizeAdjustmentInterval
    · rw [count_closing _ success hlast]
      exact resize_le _ _ hnotFull
    · rw [count_within _ success hlast]
  refine ⟨hend.trans (hafter counts).symm, ?_, ?_, ?_⟩
  · have hvalue := run_value_le w.provider.tally counts hone
    rw [← hend] at hvalue
    exact hvalue
  · intro front success back hsplit
    have hvalue := hone front success back hsplit
    have hnext := hafter (front ++ [success])
    rw [run_append] at hnext
    show (after (front ++ [success])).tally.value ≤ (after front).tally.value
    rw [hnext, hafter front]
    exact hvalue
  · intro front window back hsplit hlength hsuccesses hfailures
    rw [hsplit] at hled
    have hfew := hled.window
    have hwindow := foldl_adjustBatchSize_window (after front) hsuccesses hfailures window hlength
    have happend : after (front ++ window) =
        window.foldl JsonRpcBatchProvider.adjustBatchSize (after front) := List.foldl_append
    have hsize : resize (after front).batchSize (window.count true) =
        if 1 < (after front).batchSize then (after front).batchSize - 1
        else (after front).batchSize := by
      unfold resize
      split_ifs <;> omega
    rw [← happend] at hwindow
    refine ⟨congrArg Tally.successes hwindow, congrArg Tally.failures hwindow, ?_⟩
    rw [← hsize]
    exact congrArg Tally.value hwindow

/-- The only entry of an answer: the logs asked for, or the answer of a rate limit. -/
def onlyEntry (limited : Bool) (id : ℤ) : RpcResult :=
  if limited then
    { id := none
      error := some
        { code := -32005, message := "method eth_getLogs in batch triggered rate limit" } }
  else { id := some id, result := some (.arr []) }

/-- A request that its timer dispatches on its own, and the answer to it. -/
def batchOfOne (limited : Bool) (i : ℕ) : List Action :=
  [.send "eth_getLogs" [], .timer i, .answer i (.response (.array [onlyEntry limited (42 + i)]))]

/-- A provider whose batch size was set to three. -/
def sizeThree : World := { provider := { batchSize := 3 } }

theorem reachable_sizeThree : batching.Reachable sizeThree :=
  ⟨_, ⟨42, rfl⟩, Relation.ReflTransGen.single ⟨.setBatchSize 3, rfl⟩⟩

/-- Ten answers of a rate limit are a window, and lower the size from three to two. -/
theorem rateLimited_run_shrinks_null :
    ∃ w', batching.run sizeThree ((List.range 10).flatMap (batchOfOne true)) = some w' ∧
      w'.provider.batchSize = 2 := by
  have hsome : (batching.run sizeThree ((List.range 10).flatMap (batchOfOne true))).isSome = true :=
    by decide +kernel
  have hcounts : batching.outputs stepCounts sizeThree
      ((List.range 10).flatMap (batchOfOne true)) = List.replicate 10 false := by decide +kernel
  obtain ⟨w', hrun⟩ := Option.isSome_iff_exists.mp hsome
  obtain ⟨htally, -, -, hwindow⟩ :=
    rateLimited_run_shrinks sizeThree reachable_sizeThree _ w' hrun (by decide +kernel)
  rw [hcounts] at htally hwindow
  have hsize := (hwindow [] (List.replicate 10 false) [] rfl rfl rfl rfl).2.2
  exact ⟨w', hrun, (congrArg Tally.value htally).trans hsize⟩

/-! ### One count for each batch -/

/-- A response that the code recognises as reporting a limit: an error it knows, or the special
answer, which is a single entry with a `null` id, whatever error it has. -/
def batchFailed (result : List RpcResult) : Bool :=
  match result with
  | [{ id := none, .. }] => true
  | _ => result.any fun payload => payload.error.any fun error => limitExceeded error.message

theorem batchFailed_singleNullId (result : List RpcResult) (h : SingleNullId result) :
    batchFailed result = true := by
  obtain ⟨payload, hsingle, hid⟩ := h
  obtain ⟨id, result', error⟩ := payload
  have hid : id = none := hid
  rw [hsingle, hid]
  rfl

theorem batchFailed_of_not_single (result : List RpcResult) (h : ¬ SingleNullId result) :
    batchFailed result =
      result.any fun payload => payload.error.any fun error => limitExceeded error.message := by
  rw [batchFailed]
  intro result' error hsingle
  exact h ⟨_, hsingle, rfl⟩

/-- An entry that counts for a request makes the response one that reports a limit. -/
theorem batchFailed_of_limitReported (result : List RpcResult) (hresult : ¬ SingleNullId result)
    (inflight : InflightRequest) (hlimit : limitReported result inflight = true) :
    batchFailed result = true := by
  rw [batchFailed_of_not_single result hresult]
  obtain ⟨payload, hpayload, hcounts⟩ := (Option.any_eq_true _ _).mp hlimit
  rw [resultMap_eq] at hpayload
  exact List.any_eq_true.mpr ⟨payload, mem_of_insertAll _ _ _ _ hpayload, hcounts⟩

/-- The response of a step counts once, as a failure or a success of its batch. -/
def CountedOnce (w : World) : Action → Prop
  | .answer i (.response (.array result)) =>
    stepCounts w (.answer i (.response (.array result))) = [!batchFailed result]
  | _ => True

/-- The response of a step reports no limit, or only by the special answer. -/
def NoLimitError (_ : World) : Action → Prop
  | .answer _ (.response (.array result)) => batchFailed result = true → SingleNullId result
  | _ => True

instance (w : World) : ∀ action, Decidable (NoLimitError w action)
  | .answer _ (.response (.array result)) =>
    inferInstanceAs (Decidable (batchFailed result = true → SingleNullId result))
  | .answer _ (.response (.other _ _)) | .answer _ (.failure _) | .setBatchSize _ | .send _ _
  | .flush | .timer _ => inferInstanceAs (Decidable True)

/-- **An array counts once** unless it has a limit error among several entries. -/
theorem counts_eq_singleton_iff (batch : List InflightRequest) (result : List RpcResult) :
    Answer.counts batch (.response (.array result)) = [!batchFailed result] ↔
      (batchFailed result = true → SingleNullId result) := by
  by_cases hresult : SingleNullId result
  · rw [counts_singleNullId batch result hresult, batchFailed_singleNullId result hresult]
    simp [hresult]
  · rw [counts_array batch result hresult]
    cases hfailed : batchFailed result with
    | true =>
      -- the last count is a success
      have hlast : ((batch.filter (limitReported result)).map fun _ => false) ++ [true] ≠
          [!true] := by
        intro hsame
        have hend := congrArg List.getLast? hsame
        rw [List.getLast?_concat] at hend
        exact absurd hend (by simp)
      exact iff_of_false hlast fun h => hresult (h rfl)
    | false =>
      refine iff_of_true ?_ (fun h => absurd h (by simp))
      have hnone : batch.filter (limitReported result) = [] := by
        rw [List.filter_eq_nil_iff]
        intro inflight _ hlimit
        rw [batchFailed_of_limitReported result hresult inflight hlimit] at hfailed
        exact absurd hfailed (by simp)
      rw [hnone]
      rfl

/-- The same for a step that is possible. -/
theorem countedOnce_iff (w : World) (action : Action) (hpossible : (step w action).isSome = true) :
    CountedOnce w action ↔ NoLimitError w action := by
  cases action with
  | setBatchSize _ | send _ _ | flush | timer _ => exact Iff.rfl
  | answer i answer =>
    cases answer with
    | failure e => exact Iff.rfl
    | response body =>
      cases body with
      | other result not_array => exact Iff.rfl
      | array result =>
        obtain ⟨w', hstep⟩ := Option.isSome_iff_exists.mp hpossible
        obtain ⟨batch, hbatch, -, -⟩ := step_answer hstep
        rw [CountedOnce, stepCounts, hbatch]
        exact counts_eq_singleton_iff batch result

/-- The counts of a run as they are meant, one for each array. -/
def verdicts (w : World) : Action → List Bool
  | .answer _ (.response (.array result)) => [!batchFailed result]
  | action => stepCounts w action

theorem stepCounts_eq_verdicts (w : World) (action : Action) (h : CountedOnce w action) :
    stepCounts w action = verdicts w action := by
  cases action with
  | setBatchSize _ | send _ _ | flush | timer _ => rfl
  | answer i answer =>
    cases answer with
    | failure e => rfl
    | response body =>
      cases body with
      | other result not_array => rfl
      | array result => exact h

/-- **When the batch statistics count batches.**  Every array of a run counts once exactly when
none of them has a limit error among several entries.  The counts are then the verdicts on the
batches, and after ten of them the size is reconsidered with the rate of successful ones. -/
theorem batchStatistics_iff (w : World) (hw : batching.Reachable w) (actions : List Action)
    (w' : World) (hrun : batching.run w actions = some w') :
    (batching.Along CountedOnce w actions ↔ batching.Along NoLimitError w actions) ∧
    (batching.Along CountedOnce w actions →
      batching.Along (fun _ action => LeavesSize action) w actions →
      w.provider.successfulBatchCount = 0 → w.provider.failedBatchCount = 0 →
      (batching.outputs verdicts w actions).length = 10 →
      let rate : ℚ := (batching.outputs verdicts w actions).count true / (10 : ℕ)
      w'.provider.tally.successes = 0 ∧ w'.provider.tally.failures = 0 ∧
        w'.provider.batchSize =
          if rate < 9 / 10 ∧ 1 < w.provider.batchSize then w.provider.batchSize - 1
          else if 95 / 100 < rate ∧ w.provider.batchSize < 10 then w.provider.batchSize + 1
          else w.provider.batchSize) := by
  constructor
  · exact along_congr (fun _ => True) (fun w action => (step w action).isSome = true)
      CountedOnce NoLimitError (fun _ _ _ _ _ _ => trivial)
      (fun w action _ hpossible => countedOnce_iff w action hpossible) actions w trivial
      (along_possible actions w w' hrun)
  · intro honce hleaves hsuccesses hfailures hten rate
    have hcounts : batching.outputs stepCounts w actions = batching.outputs verdicts w actions :=
      outputs_congr stepCounts verdicts CountedOnce stepCounts_eq_verdicts actions w honce
    have hend := tally_run w hw actions w' hrun hleaves
    rw [hcounts] at hend
    have hwindow := foldl_adjustBatchSize_window w.provider hsuccesses hfailures _ hten
    rw [foldl_adjustBatchSize_tally _ w.provider (open_reachable w hw)] at hwindow
    have hall : w'.provider.tally = _ := hend.trans hwindow
    refine ⟨congrArg Tally.successes hall, congrArg Tally.failures hall, ?_⟩
    rw [← resize_eq_rate]
    exact congrArg Tally.value hall

/-! ### A batch of two that exceeds the limit -/

def limitErrors : List RpcResult :=
  [{ id := some 42, error := some { code := -32603, message := "Batch size limit exceeded" } },
   { id := some 43, error := some { code := -32603, message := "Batch size limit exceeded" } }]

/-- One response, two failures and a success. -/
theorem limitErrors_counted_thrice :
    ∃ w', batching.run { provider := {} }
        [.send "eth_call" [], .send "eth_call" [], .answer 0 (.response (.array limitErrors))] =
          some w' ∧
      w'.provider.failedBatchCount = 2 ∧ w'.provider.successfulBatchCount = 1 ∧
      ¬ batching.Along CountedOnce { provider := {} }
        [.send "eth_call" [], .send "eth_call" [], .answer 0 (.response (.array limitErrors))] := by
  refine ⟨_, rfl, by decide, by decide, ?_⟩
  intro honce
  have hlast := ((honce.2 _ rfl).2 _ rfl).1
  have hcounts : [false, false, true] = [false] := hlast
  exact absurd hcounts (by decide)

/-- **Ten batches that each count once**, eight of them without a limit: the rate is below 0.9, and
the size goes from three to two. -/
theorem batchStatistics_iff_ten :
    ∃ w', batching.run sizeThree ((List.range 10).flatMap fun i => batchOfOne (i < 2) i) =
        some w' ∧
      batching.Along CountedOnce sizeThree
        ((List.range 10).flatMap fun i => batchOfOne (i < 2) i) ∧
      w'.provider.batchSize = 2 := by
  have hsome : (batching.run sizeThree
      ((List.range 10).flatMap fun i => batchOfOne (i < 2) i)).isSome = true := by decide +kernel
  have hverdicts : batching.outputs verdicts sizeThree
      ((List.range 10).flatMap fun i => batchOfOne (i < 2) i) =
        [false, false] ++ List.replicate 8 true := by decide +kernel
  obtain ⟨w', hrun⟩ := Option.isSome_iff_exists.mp hsome
  obtain ⟨hiff, hresult⟩ := batchStatistics_iff sizeThree reachable_sizeThree _ w' hrun
  have honce := hiff.mpr (by decide +kernel)
  have hsize := (hresult honce (by decide +kernel) rfl rfl (by rw [hverdicts]; rfl)).2.2
  rw [hverdicts] at hsize
  exact ⟨w', hrun, honce, hsize.trans (by decide +kernel)⟩

end SubqlEthereum.Ethers
