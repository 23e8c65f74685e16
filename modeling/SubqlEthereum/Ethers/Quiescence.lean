import SubqlEthereum.Ethers.AnswerDelivery

/-!
# Every request comes to an end

A promise of the batching provider that is not settled is on its way: its request is pending, with
a timer that is scheduled, or it was dispatched in a batch whose answer is still out.  `Attended`
is the invariant that says so.  `requests_come_to_an_end` draws the conclusion for runs: without
new calls, timers and answers can only happen so often, in whatever order they do, and when none
is left every promise is settled.
-/

namespace SubqlEthereum.Ethers

open SubqlEthereum.External SubqlEthereum.JsonText SubqlEthereum.StepSystem
open SubqlEthereum.Promises SubqlEthereum.Batches

/-! ### The invariant -/

/-- The request of a promise is in a list of requests. -/
def HasPromise (batch : List InflightRequest) (p : ℕ) : Prop :=
  ∃ inflight ∈ batch, inflight.promise = p

/-- The request of a promise is pending, or in a batch that waits for its answer. -/
def World.Waiting (w : World) (p : ℕ) : Prop :=
  HasPromise (w.provider.pendingBatch.getD []) p ∨
    ∃ i ∈ w.outstanding, ∃ batch, w.dispatched[i]? = some batch ∧ HasPromise batch p

/-- Nobody forgets a promise that is not settled. -/
def World.Attended (w : World) : Prop :=
  ∀ p, w.promises[p]? = some none → w.Waiting p

theorem attended_fire (w : World) (timer : ℕ) (hw : w.Attended)
    (hbelow : ∀ i ∈ w.outstanding, i < w.dispatched.length) : (w.fire timer).Attended := by
  intro p hp
  have hp : w.promises[p]? = some none := hp
  right
  rcases hw p hp with hpending | ⟨i, hi, batch, hbatch, hhas⟩
  · exact ⟨w.dispatched.length, List.mem_append_right _ (List.mem_singleton_self _),
      w.provider.pendingBatch.getD [], List.getElem?_concat_length, hpending⟩
  · refine ⟨i, List.mem_append_left _ hi, batch, ?_, hhas⟩
    show (w.dispatched ++ [_])[i]? = some batch
    rw [List.getElem?_append_left (hbelow i hi), hbatch]

theorem attended_flush (w : World) (hw : w.Attended)
    (hbelow : ∀ i ∈ w.outstanding, i < w.dispatched.length) : w.flush.Attended := by
  rcases flush_cases w with h | ⟨timer, htimer, h⟩
  · rw [h]
    exact hw
  · rw [h]
    exact attended_fire w timer hw hbelow

theorem attended_scheduleBatch (w : World) (hw : w.Attended) : w.scheduleBatch.Attended := by
  rw [World.scheduleBatch]
  cases w.provider.pendingBatchAggregator with
  | some timer => exact hw
  | none => exact hw

/-- The promise of a new request is that of the last pending one. -/
theorem attended_enqueue (w : World) (hw : w.Attended) (method : String) (params : List Json) :
    (w.enqueue method params).Attended := by
  intro p hp
  have hp : (w.promises ++ [none])[p]? = some none := hp
  rcases Nat.lt_trichotomy p w.promises.length with hlt | heq | hgt
  · rw [List.getElem?_append_left hlt] at hp
    rcases hw p hp with ⟨inflight, hinflight, hpromise⟩ | houtstanding
    · exact .inl ⟨inflight, List.mem_append_left _ hinflight, hpromise⟩
    · exact .inr houtstanding
  · exact .inl ⟨_, List.mem_append_right _ (List.mem_singleton_self _), heq.symm⟩
  · rw [List.getElem?_eq_none (by simp; omega)] at hp
    exact absurd hp (by simp)

theorem attended_send (w : World) (hw : w.Attended)
    (hbelow : ∀ i ∈ w.outstanding, i < w.dispatched.length) (method : String)
    (params : List Json) : (w.send method params).Attended := by
  have hscheduled := attended_scheduleBatch _ (attended_enqueue w hw method params)
  rcases send_cases w method params with h | h | h
  · rw [h]
    intro p hp
    have hp : (w.promises ++ [some _])[p]? = some none := hp
    rcases Nat.lt_trichotomy p w.promises.length with hlt | heq | hgt
    · rw [List.getElem?_append_left hlt] at hp
      exact hw p hp
    · rw [heq, List.getElem?_concat_length] at hp
      exact absurd hp (by simp)
    · rw [List.getElem?_eq_none (by simp; omega)] at hp
      exact absurd hp (by simp)
  · rw [h]
    exact hscheduled
  · rw [h]
    refine attended_flush _ hscheduled ?_
    rw [World.scheduleBatch]
    cases (w.enqueue method params).provider.pendingBatchAggregator with
    | some timer => exact hbelow
    | none => exact hbelow

/-- An answer leaves only promises unsettled that are none of its batch. -/
theorem attended_answer (w : World) (hw : w.Attended) (hpromised : w.Promised)
    (haccounted : w.requests.Accounted) (i : ℕ) (batch : List InflightRequest)
    (hi : i ∈ w.outstanding) (hbatch : w.dispatched[i]? = some batch) (answer : Answer) :
    ({ w with outstanding := w.outstanding.erase i }.answer batch answer).Attended := by
  intro p hp
  have hdistinct := batch_nodup (·.promise) _ _
    (World.Promised.keys w haccounted hpromised) batch (List.mem_of_getElem? hbatch)
  have hnot : ∀ inflight ∈ batch, inflight.promise ≠ p := by
    intro inflight hinflight hpromise
    have hsettled := answer_settles { w with outstanding := w.outstanding.erase i } batch answer
      hdistinct inflight hinflight (hpromised.unanswered i hi batch hbatch inflight hinflight)
    rw [hpromise, hp] at hsettled
    exact absurd hsettled (by simp)
  rw [answer_other _ batch answer p hnot] at hp
  have hrequests := answer_requests { w with outstanding := w.outstanding.erase i } batch answer
  generalize { w with outstanding := w.outstanding.erase i }.answer batch answer = w' at hrequests ⊢
  have hdispatched : w'.dispatched = w.dispatched := congrArg Requests.dispatched hrequests
  have hpending : w'.provider.pendingBatch = w.provider.pendingBatch :=
    congrArg Requests.pendingBatch hrequests
  have houtstanding : w'.outstanding = w.outstanding.erase i :=
    congrArg Requests.outstanding hrequests
  rw [World.Waiting, hdispatched, hpending, houtstanding]
  rcases hw p hp with hwaits | ⟨j, hj, batch', hbatch', hhas⟩
  · exact .inl hwaits
  · right
    have hne : j ≠ i := by
      intro heq
      rw [heq, hbatch] at hbatch'
      rw [← Option.some.inj hbatch'] at hhas
      obtain ⟨inflight, hinflight, hpromise⟩ := hhas
      exact hnot inflight hinflight hpromise
    exact ⟨j, (List.mem_erase_of_ne hne).mpr hj, batch', hbatch', hhas⟩

theorem attended (w : World) (hw : batching.Reachable w) : w.Attended := by
  have hall : batching.Reachable w ∧ w.Attended := by
    obtain ⟨start, hstart, hleads⟩ := hw
    induction hleads with
    | refl =>
      refine ⟨⟨start, hstart, Relation.ReflTransGen.refl⟩, ?_⟩
      obtain ⟨nextId, hstart⟩ := hstart
      rw [hstart]
      intro p hp
      exact absurd hp (by simp)
    | @tail w₀ w₁ hbefore hmove ih =>
      obtain ⟨hreachable, hattended⟩ := ih
      have hpromised := promised w₀ hreachable
      obtain ⟨action, hstep⟩ := hmove
      refine ⟨Reachable.leads hreachable (Relation.ReflTransGen.single ⟨action, hstep⟩), ?_⟩
      rcases step_cases w₀ action w₁ hstep with ⟨batchSize, h⟩ | ⟨method, params, h⟩ | h |
        ⟨timer, hscheduled, h⟩ | ⟨i, batch, answer, hbatch, houtstanding, h⟩
      · rw [h]
        exact hattended
      · rw [h]
        exact attended_send w₀ hattended hpromised.outstanding_below method params
      · rw [h]
        exact attended_flush w₀ hattended hpromised.outstanding_below
      · rw [h]
        exact attended_fire w₀ timer hattended hpromised.outstanding_below
      · rw [h]
        exact attended_answer w₀ hattended hpromised (accounted w₀ hreachable) i batch
          houtstanding hbatch answer
  exact hall.2

/-! ### Promises and what is under way -/

/-- **A promise is unsettled exactly while its request is under way.** -/
theorem unsettled_iff (w : World) (hw : batching.Reachable w) (p : ℕ) :
    w.promises[p]? = some none ↔ w.Waiting p := by
  constructor
  · exact attended w hw p
  · intro hwaiting
    have hpromised := promised w hw
    rcases hwaiting with
      ⟨inflight, hinflight, rfl⟩ | ⟨i, hi, batch, hbatch, inflight, hinflight, rfl⟩
    · exact hpromised.pending inflight hinflight
    · exact hpromised.unanswered i hi batch hbatch inflight hinflight

/-- Every promise is settled. -/
def World.Settled (w : World) : Prop := ∀ p : ℕ, w.promises[p]? ≠ some none

/-- A batch that was dispatched is not empty. -/
def World.NoEmptyBatch (w : World) : Prop := ∀ batch ∈ w.dispatched, batch ≠ []

theorem noEmptyBatch_fire (w : World) (timer : ℕ) (haccounted : w.requests.Accounted)
    (htimer : timer ∈ w.timers) (hw : w.NoEmptyBatch) : (w.fire timer).NoEmptyBatch := by
  intro batch hbatch
  rcases List.mem_append.mp hbatch with hold | hnew
  · exact hw batch hold
  · have htimers : w.timers = w.provider.pendingBatchAggregator.toList := haccounted.timers_eq
    rw [htimers, Option.mem_toList] at htimer
    cases hpending : w.provider.pendingBatch with
    | none =>
      have hnone : w.provider.pendingBatchAggregator = none := haccounted.aggregator_iff.mp hpending
      rw [hnone] at htimer
      exact absurd htimer (by simp)
    | some pending =>
      rw [List.mem_singleton.mp hnew]
      show w.provider.pendingBatch.getD [] ≠ []
      rw [hpending]
      exact haccounted.nonempty pending hpending

theorem noEmptyBatch_flush (w : World) (haccounted : w.requests.Accounted)
    (hw : w.NoEmptyBatch) : w.flush.NoEmptyBatch := by
  rcases flush_cases w with h | ⟨timer, htimer, h⟩
  · rw [h]
    exact hw
  · rw [h]
    apply noEmptyBatch_fire w timer haccounted _ hw
    have htimers : w.timers = w.provider.pendingBatchAggregator.toList := haccounted.timers_eq
    rw [htimers, htimer]
    exact List.mem_singleton_self timer

theorem scheduleBatch_dispatched (w : World) : w.scheduleBatch.dispatched = w.dispatched := by
  rw [World.scheduleBatch]
  cases w.provider.pendingBatchAggregator <;> rfl

theorem noEmptyBatch (w : World) (hw : batching.Reachable w) : w.NoEmptyBatch := by
  have hboth : w.requests.Accounted ∧ w.NoEmptyBatch := by
    apply invariant (fun w => w.requests.Accounted ∧ w.NoEmptyBatch) ?_ ?_ w hw
    · intro start hstart
      refine ⟨accounted start ⟨start, hstart, Relation.ReflTransGen.refl⟩, ?_⟩
      obtain ⟨nextId, hstart⟩ := hstart
      rw [hstart]
      intro batch hbatch
      exact absurd hbatch List.not_mem_nil
    · intro w action w' h hstep
      refine ⟨accounted_step w action w' h.1 hstep, ?_⟩
      rcases step_cases w action w' hstep with ⟨batchSize, heq⟩ | ⟨method, params, heq⟩ | heq |
        ⟨timer, hscheduled, heq⟩ | ⟨i, batch, answer, hbatch, houtstanding, heq⟩
      · rw [heq]
        exact h.2
      · have henqueued : (w.enqueue method params).scheduleBatch.NoEmptyBatch := by
          intro batch hbatch
          rw [scheduleBatch_dispatched] at hbatch
          exact h.2 batch hbatch
        rw [heq]
        rcases send_cases w method params with hsend | hsend | hsend
        · rw [hsend]
          exact h.2
        · rw [hsend]
          exact henqueued
        · rw [hsend]
          exact noEmptyBatch_flush _ (accounted_enqueue w h.1 method params) henqueued
      · rw [heq]
        exact noEmptyBatch_flush w h.1 h.2
      · rw [heq]
        exact noEmptyBatch_fire w timer h.1 hscheduled h.2
      · have hdispatched : w'.dispatched = w.dispatched := by
          rw [heq]
          exact congrArg Requests.dispatched (answer_requests _ batch answer)
        intro batch' hbatch'
        rw [hdispatched] at hbatch'
        exact h.2 batch' hbatch'
  exact hboth.2

/-- **All promises are settled exactly when nothing is under way**: no timer, and no batch without
its answer. -/
theorem settled_iff (w : World) (hw : batching.Reachable w) :
    w.Settled ↔ w.timers = [] ∧ w.outstanding = [] := by
  have haccounted := accounted w hw
  have htimers : w.timers = w.provider.pendingBatchAggregator.toList := haccounted.timers_eq
  constructor
  · intro hsettled
    constructor
    · rw [htimers]
      cases htimer : w.provider.pendingBatchAggregator with
      | none => rfl
      | some timer =>
        exfalso
        cases hpending : w.provider.pendingBatch with
        | none =>
          have hnone : w.provider.pendingBatchAggregator = none :=
            haccounted.aggregator_iff.mp hpending
          rw [hnone] at htimer
          exact absurd htimer (by simp)
        | some batch =>
          obtain ⟨inflight, hinflight⟩ :=
            List.exists_mem_of_ne_nil batch (haccounted.nonempty batch hpending)
          apply hsettled inflight.promise
          rw [unsettled_iff w hw]
          left
          rw [hpending]
          exact ⟨inflight, hinflight, rfl⟩
    · rw [List.eq_nil_iff_forall_not_mem]
      intro i hi
      have hlt := (promised w hw).outstanding_below i hi
      obtain ⟨inflight, hinflight⟩ := List.exists_mem_of_ne_nil w.dispatched[i]
        (noEmptyBatch w hw _ (List.getElem_mem hlt))
      apply hsettled inflight.promise
      rw [unsettled_iff w hw]
      exact .inr ⟨i, hi, _, List.getElem?_eq_getElem hlt, inflight, hinflight, rfl⟩
  · intro hnone p hp
    rw [unsettled_iff w hw] at hp
    rcases hp with ⟨inflight, hinflight, -⟩ | ⟨i, hi, -⟩
    · have haggregator : w.provider.pendingBatchAggregator = none := by
        rw [hnone.1] at htimers
        exact Option.toList_eq_nil_iff.mp htimers.symm
      have hpending : w.provider.pendingBatch = none := haccounted.aggregator_iff.mpr haggregator
      rw [hpending] at hinflight
      exact absurd hinflight List.not_mem_nil
    · rw [hnone.2] at hi
      exact absurd hi List.not_mem_nil

/-! ### Runs without new calls -/

/-- The steps that are not calls: a timer that fires, and an answer that arrives. -/
def Action.IsEvent : Action → Prop
  | .timer _ => True
  | .answer _ _ => True
  | _ => False

/-- What is still to happen: a timer, and the answer to what it dispatches; an answer. -/
def World.underWay (w : World) : ℕ := 2 * w.timers.length + w.outstanding.length

theorem underWay_event (w w' : World) (action : Action) (hevent : action.IsEvent)
    (hstep : step w action = some w') : w'.underWay + 1 = w.underWay := by
  cases action with
  | setBatchSize batchSize => exact absurd hevent id
  | send method params => exact absurd hevent id
  | flush => exact absurd hevent id
  | timer timer =>
    obtain ⟨hscheduled, hfire⟩ := step_timer hstep
    rw [hfire]
    show 2 * (w.timers.erase timer).length + (w.outstanding ++ [w.dispatched.length]).length + 1 = _
    have hpos := List.length_pos_of_mem hscheduled
    rw [List.length_erase_of_mem hscheduled, List.length_append, List.length_singleton,
      World.underWay]
    omega
  | answer i answer =>
    obtain ⟨batch, -, houtstanding, hanswer⟩ := step_answer hstep
    have hrequests := answer_requests { w with outstanding := w.outstanding.erase i } batch answer
    rw [← hanswer] at hrequests
    have htimers : w'.timers = w.timers := congrArg Requests.timers hrequests
    have hrest : w'.outstanding = w.outstanding.erase i := congrArg Requests.outstanding hrequests
    have hpos := List.length_pos_of_mem houtstanding
    rw [World.underWay, World.underWay, htimers, hrest, List.length_erase_of_mem houtstanding]
    omega

theorem underWay_run (actions : List Action) (w w' : World) (hevents : ∀ a ∈ actions, a.IsEvent)
    (hrun : batching.run w actions = some w') :
    w'.underWay + actions.length = w.underWay := by
  induction actions generalizing w with
  | nil =>
    rw [← Option.some.inj hrun]
    rfl
  | cons action actions ih =>
    rw [System.run] at hrun
    obtain ⟨w₁, hstep, hrest⟩ := Option.bind_eq_some_iff.mp hrun
    have hlater := ih w₁ (fun a ha => hevents a (List.mem_cons_of_mem action ha)) hrest
    have hfirst := underWay_event w w₁ action (hevents action List.mem_cons_self) hstep
    rw [List.length_cons]
    omega

/-- While something is under way, some event can happen. -/
theorem event_possible (w : World) (hw : batching.Reachable w) (hunderWay : w.underWay ≠ 0) :
    ∃ action w', action.IsEvent ∧ step w action = some w' := by
  cases htimers : w.timers with
  | cons timer rest =>
    have hscheduled : timer ∈ w.timers := by
      rw [htimers]
      exact List.mem_cons_self
    exact ⟨.timer timer, w.fire timer, trivial, if_pos hscheduled⟩
  | nil =>
    cases houtstanding : w.outstanding with
    | nil =>
      rw [World.underWay, htimers, houtstanding] at hunderWay
      exact absurd rfl hunderWay
    | cons i rest =>
      have hi : i ∈ w.outstanding := by
        rw [houtstanding]
        exact List.mem_cons_self
      have hlt := (promised w hw).outstanding_below i hi
      cases hstep : step w (.answer i (.failure { message := "" })) with
      | some w' => exact ⟨.answer i (.failure { message := "" }), w', trivial, hstep⟩
      | none =>
        simp only [step, List.getElem?_eq_getElem hlt, if_pos hi] at hstep
        exact absurd hstep (by simp)

/-- **Every request comes to an end.**  In a reachable state a promise is unsettled exactly while
its request is pending or in a batch without an answer.  Timers and answers, in any order and
with any content, can only happen as often as there is something under way; as long as a promise
is unsettled one of them can happen; and when they are over every promise is settled. -/
theorem requests_come_to_an_end (w : World) (hw : batching.Reachable w) :
    (∀ p, w.promises[p]? = some none ↔ w.Waiting p) ∧
    ∀ actions w', (∀ a ∈ actions, a.IsEvent) → batching.run w actions = some w' →
      actions.length ≤ w.underWay ∧
      (actions.length = w.underWay ↔ w'.Settled) ∧
      (¬ w'.Settled → ∃ action w'', action.IsEvent ∧ step w' action = some w'') := by
  refine ⟨unsettled_iff w hw, fun actions w' hevents hrun => ?_⟩
  have hreachable : batching.Reachable w' := Reachable.leads hw (leads_of_run actions w w' hrun)
  have hcount := underWay_run actions w w' hevents hrun
  have hzero : w'.underWay = 0 ↔ w'.Settled := by
    rw [settled_iff w' hreachable, World.underWay, ← List.length_eq_zero_iff,
      ← List.length_eq_zero_iff]
    omega
  refine ⟨by omega, ?_, fun hopen => event_possible w' hreachable fun h => hopen (hzero.mp h)⟩
  rw [← hzero]
  omega

/-- Two requests in one batch that fails: after the timer and the failure both are settled. -/
theorem requests_come_to_an_end_two :
    ∃ w, batching.run { provider := {} }
        [.setBatchSize 2, .send "eth_blockNumber" [], .send "eth_gasPrice" []] = some w ∧
      ∃ w', batching.run w [.timer 0, .answer 0 (.failure { message := "timeout" })] = some w' ∧
        w'.Settled := by
  refine ⟨_, rfl, _, rfl, ?_⟩
  have hleads := leads_of_run _ _ _
    (show batching.run { provider := {} } [.setBatchSize 2, .send "eth_blockNumber" [],
      .send "eth_gasPrice" []] = some _ from rfl)
  refine (((requests_come_to_an_end _ ⟨_, ⟨42, rfl⟩, hleads⟩).2
    [.timer 0, .answer 0 (.failure { message := "timeout" })] _ ?_ rfl).2.1).mp rfl
  intro a ha
  rcases List.mem_cons.mp ha with rfl | ha
  · trivial
  · rw [List.mem_singleton.mp ha]
    trivial

end SubqlEthereum.Ethers
