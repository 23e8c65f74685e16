import SubqlEthereum.Ethers.BatchStatistics

/-!
# How large a dispatched batch gets

`send` compares the length of the pending batch with the batch size after it has added its request,
and flushes when the length is greater.  A batch that is full already is so dispatched with one
request too many.  In a run that never shrinks the size under pending requests, this is the only
way to a batch above the size: `dispatched_within_batchSize_iff`.
-/

namespace SubqlEthereum.Ethers

open SubqlEthereum.External SubqlEthereum.JsonText SubqlEthereum.StepSystem
open SubqlEthereum.CountWindows

/-- The requests that wait for their dispatch. -/
def World.pending (w : World) : List InflightRequest := w.provider.pendingBatch.getD []

/-- `send` answers the request from the cache of the chain id. -/
def World.Cached (w : World) (method : String) : Prop :=
  method = "eth_chainId" ∧ w.provider.chainIdCache.isSome

/-! ### What is asked of a run -/

/-- A size that is set is positive, and the size does not shrink under pending requests. -/
def KeepsRoom (w : World) (action : Action) : Prop :=
  (∀ batchSize, action = .setBatchSize batchSize → 0 < batchSize) ∧
    ∀ w', step w action = some w' → w'.provider.batchSize < w.provider.batchSize → w.pending = []

/-- The batches a step hands to `fetchJson` respect the batch size, which the step does not change
before it hands them over. -/
def DispatchesWithin (w : World) (action : Action) : Prop :=
  ∀ w', step w action = some w' →
    ∀ batch ∈ w'.dispatched.drop w.dispatched.length, (batch.length : ℤ) ≤ w.provider.batchSize

/-- A request is sent while the pending batch is full. -/
def SendsIntoFull (w : World) : Action → Prop
  | .send method _ => ¬ w.Cached method ∧ w.pending.length = w.provider.batchSize
  | _ => False

instance (w : World) : ∀ action, Decidable (SendsIntoFull w action)
  | .send method _ =>
    inferInstanceAs (Decidable
      (¬ (method = "eth_chainId" ∧ w.provider.chainIdCache.isSome) ∧
        w.pending.length = w.provider.batchSize))
  | .setBatchSize _ | .flush | .timer _ | .answer _ _ => inferInstanceAs (Decidable False)

/-- The batch size is positive and the pending batch within it. -/
structure Roomy (w : World) : Prop where
  counters : w.tally.Open batchSizeAdjustmentInterval
  positive : 0 < w.provider.batchSize
  within : (w.pending.length : ℤ) ≤ w.provider.batchSize

/-! ### Sending -/

/-- The world in which `send` makes its comparison. -/
def World.enqueued (w : World) (method : String) (params : List Json) : World :=
  (w.enqueue method params).scheduleBatch

theorem enqueued_pending_length (w : World) (method : String) (params : List Json) :
    (w.enqueued method params).pending.length = w.pending.length + 1 := by
  have hsame : (w.enqueued method params).pending = (w.enqueue method params).pending := by
    rw [World.enqueued, World.scheduleBatch]
    cases (w.enqueue method params).provider.pendingBatchAggregator <;> rfl
  rw [hsame]
  show (w.pending ++ [_]).length = w.pending.length + 1
  rw [List.length_append, List.length_singleton]

theorem enqueued_batchSize (w : World) (method : String) (params : List Json) :
    (w.enqueued method params).provider.batchSize = w.provider.batchSize := by
  rw [World.enqueued, World.scheduleBatch]
  cases (w.enqueue method params).provider.pendingBatchAggregator <;> rfl

theorem enqueued_dispatched (w : World) (method : String) (params : List Json) :
    (w.enqueued method params).dispatched = w.dispatched := by
  rw [World.enqueued, World.scheduleBatch]
  cases (w.enqueue method params).provider.pendingBatchAggregator <;> rfl

/-- The dispatch of the new request is scheduled. -/
theorem enqueued_scheduled (w : World) (method : String) (params : List Json) :
    ∃ timer, (w.enqueued method params).provider.pendingBatchAggregator = some timer := by
  rw [World.enqueued, World.scheduleBatch]
  cases htimer : (w.enqueue method params).provider.pendingBatchAggregator with
  | none => exact ⟨_, rfl⟩
  | some timer => exact ⟨timer, htimer⟩

/-- **The three things `send` can do.** -/
theorem send_spec (w : World) (method : String) (params : List Json) (hw : Roomy w) :
    (w.Cached method ∧ (w.send method params).provider = w.provider ∧
        (w.send method params).dispatched = w.dispatched) ∨
      (¬ w.Cached method ∧ (w.pending.length : ℤ) < w.provider.batchSize ∧
        w.send method params = w.enqueued method params) ∨
      (¬ w.Cached method ∧ w.pending.length = w.provider.batchSize ∧
        ∃ timer, w.send method params = (w.enqueued method params).fire timer) := by
  have hlength := enqueued_pending_length w method params
  have hsize := enqueued_batchSize w method params
  have hwithin := hw.within
  by_cases hcached : method = "eth_chainId" ∧ w.provider.chainIdCache.isSome = true
  · refine .inl ⟨hcached, ?_⟩
    rw [World.send, if_pos hcached]
    exact ⟨rfl, rfl⟩
  · have hsend : w.send method params =
        if (w.enqueued method params).provider.batchSize <
            (w.enqueued method params).pending.length then (w.enqueued method params).flush
        else w.enqueued method params := by
      rw [World.send, if_neg hcached]
      rfl
    rw [hsize, hlength] at hsend
    right
    by_cases hfull : w.provider.batchSize < ((w.pending.length + 1 : ℕ) : ℤ)
    · rw [if_pos hfull] at hsend
      obtain ⟨timer, htimer⟩ := enqueued_scheduled w method params
      rw [flush_eq_fire _ timer htimer] at hsend
      exact .inr ⟨hcached, by omega, timer, hsend⟩
    · rw [if_neg hfull] at hsend
      exact .inl ⟨hcached, by omega, hsend⟩

/-- A timer hands over what is pending. -/
theorem fire_dispatched (w : World) (timer : ℕ) :
    (w.fire timer).dispatched = w.dispatched ++ [w.pending] := rfl

/-! ### One step -/

theorem within_of_dispatched_eq (w w' : World) (n : ℤ) (hsame : w'.dispatched = w.dispatched) :
    ∀ batch ∈ w'.dispatched.drop w.dispatched.length, (batch.length : ℤ) ≤ n := by
  intro batch hbatch
  rw [hsame, List.drop_length] at hbatch
  exact absurd hbatch List.not_mem_nil

/-- When one batch is handed over, its length decides. -/
theorem within_iff_of_dispatched_append (w w' : World) (n : ℤ) (new : List InflightRequest)
    (hnew : w'.dispatched = w.dispatched ++ [new]) :
    (∀ batch ∈ w'.dispatched.drop w.dispatched.length, (batch.length : ℤ) ≤ n) ↔
      (new.length : ℤ) ≤ n := by
  rw [hnew, List.drop_left, List.forall_mem_singleton]

/-- **A step hands over a batch above the size** exactly when it sends into a full one. -/
theorem dispatchesWithin_iff (w : World) (action : Action) (hw : Roomy w) :
    DispatchesWithin w action ↔ ¬ SendsIntoFull w action := by
  have hnone := fun w' : World => within_of_dispatched_eq w w' w.provider.batchSize
  have hpending := fun (w' : World) (hnew : w'.dispatched = w.dispatched ++ [w.pending]) =>
    (within_iff_of_dispatched_append w w' w.provider.batchSize w.pending hnew).mpr hw.within
  cases action with
  | setBatchSize batchSize =>
    refine iff_of_true ?_ id
    intro w' hstep
    rw [← Option.some.inj hstep]
    exact hnone _ rfl
  | flush =>
    refine iff_of_true ?_ id
    intro w' hstep
    rw [← Option.some.inj hstep]
    rcases flush_cases w with h | ⟨timer, _, h⟩
    · rw [h]
      exact hnone w rfl
    · rw [h]
      exact hpending _ rfl
  | timer timer =>
    refine iff_of_true ?_ id
    intro w' hstep
    rw [(step_timer hstep).2]
    exact hpending _ rfl
  | answer i answer =>
    refine iff_of_true ?_ id
    intro w' hstep
    obtain ⟨batch, -, -, hanswer⟩ := step_answer hstep
    rw [hanswer]
    have hrequests := answer_requests { w with outstanding := w.outstanding.erase i } batch answer
    exact hnone _ (congrArg Requests.dispatched hrequests)
  | send method params =>
    have hstep : DispatchesWithin w (.send method params) ↔
        ∀ batch ∈ (w.send method params).dispatched.drop w.dispatched.length,
          (batch.length : ℤ) ≤ w.provider.batchSize := by
      constructor
      · intro h
        exact h _ rfl
      · intro h w' hw'
        rw [← Option.some.inj hw']
        exact h
    rw [hstep]
    rcases send_spec w method params hw with
      ⟨hcached, -, hsame⟩ | ⟨-, hlt, hsame⟩ | ⟨hcached, hfull, timer, hfire⟩
    · exact iff_of_true (hnone _ hsame) fun h => h.1 hcached
    · refine iff_of_true (hnone _ ?_) fun h => ?_
      · rw [hsame]
        exact enqueued_dispatched w method params
      · have heq : (w.pending.length : ℤ) = w.provider.batchSize := h.2
        omega
    · -- the batch handed over has the new request as well
      refine iff_of_false ?_ (not_not_intro ⟨hcached, hfull⟩)
      intro h
      have hdispatched : (w.send method params).dispatched =
          w.dispatched ++ [(w.enqueued method params).pending] := by
        rw [hfire, fire_dispatched, enqueued_dispatched]
      rw [within_iff_of_dispatched_append w _ _ _ hdispatched, enqueued_pending_length] at h
      omega

/-- A size that is positive stays so. -/
theorem positive_step (w : World) (action : Action) (w' : World) (hw : Roomy w)
    (hroom : KeepsRoom w action) (hstep : step w action = some w') :
    0 < w'.provider.batchSize := by
  cases action with
  | setBatchSize batchSize =>
    rw [← Option.some.inj hstep]
    exact hroom.1 batchSize rfl
  | send _ _ | flush | timer _ | answer _ _ =>
    show 1 ≤ w'.tally.value
    rw [step_tally w _ w' hstep hw.counters trivial]
    exact (run_value_bounds w.provider.batchSize _ w.tally ⟨hw.positive, le_max_right _ _⟩).1

/-- A change of the size leaves the pending batch within it. -/
theorem within_of_keepsRoom (w : World) (action : Action) (w' : World) (hw : Roomy w)
    (hroom : KeepsRoom w action) (hstep : step w action = some w')
    (hsame : w'.pending = w.pending) :
    (w'.pending.length : ℤ) ≤ w'.provider.batchSize := by
  have hwithin := hw.within
  have hpositive := positive_step w action w' hw hroom hstep
  rw [hsame]
  by_cases hshrinks : w'.provider.batchSize < w.provider.batchSize
  · rw [hroom.2 w' hstep hshrinks]
    show ((0 : ℕ) : ℤ) ≤ w'.provider.batchSize
    omega
  · omega

/-- **The step lemma.** -/
theorem roomy_step (w : World) (action : Action) (w' : World) (hw : Roomy w)
    (hroom : KeepsRoom w action) (hstep : step w action = some w') : Roomy w' := by
  have hpositive := positive_step w action w' hw hroom hstep
  refine ⟨open_step w action w' hstep hw.counters, hpositive, ?_⟩
  have hfire : ∀ (w₀ : World) (timer : ℕ), w' = w₀.fire timer →
      (w'.pending.length : ℤ) ≤ w'.provider.batchSize := by
    intro w₀ timer heq
    have hempty : w'.pending = [] := by
      rw [heq]
      rfl
    rw [hempty]
    show ((0 : ℕ) : ℤ) ≤ w'.provider.batchSize
    omega
  cases action with
  | setBatchSize batchSize =>
    refine within_of_keepsRoom w _ w' hw hroom hstep ?_
    rw [← Option.some.inj hstep]
    rfl
  | flush =>
    have hflush : w' = w.flush := (Option.some.inj hstep).symm
    rcases flush_cases w with h | ⟨timer, _, h⟩
    · rw [hflush, h]
      exact hw.within
    · exact hfire w timer (hflush.trans h)
  | timer timer =>
    exact hfire w timer (step_timer hstep).2
  | answer i answer =>
    refine within_of_keepsRoom w _ w' hw hroom hstep ?_
    obtain ⟨batch, -, -, hanswer⟩ := step_answer hstep
    rw [hanswer]
    have hrequests := answer_requests { w with outstanding := w.outstanding.erase i } batch answer
    exact congrArg (fun q => q.pendingBatch.getD []) hrequests
  | send method params =>
    have hsend : w' = w.send method params := (Option.some.inj hstep).symm
    rcases send_spec w method params hw with
      ⟨-, hsame, -⟩ | ⟨-, hlt, hsame⟩ | ⟨-, -, timer, hfired⟩
    · have hpending : w'.pending = w.pending := by
        rw [hsend]
        exact congrArg (fun provider => provider.pendingBatch.getD []) hsame
      exact within_of_keepsRoom w _ w' hw hroom hstep hpending
    · rw [hsend, hsame, enqueued_pending_length, enqueued_batchSize]
      omega
    · exact hfire _ timer (hsend.trans hfired)

/-! ### Runs -/

/-- **When every batch respects the batch size.**  In a run from the start that sets positive sizes
only and never shrinks the size under pending requests, every batch handed to `fetchJson` is within
the size at that moment exactly when no request is sent while the pending batch is full. -/
theorem dispatched_within_batchSize_iff (start : World) (hstart : batching.initial start)
    (actions : List Action) (hroom : batching.Along KeepsRoom start actions) :
    batching.Along DispatchesWithin start actions ↔
      batching.Along (fun w action => ¬ SendsIntoFull w action) start actions := by
  have hroomy : Roomy start := by
    obtain ⟨nextId, hstart⟩ := hstart
    rw [hstart]
    refine ⟨?_, ?_, ?_⟩
    · show 0 + 0 < 10
      omega
    · show (0 : ℤ) < 1
      omega
    · show ((0 : ℕ) : ℤ) ≤ 1
      omega
  exact along_congr Roomy KeepsRoom _ _
    (fun w action w' hw hkeeps hstep => roomy_step w action w' hw hkeeps hstep)
    (fun w action hw _ => dispatchesWithin_iff w action hw) actions start hroomy hroom

theorem keepsRoom_send (w : World) (method : String) (params : List Json) :
    KeepsRoom w (.send method params) := by
  refine ⟨fun batchSize hset => absurd hset (by simp), ?_⟩
  intro w' hstep hshrinks
  rw [← Option.some.inj hstep] at hshrinks
  have hsame : (w.send method params).provider.batchSize = w.provider.batchSize :=
    congrArg Tally.value (send_tally w method params)
  omega

theorem keepsRoom_timer (w : World) (timer : ℕ) : KeepsRoom w (.timer timer) := by
  refine ⟨fun batchSize hset => absurd hset (by simp), ?_⟩
  intro w' hstep hshrinks
  rw [(step_timer hstep).2] at hshrinks
  exact absurd hshrinks (lt_irrefl _)

/-- A batch of two, with the size at one. -/
theorem two_requests_dispatched_together :
    batching.initial { provider := {} } ∧
    batching.Along KeepsRoom { provider := {} } [.send "eth_call" [], .send "eth_call" []] ∧
    ¬ batching.Along DispatchesWithin { provider := {} }
      [.send "eth_call" [], .send "eth_call" []] := by
  refine ⟨⟨42, rfl⟩, ?_, ?_⟩
  · exact ⟨keepsRoom_send _ _ _, fun s₁ _ => ⟨keepsRoom_send _ _ _, fun _ _ => trivial⟩⟩
  · intro hwithin
    have hsecond := (hwithin.2 _ rfl).1 _ rfl _ (List.mem_singleton_self _)
    have htwo : (2 : ℤ) ≤ 1 := hsecond
    omega

/-- Where the second request waits until the timer has fired, each batch is one request. -/
theorem dispatched_within_batchSize_iff_timer :
    batching.Along DispatchesWithin { provider := {} }
      [.send "eth_call" [], .timer 0, .send "eth_call" [], .timer 1] := by
  apply (dispatched_within_batchSize_iff { provider := {} } ⟨42, rfl⟩ _ ?_).mpr
  · decide
  · exact ⟨keepsRoom_send _ _ _, fun s₁ _ => ⟨keepsRoom_timer _ _, fun s₂ _ =>
      ⟨keepsRoom_send _ _ _, fun s₃ _ => ⟨keepsRoom_timer _ _, fun _ _ => trivial⟩⟩⟩⟩

end SubqlEthereum.Ethers
