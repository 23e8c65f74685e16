import SubqlEthereum.Ethers.JsonRpcBatchProvider

/-!
# The provider without batches

`json-rpc-provider.ts`.  Every call is a request of its own, except that `eth_chainId` and
`eth_blockNumber` are cached: the promise of the request is kept, a timer that removes it is set,
and calls before that timer get the same promise.

A `World` holds the provider with its promises, the timers that are set, by their methods, and the
requests handed to `fetchJson`.  `calls` and `ticks` record the calls of `send` and the timers that
have run; a call's `epoch` is the number of those for its method at that time.  `fetchJson` itself
is `Web`; here it is known by the outcome of its promise.
-/

namespace SubqlEthereum.Ethers.Unbatched

open SubqlEthereum.External SubqlEthereum.JsonText SubqlEthereum.StepSystem
open SubqlEthereum.Promises

/-- The methods whose promise is kept until the next event loop. -/
def cachedMethods : List String := ["eth_chainId", "eth_blockNumber"]

/-- A call of `send`, with the promise it returned. -/
structure Call where
  method : String
  params : List Json
  promise : ℕ
  epoch : ℕ

structure World where
  nextId : ℕ := 42
  cache : String → Option ℕ := fun _ => none
  promises : Heap (Option Json) JsError := []
  timers : List String := []
  fetches : List InflightRequest := []
  outstanding : List ℕ := []
  calls : List Call := []
  ticks : String → ℕ := fun _ => 0

/-- The promise kept for a method, if it is one of those that are cached. -/
def World.cached (w : World) (method : String) : Option ℕ :=
  if method ∈ cachedMethods then w.cache method else none

/-- `fetchJson` for a new request, with a new promise. -/
def World.fetch (w : World) (method : String) (params : List Json) (id : ℕ) : World :=
  { w with
    promises := w.promises ++ [none]
    fetches := w.fetches ++ [⟨{ method, params, id }, w.promises.length⟩]
    outstanding := w.outstanding ++ [w.fetches.length]
    calls := w.calls ++ [⟨method, params, w.promises.length, w.ticks method⟩] }

/-- Keeps a promise, and sets the timer that removes it. -/
def World.keep (w : World) (method : String) (promise : ℕ) : World :=
  { w with
    cache := fun m => if m = method then some promise else w.cache m
    timers := w.timers ++ [method] }

/-- The id is used up also by a call that is answered from the cache. -/
def World.send (w : World) (method : String) (params : List Json) : World :=
  let id := w.nextId
  let w := { w with nextId := w.nextId + 1 }
  match w.cached method with
  | some promise => { w with calls := w.calls ++ [⟨method, params, promise, w.ticks method⟩] }
  | none =>
    if method ∈ cachedMethods then (w.fetch method params id).keep method w.promises.length
    else w.fetch method params id

/-- A timer that runs deletes the promise kept for its method. -/
def World.tick (w : World) (method : String) : World :=
  { w with
    cache := fun m => if m = method then none else w.cache m
    timers := w.timers.erase method
    ticks := fun m => if m = method then w.ticks m + 1 else w.ticks m }

def World.answer (w : World) (i : ℕ) (inflight : InflightRequest)
    (outcome : Outcome (Option Json) JsError) : World :=
  { w with
    outstanding := w.outstanding.erase i
    promises := settle w.promises inflight.promise outcome }

inductive Action
  | send (method : String) (params : List Json)
  | timer (method : String)
  | answer (fetch : ℕ) (outcome : Outcome (Option Json) JsError)

def step (w : World) : Action → Option World
  | .send method params => some (w.send method params)
  | .timer method => if method ∈ w.timers then some (w.tick method) else none
  | .answer i outcome =>
    match w.fetches[i]? with
    | some inflight => if i ∈ w.outstanding then some (w.answer i inflight outcome) else none
    | none => none

def unbatched : System World Action where
  initial w := ∃ nextId, w = { nextId }
  step := step

/-! ### What a step does -/

/-- A call gets the promise that is kept, or one for a request of its own, which is kept for the
methods that are cached. -/
theorem send_cases (w : World) (method : String) (params : List Json) :
    (∃ promise, method ∈ cachedMethods ∧ w.cache method = some promise ∧
      w.send method params = { w with
        nextId := w.nextId + 1
        calls := w.calls ++ [⟨method, params, promise, w.ticks method⟩] }) ∨
    (method ∈ cachedMethods ∧ w.cache method = none ∧
      w.send method params =
        ({ w with nextId := w.nextId + 1 }.fetch method params w.nextId).keep method
          w.promises.length) ∨
    (method ∉ cachedMethods ∧
      w.send method params = { w with nextId := w.nextId + 1 }.fetch method params w.nextId) := by
  by_cases hmethod : method ∈ cachedMethods
  · have hcached : ({ w with nextId := w.nextId + 1 } : World).cached method = w.cache method :=
      if_pos hmethod
    cases hcache : w.cache method with
    | some promise =>
      refine .inl ⟨promise, hmethod, rfl, ?_⟩
      rw [World.send]
      simp only [hcached, hcache]
    | none =>
      refine .inr (.inl ⟨hmethod, rfl, ?_⟩)
      rw [World.send]
      simp only [hcached, hcache, if_pos hmethod]
  · have hcached : ({ w with nextId := w.nextId + 1 } : World).cached method = none :=
      if_neg hmethod
    refine .inr (.inr ⟨hmethod, ?_⟩)
    rw [World.send]
    simp only [hcached, if_neg hmethod]

theorem step_cases (w : World) (action : Action) (w' : World) (hstep : step w action = some w') :
    (∃ method params, action = .send method params ∧ w' = w.send method params) ∨
    (∃ method, action = .timer method ∧ method ∈ w.timers ∧ w' = w.tick method) ∨
    ∃ i inflight outcome, action = .answer i outcome ∧ w.fetches[i]? = some inflight ∧
      i ∈ w.outstanding ∧ w' = w.answer i inflight outcome := by
  cases action with
  | send method params => exact .inl ⟨method, params, rfl, (Option.some.inj hstep).symm⟩
  | timer method =>
    rw [step] at hstep
    split_ifs at hstep with hset
    exact .inr (.inl ⟨method, rfl, hset, (Option.some.inj hstep).symm⟩)
  | answer i outcome =>
    rw [step] at hstep
    cases hfetch : w.fetches[i]? with
    | none =>
      rw [hfetch] at hstep
      exact absurd hstep (by simp)
    | some inflight =>
      simp only [hfetch] at hstep
      split_ifs at hstep with hi
      exact .inr (.inr ⟨i, inflight, outcome, rfl, hfetch, hi, (Option.some.inj hstep).symm⟩)

/-! ### The timers and the promises that are kept -/

/-- Every promise that is kept has one timer, which was set for it. -/
structure World.Timed (w : World) : Prop where
  nodup : w.timers.Nodup
  timers_iff : ∀ m, m ∈ w.timers ↔ (w.cache m).isSome = true
  kept : ∀ m, (w.cache m).isSome = true → m ∈ cachedMethods

theorem timed_keep (w : World) (hw : w.Timed) (method : String) (promise : ℕ)
    (hmethod : method ∈ cachedMethods) (hfree : w.cache method = none) :
    (w.keep method promise).Timed where
  nodup := by
    show (w.timers ++ [method]).Nodup
    rw [← List.concat_eq_append, List.nodup_concat]
    refine ⟨?_, hw.nodup⟩
    intro hin
    rw [hw.timers_iff, hfree] at hin
    exact absurd hin (by simp)
  timers_iff := by
    intro m
    show m ∈ w.timers ++ [method] ↔ (if m = method then some promise else w.cache m).isSome = true
    rw [List.mem_append, List.mem_singleton, hw.timers_iff]
    by_cases h : m = method
    · simp [h]
    · simp [h]
  kept := by
    intro m hm
    have hm : (if m = method then some promise else w.cache m).isSome = true := hm
    by_cases h : m = method
    · rw [h]
      exact hmethod
    · rw [if_neg h] at hm
      exact hw.kept m hm

theorem timed_tick (w : World) (hw : w.Timed) (method : String) : (w.tick method).Timed where
  nodup := hw.nodup.erase method
  timers_iff := by
    intro m
    show m ∈ w.timers.erase method ↔ (if m = method then none else w.cache m).isSome = true
    rw [hw.nodup.mem_erase_iff, hw.timers_iff]
    by_cases h : m = method
    · simp [h]
    · simp [h]
  kept := by
    intro m hm
    have hm : (if m = method then none else w.cache m).isSome = true := hm
    by_cases h : m = method
    · rw [if_pos h] at hm
      exact absurd hm (by simp)
    · rw [if_neg h] at hm
      exact hw.kept m hm

theorem timed_step (w : World) (action : Action) (w' : World) (hw : w.Timed)
    (hstep : step w action = some w') : w'.Timed := by
  rcases step_cases w action w' hstep with ⟨method, params, -, h⟩ | ⟨method, -, -, h⟩ |
    ⟨i, inflight, outcome, -, -, -, h⟩
  · rw [h]
    rcases send_cases w method params with ⟨promise, -, -, hsend⟩ | ⟨hmethod, hfree, hsend⟩ |
      ⟨-, hsend⟩
    · rw [hsend]
      exact ⟨hw.nodup, hw.timers_iff, hw.kept⟩
    · rw [hsend]
      have htimed : ({ w with nextId := w.nextId + 1 }.fetch method params w.nextId).Timed :=
        ⟨hw.nodup, hw.timers_iff, hw.kept⟩
      exact timed_keep _ htimed method _ hmethod hfree
    · rw [hsend]
      exact ⟨hw.nodup, hw.timers_iff, hw.kept⟩
  · rw [h]
    exact timed_tick w hw method
  · rw [h]
    exact ⟨hw.nodup, hw.timers_iff, hw.kept⟩

/-! ### Which calls share a promise -/

/-- Two calls have one promise exactly when they are of the same cached method and no timer of it
ran between them. -/
def Alike (c d : Call) : Prop :=
  c.promise = d.promise ↔ c.method = d.method ∧ c.method ∈ cachedMethods ∧ c.epoch = d.epoch

/-- The promise kept for a method is that of the calls of the method since the last timer. -/
structure World.Shared (w : World) : Prop where
  below : ∀ c ∈ w.calls, c.promise < w.promises.length
  epochs : ∀ c ∈ w.calls, c.epoch ≤ w.ticks c.method
  kept : ∀ m p, w.cache m = some p → (∃ c ∈ w.calls, c.promise = p) ∧
    ∀ c ∈ w.calls, c.promise = p ↔ c.method = m ∧ c.epoch = w.ticks m
  current : ∀ c ∈ w.calls, c.method ∈ cachedMethods → c.epoch = w.ticks c.method →
    (w.cache c.method).isSome = true
  alike : w.calls.Pairwise Alike

/-- A call that gets the promise that is kept. -/
theorem shared_hit (w : World) (hw : w.Shared) (method : String) (params : List Json)
    (promise : ℕ) (hmethod : method ∈ cachedMethods) (hcache : w.cache method = some promise) :
    World.Shared { w with
      nextId := w.nextId + 1
      calls := w.calls ++ [⟨method, params, promise, w.ticks method⟩] } where
  below := by
    intro c hc
    rcases List.mem_append.mp hc with hold | hnew
    · exact hw.below c hold
    · obtain ⟨c', hc', hpromise⟩ := (hw.kept method promise hcache).1
      rw [List.mem_singleton.mp hnew, ← hpromise]
      exact hw.below c' hc'
  epochs := by
    intro c hc
    rcases List.mem_append.mp hc with hold | hnew
    · exact hw.epochs c hold
    · rw [List.mem_singleton.mp hnew]
  kept := by
    intro m p hm
    obtain ⟨⟨c', hc', hpromise⟩, hcalls⟩ := hw.kept m p hm
    refine ⟨⟨c', List.mem_append_left _ hc', hpromise⟩, fun c hc => ?_⟩
    rcases List.mem_append.mp hc with hold | hnew
    · exact hcalls c hold
    · rw [List.mem_singleton.mp hnew]
      show promise = p ↔ method = m ∧ w.ticks method = w.ticks m
      constructor
      · intro hsame
        have hown := ((hw.kept method promise hcache).2 c' hc').mp (hpromise.trans hsame.symm)
        have hother := (hcalls c' hc').mp hpromise
        have hmethods : method = m := hown.1.symm.trans hother.1
        exact ⟨hmethods, by rw [hmethods]⟩
      · intro h
        rw [h.1, hm] at hcache
        exact (Option.some.inj hcache).symm
  current := by
    intro c hc hcached hepoch
    rcases List.mem_append.mp hc with hold | hnew
    · exact hw.current c hold hcached hepoch
    · rw [List.mem_singleton.mp hnew]
      show (w.cache method).isSome = true
      rw [hcache]
      rfl
  alike := by
    rw [List.pairwise_append]
    refine ⟨hw.alike, List.pairwise_singleton _ _, fun c hc d hd => ?_⟩
    rw [List.mem_singleton.mp hd]
    show c.promise = promise ↔ c.method = method ∧ c.method ∈ cachedMethods ∧
      c.epoch = w.ticks method
    rw [(hw.kept method promise hcache).2 c hc]
    constructor
    · intro h
      refine ⟨h.1, ?_, h.2⟩
      rw [h.1]
      exact hmethod
    · intro h
      exact ⟨h.1, h.2.2⟩

/-- A call that makes a request of its own: its promise is new, and no other call can share it so
far. -/
theorem shared_fetch (w : World) (hw : w.Shared) (htimed : w.Timed) (method : String)
    (params : List Json) (id : ℕ)
    (hfree : method ∈ cachedMethods → ∀ c ∈ w.calls, c.method = method →
      c.epoch ≠ w.ticks method) :
    (∀ c ∈ (w.fetch method params id).calls, c.promise < w.promises.length + 1) ∧
    (∀ c ∈ (w.fetch method params id).calls, c.epoch ≤ w.ticks c.method) ∧
    (∀ m p, m ≠ method ∨ method ∉ cachedMethods → w.cache m = some p →
      (∃ c ∈ (w.fetch method params id).calls, c.promise = p) ∧
        ∀ c ∈ (w.fetch method params id).calls, c.promise = p ↔
          c.method = m ∧ c.epoch = w.ticks m) ∧
    (w.fetch method params id).calls.Pairwise Alike := by
  have hnew : ∀ c ∈ w.calls, c.promise ≠ w.promises.length := by
    intro c hc heq
    have := hw.below c hc
    omega
  refine ⟨?_, ?_, ?_, ?_⟩
  · intro c hc
    rcases List.mem_append.mp hc with hold | hlast
    · have := hw.below c hold
      omega
    · rw [List.mem_singleton.mp hlast]
      exact Nat.lt_succ_self _
  · intro c hc
    rcases List.mem_append.mp hc with hold | hlast
    · exact hw.epochs c hold
    · rw [List.mem_singleton.mp hlast]
  · intro m p hother hm
    obtain ⟨⟨c', hc', hpromise⟩, hcalls⟩ := hw.kept m p hm
    refine ⟨⟨c', List.mem_append_left _ hc', hpromise⟩, fun c hc => ?_⟩
    rcases List.mem_append.mp hc with hold | hlast
    · exact hcalls c hold
    · rw [List.mem_singleton.mp hlast]
      show w.promises.length = p ↔ method = m ∧ w.ticks method = w.ticks m
      refine iff_of_false ?_ ?_
      · intro heq
        exact hnew c' hc' (hpromise.trans heq.symm)
      · intro h
        rcases hother with hne | hnot
        · exact hne h.1.symm
        · apply hnot
          rw [h.1]
          exact htimed.kept m (by rw [hm]; rfl)
  · show (w.calls ++ [_]).Pairwise Alike
    rw [List.pairwise_append]
    refine ⟨hw.alike, List.pairwise_singleton _ _, fun c hc d hd => ?_⟩
    rw [List.mem_singleton.mp hd]
    show c.promise = w.promises.length ↔ c.method = method ∧ c.method ∈ cachedMethods ∧
      c.epoch = w.ticks method
    refine iff_of_false (hnew c hc) ?_
    intro h
    have hcached : method ∈ cachedMethods := by
      rw [← h.1]
      exact h.2.1
    exact hfree hcached c hc h.1 h.2.2

theorem shared_send (w : World) (hw : w.Shared) (htimed : w.Timed) (method : String)
    (params : List Json) : (w.send method params).Shared := by
  have hw' : World.Shared { w with nextId := w.nextId + 1 } :=
    ⟨hw.below, hw.epochs, hw.kept, hw.current, hw.alike⟩
  have htimed' : World.Timed { w with nextId := w.nextId + 1 } :=
    ⟨htimed.nodup, htimed.timers_iff, htimed.kept⟩
  rcases send_cases w method params with ⟨promise, hmethod, hcache, hsend⟩ |
    ⟨hmethod, hcache, hsend⟩ | ⟨hmethod, hsend⟩
  · rw [hsend]
    exact shared_hit w hw method params promise hmethod hcache
  · have hfree : ∀ c ∈ w.calls, c.method = method → c.epoch ≠ w.ticks method := by
      intro c hc hsame hepoch
      have hsome := hw.current c hc (by rw [hsame]; exact hmethod) (by rw [hsame]; exact hepoch)
      rw [hsame, hcache] at hsome
      exact absurd hsome (by simp)
    obtain ⟨hbelow, hepochs, hkept, halike⟩ :=
      shared_fetch _ hw' htimed' method params w.nextId fun _ => hfree
    rw [hsend]
    refine ⟨?_, hepochs, ?_, ?_, halike⟩
    · intro c hc
      show c.promise < (w.promises ++ [none]).length
      rw [List.length_append, List.length_singleton]
      exact hbelow c hc
    · intro m p hm
      have hm : (if m = method then some w.promises.length else w.cache m) = some p := hm
      by_cases h : m = method
      · rw [if_pos h] at hm
        rw [← Option.some.inj hm, h]
        refine ⟨⟨_, List.mem_append_right _ (List.mem_singleton_self _), rfl⟩, fun c hc => ?_⟩
        rcases List.mem_append.mp hc with hold | hlast
        · refine iff_of_false ?_ fun hboth => hfree c hold hboth.1 hboth.2
          intro heq
          have hlt : c.promise < w.promises.length := hw.below c hold
          omega
        · rw [List.mem_singleton.mp hlast]
          exact iff_of_true rfl ⟨rfl, rfl⟩
      · rw [if_neg h] at hm
        exact hkept m p (.inl h) hm
    · intro c hc hcached hepoch
      show (if c.method = method then some w.promises.length else w.cache c.method).isSome = true
      by_cases h : c.method = method
      · rw [if_pos h]
        rfl
      · rw [if_neg h]
        rcases List.mem_append.mp hc with hold | hlast
        · exact hw.current c hold hcached hepoch
        · rw [List.mem_singleton.mp hlast] at h
          exact absurd rfl h
  · obtain ⟨hbelow, hepochs, hkept, halike⟩ :=
      shared_fetch _ hw' htimed' method params w.nextId fun hcached => absurd hcached hmethod
    rw [hsend]
    refine ⟨?_, hepochs, fun m p hm => hkept m p (.inr hmethod) hm, ?_, halike⟩
    · intro c hc
      show c.promise < (w.promises ++ [none]).length
      rw [List.length_append, List.length_singleton]
      exact hbelow c hc
    · intro c hc hcached hepoch
      rcases List.mem_append.mp hc with hold | hlast
      · exact hw.current c hold hcached hepoch
      · rw [List.mem_singleton.mp hlast] at hcached
        exact absurd hcached hmethod

theorem shared_tick (w : World) (hw : w.Shared) (method : String) : (w.tick method).Shared where
  below := hw.below
  epochs := by
    intro c hc
    have hold := hw.epochs c hc
    show c.epoch ≤ if c.method = method then w.ticks c.method + 1 else w.ticks c.method
    split_ifs
    · omega
    · exact hold
  kept := by
    intro m p hm
    have hm : (if m = method then none else w.cache m) = some p := hm
    split_ifs at hm with h
    obtain ⟨hexists, hcalls⟩ := hw.kept m p hm
    refine ⟨hexists, fun c hc => ?_⟩
    show c.promise = p ↔ c.method = m ∧ c.epoch = if m = method then w.ticks m + 1 else w.ticks m
    rw [if_neg h]
    exact hcalls c hc
  current := by
    intro c hc hcached hepoch
    have hepoch : c.epoch = if c.method = method then w.ticks c.method + 1 else w.ticks c.method :=
      hepoch
    have hold := hw.epochs c hc
    show (if c.method = method then none else w.cache c.method).isSome = true
    by_cases h : c.method = method
    · rw [if_pos h] at hepoch
      omega
    · rw [if_neg h] at hepoch ⊢
      exact hw.current c hc hcached hepoch
  alike := hw.alike

theorem shared_step (w : World) (action : Action) (w' : World) (hw : w.Shared) (htimed : w.Timed)
    (hstep : step w action = some w') : w'.Shared := by
  rcases step_cases w action w' hstep with ⟨method, params, -, h⟩ | ⟨method, -, -, h⟩ |
    ⟨i, inflight, outcome, -, -, -, h⟩
  · rw [h]
    exact shared_send w hw htimed method params
  · rw [h]
    exact shared_tick w hw method
  · rw [h]
    refine ⟨?_, hw.epochs, hw.kept, hw.current, hw.alike⟩
    intro c hc
    show c.promise < (settle w.promises inflight.promise outcome).length
    rw [settle, List.length_modify]
    exact hw.below c hc

/-! ### Requests and answers -/

/-- The request a call is answered by. -/
def Serves (inflight : InflightRequest) (c : Call) : Prop :=
  inflight.promise = c.promise ∧ inflight.request.method = c.method ∧
    (c.method ∉ cachedMethods → inflight.request.params = c.params)

structure World.Answered (w : World) : Prop where
  ids_below : ∀ inflight ∈ w.fetches, inflight.request.id < w.nextId
  ids_nodup : (w.fetches.map (·.request.id)).Nodup
  below : ∀ inflight ∈ w.fetches, inflight.promise < w.promises.length
  distinct : (w.fetches.map (·.promise)).Nodup
  kept : ∀ m p, w.cache m = some p → ∃ inflight ∈ w.fetches, inflight.promise = p ∧
    inflight.request.method = m
  served : ∀ c ∈ w.calls, ∃ inflight ∈ w.fetches, Serves inflight c
  outstanding_nodup : w.outstanding.Nodup
  outstanding_below : ∀ i ∈ w.outstanding, i < w.fetches.length
  unsettled : ∀ i inflight, w.fetches[i]? = some inflight →
    (w.promises[inflight.promise]? = some none ↔ i ∈ w.outstanding)

/-- A request of its own is new in every respect. -/
theorem answered_fetch (w : World) (hw : w.Answered) (method : String) (params : List Json) :
    World.Answered ({ w with nextId := w.nextId + 1 }.fetch method params w.nextId) where
  ids_below := by
    intro inflight hin
    show inflight.request.id < w.nextId + 1
    rcases List.mem_append.mp hin with hold | hnew
    · have := hw.ids_below inflight hold
      omega
    · rw [List.mem_singleton.mp hnew]
      exact Nat.lt_succ_self _
  ids_nodup := by
    show ((w.fetches ++ [_]).map fun inflight : InflightRequest => inflight.request.id).Nodup
    rw [List.map_append, List.map_singleton, ← List.concat_eq_append, List.nodup_concat]
    refine ⟨?_, hw.ids_nodup⟩
    intro hmem
    obtain ⟨inflight, hin, hid⟩ := List.mem_map.mp hmem
    have hlt := hw.ids_below inflight hin
    have heq : inflight.request.id = w.nextId := hid
    omega
  below := by
    intro inflight hin
    show inflight.promise < (w.promises ++ [none]).length
    rw [List.length_append, List.length_singleton]
    rcases List.mem_append.mp hin with hold | hnew
    · have := hw.below inflight hold
      omega
    · rw [List.mem_singleton.mp hnew]
      exact Nat.lt_succ_self _
  distinct := by
    show ((w.fetches ++ [_]).map fun inflight : InflightRequest => inflight.promise).Nodup
    rw [List.map_append, List.map_singleton, ← List.concat_eq_append, List.nodup_concat]
    refine ⟨?_, hw.distinct⟩
    intro hmem
    obtain ⟨inflight, hin, hpromise⟩ := List.mem_map.mp hmem
    have hlt := hw.below inflight hin
    have heq : inflight.promise = w.promises.length := hpromise
    omega
  kept := by
    intro m p hm
    obtain ⟨inflight, hin, hboth⟩ := hw.kept m p hm
    exact ⟨inflight, List.mem_append_left _ hin, hboth⟩
  served := by
    intro c hc
    rcases List.mem_append.mp hc with hold | hnew
    · obtain ⟨inflight, hin, hserves⟩ := hw.served c hold
      exact ⟨inflight, List.mem_append_left _ hin, hserves⟩
    · rw [List.mem_singleton.mp hnew]
      exact ⟨_, List.mem_append_right _ (List.mem_singleton_self _), rfl, rfl, fun _ => rfl⟩
  outstanding_nodup := by
    show (w.outstanding ++ [w.fetches.length]).Nodup
    rw [← List.concat_eq_append, List.nodup_concat]
    refine ⟨?_, hw.outstanding_nodup⟩
    intro hmem
    exact Nat.lt_irrefl _ (hw.outstanding_below _ hmem)
  outstanding_below := by
    intro i hi
    show i < (w.fetches ++ [_]).length
    rw [List.length_append, List.length_singleton]
    rcases List.mem_append.mp hi with hold | hnew
    · have := hw.outstanding_below i hold
      omega
    · rw [List.mem_singleton.mp hnew]
      exact Nat.lt_succ_self _
  unsettled := by
    intro i inflight hi
    have hi : (w.fetches ++ [_])[i]? = some inflight := hi
    show (w.promises ++ [none])[inflight.promise]? = some none ↔
      i ∈ w.outstanding ++ [w.fetches.length]
    rcases Nat.lt_trichotomy i w.fetches.length with hlt | heq | hgt
    · rw [List.getElem?_append_left hlt] at hi
      have hbelow := hw.below inflight (List.mem_of_getElem? hi)
      rw [List.getElem?_append_left hbelow, hw.unsettled i inflight hi, List.mem_append,
        List.mem_singleton]
      exact ⟨Or.inl, fun h => h.resolve_right (Nat.ne_of_lt hlt)⟩
    · rw [heq, List.getElem?_concat_length] at hi
      rw [← Option.some.inj hi, heq]
      exact iff_of_true List.getElem?_concat_length
        (List.mem_append_right _ (List.mem_singleton_self _))
    · rw [List.getElem?_eq_none (by simp; omega)] at hi
      exact absurd hi (by simp)

theorem answered_send (w : World) (hw : w.Answered) (method : String) (params : List Json) :
    (w.send method params).Answered := by
  have hfetch := answered_fetch w hw method params
  rcases send_cases w method params with ⟨promise, hmethod, hcache, hsend⟩ |
    ⟨hmethod, hcache, hsend⟩ | ⟨hmethod, hsend⟩
  · rw [hsend]
    refine ⟨?_, hw.ids_nodup, hw.below, hw.distinct, hw.kept, ?_, hw.outstanding_nodup,
      hw.outstanding_below, hw.unsettled⟩
    · intro inflight hin
      have hlt := hw.ids_below inflight hin
      show inflight.request.id < w.nextId + 1
      omega
    · intro c hc
      rcases List.mem_append.mp hc with hold | hnew
      · exact hw.served c hold
      · obtain ⟨inflight, hin, hpromise, hsame⟩ := hw.kept method promise hcache
        rw [List.mem_singleton.mp hnew]
        exact ⟨inflight, hin, hpromise, hsame, fun hnot => absurd hmethod hnot⟩
  · rw [hsend]
    refine ⟨hfetch.ids_below, hfetch.ids_nodup, hfetch.below, hfetch.distinct, ?_, hfetch.served,
      hfetch.outstanding_nodup, hfetch.outstanding_below, hfetch.unsettled⟩
    intro m p hm
    have hm : (if m = method then some w.promises.length else w.cache m) = some p := hm
    by_cases h : m = method
    · rw [if_pos h] at hm
      exact ⟨_, List.mem_append_right _ (List.mem_singleton_self _), Option.some.inj hm, h.symm⟩
    · rw [if_neg h] at hm
      exact hfetch.kept m p hm
  · rw [hsend]
    exact hfetch

theorem answered_answer (w : World) (hw : w.Answered) (i : ℕ) (inflight : InflightRequest)
    (hi : w.fetches[i]? = some inflight) (outcome : Outcome (Option Json) JsError) :
    (w.answer i inflight outcome).Answered where
  ids_below := hw.ids_below
  ids_nodup := hw.ids_nodup
  below := by
    intro other hother
    show other.promise < (settle w.promises inflight.promise outcome).length
    rw [settle, List.length_modify]
    exact hw.below other hother
  distinct := hw.distinct
  kept := hw.kept
  served := hw.served
  outstanding_nodup := hw.outstanding_nodup.erase i
  outstanding_below := fun j hj => hw.outstanding_below j (List.mem_of_mem_erase hj)
  unsettled := by
    intro j other hj
    have hj : w.fetches[j]? = some other := hj
    show (settle w.promises inflight.promise outcome)[other.promise]? = some none ↔
      j ∈ w.outstanding.erase i
    rw [settle_get, hw.outstanding_nodup.mem_erase_iff, ← hw.unsettled j other hj]
    by_cases hsame : inflight.promise = other.promise
    · -- the promises of two requests are distinct, so this is the request that was answered
      have hindex : j = i := by
        apply (List.getElem?_inj (by simpa using (List.getElem?_eq_some_iff.mp hj).1)
          hw.distinct).mp
        rw [List.getElem?_map, List.getElem?_map, hj, hi]
        exact congrArg some hsame.symm
      refine iff_of_false ?_ fun h => h.1 hindex
      simp only [if_pos hsame]
      cases w.promises[other.promise]? with
      | none => simp
      | some state => cases state <;> simp
    · have hindex : j ≠ i := by
        intro heq
        rw [heq, hi] at hj
        rw [Option.some.inj hj] at hsame
        exact hsame rfl
      simp only [if_neg hsame, Option.map_id']
      exact ⟨fun h => ⟨hindex, h⟩, fun h => h.2⟩

theorem answered_step (w : World) (action : Action) (w' : World) (hw : w.Answered)
    (hstep : step w action = some w') : w'.Answered := by
  rcases step_cases w action w' hstep with ⟨method, params, -, h⟩ | ⟨method, -, -, h⟩ |
    ⟨i, inflight, outcome, -, hi, -, h⟩
  · rw [h]
    exact answered_send w hw method params
  · rw [h]
    refine ⟨hw.ids_below, hw.ids_nodup, hw.below, hw.distinct, ?_, hw.served,
      hw.outstanding_nodup, hw.outstanding_below, hw.unsettled⟩
    intro m p hm
    have hm : (if m = method then none else w.cache m) = some p := hm
    split_ifs at hm
    exact hw.kept m p hm
  · rw [h]
    exact answered_answer w hw i inflight hi outcome

/-! ### Runs -/

theorem sound (w : World) (hw : unbatched.Reachable w) : w.Timed ∧ w.Shared ∧ w.Answered := by
  apply invariant (fun w => w.Timed ∧ w.Shared ∧ w.Answered) ?_ ?_ w hw
  · intro start hstart
    obtain ⟨nextId, hstart⟩ := hstart
    rw [hstart]
    refine ⟨⟨List.nodup_nil, fun m => ?_, fun m hm => absurd hm (by simp)⟩,
      ⟨fun c hc => absurd hc List.not_mem_nil, fun c hc => absurd hc List.not_mem_nil,
        fun m p hm => absurd hm (by simp), fun c hc => absurd hc List.not_mem_nil, .nil⟩, ?_⟩
    · exact iff_of_false List.not_mem_nil (by simp)
    · exact {
        ids_below := fun inflight hin => absurd hin List.not_mem_nil
        ids_nodup := List.nodup_nil
        below := fun inflight hin => absurd hin List.not_mem_nil
        distinct := List.nodup_nil
        kept := fun m p hm => absurd hm (by simp)
        served := fun c hc => absurd hc List.not_mem_nil
        outstanding_nodup := List.nodup_nil
        outstanding_below := fun i hi => absurd hi List.not_mem_nil
        unsettled := fun i inflight hi => absurd hi (by simp) }
  · intro w action w' h hstep
    exact ⟨timed_step w action w' h.1 hstep, shared_step w action w' h.2.1 h.1 hstep,
      answered_step w action w' h.2.2 hstep⟩

/-- A settled promise is settled for good. -/
theorem settled_step (w : World) (action : Action) (w' : World) (p : ℕ)
    (outcome : Outcome (Option Json) JsError) (hp : w.promises[p]? = some (some outcome))
    (hstep : step w action = some w') : w'.promises[p]? = some (some outcome) := by
  have hgrown : ∀ state : Option (Outcome (Option Json) JsError),
      (w.promises ++ [state])[p]? = some (some outcome) := by
    intro state
    rw [List.getElem?_append_left (List.getElem?_eq_some_iff.mp hp).1, hp]
  rcases step_cases w action w' hstep with ⟨method, params, -, h⟩ | ⟨method, -, -, h⟩ |
    ⟨i, inflight, outcome', -, hi, -, h⟩
  · rw [h]
    rcases send_cases w method params with ⟨promise, -, -, hsend⟩ | ⟨-, -, hsend⟩ | ⟨-, hsend⟩
    · rw [hsend]
      exact hp
    · rw [hsend]
      exact hgrown none
    · rw [hsend]
      exact hgrown none
  · rw [h]
    exact hp
  · rw [h]
    exact settleAll_settled w.promises [(inflight.promise, outcome')] p outcome hp

/-- **Calls share a request within one event loop only, and every call is answered.**  In a
reachable state: no two requests have one id; two calls got one promise exactly when they are of
the same cached method with no timer of it between them, and there is one timer for each promise
that is kept; and every call is served by a request of its method, with its parameters unless the
method is cached, whose answer settles the promise of the call for good. -/
theorem calls_share_within_tick (w : World) (hw : unbatched.Reachable w) :
    (w.fetches.map (·.request.id)).Nodup ∧
    w.calls.Pairwise Alike ∧
    (w.timers.Nodup ∧ ∀ m, m ∈ w.timers ↔ (w.cache m).isSome = true) ∧
    ∀ c ∈ w.calls, ∃ i inflight, w.fetches[i]? = some inflight ∧ Serves inflight c ∧
      (w.promises[c.promise]? = some none ↔ i ∈ w.outstanding) ∧
      ∀ outcome, i ∈ w.outstanding → ∃ w', step w (.answer i outcome) = some w' ∧
        ∀ later, unbatched.Leads w' later → later.promises[c.promise]? = some (some outcome) := by
  obtain ⟨htimed, hshared, hanswered⟩ := sound w hw
  refine ⟨hanswered.ids_nodup, hshared.alike, ⟨htimed.nodup, htimed.timers_iff⟩, fun c hc => ?_⟩
  obtain ⟨inflight, hin, hserves⟩ := hanswered.served c hc
  obtain ⟨i, hi⟩ := List.mem_iff_getElem?.mp hin
  refine ⟨i, inflight, hi, hserves, ?_, fun outcome hout => ?_⟩
  · rw [← hserves.1]
    exact hanswered.unsettled i inflight hi
  · have hstep : step w (.answer i outcome) = some (w.answer i inflight outcome) := by
      simp only [step, hi, if_pos hout]
    refine ⟨_, hstep, fun later hlater => ?_⟩
    refine kept (fun w => w.promises[c.promise]? = some (some outcome))
      (fun s action s' _ hs hs' => settled_step s action s' _ outcome hs hs') _ later
      (Reachable.leads hw (Relation.ReflTransGen.single ⟨.answer i outcome, hstep⟩)) ?_ hlater
    show (settle w.promises inflight.promise outcome)[c.promise]? = some (some outcome)
    rw [← hserves.1, settle_get, (hanswered.unsettled i inflight hi).mpr hout]
    simp

/-- The block number asked for twice before the timer and once after it: two requests. -/
theorem calls_share_within_tick_blockNumber :
    ∃ w, unbatched.run {} [.send "eth_blockNumber" [], .send "eth_blockNumber" [],
        .timer "eth_blockNumber", .send "eth_blockNumber" []] = some w ∧
      (w.fetches.map (·.request.id)).Nodup ∧ w.calls.map (·.promise) = [0, 0, 1] := by
  refine ⟨_, rfl, ?_, rfl⟩
  have hleads := leads_of_run _ _ _ (show unbatched.run {} [.send "eth_blockNumber" [],
    .send "eth_blockNumber" [], .timer "eth_blockNumber", .send "eth_blockNumber" []] = some _ from
    rfl)
  exact (calls_share_within_tick _ ⟨_, ⟨42, rfl⟩, hleads⟩).1

end SubqlEthereum.Ethers.Unbatched
