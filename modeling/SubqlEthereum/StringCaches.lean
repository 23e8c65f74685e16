import SubqlEthereum.BlockEthereum
import SubqlEthereum.Library.HiddenState
import SubqlEthereum.LogFilter

/-!
# The caches of topics and selectors

`eventToTopic` and `functionToSighash` of `utils/string.ts` keep their results in two objects of
the module, for as long as the process runs.  `Strings` leaves these out, and so do the filters of
`LogFilter` and `BlockEthereum`.  Here the functions and the filters are written with them.

`caches_unobservable` is about every run of a process: whatever was looked up or tried before, each
lookup has the outcome it has without the caches, and so has each filter that names no property
every object has.  Those names are the exception: `constructor` finds a function in a cache that
holds nothing.
-/

namespace SubqlEthereum.StringCaches

open SubqlEthereum.External SubqlEthereum.Project SubqlEthereum.Strings SubqlEthereum.Blocks
open SubqlEthereum.WordText SubqlEthereum.PlainObject SubqlEthereum.HiddenState
open SubqlEthereum.Dictionary (NOT_NULL_FILTER filterTopics)

/-! ### The functions with their caches -/

structure Caches where
  eventTopicsCache : Properties String := []
  functionSighashCache : Properties String := []

section Functions

variable (p : Platform)

/-- What is kept for an event signature. -/
def signatureTopic (input : String) : Except JsError String := do
  let signature ← p.eventFragmentFormat (replaceWord "indexed" "" input)
  return p.id signature

/-- What is kept for a function signature. -/
def signatureSighash (input : String) : Except JsError String := do
  let signature ← p.functionFragmentFormat input
  p.hexDataSlice (p.id signature) 0 4

def eventToTopic (input : String) : EStateM JsError Caches (Found String) :=
  if p.isHexString input then pure (.result input)
  else
    onPart Caches.eventTopicsCache (fun cache caches => { caches with eventTopicsCache := cache })
      (memo (signatureTopic p) (· = "") input)

def functionToSighash (input : String) : EStateM JsError Caches (Found String) :=
  if p.isHexString input then pure (.result input)
  else
    onPart Caches.functionSighashCache
      (fun cache caches => { caches with functionSighashCache := cache })
      (memo (signatureSighash p) (· = "") input)

/-- A throw, or a value, without a change of the caches. -/
def ofExcept {α : Type} : Except JsError α → EStateM JsError Caches α
  | .ok a => pure a
  | .error e => throw e

/-- A member of an object is no hex string. -/
def hexStringEq (a : Found String) (b : String) : Except JsError Bool :=
  match a with
  | .result a => Strings.hexStringEq p a b
  | .inherited _ => .error { message := "Inputs are not hex strings" }

/-! ### The filters -/

def topicsAccepted (log : EthereumLog) :
    ℕ → List (Option String) → EStateM JsError Caches Bool
  | _, [] => pure true
  | i, topic :: rest =>
    match truthy topic with
    | none => topicsAccepted log (i + 1) rest
    | some t =>
      match truthy log.topics[i]? with
      | none => pure false
      | some logTopic =>
        if t = NOT_NULL_FILTER then pure true
        else do
          let value ← eventToTopic p t
          let equal ← ofExcept (hexStringEq p value logTopic)
          if !equal then pure false else topicsAccepted log (i + 1) rest

def filterLogsProcessor (log : EthereumLog) (filter : Option EthereumLogFilter)
    (address : Option String) : EStateM JsError Caches Bool :=
  if (truthy address).any (!stringNormalizedEq p · log.address) then pure false
  else
    match filter with
    | none => pure true
    | some f => topicsAccepted p log 0 ((f.topics.getD []).take 4)

-- the text that the member of a name is converted to
variable (memberText : String → String)

/-- What `indexOf` looks for. -/
def searchText : Found String → String
  | .result text => text
  | .inherited name => memberText name

def functionAccepts (filter : Option EthereumTransactionFilter) (input : String) :
    EStateM JsError Caches Bool :=
  match filter.bind (·.function) with
  | none => pure true
  | some none => pure (input = "0x")
  | some (some signature) =>
    if signature = "0x" then pure (input = "0x")
    else do
      let sighash ← functionToSighash p signature
      pure ((searchText memberText sighash).toList.isPrefixOf input.toList)

def filterTransactionsProcessor (transaction : EthereumTransaction)
    (filter : Option EthereumTransactionFilter) (address : Option String) :
    EStateM JsError Caches Bool :=
  match filter with
  | none => pure true
  | some f =>
    if f.to = some none ∧ transaction.to ≠ none then pure false
    else if (truthy f.to.join).any (!stringNormalizedEq p · transaction.to) then pure false
    else if (truthy f.from).any (!stringNormalizedEq p · transaction.from) then pure false
    else if f.to = none ∧ (truthy address).any (!stringNormalizedEq p · transaction.to) then
      pure false
    else do
      let inputAccepted ← functionAccepts p memberText filter transaction.input
      if !inputAccepted then pure false
      else if (truthy f.type).any (transaction.type ≠ ·) then pure false
      else pure true

end Functions

/-! ### The caches cannot be observed -/

section Hidden

variable (p : Platform)

/-- Both caches hold results. -/
def CoherentCaches (caches : Caches) : Prop :=
  Coherent (signatureTopic p) caches.eventTopicsCache ∧
    Coherent (signatureSighash p) caches.functionSighashCache

theorem coherentCaches_empty : CoherentCaches p {} :=
  ⟨coherent_empty _, coherent_empty _⟩

/-- What is found for an event signature or a hex string. -/
def foundTopic (input : String) : Except JsError (Found String) :=
  if p.isHexString input then .ok (.result input) else unkept (signatureTopic p) input

def foundSighash (input : String) : Except JsError (Found String) :=
  if p.isHexString input then .ok (.result input) else unkept (signatureSighash p) input

-- the condition under which an outcome is known
variable {c : Prop}

theorem eventToTopic_hides (input : String) :
    Hides c (CoherentCaches p) (eventToTopic p input) (foundTopic p input) := by
  rw [eventToTopic, foundTopic]
  apply Hides.ite (Hides.pure _)
  apply (memo_hides (· = "") input).onPart
  · intro caches h
    exact h.1
  · intro caches cache h hcache
    exact ⟨hcache, h.2⟩

theorem functionToSighash_hides (input : String) :
    Hides c (CoherentCaches p) (functionToSighash p input) (foundSighash p input) := by
  rw [functionToSighash, foundSighash]
  apply Hides.ite (Hides.pure _)
  apply (memo_hides (· = "") input).onPart
  · intro caches h
    exact h.2
  · intro caches cache h hcache
    exact ⟨h.1, hcache⟩

theorem ofExcept_hides {α : Type} (y : Except JsError α) :
    Hides c (CoherentCaches p) (ofExcept y) y := by
  cases y with
  | ok a => exact Hides.pure a
  | error e => exact Hides.throw e

theorem foundTopic_eq (input : String) (h : input ∉ inheritedNames) :
    foundTopic p input = (Strings.eventToTopic p input).map .result := by
  rw [foundTopic, unkept, if_neg h, Strings.eventToTopic]
  split
  · rfl
  · rfl

theorem foundSighash_eq (input : String) (h : input ∉ inheritedNames) :
    foundSighash p input = (Strings.functionToSighash p input).map .result := by
  rw [foundSighash, unkept, if_neg h, Strings.functionToSighash]
  split
  · rfl
  · rfl

theorem map_result_bind {α : Type} (x : Except JsError String)
    (g : Found String → Except JsError α) :
    (x.map .result >>= g) = x >>= fun value => g (.result value) := by
  cases x with
  | ok value => rfl
  | error e => rfl

/-- **The loop over the topics** keeps the caches coherent, and has the outcome it has without them
unless it meets an inherited name. -/
theorem topicsAccepted_hides (log : EthereumLog) (topics : List (Option String)) :
    ∀ i, (c → ∀ t, some t ∈ topics → t ∉ inheritedNames) →
      Hides c (CoherentCaches p) (topicsAccepted p log i topics)
        (LogFilter.topicsAccepted p log i topics) := by
  induction topics with
  | nil => exact fun i _ => Hides.pure true
  | cons topic rest ih =>
    intro i hnames
    have hrest := ih (i + 1) fun hc t ht => hnames hc t (List.mem_cons_of_mem topic ht)
    rw [topicsAccepted, LogFilter.topicsAccepted]
    cases ht : truthy topic with
    | none => exact hrest
    | some t =>
      cases truthy log.topics[i]? with
      | none => exact Hides.pure false
      | some logTopic =>
        have hname : c → t ∉ inheritedNames := by
          intro hc
          apply hnames hc t
          rw [((truthy_eq_some topic t).mp ht).1]
          exact List.mem_cons_self
        apply Hides.ite (Hides.pure true)
        have hfound := (eventToTopic_hides p t).congr fun hc => foundTopic_eq p t (hname hc)
        have hloop := hfound.bind (g := fun value => do
            let equal ← hexStringEq p value logTopic
            if !equal then return false else LogFilter.topicsAccepted p log (i + 1) rest)
          fun value => (ofExcept_hides p (hexStringEq p value logTopic)).bind fun equal =>
            Hides.ite (b := (!equal) = true) (Hides.pure false) hrest
        rw [map_result_bind] at hloop
        exact hloop

theorem filterLogsProcessor_hides (log : EthereumLog) (filter : Option EthereumLogFilter)
    (address : Option String)
    (hnames : c → ∀ t, some t ∈ (filterTopics filter).take 4 → t ∉ inheritedNames) :
    Hides c (CoherentCaches p) (filterLogsProcessor p log filter address)
      (LogFilter.filterLogsProcessor p log filter address) := by
  unfold filterLogsProcessor LogFilter.filterLogsProcessor
  apply Hides.ite (Hides.pure false)
  cases filter with
  | none => exact Hides.pure true
  | some f => exact topicsAccepted_hides p log _ 0 hnames

variable (memberText : String → String)

theorem functionAccepts_hides (filter : Option EthereumTransactionFilter) (input : String)
    (hnames : c → ∀ t, filter.bind (·.function) = some (some t) → t ∉ inheritedNames) :
    Hides c (CoherentCaches p) (functionAccepts p memberText filter input)
      (BlockEthereum.functionAccepts p filter input) := by
  rw [functionAccepts, BlockEthereum.functionAccepts]
  cases hfunction : filter.bind (·.function) with
  | none => exact Hides.pure true
  | some signature =>
    cases signature with
    | none => exact Hides.pure _
    | some signature =>
      apply Hides.ite (Hides.pure _)
      have hfound := (functionToSighash_hides p signature).congr fun hc =>
        foundSighash_eq p signature (hnames hc signature hfunction)
      have hprefix := hfound.bind (g := fun sighash =>
        .ok ((searchText memberText sighash).toList.isPrefixOf input.toList))
        fun sighash => Hides.pure _
      rw [map_result_bind] at hprefix
      exact hprefix

theorem filterTransactionsProcessor_hides (transaction : EthereumTransaction)
    (filter : Option EthereumTransactionFilter) (address : Option String)
    (hnames : c → ∀ t, filter.bind (·.function) = some (some t) → t ∉ inheritedNames) :
    Hides c (CoherentCaches p) (filterTransactionsProcessor p memberText transaction filter address)
      (BlockEthereum.filterTransactionsProcessor p transaction filter address) := by
  cases filter with
  | none => exact Hides.pure true
  | some f =>
    rw [filterTransactionsProcessor, BlockEthereum.filterTransactionsProcessor]
    refine Hides.ite (Hides.pure false) (Hides.ite (Hides.pure false)
      (Hides.ite (Hides.pure false) (Hides.ite (Hides.pure false) ?_)))
    apply (functionAccepts_hides p memberText (some f) transaction.input hnames).bind
    intro inputAccepted
    exact Hides.ite (Hides.pure false) (Hides.ite (Hides.pure false) (Hides.pure true))

end Hidden

/-! ### A run of the process -/

/-- A lookup, or a filter that is tried. -/
inductive Evaluation
  | topic (input : String)
  | sighash (input : String)
  | log (eventLog : EthereumLog) (filter : Option EthereumLogFilter) (address : Option String)
  | transaction (tx : EthereumTransaction) (filter : Option EthereumTransactionFilter)
      (address : Option String)

inductive Outcome
  | found (found : Found String)
  | verdict (accepted : Bool)
deriving DecidableEq, Repr

section Run

variable (p : Platform) (memberText : String → String)

def Evaluation.perform : Evaluation → EStateM JsError Caches Outcome
  | .topic input => do return .found (← eventToTopic p input)
  | .sighash input => do return .found (← functionToSighash p input)
  | .log eventLog filter address => do
    return .verdict (← filterLogsProcessor p eventLog filter address)
  | .transaction tx filter address => do
    return .verdict (← filterTransactionsProcessor p memberText tx filter address)

/-- The evaluation without the caches. -/
def Evaluation.plain : Evaluation → Except JsError Outcome
  | .topic input => do return .found (← foundTopic p input)
  | .sighash input => do return .found (← foundSighash p input)
  | .log eventLog filter address => do
    return .verdict (← LogFilter.filterLogsProcessor p eventLog filter address)
  | .transaction tx filter address => do
    return .verdict (← BlockEthereum.filterTransactionsProcessor p tx filter address)

/-- The filter, if it is one, names no inherited property. -/
def Evaluation.Plain : Evaluation → Prop
  | .topic _ | .sighash _ => True
  | .log _ filter _ => ∀ t, some t ∈ (filterTopics filter).take 4 → t ∉ inheritedNames
  | .transaction _ filter _ =>
    ∀ t, filter.bind (·.function) = some (some t) → t ∉ inheritedNames

/-- Every evaluation keeps the caches coherent, also one that meets an inherited name. -/
theorem perform_hides (evaluation : Evaluation) :
    Hides evaluation.Plain (CoherentCaches p) (evaluation.perform p memberText)
      (evaluation.plain p) := by
  cases evaluation with
  | topic input => exact (eventToTopic_hides p input).bind fun found => Hides.pure _
  | sighash input => exact (functionToSighash_hides p input).bind fun found => Hides.pure _
  | log eventLog filter address =>
    exact (filterLogsProcessor_hides p eventLog filter address fun h => h).bind
      fun accepted => Hides.pure _
  | transaction tx filter address =>
    exact (filterTransactionsProcessor_hides p memberText tx filter address fun h => h).bind
      fun accepted => Hides.pure _

/-- **The caches make no difference.**  In every run of the process, from its start and in any
order: each lookup finds the hash of its signature, or throws because that cannot be parsed,
whatever was looked up or tried before; each filter that names no inherited property decides or
throws as it does without caches.  A lookup under an inherited name finds the member of that
name. -/
theorem caches_unobservable (evaluations : List Evaluation) (i : ℕ) (evaluation : Evaluation)
    (hi : evaluations[i]? = some evaluation) (h : evaluation.Plain) :
    (outcomes (evaluations.map (·.perform p memberText)) {})[i]? = some (evaluation.plain p) :=
  getElem?_outcomes (perform_hides p memberText) evaluations {} (coherentCaches_empty p) i
    evaluation hi h

end Run

/-- A filter for transfers. -/
def transferFilter : EthereumLogFilter where
  topics := some [some "Transfer(address,address,uint256)"]

/-- A filter for a name every object has a property of. -/
def constructorFilter : EthereumLogFilter where
  topics := some [some "constructor"]

/-- Both filters are tried twice on a log of a transfer. -/
def transferRun : List Evaluation :=
  let transfer : EthereumLog := {
    address := none
    topics := ["0xddf252ad1be2c89b69c2b068fc378daa952ba7f163c4a11628f55a4df523b3ef"] }
  [.log transfer (some constructorFilter) none, .log transfer (some transferFilter) none,
    .topic "constructor", .log transfer (some constructorFilter) none,
    .log transfer (some transferFilter) none]

/-- The lookup of the member finds it, and the last filter, answered by the cache, accepts the log
as it would without. -/
theorem caches_unobservable_transfer :
    (outcomes (transferRun.map (·.perform erc20Platform fun _ =>
        "function Object() \x7b [native code] \x7d")) {})[2]? =
      some (.ok (.found (.inherited "constructor"))) ∧
    (outcomes (transferRun.map (·.perform erc20Platform fun _ =>
        "function Object() \x7b [native code] \x7d")) {})[4]? = some (.ok (.verdict true)) := by
  constructor
  · rw [caches_unobservable erc20Platform _ transferRun 2 (.topic "constructor") rfl trivial]
    rfl
  · rw [caches_unobservable erc20Platform _ transferRun 4 _ rfl ?_]
    · rfl
    · intro t ht
      have hname : t = "Transfer(address,address,uint256)" := by
        simpa [filterTopics, transferFilter] using ht
      rw [hname]
      decide

end SubqlEthereum.StringCaches
