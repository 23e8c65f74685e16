import SubqlEthereum.Dictionary.TransactionCoverage
import SubqlEthereum.Dictionary.UnusableQueries
import SubqlEthereum.IndexerManager
import SubqlEthereum.LogFilter

/-!
# Which handlers are run for an input

`FilterTypeMap` of `indexer.manager.ts`: of the handlers of a data source, `indexData` runs those
of the kind of the input whose filter accepts it.  A filter may throw as well, for a signature
that cannot be parsed or a log topic that is no hex string; `isOk` lemmas say when it does not.

A dictionary is asked for what the documentation of a filter lets through.  The filter itself may
let through more: `PlainFilters` are those that do not.
-/

namespace SubqlEthereum.HandlerFilters

open SubqlEthereum.External SubqlEthereum.Project SubqlEthereum.Strings SubqlEthereum.Blocks
open SubqlEthereum.Fallible SubqlEthereum.BlockEthereum SubqlEthereum.IndexerManager
open SubqlEthereum.LogFilter
open SubqlEthereum.TransactionCoverage (TransactionQuery noNarrower)
open SubqlEthereum.Dictionary (NOT_NULL_FILTER filterTopics topicAccepts DocumentedLogFilter)
open SubqlEthereum.UnusableQueries (topicUnreadable topicUnreadable_eq_false_iff)

/-! ### Running handlers -/

/-- The filter refuses the input; one that throws does not. -/
def refuses : Except JsError Bool → Bool
  | .ok false => true
  | _ => false

/-- Whether a handler may be run for an input: it is of that kind, and its filter in
`FilterTypeMap` does not refuse the input, whatever the schedule of a Block handler says. -/
def mayRun (p : Platform) (address : Option String) : IndexedData → SubqlRuntimeHandler → Bool
  | .block block, .block _ filter => filterBlocksProcessor (fun _ _ => true) block filter
  | .transaction tx, .call _ filter => !refuses (filterTransactionsProcessor p tx filter address)
  | .log log, .event _ filter => !refuses (filterLogsProcessor p log filter address)
  | _, _ => false

def dsMayRun (p : Platform) (data : IndexedData) : SubqlDatasource → Bool
  | .runtime ds => ds.handlers.any (mayRun p ds.address data)
  | .custom _ => true

/-- `indexData` runs handlers: it does nothing for a data source none of whose handlers accepts
the input. -/
def RunsAccepted {m : Type → Type} [Monad m] (p : Platform)
    (indexData : IndexDataCall SubqlDatasource → m Unit) : Prop :=
  ∀ data ds, dsMayRun p data ds = false → indexData ⟨data, ds⟩ = pure ()

/-- Writes down what the handlers of a data source may be run with. -/
def recordAccepted (p : Platform) (call : IndexDataCall SubqlDatasource) :
    StateM (List IndexedData) Unit :=
  if dsMayRun p call.data call.ds then modify (· ++ [call.data]) else pure ()

theorem recordAccepted_runsAccepted (p : Platform) : RunsAccepted p (recordAccepted p) := by
  intro data ds hidle
  rw [recordAccepted]
  simp only [hidle, Bool.false_eq_true, if_false]

/-! ### Filters that give an answer -/

/-- The topics of a log are hex strings, as ethers makes sure they are. -/
def HexTopics (log : EthereumLog) : Prop := ∀ topic ∈ log.topics, isHexText topic = true

instance (log : EthereumLog) : Decidable (HexTopics log) :=
  inferInstanceAs (Decidable (∀ topic ∈ log.topics, isHexText topic = true))

theorem refuses_of_isOk (x : Except JsError Bool) (hok : x.isOk = true) (hnot : x ≠ .ok true) :
    refuses x = true := by
  obtain ⟨b, rfl⟩ := (isOk_iff x).mp hok
  cases b with
  | false => rfl
  | true => exact absurd rfl hnot

theorem isHexText_of_eventToTopic (p : Platform) (input value : String)
    (h : eventToTopic p input = .ok value) : isHexText value = true := by
  cases hhex : isHexText input with
  | true =>
    rw [eventToTopic_hex p input hhex] at h
    rw [← Except.ok.inj h]
    exact hhex
  | false =>
    rw [eventToTopic_signature p input hhex] at h
    obtain ⟨signature, -, hid⟩ := ok_of_bind_ok h
    obtain ⟨ds, hds, -⟩ := p.id_hexDigits signature
    rw [← Except.ok.inj hid, isHexText, hds]
    rfl

theorem hexStringEq_isOk (p : Platform) (a b : String) (ha : isHexText a = true)
    (hb : isHexText b = true) : (hexStringEq p a b).isOk = true := by
  obtain ⟨ds, hds⟩ := Option.isSome_iff_exists.mp ha
  obtain ⟨es, hes⟩ := Option.isSome_iff_exists.mp hb
  rw [hexStringEq_eq, hds, hes]
  rfl

/-- **The loop over the topics gives an answer**, for topics that can be read. -/
theorem topicsAccepted_isOk (p : Platform) (log : EthereumLog) (hlog : HexTopics log)
    (topics : List (Option String)) :
    ∀ i, (∀ topic ∈ topics, topicUnreadable p topic = false) →
      (topicsAccepted p log i topics).isOk = true := by
  induction topics with
  | nil =>
    intro i hreadable
    rfl
  | cons topic rest ih =>
    intro i hreadable
    have hrest := ih (i + 1) fun t ht => hreadable t (List.mem_cons_of_mem topic ht)
    rw [topicsAccepted]
    cases ht : truthy topic with
    | none => exact hrest
    | some t =>
      cases hl : truthy log.topics[i]? with
      | none => rfl
      | some logTopic =>
        by_cases hnull : t = NOT_NULL_FILTER
        · simp only [hnull, ↓reduceIte]
          rfl
        · have hread := (topicUnreadable_eq_false_iff p topic).mp
            (hreadable topic List.mem_cons_self) t ht hnull
          obtain ⟨value, hvalue⟩ := (isOk_iff _).mp hread
          have hin : logTopic ∈ log.topics :=
            List.mem_of_getElem? ((truthy_eq_some _ _).mp hl).1
          have hhex := isHexText_of_eventToTopic p t value hvalue
          obtain ⟨equal, hequal⟩ := (isOk_iff _).mp
            (hexStringEq_isOk p value logTopic hhex (hlog _ hin))
          simp only [hnull, ↓reduceIte, hvalue, hequal, bind, Except.bind]
          cases equal with
          | false => rfl
          | true => exact hrest

theorem filterLogsProcessor_isOk (p : Platform) (log : EthereumLog) (hlog : HexTopics log)
    (filter : Option EthereumLogFilter) (address : Option String)
    (hreadable : ∀ i < 4, topicUnreadable p (filterTopics filter)[i]?.join = false) :
    (filterLogsProcessor p log filter address).isOk = true := by
  unfold filterLogsProcessor
  split
  · rfl
  · cases filter with
    | none => rfl
    | some f =>
      apply topicsAccepted_isOk p log hlog
      intro topic htopic
      obtain ⟨i, hi⟩ := List.mem_iff_getElem?.mp htopic
      have hlt : i < 4 := by
        obtain ⟨hlen, -⟩ := List.getElem?_eq_some_iff.mp hi
        rw [List.length_take] at hlen
        omega
      rw [List.getElem?_take_of_lt hlt] at hi
      have hone := hreadable i hlt
      rw [show filterTopics (some f) = f.topics.getD [] from rfl, hi] at hone
      exact hone

theorem functionAccepts_isOk (p : Platform) (filter : Option EthereumTransactionFilter)
    (input : String) (hempty : filter.bind (·.function) ≠ some (some ""))
    (hreadable : ((truthy (filter.bind (·.function)).join).any fun signature =>
      !(functionToSighash p signature).isOk) = false) :
    (functionAccepts p filter input).isOk = true := by
  rw [functionAccepts]
  cases hfunction : filter.bind (·.function) with
  | none => rfl
  | some signature =>
    cases signature with
    | none => rfl
    | some signature =>
      by_cases hzero : signature = "0x"
      · simp only [hzero, ↓reduceIte]
        rfl
      · have hne : signature ≠ "" := fun h => hempty (by rw [hfunction, h])
        have htruthy : truthy (some signature) = some signature :=
          (truthy_eq_some _ _).mpr ⟨rfl, hne⟩
        rw [hfunction, Option.join_some, htruthy] at hreadable
        simp only [hzero, ↓reduceIte]
        rw [isOk_bind_ok]
        simpa using hreadable

theorem filterTransactionsProcessor_isOk (p : Platform) (tx : EthereumTransaction)
    (filter : Option EthereumTransactionFilter) (address : Option String)
    (hfunction : (functionAccepts p filter tx.input).isOk = true) :
    (filterTransactionsProcessor p tx filter address).isOk = true := by
  obtain ⟨accepted, haccepted⟩ := (isOk_iff _).mp hfunction
  cases filter with
  | none => rfl
  | some f =>
    simp only [filterTransactionsProcessor, haccepted, bind, Except.bind]
    split_ifs <;> rfl

/-! ### Filters that do what is documented -/

/-- Filters that accept no more than what is documented, and throw for nothing. -/
structure PlainFilters (dataSources : List SubqlRuntimeDatasource) : Prop where
  /-- A topic after a `!null` is documented to be compared, and is not. -/
  topics : ∀ ds ∈ dataSources, ∀ handler filter,
    SubqlRuntimeHandler.event handler filter ∈ ds.handlers →
    ∀ i < 4, (filterTopics filter)[i]?.join = some NOT_NULL_FILTER →
    ∀ j < 4, i < j → truthy (filterTopics filter)[j]?.join = none
  /-- The empty signature asks for nothing in a query, and cannot be parsed by the filter. -/
  signatures : ∀ ds ∈ dataSources, ∀ handler filter,
    SubqlRuntimeHandler.call handler filter ∈ ds.handlers →
    filter.bind (·.function) ≠ some (some "")

/-- **An accepted log is one of the documented filter**, when no topic is asked for after a
`!null`. -/
theorem documented_of_accepted (p : Platform) (log : EthereumLog)
    (filter : Option EthereumLogFilter) (address : Option String)
    (hlast : ∀ i < 4, (filterTopics filter)[i]?.join = some NOT_NULL_FILTER →
      ∀ j < 4, i < j → truthy (filterTopics filter)[j]?.join = none)
    (h : filterLogsProcessor p log filter address = .ok true) :
    DocumentedLogFilter p address filter log := by
  obtain ⟨haddress, htopics⟩ := (filterLogsProcessor_iff p log filter address).mp h
  refine ⟨haddress, ?_⟩
  by_cases hmem : some NOT_NULL_FILTER ∈ (filterTopics filter).take 4
  · obtain ⟨front, back, hsplit, hfront⟩ := List.eq_append_cons_of_mem hmem
    have hlen : front.length < 4 := by
      have hcut := congrArg List.length hsplit
      rw [List.length_take, List.length_append, List.length_cons] at hcut
      omega
    have hat : (filterTopics filter)[front.length]?.join = some NOT_NULL_FILTER := by
      rw [← List.getElem?_take_of_lt hlen, hsplit, List.getElem?_append_right (le_refl _),
        Nat.sub_self]
      rfl
    rw [topicsAccepted_of_first p log _ front back hsplit hfront] at htopics
    intro i hi
    rcases Nat.lt_trichotomy i front.length with hlt | heq | hgt
    · exact htopics.1 i hlt
    · -- the log has a topic where presence is asked for
      rw [heq, hat]
      show log.topics[front.length]?.isSome = true
      obtain ⟨logTopic, hlogTopic⟩ := Option.isSome_iff_exists.mp htopics.2
      rw [((truthy_eq_some _ _).mp hlogTopic).1]
      rfl
    · rw [topicAccepts, hlast front.length hlen hat i hi hgt]
  · exact (topicsAccepted_of_not_mem p log _ hmem).mp htopics

/-- A log that an Event handler may be run for is documented to be accepted. -/
theorem documented_of_mayRun (p : Platform) (dataSources : List SubqlRuntimeDatasource)
    (hplain : PlainFilters dataSources) (ds : SubqlRuntimeDatasource) (hds : ds ∈ dataSources)
    (handler : String) (filter : Option EthereumLogFilter)
    (hh : SubqlRuntimeHandler.event handler filter ∈ ds.handlers)
    (hreadable : ∀ i < 4, topicUnreadable p (filterTopics filter)[i]?.join = false)
    (log : EthereumLog) (hlog : HexTopics log)
    (hrun : mayRun p ds.address (.log log) (.event handler filter) = true) :
    DocumentedLogFilter p ds.address filter log := by
  apply documented_of_accepted p log filter ds.address (hplain.topics ds hds handler filter hh)
  by_contra hnot
  have hrefused := refuses_of_isOk _
    (filterLogsProcessor_isOk p log hlog filter ds.address hreadable) hnot
  rw [mayRun, hrefused] at hrun
  exact absurd hrun (by simp)

/-- A transaction that a Call handler may be run for is accepted. -/
theorem accepted_of_mayRun (p : Platform) (dataSources : List SubqlRuntimeDatasource)
    (hplain : PlainFilters dataSources) (ds : SubqlRuntimeDatasource) (hds : ds ∈ dataSources)
    (handler : String) (filter : Option EthereumTransactionFilter)
    (hh : SubqlRuntimeHandler.call handler filter ∈ ds.handlers)
    (hreadable : ((truthy (filter.bind (·.function)).join).any fun signature =>
      !(functionToSighash p signature).isOk) = false) (tx : EthereumTransaction)
    (hrun : mayRun p ds.address (.transaction tx) (.call handler filter) = true) :
    filterTransactionsProcessor p tx filter ds.address = .ok true := by
  have hfunction := functionAccepts_isOk p filter tx.input
    (hplain.signatures ds hds handler filter hh) hreadable
  by_contra hnot
  have hrefused := refuses_of_isOk _
    (filterTransactionsProcessor_isOk p tx filter ds.address hfunction) hnot
  rw [mayRun, hrefused] at hrun
  exact absurd hrun (by simp)

/-- Every Call handler has, for each input its function filter accepts, a query with this input
that is no narrower than the handler's filter. -/
def CallsCovered (p : Platform) (dataSources : List SubqlRuntimeDatasource)
    (queries : List TransactionQuery) : Prop :=
  ∀ ds ∈ dataSources, ∀ handler filter,
    SubqlRuntimeHandler.call handler filter ∈ ds.handlers →
    ∀ input, functionAccepts p filter input = .ok true →
      ∃ query ∈ queries, query.input input = true ∧ noNarrower p filter ds.address query = true

end SubqlEthereum.HandlerFilters
