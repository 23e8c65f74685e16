import SubqlEthereum.Dictionary.EthDictionaryV2
import SubqlEthereum.Dictionary.LogCoverage

/-!
# When the V2 query misses a log

The V1 builder gives up when an Event group has neither topics nor an address.  The V2 builder
only leaves such a group out, and whatever the other groups contribute is used as the query.
The logs of the group left out are then fetched only if some condition of the query asks for
nothing at all; `buildDictionaryV2_covers_logs_iff` says that this is the only way to miss a log
and that it always does miss one otherwise.

Every group that is not left out is covered, as in V1: its condition lets through at least what
the documented filters of its data sources accept.
-/

namespace SubqlEthereum.DictionaryV2

open SubqlEthereum.External SubqlEthereum.Project SubqlEthereum.Strings SubqlEthereum.Blocks
open SubqlEthereum.Fallible (ok_of_bind_ok)
open SubqlEthereum.Dictionary (NOT_NULL_FILTER addressesApply addressesApply_spec validAddresses
  mem_validAddresses topicField filterTopics groupedDataSources runtimeDataSources
  exists_runtime_group runtime_group_source event_representative exists_valid_of_accepts
  sameHexNumber topicAccepts addressAccepts forall_topics_cons forall_take_four
  DocumentedLogFilter logTopic logTopic_topicField topicField_ne_address)

/-! ### Matching -/

/-- A key matches when it has no values or one of them is the log's. -/
def fieldMatchesLog (p : Platform) (log : EthereumLog) (field : String × List String) : Bool :=
  field.2.isEmpty ||
    if field.1 = "address" then (log.address.map p.toLowerCase).any (field.2.contains ·)
    else (logTopic log field.1).any fun topic => field.2.any (sameHexNumber topic ·)

def EthDictionaryLogConditions.matchesLog (p : Platform) (log : EthereumLog)
    (c : EthDictionaryLogConditions) : Bool :=
  c.fields.all (fieldMatchesLog p log)

theorem fieldMatchesLog_nil (p : Platform) (log : EthereumLog) (key : String) :
    fieldMatchesLog p log (key, []) = true := rfl

/-! ### The condition on the groups -/

/-- An Event group without topics and without an address, which the builder leaves out. -/
def eventGroupUnfiltered : SubqlHandler × List (Option String) → Bool
  | (.base (.event _ filter), addresses) =>
    (filterTopics filter).isEmpty && (validAddresses addresses).isEmpty
  | _ => false

theorem takesPart_event (handler : String) (filter : Option EthereumLogFilter)
    (addresses : List (Option String)) :
    takesPart (.base (.event handler filter), addresses) =
      !eventGroupUnfiltered (.base (.event handler filter), addresses) := by
  rw [takesPart, ← Bool.not_and]
  rfl

/-- A topic that puts no value into the query: empty, `!null`, or not a filter the dictionary
has. -/
def topicUnconstrained (availableFilters : Option (List String)) (topic : Option String)
    (i : ℕ) : Bool :=
  match truthy topic with
  | none => true
  | some t => t = NOT_NULL_FILTER || !available availableFilters (topicField i)

/-- An Event group that takes part but puts no value into the query. -/
def eventGroupUnconstrained (limit : ℤ) (availableFilters : Option (List String))
    (group : SubqlHandler × List (Option String)) : Bool :=
  match group.1 with
  | .base (.event _ filter) =>
    !eventGroupUnfiltered group &&
      !(available availableFilters "address" && addressesApply limit group.2) &&
      (List.range 4).all fun i =>
        topicUnconstrained availableFilters (filterTopics filter)[i]?.join i
  | _ => false

/-! ### The topics of one condition -/

/-- What one topic adds to the condition: nothing, a key without values, or its value. -/
theorem topicFields_cons (p : Platform) (availableFilters : Option (List String))
    (topic : Option String) (rest : List (Option String)) (i : ℕ)
    (fields : List (String × List String))
    (h : topicFields p availableFilters i (topic :: rest) = .ok fields) :
    ∃ tail, topicFields p availableFilters (i + 1) rest = .ok tail ∧
      (((fields = tail ∨ fields = (topicField i, []) :: tail) ∧
          topicUnconstrained availableFilters topic i = true) ∨
        ∃ value, fields = (topicField i, [value]) :: tail ∧
          topicUnconstrained availableFilters topic i = false ∧
          ∀ logTopic, topicAccepts p topic logTopic = logTopic.any (sameHexNumber · value)) := by
  rw [topicFields] at h
  cases ht : truthy topic with
  | none =>
    rw [ht] at h
    refine ⟨fields, h, .inl ⟨.inl rfl, ?_⟩⟩
    rw [topicUnconstrained, ht]
  | some t =>
    rw [ht] at h
    by_cases hav : available availableFilters (topicField i) = true
    · simp only [hav, ↓reduceIte] at h
      by_cases hnull : t = NOT_NULL_FILTER
      · simp only [hnull, ↓reduceIte] at h
        obtain ⟨tail, hrest, hfields⟩ := ok_of_bind_ok h
        refine ⟨tail, hrest, .inl ⟨.inr (Except.ok.inj hfields).symm, ?_⟩⟩
        rw [topicUnconstrained, ht]
        simp [hnull]
      · simp only [hnull, ↓reduceIte] at h
        obtain ⟨value, hv, h⟩ := ok_of_bind_ok h
        obtain ⟨tail, hrest, hfields⟩ := ok_of_bind_ok h
        refine ⟨tail, hrest, .inr ⟨value, (Except.ok.inj hfields).symm, ?_, fun logTopic => ?_⟩⟩
        · rw [topicUnconstrained, ht]
          simp [hnull, hav]
        · rw [topicAccepts, ht]
          simp only [hnull, ↓reduceIte, hv]
    · simp only [hav, Bool.false_eq_true, ↓reduceIte] at h
      refine ⟨fields, h, .inl ⟨.inl rfl, ?_⟩⟩
      rw [topicUnconstrained, ht]
      simp [hav]

/-- The keys of the topics let through what the documented topics do. -/
theorem topicFields_match (p : Platform) (availableFilters : Option (List String))
    (log : EthereumLog) (topics : List (Option String)) :
    ∀ (i : ℕ) (fields : List (String × List String)), i + topics.length ≤ 4 →
      topicFields p availableFilters i topics = .ok fields →
      (∀ j < topics.length, topicAccepts p topics[j]?.join log.topics[i + j]? = true) →
      ∀ f ∈ fields, fieldMatchesLog p log f = true := by
  induction topics with
  | nil =>
    intro i fields hlen h hall f hf
    have hnil : fields = [] := (Except.ok.inj h).symm
    rw [hnil] at hf
    exact absurd hf List.not_mem_nil
  | cons topic rest ih =>
    intro i fields hlen h hall
    have hlen' : i + 1 + rest.length ≤ 4 := by
      simp only [List.length_cons] at hlen
      omega
    have hi : i < 4 := by omega
    rw [forall_topics_cons fun k t => topicAccepts p t log.topics[k]? = true] at hall
    obtain ⟨tail, hrest, hcase⟩ := topicFields_cons p availableFilters topic rest i fields h
    have htail := ih (i + 1) tail hlen' hrest hall.2
    rcases hcase with ⟨heq | heq, -⟩ | ⟨value, heq, -, hfirst⟩
    · rw [heq]
      exact htail
    · rw [heq, List.forall_mem_cons]
      exact ⟨fieldMatchesLog_nil p log (topicField i), htail⟩
    · rw [heq, List.forall_mem_cons]
      refine ⟨?_, htail⟩
      have hvalue : log.topics[i]?.any (sameHexNumber · value) = true := by
        rw [← hfirst]
        exact hall.1
      simp only [fieldMatchesLog, topicField_ne_address, ↓reduceIte,
        logTopic_topicField log i hi, List.any_cons, List.any_nil, Bool.or_false,
        List.isEmpty_cons, Bool.false_or, hvalue]

/-- **The topics put no value into the query exactly when each is unconstrained**, and they only
set keys of topics. -/
theorem topicFields_unconstrained (p : Platform) (availableFilters : Option (List String))
    (topics : List (Option String)) :
    ∀ (i : ℕ) (fields : List (String × List String)),
      topicFields p availableFilters i topics = .ok fields →
      (∀ f ∈ fields, f.1 ≠ "address") ∧ ((∀ f ∈ fields, f.2 = []) ↔
        ∀ j < topics.length,
          topicUnconstrained availableFilters topics[j]?.join (i + j) = true) := by
  induction topics with
  | nil =>
    intro i fields h
    have hnil : fields = [] := (Except.ok.inj h).symm
    rw [hnil]
    simp
  | cons topic rest ih =>
    intro i fields h
    rw [forall_topics_cons fun k t => topicUnconstrained availableFilters t k = true]
    obtain ⟨tail, hrest, hcase⟩ := topicFields_cons p availableFilters topic rest i fields h
    obtain ⟨hkeys, htail⟩ := ih (i + 1) tail hrest
    rcases hcase with ⟨heq | heq, hfirst⟩ | ⟨value, heq, hfirst, -⟩
    · rw [heq, htail]
      exact ⟨hkeys, fun hall => ⟨hfirst, hall⟩, And.right⟩
    · rw [heq, List.forall_mem_cons, List.forall_mem_cons, htail]
      exact ⟨⟨topicField_ne_address i, hkeys⟩, fun hall => ⟨hfirst, hall.2⟩,
        fun hall => ⟨rfl, hall.2⟩⟩
    · rw [heq, List.forall_mem_cons, List.forall_mem_cons, hfirst]
      exact ⟨⟨topicField_ne_address i, hkeys⟩, fun hall => absurd hall.1 (by simp),
        fun hall => absurd hall.1 (by simp)⟩

/-! ### One condition -/

/-- The condition of an event group, taken apart. -/
theorem eventFilterToDictionaryCondition_eq (p : Platform) (limit : ℤ)
    (filter : Option EthereumLogFilter) (addresses : List (Option String))
    (availableFilters : Option (List String)) (c : EthDictionaryLogConditions)
    (h : eventFilterToDictionaryCondition p limit filter addresses availableFilters = .ok c) :
    ∃ topics, topicFields p availableFilters 0 ((filterTopics filter).take 4) = .ok topics ∧
      c.fields = (if available availableFilters "address" then
        [("address", applyAddresses p limit addresses)] else []) ++ topics := by
  rw [eventFilterToDictionaryCondition] at h
  obtain ⟨topics, ht, h⟩ := ok_of_bind_ok h
  have hc := (Except.ok.inj h).symm
  exact ⟨topics, ht, by rw [hc]⟩

/-- The key of the addresses lets through the logs of any of the group's contracts. -/
theorem addressField_match (p : Platform) (limit : ℤ) (addresses : List (Option String))
    (log : EthereumLog) (h : addressesApply limit addresses = true →
      ∃ a ∈ validAddresses addresses, stringNormalizedEq p a log.address = true) :
    fieldMatchesLog p log ("address", applyAddresses p limit addresses) = true := by
  by_cases happly : addressesApply limit addresses = true
  · obtain ⟨a, ha, hequal⟩ := h happly
    have hlog := (stringNormalizedEq_iff p a log.address).mp hequal
    have hin : p.toLowerCase a ∈ applyAddresses p limit addresses := by
      rw [applyAddresses, if_pos happly]
      exact List.mem_map_of_mem ha
    simp only [fieldMatchesLog, ↓reduceIte, hlog, Option.any_some]
    rw [List.contains_iff_mem.mpr hin, Bool.or_true]
  · rw [applyAddresses, if_neg happly]
    exact fieldMatchesLog_nil p log "address"

/-- **The condition of a group lets through at least** the logs of any of the group's contracts
with the topics asked for. -/
theorem eventFilterToDictionaryCondition_lets (p : Platform) (limit : ℤ)
    (filter : Option EthereumLogFilter) (addresses : List (Option String))
    (availableFilters : Option (List String)) (c : EthDictionaryLogConditions)
    (hc : eventFilterToDictionaryCondition p limit filter addresses availableFilters = .ok c)
    (log : EthereumLog)
    (haddress : addressesApply limit addresses = true →
      ∃ a ∈ validAddresses addresses, stringNormalizedEq p a log.address = true)
    (hall : ∀ i < 4, topicAccepts p (filterTopics filter)[i]?.join log.topics[i]? = true) :
    c.matchesLog p log = true := by
  obtain ⟨topics, ht, hfields⟩ := eventFilterToDictionaryCondition_eq p limit filter addresses
    availableFilters c hc
  have htopics : ∀ f ∈ topics, fieldMatchesLog p log f = true := by
    apply topicFields_match p availableFilters log _ 0 topics _ ht
    · rw [forall_take_four (fun k t => topicAccepts p t log.topics[k]? = true)]
      · exact hall
      · intro i
        rfl
    · rw [List.length_take]
      omega
  rw [EthDictionaryLogConditions.matchesLog, List.all_eq_true, hfields]
  intro f hf
  rw [List.mem_append] at hf
  cases hf with
  | inl hf =>
    split at hf
    · rw [List.mem_singleton] at hf
      rw [hf]
      exact addressField_match p limit addresses log haddress
    · exact absurd hf List.not_mem_nil
  | inr hf => exact htopics f hf

/-- The condition of a group matches every log the documented filter of one of its data sources
accepts. -/
theorem eventFilterToDictionaryCondition_match (p : Platform) (limit : ℤ)
    (filter : Option EthereumLogFilter) (addresses : List (Option String))
    (availableFilters : Option (List String)) (c : EthDictionaryLogConditions)
    (hc : eventFilterToDictionaryCondition p limit filter addresses availableFilters = .ok c)
    (address : Option String) (haddr : address ∈ addresses) (log : EthereumLog)
    (hdoc : DocumentedLogFilter p address filter log) : c.matchesLog p log = true := by
  apply eventFilterToDictionaryCondition_lets p limit filter addresses availableFilters c hc log
  · exact exists_valid_of_accepts p limit addresses address haddr log hdoc.1
  · exact hdoc.2

/-- A condition has no values exactly when its group is unconstrained. -/
theorem eventFilterToDictionaryCondition_unconstrained (p : Platform) (limit : ℤ)
    (filter : Option EthereumLogFilter) (addresses : List (Option String))
    (availableFilters : Option (List String)) (c : EthDictionaryLogConditions)
    (hc : eventFilterToDictionaryCondition p limit filter addresses availableFilters = .ok c) :
    (∀ f ∈ c.fields, f.2 = []) ↔
      (available availableFilters "address" && addressesApply limit addresses) = false ∧
        ∀ i < 4, topicUnconstrained availableFilters (filterTopics filter)[i]?.join i = true := by
  obtain ⟨topics, ht, hfields⟩ := eventFilterToDictionaryCondition_eq p limit filter addresses
    availableFilters c hc
  obtain ⟨-, htopics⟩ := topicFields_unconstrained p availableFilters _ 0 topics ht
  rw [forall_take_four (fun k t => topicUnconstrained availableFilters t k = true)
    (filterTopics filter) (fun _ => rfl)] at htopics
  have haddress : applyAddresses p limit addresses = [] ↔
      addressesApply limit addresses = false := by
    by_cases happly : addressesApply limit addresses = true
    · obtain ⟨-, hne⟩ := addressesApply_spec limit addresses happly
      rw [applyAddresses, if_pos happly, happly, List.map_eq_nil_iff]
      exact ⟨fun hnil => absurd hnil hne, fun hfalse => absurd hfalse (by simp)⟩
    · rw [applyAddresses, if_neg happly]
      exact ⟨fun _ => Bool.not_eq_true _ ▸ happly, fun _ => rfl⟩
  rw [hfields, List.forall_mem_append, htopics]
  by_cases hav : available availableFilters "address" = true
  · rw [if_pos hav, hav, List.forall_mem_singleton, haddress, Bool.true_and]
  · have hfalse : available availableFilters "address" = false := by simpa using hav
    rw [if_neg hav, hfalse, Bool.false_and]
    simp

/-- A log without topics, from an address the condition does not list, is matched only by a
condition without values. -/
theorem matchesLog_bare (p : Platform) (c : EthDictionaryLogConditions) (log : EthereumLog)
    (htopics : log.topics = [])
    (hfresh : ∀ f ∈ c.fields, ∀ value ∈ f.2, log.address.map p.toLowerCase ≠ some value)
    (hmatch : c.matchesLog p log = true) : ∀ f ∈ c.fields, f.2 = [] := by
  intro f hf
  have hfield : fieldMatchesLog p log f = true := List.all_eq_true.mp hmatch f hf
  have hnone : logTopic log f.1 = none := by simp [logTopic, htopics]
  rw [fieldMatchesLog, hnone, Bool.or_eq_true] at hfield
  cases hfield with
  | inl hempty => exact List.isEmpty_iff.mp hempty
  | inr hvalue =>
    split at hvalue
    · obtain ⟨a, ha, hin⟩ := Option.any_eq_true _ _ |>.mp hvalue
      exact absurd ha (hfresh f hf a (List.contains_iff_mem.mp hin))
    · exact absurd hvalue (by simp)

theorem matchesLog_of_unconstrained (p : Platform) (c : EthDictionaryLogConditions)
    (log : EthereumLog) (h : ∀ f ∈ c.fields, f.2 = []) : c.matchesLog p log = true := by
  rw [EthDictionaryLogConditions.matchesLog, List.all_eq_true]
  intro f hf
  rw [fieldMatchesLog, h f hf]
  rfl

/-! ### One group -/

/-- A group left out accepts every log, in one of its data sources. -/
theorem unfiltered_accepts (p : Platform) (handler : String) (filter : Option EthereumLogFilter)
    (addresses : List (Option String)) (address : Option String) (haddr : address ∈ addresses)
    (h : eventGroupUnfiltered (.base (.event handler filter), addresses) = true)
    (log : EthereumLog) : DocumentedLogFilter p address filter log := by
  have hboth : filterTopics filter = [] ∧ validAddresses addresses = [] := by
    simpa only [eventGroupUnfiltered, Bool.and_eq_true, List.isEmpty_iff] using h
  refine ⟨?_, fun i hi => ?_⟩
  · cases htruthy : truthy address with
    | none => rw [addressAccepts, htruthy]; rfl
    | some a =>
      have hsome := (truthy_eq_some address a).mp htruthy
      have hin : a ∈ validAddresses addresses :=
        (mem_validAddresses addresses a).mpr ⟨hsome.1 ▸ haddr, hsome.2⟩
      rw [hboth.2] at hin
      exact absurd hin List.not_mem_nil
  · rw [hboth.1]
    rfl

/-- The condition of an Event group that takes part is in the query. -/
theorem log_condition_mem (p : Platform) (limit : ℤ) (dataSources : List SubqlDatasource)
    (availableFilters : Option V2MetadataFilters) (entry : EthDictionaryV2QueryEntry)
    (hbuild : buildDictionaryV2QueryEntry p limit dataSources availableFilters = .ok entry)
    (husable : entry.usable = true) (handler : String) (filter : Option EthereumLogFilter)
    (addresses : List (Option String))
    (hg : (SubqlHandler.base (.event handler filter), addresses) ∈
      groupedDataSources dataSources)
    (hfiltered : eventGroupUnfiltered (.base (.event handler filter), addresses) = false) :
    ∃ c ∈ entry.logs.getD [], eventFilterToDictionaryCondition p limit filter addresses
      (availableFilters.bind (·.logs)) = .ok c := by
  have htakes : takesPart (.base (.event handler filter), addresses) = true := by
    rw [takesPart_event, hfiltered]
    rfl
  rcases built_of_takesPart p limit dataSources availableFilters entry hbuild husable _ addresses
    hg htakes with ⟨_, _, _, hcontra, -⟩ | ⟨name, filter', c, heq, hc⟩
  · exact absurd hcontra (by simp)
  · have hfilter : filter = filter' :=
      (SubqlRuntimeHandler.event.inj (SubqlHandler.base.inj heq)).2
    rw [← hfilter] at hc
    refine ⟨c, ?_, hc⟩
    rw [mem_logs_iff p limit dataSources availableFilters entry hbuild husable]
    exact ⟨handler, filter, addresses, hg, htakes, hc⟩

theorem eventGroupUnconstrained_iff (limit : ℤ) (availableFilters : Option (List String))
    (handler : String) (filter : Option EthereumLogFilter) (addresses : List (Option String)) :
    eventGroupUnconstrained limit availableFilters (.base (.event handler filter), addresses) =
      true ↔ eventGroupUnfiltered (.base (.event handler filter), addresses) = false ∧
        (available availableFilters "address" && addressesApply limit addresses) = false ∧
        ∀ i < 4, topicUnconstrained availableFilters (filterTopics filter)[i]?.join i = true := by
  simp only [eventGroupUnconstrained, Bool.and_eq_true, Bool.not_eq_true', List.all_eq_true,
    List.mem_range, and_assoc]

/-! ### Coverage -/

/-- A query that misses no log of a group it leaves out has a group that asks for nothing. -/
theorem unconstrained_of_covered (p : Platform) (limit : ℤ)
    (dataSources : List SubqlDatasource) (availableFilters : Option V2MetadataFilters)
    (entry : EthDictionaryV2QueryEntry)
    (hbuild : buildDictionaryV2QueryEntry p limit dataSources availableFilters = .ok entry)
    (husable : entry.usable = true)
    (hcovered : ∀ log, ∃ c ∈ entry.logs.getD [], c.matchesLog p log = true) :
    ∃ group ∈ groupedDataSources dataSources,
      eventGroupUnconstrained limit (availableFilters.bind (·.logs)) group = true := by
  -- a log without topics, from an address no condition lists
  obtain ⟨a, hfresh⟩ : ∃ a : String, ∀ c ∈ entry.logs.getD [], ∀ f ∈ c.fields,
      ∀ value ∈ f.2, p.toLowerCase a ≠ value := by
    obtain ⟨lower, hrange, hnotin⟩ := (infinite_range_toLowerCase p).exists_notMem_finset
      ((entry.logs.getD []).flatMap fun c => c.fields.flatMap (·.2)).toFinset
    obtain ⟨a, rfl⟩ := hrange
    refine ⟨a, fun c hc f hf value hvalue heq => hnotin ?_⟩
    rw [List.mem_toFinset, heq]
    exact List.mem_flatMap.mpr ⟨c, hc, List.mem_flatMap.mpr ⟨f, hf, hvalue⟩⟩
  obtain ⟨c, hc, hmatch⟩ := hcovered { address := some a, topics := [] }
  have hvalues : ∀ f ∈ c.fields, f.2 = [] := by
    apply matchesLog_bare p c _ rfl _ hmatch
    intro f hf value hvalue heq
    exact hfresh c hc f hf value hvalue (Option.some.inj heq)
  rw [mem_logs_iff p limit dataSources availableFilters entry hbuild husable] at hc
  obtain ⟨handler, filter, addresses, hg, htakes, hcondition⟩ := hc
  have hfiltered : eventGroupUnfiltered (.base (.event handler filter), addresses) = false := by
    rw [takesPart_event, Bool.not_eq_true'] at htakes
    exact htakes
  refine ⟨_, hg, (eventGroupUnconstrained_iff _ _ _ _ _).mpr ⟨hfiltered, ?_⟩⟩
  exact (eventFilterToDictionaryCondition_unconstrained p limit filter addresses _ c
    hcondition).mp hvalues

/-- A group that asks for nothing finds every log. -/
theorem covered_of_unconstrained (p : Platform) (limit : ℤ)
    (dataSources : List SubqlDatasource) (availableFilters : Option V2MetadataFilters)
    (entry : EthDictionaryV2QueryEntry)
    (hbuild : buildDictionaryV2QueryEntry p limit dataSources availableFilters = .ok entry)
    (husable : entry.usable = true) (group : SubqlHandler × List (Option String))
    (hg : group ∈ groupedDataSources dataSources)
    (hun : eventGroupUnconstrained limit (availableFilters.bind (·.logs)) group = true)
    (log : EthereumLog) : ∃ c ∈ entry.logs.getD [], c.matchesLog p log = true := by
  obtain ⟨h, addresses⟩ := group
  obtain ⟨handler, filter, hevent⟩ : ∃ handler filter, h = .base (.event handler filter) := by
    rw [eventGroupUnconstrained] at hun
    split at hun
    · rename_i handler filter heq
      exact ⟨handler, filter, heq⟩
    · exact absurd hun (by simp)
  subst hevent
  rw [eventGroupUnconstrained_iff] at hun
  obtain ⟨c, hc, hcondition⟩ := log_condition_mem p limit dataSources availableFilters entry
    hbuild husable handler filter addresses hg hun.1
  have hvalues := (eventFilterToDictionaryCondition_unconstrained p limit filter addresses _ c
    hcondition).mpr hun.2
  exact ⟨c, hc, matchesLog_of_unconstrained p c log hvalues⟩

/-- **When the V2 query misses no log.**  Of a usable query: every log accepted by the documented
filter of some Event handler is matched, if and only if no Event group has neither topics nor an
address, or some other Event group puts no value at all into the query. -/
theorem buildDictionaryV2_covers_logs_iff (p : Platform) (limit : ℤ)
    (dataSources : List SubqlRuntimeDatasource) (availableFilters : Option V2MetadataFilters)
    (entry : EthDictionaryV2QueryEntry)
    (hbuild : buildDictionaryV2QueryEntry p limit (runtimeDataSources dataSources)
      availableFilters = .ok entry) (husable : entry.usable = true) :
    (∀ ds ∈ dataSources, ∀ handler filter,
      SubqlRuntimeHandler.event handler filter ∈ ds.handlers →
      ∀ log, DocumentedLogFilter p ds.address filter log →
        ∃ c ∈ entry.logs.getD [], c.matchesLog p log = true) ↔
      (∀ group ∈ groupedDataSources (runtimeDataSources dataSources),
        eventGroupUnfiltered group = false) ∨
      ∃ group ∈ groupedDataSources (runtimeDataSources dataSources),
        eventGroupUnconstrained limit (availableFilters.bind (·.logs)) group = true := by
  constructor
  · intro hcovered
    by_cases hall : ∀ group ∈ groupedDataSources (runtimeDataSources dataSources),
        eventGroupUnfiltered group = false
    · exact .inl hall
    · right
      push Not at hall
      obtain ⟨⟨h, addresses⟩, hg, hun⟩ := hall
      obtain ⟨ds, hds, b, hb, hbase, haddr⟩ := runtime_group_source dataSources _ hg
      have hgroup : h = .base b := hbase
      subst hgroup
      cases b with
      | block name filter => exact absurd rfl hun
      | call name filter => exact absurd rfl hun
      | event name filter =>
        have hunfiltered : eventGroupUnfiltered (.base (.event name filter), addresses) = true := by
          simpa using hun
        apply unconstrained_of_covered p limit _ availableFilters entry hbuild husable
        intro log
        exact hcovered ds hds name filter hb log
          (unfiltered_accepts p name filter addresses ds.address haddr hunfiltered log)
  · intro hcond ds hds handler filter hh log hdoc
    obtain ⟨b, addresses, hg, hkind, hjson, haddr⟩ :=
      exists_runtime_group dataSources ds hds _ hh
    obtain ⟨name, rfl⟩ := event_representative b handler filter hkind hjson
    rcases hcond with hall | ⟨group, hgroup, hun⟩
    · obtain ⟨c, hc, hcondition⟩ := log_condition_mem p limit _ availableFilters entry hbuild
        husable name filter addresses hg (hall _ hg)
      exact ⟨c, hc, eventFilterToDictionaryCondition_match p limit filter addresses _ c hcondition
        ds.address haddr log hdoc⟩
    · exact covered_of_unconstrained p limit _ availableFilters entry hbuild husable group hgroup
        hun log

/-- A data source that asks for every log of the chain. -/
def everyLogDs : SubqlRuntimeDatasource where
  handlers := [.event "handleLog" none]

/-- The query built for the transfers and for every log: it asks for the transfers only. -/
def transfersOnlyEntry : EthDictionaryV2QueryEntry where
  logs := some [⟨[("address", ["0xab"]),
    ("topics0", ["0xddf252ad1be2c89b69c2b068fc378daa952ba7f163c4a11628f55a4df523b3ef"]),
    ("topics2", [])]⟩]

/-- **A handler without filters is silently left out**: its log is not asked for. -/
theorem buildDictionaryV2_misses_log :
    buildDictionaryV2QueryEntry erc20Platform 100
        (runtimeDataSources [Dictionary.transferDs, everyLogDs]) none = .ok transfersOnlyEntry ∧
      transfersOnlyEntry.usable = true ∧
      ∃ log, DocumentedLogFilter erc20Platform everyLogDs.address none log ∧
        ¬∃ c ∈ transfersOnlyEntry.logs.getD [], c.matchesLog erc20Platform log = true := by
  refine ⟨rfl, rfl, { address := some "0xcd", topics := ["0x01"] }, ⟨by decide, by decide⟩, ?_⟩
  decide

/-- With the handler for every log, the transfers alone do not cover. -/
theorem buildDictionaryV2_covers_logs_transfers :
    (∀ ds ∈ [Dictionary.transferDs, everyLogDs], ∀ handler filter,
      SubqlRuntimeHandler.event handler filter ∈ ds.handlers →
      ∀ log, DocumentedLogFilter erc20Platform ds.address filter log →
        ∃ c ∈ transfersOnlyEntry.logs.getD [], c.matchesLog erc20Platform log = true) ↔
      (∀ group ∈ groupedDataSources (runtimeDataSources [Dictionary.transferDs, everyLogDs]),
        eventGroupUnfiltered group = false) ∨
      ∃ group ∈ groupedDataSources (runtimeDataSources [Dictionary.transferDs, everyLogDs]),
        eventGroupUnconstrained 100 none group = true :=
  buildDictionaryV2_covers_logs_iff erc20Platform 100 [Dictionary.transferDs, everyLogDs] none
    transfersOnlyEntry rfl rfl

end SubqlEthereum.DictionaryV2
