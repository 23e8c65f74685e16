import SubqlEthereum.Blocks
import SubqlEthereum.Dictionary.EthDictionaryV1

/-!
# The V1 query never misses a log

A log filter is documented as follows: the address of the data source, when set, is the address
of the log ignoring case; and of the first four topics an empty one asks for nothing, `!null`
asks for presence and any other one for the same hex number as its topic.  An entry of the V1
query matches a log when all its conditions do.

The conditions of a group are built from a representative handler and from the merged addresses
of several data sources.  `topicConditions_match` and `applyAddresses_match` say exactly which
logs they let through; the addresses let more logs through than any single data source asks for,
never fewer, and that is what coverage needs.
-/

namespace SubqlEthereum.Dictionary

open SubqlEthereum.External SubqlEthereum.Project SubqlEthereum.Strings SubqlEthereum.Blocks
open SubqlEthereum.Fallible

/-! ### The documented filter -/

/-- Two hex strings that denote one number. -/
def sameHexNumber (a b : String) : Bool :=
  match hexNumber a, hexNumber b with
  | some m, some n => m = n
  | _, _ => false

/-- What the documentation lets through at one topic position. -/
def topicAccepts (p : Platform) (topic logTopic : Option String) : Bool :=
  match truthy topic with
  | none => true
  | some t =>
    if t = NOT_NULL_FILTER then logTopic.isSome
    else
      match eventToTopic p t with
      | .ok value => logTopic.any (sameHexNumber · value)
      | .error _ => false

/-- The address of the data source, when truthy, is the log's. -/
def addressAccepts (p : Platform) (address : Option String) (log : EthereumLog) : Bool :=
  (truthy address).all fun a => stringNormalizedEq p a log.address

/-- The documented meaning of a log filter in a data source with the given address. -/
def DocumentedLogFilter (p : Platform) (address : Option String)
    (filter : Option EthereumLogFilter) (log : EthereumLog) : Prop :=
  addressAccepts p address log = true ∧
    ∀ i < 4, topicAccepts p (filterTopics filter)[i]?.join log.topics[i]? = true

/-! ### Matching a log against the V1 query -/

/-- The topic of a log a field of the query asks about. -/
def logTopic (log : EthereumLog) (field : String) : Option String :=
  if field = "topics0" then log.topics[0]?
  else if field = "topics1" then log.topics[1]?
  else if field = "topics2" then log.topics[2]?
  else if field = "topics3" then log.topics[3]?
  else none

def DictionaryQueryCondition.matchesLog (p : Platform) (log : EthereumLog)
    (c : DictionaryQueryCondition) : Bool :=
  match c.matcher, c.value with
  | .equalTo, .text value =>
    if c.field = "address" then log.address.map p.toLowerCase = some value
    else (logTopic log c.field).any (sameHexNumber · value)
  | .isIn, .texts values =>
    c.field = "address" && (log.address.map p.toLowerCase).any (values.contains ·)
  | .isNull, .flag false => (logTopic log c.field).isSome
  | _, _ => false

/-- An entry matches when all its conditions hold. -/
def DictionaryQueryEntry.matchesLog (p : Platform) (log : EthereumLog)
    (entry : DictionaryQueryEntry) : Bool :=
  entry.entity = .evmLogs && entry.conditions.all (·.matchesLog p log)

theorem logTopic_topicField (log : EthereumLog) (i : ℕ) (hi : i < 4) :
    logTopic log (topicField i) = log.topics[i]? := by
  have hcases : i = 0 ∨ i = 1 ∨ i = 2 ∨ i = 3 := by omega
  rcases hcases with h | h | h | h <;> subst h <;> rfl

theorem topicField_ne_address (i : ℕ) : topicField i ≠ "address" := by
  intro h
  have hlist := congrArg String.toList h
  rw [topicField, String.toList_append] at hlist
  have hhead : 't' = 'a' := (List.cons.inj hlist).1
  exact absurd hhead (by decide)

/-! ### What the conditions of a group let through -/

/-- Position `j + 1` of the topics is position `j` of the rest. -/
theorem forall_topics_cons (P : ℕ → Option String → Prop) (topic : Option String)
    (rest : List (Option String)) (i : ℕ) :
    (∀ j < (topic :: rest).length, P (i + j) (topic :: rest)[j]?.join) ↔
      P i topic ∧ ∀ j < rest.length, P (i + 1 + j) rest[j]?.join := by
  constructor
  · intro hall
    refine ⟨hall 0 (by simp), fun j hj => ?_⟩
    have hnext := hall (j + 1) (by simp only [List.length_cons]; omega)
    rwa [List.getElem?_cons_succ, show i + (j + 1) = i + 1 + j by omega] at hnext
  · intro hboth j hj
    cases j with
    | zero => exact hboth.1
    | succ j =>
      have hnext := hboth.2 j (by simp only [List.length_cons] at hj; omega)
      rwa [List.getElem?_cons_succ, show i + (j + 1) = i + 1 + j by omega]

/-- The first four topics, read in the list cut to them. -/
theorem forall_take_four (P : ℕ → Option String → Prop) (topics : List (Option String))
    (hnone : ∀ i, P i none) :
    (∀ j < (topics.take 4).length, P (0 + j) (topics.take 4)[j]?.join) ↔
      ∀ i < 4, P i topics[i]?.join := by
  constructor
  · intro hall i hi
    by_cases hlen : i < topics.length
    · have hcut : i < (topics.take 4).length := by
        rw [List.length_take]
        omega
      have hi' := hall i hcut
      rwa [Nat.zero_add, List.getElem?_take_of_lt hi] at hi'
    · rw [List.getElem?_eq_none (by omega)]
      exact hnone i
  · intro hall j hj
    rw [List.length_take] at hj
    rw [Nat.zero_add, List.getElem?_take_of_lt (by omega)]
    exact hall j (by omega)

/-- What one topic adds to the conditions: nothing, presence, or its value. -/
theorem topicConditions_cons (p : Platform) (topic : Option String)
    (rest : List (Option String)) (i : ℕ) (conditions : List DictionaryQueryCondition)
    (h : topicConditions p i (topic :: rest) = .ok conditions) :
    ∃ tail, topicConditions p (i + 1) rest = .ok tail ∧
      ((conditions = tail ∧ ∀ logTopic, topicAccepts p topic logTopic = true) ∨
        (conditions = ⟨topicField i, .flag false, .isNull⟩ :: tail ∧
          ∀ logTopic, topicAccepts p topic logTopic = logTopic.isSome) ∨
        ∃ value, conditions = ⟨topicField i, .text value, .equalTo⟩ :: tail ∧
          ∀ logTopic, topicAccepts p topic logTopic = logTopic.any (sameHexNumber · value)) := by
  rw [topicConditions] at h
  cases ht : truthy topic with
  | none =>
    rw [ht] at h
    refine ⟨conditions, h, .inl ⟨rfl, fun logTopic => ?_⟩⟩
    rw [topicAccepts, ht]
  | some t =>
    rw [ht] at h
    by_cases hnull : t = NOT_NULL_FILTER
    · simp only [hnull, ↓reduceIte] at h
      obtain ⟨tail, hrest, hconditions⟩ := ok_of_bind_ok h
      refine ⟨tail, hrest, .inr (.inl ⟨(Except.ok.inj hconditions).symm, fun logTopic => ?_⟩)⟩
      rw [topicAccepts, ht]
      simp only [hnull, ↓reduceIte]
    · simp only [hnull, ↓reduceIte] at h
      obtain ⟨value, hv, h⟩ := ok_of_bind_ok h
      obtain ⟨tail, hrest, hconditions⟩ := ok_of_bind_ok h
      refine ⟨tail, hrest,
        .inr (.inr ⟨value, (Except.ok.inj hconditions).symm, fun logTopic => ?_⟩)⟩
      rw [topicAccepts, ht]
      simp only [hnull, ↓reduceIte, hv]

/-- **The topic conditions let through what the documented topics do.**  The induction is on the
topics, with the position of the first one generalized. -/
theorem topicConditions_match (p : Platform) (log : EthereumLog) (topics : List (Option String)) :
    ∀ (i : ℕ) (conditions : List DictionaryQueryCondition), i + topics.length ≤ 4 →
      topicConditions p i topics = .ok conditions →
      ((∀ c ∈ conditions, c.matchesLog p log = true) ↔
        ∀ j < topics.length, topicAccepts p topics[j]?.join log.topics[i + j]? = true) := by
  induction topics with
  | nil =>
    intro i conditions hlen h
    have hnil : conditions = [] := (Except.ok.inj h).symm
    subst hnil
    simp
  | cons topic rest ih =>
    intro i conditions hlen h
    have hlen' : i + 1 + rest.length ≤ 4 := by
      simp only [List.length_cons] at hlen
      omega
    have hi : i < 4 := by omega
    rw [forall_topics_cons fun k t => topicAccepts p t log.topics[k]? = true]
    obtain ⟨tail, hrest, hcase⟩ := topicConditions_cons p topic rest i conditions h
    have htail := ih (i + 1) tail hlen' hrest
    rcases hcase with ⟨heq, hfirst⟩ | ⟨heq, hfirst⟩ | ⟨value, heq, hfirst⟩
    · rw [heq, htail]
      exact ⟨fun hall => ⟨hfirst _, hall⟩, And.right⟩
    · rw [heq, List.forall_mem_cons, htail, hfirst]
      simp only [DictionaryQueryCondition.matchesLog, logTopic_topicField log i hi]
    · rw [heq, List.forall_mem_cons, htail, hfirst]
      simp only [DictionaryQueryCondition.matchesLog, topicField_ne_address, ↓reduceIte,
        logTopic_topicField log i hi]

/-- **The address condition lets through the logs of any of the group's contracts.** -/
theorem applyAddresses_match (p : Platform) (limit : ℤ) (addresses : List (Option String))
    (log : EthereumLog) :
    (∀ c ∈ applyAddresses p limit addresses, c.matchesLog p log = true) ↔
      (addressesApply limit addresses = true →
        ∃ a ∈ validAddresses addresses, stringNormalizedEq p a log.address = true) := by
  by_cases h : addressesApply limit addresses = true
  · simp only [h, forall_const, stringNormalizedEq_iff]
    rcases applyAddresses_cases p limit addresses h with ⟨a, ha, hone⟩ | hmany
    · rw [hone, ha, List.forall_mem_singleton]
      simp only [DictionaryQueryCondition.matchesLog, ↓reduceIte, decide_eq_true_eq,
        List.mem_singleton, exists_eq_left]
    · rw [hmany, List.forall_mem_singleton, ← any_contains_toLowerCase]
      simp only [DictionaryQueryCondition.matchesLog, decide_true, Bool.true_and]
  · have hfalse : addressesApply limit addresses = false := by
      simpa using h
    simp [applyAddresses, hfalse]

/-- An address that a data source of the group accepts is one of the valid addresses, when these
go into the query. -/
theorem exists_valid_of_accepts (p : Platform) (limit : ℤ) (addresses : List (Option String))
    (address : Option String) (haddr : address ∈ addresses) (log : EthereumLog)
    (h : addressAccepts p address log = true) :
    addressesApply limit addresses = true →
      ∃ a ∈ validAddresses addresses, stringNormalizedEq p a log.address = true := by
  intro happly
  obtain ⟨heq, -⟩ := addressesApply_spec limit addresses happly
  rw [heq] at haddr
  obtain ⟨a, ha, rfl⟩ := List.mem_map.mp haddr
  have hne : a ≠ "" := ((mem_validAddresses addresses a).mp ha).2
  have ht : truthy (some a) = some a := (truthy_eq_some _ _).mpr ⟨rfl, hne⟩
  rw [addressAccepts, ht] at h
  exact ⟨a, ha, h⟩

/-- **The entry of an event group, taken apart**: what it takes for the entry to match a log. -/
theorem eventFilterToQueryEntry_matchesLog (p : Platform) (limit : ℤ)
    (filter : Option EthereumLogFilter) (addresses : List (Option String))
    (entry : DictionaryQueryEntry)
    (hentry : eventFilterToQueryEntry p limit filter addresses = .ok entry) (log : EthereumLog) :
    entry.matchesLog p log = true ↔
      (addressesApply limit addresses = true →
        ∃ a ∈ validAddresses addresses, stringNormalizedEq p a log.address = true) ∧
      ∀ i < 4, topicAccepts p (filterTopics filter)[i]?.join log.topics[i]? = true := by
  rw [eventFilterToQueryEntry] at hentry
  obtain ⟨conditions, ht, hentry⟩ := ok_of_bind_ok hentry
  have heq : entry = ⟨.evmLogs, applyAddresses p limit addresses ++ conditions⟩ :=
    (Except.ok.inj hentry).symm
  have hlen : 0 + ((filterTopics filter).take 4).length ≤ 4 := by
    rw [List.length_take]
    omega
  have htopics := topicConditions_match p log _ 0 conditions hlen ht
  rw [forall_take_four (fun k t => topicAccepts p t log.topics[k]? = true) _ (fun _ => rfl)]
    at htopics
  rw [← htopics, ← applyAddresses_match p limit addresses log, heq, DictionaryQueryEntry.matchesLog]
  simp only [decide_true, Bool.true_and, List.all_eq_true, List.forall_mem_append]

/-- The entry of an event group matches every log the documented filter of one of its data
sources accepts. -/
theorem eventFilterToQueryEntry_match (p : Platform) (limit : ℤ)
    (filter : Option EthereumLogFilter) (addresses : List (Option String))
    (entry : DictionaryQueryEntry)
    (hentry : eventFilterToQueryEntry p limit filter addresses = .ok entry)
    (address : Option String) (haddr : address ∈ addresses) (log : EthereumLog)
    (hdoc : DocumentedLogFilter p address filter log) : entry.matchesLog p log = true := by
  rw [eventFilterToQueryEntry_matchesLog p limit filter addresses entry hentry]
  exact ⟨exists_valid_of_accepts p limit addresses address haddr log hdoc.1, hdoc.2⟩

/-! ### Coverage -/

/-- **The V1 query never misses a log.**  Whatever the data sources, the address limit and the
other handlers: if the query can be used at all, a log accepted by the documented filter of some
Event handler is matched by one of its entries. -/
theorem buildDictionaryV1_covers_logs (p : Platform) (limit : ℤ)
    (dataSources : List SubqlRuntimeDatasource) (entries : List DictionaryQueryEntry)
    (hbuild : buildDictionaryV1QueryEntries p limit (runtimeDataSources dataSources) =
      .ok entries) (hne : entries ≠ []) (ds : SubqlRuntimeDatasource) (hds : ds ∈ dataSources)
    (handler : String) (filter : Option EthereumLogFilter)
    (hh : SubqlRuntimeHandler.event handler filter ∈ ds.handlers) (log : EthereumLog)
    (hdoc : DocumentedLogFilter p ds.address filter log) :
    ∃ entry ∈ entries, entry.entity = .evmLogs ∧ entry.matchesLog p log = true := by
  obtain ⟨b, addresses, hg, hkind, hjson, haddr⟩ :=
    exists_runtime_group dataSources ds hds _ hh
  obtain ⟨name, rfl⟩ := event_representative b handler filter hkind hjson
  obtain ⟨out, hout, hkept⟩ := buildV1_group p limit _ entries hbuild hne _ hg
  -- the group did not refuse, so it contributed the entry of its filter
  have hentry : ∃ entry, eventFilterToQueryEntry p limit filter addresses = .ok entry ∧
      entry ∈ out := by
    rcases groupQueryEntries_cases p limit _ addresses out hout with
      ⟨-, hnot, -⟩ | ⟨_, _, _, hcontra, -, -⟩ | ⟨name', filter', entry, heq, he, hone⟩
    · exact absurd rfl (hnot name filter)
    · exact absurd hcontra (by simp)
    · have hfilter : filter = filter' :=
        (SubqlRuntimeHandler.event.inj (SubqlHandler.base.inj heq)).2
      rw [← hfilter] at he
      exact ⟨entry, he, by rw [hone]; exact List.mem_singleton_self entry⟩
  obtain ⟨entry, he, hin⟩ := hentry
  have hmatch := eventFilterToQueryEntry_match p limit filter addresses entry he ds.address
    haddr log hdoc
  obtain ⟨kept, hkeptIn, hentity, hperm⟩ := hkept entry hin
  simp only [DictionaryQueryEntry.matchesLog, Bool.and_eq_true, decide_eq_true_eq,
    List.all_eq_true] at hmatch ⊢
  have hkeptEntity : kept.entity = .evmLogs := hentity.trans hmatch.1
  exact ⟨kept, hkeptIn, hkeptEntity, hkeptEntity, fun c hc => hmatch.2 c (hperm.mem_iff.mp hc)⟩

/-- A token contract followed with a mixed-case address, and one of its transfers. -/
def transferDs : SubqlRuntimeDatasource where
  options := some { address := some "0xAb" }
  handlers :=
    [.event "handleTransfer"
      (some ⟨some [some "Transfer(address,address,uint256)", none, some "!null"]⟩)]

def transferLog : EthereumLog where
  address := some "0xaB"
  topics := ["0xDDF252ad1be2c89b69c2b068fc378daa952ba7f163c4a11628f55a4df523b3ef", "0x01", "0x02"]

/-- The coverage of the transfer, with the query as built. -/
theorem buildDictionaryV1_covers_transfer :
    ∃ entry ∈ [(⟨.evmLogs,
        [⟨"address", .text "0xab", .equalTo⟩,
          ⟨"topics0", .text "0xddf252ad1be2c89b69c2b068fc378daa952ba7f163c4a11628f55a4df523b3ef",
            .equalTo⟩,
          ⟨"topics2", .flag false, .isNull⟩]⟩ : DictionaryQueryEntry)],
      entry.entity = .evmLogs ∧ entry.matchesLog erc20Platform transferLog = true :=
  buildDictionaryV1_covers_logs erc20Platform 100 [transferDs] _ (by rfl) (by simp) transferDs
    List.mem_cons_self "handleTransfer" _ List.mem_cons_self transferLog
    ⟨by decide, by decide⟩

end SubqlEthereum.Dictionary
