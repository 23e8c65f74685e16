import SubqlEthereum.Dictionary.QueryComparison

/-!
# When the dictionary is not used

A node indexes every block when the query it builds is empty.  Both builders can return early with
an empty query, and do so at the first group that refuses, unless a signature that cannot be
parsed comes before it; and the query of groups without filters is empty as well.

A handler of a custom kind does neither: it contributes nothing and refuses nothing.  So whether
the query is empty depends on the other handlers alone, and `queries_empty_iff` says how.
-/

namespace SubqlEthereum.UnusableQueries

open SubqlEthereum.External SubqlEthereum.Project SubqlEthereum.Strings SubqlEthereum.Fallible
open SubqlEthereum.Positions
open SubqlEthereum.Grouping (uniqBy)
open SubqlEthereum.Dictionary SubqlEthereum.DictionaryV2 SubqlEthereum.QueryComparison

/-! ### Signatures that cannot be parsed -/

/-- A topic that is looked up and is no signature. -/
def topicUnreadable (p : Platform) (topic : Option String) : Bool :=
  match truthy topic with
  | none => false
  | some t => t ≠ NOT_NULL_FILTER && !(eventToTopic p t).isOk

/-- The filter of a group has a signature that cannot be parsed, at a position asked for. -/
def unreadable (p : Platform) (asked : ℕ → Bool) :
    SubqlHandler × List (Option String) → Bool
  | (.base (.call _ filter), _) =>
    (truthy (filter.bind (·.function)).join).any fun signature =>
      !(functionToSighash p signature).isOk
  | (.base (.event _ filter), _) =>
    (List.range 4).any fun i => asked i && topicUnreadable p (filterTopics filter)[i]?.join
  | _ => false

theorem topicUnreadable_eq_false_iff (p : Platform) (topic : Option String) :
    topicUnreadable p topic = false ↔
      ∀ t, truthy topic = some t → t ≠ NOT_NULL_FILTER → (eventToTopic p t).isOk = true := by
  rw [topicUnreadable]
  cases truthy topic <;> simp

/-- The loop over the topics throws for those that are looked up and cannot be read. -/
theorem topicLoop_isOk {β : Type} (p : Platform) (asked : ℕ → Bool) (notNull : ℕ → β)
    (equals : ℕ → String → β) (topics : List (Option String)) (i : ℕ) :
    (atPositions (topicPut p asked notNull equals) i topics).isOk = true ↔
      ∀ j < topics.length, (asked (i + j) && topicUnreadable p topics[j]?.join) = false := by
  rw [atPositions_isOk]
  have hposition : ∀ j topic, topics[j]? = some topic →
      ((topicPut p asked notNull equals (i + j) topic).isOk = true ↔
        (asked (i + j) && topicUnreadable p topics[j]?.join) = false) := by
    intro j topic htopic
    rw [topicPut_isOk_iff, htopic, ← topicUnreadable_eq_false_iff]
    cases asked (i + j) <;> simp
  constructor
  · intro h j hj
    have htopic := List.getElem?_eq_getElem hj
    exact (hposition j _ htopic).mp (h j _ htopic)
  · intro h j topic htopic
    exact (hposition j topic htopic).mpr (h j (List.getElem?_eq_some_iff.mp htopic).1)

theorem topicConditions_isOk (p : Platform) (topics : List (Option String)) (i : ℕ) :
    (topicConditions p i topics).isOk = true ↔
      ∀ j < topics.length, topicUnreadable p topics[j]?.join = false := by
  rw [topicConditions_eq]
  exact topicLoop_isOk p (fun _ => true) _ _ topics i

theorem topicFields_isOk (p : Platform) (availableFilters : Option (List String))
    (topics : List (Option String)) (i : ℕ) :
    (topicFields p availableFilters i topics).isOk = true ↔
      ∀ j < topics.length, (available availableFilters (topicField (i + j)) &&
        topicUnreadable p topics[j]?.join) = false := by
  rw [topicFields_eq]
  exact topicLoop_isOk p (fun i => available availableFilters (topicField i)) _ _ topics i

/-- An event group is readable when its first four topics are. -/
theorem unreadable_event (p : Platform) (asked : ℕ → Bool) (name : String)
    (filter : Option EthereumLogFilter) (addresses : List (Option String)) :
    unreadable p asked (.base (.event name filter), addresses) = false ↔
      ∀ i < 4, (asked i && topicUnreadable p (filterTopics filter)[i]?.join) = false := by
  rw [unreadable, List.any_eq_false]
  simp only [List.mem_range, Bool.not_eq_true]

theorem eventFilterToQueryEntry_isOk (p : Platform) (limit : ℤ) (name : String)
    (filter : Option EthereumLogFilter) (addresses : List (Option String)) :
    (eventFilterToQueryEntry p limit filter addresses).isOk = true ↔
      unreadable p (fun _ => true) (.base (.event name filter), addresses) = false := by
  have htopics := topicConditions_isOk p ((filterTopics filter).take 4) 0
  have hfour := forall_take_four (fun _ t => topicUnreadable p t = false) (filterTopics filter)
    fun _ => rfl
  rw [eventFilterToQueryEntry, isOk_bind_ok, htopics, hfour, unreadable_event]
  simp

theorem eventFilterToDictionaryCondition_isOk (p : Platform) (limit : ℤ) (name : String)
    (filter : Option EthereumLogFilter) (addresses : List (Option String))
    (availableFilters : Option (List String)) :
    (eventFilterToDictionaryCondition p limit filter addresses availableFilters).isOk = true ↔
      unreadable p (fun i => available availableFilters (topicField i))
        (.base (.event name filter), addresses) = false := by
  have htopics := topicFields_isOk p availableFilters ((filterTopics filter).take 4) 0
  have hfour := forall_take_four (fun k t => (available availableFilters (topicField k) &&
    topicUnreadable p t) = false) (filterTopics filter) fun k => by simp [topicUnreadable, truthy]
  rw [eventFilterToDictionaryCondition, isOk_bind_ok, htopics, hfour, unreadable_event]

/-- The selector `0x` can be parsed, being a hex string. -/
theorem functionConditions_isOk (p : Platform) (f : EthereumTransactionFilter) :
    (functionConditions p f).isOk = true ↔
      ((truthy f.function.join).any fun signature =>
        !(functionToSighash p signature).isOk) = false := by
  have hzero : (functionToSighash p "0x").isOk = true := by
    rw [functionToSighash_hex p "0x" (by decide)]
    rfl
  rw [functionConditions]
  by_cases hempty : f.function = some none ∨ f.function = some (some "0x")
  · rw [if_pos hempty]
    rcases hempty with h | h
    · simp [h, truthy, Except.isOk, Except.toBool]
    · simp [h, truthy, hzero, Option.filter]
      rfl
  · rw [if_neg hempty]
    cases truthy f.function.join with
    | none => simp [Except.isOk, Except.toBool]
    | some signature =>
      show (functionToSighash p signature >>= fun sighash => pure _).isOk = true ↔ _
      rw [isOk_bind_ok]
      simp

theorem callFilterToQueryEntry_isOk (p : Platform) (limit : ℤ) (asked : ℕ → Bool)
    (name : String) (filter : Option EthereumTransactionFilter)
    (addresses : List (Option String)) :
    (callFilterToQueryEntry p limit filter addresses).isOk = true ↔
      unreadable p asked (.base (.call name filter), addresses) = false := by
  cases filter with
  | none => simp [callFilterToQueryEntry, unreadable, truthy, Except.isOk, Except.toBool]
  | some f =>
    rw [callFilterToQueryEntry, isOk_bind_ok, functionConditions_isOk]
    rfl

theorem callFilterToDictionaryCondition_isOk (p : Platform) (limit : ℤ) (asked : ℕ → Bool)
    (name : String) (filter : Option EthereumTransactionFilter)
    (addresses : List (Option String)) (availableFilters : Option (List String)) :
    (callFilterToDictionaryCondition p limit filter addresses availableFilters).isOk = true ↔
      unreadable p asked (.base (.call name filter), addresses) = false := by
  rw [callFilterToDictionaryCondition, isOk_bind_ok, funcArray, unreadable]
  cases truthy (filter.bind (·.function)).join with
  | none => simp [Except.isOk, Except.toBool]
  | some signature =>
    show (functionToSighash p signature >>= fun sighash => pure _).isOk = true ↔ _
    rw [isOk_bind_ok]
    simp

/-- A group that does not take part has no signature at all. -/
theorem unreadable_of_not_takesPart (p : Platform) (asked : ℕ → Bool)
    (group : SubqlHandler × List (Option String)) (h : takesPart group = false) :
    unreadable p asked group = false := by
  obtain ⟨handler, addresses⟩ := group
  cases handler with
  | custom kind name filter => rfl
  | base b =>
    cases b with
    | block name filter => rfl
    | call name filter =>
      cases filter with
      | none => rfl
      | some f =>
        have hnil : f.fields = [] := by
          have hboth := h
          simp only [takesPart, Option.any_some, Bool.or_eq_false_iff, Bool.not_eq_false',
            List.isEmpty_iff] at hboth
          exact hboth.1
        have hnone : f.function = none := by simp [EthereumTransactionFilter.function, hnil]
        simp [unreadable, hnone, truthy]
    | event name filter =>
      have hnil : filterTopics filter = [] := by
        have hboth := h
        simp only [takesPart, Bool.or_eq_false_iff, Bool.not_eq_false', List.isEmpty_iff] at hboth
        exact hboth.1
      rw [unreadable_event, hnil]
      intro i hi
      simp [topicUnreadable, truthy]

/-! ### Groups that refuse -/

/-- A group at which the V1 builder gives up: besides those of both builders, a Call or Event group
without a filter and without an address. -/
def refusesV1 (group : SubqlHandler × List (Option String)) : Bool :=
  refuses group ||
    match group.1 with
    | .base (.call _ _) | .base (.event _ _) => !takesPart group
    | _ => false

/-- A step followed by one that does not fail throws when the step does. -/
theorem error_of_bind_ok_iff {α β : Type} (x : Except JsError α) (f : α → β) :
    (∃ e, (x >>= fun a => .ok (f a)) = .error e) ↔ ¬ x.isOk = true := by
  cases x with
  | error e =>
    have herror : ((.error e : Except JsError α) >>= fun a => .ok (f a)) = .error e := rfl
    exact iff_of_true ⟨e, herror⟩ (by simp [Except.isOk, Except.toBool])
  | ok a =>
    have hok : ((.ok a : Except JsError α) >>= fun a => .ok (f a)) = .ok (f a) := rfl
    rw [hok]
    simp [Except.isOk, Except.toBool]

/-- A branch that contributes when it succeeds returns early only by not being taken. -/
theorem branch_eq_none_iff {α β : Type} (taken : Bool) (x : Except JsError α) (f : α → β)
    (otherwise : Option β) :
    (if taken = true then (x >>= fun a => .ok (some (f a))) else .ok otherwise) = .ok none ↔
      taken = false ∧ otherwise = none := by
  cases taken with
  | false => simp
  | true =>
    refine iff_of_false ?_ (by simp)
    intro h
    obtain ⟨a, -, ha⟩ := ok_of_bind_ok h
    exact absurd ha (by simp)

theorem refusesV1_iff (p : Platform) (limit : ℤ) (group : SubqlHandler × List (Option String)) :
    refusesV1 group = true ↔ groupQueryEntries p limit group = .ok none := by
  obtain ⟨handler, addresses⟩ := group
  rw [groupQueryEntries_eq, refusesV1]
  cases hrefuses : refuses (handler, addresses) with
  | true => simp
  | false =>
    simp only [Bool.false_or, Bool.false_eq_true, ↓reduceIte]
    cases handler with
    | custom kind name filter => simp
    | base b =>
      cases b with
      | block name filter => simp
      | call name filter =>
        rw [branch_eq_none_iff _ _ fun entry => [entry]]
        simp
      | event name filter =>
        rw [branch_eq_none_iff _ _ fun entry => [entry]]
        simp

theorem refuses_iff (p : Platform) (limit : ℤ) (availableFilters : Option V2MetadataFilters)
    (group : SubqlHandler × List (Option String)) :
    refuses group = true ↔ groupConditions p limit availableFilters group = .ok none := by
  obtain ⟨handler, addresses⟩ := group
  rw [groupConditions_eq]
  cases hrefuses : refuses (handler, addresses) with
  | true => simp
  | false =>
    simp only [Bool.false_eq_true, ↓reduceIte]
    cases handler with
    | custom kind name filter => simp
    | base b =>
      cases b with
      | block name filter => simp
      | call name filter =>
        rw [branch_eq_none_iff _ _ fun c => [DictionaryCondition.transaction c]]
        simp
      | event name filter =>
        rw [branch_eq_none_iff _ _ fun c => [DictionaryCondition.log c]]
        simp

/-- A group the V1 builder does not give up at makes it throw when it cannot be read. -/
theorem unreadableV1_iff (p : Platform) (limit : ℤ)
    (group : SubqlHandler × List (Option String)) (h : refusesV1 group = false) :
    unreadable p (fun _ => true) group = true ↔
      ∃ e, groupQueryEntries p limit group = .error e := by
  obtain ⟨handler, addresses⟩ := group
  rw [refusesV1, Bool.or_eq_false_iff] at h
  rw [groupQueryEntries_eq, h.1]
  cases handler with
  | custom kind name filter => simp [unreadable]
  | base b =>
    cases b with
    | block name filter => simp [unreadable]
    | call name filter =>
      have htakes : takesPart (.base (.call name filter), addresses) = true := by simpa using h.2
      simp only [htakes, Bool.false_eq_true, ↓reduceIte]
      rw [error_of_bind_ok_iff _ fun entry => some [entry],
        callFilterToQueryEntry_isOk p limit (fun _ => true) name, Bool.not_eq_false]
    | event name filter =>
      have htakes : takesPart (.base (.event name filter), addresses) = true := by simpa using h.2
      simp only [htakes, Bool.false_eq_true, ↓reduceIte]
      rw [error_of_bind_ok_iff _ fun entry => some [entry],
        eventFilterToQueryEntry_isOk p limit name, Bool.not_eq_false]

/-- Likewise for the V2 builder, with the positions it can filter by. -/
theorem unreadableV2_iff (p : Platform) (limit : ℤ)
    (availableFilters : Option V2MetadataFilters) (group : SubqlHandler × List (Option String))
    (h : refuses group = false) :
    unreadable p (fun i => available (availableFilters.bind (·.logs)) (topicField i)) group =
        true ↔ ∃ e, groupConditions p limit availableFilters group = .error e := by
  obtain ⟨handler, addresses⟩ := group
  cases htakes : takesPart (handler, addresses) with
  | false =>
    have hreadable := unreadable_of_not_takesPart p
      (fun i => available (availableFilters.bind (·.logs)) (topicField i)) _ htakes
    rw [hreadable, groupConditions_eq, h, htakes]
    cases handler with
    | custom kind name filter => simp
    | base b => cases b <;> simp
  | true =>
    rw [groupConditions_eq, h, htakes]
    cases handler with
    | custom kind name filter => simp [unreadable]
    | base b =>
      cases b with
      | block name filter => simp [unreadable]
      | call name filter =>
        simp only [Bool.false_eq_true, ↓reduceIte]
        rw [error_of_bind_ok_iff _ fun c => some [DictionaryCondition.transaction c],
          callFilterToDictionaryCondition_isOk p limit _ name, Bool.not_eq_false]
      | event name filter =>
        simp only [Bool.false_eq_true, ↓reduceIte]
        rw [error_of_bind_ok_iff _ fun c => some [DictionaryCondition.log c],
          eventFilterToDictionaryCondition_isOk p limit name, Bool.not_eq_false]

/-! ### Empty queries -/

theorem uniqBy_eq_nil (entries : List DictionaryQueryEntry) :
    uniqBy entryKey entries = [] ↔ entries = [] := by
  cases entries with
  | nil => exact iff_of_true rfl rfl
  | cons e rest => simp [uniqBy]

theorem buildV1_empty_iff (p : Platform) (limit : ℤ) (dataSources : List SubqlDatasource) :
    buildDictionaryV1QueryEntries p limit dataSources = .ok [] ↔
      collect (groupQueryEntries p limit) (groupedDataSources dataSources) = .ok none ∨
        collect (groupQueryEntries p limit) (groupedDataSources dataSources) = .ok (some []) := by
  rw [buildDictionaryV1QueryEntries]
  cases collect (groupQueryEntries p limit) (groupedDataSources dataSources) with
  | error e => simp [bind, Except.bind]
  | ok result =>
    cases result with
    | none => exact iff_of_true rfl (.inl rfl)
    | some entries =>
      show (Except.ok (uniqBy entryKey entries) : Except JsError _) = .ok [] ↔ _
      rw [Except.ok.injEq, uniqBy_eq_nil]
      simp

/-- A sanitised entry is empty when there was no condition. -/
theorem sanitised_empty_iff (conditions : List DictionaryCondition) :
    sanitiseDictionaryConditions conditions = {} ↔ conditions = [] := by
  have hsanitise : ∀ {α : Type} (toJson : α → JsonText.Json) (l : List α),
      sanitise toJson l = none ↔ l = [] := by
    intro α toJson l
    cases l <;> simp [sanitise]
  rw [sanitiseDictionaryConditions, EthDictionaryV2QueryEntry.mk.injEq, hsanitise, hsanitise]
  cases conditions with
  | nil => simp
  | cons c rest => cases c <;> simp [DictionaryCondition.log?, DictionaryCondition.transaction?]

theorem buildV2_empty_iff (p : Platform) (limit : ℤ) (dataSources : List SubqlDatasource)
    (availableFilters : Option V2MetadataFilters) :
    buildDictionaryV2QueryEntry p limit dataSources availableFilters = .ok {} ↔
      collect (groupConditions p limit availableFilters) (groupedDataSources dataSources) =
          .ok none ∨
        collect (groupConditions p limit availableFilters) (groupedDataSources dataSources) =
          .ok (some []) := by
  rw [buildDictionaryV2QueryEntry]
  cases collect (groupConditions p limit availableFilters) (groupedDataSources dataSources) with
  | error e => simp [bind, Except.bind]
  | ok result =>
    cases result with
    | none => exact iff_of_true rfl (.inl rfl)
    | some conditions =>
      show (Except.ok (sanitiseDictionaryConditions conditions) : Except JsError _) = .ok {} ↔ _
      rw [Except.ok.injEq, sanitised_empty_iff]
      simp

/-- A group that does not take part stops the builders or is passed over. -/
theorem quiet_of_not_takesPart (p : Platform) (limit : ℤ)
    (availableFilters : Option V2MetadataFilters) (group : SubqlHandler × List (Option String))
    (h : takesPart group = false) :
    (groupQueryEntries p limit group = .ok none ∨ groupQueryEntries p limit group = .ok (some [])) ∧
      (groupConditions p limit availableFilters group = .ok none ∨
        groupConditions p limit availableFilters group = .ok (some [])) := by
  obtain ⟨handler, addresses⟩ := group
  rw [groupQueryEntries_eq, groupConditions_eq, h]
  cases refuses (handler, addresses) with
  | true => simp
  | false =>
    cases handler with
    | custom kind name filter => simp
    | base b => cases b <;> simp

/-- A group that takes part contributes when it is passed over. -/
theorem contributes_of_takesPart (p : Platform) (limit : ℤ)
    (availableFilters : Option V2MetadataFilters) (group : SubqlHandler × List (Option String))
    (h : takesPart group = true) :
    groupQueryEntries p limit group ≠ .ok (some []) ∧
      groupConditions p limit availableFilters group ≠ .ok (some []) := by
  obtain ⟨handler, addresses⟩ := group
  constructor
  · intro hnothing
    have hnone := groupQueryEntries_cases p limit handler addresses [] hnothing
    rcases hnone with ⟨hcall, hevent, -⟩ | ⟨_, _, _, -, -, hcontra⟩ | ⟨_, _, _, -, -, hcontra⟩
    · cases handler with
      | custom kind name filter => exact absurd h (by simp [takesPart])
      | base b =>
        cases b with
        | block name filter => exact absurd h (by simp [takesPart])
        | call name filter => exact hcall name filter rfl
        | event name filter => exact hevent name filter rfl
    · exact absurd hcontra (by simp)
    · exact absurd hcontra (by simp)
  · intro hnothing
    have hnone := groupConditions_cases p limit availableFilters handler addresses [] hnothing
    rcases hnone with ⟨hnot, -⟩ | ⟨-, _, _, _, -, -, hcontra⟩ | ⟨-, _, _, _, -, -, hcontra⟩
    · rw [h] at hnot
      exact absurd hnot (by simp)
    · exact absurd hcontra (by simp)
    · exact absurd hcontra (by simp)

/-- A loop that completes with nothing has passed over every element. -/
theorem nothing_of_collect {α β : Type} (f : α → Except JsError (Option (List β))) (l : List α)
    (h : collect f l = .ok (some [])) : ∀ x ∈ l, f x = .ok (some []) := by
  intro x hx
  obtain ⟨ys, hys, hin⟩ := collect_mem f l [] h x hx
  have hnil : ys = [] := by
    rw [List.eq_nil_iff_forall_not_mem]
    intro y hy
    exact List.not_mem_nil (hin y hy)
  rw [hys, hnil]

/-- **When both queries are empty.**  Handlers of a custom kind do not enter into it: either no
Call or Event group takes part, or both builders come to a group that refuses before one they
cannot read. -/
theorem queries_empty_iff (p : Platform) (limit : ℤ) (dataSources : List SubqlDatasource)
    (availableFilters : Option V2MetadataFilters) :
    (buildDictionaryV1QueryEntries p limit dataSources = .ok [] ∧
      buildDictionaryV2QueryEntry p limit dataSources availableFilters = .ok {}) ↔
      (∀ group ∈ groupedDataSources dataSources, takesPart group = false) ∨
        (givesUp refusesV1 (unreadable p fun _ => true) (groupedDataSources dataSources) = true ∧
          givesUp refuses
            (unreadable p fun i => available (availableFilters.bind (·.logs)) (topicField i))
            (groupedDataSources dataSources) = true) := by
  rw [buildV1_empty_iff, buildV2_empty_iff,
    collect_none_iff (groupQueryEntries p limit) refusesV1 (unreadable p fun _ => true) _
      (refusesV1_iff p limit) (unreadableV1_iff p limit),
    collect_none_iff (groupConditions p limit availableFilters) refuses
      (unreadable p fun i => available (availableFilters.bind (·.logs)) (topicField i)) _
      (refuses_iff p limit availableFilters) (unreadableV2_iff p limit availableFilters)]
  by_cases hquiet : ∀ group ∈ groupedDataSources dataSources, takesPart group = false
  · -- nothing takes part: both loops stop or complete with nothing
    have hV1 := collect_quiet (groupQueryEntries p limit) (groupedDataSources dataSources)
      fun group hg => (quiet_of_not_takesPart p limit availableFilters group (hquiet group hg)).1
    have hV2 := collect_quiet (groupConditions p limit availableFilters)
      (groupedDataSources dataSources)
      fun group hg => (quiet_of_not_takesPart p limit availableFilters group (hquiet group hg)).2
    rw [collect_none_iff _ refusesV1 (unreadable p fun _ => true) _ (refusesV1_iff p limit)
      (unreadableV1_iff p limit)] at hV1
    rw [collect_none_iff _ refuses
      (unreadable p fun i => available (availableFilters.bind (·.logs)) (topicField i)) _
      (refuses_iff p limit availableFilters) (unreadableV2_iff p limit availableFilters)] at hV2
    exact iff_of_true ⟨hV1, hV2⟩ (.inl hquiet)
  · -- some group takes part, so neither loop completes with nothing
    have hsome : ∃ group ∈ groupedDataSources dataSources, takesPart group = true := by
      by_contra hnone
      apply hquiet
      intro group hg
      rw [← Bool.not_eq_true]
      intro htakes
      exact hnone ⟨group, hg, htakes⟩
    obtain ⟨group, hg, htakes⟩ := hsome
    have hcontributes := contributes_of_takesPart p limit availableFilters group htakes
    have hV1 : collect (groupQueryEntries p limit) (groupedDataSources dataSources) ≠
        .ok (some []) := fun h => hcontributes.1 (nothing_of_collect _ _ h group hg)
    have hV2 : collect (groupConditions p limit availableFilters)
        (groupedDataSources dataSources) ≠ .ok (some []) := fun h =>
      hcontributes.2 (nothing_of_collect _ _ h group hg)
    simp only [hV1, hV2, hquiet, or_false, false_or]

/-- A data source of a custom kind with a handler of a custom kind. -/
def customDs : SubqlCustomDatasource where
  kind := "ethereum/FlareBridge"
  handlers := [.custom ⟨"ethereum/BridgeEvent", by intro kind; cases kind <;> decide⟩
    "handleBridge" none]

/-- **A custom handler does not keep the dictionary from being used**: next to the transfers both
queries ask for the transfers only. -/
theorem custom_handler_passed_over :
    (∃ entry, buildDictionaryV1QueryEntries erc20Platform 100
      [.runtime transferDs, .custom customDs] = .ok [entry]) ∧
    buildDictionaryV2QueryEntry erc20Platform 100 [.runtime transferDs, .custom customDs] none =
      .ok transfersOnlyEntry ∧
    ¬ (buildDictionaryV1QueryEntries erc20Platform 100
        [.runtime transferDs, .custom customDs] = .ok [] ∧
      buildDictionaryV2QueryEntry erc20Platform 100
        [.runtime transferDs, .custom customDs] none = .ok {}) := by
  have hrun : buildDictionaryV2QueryEntry erc20Platform 100
      [.runtime transferDs, .custom customDs] none = .ok transfersOnlyEntry := rfl
  refine ⟨⟨_, rfl⟩, hrun, ?_⟩
  intro h
  rw [hrun] at h
  exact absurd (Except.ok.inj h.2) (by decide)

end SubqlEthereum.UnusableQueries
