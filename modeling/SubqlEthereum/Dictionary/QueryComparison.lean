import SubqlEthereum.Dictionary.LogCoverageV2
import SubqlEthereum.Dictionary.TopicLoops

/-!
# The two queries compared

A node takes the V1 or the V2 query, whichever its dictionary speaks.  The V1 builder gives up
whenever the V2 builder does, and throws whenever the V2 builder does
(`groupConditions_of_groupQueryEntries`), so a V1 query that can be used has a V2 query next to
it.  Group by group the V2 condition then lets through every log the V1 entry matches.
-/

namespace SubqlEthereum.QueryComparison

open SubqlEthereum.External SubqlEthereum.Project SubqlEthereum.Strings SubqlEthereum.Blocks
open SubqlEthereum.Fallible SubqlEthereum.Positions
open SubqlEthereum.Dictionary SubqlEthereum.DictionaryV2

/-! ### One group in the two builders -/

/-- A group at which both builders give up. -/
def refuses (group : SubqlHandler × List (Option String)) : Bool :=
  (lacksFilter group.1 && group.2.isEmpty) ||
    match group.1 with
    | .base (.block _ filter) => (filter.bind (·.modulo)).isNone
    | _ => false

/-- **One group of the V1 query.** -/
theorem groupQueryEntries_eq (p : Platform) (limit : ℤ) (handler : SubqlHandler)
    (addresses : List (Option String)) :
    groupQueryEntries p limit (handler, addresses) =
      if refuses (handler, addresses) then .ok none
      else
        match handler with
        | .base (.call _ filter) =>
          if takesPart (handler, addresses) then
            callFilterToQueryEntry p limit filter addresses >>= fun entry => .ok (some [entry])
          else .ok none
        | .base (.event _ filter) =>
          if takesPart (handler, addresses) then
            eventFilterToQueryEntry p limit filter addresses >>= fun entry => .ok (some [entry])
          else .ok none
        | _ => .ok (some []) := by
  unfold groupQueryEntries refuses
  cases hg : lacksFilter handler && addresses.isEmpty with
  | true => simp [hg]
  | false =>
    cases handler with
    | custom kind name filter => simp [hg]
    | base b =>
      cases b with
      | block name filter => simp [hg]
      | call name filter =>
        have htakes : takesPart (.base (.call name filter), addresses) =
            !(filter.all (·.fields.isEmpty) && (validAddresses addresses).isEmpty) := by
          cases filter <;> simp [takesPart]
        simp only [hg, htakes, Bool.false_eq_true, ↓reduceIte, Bool.or_self]
        cases filter.all (·.fields.isEmpty) && (validAddresses addresses).isEmpty <;> rfl
      | event name filter =>
        have htakes : takesPart (.base (.event name filter), addresses) =
            !((filterTopics filter).isEmpty && (validAddresses addresses).isEmpty) := by
          simp [takesPart]
        simp only [hg, htakes, Bool.false_eq_true, ↓reduceIte, Bool.or_self]
        cases (filterTopics filter).isEmpty && (validAddresses addresses).isEmpty <;> rfl

/-- **One group of the V2 query**: a group without filters is left out instead. -/
theorem groupConditions_eq (p : Platform) (limit : ℤ)
    (availableFilters : Option V2MetadataFilters) (handler : SubqlHandler)
    (addresses : List (Option String)) :
    groupConditions p limit availableFilters (handler, addresses) =
      if refuses (handler, addresses) then .ok none
      else
        match handler with
        | .base (.call _ filter) =>
          if takesPart (handler, addresses) then
            callFilterToDictionaryCondition p limit filter addresses
              (availableFilters.bind (·.transactions)) >>= fun c => .ok (some [.transaction c])
          else .ok (some [])
        | .base (.event _ filter) =>
          if takesPart (handler, addresses) then
            eventFilterToDictionaryCondition p limit filter addresses
              (availableFilters.bind (·.logs)) >>= fun c => .ok (some [.log c])
          else .ok (some [])
        | _ => .ok (some []) := by
  unfold groupConditions refuses
  cases hg : lacksFilter handler && addresses.isEmpty with
  | true => simp [hg]
  | false =>
    cases handler with
    | custom kind name filter => simp [hg]
    | base b =>
      cases b with
      | block name filter => simp [hg]
      | call name filter =>
        simp only [hg, Bool.false_eq_true, ↓reduceIte, Bool.or_self]
        rfl
      | event name filter =>
        simp only [hg, Bool.false_eq_true, ↓reduceIte, Bool.or_self]
        rfl
/-! ### What the V1 builder can build, the V2 builder can -/

/-- V2 looks up no topic that V1 does not. -/
theorem topicFields_ok (p : Platform) (availableFilters : Option (List String))
    (topics : List (Option String)) (i : ℕ) (conditions : List DictionaryQueryCondition)
    (h : topicConditions p i topics = .ok conditions) :
    ∃ fields, topicFields p availableFilters i topics = .ok fields := by
  rw [topicConditions_eq] at h
  have hall := (atPositions_isOk topics i).mp ((isOk_iff _).mpr ⟨conditions, h⟩)
  rw [topicFields_eq, ← isOk_iff, atPositions_isOk]
  intro j topic htopic
  rw [topicFieldAt, topicPut_isOk_iff]
  intro _
  exact (topicPut_isOk_iff (i + j) topic).mp (hall j topic htopic) rfl

theorem eventFilterToDictionaryCondition_ok (p : Platform) (limit : ℤ)
    (filter : Option EthereumLogFilter) (addresses : List (Option String))
    (availableFilters : Option (List String)) (entry : DictionaryQueryEntry)
    (h : eventFilterToQueryEntry p limit filter addresses = .ok entry) :
    ∃ c, eventFilterToDictionaryCondition p limit filter addresses availableFilters = .ok c := by
  rw [eventFilterToQueryEntry] at h
  obtain ⟨conditions, ht, -⟩ := ok_of_bind_ok h
  obtain ⟨fields, hfields⟩ := topicFields_ok p availableFilters _ 0 conditions ht
  rw [eventFilterToDictionaryCondition, hfields]
  exact ⟨_, rfl⟩

/-- The empty selector `0x` is a hex string, which V2 takes as it is. -/
theorem funcArray_ok (p : Platform) (f : EthereumTransactionFilter)
    (conditions : List DictionaryQueryCondition) (h : functionConditions p f = .ok conditions) :
    ∃ data, funcArray p (some f) = .ok data := by
  rw [funcArray, Option.bind_some]
  cases ht : truthy f.function.join with
  | none => exact ⟨[], rfl⟩
  | some signature =>
    rw [functionConditions] at h
    by_cases hempty : f.function = some none ∨ f.function = some (some "0x")
    · have hsignature : signature = "0x" := by
        have hjoin := ((truthy_eq_some _ _).mp ht).1
        rcases hempty with hnull | hzero
        · rw [hnull] at hjoin
          exact absurd hjoin (by simp)
        · rw [hzero] at hjoin
          exact (Option.some.inj hjoin).symm
      rw [hsignature]
      refine ⟨[some "0x"], ?_⟩
      simp only [functionToSighash_hex p "0x" (by decide)]
      rfl
    · rw [if_neg hempty, ht] at h
      obtain ⟨sighash, hs, -⟩ := ok_of_bind_ok h
      exact ⟨[some sighash], by simp [hs, bind, Except.bind, pure, Except.pure]⟩

theorem callFilterToDictionaryCondition_ok (p : Platform) (limit : ℤ)
    (filter : Option EthereumTransactionFilter) (addresses : List (Option String))
    (availableFilters : Option (List String)) (entry : DictionaryQueryEntry)
    (h : callFilterToQueryEntry p limit filter addresses = .ok entry) :
    ∃ c, callFilterToDictionaryCondition p limit filter addresses availableFilters = .ok c := by
  rw [callFilterToDictionaryCondition]
  cases filter with
  | none => exact ⟨_, rfl⟩
  | some f =>
    rw [callFilterToQueryEntry] at h
    obtain ⟨functionPart, hf, -⟩ := ok_of_bind_ok h
    obtain ⟨data, hdata⟩ := funcArray_ok p f functionPart hf
    rw [hdata]
    exact ⟨_, rfl⟩

/-- **A group the V1 builder gets past, the V2 builder gets past.** -/
theorem groupConditions_of_groupQueryEntries (p : Platform) (limit : ℤ)
    (availableFilters : Option V2MetadataFilters) (group : SubqlHandler × List (Option String))
    (out : List DictionaryQueryEntry) (h : groupQueryEntries p limit group = .ok (some out)) :
    ∃ out', groupConditions p limit availableFilters group = .ok (some out') := by
  obtain ⟨handler, addresses⟩ := group
  rw [groupQueryEntries_eq] at h
  rw [groupConditions_eq]
  by_cases hrefuses : refuses (handler, addresses) = true
  · rw [if_pos hrefuses] at h
    exact absurd h (by simp)
  · rw [if_neg hrefuses] at h ⊢
    by_cases htakes : takesPart (handler, addresses) = true
    · simp only [htakes, ↓reduceIte] at h ⊢
      cases handler with
      | custom kind name filter => exact ⟨[], rfl⟩
      | base b =>
        cases b with
        | block name filter => exact ⟨[], rfl⟩
        | call name filter =>
          obtain ⟨entry, he, -⟩ := ok_of_bind_ok h
          obtain ⟨c, hc⟩ := callFilterToDictionaryCondition_ok p limit filter addresses
            (availableFilters.bind (·.transactions)) entry he
          exact ⟨[.transaction c], by simp only [hc]; rfl⟩
        | event name filter =>
          obtain ⟨entry, he, -⟩ := ok_of_bind_ok h
          obtain ⟨c, hc⟩ := eventFilterToDictionaryCondition_ok p limit filter addresses
            (availableFilters.bind (·.logs)) entry he
          exact ⟨[.log c], by simp only [hc]; rfl⟩
    · simp only [htakes] at h ⊢
      cases handler with
      | custom kind name filter => exact ⟨[], rfl⟩
      | base b => cases b <;> exact ⟨[], rfl⟩

/-! ### The logs of the two queries -/

/-- An entry on logs is the entry of an Event group that takes part. -/
theorem entry_of_event_group (p : Platform) (limit : ℤ)
    (group : SubqlHandler × List (Option String)) (out : List DictionaryQueryEntry)
    (h : groupQueryEntries p limit group = .ok (some out)) (entry : DictionaryQueryEntry)
    (hentry : entry ∈ out) (hentity : entry.entity = .evmLogs) :
    ∃ name filter, group.1 = .base (.event name filter) ∧ takesPart group = true ∧
      eventFilterToQueryEntry p limit filter group.2 = .ok entry := by
  obtain ⟨handler, addresses⟩ := group
  rcases groupQueryEntries_cases p limit handler addresses out h with
    ⟨-, -, hnil⟩ | ⟨name, filter, e, rfl, he, hone⟩ | ⟨name, filter, e, rfl, he, hone⟩
  · rw [hnil] at hentry
    exact absurd hentry List.not_mem_nil
  · -- the entry of a Call group is on transactions
    have htransactions : e.entity = .evmTransactions := by
      cases filter with
      | none => rw [← Except.ok.inj he]
      | some f =>
        rw [callFilterToQueryEntry] at he
        obtain ⟨functionPart, -, he⟩ := ok_of_bind_ok he
        rw [← Except.ok.inj he]
    rw [hone, List.mem_singleton] at hentry
    rw [hentry, htransactions] at hentity
    exact absurd hentity (by simp)
  · rw [hone, List.mem_singleton] at hentry
    refine ⟨name, filter, rfl, ?_, by rw [hentry]; exact he⟩
    rw [groupQueryEntries_eq] at h
    by_contra htakes
    simp only [htakes] at h
    split at h <;> exact absurd h (by simp)

/-- **V2 log queries are never narrower than V1's.**  Whatever the data sources and whatever the V2
dictionary can filter by: when the V1 query can be used, the V2 query is built, and every log that
an entry of the one matches is matched by a condition of the other. -/
theorem buildDictionaryV2_logs_cover_V1 (p : Platform) (limit : ℤ)
    (dataSources : List SubqlDatasource) (availableFilters : Option V2MetadataFilters)
    (entries : List DictionaryQueryEntry)
    (hbuild : buildDictionaryV1QueryEntries p limit dataSources = .ok entries)
    (hne : entries ≠ []) :
    ∃ entry, buildDictionaryV2QueryEntry p limit dataSources availableFilters = .ok entry ∧
      ∀ log, (∃ e ∈ entries, e.entity = .evmLogs ∧ e.matchesLog p log = true) →
        ∃ c ∈ entry.logs.getD [], c.matchesLog p log = true := by
  have hgroups : ∀ group ∈ groupedDataSources dataSources, ∃ out,
      groupConditions p limit availableFilters group = .ok (some out) := by
    intro group hg
    obtain ⟨out, hout, -⟩ := buildV1_group p limit dataSources entries hbuild hne group hg
    exact groupConditions_of_groupQueryEntries p limit availableFilters group out hout
  obtain ⟨entry, hentry, hlogs⟩ := buildV2_of_groups p limit dataSources availableFilters hgroups
  refine ⟨entry, hentry, ?_⟩
  rintro log ⟨e, he, hentity, hmatch⟩
  obtain ⟨group, hg, out, hout, hin⟩ := buildV1_origin p limit dataSources entries hbuild e he
  obtain ⟨handler, addresses⟩ := group
  obtain ⟨name, filter, rfl, htakes, hevent⟩ :=
    entry_of_event_group p limit _ out hout e hin hentity
  obtain ⟨c, hc⟩ := eventFilterToDictionaryCondition_ok p limit filter addresses
    (availableFilters.bind (·.logs)) e hevent
  have hlets := (eventFilterToQueryEntry_matchesLog p limit filter addresses e hevent log).mp hmatch
  refine ⟨c, ?_, eventFilterToDictionaryCondition_lets p limit filter addresses _ c hc log
    hlets.1 hlets.2⟩
  -- the condition is what the group contributes to the V2 query
  obtain ⟨out', hout'⟩ := hgroups _ hg
  rw [hlogs]
  exact ⟨_, hg, out', hout', (log_mem_iff hout' c).mpr ⟨name, filter, rfl, htakes, hc⟩⟩

/-- The transfers in both queries. -/
theorem buildDictionaryV2_logs_cover_V1_transfers :
    ∃ entries, buildDictionaryV1QueryEntries erc20Platform 100
        (runtimeDataSources [transferDs]) = .ok entries ∧
      ∃ entry, buildDictionaryV2QueryEntry erc20Platform 100 (runtimeDataSources [transferDs])
          none = .ok entry ∧
        ∀ log, (∃ e ∈ entries, e.entity = .evmLogs ∧ e.matchesLog erc20Platform log = true) →
          ∃ c ∈ entry.logs.getD [], c.matchesLog erc20Platform log = true :=
  ⟨_, rfl, buildDictionaryV2_logs_cover_V1 erc20Platform 100 (runtimeDataSources [transferDs])
    none _ rfl (List.cons_ne_nil _ _)⟩

end SubqlEthereum.QueryComparison
