import SubqlEthereum.Dictionary.GroupOrder
import SubqlEthereum.Dictionary.UnusableQueries

/-!
# Queries and the order of the data sources

However the data sources are arranged, the queries match the same logs and transactions.  Only which
group ends a build first depends on the order: a group that refuses ends it with an empty query, and
a signature that cannot be parsed with an error (`queries_rearranged`).
-/

namespace SubqlEthereum.QueryOrder

open SubqlEthereum.External SubqlEthereum.Project SubqlEthereum.Strings SubqlEthereum.Blocks
open SubqlEthereum.Fallible SubqlEthereum.Dictionary SubqlEthereum.DictionaryV2
open SubqlEthereum.Grouping (uniqBy mem_of_mem_uniqBy exists_mem_uniqBy)
open SubqlEthereum.UnusableQueries
open SubqlEthereum.QueryComparison (refuses)
open SubqlEthereum.TransactionCoverage (matchesV1 matchesV2)

/-! ### Whole queries -/

/-- Queries that match the same logs and the same transactions. -/
def SameMatchesV1 (p : Platform) (entries entries' : List DictionaryQueryEntry) : Prop :=
  (∀ log, (∃ e ∈ entries, e.matchesLog p log = true) ↔
      ∃ e ∈ entries', e.matchesLog p log = true) ∧
    ∀ tx, (∃ e ∈ entries, matchesV1 p tx e = true) ↔ ∃ e ∈ entries', matchesV1 p tx e = true

def SameMatchesV2 (p : Platform) (entry entry' : EthDictionaryV2QueryEntry) : Prop :=
  (∀ log, (∃ c ∈ entry.logs.getD [], c.matchesLog p log = true) ↔
      ∃ c ∈ entry'.logs.getD [], c.matchesLog p log = true) ∧
    ∀ tx, (∃ c ∈ entry.transactions.getD [], matchesV2 p tx c = true) ↔
      ∃ c ∈ entry'.transactions.getD [], matchesV2 p tx c = true

/-- A test that entries of one key pass alike is not affected by making the entries unique. -/
theorem exists_uniqBy_iff (f : DictionaryQueryEntry → Bool)
    (hf : ∀ e e', e.entity = e'.entity → e.conditions.Perm e'.conditions → f e = f e')
    (entries : List DictionaryQueryEntry) :
    (∃ e ∈ uniqBy entryKey entries, f e = true) ↔ ∃ e ∈ entries, f e = true := by
  constructor
  · intro h
    obtain ⟨e, he, hpass⟩ := h
    exact ⟨e, mem_of_mem_uniqBy _ _ e he, hpass⟩
  · intro h
    obtain ⟨e, he, hpass⟩ := h
    obtain ⟨kept, hkept, hkey⟩ := exists_mem_uniqBy entryKey entries e he
    obtain ⟨hentity, hconditions⟩ := entryKey_eq kept e hkey
    exact ⟨kept, hkept, by rw [hf kept e hentity hconditions, hpass]⟩

theorem exists_matchesLog_uniqBy (p : Platform) (log : EthereumLog)
    (entries : List DictionaryQueryEntry) :
    (∃ e ∈ uniqBy entryKey entries, e.matchesLog p log = true) ↔
      ∃ e ∈ entries, e.matchesLog p log = true := by
  refine exists_uniqBy_iff _ ?_ entries
  intro e e' hentity hconditions
  rw [DictionaryQueryEntry.matchesLog, DictionaryQueryEntry.matchesLog, hentity,
    hconditions.all_eq]

theorem exists_matchesV1_uniqBy (p : Platform) (tx : EthereumTransaction)
    (entries : List DictionaryQueryEntry) :
    (∃ e ∈ uniqBy entryKey entries, matchesV1 p tx e = true) ↔
      ∃ e ∈ entries, matchesV1 p tx e = true := by
  refine exists_uniqBy_iff _ ?_ entries
  intro e e' hentity hconditions
  rw [matchesV1, matchesV1, hentity, hconditions.all_eq]

/-- **A V1 query that can be used** is built from the same handlers in any arrangement, and matches
the same. -/
theorem buildV1_rearranged (p : Platform) (limit : ℤ) {xs ys : List SubqlRuntimeDatasource}
    (h : SameHandlers xs ys) (entries : List DictionaryQueryEntry)
    (hbuild : buildDictionaryV1QueryEntries p limit (runtimeDataSources xs) = .ok entries)
    (hne : entries ≠ []) :
    ∃ entries', buildDictionaryV1QueryEntries p limit (runtimeDataSources ys) = .ok entries' ∧
      entries' ≠ [] ∧ SameMatchesV1 p entries entries' := by
  obtain ⟨found, hfound, rfl⟩ := buildV1_collected p limit _ entries hbuild hne
  obtain ⟨found', hfound', hforth, hback⟩ := collect_rearranged _
    (fun _ _ hsame => groupQueryEntries_same p limit hsame) h found hfound
  refine ⟨uniqBy entryKey found', ?_, ?_, ?_, ?_⟩
  · rw [buildDictionaryV1QueryEntries, hfound']
    rfl
  · rw [Ne, uniqBy_eq_nil] at hne ⊢
    obtain ⟨e, he⟩ := List.exists_mem_of_ne_nil found hne
    obtain ⟨e', he', -⟩ := hforth e he
    exact List.ne_nil_of_mem he'
  · intro log
    rw [exists_matchesLog_uniqBy, exists_matchesLog_uniqBy]
    exact exists_iff_of_corresponding hforth hback fun _ _ hsame => hsame.matchesLog_eq p log
  · intro tx
    rw [exists_matchesV1_uniqBy, exists_matchesV1_uniqBy]
    exact exists_iff_of_corresponding hforth hback fun _ _ hsame => hsame.matchesV1_eq p tx

theorem exists_log_sanitised (p : Platform) (log : EthereumLog)
    (conditions : List DictionaryCondition) :
    (∃ c ∈ (sanitiseDictionaryConditions conditions).logs.getD [], c.matchesLog p log = true) ↔
      ∃ c ∈ conditions, conditionMatchesLog p log c = true := by
  simp only [(mem_sanitised conditions).1]
  constructor
  · intro h
    obtain ⟨c, hc, hmatch⟩ := h
    exact ⟨.log c, hc, hmatch⟩
  · intro h
    obtain ⟨c, hc, hmatch⟩ := h
    cases c with
    | log c => exact ⟨c, hc, hmatch⟩
    | transaction c => exact absurd hmatch (by simp [conditionMatchesLog])

theorem exists_transaction_sanitised (p : Platform) (tx : EthereumTransaction)
    (conditions : List DictionaryCondition) :
    (∃ c ∈ (sanitiseDictionaryConditions conditions).transactions.getD [],
      matchesV2 p tx c = true) ↔ ∃ c ∈ conditions, conditionMatchesTransaction p tx c = true := by
  simp only [(mem_sanitised conditions).2]
  constructor
  · intro h
    obtain ⟨c, hc, hmatch⟩ := h
    exact ⟨.transaction c, hc, hmatch⟩
  · intro h
    obtain ⟨c, hc, hmatch⟩ := h
    cases c with
    | log c => exact absurd hmatch (by simp [conditionMatchesTransaction])
    | transaction c => exact ⟨c, hc, hmatch⟩

/-- Likewise for the V2 query. -/
theorem buildV2_rearranged (p : Platform) (limit : ℤ)
    (availableFilters : Option V2MetadataFilters) {xs ys : List SubqlRuntimeDatasource}
    (h : SameHandlers xs ys) (entry : EthDictionaryV2QueryEntry)
    (hbuild : buildDictionaryV2QueryEntry p limit (runtimeDataSources xs) availableFilters =
      .ok entry) (hne : entry ≠ {}) :
    ∃ entry', buildDictionaryV2QueryEntry p limit (runtimeDataSources ys) availableFilters =
      .ok entry' ∧ entry' ≠ {} ∧ SameMatchesV2 p entry entry' := by
  rw [buildDictionaryV2QueryEntry] at hbuild
  obtain ⟨result, hfound, hresult⟩ := ok_of_bind_ok hbuild
  cases result with
  | none => exact absurd (Except.ok.inj hresult).symm hne
  | some found =>
    obtain rfl : sanitiseDictionaryConditions found = entry := Except.ok.inj hresult
    obtain ⟨found', hfound', hforth, hback⟩ := collect_rearranged _
      (fun _ _ hsame => groupConditions_same p limit availableFilters hsame) h found hfound
    refine ⟨sanitiseDictionaryConditions found', ?_, ?_, ?_, ?_⟩
    · rw [buildDictionaryV2QueryEntry, hfound']
      rfl
    · rw [Ne, sanitised_empty_iff] at hne ⊢
      obtain ⟨c, hc⟩ := List.exists_mem_of_ne_nil found hne
      obtain ⟨c', hc', -⟩ := hforth c hc
      exact List.ne_nil_of_mem hc'
    · intro log
      rw [exists_log_sanitised, exists_log_sanitised]
      exact exists_iff_of_corresponding hforth hback fun _ _ hsame =>
        hsame.matchesLog_eq p log
    · intro tx
      rw [exists_transaction_sanitised, exists_transaction_sanitised]
      exact exists_iff_of_corresponding hforth hback fun _ _ hsame =>
        hsame.matchesTransaction_eq p tx

/-! ### When the builders return -/

/-- The handlers whose signatures can all be parsed. -/
def readable (p : Platform) (handler : SubqlRuntimeHandler) : Bool :=
  !unreadable p (fun _ => true) (.base handler, [])

/-- Then the group can be read by both builders. -/
theorem unreadable_of_readable (p : Platform) (asked : ℕ → Bool) (handler : SubqlRuntimeHandler)
    (addresses : List (Option String)) (h : readable p handler = true) :
    unreadable p asked (.base handler, addresses) = false := by
  rw [readable, Bool.not_eq_true'] at h
  cases handler with
  | block name filter => rfl
  | call name filter => exact h
  | event name filter =>
    rw [unreadable_event] at h ⊢
    intro i hi
    have htopic := h i hi
    rw [Bool.true_and] at htopic
    rw [htopic, Bool.and_false]

/-- **The builders return** when every signature can be parsed. -/
theorem builders_return (p : Platform) (limit : ℤ) (availableFilters : Option V2MetadataFilters)
    (dataSources : List SubqlRuntimeDatasource)
    (h : ∀ ds ∈ dataSources, ∀ handler ∈ ds.handlers, readable p handler = true) :
    (∃ entries,
      buildDictionaryV1QueryEntries p limit (runtimeDataSources dataSources) = .ok entries) ∧
      ∃ entry, buildDictionaryV2QueryEntry p limit (runtimeDataSources dataSources)
        availableFilters = .ok entry := by
  have hread : ∀ asked, ∀ group ∈ groupedDataSources (runtimeDataSources dataSources),
      unreadable p asked group = false := by
    rintro asked ⟨handler, addresses⟩ hg
    obtain ⟨ds, hds, b, hb, rfl, -⟩ := runtime_group_source dataSources _ hg
    exact unreadable_of_readable p asked b addresses (h ds hds b hb)
  constructor
  · obtain ⟨result, hresult⟩ := collect_isOk_of_test _ refusesV1 (unreadable p fun _ => true) _
      (refusesV1_iff p limit) (unreadableV1_iff p limit) (hread _)
    rw [buildDictionaryV1QueryEntries, hresult]
    cases result with
    | none => exact ⟨_, rfl⟩
    | some entries => exact ⟨_, rfl⟩
  · obtain ⟨result, hresult⟩ := collect_isOk_of_test _ refuses _ _
      (refuses_iff p limit availableFilters) (unreadableV2_iff p limit availableFilters) (hread _)
    rw [buildDictionaryV2QueryEntry, hresult]
    cases result with
    | none => exact ⟨_, rfl⟩
    | some conditions => exact ⟨_, rfl⟩

/-! ### Any arrangement -/

/-- Two builds that agree: when both return, both queries are empty or neither is, and they match
the same; and where one returns a query that can be used, so does the other. -/
structure Agree {α : Type} (empty : α) (Same : α → α → Prop) (first second : Except JsError α) :
    Prop where
  both : ∀ q q', first = .ok q → second = .ok q' → (q = empty ↔ q' = empty) ∧ Same q q'
  forth : ∀ q, first = .ok q → q ≠ empty → ∃ q', second = .ok q'
  back : ∀ q', second = .ok q' → q' ≠ empty → ∃ q, first = .ok q

theorem Agree.of_rearranged {α : Type} {empty : α} {Same : α → α → Prop}
    {first second : Except JsError α} (hempty : Same empty empty)
    (hforth : ∀ q, first = .ok q → q ≠ empty → ∃ q', second = .ok q' ∧ q' ≠ empty ∧ Same q q')
    (hback : ∀ q', second = .ok q' → q' ≠ empty → ∃ q, first = .ok q ∧ q ≠ empty ∧ Same q' q) :
    Agree empty Same first second where
  both := by
    intro q q' hq hq'
    by_cases hne : q = empty
    · have hne' : q' = empty := by
        by_contra hcontra
        obtain ⟨r, hr, hrne, -⟩ := hback q' hq' hcontra
        rw [hq] at hr
        exact hrne (Except.ok.inj hr ▸ hne)
      rw [hne, hne']
      exact ⟨Iff.rfl, hempty⟩
    · obtain ⟨r, hr, hrne, hsame⟩ := hforth q hq hne
      rw [hq'] at hr
      obtain rfl : q' = r := Except.ok.inj hr
      exact ⟨iff_of_false hne hrne, hsame⟩
  forth := by
    intro q hq hne
    obtain ⟨q', hq', -⟩ := hforth q hq hne
    exact ⟨q', hq'⟩
  back := by
    intro q' hq' hne
    obtain ⟨q, hq, -⟩ := hback q' hq' hne
    exact ⟨q, hq⟩

/-- **Queries do not depend on the arrangement of the data sources.**  With the data sources or
their handlers in another order, or some of them repeated, the builds agree; and when every
signature can be parsed, they all return. -/
theorem queries_rearranged (p : Platform) (limit : ℤ)
    (availableFilters : Option V2MetadataFilters) (xs ys : List SubqlRuntimeDatasource)
    (h : Rearranged xs ys) :
    Agree [] (SameMatchesV1 p) (buildDictionaryV1QueryEntries p limit (runtimeDataSources xs))
        (buildDictionaryV1QueryEntries p limit (runtimeDataSources ys)) ∧
      Agree {} (SameMatchesV2 p)
        (buildDictionaryV2QueryEntry p limit (runtimeDataSources xs) availableFilters)
        (buildDictionaryV2QueryEntry p limit (runtimeDataSources ys) availableFilters) ∧
      ((∀ ds ∈ xs, ∀ handler ∈ ds.handlers, readable p handler = true) →
        ∀ dataSources ∈ [xs, ys],
          (∃ entries, buildDictionaryV1QueryEntries p limit (runtimeDataSources dataSources) =
            .ok entries) ∧
          ∃ entry, buildDictionaryV2QueryEntry p limit (runtimeDataSources dataSources)
            availableFilters = .ok entry) := by
  have hsame := h.sameHandlers
  refine ⟨?_, ?_, ?_⟩
  · exact .of_rearranged ⟨fun _ => Iff.rfl, fun _ => Iff.rfl⟩
      (fun _ hq hne => buildV1_rearranged p limit hsame _ hq hne)
      (fun _ hq hne => buildV1_rearranged p limit hsame.symm _ hq hne)
  · exact .of_rearranged ⟨fun _ => Iff.rfl, fun _ => Iff.rfl⟩
      (fun _ hq hne => buildV2_rearranged p limit availableFilters hsame _ hq hne)
      (fun _ hq hne => buildV2_rearranged p limit availableFilters hsame.symm _ hq hne)
  · intro hreadable dataSources hmem
    refine builders_return p limit availableFilters dataSources ?_
    intro ds hds handler hhandler
    rcases List.mem_cons.mp hmem with rfl | hmem
    · exact hreadable ds hds handler hhandler
    · obtain rfl := List.mem_singleton.mp hmem
      obtain ⟨ds', hds', hhandler', -⟩ := (hsame ds.address handler).mpr ⟨ds, hds, hhandler, rfl⟩
      exact hreadable ds' hds' handler hhandler'

/-- A second token contract. -/
def otherTokenDs : SubqlRuntimeDatasource :=
  { transferDs with options := some { address := some "0xCd" } }

/-- The same event of two tokens, one of them a second time: the V1 query lists the addresses
in the other order and asks for the same transfers. -/
theorem transfers_rearranged :
    ∃ entries entries',
      buildDictionaryV1QueryEntries erc20Platform 100
        (runtimeDataSources [transferDs, otherTokenDs]) = .ok entries ∧
      buildDictionaryV1QueryEntries erc20Platform 100
        (runtimeDataSources [otherTokenDs, transferDs, otherTokenDs]) = .ok entries' ∧
      entries ≠ entries' ∧ SameMatchesV1 erc20Platform entries entries' := by
  have h := queries_rearranged erc20Platform 100 none [transferDs, otherTokenDs]
    [otherTokenDs, transferDs, otherTokenDs]
    (.trans (.perm (List.Perm.swap otherTokenDs transferDs []))
      (.repeated List.mem_cons_self))
  exact ⟨_, _, rfl, rfl, by decide, (h.1.both _ _ rfl rfl).2⟩

/-- A handler of every block, with which no dictionary can be used. -/
def everyBlockDs : SubqlRuntimeDatasource where
  handlers := [.block "handleBlock" none]

/-- A topic that is not the signature of an event. -/
def misspeltDs : SubqlRuntimeDatasource where
  handlers := [.event "handleTransfer" (some ⟨some [some "Transfer(address"]⟩)]

/-- **Which group comes first decides between an empty query and an error**: a signature that cannot
be parsed goes unnoticed after a handler that rules the dictionary out. -/
theorem empty_query_order_dependent :
    Rearranged [everyBlockDs, misspeltDs] [misspeltDs, everyBlockDs] ∧
      buildDictionaryV1QueryEntries erc20Platform 100
        (runtimeDataSources [everyBlockDs, misspeltDs]) = .ok [] ∧
      buildDictionaryV1QueryEntries erc20Platform 100
        (runtimeDataSources [misspeltDs, everyBlockDs]) ≠ .ok [] ∧
      buildDictionaryV2QueryEntry erc20Platform 100
        (runtimeDataSources [everyBlockDs, misspeltDs]) none = .ok {} ∧
      buildDictionaryV2QueryEntry erc20Platform 100
        (runtimeDataSources [misspeltDs, everyBlockDs]) none ≠ .ok {} := by
  have hV1 : buildDictionaryV1QueryEntries erc20Platform 100
      (runtimeDataSources [misspeltDs, everyBlockDs]) =
        .error { message := "invalid event signature" } := rfl
  have hV2 : buildDictionaryV2QueryEntry erc20Platform 100
      (runtimeDataSources [misspeltDs, everyBlockDs]) none =
        .error { message := "invalid event signature" } := rfl
  refine ⟨.perm (List.Perm.swap _ _ []), rfl, ?_, rfl, ?_⟩
  · rw [hV1]
    simp
  · rw [hV2]
    simp

end SubqlEthereum.QueryOrder
