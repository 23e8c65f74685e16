import SubqlEthereum.Dictionary.GroupPartition
import SubqlEthereum.Dictionary.LogCoverageV2
import SubqlEthereum.Dictionary.QueryComparison
import SubqlEthereum.Dictionary.TransactionMatching

/-!
# Groups and the order of the data sources

Data sources are added while a project is indexed, so the same ones come in any order and more than
once.  Each group of handlers then has its counterpart: a group of the same kind and filter, whose
addresses are the same up to order.  What such groups contribute to the queries matches the same
(`groupQueryEntries_same`, `groupConditions_same`).
-/

namespace SubqlEthereum.QueryOrder

open SubqlEthereum.External SubqlEthereum.Project SubqlEthereum.Strings SubqlEthereum.Blocks
open SubqlEthereum.Fallible SubqlEthereum.Dictionary SubqlEthereum.DictionaryV2
open SubqlEthereum.QueryComparison (refuses groupQueryEntries_eq groupConditions_eq)
open SubqlEthereum.TransactionCoverage (matchesV1 matchesV1Condition matchesV2 matchesV2Field
  conditions_ask_to)

/-! ### The same data sources in another arrangement -/

/-- The data sources in another order, some of them repeated, or some handlers within one of them in
another order or repeated. -/
inductive Rearranged : List SubqlRuntimeDatasource → List SubqlRuntimeDatasource → Prop
  | perm {xs ys : List SubqlRuntimeDatasource} : xs.Perm ys → Rearranged xs ys
  | repeated {xs : List SubqlRuntimeDatasource} {ds : SubqlRuntimeDatasource} :
      ds ∈ xs → Rearranged xs (xs ++ [ds])
  | handlers {front back : List SubqlRuntimeDatasource} {ds : SubqlRuntimeDatasource}
      {handlers : List SubqlRuntimeHandler} : (∀ h, h ∈ handlers ↔ h ∈ ds.handlers) →
      Rearranged (front ++ ds :: back) (front ++ { ds with handlers } :: back)
  | trans {xs ys zs : List SubqlRuntimeDatasource} :
      Rearranged xs ys → Rearranged ys zs → Rearranged xs zs

/-- Both lists have the same handlers under the same addresses. -/
def SameHandlers (xs ys : List SubqlRuntimeDatasource) : Prop :=
  ∀ address handler, (∃ ds ∈ xs, handler ∈ ds.handlers ∧ ds.address = address) ↔
    ∃ ds ∈ ys, handler ∈ ds.handlers ∧ ds.address = address

theorem SameHandlers.symm {xs ys : List SubqlRuntimeDatasource} (h : SameHandlers xs ys) :
    SameHandlers ys xs := fun address handler => (h address handler).symm

/-- **Rearranging keeps the handlers.** -/
theorem Rearranged.sameHandlers {xs ys : List SubqlRuntimeDatasource} (h : Rearranged xs ys) :
    SameHandlers xs ys := by
  induction h with
  | perm hperm =>
    intro address handler
    simp only [hperm.mem_iff]
  | repeated hds =>
    intro address handler
    constructor
    · intro h
      obtain ⟨ds, hmem, hrest⟩ := h
      exact ⟨ds, List.mem_append_left _ hmem, hrest⟩
    · intro h
      obtain ⟨ds, hmem, hrest⟩ := h
      rcases List.mem_append.mp hmem with hold | hnew
      · exact ⟨ds, hold, hrest⟩
      · obtain rfl := List.mem_singleton.mp hnew
        exact ⟨ds, hds, hrest⟩
  | @handlers front back ds handlers hhandlers =>
    intro address handler
    simp only [List.mem_append, List.mem_cons, or_and_right, exists_or, exists_eq_left]
    exact or_congr_right (or_congr_left (and_congr_left fun _ => (hhandlers handler).symm))
  | trans _ _ ihfirst ihsecond =>
    intro address handler
    exact (ihfirst address handler).trans (ihsecond address handler)

/-! ### Groups that correspond -/

/-- Groups of the same kind and filter, with the same addresses. -/
def SameGroup (group other : SubqlHandler × List (Option String)) : Prop :=
  ∃ b b', group.1 = .base b ∧ other.1 = .base b' ∧ b.kind = b'.kind ∧
    b.filterJson = b'.filterJson ∧ group.2.Perm other.2

theorem mem_group_addresses {dataSources : List SubqlRuntimeDatasource}
    {group : SubqlHandler × List (Option String)}
    (hg : group ∈ groupedDataSources (runtimeDataSources dataSources)) (a : Option String) :
    a ∈ group.2 ↔ ∃ handler, handlerKey (.base handler) = handlerKey group.1 ∧
      ∃ ds ∈ dataSources, handler ∈ ds.handlers ∧ ds.address = a := by
  rw [(mem_groupedDataSources _ group.1 group.2 hg).2 a]
  constructor
  · intro h
    obtain ⟨source, hsource, handler, hhandler, hkey, haddress⟩ := h
    obtain ⟨ds, hds, rfl⟩ := List.mem_map.mp hsource
    obtain ⟨b, hb, rfl⟩ := List.mem_map.mp hhandler
    exact ⟨b, hkey, ds, hds, hb, haddress⟩
  · intro h
    obtain ⟨b, hkey, ds, hds, hb, haddress⟩ := h
    exact ⟨.runtime ds, List.mem_map_of_mem hds, .base b, List.mem_map_of_mem hb, hkey, haddress⟩

/-- **Every group has its counterpart.** -/
theorem exists_sameGroup {xs ys : List SubqlRuntimeDatasource} (h : SameHandlers xs ys)
    (group : SubqlHandler × List (Option String))
    (hg : group ∈ groupedDataSources (runtimeDataSources xs)) :
    ∃ other ∈ groupedDataSources (runtimeDataSources ys), SameGroup group other := by
  obtain ⟨ds, hds, b, hb, hbase, -⟩ := runtime_group_source xs group hg
  obtain ⟨ds', hds', hb', -⟩ := (h ds.address b).mp ⟨ds, hds, hb, rfl⟩
  obtain ⟨other, ho, hkey, -⟩ := exists_group (runtimeDataSources ys) (.runtime ds')
    (List.mem_map_of_mem hds') (.base b) (List.mem_map_of_mem hb')
  obtain ⟨_, _, b', _, hbase', _⟩ := runtime_group_source ys other ho
  have hsame : handlerKey group.1 = handlerKey other.1 := by rw [hbase, hkey]
  obtain ⟨hkind, hfilter⟩ := handlerKey_base b b' (by rw [← hbase, ← hbase', hsame])
  refine ⟨other, ho, b, b', hbase, hbase', hkind, hfilter, ?_⟩
  rw [List.perm_ext_iff_of_nodup (nodup_addresses hg) (nodup_addresses ho)]
  intro a
  rw [mem_group_addresses hg, mem_group_addresses ho, hsame]
  exact exists_congr fun handler => and_congr_right fun _ => h a handler

theorem SameGroup.symm {group other : SubqlHandler × List (Option String)}
    (h : SameGroup group other) : SameGroup other group := by
  obtain ⟨b, b', hb, hb', hkind, hfilter, hperm⟩ := h
  exact ⟨b', b, hb', hb, hkind.symm, hfilter.symm, hperm.symm⟩

/-- Corresponding groups are both of blocks, of calls or of events, with one filter. -/
theorem SameGroup.cases {handler handler' : SubqlHandler}
    {addresses addresses' : List (Option String)}
    (h : SameGroup (handler, addresses) (handler', addresses')) :
    addresses.Perm addresses' ∧
      ((∃ m n f, handler = .base (.block m f) ∧ handler' = .base (.block n f)) ∨
        (∃ m n f, handler = .base (.call m f) ∧ handler' = .base (.call n f)) ∨
        ∃ m n f, handler = .base (.event m f) ∧ handler' = .base (.event n f)) := by
  obtain ⟨b, b', hb, hb', hkind, hfilter, hperm⟩ := h
  obtain rfl : handler = .base b := hb
  obtain rfl : handler' = .base b' := hb'
  refine ⟨hperm, ?_⟩
  rcases runtimeHandler_filter_eq b b' hkind hfilter with
    ⟨m, n, f, rfl, rfl⟩ | ⟨m, n, f, rfl, rfl⟩ | ⟨m, n, f, rfl, rfl⟩
  · exact .inl ⟨m, n, f, rfl, rfl⟩
  · exact .inr (.inl ⟨m, n, f, rfl, rfl⟩)
  · exact .inr (.inr ⟨m, n, f, rfl, rfl⟩)

/-- **A loop over the groups** collects the same from any arrangement, when it does the same at
corresponding groups. -/
theorem collect_rearranged {β : Type} {R : β → β → Prop}
    (f : SubqlHandler × List (Option String) → Except JsError (Option (List β)))
    (hf : ∀ group other, SameGroup group other → SameResult R (f group) (f other))
    {xs ys : List SubqlRuntimeDatasource} (h : SameHandlers xs ys) (out : List β)
    (hout : collect f (groupedDataSources (runtimeDataSources xs)) = .ok (some out)) :
    ∃ out', collect f (groupedDataSources (runtimeDataSources ys)) = .ok (some out') ∧
      (∀ y ∈ out, ∃ y' ∈ out', R y y') ∧ ∀ y' ∈ out', ∃ y ∈ out, R y y' := by
  refine collect_corresponding f _ _ out ?_ ?_ hout
  · intro group hg
    obtain ⟨other, ho, hsame⟩ := exists_sameGroup h group hg
    exact ⟨other, ho, hf group other hsame⟩
  · intro other ho
    obtain ⟨group, hg, hsame⟩ := exists_sameGroup h.symm other ho
    exact ⟨group, hg, hf group other hsame.symm⟩

/-! ### Addresses in another order -/

section Addresses

variable {addresses addresses' : List (Option String)} (h : addresses.Perm addresses')

include h

theorem validAddresses_perm : (validAddresses addresses).Perm (validAddresses addresses') :=
  h.filterMap _

theorem addressesApply_perm (limit : ℤ) :
    addressesApply limit addresses = addressesApply limit addresses' := by
  have hmissing : (addresses.filter fun v => (truthy v).isNone).isEmpty =
      (addresses'.filter fun v => (truthy v).isNone).isEmpty := (h.filter _).isEmpty_eq
  rw [addressesApply, addressesApply, h.isEmpty_eq, h.length_eq, hmissing]

theorem takesPart_perm (b : SubqlRuntimeHandler) (b' : SubqlRuntimeHandler)
    (hkind : b.kind = b'.kind) (hfilter : b.filterJson = b'.filterJson) :
    takesPart (.base b, addresses) = takesPart (.base b', addresses') ∧
      refuses (.base b, addresses) = refuses (.base b', addresses') := by
  rcases runtimeHandler_filter_eq b b' hkind hfilter with
    ⟨m, n, f, rfl, rfl⟩ | ⟨m, n, f, rfl, rfl⟩ | ⟨m, n, f, rfl, rfl⟩
  · refine ⟨rfl, ?_⟩
    rw [refuses, refuses, h.isEmpty_eq]
    rfl
  · refine ⟨?_, ?_⟩
    · rw [takesPart, takesPart, (validAddresses_perm h).isEmpty_eq]
    · rw [refuses, refuses, h.isEmpty_eq]
      rfl
  · refine ⟨?_, ?_⟩
    · rw [takesPart, takesPart, (validAddresses_perm h).isEmpty_eq]
    · rw [refuses, refuses, h.isEmpty_eq]
      rfl

end Addresses

/-! ### The V1 query -/

/-- Conditions that ask for the same: a list of values may be in another order. -/
inductive SameCondition : DictionaryQueryCondition → DictionaryQueryCondition → Prop
  | same (c : DictionaryQueryCondition) : SameCondition c c
  | reordered (field : String) {values values' : List String} : values.Perm values' →
      SameCondition ⟨field, .texts values, .isIn⟩ ⟨field, .texts values', .isIn⟩

structure SameEntry (e e' : DictionaryQueryEntry) : Prop where
  entity : e.entity = e'.entity
  conditions : List.Forall₂ SameCondition e.conditions e'.conditions

theorem SameCondition.matchesLog_eq (p : Platform) (log : EthereumLog)
    {c c' : DictionaryQueryCondition} (h : SameCondition c c') :
    c.matchesLog p log = c'.matchesLog p log := by
  cases h with
  | same => rfl
  | reordered field hperm =>
    simp only [DictionaryQueryCondition.matchesLog, hperm.contains_eq]

theorem SameCondition.matchesV1_eq (p : Platform) (tx : EthereumTransaction)
    {c c' : DictionaryQueryCondition} (h : SameCondition c c') :
    matchesV1Condition p tx c = matchesV1Condition p tx c' := by
  cases h with
  | same => rfl
  | reordered field hperm =>
    simp only [matchesV1Condition, hperm.contains_eq]

/-- Moving the addresses to `to` keeps the correspondence. -/
theorem SameCondition.renamed {c c' : DictionaryQueryCondition} (h : SameCondition c c') :
    SameCondition (renameAddress c) (renameAddress c') := by
  cases h with
  | same => exact .same _
  | reordered field hperm =>
    rw [renameAddress, renameAddress]
    by_cases haddress : field = "address"
    · rw [if_pos haddress, if_pos haddress]
      exact .reordered "to" hperm
    · rw [if_neg haddress, if_neg haddress]
      exact .reordered field hperm

theorem SameEntry.matchesLog_eq (p : Platform) (log : EthereumLog) {e e' : DictionaryQueryEntry}
    (h : SameEntry e e') : e.matchesLog p log = e'.matchesLog p log := by
  rw [DictionaryQueryEntry.matchesLog, DictionaryQueryEntry.matchesLog, h.entity,
    all_eq_of_forall₂ (fun _ _ hc => hc.matchesLog_eq p log) h.conditions]

theorem SameEntry.matchesV1_eq (p : Platform) (tx : EthereumTransaction)
    {e e' : DictionaryQueryEntry} (h : SameEntry e e') : matchesV1 p tx e = matchesV1 p tx e' := by
  rw [matchesV1, matchesV1, h.entity,
    all_eq_of_forall₂ (fun _ _ hc => hc.matchesV1_eq p tx) h.conditions]

theorem sameCondition_refl (conditions : List DictionaryQueryCondition) :
    List.Forall₂ SameCondition conditions conditions :=
  List.forall₂_same.mpr fun c _ => .same c

section GroupV1

variable (p : Platform) (limit : ℤ) {addresses addresses' : List (Option String)}
  (h : addresses.Perm addresses')

include h

theorem applyAddresses_same :
    List.Forall₂ SameCondition (Dictionary.applyAddresses p limit addresses)
      (Dictionary.applyAddresses p limit addresses') := by
  rw [Dictionary.applyAddresses, Dictionary.applyAddresses, ← addressesApply_perm h limit,
    ← h.length_eq]
  by_cases happly : addressesApply limit addresses = true
  · rw [if_pos happly, if_pos happly]
    by_cases hone : addresses.length = 1
    · rw [if_pos hone, if_pos hone]
      obtain ⟨a, rfl⟩ := List.length_eq_one_iff.mp hone
      rw [List.singleton_perm.mp h]
      exact sameCondition_refl _
    · rw [if_neg hone, if_neg hone]
      exact .cons (.reordered "address" ((validAddresses_perm h).map _)) .nil
  · rw [if_neg happly, if_neg happly]
    exact .nil

theorem eventEntry_same (filter : Option EthereumLogFilter) :
    SameResult SameEntry
      (eventFilterToQueryEntry p limit filter addresses >>= fun entry => .ok (some [entry]))
      (eventFilterToQueryEntry p limit filter addresses' >>= fun entry => .ok (some [entry])) := by
  have haddresses := applyAddresses_same p limit h
  rw [eventFilterToQueryEntry, eventFilterToQueryEntry]
  cases topicConditions p 0 ((filterTopics filter).take 4) with
  | error e => exact .throws
  | ok topics =>
    exact .gives (.cons ⟨rfl, List.rel_append haddresses (sameCondition_refl topics)⟩ .nil)

theorem callEntry_same (filter : Option EthereumTransactionFilter) :
    SameResult SameEntry
      (callFilterToQueryEntry p limit filter addresses >>= fun entry => .ok (some [entry]))
      (callFilterToQueryEntry p limit filter addresses' >>= fun entry => .ok (some [entry])) := by
  have haddresses : List.Forall₂ SameCondition
      ((Dictionary.applyAddresses p limit addresses).map renameAddress)
      ((Dictionary.applyAddresses p limit addresses').map renameAddress) := by
    rw [List.forall₂_map_left_iff, List.forall₂_map_right_iff]
    exact (applyAddresses_same p limit h).imp fun _ _ hc => hc.renamed
  cases filter with
  | none => exact .gives (.cons ⟨rfl, haddresses⟩ .nil)
  | some f =>
    -- the filter's own `to` is asked for by both or by neither
    have hasked := conditions_ask_to p limit addresses' f
    rw [← addressesApply_perm h, ← conditions_ask_to p limit addresses f] at hasked
    simp only [callFilterToQueryEntry]
    rw [hasked]
    cases functionConditions p f with
    | error e => exact .throws
    | ok functionPart =>
      refine .gives (.cons ⟨rfl, ?_⟩ .nil)
      exact List.rel_append (List.rel_append (List.rel_append haddresses (sameCondition_refl _))
        (sameCondition_refl _)) (sameCondition_refl functionPart)

end GroupV1

/-- **Corresponding groups contribute corresponding entries.** -/
theorem groupQueryEntries_same (p : Platform) (limit : ℤ)
    {group other : SubqlHandler × List (Option String)} (h : SameGroup group other) :
    SameResult SameEntry (groupQueryEntries p limit group) (groupQueryEntries p limit other) := by
  obtain ⟨handler, addresses⟩ := group
  obtain ⟨handler', addresses'⟩ := other
  obtain ⟨hperm, hcases⟩ := h.cases
  rw [groupQueryEntries_eq, groupQueryEntries_eq]
  rcases hcases with ⟨m, n, f, rfl, rfl⟩ | ⟨m, n, f, rfl, rfl⟩ | ⟨m, n, f, rfl, rfl⟩
  · obtain ⟨-, hrefuses⟩ := takesPart_perm hperm (.block m f) (.block n f) rfl rfl
    rw [← hrefuses]
    exact .ite .stops (.gives .nil)
  · obtain ⟨htakes, hrefuses⟩ := takesPart_perm hperm (.call m f) (.call n f) rfl rfl
    simp only [← hrefuses, ← htakes]
    exact .ite .stops (.ite (callEntry_same p limit hperm f) .stops)
  · obtain ⟨htakes, hrefuses⟩ := takesPart_perm hperm (.event m f) (.event n f) rfl rfl
    simp only [← hrefuses, ← htakes]
    exact .ite .stops (.ite (eventEntry_same p limit hperm f) .stops)

/-! ### The V2 query -/

/-- Keys that ask for the same values, in another order maybe. -/
def SameField {α : Type} (field field' : String × List α) : Prop :=
  field.1 = field'.1 ∧ field.2.Perm field'.2

theorem sameField_refl {α : Type} (fields : List (String × List α)) :
    List.Forall₂ SameField fields fields :=
  List.forall₂_same.mpr fun field _ => ⟨rfl, List.Perm.refl field.2⟩

inductive SameDictionaryCondition : DictionaryCondition → DictionaryCondition → Prop
  | log {c c' : EthDictionaryLogConditions} : List.Forall₂ SameField c.fields c'.fields →
      SameDictionaryCondition (.log c) (.log c')
  | transaction {c c' : EthDictionaryTxConditions} : List.Forall₂ SameField c.fields c'.fields →
      SameDictionaryCondition (.transaction c) (.transaction c')

theorem fieldMatchesLog_eq (p : Platform) (log : EthereumLog) (field field' : String × List String)
    (h : SameField field field') : fieldMatchesLog p log field = fieldMatchesLog p log field' := by
  obtain ⟨hkey, hperm⟩ := h
  simp only [fieldMatchesLog, hkey, hperm.isEmpty_eq, hperm.contains_eq, hperm.any_eq]

theorem matchesV2Field_eq (p : Platform) (tx : EthereumTransaction)
    (field field' : String × List (Option String)) (h : SameField field field') :
    matchesV2Field p tx field = matchesV2Field p tx field' := by
  obtain ⟨hkey, hperm⟩ := h
  simp only [matchesV2Field, hkey, hperm.isEmpty_eq, hperm.contains_eq]

/-- A condition of either list matches a log when it is on logs and does. -/
def conditionMatchesLog (p : Platform) (log : EthereumLog) : DictionaryCondition → Bool
  | .log c => c.matchesLog p log
  | .transaction _ => false

def conditionMatchesTransaction (p : Platform) (tx : EthereumTransaction) :
    DictionaryCondition → Bool
  | .log _ => false
  | .transaction c => matchesV2 p tx c

theorem SameDictionaryCondition.matchesLog_eq (p : Platform) (log : EthereumLog)
    {c c' : DictionaryCondition} (h : SameDictionaryCondition c c') :
    conditionMatchesLog p log c = conditionMatchesLog p log c' := by
  cases h with
  | log hfields => exact all_eq_of_forall₂ (fieldMatchesLog_eq p log) hfields
  | transaction => rfl

theorem SameDictionaryCondition.matchesTransaction_eq (p : Platform) (tx : EthereumTransaction)
    {c c' : DictionaryCondition} (h : SameDictionaryCondition c c') :
    conditionMatchesTransaction p tx c = conditionMatchesTransaction p tx c' := by
  cases h with
  | log => rfl
  | transaction hfields => exact all_eq_of_forall₂ (matchesV2Field_eq p tx) hfields

section GroupV2

variable (p : Platform) (limit : ℤ) {addresses addresses' : List (Option String)}
  (h : addresses.Perm addresses')

include h

theorem addressValues_perm : (DictionaryV2.applyAddresses p limit addresses).Perm
    (DictionaryV2.applyAddresses p limit addresses') := by
  rw [DictionaryV2.applyAddresses, DictionaryV2.applyAddresses, ← addressesApply_perm h limit]
  by_cases happly : addressesApply limit addresses = true
  · rw [if_pos happly, if_pos happly]
    exact (validAddresses_perm h).map _
  · rw [if_neg happly, if_neg happly]

theorem toArray_perm (filter : Option EthereumTransactionFilter) :
    (toArray p limit filter addresses).Perm (toArray p limit filter addresses') := by
  have haddresses := addressValues_perm p limit h
  simp only [toArray, ← haddresses.isEmpty_eq]
  by_cases hempty : (DictionaryV2.applyAddresses p limit addresses).isEmpty = true
  · rw [if_pos hempty, if_pos hempty]
  · rw [if_neg hempty, if_neg hempty]
    exact (haddresses.map _).map _

theorem logCondition_same (filter : Option EthereumLogFilter)
    (availableFilters : Option (List String)) :
    SameResult SameDictionaryCondition
      (eventFilterToDictionaryCondition p limit filter addresses availableFilters >>=
        fun c => .ok (some [.log c]))
      (eventFilterToDictionaryCondition p limit filter addresses' availableFilters >>=
        fun c => .ok (some [.log c])) := by
  have haddresses := addressValues_perm p limit h
  rw [eventFilterToDictionaryCondition, eventFilterToDictionaryCondition]
  cases topicFields p availableFilters 0 ((filterTopics filter).take 4) with
  | error e => exact .throws
  | ok topics =>
    refine .gives (.cons (.log (List.rel_append ?_ (sameField_refl topics))) .nil)
    by_cases havailable : available availableFilters "address" = true
    · rw [if_pos havailable, if_pos havailable]
      exact .cons ⟨rfl, haddresses⟩ .nil
    · rw [if_neg havailable, if_neg havailable]
      exact .nil

theorem transactionCondition_same (filter : Option EthereumTransactionFilter)
    (availableFilters : Option (List String)) :
    SameResult SameDictionaryCondition
      (callFilterToDictionaryCondition p limit filter addresses availableFilters >>=
        fun c => .ok (some [.transaction c]))
      (callFilterToDictionaryCondition p limit filter addresses' availableFilters >>=
        fun c => .ok (some [.transaction c])) := by
  have hto := toArray_perm p limit h filter
  have hset : List.Forall₂ SameField
      (setValue availableFilters "to" (toArray p limit filter addresses))
      (setValue availableFilters "to" (toArray p limit filter addresses')) := by
    rw [setValue, setValue, ← hto.isEmpty_eq]
    cases available availableFilters "to" && !(toArray p limit filter addresses).isEmpty with
    | true => exact .cons ⟨rfl, hto⟩ .nil
    | false => exact .nil
  rw [callFilterToDictionaryCondition, callFilterToDictionaryCondition]
  cases funcArray p filter with
  | error e => exact .throws
  | ok data =>
    refine .gives (.cons (.transaction ?_) .nil)
    exact List.rel_append (List.rel_append (List.rel_append hset (sameField_refl _))
      (sameField_refl _)) (sameField_refl _)

end GroupV2

/-- **Corresponding groups contribute corresponding conditions.** -/
theorem groupConditions_same (p : Platform) (limit : ℤ)
    (availableFilters : Option V2MetadataFilters)
    {group other : SubqlHandler × List (Option String)} (h : SameGroup group other) :
    SameResult SameDictionaryCondition (groupConditions p limit availableFilters group)
      (groupConditions p limit availableFilters other) := by
  obtain ⟨handler, addresses⟩ := group
  obtain ⟨handler', addresses'⟩ := other
  obtain ⟨hperm, hcases⟩ := h.cases
  rw [groupConditions_eq, groupConditions_eq]
  rcases hcases with ⟨m, n, f, rfl, rfl⟩ | ⟨m, n, f, rfl, rfl⟩ | ⟨m, n, f, rfl, rfl⟩
  · obtain ⟨-, hrefuses⟩ := takesPart_perm hperm (.block m f) (.block n f) rfl rfl
    rw [← hrefuses]
    exact .ite .stops (.gives .nil)
  · obtain ⟨htakes, hrefuses⟩ := takesPart_perm hperm (.call m f) (.call n f) rfl rfl
    simp only [← hrefuses, ← htakes]
    exact .ite .stops (.ite (transactionCondition_same p limit hperm f _) (.gives .nil))
  · obtain ⟨htakes, hrefuses⟩ := takesPart_perm hperm (.event m f) (.event n f) rfl rfl
    simp only [← hrefuses, ← htakes]
    exact .ite .stops (.ite (logCondition_same p limit hperm f _) (.gives .nil))

end SubqlEthereum.QueryOrder
