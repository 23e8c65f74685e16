import SubqlEthereum.Dictionary.EthDictionaryV1

/-!
# The dictionary V2 query

`buildDictionaryV2QueryEntry` of `ethDictionaryV2.ts` and its helpers.  A condition object is
the list of the keys set on it, in the order they are set, each with its list of values; that is
also the order `JSON.stringify` prints them in.  The two lists of the entry are filled in one
loop over the grouped handlers, so the loop is modelled as collecting conditions of both kinds,
which `sanitiseDictionaryConditions` then splits, makes unique and drops when empty.

`availableFilters` is what the dictionary's metadata says it can filter by; a missing list
allows every filter.
-/

namespace SubqlEthereum.DictionaryV2

open SubqlEthereum.External SubqlEthereum.JsonText SubqlEthereum.Grouping SubqlEthereum.Fallible
open SubqlEthereum.Project SubqlEthereum.Strings
open SubqlEthereum.Dictionary (NOT_NULL_FILTER addressesApply validAddresses topicField filterTopics
  lacksFilter groupedDataSources runtimeDataSources)

/-- `V2MetadataFilters`: the filters a dictionary supports. -/
structure V2MetadataFilters where
  logs : Option (List String) := none
  transactions : Option (List String) := none
deriving DecidableEq, Repr

structure EthDictionaryTxConditions where
  fields : List (String × List (Option String))
deriving DecidableEq, Repr

structure EthDictionaryLogConditions where
  fields : List (String × List String)
deriving DecidableEq, Repr

def EthDictionaryTxConditions.toJson (c : EthDictionaryTxConditions) : Json :=
  .obj (c.fields.map fun (key, values) => (key, .arr (values.map nullable)))

def EthDictionaryLogConditions.toJson (c : EthDictionaryLogConditions) : Json :=
  .obj (c.fields.map fun (key, values) => (key, .arr (values.map .str)))

/-- A list that is `undefined` was deleted, or never set. -/
structure EthDictionaryV2QueryEntry where
  logs : Option (List EthDictionaryLogConditions) := none
  transactions : Option (List EthDictionaryTxConditions) := none
deriving DecidableEq, Repr

/-- `!availableFilters || availableFilters.includes(key)`. -/
def available (availableFilters : Option (List String)) (key : String) : Bool :=
  availableFilters.all (·.contains key)

def applyAddresses (p : Platform) (limit : ℤ) (addresses : List (Option String)) : List String :=
  if addressesApply limit addresses then (validAddresses addresses).map p.toLowerCase else []

/-! ### Conditions on transactions -/

/-- The values asked of `to`: the addresses of the data sources, or else the filter's own. -/
def toArray (p : Platform) (limit : ℤ) (filter : Option EthereumTransactionFilter)
    (addresses : List (Option String)) : List (Option String) :=
  let assignTo : Option String → Option String := fun value => value.map p.toLowerCase
  let optionsAddresses := applyAddresses p limit addresses
  if optionsAddresses.isEmpty then (filter.bind (·.to)).toList.map assignTo
  else (optionsAddresses.map some).map assignTo

def fromArray (p : Platform) (filter : Option EthereumTransactionFilter) :
    List (Option String) :=
  (truthy (filter.bind (·.from))).toList.map fun address => some (p.toLowerCase address)

def funcArray (p : Platform) (filter : Option EthereumTransactionFilter) :
    Except JsError (List (Option String)) :=
  match truthy (filter.bind (·.function)).join with
  | some signature => do
    let sighash ← functionToSighash p signature
    return [some sighash]
  | none => .ok []

/-- Sets a key, unless it cannot be filtered by or has no values. -/
def setValue (availableFilters : Option (List String)) (key : String)
    (value : List (Option String)) : List (String × List (Option String)) :=
  if available availableFilters key && !value.isEmpty then [(key, value)] else []

def callFilterToDictionaryCondition (p : Platform) (limit : ℤ)
    (filter : Option EthereumTransactionFilter) (addresses : List (Option String))
    (availableFilters : Option (List String)) : Except JsError EthDictionaryTxConditions := do
  let data ← funcArray p filter
  return ⟨setValue availableFilters "to" (toArray p limit filter addresses) ++
    setValue availableFilters "from" (fromArray p filter) ++
    setValue availableFilters "data" data ++
    setValue availableFilters "type" ((truthy (filter.bind (·.type))).toList.map some)⟩

/-! ### Conditions on logs -/

/-- The keys of the filter topics from position `i` on. -/
def topicFields (p : Platform) (availableFilters : Option (List String)) :
    ℕ → List (Option String) → Except JsError (List (String × List String))
  | _, [] => .ok []
  | i, topic :: rest =>
    match truthy topic with
    | none => topicFields p availableFilters (i + 1) rest
    | some t =>
      if available availableFilters (topicField i) then
        if t = NOT_NULL_FILTER then do
          let fields ← topicFields p availableFilters (i + 1) rest
          return (topicField i, []) :: fields
        else do
          let value ← eventToTopic p t
          let fields ← topicFields p availableFilters (i + 1) rest
          return (topicField i, [value]) :: fields
      else topicFields p availableFilters (i + 1) rest

def eventFilterToDictionaryCondition (p : Platform) (limit : ℤ)
    (filter : Option EthereumLogFilter) (addresses : List (Option String))
    (availableFilters : Option (List String)) : Except JsError EthDictionaryLogConditions := do
  let address := if available availableFilters "address" then
    [("address", applyAddresses p limit addresses)] else []
  let topics ← topicFields p availableFilters 0 ((filterTopics filter).take 4)
  return ⟨address ++ topics⟩

/-! ### The loop over the groups -/

/-- A condition for one of the two lists of the entry. -/
inductive DictionaryCondition
  | log (condition : EthDictionaryLogConditions)
  | transaction (condition : EthDictionaryTxConditions)
deriving DecidableEq, Repr

def DictionaryCondition.log? : DictionaryCondition → Option EthDictionaryLogConditions
  | .log condition => some condition
  | .transaction _ => none

def DictionaryCondition.transaction? : DictionaryCondition → Option EthDictionaryTxConditions
  | .log _ => none
  | .transaction condition => some condition

/-- What one group contributes to the V2 query; `none` is the early return of `{}`. -/
def groupConditions (p : Platform) (limit : ℤ) (availableFilters : Option V2MetadataFilters)
    (group : SubqlHandler × List (Option String)) :
    Except JsError (Option (List DictionaryCondition)) :=
  let (handler, addresses) := group
  -- no filters, the dictionary cannot be used
  if lacksFilter handler && addresses.isEmpty then .ok none
  else
    match handler with
    | .base (.block _ filter) =>
      if (filter.bind (·.modulo)).isNone then .ok none else .ok (some [])
    | .base (.call _ filter) =>
      if filter.any (!·.fields.isEmpty) || !(validAddresses addresses).isEmpty then do
        let condition ← callFilterToDictionaryCondition p limit filter addresses
          (availableFilters.bind (·.transactions))
        return some [.transaction condition]
      else .ok (some [])
    | .base (.event _ filter) =>
      if !(filterTopics filter).isEmpty || !(validAddresses addresses).isEmpty then do
        let condition ← eventFilterToDictionaryCondition p limit filter addresses
          (availableFilters.bind (·.logs))
        return some [.log condition]
      else .ok (some [])
    | .custom _ _ _ => .ok (some [])

/-- An empty list is deleted, any other made unique by the JSON text of its elements. -/
def sanitise {α : Type} (toJson : α → Json) (conditions : List α) : Option (List α) :=
  if conditions.isEmpty then none
  else some (uniqBy (fun c => stringify (toJson c)) conditions)

def sanitiseDictionaryConditions (conditions : List DictionaryCondition) :
    EthDictionaryV2QueryEntry where
  logs := sanitise EthDictionaryLogConditions.toJson (conditions.filterMap (·.log?))
  transactions := sanitise EthDictionaryTxConditions.toJson
    (conditions.filterMap (·.transaction?))

def buildDictionaryV2QueryEntry (p : Platform) (limit : ℤ) (dataSources : List SubqlDatasource)
    (availableFilters : Option V2MetadataFilters) : Except JsError EthDictionaryV2QueryEntry := do
  match ← collect (groupConditions p limit availableFilters) (groupedDataSources dataSources) with
  | none => return {}
  | some conditions => return sanitiseDictionaryConditions conditions

/-- An entry with something to ask for. -/
def EthDictionaryV2QueryEntry.usable (entry : EthDictionaryV2QueryEntry) : Bool :=
  entry.logs.any (!·.isEmpty) || entry.transactions.any (!·.isEmpty)

/-! ### What a group contributes -/

/-- Whether a group has filters the query can be made of; others are left out. -/
def takesPart : SubqlHandler × List (Option String) → Bool
  | (.base (.call _ filter), addresses) =>
    filter.any (!·.fields.isEmpty) || !(validAddresses addresses).isEmpty
  | (.base (.event _ filter), addresses) =>
    !(filterTopics filter).isEmpty || !(validAddresses addresses).isEmpty
  | _ => false

/-- **The three things a group of a completed loop can do**: contribute nothing, a condition on
transactions or a condition on logs. -/
theorem groupConditions_cases (p : Platform) (limit : ℤ)
    (availableFilters : Option V2MetadataFilters) (handler : SubqlHandler)
    (addresses : List (Option String)) (out : List DictionaryCondition)
    (h : groupConditions p limit availableFilters (handler, addresses) = .ok (some out)) :
    (takesPart (handler, addresses) = false ∧ out = []) ∨
      (takesPart (handler, addresses) = true ∧ ∃ name filter c,
        handler = .base (.call name filter) ∧
        callFilterToDictionaryCondition p limit filter addresses
          (availableFilters.bind (·.transactions)) = .ok c ∧ out = [.transaction c]) ∨
      (takesPart (handler, addresses) = true ∧ ∃ name filter c,
        handler = .base (.event name filter) ∧
        eventFilterToDictionaryCondition p limit filter addresses
          (availableFilters.bind (·.logs)) = .ok c ∧ out = [.log c]) := by
  have hguard : (lacksFilter handler && addresses.isEmpty) = false := by
    cases hg : lacksFilter handler && addresses.isEmpty with
    | false => rfl
    | true =>
      simp only [groupConditions, hg, ↓reduceIte] at h
      exact absurd h (by simp)
  cases handler with
  | custom kind name filter =>
    simp only [groupConditions, hguard, Bool.false_eq_true, ↓reduceIte] at h
    exact .inl ⟨rfl, (Option.some.inj (Except.ok.inj h)).symm⟩
  | base b =>
    cases b with
    | block name filter =>
      simp only [groupConditions, hguard, Bool.false_eq_true, ↓reduceIte] at h
      split at h
      · exact absurd h (by simp)
      · exact .inl ⟨rfl, (Option.some.inj (Except.ok.inj h)).symm⟩
    | call name filter =>
      simp only [groupConditions, hguard, Bool.false_eq_true, ↓reduceIte] at h
      split at h
      · rename_i htakes
        obtain ⟨c, hc, hout⟩ := ok_of_bind_ok h
        exact .inr (.inl ⟨htakes, name, filter, c, rfl, hc,
          (Option.some.inj (Except.ok.inj hout)).symm⟩)
      · rename_i htakes
        exact .inl ⟨by simpa only [takesPart, Bool.not_eq_true] using htakes,
          (Option.some.inj (Except.ok.inj h)).symm⟩
    | event name filter =>
      simp only [groupConditions, hguard, Bool.false_eq_true, ↓reduceIte] at h
      split at h
      · rename_i htakes
        obtain ⟨c, hc, hout⟩ := ok_of_bind_ok h
        exact .inr (.inr ⟨htakes, name, filter, c, rfl, hc,
          (Option.some.inj (Except.ok.inj hout)).symm⟩)
      · rename_i htakes
        exact .inl ⟨by simpa only [takesPart, Bool.not_eq_true] using htakes,
          (Option.some.inj (Except.ok.inj h)).symm⟩

/-! ### What the entry consists of -/

/-- A field is read back from its pair of key and array. -/
theorem fieldJson_injective {α : Type} (toJson : α → Json) (hinj : Function.Injective toJson) :
    Function.Injective fun kv : String × List α => (kv.1, Json.arr (kv.2.map toJson)) := by
  intro x y hxy
  obtain ⟨hkey, hvalues⟩ := Prod.mk.inj hxy
  exact Prod.ext hkey (List.map_injective_iff.mpr hinj (Json.arr.inj hvalues))

theorem txConditions_toJson_injective : Function.Injective EthDictionaryTxConditions.toJson := by
  intro a b h
  have hfields : a.fields = b.fields :=
    List.map_injective_iff.mpr (fieldJson_injective nullable nullable_injective) (Json.obj.inj h)
  cases a
  cases b
  cases hfields
  rfl

theorem logConditions_toJson_injective :
    Function.Injective EthDictionaryLogConditions.toJson := by
  intro a b h
  have hstr : Function.Injective Json.str := fun _ _ hs => Json.str.inj hs
  have hfields : a.fields = b.fields :=
    List.map_injective_iff.mpr (fieldJson_injective .str hstr) (Json.obj.inj h)
  cases a
  cases b
  cases hfields
  rfl

/-- Sanitising keeps the set of conditions. -/
theorem mem_sanitise {α : Type} [DecidableEq α] (toJson : α → Json)
    (hinj : Function.Injective toJson) (conditions : List α) (c : α) :
    c ∈ (sanitise toJson conditions).getD [] ↔ c ∈ conditions := by
  by_cases hnil : conditions = []
  · rw [hnil]
    rfl
  · have hempty : conditions.isEmpty = false := by
      rw [List.isEmpty_eq_false_iff]
      exact hnil
    have hsome : (sanitise toJson conditions).getD [] =
        uniqBy (fun c => stringify (toJson c)) conditions := by
      rw [sanitise, hempty]
      rfl
    rw [hsome]
    constructor
    · intro hc
      exact mem_of_mem_uniqBy _ _ c hc
    · intro hc
      obtain ⟨kept, hkept, hkey⟩ :=
        exists_mem_uniqBy (fun c => stringify (toJson c)) conditions c hc
      rw [← hinj (stringify_injective hkey)]
      exact hkept

/-- The sanitised lists hold the conditions of their kind. -/
theorem mem_sanitised (conditions : List DictionaryCondition) :
    (∀ c, c ∈ (sanitiseDictionaryConditions conditions).logs.getD [] ↔ .log c ∈ conditions) ∧
      ∀ c, c ∈ (sanitiseDictionaryConditions conditions).transactions.getD [] ↔
        .transaction c ∈ conditions := by
  refine ⟨fun c => ?_, fun c => ?_⟩
  · rw [sanitiseDictionaryConditions,
      mem_sanitise _ logConditions_toJson_injective, List.mem_filterMap]
    constructor
    · intro hex
      obtain ⟨d, hd, hlog⟩ := hex
      cases d with
      | log condition => cases hlog; exact hd
      | transaction condition => cases hlog
    · intro hd
      exact ⟨.log c, hd, rfl⟩
  · rw [sanitiseDictionaryConditions,
      mem_sanitise _ txConditions_toJson_injective, List.mem_filterMap]
    constructor
    · intro hex
      obtain ⟨d, hd, htx⟩ := hex
      cases d with
      | log condition => cases htx
      | transaction condition => cases htx; exact hd
    · intro hd
      exact ⟨.transaction c, hd, rfl⟩

/-- A completed loop is sanitised to what the groups contributed, nothing more and nothing
less. -/
theorem mem_sanitised_iff (p : Platform) (limit : ℤ) (dataSources : List SubqlDatasource)
    (availableFilters : Option V2MetadataFilters) (conditions : List DictionaryCondition)
    (hc : collect (groupConditions p limit availableFilters) (groupedDataSources dataSources) =
      .ok (some conditions)) :
    (∀ c, c ∈ (sanitiseDictionaryConditions conditions).logs.getD [] ↔
      ∃ group ∈ groupedDataSources dataSources, ∃ out,
        groupConditions p limit availableFilters group = .ok (some out) ∧ .log c ∈ out) ∧
    ∀ c, c ∈ (sanitiseDictionaryConditions conditions).transactions.getD [] ↔
      ∃ group ∈ groupedDataSources dataSources, ∃ out,
        groupConditions p limit availableFilters group = .ok (some out) ∧
          .transaction c ∈ out := by
  have hin : ∀ c, c ∈ conditions ↔ ∃ group ∈ groupedDataSources dataSources, ∃ out,
      groupConditions p limit availableFilters group = .ok (some out) ∧ c ∈ out := by
    intro c
    constructor
    · intro hcin
      exact collect_origin _ _ _ hc c hcin
    · intro hex
      obtain ⟨group, hg, out, hout, hcin⟩ := hex
      obtain ⟨out', hout', hsub⟩ := collect_mem _ _ _ hc group hg
      have heq : out = out' := by
        rw [hout] at hout'
        exact Option.some.inj (Except.ok.inj hout')
      exact hsub c (heq ▸ hcin)
  refine ⟨fun c => ?_, fun c => ?_⟩
  · rw [← hin, (mem_sanitised conditions).1]
  · rw [← hin, (mem_sanitised conditions).2]

/-- A usable entry is made of what the groups contributed. -/
theorem buildV2_conditions (p : Platform) (limit : ℤ) (dataSources : List SubqlDatasource)
    (availableFilters : Option V2MetadataFilters) (entry : EthDictionaryV2QueryEntry)
    (h : buildDictionaryV2QueryEntry p limit dataSources availableFilters = .ok entry)
    (husable : entry.usable = true) :
    (∀ group ∈ groupedDataSources dataSources, ∃ out,
      groupConditions p limit availableFilters group = .ok (some out)) ∧
    (∀ c, c ∈ entry.logs.getD [] ↔ ∃ group ∈ groupedDataSources dataSources, ∃ out,
      groupConditions p limit availableFilters group = .ok (some out) ∧ .log c ∈ out) ∧
    ∀ c, c ∈ entry.transactions.getD [] ↔ ∃ group ∈ groupedDataSources dataSources, ∃ out,
      groupConditions p limit availableFilters group = .ok (some out) ∧ .transaction c ∈ out := by
  rw [buildDictionaryV2QueryEntry] at h
  obtain ⟨result, hc, h⟩ := ok_of_bind_ok h
  cases result with
  | none =>
    have hempty : entry = {} := (Except.ok.inj h).symm
    rw [hempty] at husable
    exact absurd husable (by decide)
  | some conditions =>
    have hentry : entry = sanitiseDictionaryConditions conditions := (Except.ok.inj h).symm
    rw [hentry]
    refine ⟨fun group hg => ?_, mem_sanitised_iff p limit dataSources availableFilters _ hc⟩
    obtain ⟨out, hout, -⟩ := collect_mem _ _ _ hc group hg
    exact ⟨out, hout⟩

/-- **When every group contributes, the entry is built**, and made of what they contributed. -/
theorem buildV2_of_groups (p : Platform) (limit : ℤ) (dataSources : List SubqlDatasource)
    (availableFilters : Option V2MetadataFilters)
    (h : ∀ group ∈ groupedDataSources dataSources, ∃ out,
      groupConditions p limit availableFilters group = .ok (some out)) :
    ∃ entry, buildDictionaryV2QueryEntry p limit dataSources availableFilters = .ok entry ∧
      ∀ c, c ∈ entry.logs.getD [] ↔ ∃ group ∈ groupedDataSources dataSources, ∃ out,
        groupConditions p limit availableFilters group = .ok (some out) ∧ .log c ∈ out := by
  obtain ⟨conditions, hc⟩ := collect_ok _ _ h
  refine ⟨sanitiseDictionaryConditions conditions, ?_,
    (mem_sanitised_iff p limit dataSources availableFilters conditions hc).1⟩
  rw [buildDictionaryV2QueryEntry, hc]
  rfl

section Contributed

variable {p : Platform} {limit : ℤ} {availableFilters : Option V2MetadataFilters}
  {handler : SubqlHandler} {addresses : List (Option String)} {out : List DictionaryCondition}

/-- A condition on logs in what a group contributes is the condition of its Event filter. -/
theorem log_mem_iff
    (hout : groupConditions p limit availableFilters (handler, addresses) = .ok (some out))
    (c : EthDictionaryLogConditions) :
    .log c ∈ out ↔ ∃ name filter, handler = .base (.event name filter) ∧
      takesPart (handler, addresses) = true ∧
      eventFilterToDictionaryCondition p limit filter addresses
        (availableFilters.bind (·.logs)) = .ok c := by
  rcases groupConditions_cases p limit availableFilters handler addresses out hout with
    ⟨hnot, hnil⟩ | ⟨-, _, _, _, rfl, -, hone⟩ | ⟨htakes, name, filter, c', rfl, hc', hone⟩
  · rw [hnil, hnot]
    simp
  · rw [hone]
    simp
  · rw [hone, List.mem_singleton]
    constructor
    · intro hin
      rw [DictionaryCondition.log.inj hin]
      exact ⟨name, filter, rfl, htakes, hc'⟩
    · intro hex
      obtain ⟨name', filter', heq, -, hc⟩ := hex
      have hfilter : filter = filter' :=
        (SubqlRuntimeHandler.event.inj (SubqlHandler.base.inj heq)).2
      rw [← hfilter, hc'] at hc
      rw [Except.ok.inj hc]

/-- A condition on transactions is likewise the condition of its Call filter. -/
theorem transaction_mem_iff
    (hout : groupConditions p limit availableFilters (handler, addresses) = .ok (some out))
    (c : EthDictionaryTxConditions) :
    .transaction c ∈ out ↔ ∃ name filter, handler = .base (.call name filter) ∧
      takesPart (handler, addresses) = true ∧
      callFilterToDictionaryCondition p limit filter addresses
        (availableFilters.bind (·.transactions)) = .ok c := by
  rcases groupConditions_cases p limit availableFilters handler addresses out hout with
    ⟨hnot, hnil⟩ | ⟨htakes, name, filter, c', rfl, hc', hone⟩ | ⟨-, _, _, _, rfl, -, hone⟩
  · rw [hnil, hnot]
    simp
  · rw [hone, List.mem_singleton]
    constructor
    · intro hin
      rw [DictionaryCondition.transaction.inj hin]
      exact ⟨name, filter, rfl, htakes, hc'⟩
    · intro hex
      obtain ⟨name', filter', heq, -, hc⟩ := hex
      have hfilter : filter = filter' :=
        (SubqlRuntimeHandler.call.inj (SubqlHandler.base.inj heq)).2
      rw [← hfilter, hc'] at hc
      rw [Except.ok.inj hc]
  · rw [hone]
    simp

end Contributed

/-- **The conditions on logs** are those of the Event groups that take part. -/
theorem mem_logs_iff (p : Platform) (limit : ℤ) (dataSources : List SubqlDatasource)
    (availableFilters : Option V2MetadataFilters) (entry : EthDictionaryV2QueryEntry)
    (h : buildDictionaryV2QueryEntry p limit dataSources availableFilters = .ok entry)
    (husable : entry.usable = true) (c : EthDictionaryLogConditions) :
    c ∈ entry.logs.getD [] ↔ ∃ handler filter addresses,
      (SubqlHandler.base (.event handler filter), addresses) ∈ groupedDataSources dataSources ∧
      takesPart (.base (.event handler filter), addresses) = true ∧
      eventFilterToDictionaryCondition p limit filter addresses
        (availableFilters.bind (·.logs)) = .ok c := by
  obtain ⟨hgroups, hlogs, -⟩ := buildV2_conditions p limit _ availableFilters entry h husable
  rw [hlogs]
  constructor
  · intro hex
    obtain ⟨⟨handler, addresses⟩, hg, out, hout, hin⟩ := hex
    obtain ⟨name, filter, rfl, htakes, hc⟩ := (log_mem_iff hout c).mp hin
    exact ⟨name, filter, addresses, hg, htakes, hc⟩
  · intro hex
    obtain ⟨name, filter, addresses, hg, htakes, hc⟩ := hex
    obtain ⟨out, hout⟩ := hgroups _ hg
    exact ⟨_, hg, out, hout, (log_mem_iff hout c).mpr ⟨name, filter, rfl, htakes, hc⟩⟩

/-- **The conditions on transactions** are those of the Call groups that take part. -/
theorem mem_transactions_iff (p : Platform) (limit : ℤ) (dataSources : List SubqlDatasource)
    (availableFilters : Option V2MetadataFilters) (entry : EthDictionaryV2QueryEntry)
    (h : buildDictionaryV2QueryEntry p limit dataSources availableFilters = .ok entry)
    (husable : entry.usable = true) (c : EthDictionaryTxConditions) :
    c ∈ entry.transactions.getD [] ↔ ∃ handler filter addresses,
      (SubqlHandler.base (.call handler filter), addresses) ∈ groupedDataSources dataSources ∧
      takesPart (.base (.call handler filter), addresses) = true ∧
      callFilterToDictionaryCondition p limit filter addresses
        (availableFilters.bind (·.transactions)) = .ok c := by
  obtain ⟨hgroups, -, htxs⟩ := buildV2_conditions p limit _ availableFilters entry h husable
  rw [htxs]
  constructor
  · intro hex
    obtain ⟨⟨handler, addresses⟩, hg, out, hout, hin⟩ := hex
    obtain ⟨name, filter, rfl, htakes, hc⟩ := (transaction_mem_iff hout c).mp hin
    exact ⟨name, filter, addresses, hg, htakes, hc⟩
  · intro hex
    obtain ⟨name, filter, addresses, hg, htakes, hc⟩ := hex
    obtain ⟨out, hout⟩ := hgroups _ hg
    exact ⟨_, hg, out, hout, (transaction_mem_iff hout c).mpr ⟨name, filter, rfl, htakes, hc⟩⟩

/-- In a usable entry the condition of every group that takes part could be built. -/
theorem built_of_takesPart (p : Platform) (limit : ℤ) (dataSources : List SubqlDatasource)
    (availableFilters : Option V2MetadataFilters) (entry : EthDictionaryV2QueryEntry)
    (h : buildDictionaryV2QueryEntry p limit dataSources availableFilters = .ok entry)
    (husable : entry.usable = true) (handler : SubqlHandler) (addresses : List (Option String))
    (hg : (handler, addresses) ∈ groupedDataSources dataSources)
    (htakes : takesPart (handler, addresses) = true) :
    (∃ name filter c, handler = .base (.call name filter) ∧
        callFilterToDictionaryCondition p limit filter addresses
          (availableFilters.bind (·.transactions)) = .ok c) ∨
      ∃ name filter c, handler = .base (.event name filter) ∧
        eventFilterToDictionaryCondition p limit filter addresses
          (availableFilters.bind (·.logs)) = .ok c := by
  obtain ⟨hgroups, -, -⟩ := buildV2_conditions p limit _ availableFilters entry h husable
  obtain ⟨out, hout⟩ := hgroups _ hg
  rcases groupConditions_cases p limit availableFilters handler addresses out hout with
    ⟨hnot, -⟩ | ⟨-, name, filter, c, heq, hc, -⟩ | ⟨-, name, filter, c, heq, hc, -⟩
  · rw [htakes] at hnot
    exact absurd hnot (by simp)
  · exact .inl ⟨name, filter, c, heq, hc⟩
  · exact .inr ⟨name, filter, c, heq, hc⟩

end SubqlEthereum.DictionaryV2
