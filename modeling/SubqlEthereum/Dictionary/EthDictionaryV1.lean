import SubqlEthereum.Dictionary.Utils
import SubqlEthereum.Library.Fallible

/-!
# The dictionary V1 query

`buildDictionaryV1QueryEntries` of `ethDictionaryV1.ts` and its helpers, branch by branch.  The
builder loops over the grouped handlers: a group may refuse (the dictionary cannot be used and
the result is the empty list), contribute one entry, or contribute nothing; a signature that
does not parse throws.  The entries are then made unique by the JSON text of their conditions,
sorted by field.

The option `query-address-limit` is the argument `limit`.
-/

namespace SubqlEthereum.Dictionary

open SubqlEthereum.External SubqlEthereum.JsonText SubqlEthereum.Grouping SubqlEthereum.Fallible
open SubqlEthereum.Project SubqlEthereum.Strings

/-- The filter topic that asks for presence only. -/
def NOT_NULL_FILTER : String := "!null"

/-! ### Query entries -/

inductive Matcher
  | equalTo
  | isIn
  | isNull
deriving DecidableEq, Repr

def Matcher.value : Matcher → String
  | .equalTo => "equalTo"
  | .isIn => "in"
  | .isNull => "isNull"

inductive ConditionValue
  | text (s : String)
  | texts (l : List String)
  | flag (b : Bool)
deriving DecidableEq, Repr

def ConditionValue.toJson : ConditionValue → Json
  | .text s => .str s
  | .texts l => .arr (l.map .str)
  | .flag b => .bool b

structure DictionaryQueryCondition where
  field : String
  value : ConditionValue
  matcher : Matcher
deriving DecidableEq, Repr

def DictionaryQueryCondition.toJson (c : DictionaryQueryCondition) : Json :=
  .obj [("field", .str c.field), ("value", c.value.toJson), ("matcher", .str c.matcher.value)]

inductive Entity
  | evmLogs
  | evmTransactions
deriving DecidableEq, Repr

def Entity.value : Entity → String
  | .evmLogs => "evmLogs"
  | .evmTransactions => "evmTransactions"

structure DictionaryQueryEntry where
  entity : Entity
  conditions : List DictionaryQueryCondition
deriving DecidableEq, Repr

/-! ### Building the entry of one group -/

/-- Whether a group's addresses go into the query: there is one, they are not too many, and
every data source of the group has one. -/
def addressesApply (limit : ℤ) (addresses : List (Option String)) : Bool :=
  !addresses.isEmpty && !decide (limit < addresses.length) &&
    (addresses.filter fun v => (truthy v).isNone).isEmpty

/-- Addresses that are all truthy are the valid ones. -/
theorem eq_map_some_validAddresses (addresses : List (Option String))
    (h : ∀ a ∈ addresses, (truthy a).isSome = true) :
    addresses = (validAddresses addresses).map some := by
  induction addresses with
  | nil => rfl
  | cons a rest ih =>
    have hrest := ih fun b hb => h b (List.mem_cons_of_mem a hb)
    obtain ⟨b, hb⟩ := Option.isSome_iff_exists.mp (h a List.mem_cons_self)
    have ha : a = some b := ((truthy_eq_some a b).mp hb).1
    have hvalid : validAddresses (a :: rest) = b :: validAddresses rest := by
      rw [validAddresses, List.filterMap_cons, hb]
      rfl
    rw [hvalid, List.map_cons, ← hrest, ha]

/-- Addresses that go into the query are all truthy, and there is one. -/
theorem addressesApply_spec (limit : ℤ) (addresses : List (Option String))
    (h : addressesApply limit addresses = true) :
    addresses = (validAddresses addresses).map some ∧ validAddresses addresses ≠ [] := by
  simp only [addressesApply, Bool.and_eq_true, Bool.not_eq_eq_eq_not, Bool.not_true,
    List.isEmpty_eq_false_iff, List.isEmpty_iff, List.filter_eq_nil_iff] at h
  have hall : ∀ a ∈ addresses, (truthy a).isSome = true := by
    intro a ha
    have hnot := h.2 a ha
    cases ht : truthy a with
    | none => exact absurd (by rw [ht]; rfl) hnot
    | some b => rfl
  have heq := eq_map_some_validAddresses addresses hall
  refine ⟨heq, fun hnil => ?_⟩
  rw [hnil] at heq
  exact h.1.1 heq

/-- Adds the addresses to the query conditions if valid. -/
def applyAddresses (p : Platform) (limit : ℤ) (addresses : List (Option String)) :
    List DictionaryQueryCondition :=
  if addressesApply limit addresses then
    let filterAddresses := (validAddresses addresses).map p.toLowerCase
    if addresses.length = 1 then
      [⟨"address", .text (filterAddresses.headD ""), .equalTo⟩]
    else [⟨"address", .texts filterAddresses, .isIn⟩]
  else []

/-- When the addresses apply they give one condition, which asks for one address or for one of
several. -/
theorem applyAddresses_cases (p : Platform) (limit : ℤ) (addresses : List (Option String))
    (h : addressesApply limit addresses = true) :
    (∃ a, validAddresses addresses = [a] ∧ applyAddresses p limit addresses =
      [⟨"address", .text (p.toLowerCase a), .equalTo⟩]) ∨
    applyAddresses p limit addresses =
      [⟨"address", .texts ((validAddresses addresses).map p.toLowerCase), .isIn⟩] := by
  have hvalid := (addressesApply_spec limit addresses h).1
  rw [applyAddresses, if_pos h]
  by_cases hone : addresses.length = 1
  · left
    have hlength : (validAddresses addresses).length = 1 := by
      rw [hvalid, List.length_map] at hone
      exact hone
    obtain ⟨a, ha⟩ := List.length_eq_one_iff.mp hlength
    refine ⟨a, ha, ?_⟩
    rw [if_pos hone, ha]
    rfl
  · right
    rw [if_neg hone]

/-- A value is among the lower-cased texts. -/
theorem any_contains_toLowerCase (p : Platform) (value : Option String) (texts : List String) :
    value.any ((texts.map p.toLowerCase).contains ·) = true ↔
      ∃ a ∈ texts, value = some (p.toLowerCase a) := by
  rw [Option.any_eq_true]
  simp only [List.contains_iff_mem, List.mem_map]
  constructor
  · intro hmem
    obtain ⟨x, hx, a, ha, hax⟩ := hmem
    exact ⟨a, ha, by rw [hx, hax]⟩
  · intro hmem
    obtain ⟨a, ha, hx⟩ := hmem
    exact ⟨p.toLowerCase a, hx, a, ha, rfl⟩

def topicField (i : ℕ) : String := "topics" ++ toString i

/-- The conditions of the filter topics from position `i` on. -/
def topicConditions (p : Platform) :
    ℕ → List (Option String) → Except JsError (List DictionaryQueryCondition)
  | _, [] => .ok []
  | i, topic :: rest =>
    match truthy topic with
    | none => topicConditions p (i + 1) rest
    | some t =>
      if t = NOT_NULL_FILTER then do
        let conditions ← topicConditions p (i + 1) rest
        return ⟨topicField i, .flag false, .isNull⟩ :: conditions
      else do
        let value ← eventToTopic p t
        let conditions ← topicConditions p (i + 1) rest
        return ⟨topicField i, .text value, .equalTo⟩ :: conditions

/-- `filter?.topics`, with no topics for a missing filter or field. -/
def filterTopics (filter : Option EthereumLogFilter) : List (Option String) :=
  (filter.bind (·.topics)).getD []

def eventFilterToQueryEntry (p : Platform) (limit : ℤ) (filter : Option EthereumLogFilter)
    (addresses : List (Option String)) : Except JsError DictionaryQueryEntry := do
  let topics ← topicConditions p 0 ((filterTopics filter).take 4)
  return ⟨.evmLogs, applyAddresses p limit addresses ++ topics⟩

/-- A condition on `address` becomes one on `to`. -/
def renameAddress (c : DictionaryQueryCondition) : DictionaryQueryCondition :=
  if c.field = "address" then { c with field := "to" } else c

/-- The condition on `from`. -/
def fromConditions (p : Platform) (f : EthereumTransactionFilter) :
    List DictionaryQueryCondition :=
  match truthy f.from with
  | some address => [⟨"from", .text (p.toLowerCase address), .equalTo⟩]
  | none => []

/-- The condition on `to`, asked for only when the data sources put none. -/
def toConditions (p : Platform) (f : EthereumTransactionFilter) :
    List DictionaryQueryCondition :=
  match truthy f.to.join with
  | some address => [⟨"to", .text (p.toLowerCase address), .equalTo⟩]
  | none => if f.to = some none then [⟨"to", .flag true, .isNull⟩] else []

/-- The condition on the selector. -/
def functionConditions (p : Platform) (f : EthereumTransactionFilter) :
    Except JsError (List DictionaryQueryCondition) :=
  if f.function = some none ∨ f.function = some (some "0x") then
    .ok [⟨"func", .flag true, .isNull⟩]
  else
    match truthy f.function.join with
    | some signature => do
      let sighash ← functionToSighash p signature
      return [⟨"func", .text sighash, .equalTo⟩]
    | none => .ok []

def callFilterToQueryEntry (p : Platform) (limit : ℤ)
    (filter : Option EthereumTransactionFilter) (addresses : List (Option String)) :
    Except JsError DictionaryQueryEntry :=
  let optionsAddresses := (applyAddresses p limit addresses).map renameAddress
  match filter with
  | none => .ok ⟨.evmTransactions, optionsAddresses⟩
  | some f => do
    let conditions := optionsAddresses ++ fromConditions p f
    let toPart := if conditions.any (·.field = "to") then [] else toConditions p f
    let functionPart ← functionConditions p f
    return ⟨.evmTransactions, conditions ++ toPart ++ functionPart⟩

/-! ### The loop over the groups -/

/-- A handler whose `filter` is falsy. -/
def lacksFilter (handler : SubqlHandler) : Bool :=
  match handler.filterJson with
  | none | some .null | some (.bool false) => true
  | some (.num n) => n = 0
  | some (.str s) => s = ""
  | some _ => false

/-- What one group contributes to the V1 query; `none` is the early return of the empty list. -/
def groupQueryEntries (p : Platform) (limit : ℤ)
    (group : SubqlHandler × List (Option String)) :
    Except JsError (Option (List DictionaryQueryEntry)) :=
  let (handler, addresses) := group
  -- no filters, the dictionary cannot be used
  if lacksFilter handler && addresses.isEmpty then .ok none
  else
    match handler with
    | .base (.block _ filter) =>
      if (filter.bind (·.modulo)).isNone then .ok none else .ok (some [])
    | .base (.call _ filter) =>
      if (filter.all (·.fields.isEmpty)) && (validAddresses addresses).isEmpty then .ok none
      else do
        let entry ← callFilterToQueryEntry p limit filter addresses
        return some [entry]
    | .base (.event _ filter) =>
      if (filterTopics filter).isEmpty && (validAddresses addresses).isEmpty then .ok none
      else do
        let entry ← eventFilterToQueryEntry p limit filter addresses
        return some [entry]
    | .custom _ _ _ => .ok (some [])

/-- The text two entries are compared by. -/
def entryKey (entry : DictionaryQueryEntry) : String :=
  entry.entity.value ++ "|" ++
    stringify (.arr ((sortBy (fun c : DictionaryQueryCondition => c.field) entry.conditions).map
      DictionaryQueryCondition.toJson))

def buildDictionaryV1QueryEntries (p : Platform) (limit : ℤ)
    (dataSources : List SubqlDatasource) : Except JsError (List DictionaryQueryEntry) := do
  match ← collect (groupQueryEntries p limit) (groupedDataSources dataSources) with
  | none => return []
  | some queryEntries => return uniqBy entryKey queryEntries

/-- **The three things a group of a completed loop can do**: contribute nothing, the entry of its
Call filter or the entry of its Event filter. -/
theorem groupQueryEntries_cases (p : Platform) (limit : ℤ) (handler : SubqlHandler)
    (addresses : List (Option String)) (out : List DictionaryQueryEntry)
    (h : groupQueryEntries p limit (handler, addresses) = .ok (some out)) :
    ((∀ name filter, handler ≠ .base (.call name filter)) ∧
        (∀ name filter, handler ≠ .base (.event name filter)) ∧ out = []) ∨
      (∃ name filter entry, handler = .base (.call name filter) ∧
        callFilterToQueryEntry p limit filter addresses = .ok entry ∧ out = [entry]) ∨
      ∃ name filter entry, handler = .base (.event name filter) ∧
        eventFilterToQueryEntry p limit filter addresses = .ok entry ∧ out = [entry] := by
  have hguard : (lacksFilter handler && addresses.isEmpty) = false := by
    cases hg : lacksFilter handler && addresses.isEmpty with
    | false => rfl
    | true =>
      simp only [groupQueryEntries, hg, ↓reduceIte] at h
      exact absurd h (by simp)
  cases handler with
  | custom kind name filter =>
    simp only [groupQueryEntries, hguard, Bool.false_eq_true, ↓reduceIte] at h
    exact .inl ⟨by simp, by simp, (Option.some.inj (Except.ok.inj h)).symm⟩
  | base b =>
    cases b with
    | block name filter =>
      simp only [groupQueryEntries, hguard, Bool.false_eq_true, ↓reduceIte] at h
      split at h
      · exact absurd h (by simp)
      · exact .inl ⟨by simp, by simp, (Option.some.inj (Except.ok.inj h)).symm⟩
    | call name filter =>
      simp only [groupQueryEntries, hguard, Bool.false_eq_true, ↓reduceIte] at h
      split at h
      · exact absurd h (by simp)
      · obtain ⟨entry, he, hout⟩ := ok_of_bind_ok h
        exact .inr (.inl ⟨name, filter, entry, rfl, he,
          (Option.some.inj (Except.ok.inj hout)).symm⟩)
    | event name filter =>
      simp only [groupQueryEntries, hguard, Bool.false_eq_true, ↓reduceIte] at h
      split at h
      · exact absurd h (by simp)
      · obtain ⟨entry, he, hout⟩ := ok_of_bind_ok h
        exact .inr (.inr ⟨name, filter, entry, rfl, he,
          (Option.some.inj (Except.ok.inj hout)).symm⟩)

/-! ### What making the entries unique keeps -/

theorem conditionValue_toJson_injective : Function.Injective ConditionValue.toJson := by
  have hstr : Function.Injective Json.str := fun _ _ h => Json.str.inj h
  intro a b h
  cases a <;> cases b <;>
    simp_all [ConditionValue.toJson, (List.map_injective_iff.mpr hstr).eq_iff]

theorem condition_toJson_injective : Function.Injective DictionaryQueryCondition.toJson := by
  intro a b h
  obtain ⟨fa, va, ma⟩ := a
  obtain ⟨fb, vb, mb⟩ := b
  have hmatcher : ma.value = mb.value → ma = mb := by cases ma <;> cases mb <;> decide
  simp only [DictionaryQueryCondition.toJson, Json.obj.injEq, List.cons.injEq, Prod.mk.injEq,
    Json.str.injEq, true_and, and_true] at h
  rw [h.1, conditionValue_toJson_injective h.2.1, hmatcher h.2.2]

/-- **Entries with one key ask for the same**: the same entity under the same conditions, up to
their order. -/
theorem entryKey_eq (a b : DictionaryQueryEntry) (h : entryKey a = entryKey b) :
    a.entity = b.entity ∧ a.conditions.Perm b.conditions := by
  have hlist := congrArg String.toList h
  have hsplit : a.entity = b.entity ∧
      sortBy (fun c : DictionaryQueryCondition => c.field) a.conditions =
        sortBy (fun c : DictionaryQueryCondition => c.field) b.conditions := by
    have htext : a.entity = b.entity ∧
        stringify (.arr ((sortBy (fun c : DictionaryQueryCondition => c.field)
          a.conditions).map DictionaryQueryCondition.toJson)) =
        stringify (.arr ((sortBy (fun c : DictionaryQueryCondition => c.field)
          b.conditions).map DictionaryQueryCondition.toJson)) := by
      simp only [entryKey, String.toList_append] at hlist
      cases ha : a.entity <;> cases hb : b.entity <;>
        simp_all [Entity.value, String.toList_inj]
    refine ⟨htext.1, List.map_injective_iff.mpr condition_toJson_injective ?_⟩
    exact Json.arr.inj (stringify_injective htext.2)
  refine ⟨hsplit.1, ?_⟩
  have ha := sortBy_perm (fun c : DictionaryQueryCondition => c.field) a.conditions
  have hb := sortBy_perm (fun c : DictionaryQueryCondition => c.field) b.conditions
  rw [hsplit.2] at ha
  exact ha.symm.trans hb

/-- A query that is not empty came out of a completed loop. -/
theorem buildV1_collected (p : Platform) (limit : ℤ) (dataSources : List SubqlDatasource)
    (entries : List DictionaryQueryEntry)
    (h : buildDictionaryV1QueryEntries p limit dataSources = .ok entries) (hne : entries ≠ []) :
    ∃ queryEntries,
      collect (groupQueryEntries p limit) (groupedDataSources dataSources) =
        .ok (some queryEntries) ∧ entries = uniqBy entryKey queryEntries := by
  rw [buildDictionaryV1QueryEntries] at h
  obtain ⟨result, hc, h⟩ := ok_of_bind_ok h
  cases result with
  | none => exact absurd (Except.ok.inj h).symm hne
  | some queryEntries => exact ⟨queryEntries, hc, (Except.ok.inj h).symm⟩

/-- **Each group's entry is asked for**: a usable query has, for every group, entries with the
conditions the group contributed. -/
theorem buildV1_group (p : Platform) (limit : ℤ) (dataSources : List SubqlDatasource)
    (entries : List DictionaryQueryEntry)
    (h : buildDictionaryV1QueryEntries p limit dataSources = .ok entries) (hne : entries ≠ [])
    (group : SubqlHandler × List (Option String)) (hg : group ∈ groupedDataSources dataSources) :
    ∃ out, groupQueryEntries p limit group = .ok (some out) ∧
      ∀ e ∈ out, ∃ kept ∈ entries, kept.entity = e.entity ∧ kept.conditions.Perm e.conditions := by
  obtain ⟨queryEntries, hc, rfl⟩ := buildV1_collected p limit dataSources entries h hne
  obtain ⟨out, hout, hin⟩ := collect_mem _ _ _ hc group hg
  refine ⟨out, hout, fun e he => ?_⟩
  obtain ⟨kept, hkept, hkey⟩ := exists_mem_uniqBy entryKey queryEntries e (hin e he)
  exact ⟨kept, hkept, entryKey_eq kept e hkey⟩

/-- **Every entry was contributed by a group.** -/
theorem buildV1_origin (p : Platform) (limit : ℤ) (dataSources : List SubqlDatasource)
    (entries : List DictionaryQueryEntry)
    (h : buildDictionaryV1QueryEntries p limit dataSources = .ok entries)
    (e : DictionaryQueryEntry) (he : e ∈ entries) :
    ∃ group ∈ groupedDataSources dataSources, ∃ out,
      groupQueryEntries p limit group = .ok (some out) ∧ e ∈ out := by
  obtain ⟨queryEntries, hc, rfl⟩ :=
    buildV1_collected p limit dataSources entries h (List.ne_nil_of_mem he)
  exact collect_origin _ _ _ hc e (mem_of_mem_uniqBy entryKey queryEntries e he)

end SubqlEthereum.Dictionary
