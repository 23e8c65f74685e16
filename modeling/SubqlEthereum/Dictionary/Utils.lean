import SubqlEthereum.Library.Grouping
import SubqlEthereum.Project
import SubqlEthereum.Strings

/-!
# Grouping the handlers of all data sources

`groupedDataSources` of `dictionary/utils.ts`: every handler of every data source, paired with
the address of its data source, is put in the group of its kind and of the JSON text of its
filter; a group is the first handler that fell into it and the distinct addresses.

The key is a string.  `handlerKey_base` says what it separates: two base handlers fall into one
group exactly when kind and filter agree.  The remaining lemmas read a group both ways: every
handler of every data source is represented, with its address (`exists_group`), and every
address of a group comes from such a handler (`mem_groupedDataSources`).
-/

namespace SubqlEthereum.Dictionary

open SubqlEthereum.JsonText SubqlEthereum.Grouping SubqlEthereum.Project SubqlEthereum.Strings

/-- `JSON.stringify(filter)` inside a template string, where a missing filter prints as
`undefined`. -/
def filterText : Option Json → String
  | some j => stringify j
  | none => "undefined"

/-- The grouping key `kind:filter`. -/
def handlerKey (handler : SubqlHandler) : String :=
  handler.kind ++ ":" ++ filterText handler.filterJson

/-- Every handler with the address of its data source. -/
def addressHandlers (dataSources : List SubqlDatasource) :
    List (Option String × SubqlHandler) :=
  dataSources.flatMap fun ds => ds.handlers.map fun h => (ds.address, h)

/-- The unique handlers and the contract addresses that go with them. -/
def groupedDataSources (dataSources : List SubqlDatasource) :
    List (SubqlHandler × List (Option String)) :=
  (groupBy (fun ah => handlerKey ah.2) (addressHandlers dataSources)).filterMap
    fun (_, group) => group.head?.map fun first => (first.2, uniq (group.map Prod.fst))

/-- The addresses that are neither `undefined`, `null` nor empty. -/
def validAddresses (addresses : List (Option String)) : List String :=
  addresses.filterMap truthy

theorem mem_validAddresses (addresses : List (Option String)) (a : String) :
    a ∈ validAddresses addresses ↔ some a ∈ addresses ∧ a ≠ "" := by
  simp only [validAddresses, List.mem_filterMap, truthy_eq_some]
  constructor
  · intro h
    obtain ⟨_, ha, rfl, hne⟩ := h
    exact ⟨ha, hne⟩
  · intro h
    obtain ⟨ha, hne⟩ := h
    exact ⟨_, ha, rfl, hne⟩

/-! ### What the key separates -/

theorem filterText_injective : Function.Injective filterText := by
  have hundefined : ∀ j, stringify j ≠ "undefined" := by
    intro j h
    have hchars : chars j ++ [] = 'u' :: "ndefined".toList := by
      have hlist := congrArg String.toList h
      rwa [stringify, String.toList_ofList, ← List.append_nil (chars j)] at hlist
    exact chars_ne_of_shapeOfHead j 'u' _ _ (by decide) hchars
  intro a b h
  cases a with
  | none =>
    cases b with
    | none => rfl
    | some j => exact absurd h.symm (hundefined j)
  | some i =>
    cases b with
    | none => exact absurd h (hundefined i)
    | some j => rw [stringify_injective h]

theorem kind_append_inj (a b : EthereumHandlerKind) (s t : String)
    (h : a.value ++ ":" ++ s = b.value ++ ":" ++ t) : a = b ∧ s = t := by
  have hlist := congrArg String.toList h
  simp only [String.toList_append] at hlist
  cases a <;> cases b <;>
    simp_all [EthereumHandlerKind.value]

/-- **Base handlers with one key have the same kind and the same filter.** -/
theorem handlerKey_base (a b : SubqlRuntimeHandler)
    (h : handlerKey (.base a) = handlerKey (.base b)) :
    a.kind = b.kind ∧ a.filterJson = b.filterJson := by
  obtain ⟨hkind, htext⟩ := kind_append_inj a.kind b.kind _ _ h
  exact ⟨hkind, filterText_injective htext⟩

/-! ### Reading a group -/

theorem mem_addressHandlers (dataSources : List SubqlDatasource) (a : Option String)
    (h : SubqlHandler) : (a, h) ∈ addressHandlers dataSources ↔
      ∃ ds ∈ dataSources, h ∈ ds.handlers ∧ ds.address = a := by
  simp [addressHandlers]

/-- A group is its first handler and the addresses of the handlers with the same key. -/
theorem mem_groupedDataSources (dataSources : List SubqlDatasource) (h : SubqlHandler)
    (addresses : List (Option String)) (hg : (h, addresses) ∈ groupedDataSources dataSources) :
    (∃ ds ∈ dataSources, h ∈ ds.handlers ∧ ds.address ∈ addresses) ∧
      ∀ a, a ∈ addresses ↔ ∃ ds ∈ dataSources, ∃ h' ∈ ds.handlers,
        handlerKey h' = handlerKey h ∧ ds.address = a := by
  obtain ⟨⟨k, group⟩, hgroup, hfirst⟩ := List.mem_filterMap.mp hg
  obtain ⟨first, hhead, hpair⟩ := Option.map_eq_some_iff.mp hfirst
  obtain ⟨rfl, rfl⟩ := Prod.mk.inj hpair
  obtain ⟨-, hmem⟩ := groupBy_group _ _ k group hgroup
  have hfirstMem : first ∈ group := List.mem_of_mem_head? hhead
  obtain ⟨hfirstAll, hfirstKey⟩ := hmem first hfirstMem
  have hall : group = (addressHandlers dataSources).filter fun ah => handlerKey ah.2 = k :=
    ((mem_groupBy _ _ k group).mp hgroup).2
  constructor
  · obtain ⟨ds, hds, hh, haddr⟩ := (mem_addressHandlers dataSources first.1 first.2).mp hfirstAll
    refine ⟨ds, hds, hh, ?_⟩
    rw [mem_uniq, haddr]
    exact List.mem_map_of_mem hfirstMem
  · intro a
    rw [mem_uniq, List.mem_map]
    constructor
    · rintro ⟨⟨a', h'⟩, hah, rfl⟩
      obtain ⟨hin, hkey⟩ := hmem _ hah
      obtain ⟨ds, hds, hh', haddr⟩ := (mem_addressHandlers dataSources a' h').mp hin
      exact ⟨ds, hds, h', hh', by rw [hfirstKey]; exact hkey, haddr⟩
    · intro h
      obtain ⟨ds, hds, h', hh', hkey, haddr⟩ := h
      refine ⟨(a, h'), ?_, rfl⟩
      rw [hall, List.mem_filter]
      refine ⟨(mem_addressHandlers dataSources a h').mpr ⟨ds, hds, hh', haddr⟩, ?_⟩
      rw [← hfirstKey, ← hkey]
      exact decide_eq_true rfl

/-- **Every handler is represented**: some group has its key, and its address among the group's
addresses. -/
theorem exists_group (dataSources : List SubqlDatasource) (ds : SubqlDatasource)
    (hds : ds ∈ dataSources) (h : SubqlHandler) (hh : h ∈ ds.handlers) :
    ∃ g ∈ groupedDataSources dataSources, handlerKey g.1 = handlerKey h ∧ ds.address ∈ g.2 := by
  have hah := (mem_addressHandlers dataSources ds.address h).mpr ⟨ds, hds, hh, rfl⟩
  obtain ⟨group, hgroup, hin⟩ :=
    exists_mem_groupBy (fun ah => handlerKey ah.2) (addressHandlers dataSources) _ hah
  obtain ⟨hne, hmem⟩ := groupBy_group _ _ _ group hgroup
  obtain ⟨first, rest, hfirst⟩ := List.exists_cons_of_ne_nil hne
  refine ⟨(first.2, uniq (group.map Prod.fst)), List.mem_filterMap.mpr ⟨_, hgroup, ?_⟩, ?_, ?_⟩
  · rw [hfirst]
    rfl
  · exact (hmem first (by rw [hfirst]; exact List.mem_cons_self)).2
  · rw [mem_uniq]
    exact List.mem_map_of_mem hin

/-! ### Runtime data sources -/

/-- The data sources of a list that are all of kind `ethereum/Runtime`. -/
def runtimeDataSources (dataSources : List SubqlRuntimeDatasource) : List SubqlDatasource :=
  dataSources.map .runtime

/-- A group among runtime data sources is headed by a handler of one of them. -/
theorem runtime_group_source (dataSources : List SubqlRuntimeDatasource)
    (group : SubqlHandler × List (Option String))
    (hg : group ∈ groupedDataSources (runtimeDataSources dataSources)) :
    ∃ ds ∈ dataSources, ∃ b ∈ ds.handlers, group.1 = .base b ∧ ds.address ∈ group.2 := by
  obtain ⟨⟨ds, hds, hh, haddr⟩, -⟩ := mem_groupedDataSources _ group.1 group.2 hg
  obtain ⟨r, hr, rfl⟩ := List.mem_map.mp hds
  obtain ⟨b, hb, heq⟩ := List.mem_map.mp hh
  exact ⟨r, hr, b, hb, heq.symm, haddr⟩

/-- The group of a base handler among runtime data sources: its first handler has the same kind
and the same filter. -/
theorem exists_runtime_group (dataSources : List SubqlRuntimeDatasource)
    (ds : SubqlRuntimeDatasource) (hds : ds ∈ dataSources) (h : SubqlRuntimeHandler)
    (hh : h ∈ ds.handlers) :
    ∃ b addresses, (SubqlHandler.base b, addresses) ∈
        groupedDataSources (runtimeDataSources dataSources) ∧
      b.kind = h.kind ∧ b.filterJson = h.filterJson ∧ ds.address ∈ addresses := by
  obtain ⟨⟨g, addresses⟩, hg, hkey, haddr⟩ := exists_group (runtimeDataSources dataSources)
    (.runtime ds) (List.mem_map_of_mem hds) (.base h) (List.mem_map_of_mem hh)
  obtain ⟨r, -, b, -, hbase, -⟩ := runtime_group_source dataSources _ hg
  have hgb : g = .base b := hbase
  subst hgb
  obtain ⟨hkind, hfilter⟩ := handlerKey_base b h hkey
  exact ⟨b, addresses, hg, hkind, hfilter, haddr⟩

/-- The representative of an Event handler's group has the handler's own filter. -/
theorem event_representative (b : SubqlRuntimeHandler) (handler : String)
    (filter : Option EthereumLogFilter)
    (hkind : b.kind = (SubqlRuntimeHandler.event handler filter).kind)
    (hjson : b.filterJson = (SubqlRuntimeHandler.event handler filter).filterJson) :
    ∃ name, b = .event name filter := by
  rcases runtimeHandler_filter_eq b _ hkind hjson with h | h | h
  · obtain ⟨m, n, f, -, hcontra⟩ := h
    exact absurd hcontra (by simp)
  · obtain ⟨m, n, f, -, hcontra⟩ := h
    exact absurd hcontra (by simp)
  · obtain ⟨m, n, f, hm, hn⟩ := h
    have hf : filter = f := (SubqlRuntimeHandler.event.inj hn).2
    exact ⟨m, by rw [hm, hf]⟩

end SubqlEthereum.Dictionary
