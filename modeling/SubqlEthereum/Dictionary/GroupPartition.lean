import SubqlEthereum.Dictionary.Utils

/-!
# Grouping is a partition

`groupedDataSources` loses nothing and adds nothing: each handler of each data source is
represented by exactly one group, which has the address of the data source, and each address of a
group stands for such a handler (`groupedDataSources_partition`).
-/

namespace SubqlEthereum.Dictionary

open SubqlEthereum.Grouping SubqlEthereum.Project

/-- The representative of the group has the kind of the handler and a filter of the same text. -/
def Represents (group : SubqlHandler × List (Option String)) (handler : SubqlHandler) : Prop :=
  group.1.kind = handler.kind ∧ filterText group.1.filterJson = filterText handler.filterJson

/-! ### The keys of the groups -/

theorem handlerKey_eq_of_represents {group : SubqlHandler × List (Option String)}
    {handler : SubqlHandler} (h : Represents group handler) :
    handlerKey group.1 = handlerKey handler := by
  rw [handlerKey, handlerKey, h.1, h.2]

/-- Among runtime data sources a group represents the handlers with its key. -/
theorem represents_iff (dataSources : List SubqlRuntimeDatasource)
    (group : SubqlHandler × List (Option String))
    (hg : group ∈ groupedDataSources (runtimeDataSources dataSources))
    (handler : SubqlRuntimeHandler) :
    Represents group (.base handler) ↔ handlerKey group.1 = handlerKey (.base handler) := by
  constructor
  · exact handlerKey_eq_of_represents
  · intro hkey
    obtain ⟨_, _, b, _, hbase, _⟩ := runtime_group_source dataSources group hg
    rw [hbase] at hkey
    obtain ⟨hkind, htext⟩ := kind_append_inj b.kind handler.kind _ _ hkey
    rw [Represents, hbase]
    exact ⟨congrArg EthereumHandlerKind.value hkind, htext⟩

/-- A group comes from a key and the handlers of that key. -/
theorem group_source {dataSources : List SubqlDatasource}
    {group : SubqlHandler × List (Option String)} (hg : group ∈ groupedDataSources dataSources) :
    ∃ members, (handlerKey group.1, members) ∈
        groupBy (fun ah => handlerKey ah.2) (addressHandlers dataSources) ∧
      (members.head?.map fun first => (first.2, uniq (members.map Prod.fst))) = some group := by
  obtain ⟨⟨key, members⟩, hmembers, hfirst⟩ := List.mem_filterMap.mp hg
  obtain ⟨first, hhead, rfl⟩ := Option.map_eq_some_iff.mp hfirst
  have hkey : handlerKey first.2 = key :=
    ((groupBy_group _ _ key members hmembers).2 first (List.mem_of_mem_head? hhead)).2
  exact ⟨members, hkey ▸ hmembers, hfirst⟩

/-- No two groups have the same key. -/
theorem pairwise_handlerKey (dataSources : List SubqlDatasource) :
    (groupedDataSources dataSources).Pairwise fun group other =>
      handlerKey group.1 ≠ handlerKey other.1 := by
  have hkeys := nodup_groupBy (fun ah : Option String × SubqlHandler => handlerKey ah.2)
    (addressHandlers dataSources)
  rw [groupedDataSources, List.pairwise_filterMap]
  rw [List.Nodup, List.pairwise_map] at hkeys
  refine hkeys.imp_of_mem ?_
  rintro ⟨key, members⟩ ⟨key', members'⟩ hmem hmem' hne group hgroup group' hgroup'
  obtain ⟨first, hhead, rfl⟩ := Option.map_eq_some_iff.mp hgroup
  obtain ⟨first', hhead', rfl⟩ := Option.map_eq_some_iff.mp hgroup'
  have hkey := ((groupBy_group _ _ key members hmem).2 first (List.mem_of_mem_head? hhead)).2
  have hkey' :=
    ((groupBy_group _ _ key' members' hmem').2 first' (List.mem_of_mem_head? hhead')).2
  rw [hkey, hkey']
  exact hne

/-- Groups with the same key are the same. -/
theorem group_eq_of_handlerKey {dataSources : List SubqlDatasource}
    {group other : SubqlHandler × List (Option String)}
    (hg : group ∈ groupedDataSources dataSources) (ho : other ∈ groupedDataSources dataSources)
    (h : handlerKey group.1 = handlerKey other.1) : group = other := by
  obtain ⟨members, hmembers, hgroup⟩ := group_source hg
  obtain ⟨members', hmembers', hother⟩ := group_source ho
  rw [h] at hmembers
  have hsame : members = members' :=
    ((mem_groupBy _ _ _ _).mp hmembers).2.trans ((mem_groupBy _ _ _ _).mp hmembers').2.symm
  rw [hsame, hother] at hgroup
  exact (Option.some.inj hgroup).symm

/-- No address occurs twice in a group. -/
theorem nodup_addresses {dataSources : List SubqlDatasource}
    {group : SubqlHandler × List (Option String)}
    (hg : group ∈ groupedDataSources dataSources) : group.2.Nodup := by
  obtain ⟨members, -, hgroup⟩ := group_source hg
  obtain ⟨first, -, rfl⟩ := Option.map_eq_some_iff.mp hgroup
  exact nodup_uniq _

/-! ### The partition -/

/-- **The groups partition the handlers.**  Every handler is represented by exactly one group, with
the address of its data source; every address of a group is that of a data source with a handler
the group represents; no address occurs twice in a group, and no two groups represent the same
handlers. -/
theorem groupedDataSources_partition (dataSources : List SubqlRuntimeDatasource) :
    (∀ ds ∈ dataSources, ∀ handler ∈ ds.handlers,
      ∃ group ∈ groupedDataSources (runtimeDataSources dataSources),
        Represents group (.base handler) ∧ ds.address ∈ group.2 ∧
        ∀ other ∈ groupedDataSources (runtimeDataSources dataSources),
          Represents other (.base handler) → other = group) ∧
    (∀ group ∈ groupedDataSources (runtimeDataSources dataSources), ∀ address ∈ group.2,
      ∃ ds ∈ dataSources, ds.address = address ∧ ∃ handler ∈ ds.handlers,
        Represents group (.base handler)) ∧
    (∀ group ∈ groupedDataSources (runtimeDataSources dataSources), group.2.Nodup) ∧
    (groupedDataSources (runtimeDataSources dataSources)).Pairwise fun group other =>
      ¬ Represents group other.1 := by
  refine ⟨?_, ?_, ?_, ?_⟩
  · intro ds hds handler hhandler
    obtain ⟨group, hg, hkey, haddress⟩ := exists_group (runtimeDataSources dataSources)
      (.runtime ds) (List.mem_map_of_mem hds) (.base handler) (List.mem_map_of_mem hhandler)
    refine ⟨group, hg, (represents_iff dataSources group hg handler).mpr hkey, haddress, ?_⟩
    intro other ho hrepresents
    exact group_eq_of_handlerKey ho hg ((handlerKey_eq_of_represents hrepresents).trans hkey.symm)
  · intro group hg address haddress
    obtain ⟨source, hsource, handler, hhandler, hkey, rfl⟩ :=
      ((mem_groupedDataSources _ group.1 group.2 hg).2 address).mp haddress
    obtain ⟨ds, hds, rfl⟩ := List.mem_map.mp hsource
    obtain ⟨b, hb, rfl⟩ := List.mem_map.mp hhandler
    exact ⟨ds, hds, rfl, b, hb, (represents_iff dataSources group hg b).mpr hkey.symm⟩
  · intro group hg
    exact nodup_addresses hg
  · refine (pairwise_handlerKey _).imp ?_
    intro group other hne hrepresents
    exact hne (handlerKey_eq_of_represents hrepresents)

end SubqlEthereum.Dictionary
