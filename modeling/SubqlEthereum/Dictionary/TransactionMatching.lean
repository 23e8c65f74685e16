import SubqlEthereum.Dictionary.TransactionCoverage

/-!
# What the dictionaries ask of a transaction

An entry of the V1 query matches a transaction when all its conditions do, a condition of the V2
query when all its keys do.  `callFilterToQueryEntry_lets` and
`callFilterToDictionaryCondition_lets` bring both into the form of `TransactionCoverage`, and
`dictionaries_cover_transactions_iff` says when the queries miss no transaction the runtime
filter would accept.

They do miss some.  A handler without a filter accepts the calls of every contract, but the
queries ask for those to the data source's address; a filter with a `to` of its own is compared
with that by the runtime and with the address by the queries; and a hex function filter that is
not four bytes long is a text to start with for the runtime and a selector for the queries.
-/

namespace SubqlEthereum.TransactionCoverage

open SubqlEthereum.External SubqlEthereum.Project SubqlEthereum.Strings SubqlEthereum.Blocks
open SubqlEthereum.BlockEthereum SubqlEthereum.Boxes SubqlEthereum.Fallible
open SubqlEthereum.Dictionary (Matcher ConditionValue DictionaryQueryCondition
  DictionaryQueryEntry addressesApply addressesApply_spec validAddresses groupedDataSources
  runtimeDataSources fromConditions toConditions functionConditions renameAddress
  callFilterToQueryEntry buildDictionaryV1QueryEntries buildV1_group buildV1_origin
  groupQueryEntries_cases)
open SubqlEthereum.DictionaryV2 (EthDictionaryTxConditions EthDictionaryV2QueryEntry
  V2MetadataFilters available setValue toArray fromArray funcArray
  callFilterToDictionaryCondition buildDictionaryV2QueryEntry takesPart mem_transactions_iff
  built_of_takesPart)

/-! ### Matching -/

def matchesV1Condition (p : Platform) (tx : EthereumTransaction)
    (c : DictionaryQueryCondition) : Bool :=
  match c.matcher, c.value with
  | .equalTo, .text value =>
    if c.field = "to" then tx.to.map p.toLowerCase = some value
    else if c.field = "from" then tx.from.map p.toLowerCase = some value
    else c.field = "func" && selector tx.input = value
  | .isIn, .texts values => c.field = "to" && (tx.to.map p.toLowerCase).any (values.contains ·)
  | .isNull, .flag true =>
    if c.field = "to" then tx.to.isNone else c.field = "func" && tx.input = "0x"
  | _, _ => false

/-- An entry of the V1 query matches when all its conditions hold. -/
def matchesV1 (p : Platform) (tx : EthereumTransaction) (entry : DictionaryQueryEntry) : Bool :=
  entry.entity = .evmTransactions && entry.conditions.all (matchesV1Condition p tx)

/-- A key of the V2 query matches when it has no values or one of them is the transaction's. -/
def matchesV2Field (p : Platform) (tx : EthereumTransaction)
    (field : String × List (Option String)) : Bool :=
  field.2.isEmpty ||
    if field.1 = "to" then field.2.contains (tx.to.map p.toLowerCase)
    else if field.1 = "from" then field.2.contains (tx.from.map p.toLowerCase)
    else if field.1 = "data" then field.2.contains (some (selector tx.input))
    else field.1 = "type" && field.2.contains (some tx.type)

def matchesV2 (p : Platform) (tx : EthereumTransaction) (c : EthDictionaryTxConditions) : Bool :=
  c.fields.all (matchesV2Field p tx)

/-! ### The queries as boxes -/

/-- The values an address test asks for. -/
def testSide (p : Platform) : AddressTest → Side (Option String)
  | .any => none
  | .absent => some [none]
  | .is address => some [some (p.toLowerCase address)]

/-- The values the merged addresses of a group ask for. -/
def addressesSide (p : Platform) (addresses : List (Option String)) : Side (Option String) :=
  some ((validAddresses addresses).map fun a => some (p.toLowerCase a))

def typeSide (type : Option String) : Side (Option String) := type.map fun t => [some t]

/-- The test of the selector in the V1 query. -/
def functionMatchesV1 (p : Platform) (filter : Option EthereumTransactionFilter)
    (input : String) : Bool :=
  match filter.bind (·.function) with
  | none => true
  | some none => input = "0x"
  | some (some signature) =>
    if signature = "0x" then input = "0x"
    else if signature = "" then true
    else
      match functionToSighash p signature with
      | .ok sighash => selector input = sighash
      | .error _ => false

/-- What the V1 query asks for a Call group: the addresses, when they apply, replace the
filter's own `to`. -/
def queryV1 (p : Platform) (limit : ℤ) (filter : Option EthereumTransactionFilter)
    (addresses : List (Option String)) : TransactionQuery where
  sides
    | .recipient =>
      if addressesApply limit addresses then addressesSide p addresses
      else testSide p (recipientTest filter none)
    | .sender => testSide p (senderTest filter)
    | .type => none
  input := functionMatchesV1 p filter

/-- The filter's own `to` in the V2 query, where the empty text is a value like any other. -/
def ownRecipientV2 (filter : Option EthereumTransactionFilter) : AddressTest :=
  match filter.bind (·.to) with
  | none => .any
  | some none => .absent
  | some (some a) => .is a

def functionMatchesV2 (p : Platform) (filter : Option EthereumTransactionFilter)
    (input : String) : Bool :=
  match truthy (filter.bind (·.function)).join with
  | none => true
  | some signature =>
    match functionToSighash p signature with
    | .ok sighash => selector input = sighash
    | .error _ => false

/-- What the V2 query asks for a Call group, by the filters the dictionary has. -/
def queryV2 (p : Platform) (limit : ℤ) (filter : Option EthereumTransactionFilter)
    (addresses : List (Option String)) (availableFilters : Option (List String)) :
    TransactionQuery where
  sides
    | .recipient =>
      if available availableFilters "to" then
        if addressesApply limit addresses then addressesSide p addresses
        else testSide p (ownRecipientV2 filter)
      else none
    | .sender =>
      if available availableFilters "from" then testSide p (senderTest filter) else none
    | .type => if available availableFilters "type" then typeSide (typeTest filter) else none
  input := fun input => !available availableFilters "data" || functionMatchesV2 p filter input

/-! ### The V1 entry of a Call group -/

theorem addressesSide_admits (p : Platform) (addresses : List (Option String))
    (a : Option String) :
    (addressesSide p addresses).Admits a ↔
      ∃ b ∈ validAddresses addresses, a = some (p.toLowerCase b) := by
  rw [addressesSide, Side.admits_some, List.mem_map]
  constructor
  · intro h
    obtain ⟨b, hb, hba⟩ := h
    exact ⟨b, hb, hba.symm⟩
  · intro h
    obtain ⟨b, hb, hba⟩ := h
    exact ⟨b, hb, hba.symm⟩

/-- The conditions the addresses give, moved to `to`. -/
theorem addressConditions_match (p : Platform) (limit : ℤ) (addresses : List (Option String))
    (tx : EthereumTransaction) (h : addressesApply limit addresses = true) :
    (∀ c ∈ (Dictionary.applyAddresses p limit addresses).map renameAddress,
      matchesV1Condition p tx c = true) ↔
      (addressesSide p addresses).Admits (tx.to.map p.toLowerCase) := by
  rw [addressesSide_admits]
  rcases Dictionary.applyAddresses_cases p limit addresses h with ⟨a, ha, hone⟩ | hmany
  · simp [hone, ha, renameAddress, matchesV1Condition]
  · rw [hmany, List.map_singleton, List.forall_mem_singleton, ← Dictionary.any_contains_toLowerCase]
    simp only [renameAddress, matchesV1Condition, ↓reduceIte, decide_true, Bool.true_and]

theorem addressConditions_nil (p : Platform) (limit : ℤ) (addresses : List (Option String))
    (h : addressesApply limit addresses = false) :
    (Dictionary.applyAddresses p limit addresses).map renameAddress = [] := by
  simp [Dictionary.applyAddresses, h]

/-- The filter's own `to` is looked at exactly when the addresses do not apply. -/
theorem conditions_ask_to (p : Platform) (limit : ℤ) (addresses : List (Option String))
    (f : EthereumTransactionFilter) :
    ((Dictionary.applyAddresses p limit addresses).map renameAddress ++
      fromConditions p f).any (fun c => c.field = "to") = addressesApply limit addresses := by
  have hfrom : (fromConditions p f).any (fun c => c.field = "to") = false := by
    rw [fromConditions]
    cases truthy f.from <;> rfl
  rw [List.any_append, hfrom, Bool.or_false]
  by_cases h : addressesApply limit addresses = true
  · simp only [Dictionary.applyAddresses, h, ↓reduceIte]
    split <;> simp [renameAddress]
  · have hfalse : addressesApply limit addresses = false := by simpa using h
    rw [addressConditions_nil p limit addresses hfalse, hfalse]
    rfl

theorem testSide_admits (p : Platform) (test : AddressTest) (a : Option String) :
    (testSide p test).Admits (a.map p.toLowerCase) ↔ test.accepts p a = true := by
  cases test with
  | any => simp [testSide, Side.admits_none, AddressTest.accepts]
  | absent => simp [testSide, Side.admits_some, AddressTest.accepts]
  | is address =>
    simp [testSide, Side.admits_some, AddressTest.accepts, stringNormalizedEq_iff]

theorem fromConditions_match (p : Platform) (f : EthereumTransactionFilter)
    (tx : EthereumTransaction) :
    (∀ c ∈ fromConditions p f, matchesV1Condition p tx c = true) ↔
      (testSide p (senderTest (some f))).Admits (tx.from.map p.toLowerCase) := by
  have hsender : senderTest (some f) = AddressTest.ofTruthy f.from := rfl
  rw [testSide_admits, fromConditions, hsender, AddressTest.ofTruthy]
  cases truthy f.from with
  | none => simp [AddressTest.accepts]
  | some a => simp [matchesV1Condition, AddressTest.accepts, stringNormalizedEq_iff]

theorem toConditions_match (p : Platform) (f : EthereumTransactionFilter)
    (tx : EthereumTransaction) :
    (∀ c ∈ toConditions p f, matchesV1Condition p tx c = true) ↔
      (testSide p (recipientTest (some f) none)).Admits (tx.to.map p.toLowerCase) := by
  rw [testSide_admits, toConditions]
  cases hto : f.to with
  | none => simp [recipientTest, hto, AddressTest.ofTruthy, truthy, AddressTest.accepts]
  | some recipient =>
    cases recipient with
    | none => simp [recipientTest, hto, truthy, AddressTest.accepts, matchesV1Condition]
    | some a =>
      have htest : recipientTest (some f) none = AddressTest.ofTruthy (some a) := by
        simp only [recipientTest, hto]
      rw [htest, AddressTest.ofTruthy, Option.join_some]
      cases truthy (some a) with
      | none => simp [AddressTest.accepts]
      | some b => simp [matchesV1Condition, AddressTest.accepts, stringNormalizedEq_iff]

theorem functionConditions_match (p : Platform) (f : EthereumTransactionFilter)
    (tx : EthereumTransaction) (conditions : List DictionaryQueryCondition)
    (h : functionConditions p f = .ok conditions) :
    (∀ c ∈ conditions, matchesV1Condition p tx c = true) ↔
      functionMatchesV1 p (some f) tx.input = true := by
  have hbind : (some f).bind (·.function) = f.function := rfl
  rw [functionConditions] at h
  rw [functionMatchesV1, hbind]
  cases hfun : f.function with
  | none =>
    simp only [hfun, truthy] at h
    have hnil : conditions = [] := by simpa using (Except.ok.inj h).symm
    simp [hnil]
  | some value =>
    cases value with
    | none =>
      simp only [hfun, true_or, ↓reduceIte] at h
      have hone : conditions = [⟨"func", .flag true, .isNull⟩] := (Except.ok.inj h).symm
      simp [hone, matchesV1Condition]
    | some signature =>
      by_cases h0x : signature = "0x"
      · simp only [hfun, h0x, or_true, ↓reduceIte] at h
        have hone : conditions = [⟨"func", .flag true, .isNull⟩] := (Except.ok.inj h).symm
        simp [hone, h0x, matchesV1Condition]
      · by_cases hempty : signature = ""
        · have htruthy : truthy (some signature) = none :=
            (truthy_eq_none _).mpr (.inr (by rw [hempty]))
          simp only [hfun, Option.some.injEq, h0x, Option.join_some, htruthy] at h
          have hnil : conditions = [] := by simpa using (Except.ok.inj h).symm
          simp [hnil, hempty]
        · have htruthy : truthy (some signature) = some signature :=
            (truthy_eq_some _ _).mpr ⟨rfl, hempty⟩
          simp only [hfun, Option.some.injEq, h0x, reduceCtorEq, or_self, ↓reduceIte,
            Option.join_some, htruthy] at h
          obtain ⟨sighash, hs, hconditions⟩ := ok_of_bind_ok h
          have hone : conditions = [⟨"func", .text sighash, .equalTo⟩] :=
            (Except.ok.inj hconditions).symm
          simp [hone, h0x, hempty, hs, matchesV1Condition]

/-- The parts of a box, one by one. -/
theorem covers_point (p : Platform) (tx : EthereumTransaction)
    (sides : Part → Side (Option String)) :
    Covers sides (point p tx) ↔ (sides .recipient).Admits (tx.to.map p.toLowerCase) ∧
      (sides .sender).Admits (tx.from.map p.toLowerCase) ∧
      (sides .type).Admits (some tx.type) := by
  constructor
  · intro h
    exact ⟨h .recipient, h .sender, h .type⟩
  · intro h i
    cases i with
    | recipient => exact h.1
    | sender => exact h.2.1
    | type => exact h.2.2

/-- **A V1 entry lets through the transactions of its query.** -/
theorem callFilterToQueryEntry_lets (p : Platform) (limit : ℤ)
    (filter : Option EthereumTransactionFilter) (addresses : List (Option String))
    (entry : DictionaryQueryEntry)
    (h : callFilterToQueryEntry p limit filter addresses = .ok entry)
    (tx : EthereumTransaction) :
    matchesV1 p tx entry = true ↔ (queryV1 p limit filter addresses).Lets p tx := by
  have haddresses : (∀ c ∈ (Dictionary.applyAddresses p limit addresses).map renameAddress,
      matchesV1Condition p tx c = true) ↔ (addressesApply limit addresses = true →
        (addressesSide p addresses).Admits (tx.to.map p.toLowerCase)) := by
    by_cases happly : addressesApply limit addresses = true
    · rw [addressConditions_match p limit addresses tx happly]
      exact ⟨fun hadmits _ => hadmits, fun hadmits => hadmits happly⟩
    · rw [addressConditions_nil p limit addresses (by simpa using happly)]
      simp [happly]
  rw [TransactionQuery.Lets, covers_point]
  cases filter with
  | none =>
    rw [callFilterToQueryEntry] at h
    have hentry := (Except.ok.inj h).symm
    simp only [hentry, matchesV1, decide_true, Bool.true_and, List.all_eq_true]
    rw [haddresses]
    simp only [queryV1, recipientTest, senderTest, AddressTest.ofTruthy, Option.bind_none, truthy,
      Option.filter_none, testSide, Side.admits_none, functionMatchesV1, and_true]
    by_cases happly : addressesApply limit addresses = true
    · simp [happly]
    · simp [happly, Side.admits_none]
  | some f =>
    rw [callFilterToQueryEntry] at h
    simp only [conditions_ask_to] at h
    obtain ⟨functionPart, hfunction, hrest⟩ := ok_of_bind_ok h
    have hentry := (Except.ok.inj hrest).symm
    simp only [hentry, matchesV1, decide_true, Bool.true_and, List.all_eq_true,
      List.forall_mem_append]
    rw [haddresses, fromConditions_match, functionConditions_match p f tx functionPart hfunction]
    by_cases happly : addressesApply limit addresses = true
    · simp only [happly, ↓reduceIte, forall_const, queryV1, Side.admits_none, List.not_mem_nil,
        false_implies, and_true]
      simp only [implies_true, and_true, and_assoc]
    · simp only [happly, ↓reduceIte, queryV1, Side.admits_none, Bool.false_eq_true,
        toConditions_match, false_implies, true_and, and_true]
      tauto

/-- The queries of the Call groups in V1. -/
def callQueriesV1 (p : Platform) (limit : ℤ)
    (groups : List (SubqlHandler × List (Option String))) : List TransactionQuery :=
  groups.filterMap fun (handler, addresses) =>
    match handler with
    | .base (.call _ filter) => some (queryV1 p limit filter addresses)
    | _ => none

theorem mem_callQueriesV1 (p : Platform) (limit : ℤ)
    (groups : List (SubqlHandler × List (Option String))) (query : TransactionQuery) :
    query ∈ callQueriesV1 p limit groups ↔ ∃ handler filter addresses,
      (SubqlHandler.base (.call handler filter), addresses) ∈ groups ∧
        query = queryV1 p limit filter addresses := by
  rw [callQueriesV1, List.mem_filterMap]
  constructor
  · intro h
    obtain ⟨⟨handler, addresses⟩, hg, hquery⟩ := h
    cases handler with
    | custom kind name filter => exact absurd hquery (by simp)
    | base b =>
      cases b with
      | call name filter => exact ⟨name, filter, addresses, hg, (Option.some.inj hquery).symm⟩
      | block name filter => exact absurd hquery (by simp)
      | event name filter => exact absurd hquery (by simp)
  · intro h
    obtain ⟨handler, filter, addresses, hg, rfl⟩ := h
    exact ⟨_, hg, rfl⟩

/-- **A usable V1 query lets through what the queries of its Call groups do.** -/
theorem buildV1_lets_iff (p : Platform) (limit : ℤ) (dataSources : List SubqlDatasource)
    (entries : List DictionaryQueryEntry)
    (h : buildDictionaryV1QueryEntries p limit dataSources = .ok entries) (hne : entries ≠ [])
    (tx : EthereumTransaction) :
    (∃ entry ∈ entries, matchesV1 p tx entry = true) ↔
      ∃ query ∈ callQueriesV1 p limit (groupedDataSources dataSources), query.Lets p tx := by
  constructor
  · intro hex
    obtain ⟨entry, hin, hmatch⟩ := hex
    obtain ⟨⟨handler, addresses⟩, hg, out, hout, he⟩ :=
      buildV1_origin p limit dataSources entries h entry hin
    rcases groupQueryEntries_cases p limit handler addresses out hout with
      ⟨-, -, hnil⟩ | ⟨name, filter, e, rfl, hcall, hone⟩ | ⟨name, filter, e, rfl, hevent, hone⟩
    · rw [hnil] at he
      exact absurd he List.not_mem_nil
    · rw [hone, List.mem_singleton] at he
      subst he
      exact ⟨_, (mem_callQueriesV1 _ _ _ _).mpr ⟨name, filter, addresses, hg, rfl⟩,
        (callFilterToQueryEntry_lets p limit filter addresses entry hcall tx).mp hmatch⟩
    · -- an entry on logs matches no transaction
      obtain ⟨topics, -, hentry⟩ := ok_of_bind_ok hevent
      rw [hone, List.mem_singleton] at he
      rw [matchesV1, he, ← Except.ok.inj hentry] at hmatch
      exact absurd hmatch (by simp)
  · intro hex
    obtain ⟨query, hquery, hlets⟩ := hex
    obtain ⟨name, filter, addresses, hg, rfl⟩ := (mem_callQueriesV1 _ _ _ _).mp hquery
    obtain ⟨out, hout, hkept⟩ := buildV1_group p limit dataSources entries h hne _ hg
    rcases groupQueryEntries_cases p limit _ addresses out hout with
      ⟨hnot, -, -⟩ | ⟨name', filter', e, heq, hcall, hone⟩ | ⟨_, _, _, hcontra, -, -⟩
    · exact absurd rfl (hnot name filter)
    · have hfilter : filter = filter' :=
        (SubqlRuntimeHandler.call.inj (SubqlHandler.base.inj heq)).2
      rw [← hfilter] at hcall
      have hmatch := (callFilterToQueryEntry_lets p limit filter addresses e hcall tx).mpr hlets
      obtain ⟨kept, hin, hentity, hperm⟩ := hkept e (by rw [hone]; exact List.mem_singleton_self e)
      refine ⟨kept, hin, ?_⟩
      simp only [matchesV1, Bool.and_eq_true, decide_eq_true_eq, List.all_eq_true] at hmatch ⊢
      exact ⟨hentity.trans hmatch.1, fun c hc => hmatch.2 c (hperm.mem_iff.mp hc)⟩
    · exact absurd hcontra (by simp)

/-! ### The V2 condition of a Call group -/

/-- The side a list of values stands for, where no values ask for nothing. -/
def listSide (values : List (Option String)) : Side (Option String) :=
  if values.isEmpty then none else some values

/-- A key that is set lets through its values. -/
theorem setValue_match (p : Platform) (tx : EthereumTransaction)
    (availableFilters : Option (List String)) (key : String) (values : List (Option String))
    (a : Option String)
    (hkey : ∀ vs, matchesV2Field p tx (key, vs) = (vs.isEmpty || vs.contains a)) :
    (∀ f ∈ setValue availableFilters key values, matchesV2Field p tx f = true) ↔
      (if available availableFilters key then listSide values else none).Admits a := by
  by_cases hav : available availableFilters key = true
  · by_cases hempty : values.isEmpty = true
    · simp [setValue, listSide, hav, hempty, Side.admits_none]
    · simp [setValue, listSide, hav, hempty, hkey, Side.admits_some]
  · simp [setValue, hav, Side.admits_none]

/-- The values asked of `to`.  The addresses are lower-cased twice, which changes nothing. -/
theorem listSide_toArray (p : Platform) (limit : ℤ) (filter : Option EthereumTransactionFilter)
    (addresses : List (Option String)) :
    listSide (toArray p limit filter addresses) =
      if addressesApply limit addresses then addressesSide p addresses
      else testSide p (ownRecipientV2 filter) := by
  by_cases happly : addressesApply limit addresses = true
  · obtain ⟨-, hne⟩ := addressesApply_spec limit addresses happly
    have htoArray : toArray p limit filter addresses =
        (validAddresses addresses).map fun a => some (p.toLowerCase a) := by
      have hnonempty : ((validAddresses addresses).map p.toLowerCase).isEmpty = false := by
        rw [List.isEmpty_eq_false_iff, ne_eq, List.map_eq_nil_iff]
        exact hne
      simp only [toArray, DictionaryV2.applyAddresses, happly, ↓reduceIte, hnonempty,
        Bool.false_eq_true, List.map_map]
      apply List.map_congr_left
      intro a ha
      show some (p.toLowerCase (p.toLowerCase a)) = some (p.toLowerCase a)
      rw [p.toLowerCase_toLowerCase]
    have hfull : (toArray p limit filter addresses).isEmpty = false := by
      rw [htoArray, List.isEmpty_eq_false_iff, ne_eq, List.map_eq_nil_iff]
      exact hne
    rw [listSide, hfull, htoArray, if_pos happly]
    rfl
  · simp only [toArray, DictionaryV2.applyAddresses, happly, Bool.false_eq_true, ↓reduceIte,
      List.isEmpty_nil, ownRecipientV2]
    cases filter.bind (·.to) with
    | none => rfl
    | some recipient => cases recipient <;> rfl

theorem listSide_fromArray (p : Platform) (filter : Option EthereumTransactionFilter) :
    listSide (fromArray p filter) = testSide p (senderTest filter) := by
  rw [fromArray, senderTest, AddressTest.ofTruthy]
  cases truthy (filter.bind (·.from)) <;> rfl

theorem listSide_type (filter : Option EthereumTransactionFilter) :
    listSide ((truthy (filter.bind (·.type))).toList.map some) = typeSide (typeTest filter) := by
  rw [typeTest]
  cases truthy (filter.bind (·.type)) <;> rfl

theorem funcArray_admits (p : Platform) (filter : Option EthereumTransactionFilter)
    (data : List (Option String)) (h : funcArray p filter = .ok data) (input : String) :
    (listSide data).Admits (some (selector input)) ↔ functionMatchesV2 p filter input = true := by
  rw [funcArray] at h
  rw [functionMatchesV2]
  cases htruthy : truthy (filter.bind (·.function)).join with
  | none =>
    rw [htruthy] at h
    have hnil : data = [] := (Except.ok.inj h).symm
    rw [hnil]
    exact iff_of_true (Side.admits_none _) rfl
  | some signature =>
    rw [htruthy] at h
    obtain ⟨sighash, hs, hdata⟩ := ok_of_bind_ok h
    have hone : data = [some sighash] := (Except.ok.inj hdata).symm
    simp [hone, listSide, Side.admits_some, hs]

/-- **A V2 condition lets through the transactions of its query.** -/
theorem callFilterToDictionaryCondition_lets (p : Platform) (limit : ℤ)
    (filter : Option EthereumTransactionFilter) (addresses : List (Option String))
    (availableFilters : Option (List String)) (c : EthDictionaryTxConditions)
    (h : callFilterToDictionaryCondition p limit filter addresses availableFilters = .ok c)
    (tx : EthereumTransaction) :
    matchesV2 p tx c = true ↔ (queryV2 p limit filter addresses availableFilters).Lets p tx := by
  rw [callFilterToDictionaryCondition] at h
  obtain ⟨data, hdata, hfields⟩ := ok_of_bind_ok h
  have hc := (Except.ok.inj hfields).symm
  rw [TransactionQuery.Lets, covers_point, hc, matchesV2]
  simp only [List.all_eq_true, List.forall_mem_append]
  rw [setValue_match p tx _ "to" _ (tx.to.map p.toLowerCase) (fun vs => by rfl),
    setValue_match p tx _ "from" _ (tx.from.map p.toLowerCase) (fun vs => by rfl),
    setValue_match p tx _ "data" _ (some (selector tx.input)) (fun vs => by rfl),
    setValue_match p tx _ "type" _ (some tx.type) (fun vs => by rfl),
    listSide_toArray, listSide_fromArray, listSide_type]
  have hinput : (if available availableFilters "data" then listSide data
      else none).Admits (some (selector tx.input)) ↔
      (!available availableFilters "data" || functionMatchesV2 p filter tx.input) = true := by
    by_cases hav : available availableFilters "data" = true
    · rw [if_pos hav, funcArray_admits p filter data hdata, hav]
      simp
    · simp [hav, Side.admits_none]
  rw [hinput]
  simp only [queryV2]
  tauto

/-- The queries of the Call groups that take part in V2. -/
def callQueriesV2 (p : Platform) (limit : ℤ) (availableFilters : Option (List String))
    (groups : List (SubqlHandler × List (Option String))) : List TransactionQuery :=
  (groups.filter takesPart).filterMap fun (handler, addresses) =>
    match handler with
    | .base (.call _ filter) => some (queryV2 p limit filter addresses availableFilters)
    | _ => none

theorem mem_callQueriesV2 (p : Platform) (limit : ℤ) (availableFilters : Option (List String))
    (groups : List (SubqlHandler × List (Option String))) (query : TransactionQuery) :
    query ∈ callQueriesV2 p limit availableFilters groups ↔ ∃ handler filter addresses,
      (SubqlHandler.base (.call handler filter), addresses) ∈ groups ∧
        takesPart (.base (.call handler filter), addresses) = true ∧
        query = queryV2 p limit filter addresses availableFilters := by
  rw [callQueriesV2, List.mem_filterMap]
  constructor
  · intro h
    obtain ⟨⟨handler, addresses⟩, hin, hquery⟩ := h
    obtain ⟨hg, htakes⟩ := List.mem_filter.mp hin
    cases handler with
    | custom kind name filter => exact absurd hquery (by simp)
    | base b =>
      cases b with
      | call name filter =>
        exact ⟨name, filter, addresses, hg, htakes, (Option.some.inj hquery).symm⟩
      | block name filter => exact absurd hquery (by simp)
      | event name filter => exact absurd hquery (by simp)
  · intro h
    obtain ⟨handler, filter, addresses, hg, htakes, rfl⟩ := h
    exact ⟨_, List.mem_filter.mpr ⟨hg, htakes⟩, rfl⟩

/-- **A usable V2 query lets through what the queries of its Call groups do.** -/
theorem buildV2_lets_iff (p : Platform) (limit : ℤ) (dataSources : List SubqlDatasource)
    (availableFilters : Option V2MetadataFilters) (entry : EthDictionaryV2QueryEntry)
    (h : buildDictionaryV2QueryEntry p limit dataSources availableFilters = .ok entry)
    (husable : entry.usable = true) (tx : EthereumTransaction) :
    (∃ c ∈ entry.transactions.getD [], matchesV2 p tx c = true) ↔
      ∃ query ∈ callQueriesV2 p limit (availableFilters.bind (·.transactions))
        (groupedDataSources dataSources), query.Lets p tx := by
  constructor
  · intro hex
    obtain ⟨c, hc, hmatch⟩ := hex
    rw [mem_transactions_iff p limit dataSources availableFilters entry h husable] at hc
    obtain ⟨name, filter, addresses, hg, htakes, hcondition⟩ := hc
    exact ⟨_, (mem_callQueriesV2 _ _ _ _ _).mpr ⟨name, filter, addresses, hg, htakes, rfl⟩,
      (callFilterToDictionaryCondition_lets p limit filter addresses _ c hcondition tx).mp hmatch⟩
  · intro hex
    obtain ⟨query, hquery, hlets⟩ := hex
    obtain ⟨name, filter, addresses, hg, htakes, rfl⟩ := (mem_callQueriesV2 _ _ _ _ _).mp hquery
    rcases built_of_takesPart p limit dataSources availableFilters entry h husable _ addresses hg
      htakes with ⟨name', filter', c, heq, hcondition⟩ | ⟨_, _, _, hcontra, -⟩
    · have hfilter : filter = filter' :=
        (SubqlRuntimeHandler.call.inj (SubqlHandler.base.inj heq)).2
      rw [← hfilter] at hcondition
      refine ⟨c, ?_, (callFilterToDictionaryCondition_lets p limit filter addresses _ c hcondition
        tx).mpr hlets⟩
      rw [mem_transactions_iff p limit dataSources availableFilters entry h husable]
      exact ⟨name, filter, addresses, hg, htakes, hcondition⟩
    · exact absurd hcontra (by simp)

/-! ### When the queries miss no transaction -/

/-- **When the dictionaries miss no transaction.**  A usable query matches every transaction the
runtime filter of some Call handler accepts if and only if, for every Call handler and every
input its function filter accepts, the query of one Call group has this input and is no narrower
than the handler's runtime filter; both for V1 and for V2. -/
theorem dictionaries_cover_transactions_iff (p : Platform) (limit : ℤ)
    (dataSources : List SubqlRuntimeDatasource) (availableFilters : Option V2MetadataFilters) :
    (∀ entries, buildDictionaryV1QueryEntries p limit (runtimeDataSources dataSources) =
        .ok entries → entries ≠ [] →
      ((∀ ds ∈ dataSources, ∀ handler filter,
        SubqlRuntimeHandler.call handler filter ∈ ds.handlers →
        ∀ tx, filterTransactionsProcessor p tx filter ds.address = .ok true →
          ∃ entry ∈ entries, matchesV1 p tx entry = true) ↔
        ∀ ds ∈ dataSources, ∀ handler filter,
          SubqlRuntimeHandler.call handler filter ∈ ds.handlers →
          ∀ input, functionAccepts p filter input = .ok true →
            ∃ query ∈ callQueriesV1 p limit (groupedDataSources (runtimeDataSources dataSources)),
              query.input input = true ∧ noNarrower p filter ds.address query = true)) ∧
    ∀ entry, buildDictionaryV2QueryEntry p limit (runtimeDataSources dataSources)
        availableFilters = .ok entry → entry.usable = true →
      ((∀ ds ∈ dataSources, ∀ handler filter,
        SubqlRuntimeHandler.call handler filter ∈ ds.handlers →
        ∀ tx, filterTransactionsProcessor p tx filter ds.address = .ok true →
          ∃ c ∈ entry.transactions.getD [], matchesV2 p tx c = true) ↔
        ∀ ds ∈ dataSources, ∀ handler filter,
          SubqlRuntimeHandler.call handler filter ∈ ds.handlers →
          ∀ input, functionAccepts p filter input = .ok true →
            ∃ query ∈ callQueriesV2 p limit (availableFilters.bind (·.transactions))
                (groupedDataSources (runtimeDataSources dataSources)),
              query.input input = true ∧ noNarrower p filter ds.address query = true) := by
  constructor
  · intro entries hbuild hne
    simp only [buildV1_lets_iff p limit _ entries hbuild hne, queries_cover_iff]
  · intro entry hbuild husable
    simp only [buildV2_lets_iff p limit _ availableFilters entry hbuild husable,
      queries_cover_iff]

/-- A data source for one contract whose handler has no filter. -/
def unfilteredCallDs : SubqlRuntimeDatasource where
  options := some { address := some "0xab" }
  handlers := [.call "handleCall" none]

/-- A call to another contract. -/
def foreignCall : EthereumTransaction where
  «to» := some "0xcd"
  input := "0x095ea7b3"

/-- **A handler without a filter accepts calls the queries do not ask for.** -/
theorem dictionaries_miss_transaction :
    filterTransactionsProcessor erc20Platform foreignCall none unfilteredCallDs.address =
        .ok true ∧
      (∃ entries, buildDictionaryV1QueryEntries erc20Platform 100
          (runtimeDataSources [unfilteredCallDs]) = .ok entries ∧ entries ≠ [] ∧
        ¬∃ entry ∈ entries, matchesV1 erc20Platform foreignCall entry = true) ∧
      ∃ entry, buildDictionaryV2QueryEntry erc20Platform 100
          (runtimeDataSources [unfilteredCallDs]) none = .ok entry ∧ entry.usable = true ∧
        ¬∃ c ∈ entry.transactions.getD [], matchesV2 erc20Platform foreignCall c = true := by
  refine ⟨rfl, ?_, ?_⟩
  · exact ⟨[⟨.evmTransactions, [⟨"to", .text "0xab", .equalTo⟩]⟩], rfl, by simp, by decide⟩
  · exact ⟨⟨none, some [⟨[("to", [some "0xab"])]⟩]⟩, rfl, rfl, by decide⟩

/-- A filter for approvals. -/
def approvalsFilter : EthereumTransactionFilter where
  fields := [.function (some "approve(address,uint256)")]
  nodup := by decide

/-- A data source for one contract whose handler is for the approvals. -/
def approvalsDs : SubqlRuntimeDatasource where
  options := some { address := some "0xab" }
  handlers := [.call "handleApprove" (some approvalsFilter)]

/-- An input the filter accepts has the selector of the function. -/
theorem selector_of_approval (input : String)
    (h : functionAccepts erc20Platform (some approvalsFilter) input = .ok true) :
    selector input = "0x095ea7b3" := by
  have hrun : functionAccepts erc20Platform (some approvalsFilter) input =
      .ok ("0x095ea7b3".toList.isPrefixOf input.toList) := rfl
  rw [hrun, Except.ok.injEq, List.isPrefixOf_iff_prefix] at h
  obtain ⟨rest, hrest⟩ := h
  rw [selector, ← hrest]
  rfl

/-- What V1 asks for them. -/
def approvalsEntry : DictionaryQueryEntry :=
  ⟨.evmTransactions, [⟨"to", .text "0xab", .equalTo⟩, ⟨"func", .text "0x095ea7b3", .equalTo⟩]⟩

/-- What V2 asks for them. -/
def approvalsConditions : EthDictionaryTxConditions :=
  ⟨[("to", [some "0xab"]), ("data", [some "0x095ea7b3"])]⟩

/-- **For approvals both conditions hold**: neither query misses a call the handler gets. -/
theorem dictionaries_cover_transactions_approvals :
    (∀ ds ∈ [approvalsDs], ∀ handler filter,
      SubqlRuntimeHandler.call handler filter ∈ ds.handlers →
      ∀ tx, filterTransactionsProcessor erc20Platform tx filter ds.address = .ok true →
        ∃ entry ∈ [approvalsEntry], matchesV1 erc20Platform tx entry = true) ∧
    ∀ ds ∈ [approvalsDs], ∀ handler filter,
      SubqlRuntimeHandler.call handler filter ∈ ds.handlers →
      ∀ tx, filterTransactionsProcessor erc20Platform tx filter ds.address = .ok true →
        ∃ c ∈ [approvalsConditions], matchesV2 erc20Platform tx c = true := by
  have hcover := dictionaries_cover_transactions_iff erc20Platform 100 [approvalsDs] none
  constructor
  · apply (hcover.1 [approvalsEntry] rfl (List.cons_ne_nil _ _)).mpr
    intro ds hds handler filter hin input hinput
    obtain rfl : ds = approvalsDs := List.mem_singleton.mp hds
    obtain ⟨rfl, rfl⟩ := SubqlRuntimeHandler.call.inj (List.mem_singleton.mp hin)
    refine ⟨queryV1 erc20Platform 100 (some approvalsFilter) [some "0xab"],
      List.mem_singleton_self _, ?_, by decide⟩
    exact decide_eq_true (selector_of_approval input hinput)
  · apply (hcover.2 ⟨none, some [approvalsConditions]⟩ rfl rfl).mpr
    intro ds hds handler filter hin input hinput
    obtain rfl : ds = approvalsDs := List.mem_singleton.mp hds
    obtain ⟨rfl, rfl⟩ := SubqlRuntimeHandler.call.inj (List.mem_singleton.mp hin)
    refine ⟨queryV2 erc20Platform 100 (some approvalsFilter) [some "0xab"] none,
      List.mem_singleton_self _, ?_, by decide⟩
    exact decide_eq_true (selector_of_approval input hinput)

end SubqlEthereum.TransactionCoverage
