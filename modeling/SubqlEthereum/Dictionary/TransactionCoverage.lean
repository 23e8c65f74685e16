import SubqlEthereum.BlockEthereum
import SubqlEthereum.Library.Boxes
import SubqlEthereum.Dictionary.EthDictionaryV2

/-!
# When the queries miss a transaction

The runtime filter and the two query builders each decide on their own how the address of a data
source and the `to` of a filter go together, and what a function filter means.  Here each of the
three is brought into one form: a test of the recipient, the sender and the type of a
transaction, and a test of its input.

* The runtime filter accepts a box (`runtimeTarget`) for the inputs its function filter accepts.
* An entry of the V1 query, and a condition of the V2 query, lets through a box of listed values
  for the inputs with its selector (`queryV1`, `queryV2`).

The runtime's boxes are tight in the sense of `Boxes`, so the queries cover one of them only when
a single entry does.  That gives the exact condition under which the query misses nothing.

A transaction has the selector of the first four bytes of its input.
-/

namespace SubqlEthereum.TransactionCoverage

open SubqlEthereum.External SubqlEthereum.Project SubqlEthereum.Strings SubqlEthereum.Blocks
open SubqlEthereum.BlockEthereum SubqlEthereum.Boxes SubqlEthereum.Fallible
open SubqlEthereum.Dictionary (Matcher ConditionValue DictionaryQueryCondition
  DictionaryQueryEntry addressesApply validAddresses groupedDataSources runtimeDataSources
  fromConditions toConditions functionConditions renameAddress callFilterToQueryEntry)

/-! ### The parts of a transaction -/

/-- The parts every filter tests on their own. -/
inductive Part
  | recipient
  | sender
  | type
deriving DecidableEq, Repr

/-- What the tests see of a transaction, besides its input. -/
def point (p : Platform) (tx : EthereumTransaction) : Part → Option String
  | .recipient => tx.to.map p.toLowerCase
  | .sender => tx.from.map p.toLowerCase
  | .type => some tx.type

/-- The four-byte selector: `0x` and eight digits, or less for a shorter input. -/
def selector (input : String) : String := String.ofList (input.toList.take 10)

/-- The values an address test accepts, lower-cased. -/
def addressValues (p : Platform) : AddressTest → Set (Option String)
  | .any => Set.range (Option.map p.toLowerCase)
  | .absent => {none}
  | .is address => {some (p.toLowerCase address)}

/-- The values a type test accepts. -/
def typeValues : Option String → Set (Option String)
  | none => Set.range some
  | some t => {some t}

/-- The box the runtime filter accepts, for an input its function filter accepts. -/
def runtimeTarget (p : Platform) (filter : Option EthereumTransactionFilter)
    (address : Option String) : Part → Set (Option String)
  | .recipient => addressValues p (recipientTest filter address)
  | .sender => addressValues p (senderTest filter)
  | .type => typeValues (typeTest filter)

theorem mem_addressValues (p : Platform) (test : AddressTest) (a : Option String) :
    a.map p.toLowerCase ∈ addressValues p test ↔ test.accepts p a = true := by
  cases test with
  | any => simp [addressValues, AddressTest.accepts]
  | absent => simp [addressValues, AddressTest.accepts]
  | is address => simp [addressValues, AddressTest.accepts, stringNormalizedEq_iff]

/-- **The runtime filter accepts a box of transactions** for each input. -/
theorem accepted_iff (p : Platform) (tx : EthereumTransaction)
    (filter : Option EthereumTransactionFilter) (address : Option String) :
    filterTransactionsProcessor p tx filter address = .ok true ↔
      functionAccepts p filter tx.input = .ok true ∧
        ∀ i, point p tx i ∈ runtimeTarget p filter address i := by
  have htype : some tx.type ∈ typeValues (typeTest filter) ↔
      ∀ t ∈ typeTest filter, tx.type = t := by
    cases typeTest filter with
    | none => simp [typeValues]
    | some t => simp [typeValues]
  rw [filterTransactionsProcessor_iff, ← mem_addressValues, ← mem_addressValues, ← htype]
  constructor
  · intro h
    refine ⟨h.2.2.1, fun i => ?_⟩
    cases i with
    | recipient => exact h.1
    | sender => exact h.2.1
    | type => exact h.2.2.2
  · intro h
    exact ⟨h.2 .recipient, h.2 .sender, h.1, h.2 .type⟩

theorem addressValues_tight (p : Platform) (test : AddressTest) : Tight (addressValues p test) := by
  cases test with
  | any =>
    left
    have himage : some '' Set.range p.toLowerCase ⊆ Set.range (Option.map p.toLowerCase) := by
      intro x hx
      obtain ⟨y, ⟨a, rfl⟩, rfl⟩ := hx
      exact ⟨some a, rfl⟩
    exact ((infinite_range_toLowerCase p).image (Option.some_injective _).injOn).mono himage
  | absent => exact .inr ⟨none, rfl⟩
  | is address => exact .inr ⟨some (p.toLowerCase address), rfl⟩

theorem runtimeTarget_tight (p : Platform) (filter : Option EthereumTransactionFilter)
    (address : Option String) (i : Part) : Tight (runtimeTarget p filter address i) := by
  cases i with
  | recipient => exact addressValues_tight p _
  | sender => exact addressValues_tight p _
  | type =>
    show Tight (typeValues (typeTest filter))
    cases typeTest filter with
    | none => exact .inl (Set.infinite_range_of_injective (Option.some_injective _))
    | some t => exact .inr ⟨some t, rfl⟩

/-- Every point of the box is one of a transaction with the given input. -/
theorem exists_transaction (p : Platform) (filter : Option EthereumTransactionFilter)
    (address : Option String) (input : String) (x : Part → Option String)
    (hx : ∀ i, x i ∈ runtimeTarget p filter address i) :
    ∃ tx : EthereumTransaction, tx.input = input ∧ point p tx = x := by
  have haddress : ∀ test : AddressTest, ∀ y ∈ addressValues p test,
      ∃ a : Option String, a.map p.toLowerCase = y := by
    intro test y hy
    cases test with
    | any => exact hy
    | absent => exact ⟨none, (Set.mem_singleton_iff.mp hy).symm⟩
    | is address => exact ⟨some address, (Set.mem_singleton_iff.mp hy).symm⟩
  have htype : ∃ t, some t = x .type := by
    have hin : x .type ∈ typeValues (typeTest filter) := hx .type
    cases ht : typeTest filter with
    | none =>
      rw [ht] at hin
      exact hin
    | some t =>
      rw [ht] at hin
      exact ⟨t, (Set.mem_singleton_iff.mp hin).symm⟩
  obtain ⟨recipient, hrecipient⟩ := haddress _ _ (hx .recipient)
  obtain ⟨sender, hsender⟩ := haddress _ _ (hx .sender)
  obtain ⟨t, ht⟩ := htype
  refine ⟨{ «to» := recipient, «from» := sender, input := input, type := t }, rfl, ?_⟩
  funext i
  cases i with
  | recipient => exact hrecipient
  | sender => exact hsender
  | type => exact ht

/-! ### Queries in general -/

/-- A query: a box of listed values, and a test of the input. -/
structure TransactionQuery where
  sides : Part → Side (Option String)
  input : String → Bool

def TransactionQuery.Lets (query : TransactionQuery) (p : Platform)
    (tx : EthereumTransaction) : Prop :=
  Covers query.sides (point p tx) ∧ query.input tx.input = true

/-- A side that asks for no more than the runtime's address test. -/
def addressWithin (p : Platform) (side : Side (Option String)) : AddressTest → Bool
  | .any => side.isNone
  | .absent => side.all (·.contains none)
  | .is address => side.all (·.contains (some (p.toLowerCase address)))

def typeWithin (side : Side (Option String)) : Option String → Bool
  | none => side.isNone
  | some t => side.all (·.contains (some t))

/-- A query whose box is no narrower than what the runtime filter accepts. -/
def noNarrower (p : Platform) (filter : Option EthereumTransactionFilter)
    (address : Option String) (query : TransactionQuery) : Bool :=
  addressWithin p (query.sides .recipient) (recipientTest filter address) &&
    addressWithin p (query.sides .sender) (senderTest filter) &&
    typeWithin (query.sides .type) (typeTest filter)

theorem admits_all_of_infinite (values : Set (Option String)) (hinf : values.Infinite)
    (side : Side (Option String)) : (∀ a ∈ values, side.Admits a) ↔ side.isNone = true := by
  cases side with
  | none => simp [Side.admits_none]
  | some l =>
    simp only [Side.admits_some, Option.isNone_some, Bool.false_eq_true, iff_false]
    intro hall
    exact hinf ((List.finite_toSet l).subset hall)

theorem admits_singleton (a : Option String) (side : Side (Option String)) :
    (∀ b ∈ ({a} : Set (Option String)), side.Admits b) ↔ side.all (·.contains a) = true := by
  cases side with
  | none => simp [Side.admits_none]
  | some l => simp [Side.admits_some]

theorem addressWithin_iff (p : Platform) (side : Side (Option String)) (test : AddressTest) :
    (∀ a ∈ addressValues p test, side.Admits a) ↔ addressWithin p side test = true := by
  cases test with
  | any =>
    have htight := addressValues_tight p .any
    rcases htight with hinf | ⟨a, ha⟩
    · exact admits_all_of_infinite _ hinf side
    · have hne : (none : Option String) = some (p.toLowerCase "") := by
        have hnone : none ∈ addressValues p .any := ⟨none, rfl⟩
        have hsome : some (p.toLowerCase "") ∈ addressValues p .any := ⟨some "", rfl⟩
        rw [ha, Set.mem_singleton_iff] at hnone hsome
        rw [hnone, hsome]
      exact absurd hne (by simp)
  | absent => exact admits_singleton none side
  | is address => exact admits_singleton _ side

theorem noNarrower_iff (p : Platform) (filter : Option EthereumTransactionFilter)
    (address : Option String) (query : TransactionQuery) :
    (∀ i, ∀ a ∈ runtimeTarget p filter address i, (query.sides i).Admits a) ↔
      noNarrower p filter address query = true := by
  have htype : (∀ a ∈ typeValues (typeTest filter), (query.sides .type).Admits a) ↔
      typeWithin (query.sides .type) (typeTest filter) = true := by
    cases typeTest filter with
    | none =>
      exact admits_all_of_infinite _ (Set.infinite_range_of_injective (Option.some_injective _)) _
    | some t => exact admits_singleton _ _
  rw [noNarrower, Bool.and_eq_true, Bool.and_eq_true, ← addressWithin_iff, ← addressWithin_iff,
    ← htype]
  constructor
  · intro h
    exact ⟨⟨h .recipient, h .sender⟩, h .type⟩
  · intro h i
    cases i with
    | recipient => exact h.1.1
    | sender => exact h.1.2
    | type => exact h.2

/-- **Queries let every accepted transaction through exactly when, for each accepted input, one
query with this input is no narrower than the runtime filter.** -/
theorem queries_cover_iff (p : Platform) (filter : Option EthereumTransactionFilter)
    (address : Option String) (queries : List TransactionQuery) :
    (∀ tx, filterTransactionsProcessor p tx filter address = .ok true →
      ∃ query ∈ queries, query.Lets p tx) ↔
      ∀ input, functionAccepts p filter input = .ok true →
        ∃ query ∈ queries, query.input input = true ∧
          noNarrower p filter address query = true := by
  constructor
  · intro hcovered input hinput
    have hboxes : ∀ x : Part → Option String,
        (∀ i, x i ∈ runtimeTarget p filter address i) →
        ∃ sides ∈ (queries.filter (·.input input)).map (·.sides), Covers sides x := by
      intro x hx
      obtain ⟨tx, htx, hpoint⟩ := exists_transaction p filter address input x hx
      have haccepted : filterTransactionsProcessor p tx filter address = .ok true := by
        rw [accepted_iff, htx, hpoint]
        exact ⟨hinput, hx⟩
      obtain ⟨query, hquery, hcovers, hin⟩ := hcovered tx haccepted
      rw [htx] at hin
      rw [hpoint] at hcovers
      exact ⟨query.sides, List.mem_map_of_mem (List.mem_filter.mpr ⟨hquery, hin⟩), hcovers⟩
    obtain ⟨sides, hsides, hall⟩ :=
      (covered_iff_of_tight _ (runtimeTarget_tight p filter address) _).mp hboxes
    obtain ⟨query, hquery, rfl⟩ := List.mem_map.mp hsides
    obtain ⟨hin, hinputQuery⟩ := List.mem_filter.mp hquery
    exact ⟨query, hin, hinputQuery, (noNarrower_iff p filter address query).mp hall⟩
  · intro hone tx haccepted
    obtain ⟨hinput, hpoint⟩ := (accepted_iff p tx filter address).mp haccepted
    obtain ⟨query, hquery, hin, hwide⟩ := hone tx.input hinput
    have hall := (noNarrower_iff p filter address query).mpr hwide
    exact ⟨query, hquery, fun i => hall i _ (hpoint i), hin⟩

end SubqlEthereum.TransactionCoverage
