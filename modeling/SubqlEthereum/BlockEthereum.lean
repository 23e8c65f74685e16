import SubqlEthereum.Blocks
import SubqlEthereum.Project
import SubqlEthereum.Strings

/-!
# The runtime filters and the shape of a block

`filterTransactionsProcessor`, `filterBlocksProcessor` and `isFullBlock` of `block.ethereum.ts`.
The transaction filter is a chain of early returns.  It tests four parts of the transaction, each
on its own, and `filterTransactionsProcessor_iff` says what each part is compared with: in
particular the address of the data source counts only for a filter that says nothing about `to`.
-/

namespace SubqlEthereum.BlockEthereum

open SubqlEthereum.External SubqlEthereum.Project SubqlEthereum.Strings SubqlEthereum.Blocks

/-! ### Transactions -/

/-- The test of the input: empty for `null` and `0x`, else that it starts with the selector. -/
def functionAccepts (p : Platform) (filter : Option EthereumTransactionFilter)
    (input : String) : Except JsError Bool :=
  match filter.bind (·.function) with
  | none => .ok true
  | some none => .ok (input = "0x")
  | some (some signature) =>
    if signature = "0x" then .ok (input = "0x")
    else do
      let sighash ← functionToSighash p signature
      return sighash.toList.isPrefixOf input.toList

def filterTransactionsProcessor (p : Platform) (transaction : EthereumTransaction)
    (filter : Option EthereumTransactionFilter) (address : Option String) :
    Except JsError Bool :=
  match filter with
  | none => .ok true
  | some f =>
    if f.to = some none ∧ transaction.to ≠ none then .ok false
    else if (truthy f.to.join).any (!stringNormalizedEq p · transaction.to) then .ok false
    else if (truthy f.from).any (!stringNormalizedEq p · transaction.from) then .ok false
    else if f.to = none ∧ (truthy address).any (!stringNormalizedEq p · transaction.to) then
      .ok false
    else do
      let inputAccepted ← functionAccepts p filter transaction.input
      if !inputAccepted then return false
      else if (truthy f.type).any (transaction.type ≠ ·) then return false
      else return true

/-- What a filter asks of an address: nothing, that there is none, or one up to case. -/
inductive AddressTest
  | any
  | absent
  | is (address : String)
deriving DecidableEq, Repr

def AddressTest.accepts (p : Platform) : AddressTest → Option String → Bool
  | .any, _ => true
  | .absent, a => a.isNone
  | .is address, a => stringNormalizedEq p address a

/-- A truthy address has to be met, any other asks for nothing. -/
def AddressTest.ofTruthy (address : Option String) : AddressTest :=
  match truthy address with
  | some a => .is a
  | none => .any

/-- What `to` is compared with: the filter's own value, or the data source's address for a
filter that does not mention `to`. -/
def recipientTest (filter : Option EthereumTransactionFilter) (address : Option String) :
    AddressTest :=
  match filter with
  | none => .any
  | some f =>
    match f.to with
    | some none => .absent
    | some (some a) => AddressTest.ofTruthy (some a)
    | none => AddressTest.ofTruthy address

def senderTest (filter : Option EthereumTransactionFilter) : AddressTest :=
  AddressTest.ofTruthy (filter.bind (·.from))

/-- The transaction type asked for, if one is. -/
def typeTest (filter : Option EthereumTransactionFilter) : Option String :=
  truthy (filter.bind (·.type))

theorem ofTruthy_accepts (p : Platform) (address a : Option String) :
    (AddressTest.ofTruthy address).accepts p a =
      !(truthy address).any (!stringNormalizedEq p · a) := by
  rw [AddressTest.ofTruthy]
  cases truthy address with
  | none => rfl
  | some b => simp [AddressTest.accepts]

/-- **The runtime filter, part by part.** -/
theorem filterTransactionsProcessor_iff (p : Platform) (transaction : EthereumTransaction)
    (filter : Option EthereumTransactionFilter) (address : Option String) :
    filterTransactionsProcessor p transaction filter address = .ok true ↔
      (recipientTest filter address).accepts p transaction.to = true ∧
      (senderTest filter).accepts p transaction.from = true ∧
      functionAccepts p filter transaction.input = .ok true ∧
      ∀ t ∈ typeTest filter, transaction.type = t := by
  cases filter with
  | none =>
    simp [filterTransactionsProcessor, recipientTest, senderTest, functionAccepts, typeTest,
      AddressTest.ofTruthy, AddressTest.accepts, truthy]
  | some f =>
    have hsender : (senderTest (some f)).accepts p transaction.from =
        !(truthy f.from).any (!stringNormalizedEq p · transaction.from) :=
      ofTruthy_accepts p f.from transaction.from
    have hrecipient : (recipientTest (some f) address).accepts p transaction.to = true ↔
        ¬(f.to = some none ∧ transaction.to ≠ none) ∧
          (truthy f.to.join).any (!stringNormalizedEq p · transaction.to) = false ∧
          ¬(f.to = none ∧
            (truthy address).any (!stringNormalizedEq p · transaction.to) = true) := by
      cases hto : f.to with
      | none =>
        simp only [recipientTest, hto, ofTruthy_accepts]
        simp [truthy]
      | some recipient =>
        cases recipient with
        | none => simp [recipientTest, hto, AddressTest.accepts, truthy]
        | some a =>
          simp only [recipientTest, hto, ofTruthy_accepts]
          simp
    have htype : (∀ t ∈ typeTest (some f), transaction.type = t) ↔
        (truthy f.type).any (fun t => decide (transaction.type ≠ t)) = false := by
      show (∀ t ∈ truthy f.type, transaction.type = t) ↔ _
      cases truthy f.type with
      | none => simp
      | some t => simp
    rw [hrecipient, hsender, htype, filterTransactionsProcessor]
    by_cases h1 : f.to = some none ∧ transaction.to ≠ none
    · simp [h1]
    by_cases h2 : (truthy f.to.join).any (!stringNormalizedEq p · transaction.to) = true
    · simp [h1, h2]
    by_cases h3 : (truthy f.from).any (!stringNormalizedEq p · transaction.from) = true
    · simp [h1, h2, h3]
    by_cases h4 : f.to = none ∧
        (truthy address).any (!stringNormalizedEq p · transaction.to) = true
    · simp [h3, h4]
    simp only [h1, h2, h3, h4, Bool.false_eq_true, ↓reduceIte, not_false_eq_true, Bool.not_false,
      true_and]
    cases hf : functionAccepts p (some f) transaction.input with
    | error e => simp [bind, Except.bind]
    | ok accepted =>
      cases accepted with
      | false => simp [bind, Except.bind, pure, Except.pure]
      | true =>
        cases (truthy f.type).any (fun t => decide (transaction.type ≠ t)) <;>
          simp [bind, Except.bind, pure, Except.pure]

/-! ### Blocks -/

/-- A `modulo` that is set and not zero has to divide the number of the block.  Only then
`filterBlockTimestamp` of node-core is asked, with the time in milliseconds. -/
def filterBlocksProcessor (filterBlockTimestamp : ℤ → Option EthereumBlockFilter → Bool)
    (block : EthereumBlock) (filter : Option EthereumBlockFilter) : Bool :=
  if (filter.bind (·.modulo)).any fun modulo => modulo ≠ 0 ∧ block.number.tmod modulo ≠ 0 then
    false
  else if !filterBlockTimestamp (block.timestamp * 1000) filter then false
  else true

/-- A light block lists hashes; a block without transactions is never taken for a full one. -/
def isFullBlock : BlockContent → Bool
  | .full block => !block.transactions.isEmpty
  | .light _ => false

end SubqlEthereum.BlockEthereum
