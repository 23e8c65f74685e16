import Mathlib.Data.Int.Notation
import Mathlib.Data.List.Basic

/-!
# Logs, transactions and blocks

The values the formatters of `utils.ethereum.ts` build and the indexer hands to handlers.  The
addresses are optional because `handleAddress` gives `null` for an empty one.  Left out are the
back references from a log to its block and transaction, the methods, and the header fields
that are passed through without being read.
-/

namespace SubqlEthereum.Blocks

structure EthereumLog where
  address : Option String
  topics : List String
  data : String := "0x"
  blockHash : Option String := none
  blockNumber : ℤ := 0
  transactionHash : String := ""
  transactionIndex : ℤ := 0
  logIndex : ℤ := 0
  removed : Bool := false
deriving DecidableEq, Repr

structure EthereumTransaction where
  hash : String := ""
  «from» : Option String := none
  «to» : Option String := none
  input : String := "0x"
  type : String := "0x0"
  blockNumber : ℤ := 0
  blockTimestamp : ℤ := 0
  transactionIndex : ℤ := 0
  gas : ℤ := 0
  gasPrice : ℤ := 0
  nonce : ℤ := 0
  value : ℤ := 0
  v : ℤ := 0
  maxFeePerGas : Option ℤ := none
  maxPriorityFeePerGas : Option ℤ := none
  maxFeePerBlobGas : Option ℤ := none
  logs : Option (List EthereumLog) := none
deriving DecidableEq, Repr

/-- The fields full and light blocks share. -/
structure BlockHeader where
  hash : String := ""
  parentHash : String := ""
  number : ℤ := 0
  timestamp : ℤ := 0
  difficulty : ℤ := 0
  gasLimit : ℤ := 0
  gasUsed : ℤ := 0
  size : ℤ := 0
  totalDifficulty : ℤ := 0
  baseFeePerGas : Option ℤ := none
  blockGasCost : Option ℤ := none
  blobGasUsed : Option ℤ := none
  excessBlobGas : Option ℤ := none
  stateRoot : String := ""
deriving DecidableEq, Repr

structure EthereumBlock extends BlockHeader where
  logs : List EthereumLog
  transactions : List EthereumTransaction
deriving DecidableEq, Repr

/-- A light block lists its transactions by their hashes. -/
structure LightEthereumBlock extends BlockHeader where
  logs : List EthereumLog
  transactions : List String
deriving DecidableEq, Repr

inductive BlockContent
  | full (block : EthereumBlock)
  | light (block : LightEthereumBlock)
deriving DecidableEq, Repr

end SubqlEthereum.Blocks
