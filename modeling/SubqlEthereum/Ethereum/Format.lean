import SubqlEthereum.Blocks
import SubqlEthereum.External

/-!
# Formatting what an endpoint returns

`utils.ethereum.ts`: the numbers, addresses, blocks, logs and transactions of a response are
brought into the types handlers work with.  A field of a response may be missing or `null`, and
any conversion may throw.

The fields that are copied without being looked at are those of `Blocks`; the back reference of
a log to its block and the receipt of a transaction are left out.
-/

namespace SubqlEthereum.Ethereum

open SubqlEthereum.External SubqlEthereum.Blocks

/-! ### Numbers and addresses -/

/-- A numeric field of a response. -/
inductive RpcNumber
  | undefined
  | null
  | text (s : String)
  | number (n : ℤ)
deriving DecidableEq, Repr

/-- Whether JavaScript takes the field for true. -/
def RpcNumber.truthy : RpcNumber → Bool
  | .undefined | .null => false
  | .text s => s ≠ ""
  | .number n => n ≠ 0

def handleNumber (p : Platform) : RpcNumber → Except JsError ℤ
  | .undefined => .ok 0
  | .null => .ok 0
  | .text s => if s = "0x" then .ok 0 else p.bigNumberFrom s
  | .number n => .ok n

/-- `BigNumber.toNumber`, which refuses integers of more than 53 bits. -/
def toNumber (n : ℤ) : Except JsError ℤ :=
  if n.natAbs < 9007199254740992 then .ok n
  else .error { message := "overflow", fields := [("code", .str "NUMERIC_FAULT")] }

/-- `value ? handleNumber(value).toBigInt() : undefined`. -/
def handleOptional (p : Platform) (value : RpcNumber) : Except JsError (Option ℤ) :=
  if value.truthy then some <$> handleNumber p value else .ok none

def handleAddress (p : Platform) (value : Option String) : Except JsError (Option String) :=
  match value with
  | none => .ok none
  | some s => if s = "" ∨ s = "0x" then .ok none else some <$> p.getAddress s

/-! ### Blocks -/

/-- The header fields of a block as an endpoint returns them. -/
structure RawHeader where
  hash : String := ""
  parentHash : String := ""
  number : RpcNumber := .undefined
  timestamp : RpcNumber := .undefined
  difficulty : RpcNumber := .undefined
  gasLimit : RpcNumber := .undefined
  gasUsed : RpcNumber := .undefined
  size : RpcNumber := .undefined
  totalDifficulty : RpcNumber := .undefined
  baseFeePerGas : RpcNumber := .undefined
  blockGasCost : RpcNumber := .undefined
  blobGasUsed : RpcNumber := .undefined
  excessBlobGas : RpcNumber := .undefined
  stateRoot : String := ""
deriving DecidableEq, Repr

/-- The header part of `formatBlock`, which leaves the transactions as they are and starts with
no logs. -/
def formatBlock (p : Platform) (block : RawHeader) : Except JsError BlockHeader := do
  let difficulty ← handleNumber p block.difficulty
  let gasLimit ← handleNumber p block.gasLimit
  let gasUsed ← handleNumber p block.gasUsed
  let number ← handleNumber p block.number >>= toNumber
  let size ← handleNumber p block.size
  let timestamp ← handleNumber p block.timestamp
  let totalDifficulty ← handleNumber p block.totalDifficulty
  let baseFeePerGas ← handleOptional p block.baseFeePerGas
  let blockGasCost ← handleOptional p block.blockGasCost
  let blobGasUsed ← handleOptional p block.blobGasUsed
  let excessBlobGas ← handleOptional p block.excessBlobGas
  return { hash := block.hash, parentHash := block.parentHash, stateRoot := block.stateRoot,
           number, timestamp, difficulty, gasLimit, gasUsed, size, totalDifficulty,
           baseFeePerGas, blockGasCost, blobGasUsed, excessBlobGas }

/-- The header the indexer keeps of a block; the time in milliseconds. -/
structure Header where
  blockHeight : ℤ
  blockHash : String
  parentHash : Option String
  timestamp : ℤ := 0
deriving DecidableEq, Repr

def ethereumBlockToHeader (block : BlockHeader) : Header where
  blockHeight := block.number
  blockHash := block.hash
  parentHash := some block.parentHash
  timestamp := block.timestamp * 1000

/-! ### Logs and transactions -/

/-- A log as the formatter of ethers hands it over, with its numbers converted. -/
structure Log where
  address : String := ""
  topics : List String := []
  data : String := "0x"
  blockHash : Option String := none
  blockNumber : ℤ := 0
  transactionHash : String := ""
  transactionIndex : ℤ := 0
  logIndex : ℤ := 0
  removed : Bool := false
deriving DecidableEq, Repr

def formatLog (p : Platform) (log : Log) : Except JsError EthereumLog := do
  let address ← handleAddress p (some log.address)
  return { address, topics := log.topics, data := log.data, blockHash := log.blockHash,
           blockNumber := log.blockNumber, transactionHash := log.transactionHash,
           transactionIndex := log.transactionIndex, logIndex := log.logIndex,
           removed := log.removed }

/-- A transaction as an endpoint returns it. -/
structure RawTransaction where
  hash : String := ""
  «from» : Option String := none
  «to» : Option String := none
  input : String := "0x"
  type : String := "0x0"
  blockNumber : RpcNumber := .undefined
  gas : RpcNumber := .undefined
  gasPrice : RpcNumber := .undefined
  nonce : RpcNumber := .undefined
  transactionIndex : RpcNumber := .undefined
  value : RpcNumber := .undefined
  v : RpcNumber := .undefined
  maxFeePerGas : RpcNumber := .undefined
  maxPriorityFeePerGas : RpcNumber := .undefined
  maxFeePerBlobGas : RpcNumber := .undefined
deriving DecidableEq, Repr

def formatTransaction (p : Platform) (tx : RawTransaction) (block : BlockHeader) :
    Except JsError EthereumTransaction := do
  let sender ← handleAddress p tx.from
  let recipient ← handleAddress p tx.to
  let blockNumber ← handleNumber p tx.blockNumber >>= toNumber
  let gas ← handleNumber p tx.gas
  let gasPrice ← handleNumber p tx.gasPrice
  let nonce ← handleNumber p tx.nonce
  let transactionIndex ← handleNumber p tx.transactionIndex
  let value ← handleNumber p tx.value
  let v ← handleNumber p tx.v
  let maxFeePerGas ← handleOptional p tx.maxFeePerGas
  let maxPriorityFeePerGas ← handleOptional p tx.maxPriorityFeePerGas
  let maxFeePerBlobGas ← handleOptional p tx.maxFeePerBlobGas
  return { hash := tx.hash, «from» := sender, «to» := recipient, input := tx.input,
           type := tx.type, blockTimestamp := block.timestamp, blockNumber, gas, gasPrice,
           nonce, transactionIndex, value, v, maxFeePerGas, maxPriorityFeePerGas,
           maxFeePerBlobGas, logs := none }

end SubqlEthereum.Ethereum
