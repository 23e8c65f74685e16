import SubqlEthereum.Dictionary.LogCoverage
import SubqlEthereum.Dictionary.LogCoverageV2
import SubqlEthereum.Dictionary.GroupPartition
import SubqlEthereum.Dictionary.QueryComparison
import SubqlEthereum.Dictionary.UnusableQueries
import SubqlEthereum.Dictionary.TransactionMatching
import SubqlEthereum.Dictionary.RawBlock
import SubqlEthereum.Dictionary.QueryOrder
import SubqlEthereum.EventOrder
import SubqlEthereum.LogFilter
import SubqlEthereum.StartupCheck
import SubqlEthereum.TransactionFilter
import SubqlEthereum.ManifestAddress
import SubqlEthereum.Ethers.AnswerDelivery
import SubqlEthereum.Ethers.CeloProvider
import SubqlEthereum.Ethers.DispatchSizes
import SubqlEthereum.Ethers.InvalidResponses
import SubqlEthereum.Ethereum.ApiConnection
import SubqlEthereum.Ethereum.BatchFallback
import SubqlEthereum.Ethereum.AbiDecoding
import SubqlEthereum.Codegen.TypeNames
import SubqlEthereum.Codegen.SortedAssets
import SubqlEthereum.Codegen.AbiLookup
import SubqlEthereum.CustomTypes.SignatureName
import SubqlEthereum.CustomTypes.ExtractedTypes
import SubqlEthereum.Dictionary.TopicValues
import SubqlEthereum.Ethereum.FinalizedBlock
import SubqlEthereum.Ethereum.FormatReceipt
import SubqlEthereum.HexNumbers
import SubqlEthereum.Dictionary.BlockIndexing
import SubqlEthereum.Ethers.Quiescence
import SubqlEthereum.Ethers.JsonRpcProvider
import SubqlEthereum.Ethers.FetchTrace
import SubqlEthereum.StartupRecovery
import SubqlEthereum.ManifestFilters
import SubqlEthereum.Ethereum.SafeApi
import SubqlEthereum.Dictionary.SkippedBlocks
import SubqlEthereum.Ethers.RequestHeaders
import SubqlEthereum.StringCaches
import SubqlEthereum.Ethers.BatchTransparency
