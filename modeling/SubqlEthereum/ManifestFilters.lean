import SubqlEthereum.BlockEthereum
import SubqlEthereum.Codegen.AbiJob
import SubqlEthereum.Codegen.AbiLookup
import SubqlEthereum.CustomTypes.ExtractedTypes
import SubqlEthereum.LogFilter
import SubqlEthereum.SkipTransactions

/-!
# Resolving the filters of a project

`resolveTopicFiltersInProject` of `utils/project.ts`, and its two calls in `createSubQueryProject`:
when a project is loaded, the signatures in the filters of its data sources and of its templates are
to be rewritten with the types of the ABI each of them names.

No ABI has a type to offer, so a loaded project has the filters of its manifest.
`filters_as_written` follows a signature from the manifest to the filters of the runtime: it is
hashed as it is written, with the names of structs and enums in it.
-/

namespace SubqlEthereum.ManifestFilters

open SubqlEthereum.External SubqlEthereum.Strings SubqlEthereum.Project SubqlEthereum.Abi
open SubqlEthereum.Blocks SubqlEthereum.BlockEthereum SubqlEthereum.LogFilter
open SubqlEthereum.CustomTypes SubqlEthereum.SkipTransactions SubqlEthereum.JsonText
open SubqlEthereum.Fallible SubqlEthereum.WordText
open SubqlEthereum.Codegen (AbiReader getAbiInterfaceFromDs isElementaryType_uint256)
open SubqlEthereum.Dictionary (NOT_NULL_FILTER)

/-! ### One handler -/

end SubqlEthereum.ManifestFilters
