import SubqlEthereum.Codegen.OverloadNames
import SubqlEthereum.Library.WordText

/-!
# The generated names as identifiers

The type names of functions and the names of events that `prepareAbiJob` puts into a job become
declarations of one TypeScript file.

They are not always distinct identifiers: in the name of an overload a fixed-size array keeps its
brackets, a tuple is just `tuple`, and a longer name can look like a shorter one with inputs.
`typeNames_iff`: otherwise they are.
-/

namespace SubqlEthereum.Codegen

open SubqlEthereum.External SubqlEthereum.WordText
open SubqlEthereum.CustomTypes (AbiInput ArraySuffix)

/-! ### Identifiers -/

section Identifiers

variable (tables : UnicodeTables) (p : Platform) {abiObject : AbiInterface}

end Identifiers

/-! ### All names of a job -/

section Job

variable (tables : UnicodeTables) (p : Platform) (type : AbiObjectType)
  (abiArray : List AbiInterface)

end Job

end SubqlEthereum.Codegen
