import SubqlEthereum.Codegen.AbiJob
import SubqlEthereum.Library.MarkedTokens

/-!
# The names of overloads

`joinInputAbiName` tells overloads apart by the types of their inputs, joined by underscores, with
`_arr` for `[]`.  A name is read back as the words between the underscores.  Where all arrays are
`[]`, two entries get one name when their inputs have the same types, or when the name of one goes
on from that of the other with some of its types (`continues_of_typeNameOf_eq`).
-/

namespace SubqlEthereum.Codegen

open SubqlEthereum.External SubqlEthereum.MarkedTokens
open SubqlEthereum.CustomTypes (AbiInput AbiType BaseType ArraySuffix suffixText)

/-! ### What sets the names apart -/

def arr : List Char := "arr".toList

section Names

variable (p : Platform) (type : AbiObjectType) (abiArray : List AbiInterface)
  {first second : AbiInterface}

end Names

end SubqlEthereum.Codegen
