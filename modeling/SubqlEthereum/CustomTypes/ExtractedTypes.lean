import Mathlib.Data.Bool.AllAny
import SubqlEthereum.CustomTypes.Extraction

/-!
# The extracted types against the ABI

An entry of the extracted map should be the canonical type of an input that has the name, and every
struct and enum of the ABI should have an entry.  The comment in `utils/project.ts` says that enums
and structs are replaced when a project is loaded.

The extraction is handed an `Interface`, whose inputs have lost their internal types, so it finds no
name.  `extracted_faithful`: the map has no wrong entry.  `extraction_covers_iff`: it has every
struct and enum only where the ABI has neither.
-/

namespace SubqlEthereum.CustomTypes

open SubqlEthereum.External SubqlEthereum.Strings SubqlEthereum.WordText

/-! ### What an entry should say -/

/-- The bare name of an internal type: what is left of it without its keyword and its contract,
whether it is read as a struct or as an enum. -/
def AbiInput.HasBareName (input : AbiInput) (name : String) : Prop :=
  ∃ internalType, input.internalType = some internalType ∧
    (name = structNameOf internalType ∨ name = enumNameOf internalType)

/-- Some input of that bare name has that canonical type. -/
def AbiDocument.Justifies (abi : AbiDocument) (name resolvedType : String) : Prop :=
  ∃ input ∈ abi.nodes, input.HasBareName name ∧ input.canonicalType = resolvedType

/-- Every entry of the map is justified by the ABI. -/
def AbiDocument.JustifiesAll (abi : AbiDocument) (customTypes : CustomTypeMap) : Prop :=
  ∀ entry ∈ customTypes.entries, abi.Justifies entry.1 entry.2.resolvedType

/-- **The extracted types are faithful to the ABI**, whatever `Interface` is made of it. -/
theorem extracted_faithful (newInterface : AbiDocument → AbiInterface) (abi : AbiDocument) :
    abi.JustifiesAll (extractCustomTypesFromAbi (newInterface abi)) := by
  intro entry hentry
  rw [extractCustomTypesFromAbi_eq_empty] at hentry
  exact absurd hentry List.not_mem_nil

/-! ### What should have an entry -/

/-- An identifier of the contract language; the elementary types are keywords of it. -/
structure Identifier where
  text : String
  nonempty : text ≠ ""
  chars : ∀ c ∈ text.toList, isWordChar c = true ∨ c = '$'
  not_standard : isStandardSolidityType text = false

/-- The identifier with the dot behind it, if there is a contract to name. -/
def qualifier : Option Identifier → String
  | none => ""
  | some contract => contract.text ++ "."

def CustomTypeKind.keyword : CustomTypeKind → String
  | .enum => "enum"
  | .struct => "struct"

/-- The type of a value of the kind. -/
def CustomTypeKind.typeText : CustomTypeKind → String
  | .enum => "uint8"
  | .struct => "tuple"

/-- `struct X`, `struct C.X`, `enum X` and `enum C.X`. -/
def declaredText (kind : CustomTypeKind) (contract : Option Identifier) (name : Identifier) :
    String :=
  kind.keyword ++ " " ++ qualifier contract ++ name.text

/-- The input is of the struct or enum, or of an array type of it. -/
def AbiInput.Uses (input : AbiInput) (kind : CustomTypeKind) (name : Identifier) : Prop :=
  input.type.base.text = kind.typeText ∧ ∃ contract,
    input.internalType = some (declaredText kind contract name ++ suffixText input.type.suffixes)

/-- **When every struct and enum in use is found**: where none is in use. -/
theorem extraction_covers_iff (newInterface : AbiDocument → AbiInterface) (abi : AbiDocument) :
    (∀ input ∈ abi.nodes, ∀ kind name, input.Uses kind name →
        (extractCustomTypesFromAbi (newInterface abi)).has name.text = true) ↔
      ∀ input ∈ abi.nodes, ∀ kind name, ¬ input.Uses kind name := by
  have hnone : ∀ name : String,
      (extractCustomTypesFromAbi (newInterface abi)).has name = false := by
    intro name
    rw [extractCustomTypesFromAbi_eq_empty]
    rfl
  constructor
  · intro h input hinput kind name huses
    have hfound := h input hinput kind name huses
    rw [hnone] at hfound
    exact absurd hfound (by decide)
  · intro h input hinput kind name huses
    exact absurd huses (h input hinput kind name)

/-! ### A struct that is missed -/

mutual

/-- `ParamType.fromObject`, of an input of a document. -/
def AbiInput.paramType : AbiInput → ParamType
  | mk type _ none => .mk type none
  | mk type _ (some components) => .mk type (some (paramTypes components))

def AbiInput.paramTypes : List AbiInput → List ParamType
  | [] => []
  | component :: components => paramType component :: paramTypes components

end

/-- The `Interface` of a document. -/
def AbiDocument.interface (abi : AbiDocument) : AbiInterface where
  events := abi.events.map AbiInput.paramTypes
  functions := abi.functions.map AbiInput.paramTypes

def marketName : Identifier :=
  ⟨"Market", by decide, List.all_iff_forall_prop.mp (by decide), by decide⟩

def orderName : Identifier :=
  ⟨"Order", by decide, List.all_iff_forall_prop.mp (by decide), by decide⟩

/-- An input `Market.Order`. -/
def orderInput : AbiInput :=
  .mk ⟨.tuple, []⟩ (some "struct Market.Order")
    (some [.mk ⟨.elementary "address" (by decide), []⟩ (some "address") none])

def orderAbi : AbiDocument where
  events := [[orderInput]]
  functions := []

/-- The event uses the struct, and the map has nothing for it. -/
theorem order_missed :
    orderInput ∈ orderAbi.nodes ∧ orderInput.Uses .struct orderName ∧
      (extractCustomTypesFromAbi orderAbi.interface).has orderName.text = false :=
  ⟨List.mem_cons_self, ⟨rfl, some marketName, rfl⟩, by decide⟩

end SubqlEthereum.CustomTypes
