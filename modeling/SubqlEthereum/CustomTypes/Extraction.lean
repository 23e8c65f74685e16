import SubqlEthereum.CustomTypes.AbiInput
import SubqlEthereum.CustomTypes.SignatureResolution
import SubqlEthereum.Strings

/-!
# Extracting the custom types of an ABI

`extractCustomTypesFromAbi` of `utils/string.ts`.  Every input node may add one type to the map: a
tuple under the name of its struct, a number under the name of its enum.  A name that is taken
keeps its first type.

Both names are read off the internal type of the node, and the nodes of an `Interface` have none:
`extractCustomTypesFromAbi_eq_empty`.
-/

namespace SubqlEthereum.CustomTypes

open SubqlEthereum.External SubqlEthereum.Strings

/-! ### The map -/

namespace CustomTypeMap

def empty : CustomTypeMap where
  entries := []
  nodup := List.nodup_nil

def has (types : CustomTypeMap) (key : String) : Bool := key ∈ types.entries.map Prod.fst

theorem nodup_replace (entries : List (String × AbiCustomType)) (key : String)
    (value : AbiCustomType) (h : (entries.map Prod.fst).Nodup) :
    ((entries.map fun entry => if entry.1 = key then (key, value) else entry).map
      Prod.fst).Nodup := by
  have hkeys : (entries.map fun entry => if entry.1 = key then (key, value) else entry).map
      Prod.fst = entries.map Prod.fst := by
    rw [List.map_map]
    apply List.map_congr_left
    intro entry _
    by_cases hkey : entry.1 = key
    · simp [hkey]
    · simp [hkey]
  rwa [hkeys]

theorem nodup_append (entries : List (String × AbiCustomType)) (key : String)
    (value : AbiCustomType) (h : (entries.map Prod.fst).Nodup)
    (hnew : key ∉ entries.map Prod.fst) : ((entries ++ [(key, value)]).map Prod.fst).Nodup := by
  rw [List.map_append, List.map_singleton]
  apply h.append (List.nodup_singleton key)
  exact List.disjoint_singleton.mpr hnew

/-- `Map.set`: a key that is there keeps its place. -/
def set (types : CustomTypeMap) (key : String) (value : AbiCustomType) : CustomTypeMap :=
  if h : key ∈ types.entries.map Prod.fst then
    { entries := types.entries.map fun entry => if entry.1 = key then (key, value) else entry
      nodup := nodup_replace types.entries key value types.nodup }
  else
    { entries := types.entries ++ [(key, value)]
      nodup := nodup_append types.entries key value types.nodup h }

end CustomTypeMap

/-! ### Reading an internal type -/

/-- The class `\s`. -/
def isSpace (c : Char) : Bool :=
  c.toNat ∈ [0x09, 0x0A, 0x0B, 0x0C, 0x0D, 0x20, 0xA0, 0x1680, 0x2028, 0x2029, 0x202F, 0x205F,
    0x3000, 0xFEFF] || (0x2000 ≤ c.toNat && c.toNat ≤ 0x200A)

/-- What `.` does not match. -/
def isLineTerminator (c : Char) : Bool := c.toNat ∈ [0x0A, 0x0D, 0x2028, 0x2029]

/-- `text.replace(/^keyword\s+/, '')`. -/
def dropKeyword (keyword text : List Char) : List Char :=
  if keyword.isPrefixOf text && (text.drop keyword.length).head?.any isSpace then
    (text.drop keyword.length).dropWhile isSpace
  else text

/-- `text.replace(/^.*\./, '')`: up to the last dot of the first line. -/
def dropQualifier (text : List Char) : List Char :=
  let line := text.takeWhile fun c => !isLineTerminator c
  if '.' ∈ line then
    (line.reverse.takeWhile (· ≠ '.')).reverse ++ text.dropWhile fun c => !isLineTerminator c
  else text

/-- The `structName` of an internal type. -/
def structNameOf (internalType : String) : String :=
  String.ofList (dropQualifier (dropKeyword "struct".toList internalType.toList))

/-- The `enumName` of an internal type. -/
def enumNameOf (internalType : String) : String :=
  String.ofList (dropQualifier (dropKeyword "enum".toList internalType.toList))

/-- `typeMapping[type] || type`; the names every object inherits are no types. -/
def resolveBaseType (type : String) : String :=
  if type = "uint" then "uint256" else if type = "int" then "int256" else type

/-- `type.replace(/\[\d*\]$/, '')`. -/
def dropArraySuffix (text : List Char) : List Char :=
  match text.reverse with
  | [] => text
  | last :: rest =>
    if last = ']' then
      match rest.dropWhile Char.isDigit with
      | [] => text
      | bracket :: front => if bracket = '[' then front.reverse else text
    else text

def standardTypes : List String :=
  ["address", "bool", "string", "bytes",
   "uint", "uint8", "uint16", "uint24", "uint32", "uint40", "uint48", "uint56", "uint64",
   "uint72", "uint80", "uint88", "uint96", "uint104", "uint112", "uint120", "uint128",
   "uint136", "uint144", "uint152", "uint160", "uint168", "uint176", "uint184", "uint192",
   "uint200", "uint208", "uint216", "uint224", "uint232", "uint240", "uint248", "uint256",
   "int", "int8", "int16", "int24", "int32", "int40", "int48", "int56", "int64",
   "int72", "int80", "int88", "int96", "int104", "int112", "int120", "int128",
   "int136", "int144", "int152", "int160", "int168", "int176", "int184", "int192",
   "int200", "int208", "int216", "int224", "int232", "int240", "int248", "int256",
   "bytes1", "bytes2", "bytes3", "bytes4", "bytes5", "bytes6", "bytes7", "bytes8", "bytes9",
   "bytes10", "bytes11", "bytes12", "bytes13", "bytes14", "bytes15", "bytes16", "bytes17",
   "bytes18", "bytes19", "bytes20", "bytes21", "bytes22", "bytes23", "bytes24", "bytes25",
   "bytes26", "bytes27", "bytes28", "bytes29", "bytes30", "bytes31", "bytes32"]

def isStandardSolidityType (type : String) : Bool :=
  String.ofList (dropArraySuffix type.toList) ∈ standardTypes

/-! ### The extraction -/

/-- The parenthesised types of the components, none of them written out. -/
def tupleTypeOf (components : List AbiInput) : String :=
  "(" ++ ",".intercalate (components.map fun component => resolveBaseType component.type.text) ++
    ")"

/-- The first part of `extractCustomTypeFromInput`, about structs. -/
def extractStruct (input : AbiInput) (customTypes : CustomTypeMap) : CustomTypeMap :=
  match truthy input.internalType with
  | some internalType =>
    if input.type.text = "tuple" then
      let structName := structNameOf internalType
      match input.components with
      | some components =>
        if customTypes.has structName then customTypes
        else customTypes.set structName
          { name := structName, type := .struct, resolvedType := tupleTypeOf components }
      | none => customTypes
    else customTypes
  | none => customTypes

/-- The second part of `extractCustomTypeFromInput`, about enums. -/
def extractEnum (input : AbiInput) (customTypes : CustomTypeMap) : CustomTypeMap :=
  match truthy input.internalType with
  | some internalType =>
    if internalType ≠ input.type.text then
      let enumName := enumNameOf internalType
      if (input.type.text = "uint8" ∨ input.type.text = "uint256") ∧
          !startsWith enumName "struct " ∧ !isStandardSolidityType enumName then
        if customTypes.has enumName then customTypes
        else customTypes.set enumName { name := enumName, type := .enum, resolvedType := "uint8" }
      else customTypes
    else customTypes
  | none => customTypes

mutual

def extractCustomTypeFromInput : AbiInput → CustomTypeMap → CustomTypeMap
  | .mk type internalType none, customTypes =>
    extractEnum (.mk type internalType none)
      (extractStruct (.mk type internalType none) customTypes)
  | .mk type internalType (some components), customTypes =>
    extractCustomTypeFromInputs components
      (extractEnum (.mk type internalType (some components))
        (extractStruct (.mk type internalType (some components)) customTypes))

/-- `inputs.forEach((input) => extractCustomTypeFromInput(input, customTypes))`. -/
def extractCustomTypeFromInputs : List AbiInput → CustomTypeMap → CustomTypeMap
  | [], customTypes => customTypes
  | input :: inputs, customTypes =>
    extractCustomTypeFromInputs inputs (extractCustomTypeFromInput input customTypes)

end

/-- The code catches what the extraction throws; on these inputs it throws nothing. -/
def extractCustomTypesFromAbi (abiInterface : AbiInterface) : CustomTypeMap :=
  let customTypes := abiInterface.events.foldl (fun customTypes inputs =>
    extractCustomTypeFromInputs (ParamType.asInputs inputs) customTypes) .empty
  abiInterface.functions.foldl (fun customTypes inputs =>
    extractCustomTypeFromInputs (ParamType.asInputs inputs) customTypes) customTypes

/-! ### What there is to extract -/

mutual

/-- **A tree of `ParamType`s has nothing to extract**, at any depth. -/
theorem extractCustomTypeFromInput_asInput :
    ∀ (param : ParamType) (customTypes : CustomTypeMap),
      extractCustomTypeFromInput param.asInput customTypes = customTypes
  | .mk type none, customTypes => by
    rw [ParamType.asInput, extractCustomTypeFromInput]
    rfl
  | .mk type (some components), customTypes => by
    rw [ParamType.asInput, extractCustomTypeFromInput]
    -- without an internal type the node itself has no name to offer
    show extractCustomTypeFromInputs (ParamType.asInputs components) customTypes = customTypes
    exact extractCustomTypeFromInputs_asInputs components customTypes

theorem extractCustomTypeFromInputs_asInputs :
    ∀ (params : List ParamType) (customTypes : CustomTypeMap),
      extractCustomTypeFromInputs (ParamType.asInputs params) customTypes = customTypes
  | [], customTypes => rfl
  | param :: params, customTypes => by
    rw [ParamType.asInputs, extractCustomTypeFromInputs,
      extractCustomTypeFromInput_asInput param customTypes,
      extractCustomTypeFromInputs_asInputs params customTypes]

end

/-- **Nothing is extracted from an `Interface`.** -/
theorem extractCustomTypesFromAbi_eq_empty (abiInterface : AbiInterface) :
    extractCustomTypesFromAbi abiInterface = .empty := by
  have hfragments : ∀ (fragments : List (List ParamType)) (customTypes : CustomTypeMap),
      fragments.foldl (fun customTypes inputs =>
        extractCustomTypeFromInputs (ParamType.asInputs inputs) customTypes) customTypes =
          customTypes := by
    intro fragments
    induction fragments with
    | nil => exact fun customTypes => rfl
    | cons inputs fragments ih =>
      intro customTypes
      rw [List.foldl_cons, extractCustomTypeFromInputs_asInputs, ih]
  rw [extractCustomTypesFromAbi, hfragments, hfragments]

end SubqlEthereum.CustomTypes
