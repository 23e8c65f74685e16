import Mathlib.Data.List.Basic

/-!
# The inputs of an ABI

The input trees of the events and functions of an ABI, as the document has them, and the canonical
type of an input: the one that goes into the signature an event or a function is known by.

An `Interface` of ethers is made of `ParamType`s instead.  A `ParamType` has the type and the
components of an input, and no internal type.
-/

namespace SubqlEthereum.CustomTypes

/-- The `[4]` or `[]` of an array. -/
structure ArraySuffix where
  digits : String
  valid : ∀ c ∈ digits.toList, c.isDigit = true

def ArraySuffix.text (suffix : ArraySuffix) : String := "[" ++ suffix.digits ++ "]"

def suffixText (suffixes : List ArraySuffix) : String := String.join (suffixes.map ArraySuffix.text)

/-- An elementary type: one without a size, or a lower-case word that ends in a digit, such as
`uint8`, `bytes32` or `fixed128x18`.  The aliases `uint` and `int` are spelled out. -/
def isElementaryType (name : String) : Bool :=
  name ∈ ["address", "bool", "string", "bytes", "function"] ||
    (name.toList.all fun c => c.isLower || c.isDigit) && name.toList.getLast?.any Char.isDigit

inductive BaseType
  | elementary (name : String) (valid : isElementaryType name = true)
  | tuple

def BaseType.text : BaseType → String
  | .elementary name _ => name
  | .tuple => "tuple"

/-- The `type` of an input. -/
structure AbiType where
  base : BaseType
  suffixes : List ArraySuffix

def AbiType.text (type : AbiType) : String := type.base.text ++ suffixText type.suffixes

/-- An input of a document, with the components of its tuple type. -/
inductive AbiInput
  | mk (type : AbiType) (internalType : Option String) (components : Option (List AbiInput))

namespace AbiInput

def type : AbiInput → AbiType
  | mk type _ _ => type

def internalType : AbiInput → Option String
  | mk _ internalType _ => internalType

def components : AbiInput → Option (List AbiInput)
  | mk _ _ components => components

mutual

/-- The type of an input in a signature: a tuple is written out as the types of its components. -/
def canonicalType : AbiInput → String
  | mk ⟨.elementary name _, suffixes⟩ _ _ => name ++ suffixText suffixes
  | mk ⟨.tuple, suffixes⟩ _ none => "()" ++ suffixText suffixes
  | mk ⟨.tuple, suffixes⟩ _ (some components) =>
    "(" ++ ",".intercalate (canonicalTypes components) ++ ")" ++ suffixText suffixes

def canonicalTypes : List AbiInput → List String
  | [] => []
  | component :: components => canonicalType component :: canonicalTypes components

end

mutual

/-- The nodes of an input tree, each before its components. -/
def nodes : AbiInput → List AbiInput
  | mk type internalType none => [mk type internalType none]
  | mk type internalType (some components) =>
    mk type internalType (some components) :: nodesOf components

def nodesOf : List AbiInput → List AbiInput
  | [] => []
  | component :: components => nodes component ++ nodesOf components

end

end AbiInput

/-- The events and the functions of an ABI, by their inputs. -/
structure AbiDocument where
  events : List (List AbiInput)
  functions : List (List AbiInput)

/-- All input nodes of an ABI. -/
def AbiDocument.nodes (abi : AbiDocument) : List AbiInput :=
  abi.events.flatMap AbiInput.nodesOf ++ abi.functions.flatMap AbiInput.nodesOf

/-! ### What ethers keeps of it -/

/-- What is read of a `ParamType`. -/
inductive ParamType
  | mk (type : AbiType) (components : Option (List ParamType))

namespace ParamType

mutual

/-- A `ParamType` where a `{ type, internalType?, components? }` is asked for: the field that it
does not have is `undefined`. -/
def asInput : ParamType → AbiInput
  | mk type none => .mk type none none
  | mk type (some components) => .mk type none (some (asInputs components))

def asInputs : List ParamType → List AbiInput
  | [] => []
  | component :: components => asInput component :: asInputs components

end

end ParamType

/-- What is read of an `Interface`: the inputs of its events and of its functions. -/
structure AbiInterface where
  events : List (List ParamType)
  functions : List (List ParamType)

/-! ### Texts of types -/

theorem suffixText_cons (suffix : ArraySuffix) (suffixes : List ArraySuffix) :
    (suffixText (suffix :: suffixes)).toList =
      '[' :: (suffix.digits.toList ++ ']' :: (suffixText suffixes).toList) := by
  rw [suffixText, List.map_cons, String.join_cons, ArraySuffix.text]
  simp [suffixText]

theorem canonicalTypes_eq (components : List AbiInput) :
    AbiInput.canonicalTypes components = components.map AbiInput.canonicalType := by
  induction components with
  | nil => rfl
  | cons component components ih => rw [AbiInput.canonicalTypes, ih, List.map_cons]

/-- **The type of an input without components is its canonical type.** -/
theorem canonicalType_elementary (input : AbiInput) (h : input.type.base ≠ .tuple) :
    input.canonicalType = input.type.text := by
  obtain ⟨⟨base, suffixes⟩, internalType, components⟩ := input
  cases base with
  | elementary name valid => rw [AbiInput.canonicalType]; rfl
  | tuple => exact absurd rfl h

end SubqlEthereum.CustomTypes
