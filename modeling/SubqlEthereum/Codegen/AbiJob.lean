import Mathlib.Data.List.NodupEquivFin
import SubqlEthereum.CustomTypes.AbiInput
import SubqlEthereum.External
import SubqlEthereum.Library.Fallible
import SubqlEthereum.Library.Paths

/-!
# The names generated for an ABI

`prepareAbiJob` of `codegen-controller.ts`.  An event or a function with a name of its own is
generated under that name.  Overloads are told apart by their inputs: the type names get the types
of the inputs (`joinInputAbiName`), and a function is found in the generated contract under its
signature (`inputsToArgs`).

The printer of signatures knows the array suffix `[]` of a tuple and drops any other one.
`functionName_iff` says that these are the only functions with a wrong key.
-/

namespace SubqlEthereum.Codegen

open SubqlEthereum.External SubqlEthereum.Fallible
open SubqlEthereum.CustomTypes (AbiInput AbiType BaseType ArraySuffix suffixText
  isElementaryType)

/-! ### The entries of an ABI -/

inductive AbiObjectType
  | event
  | function
  | other
deriving DecidableEq, Repr

/-- The tuples of the inputs, at any depth, are the inputs with components. -/
def Complete (inputs : List AbiInput) : Prop :=
  ∀ node ∈ AbiInput.nodesOf inputs, node.components.isSome ↔ node.type.base = .tuple

/-- An entry of an ABI. -/
structure AbiInterface where
  name : String
  type : AbiObjectType
  inputs : List AbiInput
  complete : Complete inputs

/-- What a file holds: an ABI, or an artifact, in which it may be missing. -/
inductive ReadAbi
  | array (abi : List AbiInterface)
  | artifact (abi : Option (List AbiInterface))

/-- The signature under which an entry is known. -/
def AbiInterface.signature (abiObject : AbiInterface) : String :=
  abiObject.name ++ "(" ++ ",".intercalate (abiObject.inputs.map AbiInput.canonicalType) ++ ")"

/-! ### The printers -/

/-- `replace(/\[\]/g, '_arr')`. -/
def replaceBrackets : List Char → List Char
  | [] => []
  | '[' :: ']' :: rest => '_' :: 'a' :: 'r' :: 'r' :: replaceBrackets rest
  | c :: rest => c :: replaceBrackets rest

def inputToSnake (p : Platform) (obj : AbiInput) : String :=
  p.toLowerCase (String.ofList (replaceBrackets obj.type.text.toList))

def joinInputAbiName (p : Platform) (abiObject : AbiInterface) : String :=
  abiObject.name ++ "_" ++ "_".intercalate (abiObject.inputs.map (inputToSnake p)) ++ "_"

mutual

def inputToArg (p : Platform) : AbiInput → String
  | .mk type _ none => p.toLowerCase type.text
  | .mk type _ (some components) =>
    let inner := "(" ++ ",".intercalate (inputArgs p components) ++ ")"
    if type.text = "tuple[]" then inner ++ "[]" else inner

def inputArgs (p : Platform) : List AbiInput → List String
  | [] => []
  | input :: inputs => inputToArg p input :: inputArgs p inputs

end

def inputsToArgs (p : Platform) (inputs : List AbiInput) : String :=
  "(" ++ ",".intercalate (inputArgs p inputs) ++ ")"

/-! ### The job -/

structure RenderedFunction where
  typeName : String
  functionName : String
deriving DecidableEq, Repr

structure AbiRenderProps where
  name : String
  events : List String
  functions : List RenderedFunction
deriving DecidableEq, Repr

/-- The entries that repeat an earlier one. -/
def duplicateNames (names : List String) : List String :=
  (names.zipIdx.filter fun (name, index) => names.idxOf name ≠ index).map Prod.fst

def entriesOfType (type : AbiObjectType) (abiArray : List AbiInterface) : List AbiInterface :=
  abiArray.filter (·.type = type)

/-- The names that more than one entry of the type has. -/
def duplicatesOf (type : AbiObjectType) (abiArray : List AbiInterface) : List String :=
  duplicateNames ((entriesOfType type abiArray).map AbiInterface.name)

/-- The name of an event, or the type name of a function. -/
def typeNameOf (p : Platform) (duplicates : List String) (abiObject : AbiInterface) : String :=
  if duplicates.contains abiObject.name then joinInputAbiName p abiObject else abiObject.name

def renderFunction (p : Platform) (duplicates : List String) (abiObject : AbiInterface) :
    RenderedFunction where
  typeName := typeNameOf p duplicates abiObject
  functionName :=
    if duplicates.contains abiObject.name then abiObject.name ++ inputsToArgs p abiObject.inputs
    else abiObject.name

def renderProps (p : Platform) (key : String) (abiArray : List AbiInterface) : AbiRenderProps where
  name := key
  events := (entriesOfType .event abiArray).map
    (typeNameOf p (duplicatesOf .event abiArray))
  functions := (entriesOfType .function abiArray).map
    (renderFunction p (duplicatesOf .function abiArray))

/-- The entries of the ABI in the file of an asset. -/
def abiArrayOf (projectPath : String) (loadReadAbi : String → Except JsError ReadAbi)
    (asset : String × String) : Except JsError (List AbiInterface) := do
  let abiArray ←
    match ← loadReadAbi (Paths.join [projectPath, asset.2]) with
    | .array abi => pure abi
    | .artifact (some abi) => pure abi
    | .artifact none => throw { message := "Provided ABI is not a valid ABI or Artifact" }
  if abiArray.length = 0 then
    throw { message := "Invalid abi is provided at asset: " ++ asset.1 ++ ", " ++ asset.2 ++ ", " ++
      toString abiArray.length }
  return abiArray

def renderAsset (p : Platform) (projectPath : String)
    (loadReadAbi : String → Except JsError ReadAbi) (asset : String × String) :
    Except JsError AbiRenderProps := do
  let abiArray ← abiArrayOf projectPath loadReadAbi asset
  return renderProps p asset.1 abiArray

/-- `sortedAssets` is given by its entries, in their order. -/
def prepareAbiJob (p : Platform) (sortedAssets : List (String × String)) (projectPath : String)
    (loadReadAbi : String → Except JsError ReadAbi) : Except JsError (List AbiRenderProps) :=
  sortedAssets.mapM (renderAsset p projectPath loadReadAbi)

/-- **One job for each asset**, rendered of the ABI in its file. -/
theorem prepareAbiJob_spec {p : Platform} {sortedAssets : List (String × String)}
    {projectPath : String} {loadReadAbi : String → Except JsError ReadAbi}
    {jobs : List AbiRenderProps}
    (h : prepareAbiJob p sortedAssets projectPath loadReadAbi = .ok jobs) :
    List.Forall₂ (fun asset job => ∃ abiArray,
      abiArrayOf projectPath loadReadAbi asset = .ok abiArray ∧
        job = renderProps p asset.1 abiArray) sortedAssets jobs := by
  refine ((mapM_ok_iff _ _ _).mp h).imp ?_
  intro asset job hjob
  obtain ⟨abiArray, habi, hrender⟩ := ok_of_bind_ok hjob
  exact ⟨abiArray, habi, (Except.ok.inj hrender).symm⟩

/-! ### Overloaded names -/

/-- A place of a name that is not its first one. -/
theorem mem_duplicateNames_of_index (names : List String) (name : String) (index : ℕ)
    (hname : names[index]? = some name) (hindex : names.idxOf name ≠ index) :
    name ∈ duplicateNames names :=
  List.mem_map.mpr ⟨(name, index),
    List.mem_filter.mpr ⟨List.mem_zipIdx_iff_getElem?.mpr hname, decide_eq_true hindex⟩, rfl⟩

/-- A name is a duplicate when it stands at two places. -/
theorem mem_duplicateNames_iff (names : List String) (name : String) :
    name ∈ duplicateNames names ↔ List.Duplicate name names := by
  rw [List.duplicate_iff_exists_distinct_get]
  constructor
  · intro h
    obtain ⟨⟨found, index⟩, hmem, hfound⟩ := List.mem_map.mp h
    obtain rfl : found = name := hfound
    obtain ⟨hentry, hindex⟩ := List.mem_filter.mp hmem
    obtain ⟨hlt, hname⟩ := List.getElem?_eq_some_iff.mp (List.mem_zipIdx_iff_getElem?.mp hentry)
    have hne : names.idxOf found ≠ index := of_decide_eq_true hindex
    have hfirst : names.idxOf found < names.length :=
      List.idxOf_lt_length_of_mem (List.mem_of_getElem hname)
    have hplace : found = names.get ⟨names.idxOf found, hfirst⟩ := (List.getElem_idxOf hfirst).symm
    rcases Nat.lt_or_gt_of_ne hne with hbefore | hafter
    · exact ⟨⟨_, hfirst⟩, ⟨index, hlt⟩, hbefore, hplace, hname.symm⟩
    · exact ⟨⟨index, hlt⟩, ⟨_, hfirst⟩, hafter, hname.symm, hplace⟩
  · intro h
    obtain ⟨first, second, hlt, hfirst, hsecond⟩ := h
    by_cases hindex : names.idxOf name = first
    · refine mem_duplicateNames_of_index names name second ?_ ?_
      · rw [hsecond, List.get_eq_getElem, List.getElem?_eq_getElem]
      · rw [hindex]
        exact Nat.ne_of_lt hlt
    · refine mem_duplicateNames_of_index names name first ?_ hindex
      rw [hfirst, List.get_eq_getElem, List.getElem?_eq_getElem]

/-- The name of the entry is overloaded among the entries of a type. -/
def Overloaded (type : AbiObjectType) (abiArray : List AbiInterface)
    (abiObject : AbiInterface) : Prop :=
  List.Duplicate abiObject.name ((entriesOfType type abiArray).map AbiInterface.name)

theorem contains_duplicatesOf_iff (type : AbiObjectType) (abiArray : List AbiInterface)
    (abiObject : AbiInterface) :
    (duplicatesOf type abiArray).contains abiObject.name = true ↔
      Overloaded type abiArray abiObject := by
  rw [List.contains_iff_mem, duplicatesOf, mem_duplicateNames_iff, Overloaded]

/-! ### The text of a type -/

/-- A character that lower-casing leaves alone. -/
def isLowerText (c : Char) : Bool := c.toNat < 128 && !c.isUpper

theorem toLower_of_isLowerText (c : Char) (h : isLowerText c = true) : c.toLower = c := by
  rw [isLowerText, Bool.and_eq_true, Bool.not_eq_true'] at h
  have hupper : ¬ (c.val ≥ 'A'.val ∧ c.val ≤ 'Z'.val) := of_decide_eq_false h.2
  exact dif_neg hupper

theorem toLowerCase_eq_self (p : Platform) (s : String)
    (h : ∀ c ∈ s.toList, isLowerText c = true) : p.toLowerCase s = s := by
  have hascii : ∀ c ∈ s.toList, c.toNat < 128 := by
    intro c hc
    exact of_decide_eq_true (Bool.and_eq_true_iff.mp (h c hc)).1
  have hchars : s.toList.map Char.toLower = s.toList := by
    rw [List.map_congr_left fun c hc => toLower_of_isLowerText c (h c hc), List.map_id']
  rw [p.toLowerCase_ascii s hascii, asciiLower, hchars, String.ofList_toList]

theorem isLowerText_of_range (c : Char) (h : c.toNat < 65 ∨ 90 < c.toNat ∧ c.toNat < 128) :
    isLowerText c = true := by
  rw [isLowerText, Bool.and_eq_true, decide_eq_true_eq, Bool.not_eq_true']
  refine ⟨by omega, decide_eq_false ?_⟩
  intro hupper
  have hval : 65 ≤ c.toNat ∧ c.toNat ≤ 90 := hupper
  omega

theorem isLowerText_of_isDigit (c : Char) (h : c.isDigit = true) : isLowerText c = true := by
  have hval : c.toNat ≤ 57 := of_decide_eq_true (Bool.and_eq_true_iff.mp h).2
  exact isLowerText_of_range c (.inl (by omega))

theorem isLowerText_of_isLower (c : Char) (h : c.isLower = true) : isLowerText c = true := by
  obtain ⟨hfirst, hlast⟩ := Bool.and_eq_true_iff.mp h
  have hval : 97 ≤ c.toNat ∧ c.toNat ≤ 122 := ⟨of_decide_eq_true hfirst, of_decide_eq_true hlast⟩
  exact isLowerText_of_range c (.inr (by omega))

/-- Types without their suffixes are words of small letters and digits. -/
theorem base_chars (base : BaseType) :
    ∀ c ∈ base.text.toList, (c.isLower || c.isDigit) = true := by
  cases base with
  | tuple =>
    have hall : "tuple".toList.all (fun c => c.isLower || c.isDigit) = true := by decide
    exact List.all_eq_true.mp hall
  | elementary name valid =>
    rw [isElementaryType, Bool.or_eq_true, Bool.and_eq_true] at valid
    rcases valid with hnamed | ⟨hall, -⟩
    · have hmem : name ∈ ["address", "bool", "string", "bytes", "function"] := by
        simpa using hnamed
      have hchars : ["address", "bool", "string", "bytes", "function"].all
          (fun other => other.toList.all fun c => c.isLower || c.isDigit) = true := by decide
      exact List.all_eq_true.mp (List.all_eq_true.mp hchars name hmem)
    · exact List.all_eq_true.mp hall

theorem isLowerText_base (base : BaseType) : ∀ c ∈ base.text.toList, isLowerText c = true := by
  intro c hc
  rcases Bool.or_eq_true_iff.mp (base_chars base c hc) with hletter | hdigit
  · exact isLowerText_of_isLower c hletter
  · exact isLowerText_of_isDigit c hdigit

theorem isLowerText_suffixText (suffixes : List ArraySuffix) :
    ∀ c ∈ (suffixText suffixes).toList, isLowerText c = true := by
  induction suffixes with
  | nil => exact List.forall_mem_nil _
  | cons suffix suffixes ih =>
    intro c hc
    rw [CustomTypes.suffixText_cons] at hc
    rcases List.mem_cons.mp hc with rfl | hc
    · decide
    rcases List.mem_append.mp hc with hdigits | hc
    · exact isLowerText_of_isDigit c (suffix.valid c hdigits)
    rcases List.mem_cons.mp hc with rfl | hc
    · decide
    · exact ih c hc

theorem isLowerText_text (type : AbiType) : ∀ c ∈ type.text.toList, isLowerText c = true := by
  intro c hc
  rw [AbiType.text, String.toList_append] at hc
  rcases List.mem_append.mp hc with hbase | hsuffix
  · exact isLowerText_base _ c hbase
  · exact isLowerText_suffixText _ c hsuffix

/-- Types are written in lower case. -/
theorem toLowerCase_text (p : Platform) (type : AbiType) : p.toLowerCase type.text = type.text :=
  toLowerCase_eq_self p _ (isLowerText_text type)

/-! ### Keys and signatures -/

/-- The tuples of the inputs, at any depth, have no array suffix or just `[]`. -/
def KeptSuffixes (inputs : List AbiInput) : Prop :=
  ∀ node ∈ AbiInput.nodesOf inputs, node.type.base = .tuple →
    suffixText node.type.suffixes = "" ∨ suffixText node.type.suffixes = "[]"

theorem keptSuffixes_cons (input : AbiInput) (inputs : List AbiInput) :
    KeptSuffixes (input :: inputs) ↔ KeptSuffixes [input] ∧ KeptSuffixes inputs := by
  simp only [KeptSuffixes, AbiInput.nodesOf, List.append_nil, List.forall_mem_append]

theorem complete_cons (input : AbiInput) (inputs : List AbiInput) :
    Complete (input :: inputs) ↔ Complete [input] ∧ Complete inputs := by
  simp only [Complete, AbiInput.nodesOf, List.append_nil, List.forall_mem_append]

theorem keptSuffixes_tuple (suffixes : List ArraySuffix) (internalType : Option String)
    (components : List AbiInput) :
    KeptSuffixes [.mk ⟨.tuple, suffixes⟩ internalType (some components)] ↔
      (suffixText suffixes = "" ∨ suffixText suffixes = "[]") ∧ KeptSuffixes components := by
  simp only [KeptSuffixes, AbiInput.nodesOf, AbiInput.nodes, List.append_nil,
    List.forall_mem_cons, AbiInput.type, forall_const]

/-- The text is printed as it should be, which it is when the suffixes are kept, or it is
shorter. -/
def PrintedOrShorter (kept : Prop) (printed canonical : String) : Prop :=
  kept ∧ printed = canonical ∨ ¬ kept ∧ printed.length < canonical.length

theorem PrintedOrShorter.eq_iff {kept : Prop} {printed canonical : String}
    (h : PrintedOrShorter kept printed canonical) : printed = canonical ↔ kept := by
  rcases h with ⟨hkept, hsame⟩ | ⟨hkept, hlt⟩
  · exact iff_of_true hsame hkept
  · refine iff_of_false ?_ hkept
    intro hsame
    rw [hsame] at hlt
    exact Nat.lt_irrefl _ hlt

/-- Two texts side by side. -/
theorem PrintedOrShorter.append {kept kept' : Prop} {printed printed' canonical canonical' : String}
    (h : PrintedOrShorter kept printed canonical)
    (h' : PrintedOrShorter kept' printed' canonical') (between : String) :
    PrintedOrShorter (kept ∧ kept') (printed ++ between ++ printed')
      (canonical ++ between ++ canonical') := by
  have hlength : ∀ a b : String,
      (a ++ between ++ b).length = a.length + between.length + b.length :=
    fun a b => by rw [String.length_append, String.length_append]
  rcases h with ⟨hkept, rfl⟩ | ⟨hkept, hlt⟩
  · rcases h' with ⟨hkept', rfl⟩ | ⟨hkept', hlt'⟩
    · exact .inl ⟨⟨hkept, hkept'⟩, rfl⟩
    · refine .inr ⟨fun hboth => hkept' hboth.2, ?_⟩
      rw [hlength, hlength]
      omega
  · refine .inr ⟨fun hboth => hkept hboth.1, ?_⟩
    have hle : printed'.length ≤ canonical'.length := by
      rcases h' with ⟨-, rfl⟩ | ⟨-, hlt'⟩
      · exact Nat.le_refl _
      · exact Nat.le_of_lt hlt'
    rw [hlength, hlength]
    omega

theorem PrintedOrShorter.prepend {kept : Prop} {printed canonical : String}
    (h : PrintedOrShorter kept printed canonical) (front : String) :
    PrintedOrShorter kept (front ++ printed) (front ++ canonical) := by
  rcases h with ⟨hkept, rfl⟩ | ⟨hkept, hlt⟩
  · exact .inl ⟨hkept, rfl⟩
  · refine .inr ⟨hkept, ?_⟩
    rw [String.length_append, String.length_append]
    omega

/-- The suffix of a tuple is dropped unless it is `[]`. -/
theorem suffix_printedOrShorter (suffix : String) :
    PrintedOrShorter (suffix = "" ∨ suffix = "[]") (if suffix = "[]" then "[]" else "") suffix := by
  by_cases harray : suffix = "[]"
  · rw [if_pos harray]
    exact .inl ⟨.inr harray, harray.symm⟩
  · rw [if_neg harray]
    by_cases hempty : suffix = ""
    · exact .inl ⟨.inl hempty, hempty.symm⟩
    · refine .inr ⟨?_, ?_⟩
      · rintro (h | h)
        · exact hempty h
        · exact harray h
      · rw [String.length_empty]
        exact Nat.pos_of_ne_zero fun h => hempty (String.length_eq_zero_iff.mp h)

/-- The text of a tuple is its components in parentheses, with the suffix `[]` if it has just that
one. -/
theorem inputToArg_tuple (p : Platform) (suffixes : List ArraySuffix)
    (internalType : Option String) (components : List AbiInput) :
    inputToArg p (.mk ⟨.tuple, suffixes⟩ internalType (some components)) =
      "(" ++ ",".intercalate (inputArgs p components) ++ ")" ++
        (if suffixText suffixes = "[]" then "[]" else "") := by
  have htext : AbiType.text ⟨.tuple, suffixes⟩ = "tuple[]" ↔ suffixText suffixes = "[]" := by
    show "tuple" ++ suffixText suffixes = "tuple" ++ "[]" ↔ _
    exact String.append_right_inj _
  rw [inputToArg]
  by_cases harray : suffixText suffixes = "[]"
  · rw [if_pos (htext.mpr harray), if_pos harray]
  · rw [if_neg fun h => harray (htext.mp h), if_neg harray, String.append_empty]

mutual

/-- **One case per kind of input**: an elementary type is printed as it is, and a tuple is as right
as its suffix and its components are. -/
theorem inputToArg_printedOrShorter (p : Platform) :
    ∀ input : AbiInput, Complete [input] →
      PrintedOrShorter (KeptSuffixes [input]) (inputToArg p input) input.canonicalType
  | .mk type internalType none => by
    intro hcomplete
    have hbase : type.base ≠ .tuple := by
      intro htuple
      have hcomponents := (hcomplete _ List.mem_cons_self).mpr htuple
      exact absurd hcomponents (by simp [AbiInput.components])
    refine .inl ⟨?_, ?_⟩
    · intro node hnode htuple
      obtain rfl := List.mem_singleton.mp hnode
      exact absurd htuple hbase
    · rw [inputToArg, toLowerCase_text]
      exact (CustomTypes.canonicalType_elementary (.mk type internalType none) hbase).symm
  | .mk ⟨base, suffixes⟩ internalType (some components) => by
    intro hcomplete
    have hnodes : ∀ node ∈ AbiInput.nodesOf components,
        node.components.isSome ↔ node.type.base = .tuple := by
      intro node hnode
      refine hcomplete node ?_
      rw [AbiInput.nodesOf, AbiInput.nodes]
      exact List.mem_append_left _ (List.mem_cons_of_mem _ hnode)
    obtain rfl : base = .tuple := (hcomplete _ List.mem_cons_self).mp rfl
    have hinner := (inputArgs_printedOrShorter p components hnodes).prepend "("
    have hall := hinner.append (suffix_printedOrShorter (suffixText suffixes)) ")"
    rw [inputToArg_tuple, AbiInput.canonicalType, keptSuffixes_tuple, and_comm]
    exact hall

theorem inputArgs_printedOrShorter (p : Platform) :
    ∀ inputs : List AbiInput, Complete inputs →
      PrintedOrShorter (KeptSuffixes inputs) (",".intercalate (inputArgs p inputs))
        (",".intercalate (AbiInput.canonicalTypes inputs))
  | [] => fun _ => .inl ⟨List.forall_mem_nil _, rfl⟩
  | [input] => by
    intro hcomplete
    have hinput := inputToArg_printedOrShorter p input hcomplete
    rw [inputArgs, inputArgs, AbiInput.canonicalTypes, AbiInput.canonicalTypes,
      String.intercalate_singleton, String.intercalate_singleton]
    exact hinput
  | input :: next :: inputs => by
    intro hcomplete
    obtain ⟨hfirst, hrest⟩ := (complete_cons input (next :: inputs)).mp hcomplete
    have hinput := inputToArg_printedOrShorter p input hfirst
    have hinputs := inputArgs_printedOrShorter p (next :: inputs) hrest
    have hboth := hinput.append hinputs ","
    rw [inputArgs, AbiInput.canonicalTypes] at hboth
    rw [keptSuffixes_cons, inputArgs, inputArgs, AbiInput.canonicalTypes,
      AbiInput.canonicalTypes, String.intercalate_cons_cons, String.intercalate_cons_cons]
    exact hboth

end

theorem functionName_eq_signature_iff (p : Platform) (abiArray : List AbiInterface)
    (function : AbiInterface) (h : Overloaded .function abiArray function) :
    (renderFunction p (duplicatesOf .function abiArray) function).functionName =
        function.signature ↔ KeptSuffixes function.inputs := by
  have hname : (renderFunction p (duplicatesOf .function abiArray) function).functionName =
      function.name ++ inputsToArgs p function.inputs :=
    if_pos ((contains_duplicatesOf_iff .function abiArray function).mpr h)
  have hsignature : function.signature = function.name ++
      ("(" ++ ",".intercalate (AbiInput.canonicalTypes function.inputs) ++ ")") := by
    rw [AbiInterface.signature, CustomTypes.canonicalTypes_eq, String.append_assoc,
      String.append_assoc, String.append_assoc]
  rw [hname, hsignature, String.append_right_inj, inputsToArgs, String.append_left_inj,
    String.append_right_inj]
  exact (inputArgs_printedOrShorter p function.inputs function.complete).eq_iff

/-- **An overloaded function is found under its signature exactly when no tuple of its inputs, at
any depth, has an array suffix other than `[]`.** -/
theorem functionName_iff {p : Platform} {sortedAssets : List (String × String)}
    {projectPath : String} {loadReadAbi : String → Except JsError ReadAbi}
    {jobs : List AbiRenderProps}
    (h : prepareAbiJob p sortedAssets projectPath loadReadAbi = .ok jobs) :
    List.Forall₂ (fun asset job => ∃ abiArray,
      abiArrayOf projectPath loadReadAbi asset = .ok abiArray ∧
      List.Forall₂ (fun function rendered => Overloaded .function abiArray function →
          (rendered.functionName = function.signature ↔ KeptSuffixes function.inputs))
        (entriesOfType .function abiArray) job.functions) sortedAssets jobs := by
  refine (prepareAbiJob_spec h).imp ?_
  rintro asset job ⟨abiArray, habi, rfl⟩
  refine ⟨abiArray, habi, ?_⟩
  rw [renderProps, List.forall₂_map_right_iff, List.forall₂_same]
  intro function _ hoverloaded
  exact functionName_eq_signature_iff p abiArray function hoverloaded

/-! ### A registry with overloads -/

theorem isElementaryType_uint256 : isElementaryType "uint256" = true := by decide

/-- A point of a curve, alone or in arrays. -/
def pointInput (suffixes : List ArraySuffix) : AbiInput :=
  .mk ⟨.tuple, suffixes⟩ (some "struct Point")
    (some [.mk ⟨.elementary "uint256" isElementaryType_uint256, []⟩ none none,
      .mk ⟨.elementary "uint256" isElementaryType_uint256, []⟩ none none])

theorem complete_point (suffixes : List ArraySuffix) : Complete [pointInput suffixes] := by
  simp [Complete, pointInput, AbiInput.nodesOf, AbiInput.nodes, AbiInput.components, AbiInput.type]

theorem complete_nil : Complete [] := List.forall_mem_nil _

def registerPoint (suffixes : List ArraySuffix) : AbiInterface where
  name := "register"
  type := .function
  inputs := [pointInput suffixes]
  complete := complete_point suffixes

def register : AbiInterface where
  name := "register"
  type := .function
  inputs := []
  complete := complete_nil

theorem three_digits : ∀ c ∈ "3".toList, c.isDigit = true := by
  have hall : "3".toList.all Char.isDigit = true := by decide
  exact List.all_eq_true.mp hall

/-- The suffix `[3]`. -/
def three : ArraySuffix := ⟨"3", three_digits⟩

def loadRegistry (suffixes : List ArraySuffix) (_ : String) : Except JsError ReadAbi :=
  .ok (.array [registerPoint suffixes, register])

def registryJobs (suffixes : List ArraySuffix) : Except JsError (List AbiRenderProps) :=
  prepareAbiJob erc20Platform [("Registry", "./abis/registry.json")] "/app" (loadRegistry suffixes)

theorem overloaded_registerPoint (suffixes : List ArraySuffix) :
    Overloaded .function [registerPoint suffixes, register] (registerPoint suffixes) :=
  List.duplicate_cons_self_iff.mpr List.mem_cons_self

/-- A point alone is spelled as it should be. -/
theorem registry_key : ∃ jobs, registryJobs [] = .ok jobs ∧
    List.Forall₂ (fun asset job => ∃ abiArray,
      abiArrayOf "/app" (loadRegistry []) asset = .ok abiArray ∧
      List.Forall₂ (fun function rendered => Overloaded .function abiArray function →
          (rendered.functionName = function.signature ↔ KeptSuffixes function.inputs))
        (entriesOfType .function abiArray) job.functions)
      [("Registry", "./abis/registry.json")] jobs ∧
    KeptSuffixes (registerPoint []).inputs := by
  have hjobs : registryJobs [] =
      .ok [renderProps erc20Platform "Registry" [registerPoint [], register]] := rfl
  refine ⟨_, hjobs, functionName_iff hjobs, ?_⟩
  exact (keptSuffixes_tuple _ _ _).mpr ⟨.inl rfl, by
    simp [KeptSuffixes, AbiInput.nodesOf, AbiInput.nodes, AbiInput.type]⟩

/-- Of an array of three points only the point is spelled out. -/
theorem registry_suffix_dropped :
    Overloaded .function [registerPoint [three], register] (registerPoint [three]) ∧
    registryJobs [three] = .ok [{
      name := "Registry"
      events := []
      functions := [
        { typeName := "register_tuple[3]_", functionName := "register((uint256,uint256))" },
        { typeName := "register__", functionName := "register()" }] }] ∧
    (registerPoint [three]).signature = "register((uint256,uint256)[3])" :=
  ⟨overloaded_registerPoint [three], rfl, by decide⟩

end SubqlEthereum.Codegen
