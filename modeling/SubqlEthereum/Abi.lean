import SubqlEthereum.Library.PlainObject
import SubqlEthereum.Project
import SubqlEthereum.Strings

/-!
# The interface of a data source's ABI

`loadAssets` and `EthereumApi.buildInterface` of `api.ethereum.ts`.  The assets of a data source
are read from their files, the one named by `options.abi` is parsed, and the interface built from
it is kept under that name.  What reads a file, parses a text and builds an interface is not part
of the repository and is given by an `AbiLoader`.

`loadInterface_spec` compares the two functions with `dsInterface`, the interface of the data
source's own ABI: they agree as long as the data sources that share an ABI name share its text.
-/

namespace SubqlEthereum.Abi

open SubqlEthereum.External SubqlEthereum.Project SubqlEthereum.Strings SubqlEthereum.JsonText
open SubqlEthereum.PlainObject

/-- The file system, `JSON.parse` and the constructor of `Interface`. -/
structure AbiLoader (ι : Type) where
  readFile : String → Except JsError String
  parseJson : String → Except JsError Json
  newInterface : Json → Except JsError ι

variable {ι : Type}

/-! ### Parsing an ABI -/

/-- The ABI in a parsed file, which is the `abi` of an artifact or the value itself. -/
def abiOfDocument : Json → Except JsError Json
  | .null => .error { name := "TypeError",
                      message := "Cannot read properties of null (reading 'abi')" }
  | .obj fields =>
    match (fields.lookup "abi").filter isTruthy with
    | some abi => .ok abi
    | none => .ok (.obj fields)
  | document => .ok document

/-- The interface of the ABI a text holds. -/
def parseInterface (loader : AbiLoader ι) (text : String) : Except JsError ι := do
  let document ← loader.parseJson text
  let abi ← abiOfDocument document
  loader.newInterface abi

/-! ### Loading it -/

/-- The texts of the assets, by their names. -/
def loadAssets (loader : AbiLoader ι) (ds : SubqlRuntimeDatasource) :
    Except JsError (Properties String) :=
  match ds.assets with
  | none => .ok []
  | some assets =>
    assets.foldlM (fun res (name, file) => do
      let text ← (loader.readFile file).mapError fun _ =>
        { message := "Failed to load datasource asset " ++ file }
      return set res name text) []

/-- `buildInterface`, with the interfaces kept so far and afterwards.  Under an inherited name the
code finds no interface but something else, which it keeps. -/
def buildInterface (loader : AbiLoader ι) (abiName : String) (assets : Properties String)
    (contractInterfaces : Properties ι) : Except JsError (Property ι × Properties ι) :=
  let notReferenced : JsError :=
    { message := "ABI named \"" ++ abiName ++ "\" not referenced in assets" }
  match get assets abiName with
  | .absent => .error notReferenced
  | .own text =>
    if text = "" then .error notReferenced
    else match get contractInterfaces abiName with
      | .absent => do
        let iface ← (parseInterface loader text).mapError fun _ => { message := "ABI is invalid" }
        return (.own iface, set contractInterfaces abiName iface)
      | kept => .ok (kept, contractInterfaces)
  | .inherited =>
    match get contractInterfaces abiName with
    | .absent => .error { message := "ABI is invalid" }
    | kept => .ok (kept, contractInterfaces)

/-- `this.buildInterface(ds.options.abi, await loadAssets(ds))`. -/
def loadInterface (loader : AbiLoader ι) (ds : SubqlRuntimeDatasource) (abiName : String)
    (contractInterfaces : Properties ι) : Except JsError (Property ι × Properties ι) := do
  let assets ← loadAssets loader ds
  buildInterface loader abiName assets contractInterfaces

/-! ### The ABI of one data source -/

/-- `ds.options.abi`, when it is not empty. -/
def abiName (ds : SubqlRuntimeDatasource) : Option String :=
  truthy (ds.options.bind (·.abi))

/-- The text of the asset a data source names as its ABI, when its assets can be read. -/
def abiText (loader : AbiLoader ι) (ds : SubqlRuntimeDatasource) : Option String :=
  match abiName ds, loadAssets loader ds with
  | some name, .ok assets =>
    match get assets name with
    | .own text => truthy (some text)
    | _ => none
  | _, _ => none

/-- The interface of the data source's own ABI. -/
def dsInterface (loader : AbiLoader ι) (ds : SubqlRuntimeDatasource) : Option ι :=
  match abiName ds, abiText loader ds with
  | some name, some text =>
    if name ∈ inheritedNames then none else (parseInterface loader text).toOption
  | _, _ => none

/-- Data sources with one ABI name have one ABI. -/
def SameAbi (loader : AbiLoader ι) (dataSources : List SubqlRuntimeDatasource) : Prop :=
  ∀ ds ∈ dataSources, ∀ ds' ∈ dataSources, abiName ds = abiName ds' →
    ∀ text ∈ abiText loader ds, ∀ text' ∈ abiText loader ds', text = text'

/-- Every interface kept is the one of a data source with that ABI name. -/
def KeptFrom (loader : AbiLoader ι) (dataSources : List SubqlRuntimeDatasource)
    (contractInterfaces : Properties ι) : Prop :=
  ∀ name iface, contractInterfaces.lookup name = some iface →
    ∃ ds ∈ dataSources, abiName ds = some name ∧ dsInterface loader ds = some iface

/-! ### Loading and keeping -/

/-- The interface `loadInterface` finds, if it finds one. -/
def found : Except JsError (Property ι × Properties ι) → Option ι
  | .ok (.own iface, _) => some iface
  | _ => none

/-- The interfaces kept after `loadInterface`. -/
def keptAfter (contractInterfaces : Properties ι) :
    Except JsError (Property ι × Properties ι) → Properties ι
  | .ok (_, kept) => kept
  | .error _ => contractInterfaces

section Spec

variable {loader : AbiLoader ι} {dataSources : List SubqlRuntimeDatasource}
variable {ds : SubqlRuntimeDatasource} {name : String} {contractInterfaces : Properties ι}

theorem dsInterface_eq_some_iff (iface : ι) :
    dsInterface loader ds = some iface ↔
      ∃ name, abiName ds = some name ∧ name ∉ inheritedNames ∧
        ∃ text, abiText loader ds = some text ∧ parseInterface loader text = .ok iface := by
  rw [dsInterface]
  cases hname : abiName ds with
  | none => simp
  | some name =>
    cases htext : abiText loader ds with
    | none => simp
    | some text =>
      by_cases hinherited : name ∈ inheritedNames
      · simp [hinherited]
      · cases hparse : parseInterface loader text with
        | error e => simp [hinherited, hparse, Except.toOption]
        | ok other => simp [hinherited, hparse, Except.toOption]

theorem abiText_of_loadAssets (hname : abiName ds = some name) {assets : Properties String}
    (hassets : loadAssets loader ds = .ok assets) :
    abiText loader ds = match get assets name with
      | .own text => truthy (some text)
      | _ => none := by
  rw [abiText, hname, hassets]

/-- No interface is kept under an inherited name. -/
theorem not_inherited_of_kept (hkept : KeptFrom loader dataSources contractInterfaces) {iface : ι}
    (h : contractInterfaces.lookup name = some iface) : name ∉ inheritedNames := by
  obtain ⟨ds, -, hname, hiface⟩ := hkept name iface h
  rw [dsInterface_eq_some_iff] at hiface
  obtain ⟨_, hown, hinherited, -⟩ := hiface
  rw [Option.some.inj (hname.symm.trans hown)]
  exact hinherited

/-- An interface kept under the name of a data source is the one of its own ABI. -/
theorem dsInterface_of_kept (hsame : SameAbi loader dataSources)
    (hkept : KeptFrom loader dataSources contractInterfaces) (hds : ds ∈ dataSources)
    (hname : abiName ds = some name) {text : String} (htext : abiText loader ds = some text)
    {iface : ι} (h : contractInterfaces.lookup name = some iface) :
    dsInterface loader ds = some iface := by
  have hinherited := not_inherited_of_kept hkept h
  obtain ⟨ds', hds', hname', hiface⟩ := hkept name iface h
  rw [dsInterface_eq_some_iff] at hiface
  obtain ⟨_, _, _, text', htext', hparse⟩ := hiface
  have htexts : text = text' :=
    hsame ds hds ds' hds' (hname.trans hname'.symm) text htext text' htext'
  rw [dsInterface_eq_some_iff]
  refine ⟨name, hname, hinherited, text, htext, ?_⟩
  rw [htexts, hparse]

theorem dsInterface_of_parse (hname : abiName ds = some name) (hinherited : name ∉ inheritedNames)
    {text : String} (htext : abiText loader ds = some text) :
    dsInterface loader ds = (parseInterface loader text).toOption := by
  rw [dsInterface, hname, htext]
  simp only [if_neg hinherited]

theorem dsInterface_of_no_text (htext : abiText loader ds = none) :
    dsInterface loader ds = none := by
  rw [dsInterface, htext]
  cases abiName ds with
  | none => rfl
  | some name => rfl

theorem keptFrom_set (hkept : KeptFrom loader dataSources contractInterfaces)
    (hds : ds ∈ dataSources) (hname : abiName ds = some name)
    (hinherited : name ∉ inheritedNames) {iface : ι}
    (hiface : dsInterface loader ds = some iface) :
    KeptFrom loader dataSources (set contractInterfaces name iface) := by
  intro other found hlookup
  have hproto : name ≠ "__proto__" := fun h => hinherited (by rw [h]; decide)
  rw [lookup_set contractInterfaces name other iface hproto] at hlookup
  by_cases h : other = name
  · rw [if_pos h] at hlookup
    rw [h, ← Option.some.inj hlookup]
    exact ⟨ds, hds, hname, hiface⟩
  · rw [if_neg h] at hlookup
    exact hkept other found hlookup

/-- **What `loadInterface` finds and keeps**: the interface of the data source's own ABI. -/
theorem loadInterface_spec (hsame : SameAbi loader dataSources)
    (hkept : KeptFrom loader dataSources contractInterfaces) (hds : ds ∈ dataSources)
    (hname : abiName ds = some name) :
    found (loadInterface loader ds name contractInterfaces) = dsInterface loader ds ∧
      KeptFrom loader dataSources
        (keptAfter contractInterfaces (loadInterface loader ds name contractInterfaces)) := by
  rw [loadInterface]
  cases hassets : loadAssets loader ds with
  | error e =>
    have hnone : dsInterface loader ds = none := by
      rw [dsInterface, hname]
      simp only [abiText, hname, hassets]
    exact ⟨hnone.symm, hkept⟩
  | ok assets =>
    have htext := abiText_of_loadAssets hname hassets
    show found (buildInterface loader name assets contractInterfaces) = dsInterface loader ds ∧
      KeptFrom loader dataSources
        (keptAfter contractInterfaces (buildInterface loader name assets contractInterfaces))
    rw [buildInterface]
    cases hasset : get assets name with
    | absent =>
      rw [hasset] at htext
      exact ⟨(dsInterface_of_no_text htext).symm, hkept⟩
    | inherited =>
      rw [hasset] at htext
      have hnone := (dsInterface_of_no_text htext).symm
      cases hcached : get contractInterfaces name with
      | absent => exact ⟨hnone, hkept⟩
      | inherited => exact ⟨hnone, hkept⟩
      | own iface =>
        have hin := ((get_eq_inherited_iff assets name).mp hasset).2
        have hlookup := (get_eq_own_iff contractInterfaces name iface).mp hcached
        exact absurd hin (not_inherited_of_kept hkept hlookup)
    | own text =>
      rw [hasset] at htext
      by_cases hempty : text = ""
      · have hnone : abiText loader ds = none := by
          rw [htext, truthy_eq_none]
          exact .inr (congrArg some hempty)
        simp only [if_pos hempty]
        exact ⟨(dsInterface_of_no_text hnone).symm, hkept⟩
      · have hsome : abiText loader ds = some text := by
          rw [htext, truthy_eq_some]
          exact ⟨rfl, hempty⟩
        simp only [if_neg hempty]
        cases hcached : get contractInterfaces name with
        | own iface =>
          have hlookup := (get_eq_own_iff contractInterfaces name iface).mp hcached
          exact ⟨(dsInterface_of_kept hsame hkept hds hname hsome hlookup).symm, hkept⟩
        | inherited =>
          have hin := ((get_eq_inherited_iff contractInterfaces name).mp hcached).2
          have hnone : dsInterface loader ds = none := by
            rw [dsInterface, hname, hsome]
            simp only [if_pos hin]
          exact ⟨hnone.symm, hkept⟩
        | absent =>
          have hout := ((get_eq_absent_iff contractInterfaces name).mp hcached).2
          have hown := dsInterface_of_parse hname hout hsome
          cases hparse : parseInterface loader text with
          | error e =>
            rw [hparse] at hown
            exact ⟨hown.symm, hkept⟩
          | ok iface =>
            rw [hparse] at hown
            exact ⟨hown.symm, keptFrom_set hkept hds hname hout hown⟩

end Spec

end SubqlEthereum.Abi
