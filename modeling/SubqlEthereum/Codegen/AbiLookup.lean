import SubqlEthereum.Codegen.CodegenController

/-!
# Looking the ABI of a data source up

Three places turn `options.abi` into a file: `validateAbi` and `EthereumApi.buildInterface` take the
asset of that name, `getAbiInterfaceFromDs` of `utils/project.ts`, which resolves the custom types
in the filters, takes the name for the name of a file in the project's `abis`.

`lookupsAgree_iff` says for which data sources that is one file, and what it takes for the filters
to be resolved with its ABI.
-/

namespace SubqlEthereum.Codegen

open SubqlEthereum.External SubqlEthereum.Project SubqlEthereum.JsonText SubqlEthereum.PlainObject
open SubqlEthereum.Abi SubqlEthereum.Paths

/-- The extensions a manifest or an ABI may have. -/
def supportedExtensions : List String := [".json", ".yaml", ".yml"]

/-- The loader together with `loadFromJsonOrYaml` of the common package: it reads the file at the
path, in which a JSON document is read as what it is, and fails when there is no such file or the
extension is another. -/
structure AbiReader (ι : Type) extends AbiLoader ι where
  loadFromJsonOrYaml : String → Except JsError Json
  load_unsupported : ∀ path, extname path ∉ supportedExtensions →
    ∃ e, loadFromJsonOrYaml path = .error e
  load_missing : ∀ path e, readFile path = .error e → ∃ e', loadFromJsonOrYaml path = .error e'
  load_json : ∀ path text document, extname path ∈ supportedExtensions →
    readFile path = .ok text → parseJson text = .ok document →
    loadFromJsonOrYaml path = .ok document

variable {ι : Type}

/-! ### The three lookups -/

def DEFAULT_ABI_DIR : String := "/abis"

def getAbiInterface (reader : AbiReader ι) (projectPath abiFileName : String) :
    Except JsError ι := do
  let notValid : JsError := { message := "Provided ABI is not a valid ABI or Artifact" }
  let abi ← reader.loadFromJsonOrYaml (join [projectPath, DEFAULT_ABI_DIR, abiFileName])
  match abi with
  | .arr items => reader.newInterface (.arr items)
  | .obj fields =>
    match (fields.lookup "abi").filter isTruthy with
    | some abi => reader.newInterface abi
    | none => .error notValid
  | .null => .error { name := "TypeError",
                      message := "Cannot read properties of null (reading 'abi')" }
  | _ => .error notValid

/-- A failure of any kind is logged, and the filters are left as they are. -/
def getAbiInterfaceFromDs (reader : AbiReader ι) (ds : SubqlRuntimeDatasource)
    (projectPath : String) : Option ι :=
  match abiName ds with
  | none => none
  | some name =>
    if projectPath = "" then none else (getAbiInterface reader projectPath name).toOption

/-- The interface `validateAbi` compares the filters with. -/
def validatedInterface (reader : AbiReader ι) (projectPath : String) (ds : SubqlRuntimeDatasource)
    (name : String) : Option ι :=
  (abiData reader.toAbiLoader projectPath ds name).bind fun data =>
    (parseInterface reader.toAbiLoader data).toOption

/-- The interface the first call of `buildInterface` decodes with. -/
def decodingInterface (reader : AbiReader ι) (ds : SubqlRuntimeDatasource) (name : String) :
    Option ι :=
  found (loadInterface reader.toAbiLoader ds name [])

/-- The data source as the node has it: every asset with the path the loaded project gives it. -/
def resolveAssets (resolve : String → String) (ds : SubqlRuntimeDatasource) :
    SubqlRuntimeDatasource :=
  { ds with assets := ds.assets.map (·.map fun (name, file) => (name, resolve file)) }

/-- The lookups take one file, and when validation and decoding have an interface, resolution has
the same one. -/
structure LookupsAgree (reader : AbiReader ι) (projectPath : String) (resolve : String → String)
    (ds : SubqlRuntimeDatasource) (name file : String) : Prop where
  same_as_validated : join [projectPath, DEFAULT_ABI_DIR, name] = join [projectPath, file]
  same_as_decoded : join [projectPath, DEFAULT_ABI_DIR, name] = resolve file
  resolves : ∀ iface, validatedInterface reader projectPath ds name = some iface →
    (decodingInterface reader (resolveAssets resolve ds) name).isSome = true →
    getAbiInterfaceFromDs reader (resolveAssets resolve ds) projectPath = some iface

/-! ### When they agree -/

/-- From the project directory the file of the asset leads to the entry of `abis` with the name of
the ABI, and both or neither end in a slash. -/
def EntryOfAbis (projectPath name file : String) : Prop :=
  let rooted := isRooted projectPath.toList
  let project := follow rooted [] projectPath.toList
  let entry := follow rooted ("abis".toList :: project) name.toList
  entry = follow rooted project file.toList ∧
    (isClosed (joined [projectPath, DEFAULT_ABI_DIR, name]) =
        isClosed (joined [projectPath, file]) ∨
      rooted = true ∧ entry = [])

/-- A document that is an ABI, or an artifact with one. -/
def isAbiDocument : Json → Bool
  | .arr _ => true
  | .obj fields => ((fields.lookup "abi").filter isTruthy).isSome
  | _ => false

/-- The interface of a document's ABI. -/
def documentInterface (loader : AbiLoader ι) (document : Json) : Except JsError ι := do
  let abi ← abiOfDocument document
  loader.newInterface abi

/-- The file of the asset holds a document that both validation and decoding build an interface
from. -/
structure Built (reader : AbiReader ι) (projectPath : String) (resolve : String → String)
    (ds : SubqlRuntimeDatasource) (file : String) (document : Json) : Prop where
  read : ∃ text, reader.readFile (join [projectPath, file]) = .ok text ∧
    reader.parseJson text = .ok document
  validated : ∃ iface, documentInterface reader.toAbiLoader document = .ok iface
  decoded : (dsInterface reader.toAbiLoader (resolveAssets resolve ds)).isSome = true

section Agree

variable {reader : AbiReader ι} {projectPath name file : String} {resolve : String → String}
variable {ds : SubqlRuntimeDatasource}

theorem entryOfAbis_iff (hproject : projectPath ≠ "") :
    EntryOfAbis projectPath name file ↔
      join [projectPath, DEFAULT_ABI_DIR, name] = join [projectPath, file] := by
  have habis : ∀ dir, follow (isRooted projectPath.toList) dir DEFAULT_ABI_DIR.toList =
      "abis".toList :: dir := fun dir => rfl
  rw [join_eq_join_iff projectPath hproject [DEFAULT_ABI_DIR, name] [file]]
  simp only [followParts, List.foldl_cons, List.foldl_nil, habis]
  rfl

/-- The first call of `buildInterface` finds the interface of the data source's own ABI. -/
theorem decodingInterface_eq (reader : AbiReader ι) (hname : abiName ds = some name) :
    decodingInterface reader ds name = dsInterface reader.toAbiLoader ds := by
  have hsame : SameAbi reader.toAbiLoader [ds] := by
    intro first hfirst second hsecond _ text htext text' htext'
    rw [List.mem_singleton.mp hfirst] at htext
    rw [List.mem_singleton.mp hsecond] at htext'
    exact Option.some.inj (htext.symm.trans htext')
  have hkept : KeptFrom reader.toAbiLoader [ds] [] := by
    intro other iface h
    exact absurd h (by simp)
  exact (loadInterface_spec hsame hkept (List.mem_singleton_self ds) hname).1

/-- What validation makes of the asset's file. -/
theorem validatedInterface_eq_some_iff (hfile : ds.assets.bind (·.lookup name) = some file)
    (iface : ι) :
    validatedInterface reader projectPath ds name = some iface ↔
      ∃ text document, reader.readFile (join [projectPath, file]) = .ok text ∧
        reader.parseJson text = .ok document ∧
        documentInterface reader.toAbiLoader document = .ok iface := by
  rw [validatedInterface, abiData, hfile]
  simp only
  cases hread : reader.readFile (join [projectPath, file]) with
  | error e => simp [Except.toOption]
  | ok text =>
    show (parseInterface reader.toAbiLoader text).toOption = some iface ↔ _
    rw [parseInterface]
    cases hparse : reader.parseJson text with
    | error e => simp [hparse, Except.toOption, bind, Except.bind]
    | ok document =>
      show (documentInterface reader.toAbiLoader document).toOption = some iface ↔ _
      cases hbuild : documentInterface reader.toAbiLoader document with
      | error e => simp [hparse, hbuild, Except.toOption]
      | ok other => simp [hparse, hbuild, Except.toOption]

/-- **What resolution makes of a file** that holds a JSON document. -/
theorem getAbiInterface_of_document {text : String} {document : Json}
    (hread : reader.readFile (join [projectPath, DEFAULT_ABI_DIR, name]) = .ok text)
    (hparse : reader.parseJson text = .ok document) :
    (getAbiInterface reader projectPath name).toOption =
      if extname (join [projectPath, DEFAULT_ABI_DIR, name]) ∈ supportedExtensions ∧
          isAbiDocument document = true then
        (documentInterface reader.toAbiLoader document).toOption
      else none := by
  by_cases hext : extname (join [projectPath, DEFAULT_ABI_DIR, name]) ∈ supportedExtensions
  · have hload := reader.load_json _ text document hext hread hparse
    rw [getAbiInterface]
    simp only [hload, hext, true_and]
    cases document with
    | arr items => rfl
    | obj fields =>
      cases habi : (fields.lookup "abi").filter isTruthy with
      | some abi => simp [isAbiDocument, documentInterface, abiOfDocument, habi, bind, Except.bind]
      | none => simp [isAbiDocument, habi, bind, Except.bind, Except.toOption]
    | null => rfl
    | bool b => rfl
    | num n => rfl
    | str text => rfl
  · obtain ⟨e, he⟩ := reader.load_unsupported _ hext
    rw [getAbiInterface]
    simp only [he, hext, false_and, if_false]
    rfl

/-- **When the three lookups agree**: the file of the asset is the entry of `abis` with the name of
the ABI; and if an interface can be built from it at all, it has a supported extension and holds an
ABI or an artifact with one. -/
theorem lookupsAgree_iff (hproject : projectPath ≠ "") (hname : abiName ds = some name)
    (hfile : ds.assets.bind (·.lookup name) = some file)
    (hresolve : resolve file = join [projectPath, file]) :
    LookupsAgree reader projectPath resolve ds name file ↔
      EntryOfAbis projectPath name file ∧
        ∀ document, Built reader projectPath resolve ds file document →
          extname (join [projectPath, file]) ∈ supportedExtensions ∧
            isAbiDocument document = true := by
  have hnode : abiName (resolveAssets resolve ds) = some name := hname
  have hresolution : getAbiInterfaceFromDs reader (resolveAssets resolve ds) projectPath =
      (getAbiInterface reader projectPath name).toOption := by
    rw [getAbiInterfaceFromDs, hnode]
    simp only [if_neg hproject]
  have hdecoding := decodingInterface_eq reader hnode
  constructor
  · intro h
    refine ⟨(entryOfAbis_iff hproject).mpr h.same_as_validated, ?_⟩
    intro document hbuilt
    obtain ⟨text, hread, hparse⟩ := hbuilt.read
    obtain ⟨iface, hiface⟩ := hbuilt.validated
    have hfound := h.resolves iface
      ((validatedInterface_eq_some_iff hfile iface).mpr ⟨text, document, hread, hparse, hiface⟩)
      (by rw [hdecoding]; exact hbuilt.decoded)
    rw [← h.same_as_validated] at hread
    rw [hresolution, getAbiInterface_of_document hread hparse] at hfound
    rw [← h.same_as_validated]
    by_contra hnot
    rw [if_neg hnot] at hfound
    exact absurd hfound (by simp)
  · intro h
    have hsame := (entryOfAbis_iff hproject).mp h.1
    refine ⟨hsame, hsame.trans hresolve.symm, ?_⟩
    intro iface hvalidated hdecoded
    obtain ⟨text, document, hread, hparse, hiface⟩ :=
      (validatedInterface_eq_some_iff hfile iface).mp hvalidated
    rw [hdecoding] at hdecoded
    have htaken := h.2 document ⟨⟨text, hread, hparse⟩, ⟨iface, hiface⟩, hdecoded⟩
    rw [← hsame] at hread htaken
    rw [hresolution, getAbiInterface_of_document hread hparse, if_pos htaken, hiface]
    rfl

end Agree

/-! ### A project with one ABI -/

/-- The files of a project, read as JSON whatever their extension. -/
def erc20Reader : AbiReader Unit where
  toAbiLoader := erc20Listing.toAbiLoader
  loadFromJsonOrYaml path :=
    if extname path ∈ supportedExtensions then do
      let text ← erc20Listing.readFile path
      erc20Listing.parseJson text
    else .error { message := "Extension " ++ extname path ++ " not supported" }
  load_unsupported := fun path h => ⟨_, if_neg h⟩
  load_missing := by
    intro path e he
    by_cases h : extname path ∈ supportedExtensions
    · rw [if_pos h, he]
      exact ⟨e, rfl⟩
    · exact ⟨_, if_neg h⟩
  load_json := by
    intro path text document h hread hparse
    rw [if_pos h, hread]
    exact hparse

/-- The data source of the token, with its ABI under a name of choice. -/
def namedDs (name : String) : SubqlRuntimeDatasource where
  options := some { abi := some name }
  assets := some [(name, "./abis/erc20.json")]
  handlers := []

/-- The asset named `erc20` is validated and decoded with, but not found by resolution. -/
theorem abi_not_resolved :
    validatedInterface erc20Reader "/project" (namedDs "erc20") "erc20" = some () ∧
      decodingInterface erc20Reader
        (resolveAssets (fun file => join ["/project", file]) (namedDs "erc20")) "erc20" =
          some () ∧
      getAbiInterfaceFromDs erc20Reader
        (resolveAssets (fun file => join ["/project", file]) (namedDs "erc20")) "/project" = none ∧
      ¬ LookupsAgree erc20Reader "/project" (fun file => join ["/project", file])
        (namedDs "erc20") "erc20" "./abis/erc20.json" := by
  refine ⟨by decide, by decide, by decide, ?_⟩
  intro h
  exact absurd h.same_as_validated (by decide)

/-- Named like its file, it is found. -/
theorem lookupsAgree_erc20 :
    LookupsAgree erc20Reader "/project" (fun file => join ["/project", file])
      (namedDs "erc20.json") "erc20.json" "./abis/erc20.json" := by
  rw [lookupsAgree_iff (by decide) rfl rfl rfl]
  refine ⟨by unfold EntryOfAbis; decide, ?_⟩
  intro document hbuilt
  obtain ⟨text, hread, hparse⟩ := hbuilt.read
  have hpath : join ["/project", "./abis/erc20.json"] = "/project/abis/erc20.json" := by decide
  rw [hpath] at hread
  have htext : erc20Abi = text := Except.ok.inj hread
  rw [← htext] at hparse
  rw [hpath, ← Except.ok.inj hparse]
  decide

end SubqlEthereum.Codegen
