import SubqlEthereum.External
import SubqlEthereum.Library.Fallible
import SubqlEthereum.Library.Paths
import SubqlEthereum.Library.PlainObject

/-!
# The assets code is generated for

`prepareSortedAssets` of `codegen-controller.ts`.  The ABI files of all data sources go into one
record, under the name of the contract each file stands for.  The record keeps the file that was
put there last, so a file is lost to another one of the same contract name
(`assets_kept_iff`).
-/

namespace SubqlEthereum.Codegen

open SubqlEthereum.External SubqlEthereum.Fallible SubqlEthereum.PlainObject

/-! ### Collecting the assets -/

/-- What is read of a data source of any kind; the assets are named files. -/
structure CodegenDatasource where
  kind : String
  hasProcessor : Bool := false
  assets : Option (List (String × String))
deriving Repr

def CUSTOM_EVM_HANDLERS : List String :=
  ["cosmos/EthermintEvm", "substrate/FrontierEvm", "substrate/AcalaEvm", "substrate/Moonbeam"]

def isRuntimeDs (ds : CodegenDatasource) : Bool := ds.kind = "ethereum/Runtime"

def isCustomDs (ds : CodegenDatasource) : Bool :=
  ds.kind ≠ "ethereum/Runtime" && ds.hasProcessor

def validateCustomDsDs (d : CodegenDatasource) : Bool := CUSTOM_EVM_HANDLERS.contains d.kind

/-- The file system, and the `name` of `parseContractPath`, which throws on a file name that makes
no identifier. -/
structure AssetReader where
  existsSync : String → Bool
  contractName : String → Except JsError String

section Collect

variable (reader : AssetReader) (projectPath : String)

def assetPath (file : String) : String := Paths.join [projectPath, file]

def addAsset (sortedAssets : Properties String) (asset : String × String) :
    Except JsError (Properties String) := do
  let filePath := assetPath projectPath asset.2
  if !reader.existsSync filePath then
    throw { message := "Error: Asset " ++ asset.1 ++ ", file " ++ asset.2 ++ " does not exist" }
  let name ← reader.contractName filePath
  return set sortedAssets name asset.2

def addDatasource (sortedAssets : Properties String) (d : CodegenDatasource) :
    Except JsError (Properties String) :=
  match d.assets with
  | none => .ok sortedAssets
  | some assets =>
    if !isRuntimeDs d && !isCustomDs d && !validateCustomDsDs d then .ok sortedAssets
    else assets.foldlM (addAsset reader projectPath) sortedAssets

def prepareSortedAssets (datasources : List CodegenDatasource) :
    Except JsError (Properties String) :=
  datasources.foldlM (addDatasource reader projectPath) []

end Collect

/-- A data source is taken when it is of one of the three sorts. -/
def accepted (d : CodegenDatasource) : Bool := isRuntimeDs d || isCustomDs d || validateCustomDsDs d

/-- The assets of the accepted data sources, in the order they are added. -/
def referenced (datasources : List CodegenDatasource) : List (String × String) :=
  datasources.flatMap fun d => if accepted d then d.assets.getD [] else []

/-- The file is in the record, perhaps under another text for its path. -/
def Kept (projectPath : String) (sortedAssets : Properties String) (file : String) : Prop :=
  ∃ name value, sortedAssets.lookup name = some value ∧
    assetPath projectPath value = assetPath projectPath file

/-- The assets have contract names that the record can hold, and different files have different
ones. -/
structure DistinctContracts (reader : AssetReader) (projectPath : String)
    (assets : List (String × String)) : Prop where
  settable : ∀ asset ∈ assets,
    reader.contractName (assetPath projectPath asset.2) ≠ .ok "__proto__"
  distinct : ∀ asset ∈ assets, ∀ other ∈ assets,
    reader.contractName (assetPath projectPath asset.2) =
        reader.contractName (assetPath projectPath other.2) →
      assetPath projectPath asset.2 = assetPath projectPath other.2

/-! ### What the record holds -/

section Record

variable {reader : AssetReader} {projectPath : String}

theorem addDatasource_eq (sortedAssets : Properties String) (d : CodegenDatasource) :
    addDatasource reader projectPath sortedAssets d =
      (referenced [d]).foldlM (addAsset reader projectPath) sortedAssets := by
  have hreferenced : referenced [d] = if accepted d then d.assets.getD [] else [] :=
    List.append_nil _
  have htest : (!isRuntimeDs d && !isCustomDs d && !validateCustomDsDs d) = !accepted d := by
    rw [accepted, Bool.not_or, Bool.not_or]
  rw [addDatasource, hreferenced, htest]
  cases d.assets with
  | none => cases accepted d <;> rfl
  | some assets => cases accepted d <;> rfl

/-- **One loop over all assets**: the data sources matter only by the assets they refer to. -/
theorem prepareSortedAssets_eq (datasources : List CodegenDatasource) :
    prepareSortedAssets reader projectPath datasources =
      (referenced datasources).foldlM (addAsset reader projectPath) [] := by
  rw [prepareSortedAssets]
  generalize ([] : Properties String) = start
  induction datasources generalizing start with
  | nil => rfl
  | cons d datasources ih =>
    have hsplit : referenced (d :: datasources) = referenced [d] ++ referenced datasources := by
      rw [referenced, referenced, referenced, ← List.flatMap_append, List.singleton_append]
    rw [List.foldlM_cons, hsplit, List.foldlM_append, addDatasource_eq]
    congr 1
    funext sortedAssets
    exact ih sortedAssets

theorem addAsset_spec {sortedAssets next : Properties String} {asset : String × String}
    (h : addAsset reader projectPath sortedAssets asset = .ok next) :
    ∃ name, reader.contractName (assetPath projectPath asset.2) = .ok name ∧
      next = set sortedAssets name asset.2 := by
  cases hfile : reader.existsSync (assetPath projectPath asset.2) with
  | false =>
    simp only [addAsset, hfile, Bool.not_false, if_true] at h
    exact absurd h (by simp [throw, throwThe, MonadExceptOf.throw, bind, Except.bind])
  | true =>
    simp only [addAsset, hfile, Bool.not_true, Bool.false_eq_true, if_false] at h
    obtain ⟨name, hcontract, hset⟩ := ok_of_bind_ok h
    exact ⟨name, hcontract, (Except.ok.inj hset).symm⟩

theorem addAsset_error {sortedAssets : Properties String} {asset : String × String} {e : JsError}
    (hexists : reader.existsSync (assetPath projectPath asset.2) = true)
    (h : addAsset reader projectPath sortedAssets asset = .error e) :
    reader.contractName (assetPath projectPath asset.2) = .error e := by
  simp only [addAsset, hexists, Bool.not_true, Bool.false_eq_true, if_false] at h
  cases hcontract : reader.contractName (assetPath projectPath asset.2) with
  | error e' =>
    rw [hcontract] at h
    exact congrArg Except.error (Except.error.inj h)
  | ok name =>
    rw [hcontract] at h
    exact absurd h (by simp [bind, Except.bind, pure, Except.pure])

/-- What is in the record after some assets: each entry is the file of one of them under its
contract name, and each contract name has an entry. -/
structure RecordOf (reader : AssetReader) (projectPath : String) (done : List (String × String))
    (sortedAssets : Properties String) : Prop where
  origin : ∀ name value, sortedAssets.lookup name = some value →
    name ≠ "__proto__" ∧ ∃ asset ∈ done, asset.2 = value ∧
      reader.contractName (assetPath projectPath asset.2) = .ok name
  named : ∀ asset ∈ done, ∃ name,
    reader.contractName (assetPath projectPath asset.2) = .ok name ∧
      (name ≠ "__proto__" → ∃ value, sortedAssets.lookup name = some value)

/-- **One asset more.** -/
theorem recordOf_concat {done : List (String × String)} {asset : String × String}
    {sortedAssets next : Properties String}
    (hinv : RecordOf reader projectPath done sortedAssets)
    (h : addAsset reader projectPath sortedAssets asset = .ok next) :
    RecordOf reader projectPath (done ++ [asset]) next := by
  obtain ⟨name, hcontract, rfl⟩ := addAsset_spec h
  by_cases hproto : name = "__proto__"
  · rw [PlainObject.set, if_pos hproto]
    refine ⟨?_, ?_⟩
    · intro other value hlookup
      obtain ⟨hne, found, hfound, hrest⟩ := hinv.origin other value hlookup
      exact ⟨hne, found, List.mem_append_left _ hfound, hrest⟩
    · intro other hother
      rcases List.mem_append.mp hother with hdone | hnew
      · exact hinv.named other hdone
      · obtain rfl := List.mem_singleton.mp hnew
        exact ⟨name, hcontract, fun hne => absurd hproto hne⟩
  · refine ⟨?_, ?_⟩
    · intro other value hlookup
      rw [lookup_set _ _ _ _ hproto] at hlookup
      split_ifs at hlookup with hsame
      · rw [hsame]
        exact ⟨hproto, asset, List.mem_append_right _ List.mem_cons_self,
          Option.some.inj hlookup, hcontract⟩
      · obtain ⟨hne, found, hfound, hrest⟩ := hinv.origin other value hlookup
        exact ⟨hne, found, List.mem_append_left _ hfound, hrest⟩
    · intro other hother
      rcases List.mem_append.mp hother with hdone | hnew
      · obtain ⟨found, hfound, hlookup⟩ := hinv.named other hdone
        refine ⟨found, hfound, ?_⟩
        intro hne
        rw [lookup_set _ _ _ _ hproto]
        by_cases hsame : found = name
        · exact ⟨asset.2, if_pos hsame⟩
        · obtain ⟨value, hvalue⟩ := hlookup hne
          exact ⟨value, by rw [if_neg hsame, hvalue]⟩
      · obtain rfl := List.mem_singleton.mp hnew
        refine ⟨name, hcontract, ?_⟩
        intro _
        exact ⟨other.2, by rw [lookup_set _ _ _ _ hproto, if_pos rfl]⟩

/-- **The record of all assets.** -/
theorem recordOf_prepareSortedAssets {datasources : List CodegenDatasource}
    {sortedAssets : Properties String}
    (h : prepareSortedAssets reader projectPath datasources = .ok sortedAssets) :
    RecordOf reader projectPath (referenced datasources) sortedAssets := by
  rw [prepareSortedAssets_eq] at h
  have hstart : RecordOf reader projectPath [] [] :=
    ⟨fun _ _ hlookup => absurd hlookup (by simp), List.forall_mem_nil _⟩
  have hall := foldlM_invariant (addAsset reader projectPath) (RecordOf reader projectPath)
    (fun _ _ _ _ => recordOf_concat) (referenced datasources) [] [] sortedAssets hstart h
  rwa [List.nil_append] at hall

/-! ### When no asset is lost -/

theorem kept_iff_distinctContracts {assets : List (String × String)}
    {sortedAssets : Properties String} (hrecord : RecordOf reader projectPath assets sortedAssets) :
    (∀ asset ∈ assets, Kept projectPath sortedAssets asset.2) ↔
      DistinctContracts reader projectPath assets := by
  constructor
  · intro hkept
    -- A file is only ever found under its own contract name.
    have hfound : ∀ asset ∈ assets, ∀ name,
        reader.contractName (assetPath projectPath asset.2) = .ok name →
          name ≠ "__proto__" ∧ ∃ value, sortedAssets.lookup name = some value ∧
            assetPath projectPath value = assetPath projectPath asset.2 := by
      intro asset hasset name hname
      obtain ⟨other, value, hlookup, hpath⟩ := hkept asset hasset
      obtain ⟨hne, found, -, rfl, hcontract⟩ := hrecord.origin other value hlookup
      rw [hpath, hname] at hcontract
      obtain rfl := Except.ok.inj hcontract
      exact ⟨hne, found.2, hlookup, hpath⟩
    refine ⟨?_, ?_⟩
    · intro asset hasset hproto
      exact (hfound asset hasset _ hproto).1 rfl
    · intro asset hasset other hother hsame
      obtain ⟨name, hname, -⟩ := hrecord.named asset hasset
      obtain ⟨-, value, hlookup, hpath⟩ := hfound asset hasset name hname
      obtain ⟨-, value', hlookup', hpath'⟩ := hfound other hother name (hsame ▸ hname)
      rw [hlookup] at hlookup'
      rw [← hpath, ← hpath', Option.some.inj hlookup']
  · intro hdistinct asset hasset
    obtain ⟨name, hname, hlookup⟩ := hrecord.named asset hasset
    have hne : name ≠ "__proto__" := by
      rintro rfl
      exact hdistinct.settable asset hasset hname
    obtain ⟨value, hvalue⟩ := hlookup hne
    obtain ⟨-, found, hfound, rfl, hcontract⟩ := hrecord.origin name value hvalue
    exact ⟨name, found.2, hvalue, hdistinct.distinct found hfound asset hasset
      (hcontract.trans hname.symm)⟩

end Record

/-- **When the files exist, the record keeps all of them exactly when different files have different
contract names**; it is not made at all only when a file has no contract name. -/
theorem assets_kept_iff (reader : AssetReader) (projectPath : String)
    (datasources : List CodegenDatasource)
    (hexists : ∀ asset ∈ referenced datasources,
      reader.existsSync (assetPath projectPath asset.2) = true) :
    (∀ sortedAssets, prepareSortedAssets reader projectPath datasources = .ok sortedAssets →
      ((∀ asset ∈ referenced datasources, Kept projectPath sortedAssets asset.2) ↔
        DistinctContracts reader projectPath (referenced datasources))) ∧
    ∀ e, prepareSortedAssets reader projectPath datasources = .error e →
      ∃ asset ∈ referenced datasources,
        reader.contractName (assetPath projectPath asset.2) = .error e := by
  refine ⟨?_, ?_⟩
  · intro sortedAssets h
    exact kept_iff_distinctContracts (recordOf_prepareSortedAssets h)
  · intro e h
    rw [prepareSortedAssets_eq] at h
    obtain ⟨asset, hasset, _, hthrows⟩ := foldlM_error _ _ _ e h
    exact ⟨asset, hasset, addAsset_error (hexists asset hasset) hthrows⟩

/-! ### Two tokens -/

/-- The name of a file without its extension, with a capital letter. -/
def fileContractName (path : String) : String :=
  match ((path.toList.splitOn '/').getLast?.getD []).takeWhile (· ≠ '.') with
  | [] => ""
  | c :: rest => String.ofList (c.toUpper :: rest)

def tokenReader : AssetReader where
  existsSync _ := true
  contractName path := .ok (fileContractName path)

def tokenDatasource (first second : String) : CodegenDatasource where
  kind := "ethereum/Runtime"
  assets := some [("first", first), ("second", second)]

theorem tokens_distinct :
    DistinctContracts tokenReader "/app" [("first", "./erc20.json"), ("second", "./nft.json")] where
  settable := by
    have hall : [("first", "./erc20.json"), ("second", "./nft.json")].all
        (fun asset => fileContractName (assetPath "/app" asset.2) ≠ "__proto__") = true := by decide
    intro asset hasset hproto
    exact of_decide_eq_true (List.all_eq_true.mp hall asset hasset) (Except.ok.inj hproto)
  distinct := by
    have hall : [("first", "./erc20.json"), ("second", "./nft.json")].all (fun asset =>
        [("first", "./erc20.json"), ("second", "./nft.json")].all fun other =>
          fileContractName (assetPath "/app" asset.2) ≠
              fileContractName (assetPath "/app" other.2) ∨
            assetPath "/app" asset.2 = assetPath "/app" other.2) = true := by decide
    intro asset hasset other hother hsame
    have hpair := List.all_eq_true.mp (List.all_eq_true.mp hall asset hasset) other hother
    exact (of_decide_eq_true hpair).resolve_left fun hne => hne (Except.ok.inj hsame)

/-- Two files with different names are both kept. -/
theorem tokens_kept :
    Kept "/app" [("Nft", "./nft.json"), ("Erc20", "./erc20.json")] "./erc20.json" ∧
      Kept "/app" [("Nft", "./nft.json"), ("Erc20", "./erc20.json")] "./nft.json" := by
  have hkept := ((assets_kept_iff tokenReader "/app"
    [tokenDatasource "./erc20.json" "./nft.json"] (fun _ _ => rfl)).1 _ rfl).mpr tokens_distinct
  exact ⟨hkept ("first", "./erc20.json") List.mem_cons_self,
    hkept ("second", "./nft.json") (List.mem_cons_of_mem _ List.mem_cons_self)⟩

/-- Of two files with the same name in different directories the first is lost. -/
theorem token_dropped :
    ∃ sortedAssets, prepareSortedAssets tokenReader "/app"
        [tokenDatasource "./a/erc20.json" "./b/erc20.json"] = .ok sortedAssets ∧
      ¬ Kept "/app" sortedAssets "./a/erc20.json" := by
  refine ⟨[("Erc20", "./b/erc20.json"), ("Erc20", "./a/erc20.json")], rfl, ?_⟩
  intro h
  obtain ⟨name, value, hlookup, hpath⟩ := h
  rw [List.lookup_cons] at hlookup
  cases hname : name == "Erc20" with
  | true =>
    rw [hname] at hlookup
    obtain rfl : "./b/erc20.json" = value := Option.some.inj hlookup
    exact absurd hpath (by decide)
  | false =>
    rw [hname, List.lookup_cons, hname] at hlookup
    exact absurd hlookup (by simp)

end SubqlEthereum.Codegen
