import SubqlEthereum.Abi
import SubqlEthereum.Dictionary.EthDictionaryV1
import SubqlEthereum.Library.Fallible
import SubqlEthereum.Library.Paths

/-!
# Validating the filters of a project against its ABIs

`validateAbi` of `codegen-controller.ts`.  For each data source with an ABI the topics and the
functions of its handlers are parsed as signatures and looked up in the ABI.  What is missing
becomes an issue, and any issue makes the whole validation fail.

The node takes more than signatures: a hex string stands for itself in `eventToTopic` and
`functionToSighash`.  Of the filters the node takes, validation passes exactly those without a hex
string (`validateAbi_accepts_iff`).
-/

namespace SubqlEthereum.Codegen

open SubqlEthereum.External SubqlEthereum.Project SubqlEthereum.Strings SubqlEthereum.WordText
open SubqlEthereum.Fallible SubqlEthereum.Abi
open SubqlEthereum.Dictionary (NOT_NULL_FILTER)

/-- The loader together with the signatures an interface lists, in the form `format` gives. -/
structure AbiListing (ι : Type) extends AbiLoader ι where
  functionFormats : ι → List String
  eventFormats : ι → List String

variable {ι : Type}

/-! ### The validation -/

/-- The text of the asset named by the ABI option; `none` when there is no such asset or its file
cannot be read. -/
def abiData (loader : AbiLoader ι) (projectPath : String) (ds : SubqlRuntimeDatasource)
    (name : String) : Option String :=
  match ds.assets.bind (·.lookup name) with
  | none => none
  | some file => (loader.readFile (Paths.join [projectPath, file])).toOption

/-- A part of a filter that the ABI does not have. -/
inductive Missing
  | topic (text : String)
  | function (text : String)
deriving DecidableEq, Repr

def Missing.topic? : Missing → Option String
  | .topic text => some text
  | .function _ => none

def Missing.function? : Missing → Option String
  | .topic _ => none
  | .function text => some text

/-- Whether a topic is an event that the ABI does not have. -/
def topicMissing (p : Platform) (abiEvents : List String) (topic : Option String) :
    Except JsError Bool :=
  match truthy topic with
  | none => .ok false
  | some text =>
    if text = NOT_NULL_FILTER then .ok false
    else do
      let format ← p.eventFragmentFormat (replaceWord "indexed" "" text)
      return !abiEvents.contains format

/-- What is missing of one handler's filter; of the topics only the first one that is. -/
def missingOf (p : Platform) (abiEvents abiFunctions : List String) :
    SubqlRuntimeHandler → Except JsError (List Missing)
  | .event _ (some filter) => do
    let notMatch ← find (topicMissing p abiEvents) (filter.topics.getD [])
    return ((notMatch.bind truthy).map .topic).toList
  | .call _ (some filter) =>
    match truthy filter.function.join with
    | none => .ok []
    | some function => do
      let functionFormat ← p.functionFragmentFormat function
      return if abiFunctions.contains functionFormat then [] else [.function function]
  | _ => .ok []

/-- The issues of one data source. -/
def datasourceIssues (p : Platform) (listing : AbiListing ι) (projectPath : String)
    (ds : SubqlRuntimeDatasource) : Except JsError (List String) :=
  match abiName ds with
  | none => .ok []
  | some name =>
    match abiData listing.toAbiLoader projectPath ds name with
    | none => .ok ["Asset: \"" ++ name ++ "\" not found in project"]
    | some data => do
      let iface ← parseInterface listing.toAbiLoader data
      let abiFunctions := listing.functionFormats iface
      let abiEvents := listing.eventFormats iface
      let missing ← ds.handlers.mapM (missingOf p abiEvents abiFunctions)
      let topicIssues := missing.flatten.filterMap Missing.topic?
      let funcIssues := missing.flatten.filterMap Missing.function?
      return (if topicIssues = [] then [] else
          ["Topic: \"" ++ ", ".intercalate topicIssues ++ "\" not found in " ++ name ++
            " contract interface, supported topics: " ++ ", ".intercalate abiEvents]) ++
        (if funcIssues = [] then [] else
          ["Function: \"" ++ ", ".intercalate funcIssues ++ "\" not found in " ++ name ++
            " contract interface, supported functions: " ++ ", ".intercalate abiFunctions])

def validateAbi (p : Platform) (listing : AbiListing ι) (projectPath : String)
    (datasources : List SubqlRuntimeDatasource) : Except JsError Unit := do
  let issues ← datasources.mapM (datasourceIssues p listing projectPath)
  if issues.flatten = [] then return ()
  else throw { name := "AssertionError", message := "\n".intercalate issues.flatten }

/-! ### The filters the node takes -/

/-- A topic that stands for nothing, for any value, for itself or for an event of the ABI. -/
def TopicTaken (p : Platform) (abiEvents : List String) : Option String → Prop
  | none => True
  | some text =>
    text = NOT_NULL_FILTER ∨ isHexText text = true ∨
      ∃ format ∈ abiEvents, p.eventFragmentFormat (replaceWord "indexed" "" text) = .ok format

/-- A function that is `null`, a selector or `0x`, or a function of the ABI. -/
def FunctionTaken (p : Platform) (abiFunctions : List String) : Option String → Prop
  | none => True
  | some text =>
    isHexText text = true ∨ ∃ format ∈ abiFunctions, p.functionFragmentFormat text = .ok format

def HandlerTaken (p : Platform) (abiEvents abiFunctions : List String) :
    SubqlRuntimeHandler → Prop
  | .event _ (some filter) => ∀ topic ∈ filter.topics.getD [], TopicTaken p abiEvents topic
  | .call _ (some filter) => FunctionTaken p abiFunctions filter.function.join
  | _ => True

/-- A data source with a valid ABI asset, all of whose filters the node takes. -/
def DatasourceTaken (p : Platform) (listing : AbiListing ι) (projectPath : String)
    (ds : SubqlRuntimeDatasource) : Prop :=
  ∃ name data iface, abiName ds = some name ∧
    abiData listing.toAbiLoader projectPath ds name = some data ∧
    parseInterface listing.toAbiLoader data = .ok iface ∧
    ∀ handler ∈ ds.handlers,
      HandlerTaken p (listing.eventFormats iface) (listing.functionFormats iface) handler

/-- A filter with a topic or a function given as a hex string. -/
def spellsHex : SubqlRuntimeHandler → Bool
  | .event _ (some filter) => (filter.topics.getD []).any (·.any isHexText)
  | .call _ (some filter) => filter.function.join.any isHexText
  | _ => false

/-- The parsers of ethers take no text without a parenthesis for a signature. -/
structure ThrowsOnNonSignatures (p : Platform) : Prop where
  event : ∀ text, '(' ∉ text.toList → ∃ e, p.eventFragmentFormat text = .error e
  function : ∀ text, '(' ∉ text.toList → ∃ e, p.functionFragmentFormat text = .error e

/-! ### Validation of those filters -/

theorem paren_not_mem_of_isHexText (text : String) (h : isHexText text = true) :
    '(' ∉ text.toList := by
  rw [isHexText, hexDigits] at h
  split at h
  · rename_i digits htext
    split at h
    · rename_i hdigits
      intro hmem
      rw [htext] at hmem
      have hin : '(' ∈ digits := by simpa using hmem
      exact absurd (List.all_eq_true.mp hdigits '(' hin) (by decide)
    · exact absurd h (by simp)
  · exact absurd h (by simp)

section Validation

variable {p : Platform}

/-- **Of the topics the node takes**, exactly the hex strings do not pass. -/
theorem topicMissing_eq_false_iff (hp : ThrowsOnNonSignatures p) (abiEvents : List String)
    (topic : Option String) (htaken : TopicTaken p abiEvents topic) :
    topicMissing p abiEvents topic = .ok false ↔ topic.any isHexText = false := by
  cases topic with
  | none => exact iff_of_true rfl rfl
  | some text =>
    rw [Option.any_some]
    by_cases hempty : text = ""
    · rw [hempty]
      exact iff_of_true rfl (by decide)
    · have htruthy : truthy (some text) = some text := (truthy_eq_some _ _).mpr ⟨rfl, hempty⟩
      rw [topicMissing, htruthy]
      simp only
      by_cases hnull : text = NOT_NULL_FILTER
      · rw [if_pos hnull, hnull]
        exact iff_of_true rfl (by decide)
      · rw [if_neg hnull]
        cases hhex : isHexText text with
        | true =>
          have hparen : '(' ∉ (replaceWord "indexed" "" text).toList := fun h =>
            paren_not_mem_of_isHexText text hhex (mem_of_mem_replaceWord "indexed" text '(' h)
          obtain ⟨e, he⟩ := hp.event _ hparen
          rw [he]
          exact iff_of_false (fun h => absurd h (by simp [bind, Except.bind])) (by simp)
        | false =>
          have hsignature := (htaken.resolve_left hnull).resolve_left (by simp [hhex])
          obtain ⟨format, hlisted, hformat⟩ := hsignature
          rw [hformat]
          refine iff_of_true ?_ rfl
          show Except.ok (!abiEvents.contains format) = _
          rw [List.contains_iff_mem.mpr hlisted]
          rfl

/-- A topic that is found missing is not empty. -/
theorem truthy_of_topicMissing (abiEvents : List String) (topic : Option String)
    (h : topicMissing p abiEvents topic = .ok true) : ∃ text, truthy topic = some text := by
  rw [topicMissing] at h
  cases htruthy : truthy topic with
  | none =>
    rw [htruthy] at h
    exact absurd h (by simp)
  | some text => exact ⟨text, rfl⟩

theorem missingOf_event_eq_nil_iff (abiEvents abiFunctions : List String) (name : String)
    (filter : EthereumLogFilter) :
    missingOf p abiEvents abiFunctions (.event name (some filter)) = .ok [] ↔
      ∀ topic ∈ filter.topics.getD [], topicMissing p abiEvents topic = .ok false := by
  rw [← find_eq_none_iff, missingOf]
  cases hfind : find (topicMissing p abiEvents) (filter.topics.getD []) with
  | error e => simp [bind, Except.bind]
  | ok notMatch =>
    cases notMatch with
    | none => exact iff_of_true rfl rfl
    | some topic =>
      obtain ⟨text, htext⟩ := truthy_of_topicMissing abiEvents topic (of_find_eq_some _ _ _ hfind)
      refine iff_of_false ?_ (by simp)
      show Except.ok (((truthy topic).map Missing.topic).toList) ≠ _
      simp [htext]

/-- **Of the handlers the node takes**, exactly those with a hex string miss something. -/
theorem missingOf_eq_nil_iff (hp : ThrowsOnNonSignatures p) (abiEvents abiFunctions : List String)
    (handler : SubqlRuntimeHandler) (htaken : HandlerTaken p abiEvents abiFunctions handler) :
    missingOf p abiEvents abiFunctions handler = .ok [] ↔ spellsHex handler = false := by
  cases handler with
  | block handler filter => exact iff_of_true rfl rfl
  | event handler filter =>
    cases filter with
    | none => exact iff_of_true rfl rfl
    | some filter =>
      have htopics : ∀ topic ∈ filter.topics.getD [], TopicTaken p abiEvents topic := htaken
      rw [missingOf_event_eq_nil_iff, spellsHex, List.any_eq_false]
      constructor
      · intro h topic htopic
        simpa using (topicMissing_eq_false_iff hp abiEvents topic (htopics topic htopic)).mp
          (h topic htopic)
      · intro h topic htopic
        rw [topicMissing_eq_false_iff hp abiEvents topic (htopics topic htopic)]
        simpa using h topic htopic
  | call handler filter =>
    cases filter with
    | none => exact iff_of_true rfl rfl
    | some filter =>
      rw [missingOf, spellsHex]
      have hfunction : FunctionTaken p abiFunctions filter.function.join := htaken
      cases hjoin : filter.function.join with
      | none => exact iff_of_true rfl rfl
      | some text =>
        rw [hjoin] at hfunction
        rw [Option.any_some]
        by_cases hempty : text = ""
        · rw [hempty]
          exact iff_of_true rfl (by decide)
        · have htruthy : truthy (some text) = some text := (truthy_eq_some _ _).mpr ⟨rfl, hempty⟩
          rw [htruthy]
          simp only
          cases hhex : isHexText text with
          | true =>
            obtain ⟨e, he⟩ := hp.function text (paren_not_mem_of_isHexText text hhex)
            rw [he]
            exact iff_of_false (fun h => absurd h (by simp [bind, Except.bind])) (by simp)
          | false =>
            obtain ⟨format, hlisted, hformat⟩ := hfunction.resolve_left (by simp [hhex])
            rw [hformat]
            refine iff_of_true ?_ rfl
            show Except.ok (if abiFunctions.contains format then [] else _) = _
            rw [if_pos (List.contains_iff_mem.mpr hlisted)]

/-- Every missing part is a topic or a function. -/
theorem filterMap_missing_eq_nil_iff (missing : List Missing) :
    (missing.filterMap Missing.topic? = [] ∧ missing.filterMap Missing.function? = []) ↔
      missing = [] := by
  constructor
  · intro h
    cases missing with
    | nil => rfl
    | cons first rest =>
      cases first with
      | topic text => exact absurd h.1 (by simp [Missing.topic?])
      | function text => exact absurd h.2 (by simp [Missing.function?])
  · intro h
    rw [h]
    exact ⟨rfl, rfl⟩

/-- Nothing is an issue of a data source when nothing is missing in its handlers. -/
theorem datasourceIssues_eq_nil_iff (listing : AbiListing ι) (projectPath : String)
    (ds : SubqlRuntimeDatasource) {name data : String} {iface : ι} (hname : abiName ds = some name)
    (hdata : abiData listing.toAbiLoader projectPath ds name = some data)
    (hiface : parseInterface listing.toAbiLoader data = .ok iface) :
    datasourceIssues p listing projectPath ds = .ok [] ↔
      ∀ handler ∈ ds.handlers,
        missingOf p (listing.eventFormats iface) (listing.functionFormats iface) handler =
          .ok [] := by
  rw [← mapM_flatten_eq_nil_iff, datasourceIssues, hname]
  simp only [hdata, hiface]
  cases hmissing : ds.handlers.mapM
      (missingOf p (listing.eventFormats iface) (listing.functionFormats iface)) with
  | error e => simp [bind, Except.bind, hmissing]
  | ok missing =>
    simp only [bind, Except.bind, hmissing, pure, Except.pure, Except.ok.injEq,
      List.append_eq_nil_iff, ite_eq_left_iff, List.cons_ne_nil, imp_false, not_not,
      exists_eq_left']
    exact filterMap_missing_eq_nil_iff missing.flatten

/-- Validation passes when no data source has an issue. -/
theorem validateAbi_eq_ok_iff (listing : AbiListing ι) (projectPath : String)
    (datasources : List SubqlRuntimeDatasource) :
    validateAbi p listing projectPath datasources = .ok () ↔
      ∀ ds ∈ datasources, datasourceIssues p listing projectPath ds = .ok [] := by
  rw [← mapM_flatten_eq_nil_iff, validateAbi]
  cases hissues : datasources.mapM (datasourceIssues p listing projectPath) with
  | error e => simp [bind, Except.bind]
  | ok issues =>
    show (if issues.flatten = [] then _ else _) = _ ↔ _
    by_cases hnone : issues.flatten = []
    · rw [if_pos hnone]
      exact iff_of_true rfl ⟨issues, rfl, hnone⟩
    · rw [if_neg hnone]
      refine iff_of_false (by simp [throw, throwThe, MonadExceptOf.throw]) ?_
      intro h
      obtain ⟨out, hout, hnil⟩ := h
      rw [Except.ok.inj hout] at hnone
      exact hnone hnil

/-- **Validation passes the filters the node takes exactly when none has a hex string.** -/
theorem validateAbi_accepts_iff (hp : ThrowsOnNonSignatures p) (listing : AbiListing ι)
    (projectPath : String) (datasources : List SubqlRuntimeDatasource)
    (htaken : ∀ ds ∈ datasources, DatasourceTaken p listing projectPath ds) :
    validateAbi p listing projectPath datasources = .ok () ↔
      ∀ ds ∈ datasources, ∀ handler ∈ ds.handlers, spellsHex handler = false := by
  rw [validateAbi_eq_ok_iff]
  refine forall₂_congr fun ds hds => ?_
  obtain ⟨name, data, iface, hname, hdata, hiface, hhandlers⟩ := htaken ds hds
  rw [datasourceIssues_eq_nil_iff listing projectPath ds hname hdata hiface]
  exact forall₂_congr fun handler hhandler =>
    missingOf_eq_nil_iff hp _ _ handler (hhandlers handler hhandler)

end Validation

/-! ### A token -/

/-- The ABI of a token, cut down to an event and a function. -/
def erc20Abi : String :=
  "[\"event Transfer(address,address,uint256)\",\"function approve(address,uint256)\"]"

/-- The files of a project with that ABI. -/
def erc20Listing : AbiListing Unit where
  readFile path :=
    if path = "/project/abis/erc20.json" then .ok erc20Abi
    else .error { message := "ENOENT: no such file or directory" }
  parseJson text :=
    if text = erc20Abi then
      .ok (.arr [.str "event Transfer(address,address,uint256)",
        .str "function approve(address,uint256)"])
    else .error { name := "SyntaxError", message := "Unexpected token" }
  newInterface
    | .arr _ => .ok ()
    | _ => .error { name := "TypeError", message := "abi.map is not a function" }
  functionFormats _ := ["approve(address,uint256)"]
  eventFormats _ := ["Transfer(address,address,uint256)"]

/-- A data source of the token with a handler for its logs and one for the calls of it. -/
def erc20Ds (topics : List (Option String)) (function : String) : SubqlRuntimeDatasource where
  options := some { abi := some "erc20" }
  assets := some [("erc20", "./abis/erc20.json")]
  handlers :=
    [.event "handleLog" (some ⟨some topics⟩),
     .call "handleTransaction" (some ⟨[.function (some function)], by simp⟩)]

theorem erc20Platform_throws : ThrowsOnNonSignatures erc20Platform where
  event := by
    intro text h
    have hne : text ≠ "Transfer(address,address,uint256)" := by
      intro heq
      rw [heq] at h
      exact h (by decide)
    exact ⟨_, if_neg hne⟩
  function := by
    intro text h
    have hne : text ≠ "approve(address,uint256)" := by
      intro heq
      rw [heq] at h
      exact h (by decide)
    exact ⟨_, if_neg hne⟩

theorem erc20Ds_taken (topics : List (Option String)) (function : String)
    (htopics : ∀ topic ∈ topics,
      TopicTaken erc20Platform ["Transfer(address,address,uint256)"] topic)
    (hfunction : FunctionTaken erc20Platform ["approve(address,uint256)"] (some function)) :
    DatasourceTaken erc20Platform erc20Listing "/project" (erc20Ds topics function) := by
  have hpath : Paths.join ["/project", "./abis/erc20.json"] = "/project/abis/erc20.json" := by
    decide
  refine ⟨"erc20", erc20Abi, (), rfl, ?_, rfl, ?_⟩
  · show (erc20Listing.readFile (Paths.join ["/project", "./abis/erc20.json"])).toOption = _
    rw [hpath]
    rfl
  · intro handler hhandler
    rcases List.mem_cons.mp hhandler with hevent | hrest
    · rw [hevent]
      exact htopics
    · rw [List.mem_singleton.mp hrest]
      exact hfunction

/-- A sender among the topics, and calls without input, are taken by the node and make the
validation throw. -/
theorem validateAbi_throws_on_hex :
    (DatasourceTaken erc20Platform erc20Listing "/project"
        (erc20Ds [some "Transfer(address,address,uint256)", none,
          some "0x220866B1A2219f40e72f5c628B65D54268cA3A9D"] "approve(address,uint256)") ∧
      (validateAbi erc20Platform erc20Listing "/project"
        [erc20Ds [some "Transfer(address,address,uint256)", none,
          some "0x220866B1A2219f40e72f5c628B65D54268cA3A9D"] "approve(address,uint256)"]).isOk =
        false) ∧
    (DatasourceTaken erc20Platform erc20Listing "/project" (erc20Ds [] "0x") ∧
      (validateAbi erc20Platform erc20Listing "/project" [erc20Ds [] "0x"]).isOk = false) := by
  refine ⟨⟨erc20Ds_taken _ _ ?_ ?_, by decide⟩, erc20Ds_taken _ _ ?_ ?_, by decide⟩
  · intro topic htopic
    simp only [List.mem_cons, List.not_mem_nil, or_false] at htopic
    rcases htopic with h | h | h
    · rw [h]
      exact .inr (.inr ⟨_, List.mem_singleton_self _, rfl⟩)
    · rw [h]
      trivial
    · rw [h]
      exact .inr (.inl (by decide))
  · exact .inr ⟨_, List.mem_singleton_self _, rfl⟩
  · exact fun topic htopic => absurd htopic List.not_mem_nil
  · exact .inl (by decide)

/-- With signatures and `!null` it passes. -/
theorem validateAbi_accepts_signatures :
    validateAbi erc20Platform erc20Listing "/project"
      [erc20Ds [some "Transfer(address,address,uint256)", some "!null"]
        "approve(address,uint256)"] = .ok () := by
  rw [validateAbi_accepts_iff erc20Platform_throws]
  · decide
  · intro ds hds
    rw [List.mem_singleton.mp hds]
    apply erc20Ds_taken
    · intro topic htopic
      simp only [List.mem_cons, List.not_mem_nil, or_false] at htopic
      rcases htopic with h | h
      · rw [h]
        exact .inr (.inr ⟨_, List.mem_singleton_self _, rfl⟩)
      · rw [h]
        exact .inl rfl
    · exact .inr ⟨_, List.mem_singleton_self _, rfl⟩

end SubqlEthereum.Codegen
