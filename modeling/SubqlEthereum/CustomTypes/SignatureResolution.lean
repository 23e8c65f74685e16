import Mathlib.Data.List.Nodup
import SubqlEthereum.Library.WordRegex
import SubqlEthereum.Library.WordSubstitution

/-!
# Resolving custom types in a signature

`resolveCustomTypesInSignature` of `utils/string.ts`: the names of the enums and structs of an ABI
are replaced in a filter's signature by the types they stand for, one name after another in the
order of the map.
-/

namespace SubqlEthereum.CustomTypes

open SubqlEthereum.WordText

inductive CustomTypeKind
  | enum
  | struct
deriving DecidableEq, Repr

structure AbiCustomType where
  name : String
  type : CustomTypeKind
  resolvedType : String
deriving DecidableEq, Repr

/-- A `Map<string, AbiCustomType>`: its entries in the order in which their keys were added. -/
structure CustomTypeMap where
  entries : List (String × AbiCustomType)
  nodup : (entries.map Prod.fst).Nodup

/-- What `escapeRegex` puts for a character. -/
def escaped (c : Char) : List Char :=
  if c ∈ ['.', '*', '+', '?', '^', '$', '\x7b', '\x7d', '(', ')', '|', '[', ']', '\\'] then
    ['\\', c]
  else [c]

/-- `string.replace(/[.*+?^${}()|[\]\\]/g, '\\$&')`. -/
def escapeRegex (string : String) : String := String.ofList (string.toList.flatMap escaped)

/-- `text.replace(new RegExp(source, 'g'), replacement)` for a source that reads `\bword\b`; no
other source is built, see `readWordRegex_wordSource`. -/
def replaceSource (source replacement text : String) : String :=
  match readWordRegex source.toList with
  | some word => replaceWordRegex (String.ofList word) replacement text
  | none => text

/-- The source built for a type name. -/
def wordSource (typeName : String) : String := "\\b" ++ escapeRegex typeName ++ "\\b"

def resolveCustomTypesInSignature (signature : String) (customTypes : CustomTypeMap) : String :=
  customTypes.entries.foldl
    (fun resolvedSignature entry =>
      replaceSource (wordSource entry.1) entry.2.resolvedType resolvedSignature)
    signature

/-! ### The source of an expression -/

/-- The characters escaped are all that have a meaning of their own. -/
theorem escaped_eq (c : Char) : escaped c = if isSyntaxChar c then ['\\', c] else [c] := by
  rw [escaped, isSyntaxChar]
  simp only [decide_eq_true_eq]

theorem readLiteral_escaped (cs : List Char) :
    readLiteral (cs.flatMap escaped ++ ['\\', 'b']) = some cs := by
  induction cs with
  | nil => rfl
  | cons c cs ih =>
    rw [List.flatMap_cons, List.append_assoc, escaped_eq]
    by_cases hc : isSyntaxChar c = true
    · have hb : c ≠ 'b' := by
        rintro rfl
        exact absurd hc (by decide)
      rw [if_pos hc]
      show readLiteral ('\\' :: c :: (cs.flatMap escaped ++ ['\\', 'b'])) = some (c :: cs)
      rw [readLiteral, if_pos rfl, if_neg hb, if_pos hc, ih]
      rfl
    · have hslash : c ≠ '\\' := by
        rintro rfl
        exact hc (by decide)
      rw [if_neg hc]
      -- there is always something behind `c`: the source ends with its `\b`
      obtain ⟨d, ds, hds⟩ := List.exists_cons_of_ne_nil
        (List.append_ne_nil_of_right_ne_nil (cs.flatMap escaped) (List.cons_ne_nil '\\' ['b']))
      rw [hds] at ih ⊢
      show readLiteral (c :: d :: ds) = some (c :: cs)
      rw [readLiteral, if_neg hslash, if_neg hc, ih]
      rfl

/-- **Escaping makes the type name a literal**: the source built for it reads as that word between
two boundaries, whatever its characters are. -/
theorem readWordRegex_wordSource (typeName : String) :
    readWordRegex (wordSource typeName).toList = some typeName.toList := by
  have hescaped : (escapeRegex typeName).toList = typeName.toList.flatMap escaped := by
    rw [escapeRegex, String.toList_ofList]
  have hsource : (wordSource typeName).toList =
      '\\' :: 'b' :: (typeName.toList.flatMap escaped ++ ['\\', 'b']) := by
    rw [wordSource, String.toList_append, String.toList_append, hescaped]
    rfl
  rw [hsource, readWordRegex, if_pos ⟨rfl, rfl⟩, readLiteral_escaped]

theorem replaceSource_wordSource (typeName replacement text : String) :
    replaceSource (wordSource typeName) replacement text =
      replaceWordRegex typeName replacement text := by
  rw [replaceSource, readWordRegex_wordSource]
  show replaceWordRegex (String.ofList typeName.toList) replacement text = _
  rw [String.ofList_toList]

/-! ### All names at once -/

/-- The words a map replaces. -/
def CustomTypeMap.replacements (types : CustomTypeMap) : List Replacement :=
  types.entries.map fun entry => (entry.1.toList, entry.2.resolvedType.toList)

/-- What becomes of a run of word characters when all names are replaced at once. -/
def CustomTypeMap.resolvedRun (types : CustomTypeMap) (run : List Char) : List Char :=
  (types.replacements.lookup run).getD run

/-- The names are words, and no resolved type contains one of them or a dollar. -/
structure CustomTypeMap.WholeWords (types : CustomTypeMap) : Prop where
  nonempty : ∀ entry ∈ types.entries, entry.1 ≠ ""
  wordChars : ∀ entry ∈ types.entries, ∀ c ∈ entry.1.toList, isWordChar c = true
  no_dollar : ∀ entry ∈ types.entries, '$' ∉ entry.2.resolvedType.toList
  no_name : ∀ entry ∈ types.entries, ∀ other ∈ types.entries,
    ¬ HasWord other.1.toList entry.2.resolvedType.toList

variable {types : CustomTypeMap}

theorem replacements_nodup (types : CustomTypeMap) :
    (types.replacements.map Prod.fst).Nodup := by
  have hkeys : types.replacements.map Prod.fst =
      (types.entries.map Prod.fst).map String.toList := by
    rw [CustomTypeMap.replacements, List.map_map, List.map_map]
    rfl
  rw [hkeys]
  exact types.nodup.map fun _ _ h => String.toList_injective h

theorem CustomTypeMap.WholeWords.settled (h : types.WholeWords) : Settled types.replacements where
  nonempty := by
    intro replacement hmem
    obtain ⟨entry, hentry, rfl⟩ := List.mem_map.mp hmem
    intro hnil
    exact h.nonempty entry hentry (String.toList_inj.mp hnil)
  no_word := by
    intro replacement hmem other hother
    obtain ⟨entry, hentry, rfl⟩ := List.mem_map.mp hmem
    obtain ⟨named, hnamed, rfl⟩ := List.mem_map.mp hother
    exact h.no_name entry hentry named hnamed

/-- Resolving is one replacement after another. -/
theorem resolve_toList (signature : String) (types : CustomTypeMap) :
    (resolveCustomTypesInSignature signature types).toList =
      types.replacements.foldl (fun text entry => scan entry.1 entry.2 [] 0 text)
        signature.toList := by
  rw [resolveCustomTypesInSignature, CustomTypeMap.replacements, List.foldl_map]
  induction types.entries generalizing signature with
  | nil => rfl
  | cons entry entries ih =>
    rw [List.foldl_cons, List.foldl_cons, ih, replaceSource_wordSource, replaceWordRegex,
      String.toList_ofList]

/-- With names that are words, each replacement rewrites runs. -/
theorem resolve_toList_of_wholeWords (h : types.WholeWords) (signature : String) :
    (resolveCustomTypesInSignature signature types).toList =
      types.replacements.foldl (fun text entry => mapWords (replaceRun entry) [] text)
        signature.toList := by
  rw [resolve_toList]
  apply List.foldl_ext
  intro text replacement hmem
  obtain ⟨entry, hentry, rfl⟩ := List.mem_map.mp hmem
  have hne : entry.1.toList ≠ [] := fun hnil =>
    h.nonempty entry hentry (String.toList_inj.mp hnil)
  exact scan_eq_mapWords entry.1.toList entry.2.resolvedType.toList hne
    (h.wordChars entry hentry) (h.no_dollar entry hentry) text [] []
    (List.forall_mem_nil _) rfl

/-- Whatever rewrites the runs as the map says gives the resolved signature. -/
theorem resolve_of_substitutes (h : types.WholeWords) {f : List Char → List Char}
    (hf : Substitutes types.replacements f) (signature : String) :
    (resolveCustomTypesInSignature signature types).toList = mapWords f [] signature.toList := by
  rw [resolve_toList_of_wholeWords h]
  exact foldl_replaceRun types.replacements (replacements_nodup types) h.settled f hf _

theorem substitutes_resolvedRun (types : CustomTypeMap) :
    Substitutes types.replacements types.resolvedRun :=
  substitutes_lookup types.replacements (replacements_nodup types)

theorem CustomTypeMap.WholeWords.of_perm (h : types.WholeWords) {other : CustomTypeMap}
    (hperm : other.entries.Perm types.entries) : other.WholeWords where
  nonempty entry hentry := h.nonempty entry (hperm.mem_iff.mp hentry)
  wordChars entry hentry := h.wordChars entry (hperm.mem_iff.mp hentry)
  no_dollar entry hentry := h.no_dollar entry (hperm.mem_iff.mp hentry)
  no_name entry hentry named hnamed :=
    h.no_name entry (hperm.mem_iff.mp hentry) named (hperm.mem_iff.mp hnamed)

/-- The order of the replacements does not matter to what they say. -/
theorem substitutes_of_perm {other : CustomTypeMap} {f : List Char → List Char}
    (hf : Substitutes types.replacements f) (hperm : other.entries.Perm types.entries) :
    Substitutes other.replacements f := by
  have hreplacements : other.replacements.Perm types.replacements := hperm.map _
  constructor
  · intro entry hentry
    exact hf.replaces entry (hreplacements.mem_iff.mp hentry)
  · intro run hrun
    apply hf.keeps
    intro entry hentry
    exact hrun entry (hreplacements.mem_iff.mpr hentry)

/-- **Custom types are resolved by a simultaneous substitution of whole words.**  Every run of word
characters that is a name becomes the type of that name and nothing else changes; the order of the
map plays no part, and resolving twice is resolving once. -/
theorem resolve_simultaneous (types : CustomTypeMap) (h : types.WholeWords) (signature : String) :
    resolveCustomTypesInSignature signature types =
        String.ofList (mapWords types.resolvedRun [] signature.toList) ∧
      (∀ other : CustomTypeMap, other.entries.Perm types.entries →
        resolveCustomTypesInSignature signature other =
          resolveCustomTypesInSignature signature types) ∧
      resolveCustomTypesInSignature (resolveCustomTypesInSignature signature types) types =
        resolveCustomTypesInSignature signature types := by
  have hf := substitutes_resolvedRun types
  have hresolved := resolve_of_substitutes h hf
  refine ⟨?_, ?_, ?_⟩
  · rw [← hresolved signature, String.ofList_toList]
  · intro other hperm
    apply String.toList_injective
    rw [hresolved, resolve_of_substitutes (h.of_perm hperm) (substitutes_of_perm hf hperm)]
  · apply String.toList_injective
    rw [hresolved (resolveCustomTypesInSignature signature types)]
    apply mapWords_eq_self hf h.settled.nonempty
    rw [hresolved signature]
    exact not_hasWord_mapWords hf h.settled signature.toList

/-- The enum and the struct of a dispute contract. -/
def disputeTypes : CustomTypeMap where
  entries :=
    [("DisputeType", ⟨"DisputeType", .enum, "uint8"⟩),
      ("MoreData", ⟨"MoreData", .struct, "(bytes32,bytes32)"⟩)]
  nodup := by decide

theorem disputeTypes_wholeWords : disputeTypes.WholeWords where
  nonempty := by decide
  wordChars entry hentry := by
    have hall : disputeTypes.entries.all (fun entry => entry.1.toList.all isWordChar) = true := by
      decide
    exact List.all_eq_true.mp (List.all_eq_true.mp hall entry hentry)
  no_dollar := by decide
  no_name := by decide

def disputeSignature : String := "DisputeOpen(uint256,DisputeType,MoreData[])"

theorem resolve_simultaneous_dispute :
    resolveCustomTypesInSignature disputeSignature disputeTypes =
        String.ofList (mapWords disputeTypes.resolvedRun [] disputeSignature.toList) ∧
      (∀ other : CustomTypeMap, other.entries.Perm disputeTypes.entries →
        resolveCustomTypesInSignature disputeSignature other =
          resolveCustomTypesInSignature disputeSignature disputeTypes) ∧
      resolveCustomTypesInSignature (resolveCustomTypesInSignature disputeSignature disputeTypes)
          disputeTypes =
        resolveCustomTypesInSignature disputeSignature disputeTypes :=
  resolve_simultaneous disputeTypes disputeTypes_wholeWords disputeSignature

example : resolveCustomTypesInSignature disputeSignature disputeTypes =
    "DisputeOpen(uint256,uint8,(bytes32,bytes32)[])" := by decide

end SubqlEthereum.CustomTypes
