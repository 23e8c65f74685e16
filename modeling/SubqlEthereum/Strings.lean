import Mathlib.Data.Set.Finite.Basic
import SubqlEthereum.External
import SubqlEthereum.Library.WordText

/-!
# String helpers: normalized equality, topics and selectors

`stringNormalizedEq`, `hexStringEq`, `eventToTopic` and `functionToSighash` of
`utils/string.ts`, without the two caches of the module: they only repeat the value computed first
for a text, and the functions they cache depend on nothing else.  `StringCaches` has them.
-/

namespace SubqlEthereum.Strings

open SubqlEthereum.External SubqlEthereum.WordText

/-- A string for which JavaScript's `if (s)` holds: present and not empty. -/
def truthy (s : Option String) : Option String := s.filter (· ≠ "")

theorem truthy_eq_some (s : Option String) (t : String) :
    truthy s = some t ↔ s = some t ∧ t ≠ "" := by
  cases s with
  | none => simp [truthy]
  | some u =>
    simp only [truthy, Option.filter, ne_eq, decide_not, Bool.not_eq_eq_eq_not, Bool.not_true,
      decide_eq_false_iff_not, Option.ite_none_right_eq_some, Option.some.injEq]
    constructor
    · intro h
      obtain ⟨hne, rfl⟩ := h
      exact ⟨rfl, hne⟩
    · intro h
      obtain ⟨rfl, hne⟩ := h
      exact ⟨hne, rfl⟩

theorem truthy_eq_none (s : Option String) : truthy s = none ↔ s = none ∨ s = some "" := by
  cases s with
  | none => simp [truthy]
  | some u => simp [truthy, Option.filter]

/-- `a.toLowerCase() === b?.toLowerCase()`. -/
def stringNormalizedEq (p : Platform) (a : String) (b : Option String) : Bool :=
  some (p.toLowerCase a) = b.map p.toLowerCase

theorem stringNormalizedEq_iff (p : Platform) (a : String) (b : Option String) :
    stringNormalizedEq p a b = true ↔ b.map p.toLowerCase = some (p.toLowerCase a) := by
  rw [stringNormalizedEq, decide_eq_true_iff]
  exact eq_comm

/-- Whether two hex strings are the same but for case and leading zeros. -/
def hexStringEq (p : Platform) (a b : String) : Except JsError Bool :=
  if !p.isHexString a || !p.isHexString b then .error { message := "Inputs are not hex strings" }
  else do
    let a ← p.hexStripZeros a
    let b ← p.hexStripZeros b
    return stringNormalizedEq p a (some b)

/-- There are lower-case texts without end, whatever the platform does beyond ASCII. -/
theorem infinite_range_toLowerCase (p : Platform) : (Set.range p.toLowerCase).Infinite := by
  have hinj : Function.Injective fun n : ℕ => String.ofList (List.replicate n '0') := by
    intro m n h
    have hlist : List.replicate m '0' = List.replicate n '0' := String.ofList_injective h
    have hlen := congrArg List.length hlist
    simpa using hlen
  apply Set.infinite_of_injective_forall_mem hinj
  intro n
  refine ⟨String.ofList (List.replicate n '0'), ?_⟩
  have hzero : ∀ c ∈ (String.ofList (List.replicate n '0')).toList, c = '0' := by
    intro c hc
    rw [String.toList_ofList] at hc
    exact List.eq_of_mem_replicate hc
  have hascii : ∀ c ∈ (String.ofList (List.replicate n '0')).toList, c.toNat < 128 := by
    intro c hc
    rw [hzero c hc]
    decide
  rw [p.toLowerCase_ascii _ hascii, asciiLower, String.toList_ofList, List.map_replicate]
  rfl

/-- The topic a filter topic stands for: a hex string itself, else the hash of the signature. -/
def eventToTopic (p : Platform) (input : String) : Except JsError String :=
  if p.isHexString input then .ok input
  else do
    let signature ← p.eventFragmentFormat (replaceWord "indexed" "" input)
    return p.id signature

/-- The selector a function filter stands for: a hex string itself, else the first four bytes of
the hash of the signature. -/
def functionToSighash (p : Platform) (input : String) : Except JsError String :=
  if p.isHexString input then .ok input
  else do
    let signature ← p.functionFragmentFormat input
    p.hexDataSlice (p.id signature) 0 4

/-! ### What the helpers do with a hex string -/

/-- The comparison throws for what is no hex string, and compares the digits of the others. -/
theorem hexStringEq_eq (p : Platform) (a b : String) :
    hexStringEq p a b =
      match hexDigits a, hexDigits b with
      | some ds, some es =>
        .ok (stringNormalizedEq p (String.ofList ('0' :: 'x' :: ds.dropWhile (· = '0')))
          (some (String.ofList ('0' :: 'x' :: es.dropWhile (· = '0')))))
      | _, _ => .error { message := "Inputs are not hex strings" } := by
  rw [hexStringEq, p.isHexString_eq, p.isHexString_eq, isHexText, isHexText]
  cases ha : hexDigits a with
  | none => rfl
  | some ds =>
    cases hb : hexDigits b with
    | none => rfl
    | some es =>
      rw [p.hexStripZeros_hex a ds ha, p.hexStripZeros_hex b es hb]
      rfl

theorem eventToTopic_hex (p : Platform) (input : String) (h : isHexText input = true) :
    eventToTopic p input = .ok input := by
  rw [eventToTopic, p.isHexString_eq, h]
  rfl

theorem eventToTopic_signature (p : Platform) (input : String) (h : isHexText input = false) :
    eventToTopic p input = (do
      let signature ← p.eventFragmentFormat (replaceWord "indexed" "" input)
      return p.id signature) := by
  rw [eventToTopic, p.isHexString_eq, h]
  rfl

theorem functionToSighash_hex (p : Platform) (input : String) (h : isHexText input = true) :
    functionToSighash p input = .ok input := by
  rw [functionToSighash, p.isHexString_eq, h]
  rfl

/-- The word `indexed` is dropped from an event signature, other words are kept. -/
example : replaceWord "indexed" "" "Approved(address indexed owner, bool unindexed)" =
    "Approved(address  owner, bool unindexed)" := by decide

end SubqlEthereum.Strings
