import Mathlib.Data.List.Infix
import SubqlEthereum.Library.JsonText

/-!
# What the code takes from JavaScript and from ethers

The string functions of the node are built on a few functions that are not in the repository:
JavaScript's `toLowerCase`, and from ethers the hex helpers, the signature parsers and the keccak
`id`.  They are collected in `Platform`, together with the documented facts the results rest on.
Every definition that needs one takes the platform as its argument, so a result holds for whatever
these functions do beyond those facts.

The facts about hex strings are stated of their digits, `hexDigits`.
-/

namespace SubqlEthereum.External

open SubqlEthereum.JsonText

/-- A thrown JavaScript error: its name, its message and the own fields set on it. -/
structure JsError where
  name : String := "Error"
  message : String
  fields : List (String × Json) := []
deriving Repr, Inhabited

/-- The own field of an error, `undefined` when it was never set. -/
def JsError.get (e : JsError) (field : String) : Option Json := e.fields.lookup field

/-- The HTTP status an error carries, if it carries one. -/
def JsError.status (e : JsError) : Option ℤ :=
  match e.get "status" with
  | some (.num n) => some n
  | _ => none

/-- `startsWith` of a JavaScript string. -/
def startsWith (text part : String) : Bool := part.toList.isPrefixOf text.toList

/-- `includes` of a JavaScript string. -/
def includes (text part : String) : Bool := decide (part.toList <:+: text.toList)

/-- Whether a condition takes the JSON value for true. -/
def isTruthy : Json → Bool
  | .null => false
  | .bool b => b
  | .num n => n ≠ 0
  | .str s => s ≠ ""
  | .arr _ => true
  | .obj _ => true

/-! ### Hex strings -/

/-- The characters a hex string consists of after its prefix. -/
def isHexDigit (c : Char) : Bool :=
  c.isDigit || ('a' ≤ c && c ≤ 'f') || ('A' ≤ c && c ≤ 'F')

/-- The value of a hex digit of either case. -/
def hexDigitValue (c : Char) : ℕ :=
  if c.isDigit then c.toNat - '0'.toNat
  else if 'a' ≤ c then c.toNat - 'a'.toNat + 10
  else c.toNat - 'A'.toNat + 10

/-- The digits after the `0x` prefix; `none` for a string of any other form. -/
def hexDigits (s : String) : Option (List Char) :=
  match s.toList with
  | '0' :: 'x' :: ds => if ds.all isHexDigit then some ds else none
  | _ => none

/-- The text is a hex string. -/
def isHexText (s : String) : Bool := (hexDigits s).isSome

/-- The natural number a hex string denotes; `0x` denotes zero. -/
def hexNumber (s : String) : Option ℕ :=
  (hexDigits s).map (·.foldl (fun n c => 16 * n + hexDigitValue c) 0)

/-! ### The platform -/

/-- Lower-casing of the letters `A` to `Z`, all that happens to an ASCII string. -/
def asciiLower (s : String) : String := String.ofList (s.toList.map Char.toLower)

theorem toLower_toLower (c : Char) : c.toLower.toLower = c.toLower := by
  unfold Char.toLower
  split_ifs with h h'
  · simp_all
    grind
  · rfl
  · rfl

theorem asciiLower_asciiLower (s : String) : asciiLower (asciiLower s) = asciiLower s := by
  have hcomp : Char.toLower ∘ Char.toLower = Char.toLower := by
    funext c
    exact toLower_toLower c
  rw [asciiLower, asciiLower, String.toList_ofList, List.map_map, hcomp]

/-- The functions taken from JavaScript and ethers, with the facts relied on. -/
structure Platform where
  /-- `String.prototype.toLowerCase`. -/
  toLowerCase : String → String
  toLowerCase_ascii : ∀ s, (∀ c ∈ s.toList, c.toNat < 128) → toLowerCase s = asciiLower s
  /-- Lower-casing a lower-cased text changes nothing. -/
  toLowerCase_toLowerCase : ∀ s, toLowerCase (toLowerCase s) = toLowerCase s
  /-- `isHexString`, without the optional length. -/
  isHexString : String → Bool
  isHexString_eq : ∀ value, isHexString value = isHexText value
  /-- `hexStripZeros`: the digits without leading zeros, after the prefix. -/
  hexStripZeros : String → Except JsError String
  hexStripZeros_hex : ∀ value ds, hexDigits value = some ds →
    hexStripZeros value = .ok (String.ofList ('0' :: 'x' :: ds.dropWhile (· = '0')))
  /-- `hexDataSlice(data, offset, endOffset)`; throws on what is no whole number of bytes. -/
  hexDataSlice : String → ℕ → ℕ → Except JsError String
  /-- `EventFragment.fromString(text).format()`; throws on a text that is no event signature. -/
  eventFragmentFormat : String → Except JsError String
  /-- `FunctionFragment.fromString(text).format()`, likewise for functions. -/
  functionFragmentFormat : String → Except JsError String
  /-- `id`, the keccak-256 hash of a text as `0x` and 64 hex digits. -/
  id : String → String
  id_hexDigits : ∀ text, ∃ ds, hexDigits (id text) = some ds ∧ ds.length = 64
  /-- `getAddress`, the checksummed form of an address. -/
  getAddress : String → Except JsError String
  /-- The errors of ethers have a code, and no HTTP status. -/
  getAddress_error : ∀ text e, getAddress text = .error e →
    e.get "code" ≠ none ∧ e.status = none
  /-- `BigNumber.from` of a text. -/
  bigNumberFrom : String → Except JsError ℤ
  /-- `formatter.hash`, a 32-byte hex string in lower case. -/
  formatHash : String → Except JsError String

/-- The platform cut down to two ERC-20 signatures, to ASCII and to addresses without letters, to
evaluate definitions on. -/
def erc20Platform : Platform where
  toLowerCase := asciiLower
  toLowerCase_ascii := fun _ _ => rfl
  toLowerCase_toLowerCase := asciiLower_asciiLower
  isHexString := isHexText
  isHexString_eq := fun _ => rfl
  hexStripZeros value :=
    match hexDigits value with
    | some ds => .ok (String.ofList ('0' :: 'x' :: ds.dropWhile (· = '0')))
    | none => .error { message := "invalid hex string" }
  hexStripZeros_hex := by
    intro value ds hds
    rw [hds]
  hexDataSlice data offset endOffset :=
    match hexDigits data with
    | some ds =>
      if ds.length % 2 = 0 then
        .ok (String.ofList ('0' :: 'x' :: (ds.take (2 * endOffset)).drop (2 * offset)))
      else .error { message := "hexData is odd-length" }
    | none => .error { message := "invalid hexData" }
  eventFragmentFormat text :=
    if text = "Transfer(address,address,uint256)" then .ok text
    else .error { message := "invalid event signature" }
  functionFragmentFormat text :=
    if text = "approve(address,uint256)" then .ok text
    else .error { message := "invalid function signature" }
  id text :=
    if text = "Transfer(address,address,uint256)" then
      "0xddf252ad1be2c89b69c2b068fc378daa952ba7f163c4a11628f55a4df523b3ef"
    else "0x095ea7b334ae44009aa867bfb386f5c3b4b443ac6f0ee573fa91c4608fbadfba"
  id_hexDigits := by
    intro text
    split
    · exact ⟨_, rfl, by decide⟩
    · exact ⟨_, rfl, by decide⟩
  getAddress text :=
    if (hexDigits text).any fun ds => ds.length = 40 ∧ ds.all Char.isDigit then .ok text
    else .error { message := "invalid address", fields := [("code", .str "INVALID_ARGUMENT")] }
  getAddress_error := by
    intro text e h
    split at h
    · exact absurd h (by simp)
    · rw [← Except.error.inj h]
      exact ⟨by simp [JsError.get], rfl⟩
  bigNumberFrom text :=
    match hexNumber text with
    | some n => .ok n
    | none => .error { message := "invalid BigNumber string",
                       fields := [("code", .str "INVALID_ARGUMENT")] }
  formatHash text :=
    if (hexDigits text).any (·.length = 64) then .ok (asciiLower text)
    else .error { message := "invalid hash", fields := [("code", .str "INVALID_ARGUMENT")] }

end SubqlEthereum.External
