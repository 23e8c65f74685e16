import SubqlEthereum.BlockEthereum
import SubqlEthereum.HexSpelling

/-!
# The addresses a manifest accepts

`isEthereumOrZilliqaAddress` of `project/utils.ts` accepts an account in either of two encodings:
as a hex address, or as a bech32 address of Zilliqa, which it decodes to check it.  The address goes
into the data source as it was written, and there the runtime compares it with the hex addresses of
logs and transactions.  `accepted_address_matches_iff`: only the hex addresses ever match.
-/

namespace SubqlEthereum.ManifestAddress

open SubqlEthereum.External SubqlEthereum.Project SubqlEthereum.Strings SubqlEthereum.Blocks
open SubqlEthereum.BlockEthereum SubqlEthereum.LogFilter SubqlEthereum.HexSpelling

/-! ### Validation -/

/-- The digits of a text of the form `^(0x)[0-9a-f]{40}$`, without regard to case. -/
def addressDigits (text : String) : Option (List Char) :=
  match text.toList with
  | '0' :: x :: ds =>
    if (x = 'x' ∨ x = 'X') ∧ ds.length = 40 ∧ ds.all isHexDigit then some ds else none
  | _ => none

/-- The validator of class-validator, which accepts the texts of that form. -/
structure ClassValidator where
  isEthereumAddress : String → Bool
  isEthereumAddress_eq : ∀ text, isEthereumAddress text = (addressDigits text).isSome

theorem ClassValidator.isEthereumAddress_iff (validator : ClassValidator) (text : String) :
    validator.isEthereumAddress text = true ↔ ∃ ds, addressDigits text = some ds := by
  rw [validator.isEthereumAddress_eq, Option.isSome_iff_exists]

/-- The decoder of Zilliqa's library, with the facts relied on. -/
structure ZilliqaCrypto where
  /-- The hex address a bech32 address stands for; throws on any other text. -/
  fromBech32Address : String → Except JsError String
  /-- A bech32 address is an ASCII text that starts with `zil1`, in either case. -/
  fromBech32Address_zil1 : ∀ text address, fromBech32Address text = .ok address →
    (∀ c ∈ text.toList, c.toNat < 128) ∧
      ∃ rest, (asciiLower text).toList = 'z' :: 'i' :: 'l' :: '1' :: rest

def isEthereumOrZilliqaAddress (validator : ClassValidator) (zilliqa : ZilliqaCrypto)
    (address : String) : Bool :=
  match zilliqa.fromBech32Address address with
  | .ok ethFormat => validator.isEthereumAddress ethFormat
  | .error _ => validator.isEthereumAddress address

/-! ### Accounts -/

/-- The hex address of an accepted address. -/
def hexAddress (zilliqa : ZilliqaCrypto) (address : String) : String :=
  match zilliqa.fromBech32Address address with
  | .ok ethFormat => ethFormat
  | .error _ => address

/-- The account an accepted address denotes, by the lower-case digits of its hex address. -/
def account (zilliqa : ZilliqaCrypto) (address : String) : Option (List Char) :=
  (addressDigits (hexAddress zilliqa address)).map (List.map Char.toLower)

/-- The text is the hex address of the account, in any spelling. -/
def HexForm (digits : List Char) (text : Option String) : Prop :=
  ∃ s ds, text = some s ∧ hexDigits s = some ds ∧ ds.map Char.toLower = digits

/-- The log passes the test of the address: what becomes of it is up to the filter. -/
def PassesLogTest (p : Platform) (log : EthereumLog) (address : String) : Prop :=
  ∀ filter, filterLogsProcessor p log filter (some address) = filterLogsProcessor p log filter none

/-- A filter that asks for nothing. -/
def emptyFilter : EthereumTransactionFilter where
  fields := []
  nodup := List.nodup_nil

/-- A data source with the address gets the logs and the transactions of the account. -/
def MatchesAccount (p : Platform) (zilliqa : ZilliqaCrypto) (address : String) : Prop :=
  ∀ digits, account zilliqa address = some digits →
    (∀ log : EthereumLog, HexForm digits log.address → PassesLogTest p log address) ∧
      ∀ transaction : EthereumTransaction, HexForm digits transaction.to →
        filterTransactionsProcessor p transaction (some emptyFilter) (some address) = .ok true

/-! ### What the runtime compares -/

theorem addressDigits_eq_some (text : String) (ds : List Char) (h : addressDigits text = some ds) :
    (text.toList = '0' :: 'x' :: ds ∨ text.toList = '0' :: 'X' :: ds) ∧ ds.length = 40 ∧
      ∀ c ∈ ds, isHexDigit c = true := by
  unfold addressDigits at h
  split at h
  · rename_i x digits htext
    split_ifs at h with hvalid
    rw [← Option.some.inj h]
    refine ⟨?_, hvalid.2.1, List.all_eq_true.mp hvalid.2.2⟩
    rcases hvalid.1 with rfl | rfl
    · exact .inl htext
    · exact .inr htext
  · exact absurd h (by simp)

/-- An accepted hex address is lower-cased to the hex address of its account. -/
theorem toLowerCase_address (p : Platform) (text : String) (ds : List Char)
    (h : addressDigits text = some ds) :
    p.toLowerCase text = String.ofList ('0' :: 'x' :: ds.map Char.toLower) := by
  obtain ⟨htext, -, hhex⟩ := addressDigits_eq_some text ds h
  have hascii : ∀ c ∈ text.toList, c.toNat < 128 := by
    intro c hc
    rcases htext with htext | htext
    · rw [htext] at hc
      rcases List.mem_cons.mp hc with rfl | hc
      · decide
      rcases List.mem_cons.mp hc with rfl | hdigit
      · decide
      · exact isHexDigit_lt c (hhex c hdigit)
    · rw [htext] at hc
      rcases List.mem_cons.mp hc with rfl | hc
      · decide
      rcases List.mem_cons.mp hc with rfl | hdigit
      · decide
      · exact isHexDigit_lt c (hhex c hdigit)
  rw [p.toLowerCase_ascii text hascii, asciiLower]
  rcases htext with htext | htext
  · rw [htext]
    rfl
  · rw [htext]
    rfl

theorem HexForm.toLowerCase_eq (p : Platform) {digits : List Char} {text : Option String}
    (h : HexForm digits text) :
    text.map p.toLowerCase = some (String.ofList ('0' :: 'x' :: digits)) := by
  obtain ⟨s, ds, rfl, hds, rfl⟩ := h
  rw [Option.map_some, eq_of_hexDigits s ds hds, toLowerCase_hex p ds (hexDigits_all s ds hds)]

/-- A log passes the test of a non-empty address exactly when the addresses are equal up to case. -/
theorem passesLogTest_iff (p : Platform) (log : EthereumLog) (address : String)
    (hne : address ≠ "") :
    PassesLogTest p log address ↔ stringNormalizedEq p address log.address = true := by
  have htruthy : truthy (some address) = some address := (truthy_eq_some _ _).mpr ⟨rfl, hne⟩
  constructor
  · intro h
    have hnone := h none
    unfold filterLogsProcessor at hnone
    rw [htruthy, Option.any_some] at hnone
    cases hequal : stringNormalizedEq p address log.address with
    | true => rfl
    | false =>
      rw [hequal] at hnone
      exact absurd hnone (by simp [truthy])
  · intro h filter
    unfold filterLogsProcessor
    rw [htruthy, Option.any_some, h]
    rfl

theorem emptyFilter_accepts_iff (p : Platform) (transaction : EthereumTransaction)
    (address : String) (hne : address ≠ "") :
    filterTransactionsProcessor p transaction (some emptyFilter) (some address) = .ok true ↔
      stringNormalizedEq p address transaction.to = true := by
  have htruthy : truthy (some address) = some address := (truthy_eq_some _ _).mpr ⟨rfl, hne⟩
  have hrecipient : recipientTest (some emptyFilter) (some address) = .is address := by
    show AddressTest.ofTruthy (some address) = _
    rw [AddressTest.ofTruthy, htruthy]
  rw [filterTransactionsProcessor_iff, hrecipient]
  constructor
  · intro h
    exact h.1
  · intro h
    exact ⟨h, rfl, rfl, fun t ht => absurd ht (by simp [typeTest, emptyFilter, truthy,
      EthereumTransactionFilter.type])⟩

/-! ### Which accepted addresses match -/

/-- A bech32 address is no hex address. -/
theorem addressDigits_ne_some_of_bech32 (zilliqa : ZilliqaCrypto) (address ethFormat : String)
    (hdecoded : zilliqa.fromBech32Address address = .ok ethFormat) (ds : List Char) :
    addressDigits address ≠ some ds := by
  obtain ⟨-, rest, hrest⟩ := zilliqa.fromBech32Address_zil1 address ethFormat hdecoded
  rw [asciiLower, String.toList_ofList] at hrest
  intro hds
  rcases (addressDigits_eq_some address ds hds).1 with htext | htext
  · rw [htext] at hrest
    exact absurd (List.cons.inj hrest).1 (by decide)
  · rw [htext] at hrest
    exact absurd (List.cons.inj hrest).1 (by decide)

/-- A bech32 address is equal to no hex address. -/
theorem bech32_ne_hexForm (p : Platform) (zilliqa : ZilliqaCrypto) (address ethFormat : String)
    (hdecoded : zilliqa.fromBech32Address address = .ok ethFormat) {digits : List Char}
    {text : Option String} (h : HexForm digits text) :
    stringNormalizedEq p address text = false := by
  obtain ⟨hascii, rest, hrest⟩ := zilliqa.fromBech32Address_zil1 address ethFormat hdecoded
  rw [← Bool.not_eq_true, stringNormalizedEq_iff, h.toLowerCase_eq p, p.toLowerCase_ascii _ hascii,
    Option.some_inj]
  intro hsame
  rw [← hsame, String.toList_ofList] at hrest
  exact absurd (List.cons.inj hrest).1 (by decide)

theorem bech32_ne_empty (zilliqa : ZilliqaCrypto) (address ethFormat : String)
    (hdecoded : zilliqa.fromBech32Address address = .ok ethFormat) : address ≠ "" := by
  rintro rfl
  obtain ⟨-, rest, hrest⟩ := zilliqa.fromBech32Address_zil1 "" ethFormat hdecoded
  exact absurd hrest (by simp [asciiLower])

/-- **A bech32 address matches nothing** of its account. -/
theorem not_matches_of_bech32 (p : Platform) (zilliqa : ZilliqaCrypto) (address ethFormat : String)
    (hdecoded : zilliqa.fromBech32Address address = .ok ethFormat)
    (haccepted : ∃ ds, addressDigits ethFormat = some ds) : ¬ MatchesAccount p zilliqa address := by
  intro h
  obtain ⟨ds, hds⟩ := haccepted
  have hlower : ∀ c ∈ ds.map Char.toLower, isHexDigit c = true := by
    intro c hc
    obtain ⟨d, hd, rfl⟩ := List.mem_map.mp hc
    exact forall_isHexDigit (fun x => isHexDigit x.toLower) (by decide) d
      ((addressDigits_eq_some ethFormat ds hds).2.2 d hd)
  have hform : HexForm (ds.map Char.toLower)
      (some (String.ofList ('0' :: 'x' :: ds.map Char.toLower))) := by
    refine ⟨_, _, rfl, hexDigits_ofList _ hlower, ?_⟩
    rw [List.map_map]
    exact List.map_congr_left fun c _ => toLower_toLower c
  have haccount : account zilliqa address = some (ds.map Char.toLower) := by
    rw [account, hexAddress, hdecoded]
    show (addressDigits ethFormat).map (List.map Char.toLower) = _
    rw [hds]
    rfl
  have hlog := (h _ haccount).1 { address := _, topics := [] } hform
  rw [passesLogTest_iff p _ address (bech32_ne_empty zilliqa address ethFormat hdecoded),
    bech32_ne_hexForm p zilliqa address ethFormat hdecoded hform] at hlog
  exact absurd hlog (by decide)

/-- **A hex address matches everything** of its account. -/
theorem matches_of_hexAddress (p : Platform) (zilliqa : ZilliqaCrypto) (address : String)
    (ds : List Char) (hds : addressDigits address = some ds) :
    MatchesAccount p zilliqa address := by
  have hne : address ≠ "" := by
    rintro rfl
    exact absurd hds (by simp [addressDigits])
  have hself : hexAddress zilliqa address = address := by
    rw [hexAddress]
    cases hdecoded : zilliqa.fromBech32Address address with
    | error e => rfl
    | ok ethFormat =>
      exact absurd hds (addressDigits_ne_some_of_bech32 zilliqa address ethFormat hdecoded ds)
  intro digits haccount
  rw [account, hself, hds] at haccount
  obtain rfl : ds.map Char.toLower = digits := Option.some.inj haccount
  have hequal : ∀ text, HexForm (ds.map Char.toLower) text →
      stringNormalizedEq p address text = true := by
    intro text htext
    rw [stringNormalizedEq_iff, htext.toLowerCase_eq p, toLowerCase_address p address ds hds]
  exact ⟨fun log hlog => (passesLogTest_iff p log address hne).mpr (hequal _ hlog),
    fun transaction hto =>
      (emptyFilter_accepts_iff p transaction address hne).mpr (hequal _ hto)⟩

/-- **Which accepted addresses match.**  A data source with an address the manifest accepts gets the
logs and transactions of the account exactly when the address is a hex address. -/
theorem accepted_address_matches_iff (p : Platform) (validator : ClassValidator)
    (zilliqa : ZilliqaCrypto) (address : String)
    (haccepted : isEthereumOrZilliqaAddress validator zilliqa address = true) :
    MatchesAccount p zilliqa address ↔ validator.isEthereumAddress address = true := by
  constructor
  · intro h
    rw [isEthereumOrZilliqaAddress] at haccepted
    cases hdecoded : zilliqa.fromBech32Address address with
    | error e =>
      rw [hdecoded] at haccepted
      exact haccepted
    | ok ethFormat =>
      rw [hdecoded] at haccepted
      exact absurd h (not_matches_of_bech32 p zilliqa address ethFormat hdecoded
        ((validator.isEthereumAddress_iff ethFormat).mp haccepted))
  · intro h
    obtain ⟨ds, hds⟩ := (validator.isEthereumAddress_iff address).mp h
    exact matches_of_hexAddress p zilliqa address ds hds

/-! ### An address of Zilliqa -/

def classValidator : ClassValidator where
  isEthereumAddress text := (addressDigits text).isSome
  isEthereumAddress_eq := fun _ => rfl

/-- The decoder on one address; other texts are taken for invalid. -/
def zilliqaCrypto : ZilliqaCrypto where
  fromBech32Address text :=
    if text = "zil102n74869xnvdwq3yh8p0k9jjgtejruft268tg8" then
      .ok "0x7Aa7eA9f4534d8D70224b9c2FB165242F321F12b"
    else .error { message := "Invalid bech32 address" }
  fromBech32Address_zil1 := by
    intro text address h
    split_ifs at h with htext
    rw [htext]
    have hascii : "zil102n74869xnvdwq3yh8p0k9jjgtejruft268tg8".toList.all
        (fun c => decide (c.toNat < 128)) = true := by decide
    exact ⟨fun c hc => of_decide_eq_true (List.all_eq_true.mp hascii c hc), _, rfl⟩

/-- The bech32 address is accepted, and the logs of its account do not match. -/
theorem bech32_never_matches :
    isEthereumOrZilliqaAddress classValidator zilliqaCrypto
        "zil102n74869xnvdwq3yh8p0k9jjgtejruft268tg8" = true ∧
      ¬ MatchesAccount erc20Platform zilliqaCrypto
        "zil102n74869xnvdwq3yh8p0k9jjgtejruft268tg8" :=
  ⟨by decide, not_matches_of_bech32 erc20Platform zilliqaCrypto _
    "0x7Aa7eA9f4534d8D70224b9c2FB165242F321F12b" rfl ⟨_, rfl⟩⟩

/-- The hex address of the same account matches. -/
theorem hex_address_matches :
    MatchesAccount erc20Platform zilliqaCrypto "0x7Aa7eA9f4534d8D70224b9c2FB165242F321F12b" :=
  (accepted_address_matches_iff erc20Platform classValidator zilliqaCrypto _ (by decide)).mpr
    (by decide)

end SubqlEthereum.ManifestAddress
