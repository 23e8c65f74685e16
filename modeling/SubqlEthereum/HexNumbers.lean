import SubqlEthereum.HexSpelling

/-!
# Hex strings as numbers

The topics of a log are compared by `hexStringEq`, which strips leading zeros and lower-cases what
is left.  That decides whether two hex strings denote one natural number, however they are written
(`hexStringEq_decides`).
-/

namespace SubqlEthereum.HexNumbers

open SubqlEthereum.External SubqlEthereum.Strings SubqlEthereum.Numerals SubqlEthereum.LogFilter
open SubqlEthereum.HexSpelling
open SubqlEthereum.Dictionary (sameHexNumber)

/-! ### Hex strings and their numbers -/

/-- The digits of a hex string, in the order they are written. -/
structure HexText where
  digits : List Char
  valid : ∀ c ∈ digits, isHexDigit c = true

def HexText.text (t : HexText) : String := String.ofList ('0' :: 'x' :: t.digits)

/-- The number the digits denote in base sixteen; the last digit counts the ones, and no digits
denote zero. -/
def HexText.number (t : HexText) : ℕ := Nat.ofDigits 16 (t.digits.map hexDigitValue).reverse

theorem hexDigits_text (t : HexText) : hexDigits t.text = some t.digits :=
  hexDigits_ofList t.digits t.valid

theorem isHexText_text (t : HexText) : isHexText t.text = true := by
  rw [isHexText, hexDigits_text]
  rfl

theorem hexNumber_text (t : HexText) : hexNumber t.text = some t.number := by
  rw [hexNumber, hexDigits_text, HexText.number, ← numeral_eq_ofDigits, numeral, List.foldl_map]
  rfl

/-- The hex strings are the texts of this form. -/
theorem isHexText_iff (s : String) : isHexText s = true ↔ ∃ t : HexText, t.text = s := by
  constructor
  · intro h
    obtain ⟨ds, hds⟩ := Option.isSome_iff_exists.mp h
    exact ⟨⟨ds, hexDigits_all s ds hds⟩, (eq_of_hexDigits s ds hds).symm⟩
  · intro h
    obtain ⟨t, rfl⟩ := h
    exact isHexText_text t

theorem sameHexNumber_text (s t : HexText) :
    sameHexNumber s.text t.text = true ↔ s.number = t.number := by
  rw [sameHexNumber, hexNumber_text, hexNumber_text]
  simp

/-! ### The comparison -/

/-- Whatever is no hex string makes the comparison throw. -/
theorem hexStringEq_error_iff (p : Platform) (a b : String) :
    (∃ e, hexStringEq p a b = .error e) ↔ isHexText a = false ∨ isHexText b = false := by
  cases ha : hexDigits a with
  | none => simp [hexStringEq_eq, isHexText, ha]
  | some ds =>
    cases hb : hexDigits b with
    | none => simp [hexStringEq_eq, isHexText, ha, hb]
    | some es => simp [hexStringEq_eq, isHexText, ha, hb]

/-- **On hex strings it decides whether they denote one number.** -/
theorem hexStringEq_text (p : Platform) (s t : HexText) :
    hexStringEq p s.text t.text = .ok (decide (s.number = t.number)) := by
  have hnumber := (hexStringEq_iff p s.text t.text).trans (sameHexNumber_text s t)
  have hthrows := hexStringEq_error_iff p s.text t.text
  rw [isHexText_text, isHexText_text] at hthrows
  cases hequal : hexStringEq p s.text t.text with
  | error e => exact absurd (hthrows.mp ⟨e, hequal⟩) (by simp)
  | ok equal =>
    rw [hequal, Except.ok.injEq] at hnumber
    rw [Except.ok.injEq, Bool.eq_iff_iff, hnumber, decide_eq_true_iff]

/-- **The comparison throws exactly on what is no hex string, and otherwise is true exactly when
both denote the same number.** -/
theorem hexStringEq_decides (p : Platform) (a b : String) :
    ((∃ e, hexStringEq p a b = .error e) ↔
      (¬ ∃ s : HexText, s.text = a) ∨ ¬ ∃ t : HexText, t.text = b) ∧
    ∀ s t : HexText, s.text = a → t.text = b →
      (hexStringEq p a b = .ok true ↔ s.number = t.number) := by
  constructor
  · rw [hexStringEq_error_iff, ← isHexText_iff, ← isHexText_iff, Bool.not_eq_true,
      Bool.not_eq_true]
  · intro s t ha hb
    rw [← ha, ← hb, hexStringEq_text, Except.ok.injEq, decide_eq_true_iff]

/-- A number with leading zeros and in capitals without them. -/
theorem hexStringEq_padded : hexStringEq erc20Platform "0x00ab" "0xAB" = .ok true :=
  ((hexStringEq_decides erc20Platform "0x00ab" "0xAB").2
    ⟨['0', '0', 'a', 'b'], List.all_eq_true.mp (by decide)⟩
    ⟨['A', 'B'], List.all_eq_true.mp (by decide)⟩ rfl rfl).mpr (by decide)

end SubqlEthereum.HexNumbers
