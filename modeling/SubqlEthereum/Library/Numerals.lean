import Mathlib.Data.Nat.Digits.Defs

/-!
# Positional numerals

A numeral is a list of digits with the most significant first.  Leading zeros do not change the
number, and without them the number determines the digits (`numeral_eq_iff`).
-/

namespace SubqlEthereum.Numerals

/-- The number a list of digits denotes, read from the left. -/
def numeral (b : ℕ) (ds : List ℕ) : ℕ := ds.foldl (fun n d => b * n + d) 0

/-- The digits without leading zeros. -/
def significant (ds : List ℕ) : List ℕ := ds.dropWhile (· = 0)

theorem numeral_eq_ofDigits (b : ℕ) (ds : List ℕ) :
    numeral b ds = Nat.ofDigits b ds.reverse := by
  rw [Nat.ofDigits_eq_foldr, List.foldr_reverse, numeral]
  congr 1
  funext n d
  exact Nat.add_comm _ _

theorem numeral_significant (b : ℕ) (ds : List ℕ) : numeral b (significant ds) = numeral b ds := by
  induction ds with
  | nil => rfl
  | cons d rest ih =>
    by_cases hd : d = 0
    · have hdrop : significant (d :: rest) = significant rest := by
        simp [significant, hd]
      have hfirst : numeral b (d :: rest) = numeral b rest := by
        simp [numeral, hd]
      rw [hdrop, ih, hfirst]
    · have hkeep : significant (d :: rest) = d :: rest := by
        simp [significant, hd]
      rw [hkeep]

/-- The significant digits are the digits of the number. -/
theorem digits_numeral (b : ℕ) (hb : 1 < b) (ds : List ℕ) (hds : ∀ d ∈ ds, d < b) :
    Nat.digits b (numeral b ds) = (significant ds).reverse := by
  rw [← numeral_significant, numeral_eq_ofDigits]
  apply Nat.digits_ofDigits b hb
  · intro d hd
    have hmem : d ∈ significant ds := List.mem_reverse.mp hd
    exact hds d ((List.dropWhile_sublist _).mem hmem)
  · intro hne
    rw [List.getLast_reverse]
    have hnonempty : significant ds ≠ [] := by
      intro hnil
      rw [hnil] at hne
      exact hne rfl
    have hhead := List.head_dropWhile_not (fun d => decide (d = 0)) hnonempty
    simpa [significant] using hhead

/-- **Two numerals denote one number exactly when their significant digits agree.** -/
theorem numeral_eq_iff (b : ℕ) (hb : 1 < b) (ds es : List ℕ) (hds : ∀ d ∈ ds, d < b)
    (hes : ∀ e ∈ es, e < b) :
    numeral b ds = numeral b es ↔ significant ds = significant es := by
  constructor
  · intro h
    have hdigits := digits_numeral b hb ds hds
    rw [h, digits_numeral b hb es hes] at hdigits
    exact (List.reverse_inj.mp hdigits).symm
  · intro h
    rw [← numeral_significant b ds, h, numeral_significant]

end SubqlEthereum.Numerals
