import Mathlib.Algebra.Order.Group.Nat
import Mathlib.Data.Nat.Cast.Order.Ring
import Mathlib.Tactic.Ring
import SubqlEthereum.Library.Numerals

/-!
# Numerals compared as texts

Texts are compared character by character, so numerals of one length come in the order of their
numbers, and those of different lengths by as many leading digits as the shorter one has
(`toString_lt_iff`).
-/

namespace SubqlEthereum.DecimalOrder

open SubqlEthereum.Numerals

/-! ### Leading digits -/

theorem foldl_eq (b : ℕ) (ds : List ℕ) (n : ℕ) :
    ds.foldl (fun n d => b * n + d) n = n * b ^ ds.length + numeral b ds := by
  induction ds generalizing n with
  | nil => simp [numeral]
  | cons d rest ih =>
    have hnumeral : numeral b (d :: rest) = (b * 0 + d) * b ^ rest.length + numeral b rest :=
      ih (b * 0 + d)
    rw [List.foldl_cons, ih, hnumeral, List.length_cons]
    ring

theorem numeral_cons (b d : ℕ) (rest : List ℕ) :
    numeral b (d :: rest) = d * b ^ rest.length + numeral b rest := by
  show rest.foldl (fun n d => b * n + d) (b * 0 + d) = _
  rw [foldl_eq, Nat.mul_zero, Nat.zero_add]

theorem numeral_append (b : ℕ) (xs ys : List ℕ) :
    numeral b (xs ++ ys) = numeral b xs * b ^ ys.length + numeral b ys := by
  show (xs ++ ys).foldl (fun n d => b * n + d) 0 = _
  rw [List.foldl_append]
  exact foldl_eq b ys (numeral b xs)

theorem numeral_lt (b : ℕ) (ds : List ℕ) (hds : ∀ d ∈ ds, d < b) :
    numeral b ds < b ^ ds.length := by
  induction ds with
  | nil => simp [numeral]
  | cons d rest ih =>
    have hd : d + 1 ≤ b := hds d List.mem_cons_self
    have hrest := ih fun e he => hds e (List.mem_cons_of_mem d he)
    have hpower := Nat.mul_le_mul_right (b ^ rest.length) hd
    rw [numeral_cons, List.length_cons, Nat.pow_succ, Nat.mul_comm _ b]
    rw [Nat.add_mul, Nat.one_mul] at hpower
    omega

/-- The leading digits denote the number without its last digits. -/
theorem numeral_div (b : ℕ) (front back : List ℕ) (hback : ∀ d ∈ back, d < b) :
    numeral b (front ++ back) / b ^ back.length = numeral b front := by
  have hlt := numeral_lt b back hback
  rw [numeral_append, Nat.mul_comm, Nat.mul_add_div (by omega), Nat.div_eq_of_lt hlt, Nat.add_zero]

/-! ### Digits in the order of lists -/

/-- **Numerals of one length** are ordered as their numbers are. -/
theorem lt_iff_numeral_lt (b : ℕ) (xs : List ℕ) :
    ∀ ys : List ℕ, xs.length = ys.length → (∀ d ∈ xs, d < b) → (∀ d ∈ ys, d < b) →
      (xs < ys ↔ numeral b xs < numeral b ys) := by
  induction xs with
  | nil =>
    intro ys hlen _ _
    rw [List.eq_nil_of_length_eq_zero hlen.symm]
    simp
  | cons x xs ih =>
    intro ys hlen hxs hys
    cases ys with
    | nil => exact absurd hlen (by simp)
    | cons y ys =>
      have hlen' : xs.length = ys.length := Nat.succ.inj hlen
      have hxs' : ∀ d ∈ xs, d < b := fun d hd => hxs d (List.mem_cons_of_mem x hd)
      have hys' : ∀ d ∈ ys, d < b := fun d hd => hys d (List.mem_cons_of_mem y hd)
      have hx := numeral_lt b xs hxs'
      have hy := numeral_lt b ys hys'
      rw [List.cons_lt_cons_iff, ih ys hlen' hxs' hys', numeral_cons, numeral_cons, hlen']
      rw [hlen'] at hx
      rcases Nat.lt_trichotomy x y with hlt | heq | hgt
      · have hpower := Nat.mul_le_mul_right (b ^ ys.length) (Nat.succ_le_of_lt hlt)
        rw [Nat.succ_mul] at hpower
        exact iff_of_true (.inl hlt) (by omega)
      · subst heq
        omega
      · have hpower := Nat.mul_le_mul_right (b ^ ys.length) (Nat.succ_le_of_lt hgt)
        rw [Nat.succ_mul] at hpower
        exact iff_of_false (by omega) (by omega)

/-- More digits after the first ones do not make a list smaller. -/
theorem append_lt_iff (xs : List ℕ) :
    ∀ ys zs : List ℕ, xs.length = ys.length → (xs ++ zs < ys ↔ xs < ys) := by
  induction xs with
  | nil =>
    intro ys zs hlen
    rw [List.eq_nil_of_length_eq_zero hlen.symm]
    simp
  | cons x xs ih =>
    intro ys zs hlen
    cases ys with
    | nil => exact absurd hlen (by simp)
    | cons y ys =>
      rw [List.cons_append, List.cons_lt_cons_iff, List.cons_lt_cons_iff,
        ih ys zs (Nat.succ.inj hlen)]

/-- They do make it larger than the first ones. -/
theorem lt_append_iff (xs : List ℕ) :
    ∀ ys zs : List ℕ, xs.length = ys.length → zs ≠ [] → (xs < ys ++ zs ↔ ¬ ys < xs) := by
  induction xs with
  | nil =>
    intro ys zs hlen hzs
    rw [List.eq_nil_of_length_eq_zero hlen.symm]
    cases zs with
    | nil => exact absurd rfl hzs
    | cons z zs => simp
  | cons x xs ih =>
    intro ys zs hlen hzs
    cases ys with
    | nil => exact absurd hlen (by simp)
    | cons y ys =>
      rw [List.cons_append, List.cons_lt_cons_iff, List.cons_lt_cons_iff,
        ih ys zs (Nat.succ.inj hlen) hzs]
      rcases Nat.lt_trichotomy x y with hlt | heq | hgt
      · exact iff_of_true (.inl hlt) (by omega)
      · subst heq
        simp
      · exact iff_of_false (by omega) (by simp [hgt])

/-- **Numerals of any lengths** are ordered by as many leading digits as the shorter one has. -/
theorem digits_lt_iff (b : ℕ) (xs ys : List ℕ) (hxs : ∀ d ∈ xs, d < b) (hys : ∀ d ∈ ys, d < b) :
    xs < ys ↔
      if xs.length < ys.length then
        numeral b xs ≤ numeral b ys / b ^ (ys.length - xs.length)
      else numeral b xs / b ^ (xs.length - ys.length) < numeral b ys := by
  by_cases hlen : xs.length < ys.length
  · -- the longer one split into the leading digits and the others
    obtain ⟨front, back, rfl, hfront⟩ : ∃ front back, ys = front ++ back ∧
        xs.length = front.length :=
      ⟨ys.take xs.length, ys.drop xs.length, (List.take_append_drop _ _).symm,
        by rw [List.length_take]; omega⟩
    have hback : ∀ d ∈ back, d < b := fun d hd => hys d (List.mem_append_right front hd)
    have hrest : (front ++ back).length - xs.length = back.length := by
      rw [List.length_append, hfront]
      omega
    have hne : back ≠ [] := by
      rintro rfl
      rw [List.append_nil] at hlen
      omega
    rw [if_pos hlen, hrest, numeral_div b front back hback, lt_append_iff xs front back hfront hne,
      lt_iff_numeral_lt b front xs hfront.symm
        (fun d hd => hys d (List.mem_append_left back hd)) hxs, Nat.not_lt]
  · obtain ⟨front, back, rfl, hfront⟩ : ∃ front back, xs = front ++ back ∧
        front.length = ys.length :=
      ⟨xs.take ys.length, xs.drop ys.length, (List.take_append_drop _ _).symm,
        by rw [List.length_take]; omega⟩
    have hback : ∀ d ∈ back, d < b := fun d hd => hxs d (List.mem_append_right front hd)
    have hrest : (front ++ back).length - ys.length = back.length := by
      rw [List.length_append, hfront]
      omega
    rw [if_neg hlen, hrest, numeral_div b front back hback, append_lt_iff front ys back hfront,
      lt_iff_numeral_lt b front ys hfront
        (fun d hd => hxs d (List.mem_append_left back hd)) hys]

/-! ### Decimal texts -/

/-- The characters of a number are those of its digits. -/
theorem toDigits_eq (n : ℕ) : ∃ ds, Nat.toDigits 10 n = ds.map Nat.digitChar ∧
    (∀ d ∈ ds, d < 10) ∧ numeral 10 ds = n := by
  induction n using Nat.strongRecOn with
  | ind n ih =>
    by_cases hn : n < 10
    · refine ⟨[n], Nat.toDigits_of_lt_base hn, ?_, ?_⟩
      · intro d hd
        rw [List.mem_singleton.mp hd]
        exact hn
      · rw [numeral_cons]
        simp [numeral]
    · obtain ⟨ds, hdigits, hlt, hnumeral⟩ := ih (n / 10) (by omega)
      refine ⟨ds ++ [n % 10], ?_, ?_, ?_⟩
      · rw [Nat.toDigits_of_base_le (by decide) (by omega), hdigits, List.map_append]
        rfl
      · intro d hd
        rcases List.mem_append.mp hd with hd | hd
        · exact hlt d hd
        · rw [List.mem_singleton.mp hd]
          omega
      · rw [numeral_append, hnumeral, numeral_cons]
        simp only [List.length_singleton, List.length_nil, numeral, List.foldl_nil]
        omega

theorem digitChar_lt_iff (x y : ℕ) (hx : x < 10) (hy : y < 10) :
    x.digitChar < y.digitChar ↔ x < y := by
  have htext : x.digitChar < y.digitChar ↔ x.digitChar.toNat < y.digitChar.toNat := Iff.rfl
  rw [htext, Nat.toNat_digitChar_of_lt_ten hx, Nat.toNat_digitChar_of_lt_ten hy]
  omega

/-- Digits and their characters are ordered alike. -/
theorem map_digitChar_lt_iff (xs : List ℕ) :
    ∀ ys : List ℕ, (∀ d ∈ xs, d < 10) → (∀ d ∈ ys, d < 10) →
      (xs.map Nat.digitChar < ys.map Nat.digitChar ↔ xs < ys) := by
  induction xs with
  | nil =>
    intro ys _ _
    cases ys with
    | nil => simp
    | cons y ys => simp
  | cons x xs ih =>
    intro ys hxs hys
    cases ys with
    | nil => simp
    | cons y ys =>
      have hx := hxs x List.mem_cons_self
      have hy := hys y List.mem_cons_self
      have hrest := ih ys (fun d hd => hxs d (List.mem_cons_of_mem x hd))
        fun d hd => hys d (List.mem_cons_of_mem y hd)
      have hsame : x.digitChar = y.digitChar ↔ x = y := by
        constructor
        · intro h
          have hnat := congrArg Char.toNat h
          rw [Nat.toNat_digitChar_of_lt_ten hx, Nat.toNat_digitChar_of_lt_ten hy] at hnat
          omega
        · exact congrArg Nat.digitChar
      rw [List.map_cons, List.map_cons, List.cons_lt_cons_iff, List.cons_lt_cons_iff,
        digitChar_lt_iff x y hx hy, hsame, hrest]

/-- **Decimal texts are ordered by their leading digits**, as many as the shorter one has. -/
theorem toString_lt_iff (m n : ℕ) :
    toString m < toString n ↔
      if (toString m).length < (toString n).length then
        m ≤ n / 10 ^ ((toString n).length - (toString m).length)
      else m / 10 ^ ((toString m).length - (toString n).length) < n := by
  obtain ⟨ds, hm, hds, rfl⟩ := toDigits_eq m
  obtain ⟨es, hn, hes, rfl⟩ := toDigits_eq n
  have hlength : ∀ k (digits : List ℕ), Nat.toDigits 10 k = digits.map Nat.digitChar →
      (toString k).length = digits.length := by
    intro k digits h
    rw [← String.length_toList, Nat.toString_eq_repr, Nat.toList_repr, h, List.length_map]
  rw [hlength _ ds hm, hlength _ es hn, String.lt_iff, Nat.toString_eq_repr, Nat.toString_eq_repr,
    Nat.toList_repr, Nat.toList_repr, hm, hn, map_digitChar_lt_iff ds es hds hes]
  exact digits_lt_iff 10 ds es hds hes

end SubqlEthereum.DecimalOrder
