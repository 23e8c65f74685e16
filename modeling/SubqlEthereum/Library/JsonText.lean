import Mathlib.Data.Int.Notation
import Mathlib.Data.List.Basic

/-!
# JSON text and its unambiguity

The compact text `JSON.stringify` writes for a tree of JSON values: no blanks, object fields
in their own order, strings quoted with the short escapes and `\u00xx` for the remaining
control characters.  Numbers are integers.

A text of this form determines the tree it was written from.  The proof reads two equal texts
from the left: `chars_unique` says that one value's text is never a proper prefix of another's
once both are followed by the end of the input or by a closing or separating character, and
`stringify_injective` is its case with nothing following.
-/

namespace SubqlEthereum.JsonText

/-- A JSON value; the fields of an object keep the order in which they were inserted. -/
inductive Json
  | null
  | bool (b : Bool)
  | num (n : ℤ)
  | str (s : String)
  | arr (items : List Json)
  | obj (fields : List (String × Json))
deriving Repr, Inhabited

/-! ### Strings -/

/-- The hexadecimal digit `JSON.stringify` writes for a value below sixteen. -/
def hexDigit (n : ℕ) : Char := Nat.digitChar n

/-- The text of one character inside a quoted string. -/
def escapeChar (c : Char) : List Char :=
  if c = '"' then ['\\', '"']
  else if c = '\\' then ['\\', '\\']
  else if c.toNat = 8 then ['\\', 'b']
  else if c.toNat = 9 then ['\\', 't']
  else if c.toNat = 10 then ['\\', 'n']
  else if c.toNat = 12 then ['\\', 'f']
  else if c.toNat = 13 then ['\\', 'r']
  else if c.toNat < 32 then
    ['\\', 'u', '0', '0', hexDigit (c.toNat / 16), hexDigit (c.toNat % 16)]
  else [c]

/-- The escaped characters of a string, up to and including the closing quote. -/
def quoteTail : List Char → List Char
  | [] => ['"']
  | c :: cs => escapeChar c ++ quoteTail cs

/-- The quoted text of a string. -/
def quote (s : String) : List Char := '"' :: quoteTail s.toList

/-- The value of a hexadecimal digit, for reading an escape back. -/
def hexValue (c : Char) : ℕ :=
  if c.toNat < 58 then c.toNat - 48 else c.toNat - 87

/-- Reads one escaped character off the front of a text. -/
def unescape : List Char → Option (Char × List Char)
  | '\\' :: 'b' :: r => some (Char.ofNat 8, r)
  | '\\' :: 't' :: r => some (Char.ofNat 9, r)
  | '\\' :: 'n' :: r => some (Char.ofNat 10, r)
  | '\\' :: 'f' :: r => some (Char.ofNat 12, r)
  | '\\' :: 'r' :: r => some (Char.ofNat 13, r)
  | '\\' :: 'u' :: '0' :: '0' :: h :: l :: r => some (Char.ofNat (16 * hexValue h + hexValue l), r)
  | '\\' :: c :: r => some (c, r)
  | '"' :: _ => none
  | c :: r => some (c, r)
  | [] => none

theorem hexValue_pair :
    ∀ n < 32, 16 * hexValue (hexDigit (n / 16)) + hexValue (hexDigit (n % 16)) = n := by
  decide

/-- **One escape reads back as the character it was written for**, whatever follows. -/
theorem unescape_escapeChar (c : Char) (r : List Char) :
    unescape (escapeChar c ++ r) = some (c, r) := by
  have hof : ∀ n, c.toNat = n → Char.ofNat n = c := by
    intro n hn
    rw [← hn, Char.ofNat_toNat]
  unfold escapeChar
  split_ifs with h1 h2 h3 h4 h5 h6 h7 h8
  · rw [h1]; rfl
  · rw [h2]; rfl
  · rw [← hof 8 h3]; rfl
  · rw [← hof 9 h4]; rfl
  · rw [← hof 10 h5]; rfl
  · rw [← hof 12 h6]; rfl
  · rw [← hof 13 h7]; rfl
  · simp only [List.cons_append, List.nil_append, unescape]
    rw [hexValue_pair _ h8, hof _ rfl]
  · rw [List.singleton_append, unescape.eq_def]
    split <;> simp_all

theorem escapeChar_ne_quote (c : Char) (r s : List Char) : escapeChar c ++ r ≠ '"' :: s := by
  intro h
  have hread := unescape_escapeChar c r
  rw [h] at hread
  simp [unescape] at hread

/-- Two quoted tails followed by anything are equal only if the strings are. -/
theorem quoteTail_unique (a b r s : List Char) (h : quoteTail a ++ r = quoteTail b ++ s) :
    a = b ∧ r = s := by
  induction a generalizing b with
  | nil =>
    cases b with
    | nil => exact ⟨rfl, by simpa [quoteTail] using h⟩
    | cons c cs =>
      rw [quoteTail, quoteTail, List.append_assoc] at h
      exact absurd h.symm (escapeChar_ne_quote _ _ _)
  | cons c cs ih =>
    cases b with
    | nil =>
      rw [quoteTail, quoteTail, List.append_assoc] at h
      exact absurd h (escapeChar_ne_quote _ _ _)
    | cons d ds =>
      rw [quoteTail, quoteTail, List.append_assoc, List.append_assoc] at h
      have hread := unescape_escapeChar c (quoteTail cs ++ r)
      rw [h, unescape_escapeChar] at hread
      simp only [Option.some.injEq, Prod.mk.injEq] at hread
      obtain ⟨hcs, hrs⟩ := ih ds hread.2.symm
      exact ⟨by rw [hread.1, hcs], hrs⟩

theorem quote_unique (a b : String) (r s : List Char) (h : quote a ++ r = quote b ++ s) :
    a = b ∧ r = s := by
  simp only [quote, List.cons_append, List.cons.injEq, true_and] at h
  obtain ⟨hab, hrs⟩ := quoteTail_unique _ _ _ _ h
  exact ⟨String.toList_inj.mp hab, hrs⟩

/-! ### Numbers -/

/-- The decimal text of an integer. -/
def intChars : ℤ → List Char
  | .ofNat n => Nat.toDigits 10 n
  | .negSucc n => '-' :: Nat.toDigits 10 (n + 1)

/-- A text that may follow a value: nothing, or a character that closes or separates. -/
def Delimited (r : List Char) : Prop := ∀ c ∈ r.head?, c = ',' ∨ c = ']' ∨ c = '}'

theorem Delimited.not_digit {r : List Char} (h : Delimited r) (c : Char) (hc : c ∈ r.head?) :
    c.isDigit = false := by
  rcases h c hc with rfl | rfl | rfl <;> decide

theorem takeWhile_digits (n : ℕ) (r : List Char) (hr : Delimited r) :
    (Nat.toDigits 10 n ++ r).takeWhile Char.isDigit = Nat.toDigits 10 n := by
  rw [List.takeWhile_append_of_pos
    (fun c hc => Nat.isDigit_of_mem_toDigits (by omega) (by omega) hc)]
  cases r with
  | nil => simp
  | cons c cs => simp [hr.not_digit c (by simp)]

theorem toDigits_injective (m n : ℕ) (h : Nat.toDigits 10 m = Nat.toDigits 10 n) : m = n := by
  have hm := Nat.ofDigitChars_ten_toDigits (n := m)
  rw [h, Nat.ofDigitChars_ten_toDigits] at hm
  exact hm.symm

theorem toDigits_unique (m n : ℕ) (r s : List Char) (hr : Delimited r) (hs : Delimited s)
    (h : Nat.toDigits 10 m ++ r = Nat.toDigits 10 n ++ s) : m = n ∧ r = s := by
  have hmn : Nat.toDigits 10 m = Nat.toDigits 10 n := by
    rw [← takeWhile_digits m r hr, h, takeWhile_digits n s hs]
  refine ⟨toDigits_injective m n hmn, ?_⟩
  rw [hmn] at h
  exact List.append_cancel_left h

theorem toDigits_head (n : ℕ) : ∃ c cs, Nat.toDigits 10 n = c :: cs ∧ c.isDigit = true := by
  cases hd : Nat.toDigits 10 n with
  | nil => exact absurd hd Nat.toDigits_ne_nil
  | cons c cs =>
    exact ⟨c, cs, rfl, Nat.isDigit_of_mem_toDigits (n := n) (b := 10) (by omega) (by omega)
      (by simp [hd])⟩

theorem intChars_unique (m n : ℤ) (r s : List Char) (hr : Delimited r) (hs : Delimited s)
    (h : intChars m ++ r = intChars n ++ s) : m = n ∧ r = s := by
  have hsign : ∀ (k : ℕ) (t u : List Char), Nat.toDigits 10 k ++ t ≠ '-' :: u := by
    intro k t u hk
    obtain ⟨c, cs, hc, hdig⟩ := toDigits_head k
    rw [hc, List.cons_append, List.cons.injEq] at hk
    rw [hk.1] at hdig
    exact absurd hdig (by decide)
  cases m with
  | ofNat m =>
    cases n with
    | ofNat n =>
      obtain ⟨hmn, hrs⟩ := toDigits_unique m n r s hr hs h
      exact ⟨by rw [hmn], hrs⟩
    | negSucc n => exact absurd h (hsign _ _ _)
  | negSucc m =>
    cases n with
    | ofNat n => exact absurd h.symm (hsign _ _ _)
    | negSucc n =>
      simp only [intChars, List.cons_append, List.cons.injEq, true_and] at h
      obtain ⟨hmn, hrs⟩ := toDigits_unique (m + 1) (n + 1) r s hr hs h
      exact ⟨by rw [Nat.succ.inj hmn], hrs⟩

/-! ### Values -/

mutual

/-- The text of a value, as a list of characters. -/
def chars : Json → List Char
  | .null => ['n', 'u', 'l', 'l']
  | .bool true => ['t', 'r', 'u', 'e']
  | .bool false => ['f', 'a', 'l', 's', 'e']
  | .num n => intChars n
  | .str s => quote s
  | .arr [] => ['[', ']']
  | .arr (x :: xs) => '[' :: (chars x ++ itemsTail xs)
  | .obj [] => ['{', '}']
  | .obj ((k, v) :: fs) => '{' :: (quote k ++ ':' :: (chars v ++ fieldsTail fs))

/-- The items of an array after the first, and the closing bracket. -/
def itemsTail : List Json → List Char
  | [] => [']']
  | x :: xs => ',' :: (chars x ++ itemsTail xs)

/-- The fields of an object after the first, and the closing brace. -/
def fieldsTail : List (String × Json) → List Char
  | [] => ['}']
  | (k, v) :: fs => ',' :: (quote k ++ ':' :: (chars v ++ fieldsTail fs))

end

/-- `JSON.stringify` of a value. -/
def stringify (j : Json) : String := String.ofList (chars j)

theorem delimited_nil : Delimited [] := by
  intro c hc
  simp at hc

theorem delimited_itemsTail (xs : List Json) (r : List Char) : Delimited (itemsTail xs ++ r) := by
  cases xs with
  | nil => exact fun c hc => .inr (.inl (Option.some.inj hc).symm)
  | cons x xs => exact fun c hc => .inl (Option.some.inj hc).symm

theorem delimited_fieldsTail (fs : List (String × Json)) (r : List Char) :
    Delimited (fieldsTail fs ++ r) := by
  match fs with
  | [] => exact fun c hc => .inr (.inr (Option.some.inj hc).symm)
  | (k, v) :: fs => exact fun c hc => .inl (Option.some.inj hc).symm

/-- Which constructor a value is built with. -/
def shape : Json → ℕ
  | .null => 0
  | .bool _ => 1
  | .num _ => 2
  | .str _ => 3
  | .arr _ => 4
  | .obj _ => 5

/-- The constructor as the first character of the text tells it; no value starts otherwise. -/
def shapeOfHead (c : Char) : ℕ :=
  if c = 'n' then 0 else if c = 't' then 1 else if c = 'f' then 1 else if c = '"' then 3
  else if c = '[' then 4 else if c = '{' then 5 else if c = '-' then 2
  else if c.isDigit then 2 else 6

theorem shapeOfHead_digit (c : Char) (h : c.isDigit = true) : shapeOfHead c = 2 := by
  unfold shapeOfHead
  split_ifs with h1 h2 h3 h4 h5 h6 h7 <;> subst_vars <;>
    first | rfl | exact absurd h (by decide)

/-- **The first character of a value's text tells its constructor.** -/
theorem chars_head (j : Json) : ∃ c cs, chars j = c :: cs ∧ shapeOfHead c = shape j := by
  cases j with
  | null => exact ⟨_, _, by rw [chars], rfl⟩
  | bool b => cases b <;> exact ⟨_, _, by rw [chars], rfl⟩
  | num n =>
    cases n with
    | ofNat n =>
      obtain ⟨c, cs, hc, hdig⟩ := toDigits_head n
      exact ⟨c, cs, by rw [chars, intChars, hc], shapeOfHead_digit c hdig⟩
    | negSucc n => exact ⟨'-', Nat.toDigits 10 (n + 1), by rw [chars, intChars], rfl⟩
  | str s => exact ⟨_, _, by rw [chars, quote], rfl⟩
  | arr xs => cases xs <;> exact ⟨_, _, by rw [chars], rfl⟩
  | obj fs => cases fs <;> exact ⟨_, _, by rw [chars], rfl⟩

theorem shape_eq_of_chars (a b : Json) (r s : List Char) (h : chars a ++ r = chars b ++ s) :
    shape a = shape b := by
  obtain ⟨c, cs, hc, hca⟩ := chars_head a
  obtain ⟨d, ds, hd, hdb⟩ := chars_head b
  rw [hc, hd, List.cons_append, List.cons_append, List.cons.injEq] at h
  rw [← hca, ← hdb, h.1]

theorem chars_ne_of_shapeOfHead (j : Json) (c : Char) (r s : List Char) (hc : shapeOfHead c = 6) :
    chars j ++ r ≠ c :: s := by
  intro h
  obtain ⟨d, ds, hd, hshape⟩ := chars_head j
  rw [hd, List.cons_append, List.cons.injEq] at h
  rw [h.1, hc] at hshape
  cases j <;> simp [shape] at hshape

/-- An array's text is its items' tail with the leading comma turned into the bracket. -/
theorem itemsTail_of_chars_arr (xs ys : List Json) (r s : List Char)
    (h : chars (.arr xs) ++ r = chars (.arr ys) ++ s) :
    itemsTail xs ++ r = itemsTail ys ++ s := by
  cases xs with
  | nil =>
    cases ys with
    | nil => simpa [chars, itemsTail] using h
    | cons y ys =>
      simp only [chars, List.cons_append, List.append_assoc, List.cons.injEq, true_and] at h
      exact absurd h.symm (chars_ne_of_shapeOfHead y _ _ _ rfl)
  | cons x xs =>
    cases ys with
    | nil =>
      simp only [chars, List.cons_append, List.append_assoc, List.cons.injEq, true_and] at h
      exact absurd h (chars_ne_of_shapeOfHead x _ _ _ rfl)
    | cons y ys => simpa [chars, itemsTail] using h

/-- An object's text is its fields' tail with the leading comma turned into the brace. -/
theorem fieldsTail_of_chars_obj (fs gs : List (String × Json)) (r s : List Char)
    (h : chars (.obj fs) ++ r = chars (.obj gs) ++ s) :
    fieldsTail fs ++ r = fieldsTail gs ++ s := by
  match fs, gs with
  | [], [] => simpa [chars, fieldsTail] using h
  | [], (l, w) :: gs => simp [chars, quote] at h
  | (k, v) :: fs, [] => simp [chars, quote] at h
  | (k, v) :: fs, (l, w) :: gs => simpa [chars, fieldsTail] using h

mutual

/-- **Unambiguity.**  Two values whose texts, each followed by a delimiter, agree are equal. -/
theorem chars_unique : ∀ (a b : Json) (r s : List Char), Delimited r → Delimited s →
    chars a ++ r = chars b ++ s → a = b ∧ r = s
  | .null, b, r, s, _, _, h => by
    match b, shape_eq_of_chars _ _ _ _ h, h with
    | .null, _, h => exact ⟨rfl, by simpa [chars] using h⟩
  | .bool x, b, r, s, _, _, h => by
    match b, shape_eq_of_chars _ _ _ _ h, h with
    | .bool y, _, h => cases x <;> cases y <;> simp_all [chars]
  | .num m, b, r, s, hr, hs, h => by
    match b, shape_eq_of_chars _ _ _ _ h, h with
    | .num n, _, h =>
      rw [chars, chars] at h
      obtain ⟨hmn, hrs⟩ := intChars_unique m n r s hr hs h
      exact ⟨by rw [hmn], hrs⟩
  | .str x, b, r, s, _, _, h => by
    match b, shape_eq_of_chars _ _ _ _ h, h with
    | .str y, _, h =>
      rw [chars, chars] at h
      obtain ⟨hxy, hrs⟩ := quote_unique x y r s h
      exact ⟨by rw [hxy], hrs⟩
  | .arr xs, b, r, s, _, _, h => by
    match b, shape_eq_of_chars _ _ _ _ h, h with
    | .arr ys, _, h =>
      obtain ⟨hxys, hrs⟩ := itemsTail_unique xs ys r s (itemsTail_of_chars_arr xs ys r s h)
      exact ⟨by rw [hxys], hrs⟩
  | .obj fs, b, r, s, _, _, h => by
    match b, shape_eq_of_chars _ _ _ _ h, h with
    | .obj gs, _, h =>
      obtain ⟨hfgs, hrs⟩ := fieldsTail_unique fs gs r s (fieldsTail_of_chars_obj fs gs r s h)
      exact ⟨by rw [hfgs], hrs⟩

theorem itemsTail_unique : ∀ (xs ys : List Json) (r s : List Char),
    itemsTail xs ++ r = itemsTail ys ++ s → xs = ys ∧ r = s
  | [], ys, r, s, h => by
    cases ys with
    | nil => exact ⟨rfl, by simpa [itemsTail] using h⟩
    | cons y ys => simp [itemsTail] at h
  | x :: xs, ys, r, s, h => by
    cases ys with
    | nil => simp [itemsTail] at h
    | cons y ys =>
      simp only [itemsTail, List.cons_append, List.append_assoc, List.cons.injEq, true_and] at h
      obtain ⟨hxy, htail⟩ := chars_unique x y _ _ (delimited_itemsTail xs r)
        (delimited_itemsTail ys s) h
      obtain ⟨hxys, hrs⟩ := itemsTail_unique xs ys r s htail
      exact ⟨by rw [hxy, hxys], hrs⟩

theorem fieldsTail_unique : ∀ (fs gs : List (String × Json)) (r s : List Char),
    fieldsTail fs ++ r = fieldsTail gs ++ s → fs = gs ∧ r = s
  | [], gs, r, s, h => by
    cases gs with
    | nil => exact ⟨rfl, by simpa [fieldsTail] using h⟩
    | cons g gs => simp [fieldsTail] at h
  | (k, v) :: fs, gs, r, s, h => by
    match gs with
    | [] => simp [fieldsTail] at h
    | (l, w) :: gs =>
      simp only [fieldsTail, List.cons_append, List.append_assoc, List.cons.injEq, true_and] at h
      obtain ⟨hkl, hrest⟩ := quote_unique k l _ _ h
      rw [List.cons.injEq] at hrest
      obtain ⟨hvw, htail⟩ := chars_unique v w _ _ (delimited_fieldsTail fs r)
        (delimited_fieldsTail gs s) hrest.2
      obtain ⟨hfg, hrs⟩ := fieldsTail_unique fs gs r s htail
      exact ⟨by rw [hkl, hvw, hfg], hrs⟩

end

/-- Equal texts are texts of the same value. -/
theorem stringify_injective : Function.Injective stringify := by
  intro a b h
  have hchars : chars a ++ [] = chars b ++ [] := by
    rw [List.append_nil, List.append_nil]
    exact String.ofList_injective h
  exact (chars_unique a b [] [] delimited_nil delimited_nil hchars).1

/-- Object fields keep their order and strings are escaped. -/
example : stringify (.obj [("topics", .arr [.str "a\"b", .null]), ("n", .num (-12))]) =
    "\x7b\"topics\":[\"a\\\"b\",null],\"n\":-12\x7d" := by decide

end SubqlEthereum.JsonText
