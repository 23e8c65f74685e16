import Mathlib.Data.Option.Basic
import SubqlEthereum.LogFilter

/-!
# Spellings of a hex string

A digit from `a` to `f` can be written in either case.  Two hex strings are spellings of one
another when they are the same up to the case of their digits; the prefix `0x` has no other
spelling.  The comparisons that lower-case both sides cannot tell spellings apart, any other
comparison can as soon as there is a letter.
-/

namespace SubqlEthereum.HexSpelling

open SubqlEthereum.External SubqlEthereum.Strings SubqlEthereum.LogFilter

/-- Two hex strings that are the same up to the case of their digits. -/
def Respelled (a b : String) : Prop :=
  ∃ ds es, hexDigits a = some ds ∧ hexDigits b = some es ∧
    ds.map Char.toLower = es.map Char.toLower

/-- Some digit of the hex string is a letter. -/
def hasLetter (s : String) : Bool := (hexDigits s).any (·.any fun c => !c.isDigit)

/-! ### Hex strings and their digits -/

theorem hexDigits_ofList (ds : List Char) (hds : ∀ c ∈ ds, isHexDigit c = true) :
    hexDigits (String.ofList ('0' :: 'x' :: ds)) = some ds := by
  rw [hexDigits, String.toList_ofList]
  exact if_pos (List.all_eq_true.mpr hds)

/-- A hex string is its prefix and its digits. -/
theorem eq_of_hexDigits (s : String) (ds : List Char) (h : hexDigits s = some ds) :
    s = String.ofList ('0' :: 'x' :: ds) := by
  unfold hexDigits at h
  split at h
  · rename_i digits htext
    by_cases hall : digits.all isHexDigit = true
    · rw [if_pos hall, Option.some_inj] at h
      rw [← h, ← htext, String.ofList_toList]
    · rw [if_neg hall] at h
      exact absurd h (by simp)
  · exact absurd h (by simp)

theorem toList_of_hexDigits (s : String) (ds : List Char) (h : hexDigits s = some ds) :
    s.toList = '0' :: 'x' :: ds := by
  rw [eq_of_hexDigits s ds h, String.toList_ofList]

theorem ne_empty_of_isHexText (s : String) (h : isHexText s = true) : s ≠ "" := by
  rintro rfl
  exact absurd h (by decide)

/-! ### One digit -/

/-- The digit in the other case; a decimal digit has none. -/
def otherCase (c : Char) : Char := if c.isUpper then c.toLower else c.toUpper

theorem otherCase_spec (c : Char) (hc : isHexDigit c = true) :
    isHexDigit (otherCase c) = true ∧ (otherCase c).toLower = c.toLower ∧
      (c.isDigit = false → otherCase c ≠ c) :=
  of_decide_eq_true (forall_isHexDigit (fun x => decide (isHexDigit (otherCase x) = true ∧
    (otherCase x).toLower = x.toLower ∧ (x.isDigit = false → otherCase x ≠ x))) (by decide) c hc)

/-- A decimal digit has one spelling only. -/
theorem eq_of_toLower_eq (c d : Char) (hc : isHexDigit c = true) (hd : isHexDigit d = true)
    (hdigit : c.isDigit = true) (h : c.toLower = d.toLower) : c = d := by
  have hpair := forall_isHexDigit (fun x => "0123456789abcdefABCDEF".toList.all fun y =>
    decide (x.isDigit = true → x.toLower = y.toLower → x = y)) (by decide) c hc
  exact of_decide_eq_true (forall_isHexDigit _ hpair d hd) hdigit h

/-! ### Spellings -/

theorem Respelled.refl (s : String) (h : isHexText s = true) : Respelled s s := by
  obtain ⟨ds, hds⟩ := Option.isSome_iff_exists.mp h
  exact ⟨ds, ds, hds, hds, rfl⟩

theorem Respelled.symm {a b : String} (h : Respelled a b) : Respelled b a := by
  obtain ⟨ds, es, hds, hes, hletters⟩ := h
  exact ⟨es, ds, hes, hds, hletters.symm⟩

theorem Respelled.trans {a b c : String} (hab : Respelled a b) (hbc : Respelled b c) :
    Respelled a c := by
  obtain ⟨ds, es, hds, hes, hfirst⟩ := hab
  obtain ⟨es', fs, hes', hfs, hsecond⟩ := hbc
  obtain rfl : es = es' := by
    rw [hes] at hes'
    exact Option.some.inj hes'
  exact ⟨ds, fs, hds, hfs, hfirst.trans hsecond⟩

theorem Respelled.isHexText_left {a b : String} (h : Respelled a b) : isHexText a = true := by
  obtain ⟨ds, -, hds, -, -⟩ := h
  rw [isHexText, hds]
  rfl

theorem Respelled.length_eq {a b : String} (h : Respelled a b) :
    a.toList.length = b.toList.length := by
  obtain ⟨ds, es, hds, hes, hletters⟩ := h
  have hlength := congrArg List.length hletters
  rw [List.length_map, List.length_map] at hlength
  rw [toList_of_hexDigits a ds hds, toList_of_hexDigits b es hes]
  simp [hlength]

/-- **Lower-casing makes spellings equal.** -/
theorem Respelled.toLowerCase_eq (p : Platform) {a b : String} (h : Respelled a b) :
    p.toLowerCase a = p.toLowerCase b := by
  obtain ⟨ds, es, hds, hes, hletters⟩ := h
  rw [eq_of_hexDigits a ds hds, eq_of_hexDigits b es hes,
    toLowerCase_hex p ds (hexDigits_all a ds hds), toLowerCase_hex p es (hexDigits_all b es hes),
    hletters]

theorem Respelled.stringNormalizedEq_eq (p : Platform) {a b : String} (h : Respelled a b)
    (other : Option String) : stringNormalizedEq p a other = stringNormalizedEq p b other := by
  rw [stringNormalizedEq, stringNormalizedEq, h.toLowerCase_eq p]

/-- Digits without a letter have one spelling only. -/
theorem eq_of_map_toLower_eq (ds : List Char) (hds : ∀ c ∈ ds, isHexDigit c = true)
    (hdigits : ∀ c ∈ ds, c.isDigit = true) :
    ∀ es : List Char, (∀ c ∈ es, isHexDigit c = true) →
      ds.map Char.toLower = es.map Char.toLower → ds = es := by
  induction ds with
  | nil =>
    intro es _ h
    exact (List.map_eq_nil_iff.mp h.symm).symm
  | cons c ds ih =>
    intro es hes h
    cases es with
    | nil => exact absurd h (by simp)
    | cons d es =>
      rw [List.map_cons, List.map_cons, List.cons.injEq] at h
      have hfirst := eq_of_toLower_eq c d (hds c List.mem_cons_self) (hes d List.mem_cons_self)
        (hdigits c List.mem_cons_self) h.1
      have hrest := ih (fun x hx => hds x (List.mem_cons_of_mem c hx))
        (fun x hx => hdigits x (List.mem_cons_of_mem c hx)) es
        (fun x hx => hes x (List.mem_cons_of_mem d hx)) h.2
      rw [hfirst, hrest]

/-- **A hex string without a letter has one spelling only.** -/
theorem Respelled.eq_of_not_hasLetter {a b : String} (h : Respelled a b)
    (hletter : hasLetter a = false) : a = b := by
  obtain ⟨ds, es, hds, hes, hletters⟩ := h
  have hdigits : ∀ c ∈ ds, c.isDigit = true := by
    rw [hasLetter, hds, Option.any_some, List.any_eq_false] at hletter
    simpa using hletter
  rw [eq_of_hexDigits a ds hds, eq_of_hexDigits b es hes,
    eq_of_map_toLower_eq ds (hexDigits_all a ds hds) hdigits es (hexDigits_all b es hes) hletters]

theorem Respelled.eq_empty_iff {a b : String} (h : Respelled a b) : a = "0x" ↔ b = "0x" := by
  constructor
  · rintro rfl
    exact (h.eq_of_not_hasLetter (by decide)).symm
  · rintro rfl
    exact (h.symm.eq_of_not_hasLetter (by decide)).symm

/-- **Any other has another one.** -/
theorem exists_respelled_ne (a : String) (h : hasLetter a = true) : ∃ b, Respelled a b ∧ b ≠ a := by
  obtain ⟨ds, hds, hany⟩ := (Option.any_eq_true _ _).mp h
  obtain ⟨c, hc, hletter⟩ := List.any_eq_true.mp hany
  have hspec := fun d hd => otherCase_spec d (hexDigits_all a ds hds d hd)
  have hother : ∀ d ∈ ds.map otherCase, isHexDigit d = true := by
    intro d hd
    obtain ⟨e, he, rfl⟩ := List.mem_map.mp hd
    exact (hspec e he).1
  refine ⟨String.ofList ('0' :: 'x' :: ds.map otherCase),
    ⟨ds, ds.map otherCase, hds, hexDigits_ofList _ hother, ?_⟩, ?_⟩
  · rw [List.map_map]
    exact List.map_congr_left fun d hd => (hspec d hd).2.1.symm
  · rw [eq_of_hexDigits a ds hds]
    intro hsame
    have hmap : ds.map otherCase = ds.map id := by
      rw [List.map_id]
      exact (List.cons.inj (List.cons.inj (String.ofList_injective hsame)).2).2
    have hcase := List.map_inj_left.mp hmap c hc
    exact (hspec c hc).2.2 (by simpa using hletter) hcase

end SubqlEthereum.HexSpelling
