import Mathlib.Data.List.Induction
import SubqlEthereum.Library.WordText

/-!
# The regular expression of a whole word

`text.replace(/\bword\b/g, replacement)` for a literal `word` of any characters.  The text is
scanned from its start; where the expression matches, the replacement is put in and the scan goes
on behind the match.  `scan_eq_mapWords`: for a word of word characters this rewrites exactly the
maximal runs of word characters that are equal to the word.
-/

namespace SubqlEthereum.WordText

/-- `\b` holds between two neighbours when exactly one of them is a word character; outside the
text there is none. -/
def boundary (before after : Option Char) : Bool := before.any isWordChar != after.any isWordChar

/-- `\bword\b` matches between `passed` and `rest`. -/
def matchesAt (word passed rest : List Char) : Bool :=
  word.isPrefixOf rest && boundary passed.getLast? rest.head? &&
    boundary (passed ++ word).getLast? (rest.drop word.length).head?

/-- What is put in for a match: `$$` stands for a dollar, `$&` for the match and `$` before one of
the two quotes for the text on one side of it.  The expression has no groups, so that every other
dollar stands for itself. -/
def expand (matched before after : List Char) : List Char → List Char
  | [] => []
  | [c] => [c]
  | c :: d :: cs =>
    if c = '$' then
      if d = '$' then '$' :: expand matched before after cs
      else if d = '&' then matched ++ expand matched before after cs
      else if d.toNat = 96 then before ++ expand matched before after cs
      else if d.toNat = 39 then after ++ expand matched before after cs
      else c :: expand matched before after (d :: cs)
    else c :: expand matched before after (d :: cs)

/-- The rewritten rest of a text; `passed` is what is before it, and `skip` characters of the last
match are still to be passed over. -/
def scan (word replacement : List Char) : List Char → ℕ → List Char → List Char
  | passed, _, [] =>
    if matchesAt word passed [] then expand word passed [] replacement else []
  | passed, skip + 1, c :: rest => scan word replacement (passed ++ [c]) skip rest
  | passed, 0, c :: rest =>
    if matchesAt word passed (c :: rest) then
      expand word passed ((c :: rest).drop word.length) replacement ++
        -- behind an empty match the scan goes on one character later
        if word = [] then c :: scan word replacement (passed ++ [c]) 0 rest
        else scan word replacement (passed ++ [c]) (word.length - 1) rest
    else c :: scan word replacement (passed ++ [c]) 0 rest

/-- `text.replace(/\bword\b/g, replacement)`. -/
def replaceWordRegex (word replacement text : String) : String :=
  String.ofList (scan word.toList replacement.toList [] 0 text.toList)

/-! ### Reading the source of an expression -/

/-- The characters that have a meaning of their own in an expression. -/
def isSyntaxChar (c : Char) : Bool :=
  c ∈ ['.', '*', '+', '?', '^', '$', '\x7b', '\x7d', '(', ')', '|', '[', ']', '\\']

/-- The literal up to the `\b` that ends the source, if there is nothing but a literal. -/
def readLiteral : List Char → Option (List Char)
  | [] => none
  | [c] => if isSyntaxChar c then none else readLiteral [] |>.map (c :: ·)
  | c :: d :: cs =>
    if c = '\\' then
      if d = 'b' then if cs = [] then some [] else none
      else if isSyntaxChar d then (readLiteral cs).map (d :: ·) else none
    else if isSyntaxChar c then none else (readLiteral (d :: cs)).map (c :: ·)

/-- The word of an expression `\bword\b`. -/
def readWordRegex : List Char → Option (List Char)
  | c :: d :: cs => if c = '\\' ∧ d = 'b' then readLiteral cs else none
  | _ => none

/-! ### Where the expression matches -/

variable (word replacement : List Char)

theorem matchesAt_iff (passed rest : List Char) :
    matchesAt word passed rest = true ↔
      word <+: rest ∧ boundary passed.getLast? rest.head? = true ∧
        boundary (passed ++ word).getLast? (rest.drop word.length).head? = true := by
  rw [matchesAt, Bool.and_eq_true, Bool.and_eq_true, List.isPrefixOf_iff_prefix, and_assoc]

/-- There is no boundary between two word characters. -/
theorem not_matchesAt_inside (passed rest : List Char) (h : passed.getLast?.any isWordChar = true)
    (hrest : rest.head?.any isWordChar = true) : matchesAt word passed rest = false := by
  rw [Bool.eq_false_iff]
  intro hmatch
  have hboundary := ((matchesAt_iff word passed rest).mp hmatch).2.1
  rw [boundary, h, hrest] at hboundary
  exact absurd hboundary (by decide)

/-- A word of word characters matches nowhere but before one. -/
theorem not_matchesAt_of_head (hne : word ≠ []) (hword : ∀ c ∈ word, isWordChar c = true)
    (passed rest : List Char) (hrest : rest.head?.any isWordChar = false) :
    matchesAt word passed rest = false := by
  rw [Bool.eq_false_iff]
  intro hmatch
  obtain ⟨tail, htail⟩ := ((matchesAt_iff word passed rest).mp hmatch).1
  obtain ⟨c, cs, rfl⟩ := List.exists_cons_of_ne_nil hne
  rw [← htail] at hrest
  have hc : isWordChar c = true := hword c List.mem_cons_self
  rw [List.cons_append, List.head?_cons, Option.any_some, hc] at hrest
  exact absurd hrest (by decide)

/-- A replacement without dollars is put in as it is. -/
theorem expand_of_no_dollar (matched before after : List Char) (h : '$' ∉ replacement) :
    expand matched before after replacement = replacement := by
  induction replacement with
  | nil => rfl
  | cons c cs ih =>
    have hc : c ≠ '$' := by
      rintro rfl
      exact h List.mem_cons_self
    have hcs := ih fun hmem => h (List.mem_cons_of_mem c hmem)
    cases cs with
    | nil => rfl
    | cons d cs => rw [expand, if_neg hc, hcs]

/-! ### The scan -/

theorem scan_skip (skipped rest : List Char) :
    ∀ passed, scan word replacement passed skipped.length (skipped ++ rest) =
      scan word replacement (passed ++ skipped) 0 rest := by
  induction skipped with
  | nil =>
    intro passed
    rw [List.append_nil]
    rfl
  | cons c skipped ih =>
    intro passed
    show scan word replacement (passed ++ [c]) skipped.length (skipped ++ rest) = _
    rw [ih, List.append_assoc]
    rfl

/-- **What the scan leaves alone**: a part of the text with no match at any of its places. -/
theorem scan_append (front rest : List Char) :
    ∀ passed, (∀ u v, front = u ++ v → v ≠ [] →
        matchesAt word (passed ++ u) (v ++ rest) = false) →
      scan word replacement passed 0 (front ++ rest) =
        front ++ scan word replacement (passed ++ front) 0 rest := by
  induction front with
  | nil =>
    intro passed _
    rw [List.append_nil]
    rfl
  | cons c front ih =>
    intro passed h
    have hhere : matchesAt word passed (c :: (front ++ rest)) = false := by
      have hnil := h [] (c :: front) rfl (List.cons_ne_nil c front)
      rwa [List.append_nil] at hnil
    have hlater : ∀ u v, front = u ++ v → v ≠ [] →
        matchesAt word ((passed ++ [c]) ++ u) (v ++ rest) = false := by
      intro u v huv hv
      rw [List.append_assoc]
      exact h (c :: u) v (by rw [huv, List.cons_append]) hv
    have hstep : scan word replacement passed 0 (c :: (front ++ rest)) =
        c :: scan word replacement (passed ++ [c]) 0 (front ++ rest) := by
      rw [scan, hhere]
      rfl
    rw [List.cons_append, hstep, ih (passed ++ [c]) hlater, List.append_assoc]
    rfl

/-- A match is replaced, and the scan goes on behind it. -/
theorem scan_match (hne : word ≠ []) (passed rest : List Char)
    (h : matchesAt word passed (word ++ rest) = true) :
    scan word replacement passed 0 (word ++ rest) =
      expand word passed rest replacement ++ scan word replacement (passed ++ word) 0 rest := by
  obtain ⟨c, cs, hcs⟩ := List.exists_cons_of_ne_nil hne
  have hdrop : (word ++ rest).drop word.length = rest := List.drop_left
  have hskip := scan_skip word replacement cs rest (passed ++ [c])
  have hlength : word.length - 1 = cs.length := by
    rw [hcs]
    rfl
  have htext : word ++ rest = c :: (cs ++ rest) := by
    rw [hcs]
    rfl
  have hpassed : passed ++ word = (passed ++ [c]) ++ cs := by
    rw [hcs, List.append_assoc]
    rfl
  rw [htext] at h hdrop ⊢
  rw [scan, if_pos h, if_neg hne, hdrop, hlength, hskip, hpassed]

section WordCharacters

variable (hne : word ≠ []) (hword : ∀ c ∈ word, isWordChar c = true) (hdollar : '$' ∉ replacement)

include hne hword in
/-- A word of word characters matches the text behind a boundary exactly where it is the whole run
of word characters there. -/
theorem matchesAt_run_iff (passed run rest : List Char) (hrun : ∀ c ∈ run, isWordChar c = true)
    (hpassed : passed.getLast?.any isWordChar = false)
    (hrest : rest.head?.any isWordChar = false) :
    matchesAt word passed (run ++ rest) = true ↔ run = word := by
  obtain ⟨c, cs, hcs⟩ := List.exists_cons_of_ne_nil hne
  have hlast : (passed ++ word).getLast?.any isWordChar = true := by
    rw [List.getLast?_append_of_ne_nil passed hne, List.getLast?_eq_some_getLast hne]
    exact hword _ (List.getLast_mem hne)
  rw [matchesAt_iff, boundary, boundary, hpassed, hlast]
  constructor
  · intro h
    obtain ⟨hbegins, -, hend⟩ := h
    have hstop : ((run ++ rest).drop word.length).head?.any isWordChar = false := by
      simpa using hend
    rcases List.prefix_or_prefix_of_prefix hbegins (List.prefix_append run rest) with
      ⟨more, rfl⟩ | ⟨more, rfl⟩
    · -- the run goes on behind the word
      cases more with
      | nil => rw [List.append_nil]
      | cons d more =>
        have hd : isWordChar d = true :=
          hrun d (List.mem_append_right word List.mem_cons_self)
        rw [List.append_assoc, List.drop_left, List.cons_append, List.head?_cons,
          Option.any_some, hd] at hstop
        exact absurd hstop (by decide)
    · -- the word goes on behind the run
      cases more with
      | nil => rw [List.append_nil]
      | cons d more =>
        obtain ⟨tail, rfl⟩ := (List.prefix_append_right_inj run).mp hbegins
        have hd : isWordChar d = true :=
          hword d (List.mem_append_right run List.mem_cons_self)
        rw [List.cons_append, List.head?_cons, Option.any_some, hd] at hrest
        exact absurd hrest (by decide)
  · rintro rfl
    refine ⟨List.prefix_append run rest, ?_, ?_⟩
    · rw [hcs, List.cons_append, List.head?_cons, Option.any_some,
        hword c (by rw [hcs]; exact List.mem_cons_self)]
      rfl
    · rw [List.drop_left, hrest]
      rfl

include hne hword hdollar in
/-- **One run** behind a boundary is replaced when it is the word, and kept otherwise. -/
theorem scan_run (passed run rest : List Char) (hrun : ∀ c ∈ run, isWordChar c = true)
    (hpassed : passed.getLast?.any isWordChar = false)
    (hrest : rest.head?.any isWordChar = false) :
    scan word replacement passed 0 (run ++ rest) =
      (if run = word then replacement else run) ++
        scan word replacement (passed ++ run) 0 rest := by
  have hmatch := matchesAt_run_iff word hne hword passed run rest hrun hpassed hrest
  by_cases hsame : run = word
  · rw [if_pos hsame]
    rw [hsame] at hmatch ⊢
    rw [scan_match word replacement hne passed rest (hmatch.mpr rfl),
      expand_of_no_dollar replacement _ _ _ hdollar]
  · rw [if_neg hsame]
    apply scan_append
    intro u v huv hv
    cases u using List.reverseRecOn with
    | nil =>
      rw [List.append_nil, show v = run from huv.symm]
      exact Bool.eq_false_iff.mpr fun h => hsame (hmatch.mp h)
    | append_singleton u d _ =>
      obtain ⟨e, v, rfl⟩ := List.exists_cons_of_ne_nil hv
      apply not_matchesAt_inside
      · rw [← List.append_assoc, List.getLast?_concat, Option.any_some]
        exact hrun d (by rw [huv]; simp)
      · rw [List.cons_append, List.head?_cons, Option.any_some]
        exact hrun e (by rw [huv]; simp)

include hne hword hdollar in
/-- **Replacing a whole word**, for a word of word characters and a replacement without dollars:
exactly the maximal runs of word characters that are equal to the word are replaced. -/
theorem scan_eq_mapWords (text : List Char) :
    ∀ passed run, (∀ c ∈ run, isWordChar c = true) →
      passed.getLast?.any isWordChar = false →
      scan word replacement passed 0 (run ++ text) =
        mapWords (fun run => if run = word then replacement else run) run text := by
  induction text with
  | nil =>
    intro passed run hrun hpassed
    have hend : scan word replacement (passed ++ run) 0 [] = [] := by
      rw [scan, not_matchesAt_of_head word hne hword (passed ++ run) [] rfl]
      rfl
    rw [scan_run word replacement hne hword hdollar passed run [] hrun hpassed rfl, hend,
      List.append_nil]
    rfl
  | cons c text ih =>
    intro passed run hrun hpassed
    by_cases hc : isWordChar c = true
    · rw [mapWords, if_pos hc, ← ih passed (run ++ [c]) _ hpassed, List.append_assoc]
      · rfl
      · intro d hd
        rcases List.mem_append.mp hd with hold | hnew
        · exact hrun d hold
        · rwa [List.mem_singleton.mp hnew]
    · have hcfalse : isWordChar c = false := by simpa using hc
      have hrest : (c :: text).head?.any isWordChar = false := hcfalse
      -- the scan passes over `c`, behind which a new run begins
      have hother : scan word replacement (passed ++ run) 0 (c :: text) =
          c :: scan word replacement ((passed ++ run) ++ [c]) 0 text := by
        rw [scan, not_matchesAt_of_head word hne hword (passed ++ run) (c :: text) hrest]
        rfl
      have hlater := ih ((passed ++ run) ++ [c]) [] (List.forall_mem_nil _)
        (by rw [List.getLast?_concat, Option.any_some, hcfalse])
      rw [scan_run word replacement hne hword hdollar passed run (c :: text) hrun hpassed hrest,
        hother, mapWords, if_neg hc, ← hlater]
      rfl

end WordCharacters

end SubqlEthereum.WordText
