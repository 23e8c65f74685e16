import Mathlib.Data.List.Basic

/-!
# Replacing whole words in a text

A regular expression `\bword\b` over a word of word characters matches exactly the maximal runs
of word characters that are equal to the word.  `mapWords` walks a text run by run, and
`replaceWord` is its instance that replaces one word.  `mapWords_mapWords` and `runs_mapWords` say
what becomes of the runs of a text that is rewritten.
-/

namespace SubqlEthereum.WordText

/-- The class `\w`: `[A-Za-z0-9_]`. -/
def isWordChar (c : Char) : Bool := c.isAlphanum || c = '_'

/-- Rewrites every maximal run of word characters; `run` is the part of the current run read so
far. -/
def mapWords (f : List Char → List Char) : List Char → List Char → List Char
  | run, [] => f run
  | run, c :: cs =>
    if isWordChar c then mapWords f (run ++ [c]) cs else f run ++ c :: mapWords f [] cs

/-- `text.replace(/\bword\b/g, replacement)` for a word of word characters. -/
def replaceWord (word replacement text : String) : String :=
  String.ofList
    (mapWords (fun run => if run = word.toList then replacement.toList else run) [] text.toList)

/-- Rewriting that only takes characters out of a run only takes characters out of the text. -/
theorem mem_of_mem_mapWords (f : List Char → List Char) (hf : ∀ run, ∀ c ∈ f run, c ∈ run)
    (c : Char) (text : List Char) :
    ∀ run, c ∈ mapWords f run text → c ∈ run ∨ c ∈ text := by
  induction text with
  | nil =>
    intro run h
    exact .inl (hf run c h)
  | cons d text ih =>
    intro run h
    rw [mapWords] at h
    by_cases hword : isWordChar d = true
    · rw [if_pos hword] at h
      rcases ih (run ++ [d]) h with hrun | htext
      · rcases List.mem_append.mp hrun with hold | hnew
        · exact .inl hold
        · exact .inr (by rw [List.mem_singleton.mp hnew]; exact List.mem_cons_self)
      · exact .inr (List.mem_cons_of_mem d htext)
    · rw [if_neg hword] at h
      rcases List.mem_append.mp h with hrun | hrest
      · exact .inl (hf run c hrun)
      · rcases List.mem_cons.mp hrest with hhere | hlater
        · exact .inr (by rw [hhere]; exact List.mem_cons_self)
        · rcases ih [] hlater with hnil | htext
          · exact absurd hnil List.not_mem_nil
          · exact .inr (List.mem_cons_of_mem d htext)

/-- Taking a word out of a text adds no character. -/
theorem mem_of_mem_replaceWord (word text : String) (c : Char)
    (h : c ∈ (replaceWord word "" text).toList) : c ∈ text.toList := by
  rw [replaceWord, String.toList_ofList] at h
  have hf : ∀ run : List Char,
      ∀ c ∈ (if run = word.toList then "".toList else run), c ∈ run := by
    intro run c hc
    by_cases hrun : run = word.toList
    · rw [if_pos hrun] at hc
      exact absurd hc (by simp)
    · rwa [if_neg hrun] at hc
  exact (mem_of_mem_mapWords _ hf c text.toList [] h).resolve_left List.not_mem_nil

/-! ### The runs of a text -/

/-- The maximal runs of word characters, in order, with an empty one between two other characters
that stand side by side; `run` is the part of the current run read so far. -/
def runs : List Char → List Char → List (List Char)
  | run, [] => [run]
  | run, c :: cs => if isWordChar c then runs (run ++ [c]) cs else run :: runs [] cs

/-- A text contains a word as a maximal run of word characters. -/
def HasWord (word text : List Char) : Prop := word ≠ [] ∧ word ∈ runs [] text

instance (word text : List Char) : Decidable (HasWord word text) :=
  inferInstanceAs (Decidable (word ≠ [] ∧ word ∈ runs [] text))

variable (f g : List Char → List Char)

/-- Another character ends the text before it. -/
theorem runs_append_cons (front back : List Char) (c : Char) (hc : isWordChar c = false) :
    ∀ run, runs run (front ++ c :: back) = runs run front ++ runs [] back := by
  induction front with
  | nil =>
    intro run
    show runs run (c :: back) = [run] ++ runs [] back
    rw [runs, hc]
    rfl
  | cons d front ih =>
    intro run
    rw [List.cons_append, runs, runs]
    by_cases hd : isWordChar d = true
    · rw [if_pos hd, if_pos hd, ih]
    · rw [if_neg hd, if_neg hd, ih, List.cons_append]

theorem mapWords_append_cons (front back : List Char) (c : Char) (hc : isWordChar c = false) :
    ∀ run, mapWords f run (front ++ c :: back) =
      mapWords f run front ++ c :: mapWords f [] back := by
  induction front with
  | nil =>
    intro run
    show mapWords f run (c :: back) = f run ++ c :: mapWords f [] back
    rw [mapWords, hc]
    rfl
  | cons d front ih =>
    intro run
    rw [List.cons_append, mapWords, mapWords]
    by_cases hd : isWordChar d = true
    · rw [if_pos hd, if_pos hd, ih]
    · rw [if_neg hd, if_neg hd, ih, List.append_assoc, List.cons_append]

/-- Word characters only make the current run longer. -/
theorem mapWords_append_run (word rest : List Char) (hword : ∀ c ∈ word, isWordChar c = true) :
    ∀ run, mapWords f run (word ++ rest) = mapWords f (run ++ word) rest := by
  induction word with
  | nil =>
    intro run
    rw [List.append_nil]
    rfl
  | cons c word ih =>
    intro run
    rw [List.cons_append, mapWords, if_pos (hword c List.mem_cons_self),
      ih fun d hd => hword d (List.mem_cons_of_mem c hd), List.append_assoc]
    rfl

theorem runs_append_run (word rest : List Char) (hword : ∀ c ∈ word, isWordChar c = true) :
    ∀ run, runs run (word ++ rest) = runs (run ++ word) rest := by
  induction word with
  | nil =>
    intro run
    rw [List.append_nil]
    rfl
  | cons c word ih =>
    intro run
    rw [List.cons_append, runs, if_pos (hword c List.mem_cons_self),
      ih fun d hd => hword d (List.mem_cons_of_mem c hd), List.append_assoc]
    rfl

/-- **One rewriting after another** rewrites every run by both. -/
theorem mapWords_mapWords (text : List Char) :
    ∀ run, mapWords g [] (mapWords f run text) =
      mapWords (fun run => mapWords g [] (f run)) run text := by
  induction text with
  | nil =>
    intro run
    rfl
  | cons c text ih =>
    intro run
    rw [mapWords, mapWords]
    by_cases hc : isWordChar c = true
    · rw [if_pos hc, if_pos hc, ih]
    · rw [if_neg hc, if_neg hc, mapWords_append_cons g _ _ c (by simpa using hc), ih]

/-- **The runs of a rewritten text** are those of what its runs are rewritten to. -/
theorem runs_mapWords (text : List Char) :
    ∀ run, runs [] (mapWords f run text) = (runs run text).flatMap fun run => runs [] (f run) := by
  induction text with
  | nil =>
    intro run
    show runs [] (f run) = [run].flatMap fun run => runs [] (f run)
    rw [List.flatMap_singleton]
  | cons c text ih =>
    intro run
    rw [mapWords, runs]
    by_cases hc : isWordChar c = true
    · rw [if_pos hc, if_pos hc, ih]
    · rw [if_neg hc, if_neg hc, runs_append_cons _ _ c (by simpa using hc), ih,
        List.flatMap_cons]

/-- Rewritings that agree on the runs of a text agree on the text. -/
theorem mapWords_congr (text : List Char) :
    ∀ run, (∀ r ∈ runs run text, f r = g r) → mapWords f run text = mapWords g run text := by
  induction text with
  | nil =>
    intro run h
    exact h run (List.mem_singleton_self run)
  | cons c text ih =>
    intro run h
    rw [runs] at h
    rw [mapWords, mapWords]
    by_cases hc : isWordChar c = true
    · rw [if_pos hc] at h
      rw [if_pos hc, if_pos hc, ih _ h]
    · rw [if_neg hc] at h
      rw [if_neg hc, if_neg hc, h run List.mem_cons_self,
        ih [] fun r hr => h r (List.mem_cons_of_mem run hr)]

theorem mapWords_id (text : List Char) :
    ∀ run, mapWords (fun run => run) run text = run ++ text := by
  induction text with
  | nil =>
    intro run
    rw [List.append_nil]
    rfl
  | cons c text ih =>
    intro run
    rw [mapWords]
    by_cases hc : isWordChar c = true
    · rw [if_pos hc, ih, List.append_assoc]
      rfl
    · rw [if_neg hc, ih]
      rfl

/-- The runs consist of word characters. -/
theorem isWordChar_of_mem_runs (text : List Char) :
    ∀ run, (∀ c ∈ run, isWordChar c = true) →
      ∀ r ∈ runs run text, ∀ c ∈ r, isWordChar c = true := by
  induction text with
  | nil =>
    intro run hrun r hr
    rw [List.mem_singleton.mp hr]
    exact hrun
  | cons d text ih =>
    intro run hrun r hr
    rw [runs] at hr
    by_cases hd : isWordChar d = true
    · rw [if_pos hd] at hr
      apply ih (run ++ [d]) _ r hr
      intro c hc
      rcases List.mem_append.mp hc with hold | hnew
      · exact hrun c hold
      · rw [List.mem_singleton.mp hnew]
        exact hd
    · rw [if_neg hd] at hr
      rcases List.mem_cons.mp hr with hsame | hrest
      · rw [hsame]
        exact hrun
      · exact ih [] (List.forall_mem_nil _) r hrest

/-- The text before the first occurrence of a character. -/
theorem takeWhile_ne_append (c : Char) (front back : List Char) (h : c ∉ front) :
    (front ++ c :: back).takeWhile (· ≠ c) = front := by
  have hfront : ∀ d ∈ front, decide (d ≠ c) = true := by
    intro d hd
    rw [decide_eq_true_eq]
    rintro rfl
    exact h hd
  rw [List.takeWhile_append_of_pos hfront, List.takeWhile_cons_of_neg (by simp), List.append_nil]

end SubqlEthereum.WordText
