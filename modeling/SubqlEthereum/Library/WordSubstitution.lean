import Mathlib.Data.List.Induction
import SubqlEthereum.Library.WordText

/-!
# Replacing many words at once

Words are replaced one after another, each in the text the one before it left.  Where no
replacement contains one of the words, this is the replacement of all words at once:
`foldl_replaceRun`.  The order of the words then makes no difference, and the text that results
contains none of them.
-/

namespace SubqlEthereum.WordText

/-- One word with what it is replaced by. -/
abbrev Replacement := List Char × List Char

/-- What one replacement makes of a run. -/
def replaceRun (entry : Replacement) (run : List Char) : List Char :=
  if run = entry.1 then entry.2 else run

/-- A rewriting of runs that does what all the replacements say and nothing else. -/
structure Substitutes (entries : List Replacement) (f : List Char → List Char) : Prop where
  replaces : ∀ entry ∈ entries, f entry.1 = entry.2
  keeps : ∀ run, (∀ entry ∈ entries, entry.1 ≠ run) → f run = run

/-- The words are words, and none of them is a word of a replacement. -/
structure Settled (entries : List Replacement) : Prop where
  nonempty : ∀ entry ∈ entries, entry.1 ≠ []
  no_word : ∀ entry ∈ entries, ∀ other ∈ entries, ¬ HasWord other.1 entry.2

variable {entries : List Replacement} {f : List Char → List Char}

theorem Settled.tail {entry : Replacement} (h : Settled (entry :: entries)) : Settled entries where
  nonempty e he := h.nonempty e (List.mem_cons_of_mem entry he)
  no_word e he o ho :=
    h.no_word e (List.mem_cons_of_mem entry he) o (List.mem_cons_of_mem entry ho)

/-- Looking a run up among replacements of different words. -/
theorem substitutes_lookup (entries : List Replacement)
    (hdistinct : (entries.map Prod.fst).Nodup) :
    Substitutes entries fun run => (entries.lookup run).getD run := by
  induction entries with
  | nil => exact ⟨List.forall_mem_nil _, fun run _ => rfl⟩
  | cons entry entries ih =>
    obtain ⟨hnew, hrest⟩ := List.nodup_cons.mp hdistinct
    obtain ⟨hreplaces, hkeeps⟩ := ih hrest
    constructor
    · intro e he
      rcases List.mem_cons.mp he with rfl | hmem
      · rw [List.lookup_cons_self]
        rfl
      · have hne : (e.1 == entry.1) = false := by
          rw [beq_eq_false_iff_ne]
          intro hsame
          exact hnew (hsame ▸ List.mem_map_of_mem hmem)
        show ((entry :: entries).lookup e.1).getD e.1 = e.2
        rw [List.lookup_cons, hne]
        exact hreplaces e hmem
    · intro run hrun
      have hne : (run == entry.1) = false := by
        rw [beq_eq_false_iff_ne]
        exact fun hsame => hrun entry List.mem_cons_self hsame.symm
      show ((entry :: entries).lookup run).getD run = run
      rw [List.lookup_cons, hne]
      exact hkeeps run fun e he => hrun e (List.mem_cons_of_mem entry he)

/-- A text that contains none of the words is left as it is. -/
theorem mapWords_eq_self (hf : Substitutes entries f) (hnonempty : ∀ e ∈ entries, e.1 ≠ [])
    (text : List Char) (h : ∀ entry ∈ entries, ¬ HasWord entry.1 text) :
    mapWords f [] text = text := by
  rw [mapWords_congr f (fun run => run) text [], mapWords_id, List.nil_append]
  intro run hrun
  apply hf.keeps
  rintro entry hentry rfl
  exact h entry hentry ⟨hnonempty entry hentry, hrun⟩

/-- A single run is rewritten as one. -/
theorem mapWords_run (f : List Char → List Char) (run : List Char)
    (hrun : ∀ c ∈ run, isWordChar c = true) : mapWords f [] run = f run := by
  have h := mapWords_append_run f run [] hrun []
  rwa [List.append_nil] at h

theorem runs_run (run : List Char) (hrun : ∀ c ∈ run, isWordChar c = true) :
    runs [] run = [run] := by
  have h := runs_append_run run [] hrun []
  rwa [List.append_nil] at h

/-- **One word after another** is all words at once. -/
theorem foldl_replaceRun (entries : List Replacement)
    (hdistinct : (entries.map Prod.fst).Nodup) (hsettled : Settled entries) :
    ∀ f, Substitutes entries f → ∀ text,
      entries.foldl (fun text entry => mapWords (replaceRun entry) [] text) text =
        mapWords f [] text := by
  induction entries with
  | nil =>
    intro f hf text
    exact (mapWords_eq_self hf (List.forall_mem_nil _) text (List.forall_mem_nil _)).symm
  | cons entry entries ih =>
    intro f hf text
    obtain ⟨hnew, hrest⟩ := List.nodup_cons.mp hdistinct
    -- the later replacements do what `f` does, but for the first word
    let later : List Char → List Char := fun run => if run = entry.1 then run else f run
    have hlater : Substitutes entries later := by
      constructor
      · intro e he
        have hne : e.1 ≠ entry.1 := fun hsame => hnew (hsame ▸ List.mem_map_of_mem he)
        show (if e.1 = entry.1 then e.1 else f e.1) = e.2
        rw [if_neg hne]
        exact hf.replaces e (List.mem_cons_of_mem entry he)
      · intro run hrun
        show (if run = entry.1 then run else f run) = run
        by_cases hsame : run = entry.1
        · rw [if_pos hsame]
        · rw [if_neg hsame]
          apply hf.keeps
          intro e he
          rcases List.mem_cons.mp he with rfl | hmem
          · exact fun h => hsame h.symm
          · exact hrun e hmem
    rw [List.foldl_cons, ih hrest hsettled.tail later hlater, mapWords_mapWords]
    apply mapWords_congr
    intro run hrun
    show mapWords later [] (replaceRun entry run) = f run
    rw [replaceRun]
    by_cases hsame : run = entry.1
    · -- what the first word is replaced by has none of the words
      rw [if_pos hsame, hsame, hf.replaces entry List.mem_cons_self]
      exact mapWords_eq_self hlater hsettled.tail.nonempty entry.2
        fun e he => hsettled.no_word entry List.mem_cons_self e (List.mem_cons_of_mem entry he)
    · have hchars := isWordChar_of_mem_runs text [] (List.forall_mem_nil _) run hrun
      rw [if_neg hsame, mapWords_run later run hchars]
      exact if_neg hsame

/-- **What results contains none of the words.** -/
theorem not_hasWord_mapWords (hf : Substitutes entries f) (hsettled : Settled entries)
    (text : List Char) : ∀ entry ∈ entries, ¬ HasWord entry.1 (mapWords f [] text) := by
  rintro entry hentry ⟨hne, hmem⟩
  rw [runs_mapWords] at hmem
  obtain ⟨run, hrun, hword⟩ := List.mem_flatMap.mp hmem
  by_cases hreplaced : ∃ e ∈ entries, e.1 = run
  · obtain ⟨e, he, rfl⟩ := hreplaced
    rw [hf.replaces e he] at hword
    exact hsettled.no_word e he entry hentry ⟨hne, hword⟩
  · have hkept : ∀ e ∈ entries, e.1 ≠ run := fun e he hsame => hreplaced ⟨e, he, hsame⟩
    have hchars := isWordChar_of_mem_runs text [] (List.forall_mem_nil _) run hrun
    rw [hf.keeps run hkept, runs_run run hchars] at hword
    exact hkept entry hentry (List.mem_singleton.mp hword)

/-! ### Where a word stands -/

/-- A run stands between two places at which no word character is beside it. -/
theorem mem_runs (word text : List Char) :
    ∀ run, (∀ c ∈ run, isWordChar c = true) → word ∈ runs run text →
      ∃ before after, run ++ text = before ++ word ++ after ∧
        before.getLast?.any isWordChar = false ∧ after.head?.any isWordChar = false := by
  induction text with
  | nil =>
    intro run _ h
    exact ⟨[], [], by rw [List.mem_singleton.mp h, List.nil_append], rfl, rfl⟩
  | cons c text ih =>
    intro run hrun h
    rw [runs] at h
    by_cases hc : isWordChar c = true
    · rw [if_pos hc] at h
      have hlonger : ∀ d ∈ run ++ [c], isWordChar d = true := by
        intro d hd
        rcases List.mem_append.mp hd with hold | hnew
        · exact hrun d hold
        · rwa [List.mem_singleton.mp hnew]
      obtain ⟨before, after, htext, hplaces⟩ := ih (run ++ [c]) hlonger h
      exact ⟨before, after, by rw [← htext, List.append_assoc]; rfl, hplaces⟩
    · have hcfalse : isWordChar c = false := by simpa using hc
      rw [if_neg hc] at h
      rcases List.mem_cons.mp h with hhere | hlater
      · exact ⟨[], c :: text, by rw [hhere, List.nil_append], rfl, hcfalse⟩
      · obtain ⟨before, after, htext, hbefore, hafter⟩ :=
          ih [] (List.forall_mem_nil _) hlater
        refine ⟨run ++ c :: before, after, ?_, ?_, hafter⟩
        · rw [show text = before ++ word ++ after from htext]
          simp
        · cases before using List.reverseRecOn with
          | nil => rw [List.getLast?_concat, Option.any_some, hcfalse]
          | append_singleton before d _ =>
            rw [List.getLast?_concat] at hbefore
            rw [← List.cons_append, ← List.append_assoc, List.getLast?_concat]
            exact hbefore

/-- A word between two such places is a run. -/
theorem mem_runs_between (word before after : List Char) (hword : ∀ c ∈ word, isWordChar c = true)
    (hbefore : before.getLast?.any isWordChar = false)
    (hafter : after.head?.any isWordChar = false) :
    word ∈ runs [] (before ++ word ++ after) := by
  have hhere : word ∈ runs [] (word ++ after) := by
    rw [runs_append_run word after hword]
    cases after with
    | nil => exact List.mem_singleton_self word
    | cons c after =>
      rw [runs, show isWordChar c = false from hafter]
      exact List.mem_cons_self
  cases before using List.reverseRecOn with
  | nil => exact hhere
  | append_singleton before c _ =>
    rw [List.getLast?_concat, Option.any_some] at hbefore
    have hsplit : before ++ [c] ++ word ++ after = before ++ c :: (word ++ after) := by simp
    rw [hsplit, runs_append_cons before (word ++ after) c hbefore]
    exact List.mem_append_right _ hhere

end SubqlEthereum.WordText
