import SubqlEthereum.Dictionary.LogCoverage
import SubqlEthereum.Library.Numerals

/-!
# The runtime log filter

`filterLogsProcessor` of `block.ethereum.ts`.  The loop over the filter topics has three ways to
go at a position: on to the next one, `false` for a constraint that is not met, and `true` at
the first `!null` that meets a topic.  The last one gives up the positions after it.

`filterLogsProcessor_documented_iff` compares the filter with its documentation and says when
the two agree: exactly when the constraints that are given up are met anyway.
-/

namespace SubqlEthereum.LogFilter

open SubqlEthereum.External SubqlEthereum.Project SubqlEthereum.Strings SubqlEthereum.Blocks
open SubqlEthereum.Numerals
open SubqlEthereum.Dictionary (NOT_NULL_FILTER filterTopics sameHexNumber topicAccepts
  addressAccepts DocumentedLogFilter forall_topics_cons forall_take_four)

/-! ### The filter -/

/-- The loop over the filter topics, from position `i` on. -/
def topicsAccepted (p : Platform) (log : EthereumLog) :
    ℕ → List (Option String) → Except JsError Bool
  | _, [] => .ok true
  | i, topic :: rest =>
    match truthy topic with
    | none => topicsAccepted p log (i + 1) rest
    | some t =>
      match truthy log.topics[i]? with
      | none => .ok false
      | some logTopic =>
        if t = NOT_NULL_FILTER then .ok true
        else do
          let value ← eventToTopic p t
          let equal ← hexStringEq p value logTopic
          if !equal then return false else topicsAccepted p log (i + 1) rest

def filterLogsProcessor (p : Platform) (log : EthereumLog) (filter : Option EthereumLogFilter)
    (address : Option String) : Except JsError Bool :=
  if (truthy address).any (!stringNormalizedEq p · log.address) then .ok false
  else
    match filter with
    | none => .ok true
    | some f => topicsAccepted p log 0 ((f.topics.getD []).take 4)

/-! ### Hex strings that denote one number -/

theorem hexDigit_mem (c : Char) (h : isHexDigit c = true) :
    c ∈ "0123456789abcdefABCDEF".toList := by
  have hcode : (48 ≤ c.toNat ∧ c.toNat ≤ 57) ∨ (97 ≤ c.toNat ∧ c.toNat ≤ 102) ∨
      (65 ≤ c.toNat ∧ c.toNat ≤ 70) := by
    simp only [isHexDigit, Char.isDigit, Bool.or_eq_true, Bool.and_eq_true, decide_eq_true_eq,
      ge_iff_le] at h
    rcases h with (h | h) | h
    · exact .inl h
    · exact .inr (.inl h)
    · exact .inr (.inr h)
  have hchar : c = Char.ofNat c.toNat := (Char.ofNat_toNat c).symm
  rw [hchar]
  generalize c.toNat = n at hcode
  have hall : ∀ m < 103, (48 ≤ m ∧ m ≤ 57) ∨ (97 ≤ m ∧ m ≤ 102) ∨ (65 ≤ m ∧ m ≤ 70) →
      Char.ofNat m ∈ "0123456789abcdefABCDEF".toList := by decide
  exact hall n (by omega) hcode

/-- What holds of the twenty-two digits holds of every hex digit. -/
theorem forall_isHexDigit (P : Char → Bool) (hall : "0123456789abcdefABCDEF".toList.all P = true)
    (c : Char) (hc : isHexDigit c = true) : P c = true :=
  List.all_eq_true.mp hall c (hexDigit_mem c hc)

/-- Hex digits of one value are one letter up to case. -/
theorem hexDigitValue_eq_iff (c d : Char) (hc : isHexDigit c = true) (hd : isHexDigit d = true) :
    hexDigitValue c = hexDigitValue d ↔ c.toLower = d.toLower := by
  have hpair := forall_isHexDigit (fun x => "0123456789abcdefABCDEF".toList.all fun y =>
    decide (hexDigitValue x = hexDigitValue y ↔ x.toLower = y.toLower)) (by decide) c hc
  exact of_decide_eq_true (forall_isHexDigit _ hpair d hd)

theorem hexDigitValue_lt (c : Char) (hc : isHexDigit c = true) : hexDigitValue c < 16 :=
  of_decide_eq_true (forall_isHexDigit (fun x => hexDigitValue x < 16) (by decide) c hc)

theorem hexDigitValue_eq_zero (c : Char) (hc : isHexDigit c = true) :
    hexDigitValue c = 0 ↔ c = '0' :=
  of_decide_eq_true
    (forall_isHexDigit (fun x => decide (hexDigitValue x = 0 ↔ x = '0')) (by decide) c hc)

/-- The values of the digits without leading zeros are the significant values. -/
theorem map_dropWhile_zero (ds : List Char) (hds : ∀ c ∈ ds, isHexDigit c = true) :
    (ds.dropWhile (· = '0')).map hexDigitValue = significant (ds.map hexDigitValue) := by
  induction ds with
  | nil => rfl
  | cons c rest ih =>
    have hzero := hexDigitValue_eq_zero c (hds c List.mem_cons_self)
    by_cases hc : c = '0'
    · have hrest := ih fun d hd => hds d (List.mem_cons_of_mem c hd)
      have hvalue : hexDigitValue '0' = 0 := by decide
      rw [hc, List.dropWhile_cons_of_pos (by simp), hrest]
      simp [significant, hvalue]
    · have hvalue : hexDigitValue c ≠ 0 := fun h => hc (hzero.mp h)
      simp [significant, hc, hvalue]

/-- Lists of hex digits with the same values are the same letters up to case. -/
theorem map_hexDigitValue_eq_iff (ds : List Char) (hds : ∀ c ∈ ds, isHexDigit c = true) :
    ∀ es : List Char, (∀ c ∈ es, isHexDigit c = true) →
      (ds.map hexDigitValue = es.map hexDigitValue ↔
        ds.map Char.toLower = es.map Char.toLower) := by
  induction ds with
  | nil =>
    intro es hes
    cases es <;> simp
  | cons c rest ih =>
    intro es hes
    cases es with
    | nil => simp
    | cons d es =>
      have hfirst := hexDigitValue_eq_iff c d (hds c List.mem_cons_self) (hes d List.mem_cons_self)
      have hrest := ih (fun x hx => hds x (List.mem_cons_of_mem c hx)) es
        fun x hx => hes x (List.mem_cons_of_mem d hx)
      simp only [List.map_cons, List.cons.injEq, hfirst, hrest]

theorem isHexDigit_lt (c : Char) (hc : isHexDigit c = true) : c.toNat < 128 :=
  of_decide_eq_true (forall_isHexDigit (fun x => x.toNat < 128) (by decide) c hc)

theorem toLowerCase_hex (p : Platform) (ds : List Char) (hds : ∀ c ∈ ds, isHexDigit c = true) :
    p.toLowerCase (String.ofList ('0' :: 'x' :: ds)) =
      String.ofList ('0' :: 'x' :: ds.map Char.toLower) := by
  have hascii : ∀ c ∈ (String.ofList ('0' :: 'x' :: ds)).toList, c.toNat < 128 := by
    intro c hc
    rw [String.toList_ofList] at hc
    rcases List.mem_cons.mp hc with h | hc
    · rw [h]
      decide
    rcases List.mem_cons.mp hc with h | hc
    · rw [h]
      decide
    · exact isHexDigit_lt c (hds c hc)
  rw [p.toLowerCase_ascii _ hascii, asciiLower, String.toList_ofList]
  rfl

theorem isHexDigit_dropWhile (ds : List Char) (hds : ∀ c ∈ ds, isHexDigit c = true) :
    ∀ c ∈ ds.dropWhile (· = '0'), isHexDigit c = true :=
  fun c hc => hds c ((List.dropWhile_sublist _).mem hc)

theorem hexDigits_all (s : String) (ds : List Char) (h : hexDigits s = some ds) :
    ∀ c ∈ ds, isHexDigit c = true := by
  unfold hexDigits at h
  split at h
  · rename_i ds' _
    by_cases hall : ds'.all isHexDigit = true
    · rw [if_pos hall, Option.some_inj] at h
      rw [← h]
      exact List.all_eq_true.mp hall
    · rw [if_neg hall] at h
      exact absurd h (by simp)
  · exact absurd h (by simp)

/-- The comparison of hex strings compares the letters, without leading zeros and up to case. -/
theorem hexStringEq_digits (p : Platform) (a b : String) (ds es : List Char)
    (ha : hexDigits a = some ds) (hb : hexDigits b = some es) :
    hexStringEq p a b = .ok true ↔
      (ds.dropWhile (· = '0')).map Char.toLower = (es.dropWhile (· = '0')).map Char.toLower := by
  have hds' := isHexDigit_dropWhile ds (hexDigits_all a ds ha)
  have hes' := isHexDigit_dropWhile es (hexDigits_all b es hb)
  have hcode : hexStringEq p a b = .ok (stringNormalizedEq p
      (String.ofList ('0' :: 'x' :: ds.dropWhile (· = '0')))
      (some (String.ofList ('0' :: 'x' :: es.dropWhile (· = '0'))))) := by
    rw [hexStringEq_eq, ha, hb]
  rw [hcode, Except.ok.injEq, stringNormalizedEq_iff, Option.map_some, Option.some_inj,
    toLowerCase_hex p _ hds', toLowerCase_hex p _ hes', String.ofList_inj, List.cons.injEq,
    List.cons.injEq]
  simp only [true_and]
  exact eq_comm

/-- **The comparison of hex strings compares the numbers they denote.** -/
theorem hexStringEq_iff (p : Platform) (a b : String) :
    hexStringEq p a b = .ok true ↔ sameHexNumber a b = true := by
  cases ha : hexDigits a with
  | none => simp [hexStringEq_eq, sameHexNumber, hexNumber, ha]
  | some ds =>
    cases hb : hexDigits b with
    | none => simp [hexStringEq_eq, sameHexNumber, hexNumber, ha, hb]
    | some es =>
      have hds := hexDigits_all a ds ha
      have hes := hexDigits_all b es hb
      have hds' := isHexDigit_dropWhile ds hds
      have hes' := isHexDigit_dropWhile es hes
      have hnumber : sameHexNumber a b = true ↔
          numeral 16 (ds.map hexDigitValue) = numeral 16 (es.map hexDigitValue) := by
        simp [sameHexNumber, hexNumber, ha, hb, numeral, List.foldl_map]
      rw [hexStringEq_digits p a b ds es ha hb, hnumber, numeral_eq_iff 16 (by decide),
        ← map_dropWhile_zero ds hds, ← map_dropWhile_zero es hes,
        map_hexDigitValue_eq_iff _ hds' _ hes']
      · intro n hn
        obtain ⟨c, hc, rfl⟩ := List.mem_map.mp hn
        exact hexDigitValue_lt c (hds c hc)
      · intro n hn
        obtain ⟨c, hc, rfl⟩ := List.mem_map.mp hn
        exact hexDigitValue_lt c (hes c hc)

/-! ### The loop over the topics -/

theorem sameHexNumber_comm (a b : String) : sameHexNumber a b = sameHexNumber b a := by
  unfold sameHexNumber
  cases hexNumber a <;> cases hexNumber b <;> simp [eq_comm]

/-- **One position that is not `!null`**: it has to be met, and the loop goes on. -/
theorem topicsAccepted_cons (p : Platform) (log : EthereumLog) (topic : Option String)
    (rest : List (Option String)) (i : ℕ) (htopic : topic ≠ some NOT_NULL_FILTER) :
    topicsAccepted p log i (topic :: rest) = .ok true ↔
      topicAccepts p topic log.topics[i]? = true ∧
        topicsAccepted p log (i + 1) rest = .ok true := by
  rw [topicsAccepted, topicAccepts]
  cases ht : truthy topic with
  | none => simp
  | some t =>
    have hne : t ≠ NOT_NULL_FILTER := by
      intro h
      rw [h] at ht
      exact htopic ((truthy_eq_some _ _).mp ht).1
    cases hlog : truthy log.topics[i]? with
    | none =>
      -- a missing or empty log topic is no hex number either
      have hempty : ∀ value, log.topics[i]?.any (sameHexNumber · value) = false := by
        intro value
        rcases (truthy_eq_none _).mp hlog with h | h
        · rw [h]
          rfl
        · rw [h]
          rfl
      simp only [hne, ↓reduceIte]
      cases eventToTopic p t with
      | error e => simp
      | ok value => simp [hempty value]
    | some logTopic =>
      have hpresent : log.topics[i]? = some logTopic := ((truthy_eq_some _ _).mp hlog).1
      simp only [hne, ↓reduceIte, hpresent]
      cases hvalue : eventToTopic p t with
      | error e => simp [bind, Except.bind]
      | ok value =>
        have hequal := hexStringEq_iff p value logTopic
        rw [sameHexNumber_comm] at hequal
        cases heq : hexStringEq p value logTopic with
        | error e =>
          have hdiffer : sameHexNumber logTopic value = false := by simpa [heq] using hequal
          simp [bind, Except.bind, heq, hdiffer]
        | ok equal =>
          cases equal with
          | false =>
            have hdiffer : sameHexNumber logTopic value = false := by simpa [heq] using hequal
            simp [bind, Except.bind, heq, hdiffer, pure, Except.pure]
          | true =>
            have hsame : sameHexNumber logTopic value = true := hequal.mp heq
            simp [bind, Except.bind, heq, hsame]

/-- The positions before the first `!null` have to be met, each of them. -/
theorem topicsAccepted_append (p : Platform) (log : EthereumLog) (front : List (Option String)) :
    ∀ (i : ℕ) (back : List (Option String)), some NOT_NULL_FILTER ∉ front →
      (topicsAccepted p log i (front ++ back) = .ok true ↔
        (∀ j < front.length, topicAccepts p front[j]?.join log.topics[i + j]? = true) ∧
          topicsAccepted p log (i + front.length) back = .ok true) := by
  induction front with
  | nil =>
    intro i back hfront
    simp
  | cons topic rest ih =>
    intro i back hfront
    have htopic : topic ≠ some NOT_NULL_FILTER := by
      intro h
      rw [h] at hfront
      exact hfront List.mem_cons_self
    have hrest : some NOT_NULL_FILTER ∉ rest := fun h => hfront (List.mem_cons_of_mem topic h)
    rw [List.cons_append, topicsAccepted_cons p log topic _ i htopic, ih (i + 1) back hrest,
      forall_topics_cons fun k t => topicAccepts p t log.topics[k]? = true, List.length_cons,
      show i + (rest.length + 1) = i + 1 + rest.length by omega]
    exact and_assoc.symm

/-- **At a `!null` the loop is over**: it only takes a topic to be there. -/
theorem topicsAccepted_notNull (p : Platform) (log : EthereumLog) (rest : List (Option String))
    (i : ℕ) : topicsAccepted p log i (some NOT_NULL_FILTER :: rest) = .ok true ↔
      (truthy log.topics[i]?).isSome = true := by
  have htruthy : truthy (some NOT_NULL_FILTER) = some NOT_NULL_FILTER := by decide
  rw [topicsAccepted, htruthy]
  cases truthy log.topics[i]? <;> simp

/-! ### The filter and its documentation -/

theorem filterLogsProcessor_iff (p : Platform) (log : EthereumLog)
    (filter : Option EthereumLogFilter) (address : Option String) :
    filterLogsProcessor p log filter address = .ok true ↔
      addressAccepts p address log = true ∧
        topicsAccepted p log 0 ((filterTopics filter).take 4) = .ok true := by
  have haddress : addressAccepts p address log =
      !(truthy address).any (!stringNormalizedEq p · log.address) := by
    rw [addressAccepts]
    cases truthy address <;> simp
  rw [haddress]
  unfold filterLogsProcessor
  cases (truthy address).any (!stringNormalizedEq p · log.address) with
  | true => simp
  | false =>
    cases filter with
    | none => simp [filterTopics, topicsAccepted]
    | some f => simp [filterTopics]

/-- Without a `!null` among the first four topics each of them has to be met. -/
theorem topicsAccepted_of_not_mem (p : Platform) (log : EthereumLog)
    (topics : List (Option String)) (hnot : some NOT_NULL_FILTER ∉ topics.take 4) :
    topicsAccepted p log 0 (topics.take 4) = .ok true ↔
      ∀ i < 4, topicAccepts p topics[i]?.join log.topics[i]? = true := by
  have happend := topicsAccepted_append p log (topics.take 4) 0 [] hnot
  rw [List.append_nil] at happend
  rw [happend, forall_take_four (fun k t => topicAccepts p t log.topics[k]? = true) _ fun _ => rfl]
  simp [topicsAccepted]

/-- With one, those before the first are met and the log has a topic at the first. -/
theorem topicsAccepted_of_first (p : Platform) (log : EthereumLog)
    (topics front back : List (Option String))
    (hsplit : topics.take 4 = front ++ some NOT_NULL_FILTER :: back)
    (hfront : some NOT_NULL_FILTER ∉ front) :
    topicsAccepted p log 0 (topics.take 4) = .ok true ↔
      (∀ k < front.length, topicAccepts p topics[k]?.join log.topics[k]? = true) ∧
        (truthy log.topics[front.length]?).isSome = true := by
  have hlen : front.length < 4 := by
    have hcut := congrArg List.length hsplit
    rw [List.length_take, List.length_append, List.length_cons] at hcut
    omega
  have hsame : ∀ k < front.length, front[k]? = topics[k]? := by
    intro k hk
    have hcut : (topics.take 4)[k]? = topics[k]? := List.getElem?_take_of_lt (by omega)
    rw [← hcut, hsplit, List.getElem?_append_left hk]
  rw [hsplit, topicsAccepted_append p log front 0 _ hfront, Nat.zero_add,
    topicsAccepted_notNull]
  refine and_congr_left fun _ => forall₂_congr fun k hk => ?_
  rw [hsame k hk, Nat.zero_add]

/-- The first `!null` among the first four topics decides rightly: when the address and the topics
before it are met, the topics after it are met as well exactly if the log's own topic there is not
the empty text. -/
def FirstNotNullRight (p : Platform) (log : EthereumLog) (filter : Option EthereumLogFilter)
    (address : Option String) : Prop :=
  ∀ i < 4, (filterTopics filter)[i]?.join = some NOT_NULL_FILTER →
    (∀ k < i, (filterTopics filter)[k]?.join ≠ some NOT_NULL_FILTER) →
    addressAccepts p address log = true →
    (∀ k < i, topicAccepts p (filterTopics filter)[k]?.join log.topics[k]? = true) →
    ∀ logTopic ∈ log.topics[i]?, (logTopic ≠ "" ↔ ∀ j < 4, i < j →
      topicAccepts p (filterTopics filter)[j]?.join log.topics[j]? = true)

/-- All four positions, split at one of them. -/
theorem forall_lt_four_split (P : ℕ → Prop) (n : ℕ) (hn : n < 4) :
    (∀ i < 4, P i) ↔ (∀ i < n, P i) ∧ P n ∧ ∀ j < 4, n < j → P j := by
  constructor
  · intro h
    exact ⟨fun i hi => h i (by omega), h n hn, fun j hj _ => h j hj⟩
  · rintro ⟨hbefore, hat, hafter⟩ i hi
    rcases Nat.lt_trichotomy i n with h | h | h
    · exact hbefore i h
    · rw [h]
      exact hat
    · exact hafter i hi h

theorem firstNotNullRight_of_not_mem (p : Platform) (log : EthereumLog)
    (filter : Option EthereumLogFilter) (address : Option String)
    (hnot : some NOT_NULL_FILTER ∉ (filterTopics filter).take 4) :
    FirstNotNullRight p log filter address := by
  intro i hi hnull
  have hmem : some NOT_NULL_FILTER ∈ (filterTopics filter).take 4 := by
    have hat : ((filterTopics filter).take 4)[i]? = some (some NOT_NULL_FILTER) := by
      rw [List.getElem?_take_of_lt hi]
      exact Option.join_eq_some_iff.mp hnull
    exact List.mem_of_getElem? hat
  exact absurd hmem hnot

/-- At the first `!null`, what is right about it is said of this one. -/
theorem firstNotNullRight_of_first (p : Platform) (log : EthereumLog)
    (filter : Option EthereumLogFilter) (address : Option String) (n : ℕ) (hn : n < 4)
    (hat : (filterTopics filter)[n]?.join = some NOT_NULL_FILTER)
    (hbefore : ∀ k < n, (filterTopics filter)[k]?.join ≠ some NOT_NULL_FILTER) :
    FirstNotNullRight p log filter address ↔
      (addressAccepts p address log = true →
        (∀ k < n, topicAccepts p (filterTopics filter)[k]?.join log.topics[k]? = true) →
        ∀ logTopic ∈ log.topics[n]?, (logTopic ≠ "" ↔ ∀ j < 4, n < j →
          topicAccepts p (filterTopics filter)[j]?.join log.topics[j]? = true)) := by
  constructor
  · intro h
    exact h n hn hat hbefore
  · intro h i _ hnull hfirst
    have hin : i = n := by
      rcases Nat.lt_trichotomy i n with hlt | heq | hgt
      · exact absurd hnull (hbefore i hlt)
      · exact heq
      · exact absurd hat (hfirst n hgt)
    rw [hin]
    exact h

/-- **When the log filter does what its documentation says.**  It fails to exactly where the first
`!null` ends the comparison with a constraint after it that the log does not meet. -/
theorem filterLogsProcessor_documented_iff (p : Platform) (log : EthereumLog)
    (filter : Option EthereumLogFilter) (address : Option String) :
    (filterLogsProcessor p log filter address = .ok true ↔
      DocumentedLogFilter p address filter log) ↔ FirstNotNullRight p log filter address := by
  rw [filterLogsProcessor_iff, DocumentedLogFilter]
  by_cases hmem : some NOT_NULL_FILTER ∈ (filterTopics filter).take 4
  · obtain ⟨front, back, hsplit, hfront⟩ := List.eq_append_cons_of_mem hmem
    have hlen : front.length < 4 := by
      have hcut := congrArg List.length hsplit
      rw [List.length_take, List.length_append, List.length_cons] at hcut
      omega
    have hat : ((filterTopics filter).take 4)[front.length]? = some (some NOT_NULL_FILTER) := by
      rw [hsplit, List.getElem?_append_right (le_refl _), Nat.sub_self]
      rfl
    rw [List.getElem?_take_of_lt hlen] at hat
    have hbefore : ∀ k < front.length, (filterTopics filter)[k]?.join ≠ some NOT_NULL_FILTER := by
      intro k hk h
      have hcut : ((filterTopics filter).take 4)[k]? = (filterTopics filter)[k]? :=
        List.getElem?_take_of_lt (by omega)
      rw [← hcut, hsplit, List.getElem?_append_left hk] at h
      exact hfront (List.mem_of_getElem? (Option.join_eq_some_iff.mp h))
    have hjoin : (filterTopics filter)[front.length]?.join = some NOT_NULL_FILTER := by
      rw [hat]
      rfl
    have hpresence : topicAccepts p (filterTopics filter)[front.length]?.join
        log.topics[front.length]? = log.topics[front.length]?.isSome := by
      rw [hjoin]
      rfl
    rw [topicsAccepted_of_first p log _ front back hsplit hfront,
      forall_lt_four_split _ front.length hlen, hpresence,
      firstNotNullRight_of_first p log filter address front.length hlen hjoin hbefore]
    cases hlog : log.topics[front.length]? with
    | none => simp [truthy]
    | some logTopic =>
      have htruthy : (truthy (some logTopic)).isSome = true ↔ logTopic ≠ "" := by
        rw [Option.isSome_iff_exists]
        simp [truthy_eq_some]
      simp only [htruthy, Option.isSome_some, true_and, Option.mem_def, Option.some_inj,
        forall_eq']
      tauto
  · rw [topicsAccepted_of_not_mem p log _ hmem]
    exact iff_of_true Iff.rfl (firstNotNullRight_of_not_mem p log filter address hmem)

/-- A filter for any topic in the first place and a certain one in the second. -/
def secondTopicFilter : EthereumLogFilter where
  topics := some [some "!null", some "0x02"]

/-- **A `!null` switches off the topics after it**: a log with another second topic is accepted. -/
theorem filterLogsProcessor_skips_topic :
    let log : EthereumLog := { address := some "0xab", topics := ["0x01", "0x03"] }
    filterLogsProcessor erc20Platform log (some secondTopicFilter) none = .ok true ∧
      ¬ DocumentedLogFilter erc20Platform none (some secondTopicFilter) log := by
  refine ⟨by rfl, ?_⟩
  intro h
  have hsecond := h.2 1 (by decide)
  exact absurd hsecond (by decide)

end SubqlEthereum.LogFilter
