import Mathlib.Data.Bool.AllAny
import Mathlib.Data.List.DropRight
import SubqlEthereum.Dictionary.UnusableQueries
import SubqlEthereum.HexSpelling

/-!
# The topic values of a dictionary query

A topic on chain is `0x` and 64 lower-case hex digits.  The runtime compares a filter topic with it
up to case and leading zeros; the dictionary queries ask for the filter topic as it is written.
`topic_values_canonical_iff`: a filter topic that is a hex string is asked for as the topics it
accepts only when it is spelled as they are, or when it is not asked for at all because the builders
cannot read some topic of the filter.
-/

namespace SubqlEthereum.Dictionary

open SubqlEthereum.External SubqlEthereum.Project SubqlEthereum.Strings SubqlEthereum.Fallible
open SubqlEthereum.LogFilter SubqlEthereum.Positions
open SubqlEthereum.HexSpelling (hexDigits_ofList eq_of_hexDigits)
open SubqlEthereum.DictionaryV2 (EthDictionaryLogConditions available topicFields
  eventFilterToDictionaryCondition)
open SubqlEthereum.UnusableQueries (topicUnreadable unreadable unreadable_event
  eventFilterToQueryEntry_isOk eventFilterToDictionaryCondition_isOk)

/-! ### Topics on chain -/

/-- `0x` and 64 hex digits in lower case. -/
def IsCanonical (x : String) : Prop :=
  ∃ ds, hexDigits x = some ds ∧ ds.length = 64 ∧ ∀ c ∈ ds, c.toLower = c

/-- The runtime accepts a topic of a log for the filter topic. -/
def AcceptsTopic (p : Platform) (topic x : String) : Prop :=
  (do let value ← eventToTopic p topic; hexStringEq p value x) = .ok true

/-- The filter topic is a signature, or spelled as on chain, or a number no topic can be. -/
def CanonicalSpelling (topic : String) : Prop :=
  isHexText topic = false ∨ IsCanonical topic ∨
    ∃ ds, hexDigits topic = some ds ∧ 64 < (ds.dropWhile (· = '0')).length

/-! ### Digits without leading zeros -/

theorem replicate_append_dropWhile (ds : List Char) :
    List.replicate (ds.length - (ds.dropWhile (· = '0')).length) '0' ++ ds.dropWhile (· = '0') =
      ds := by
  induction ds with
  | nil => rfl
  | cons d ds ih =>
    by_cases hd : d = '0'
    · have hlength := (List.dropWhile_sublist (fun c => decide (c = '0')) (l := ds)).length_le
      rw [List.dropWhile_cons_of_pos (by simpa using hd), List.length_cons, Nat.succ_sub hlength,
        List.replicate_succ, List.cons_append, ih, hd]
    · rw [List.dropWhile_cons_of_neg (by simpa using hd), Nat.sub_self]
      rfl

/-- Digits of one length are determined by the significant ones. -/
theorem eq_of_dropWhile_eq (ds es : List Char) (hlength : ds.length = es.length)
    (h : ds.dropWhile (· = '0') = es.dropWhile (· = '0')) : ds = es := by
  rw [← replicate_append_dropWhile ds, ← replicate_append_dropWhile es, h, hlength]

theorem dropWhile_replicate_append (n : ℕ) (ds : List Char) :
    (List.replicate n '0' ++ ds).dropWhile (· = '0') = ds.dropWhile (· = '0') := by
  apply List.dropWhile_append_of_pos
  intro c hc
  rw [List.eq_of_mem_replicate hc]
  decide

/-- Lower-casing keeps the leading zeros. -/
theorem map_toLower_dropWhile (ds : List Char) (hds : ∀ c ∈ ds, isHexDigit c = true) :
    (ds.map Char.toLower).dropWhile (· = '0') = (ds.dropWhile (· = '0')).map Char.toLower := by
  induction ds with
  | nil => rfl
  | cons d ds ih =>
    have hzero : d.toLower = '0' ↔ d = '0' :=
      of_decide_eq_true (forall_isHexDigit (fun x => decide (x.toLower = '0' ↔ x = '0'))
        (by decide) d (hds d List.mem_cons_self))
    by_cases hd : d = '0'
    · rw [List.map_cons, List.dropWhile_cons_of_pos (by simpa using hzero.mpr hd),
        List.dropWhile_cons_of_pos (by simpa using hd),
        ih fun c hc => hds c (List.mem_cons_of_mem d hc)]
    · rw [List.map_cons, List.dropWhile_cons_of_neg (by simpa using fun h => hd (hzero.mp h)),
        List.dropWhile_cons_of_neg (by simpa using hd), List.map_cons]

/-! ### The topics a filter topic accepts -/

theorem map_toLower_of_lower (ds : List Char) (h : ∀ c ∈ ds, c.toLower = c) :
    ds.map Char.toLower = ds := by
  rw [List.map_congr_left h, List.map_id']

/-- **Topics on chain are equal only as texts.** -/
theorem canonical_eq (p : Platform) (x y : String) (hx : IsCanonical x) (hy : IsCanonical y)
    (h : hexStringEq p x y = .ok true) : x = y := by
  obtain ⟨ds, hds, hdsLength, hdsLower⟩ := hx
  obtain ⟨es, hes, hesLength, hesLower⟩ := hy
  rw [hexStringEq_digits p x y ds es hds hes,
    map_toLower_of_lower _ fun c hc => hdsLower c ((List.dropWhile_sublist _).mem hc),
    map_toLower_of_lower _ fun c hc => hesLower c ((List.dropWhile_sublist _).mem hc)] at h
  have hsame := eq_of_dropWhile_eq ds es (by rw [hdsLength, hesLength]) h
  rw [eq_of_hexDigits x ds hds, eq_of_hexDigits y es hes, hsame]

/-- A hex string of at most 64 significant digits is some topic on chain. -/
theorem exists_canonical (p : Platform) (topic : String) (ds : List Char)
    (hds : hexDigits topic = some ds) (hlength : (ds.dropWhile (· = '0')).length ≤ 64) :
    ∃ x, IsCanonical x ∧ hexStringEq p topic x = .ok true := by
  have hhex := hexDigits_all topic ds hds
  -- the significant digits in lower case, filled up with zeros
  let low := (ds.dropWhile (· = '0')).map Char.toLower
  have hlow : low.dropWhile (· = '0') = low := by
    show ((ds.dropWhile (· = '0')).map Char.toLower).dropWhile (· = '0') = _
    rw [map_toLower_dropWhile _ fun c hc => hhex c ((List.dropWhile_sublist _).mem hc),
      List.dropWhile_idempotent]
  have hlowDigit : ∀ c ∈ low, isHexDigit c = true ∧ c.toLower = c := by
    intro c hc
    obtain ⟨d, hd, rfl⟩ := List.mem_map.mp hc
    have hdigit := hhex d ((List.dropWhile_sublist _).mem hd)
    exact ⟨forall_isHexDigit (fun x => isHexDigit x.toLower) (by decide) d hdigit,
      toLower_toLower d⟩
  let digits := List.replicate (64 - low.length) '0' ++ low
  have hdigits : ∀ c ∈ digits, isHexDigit c = true ∧ c.toLower = c := by
    intro c hc
    rcases List.mem_append.mp hc with hzero | hmem
    · rw [List.eq_of_mem_replicate hzero]
      decide
    · exact hlowDigit c hmem
  have hx := hexDigits_ofList digits fun c hc => (hdigits c hc).1
  refine ⟨String.ofList ('0' :: 'x' :: digits), ⟨digits, hx, ?_, fun c hc => (hdigits c hc).2⟩, ?_⟩
  · have hlowLength : low.length ≤ 64 := by
      rw [List.length_map]
      exact hlength
    rw [List.length_append, List.length_replicate]
    omega
  · rw [hexStringEq_digits p _ _ ds digits hds hx, dropWhile_replicate_append, hlow,
      map_toLower_of_lower low fun c hc => (hlowDigit c hc).2]

/-- A filter topic that is a hex string is compared as it is. -/
theorem acceptsTopic_hex_iff (p : Platform) (topic x : String) (hhex : isHexText topic = true) :
    AcceptsTopic p topic x ↔ hexStringEq p topic x = .ok true := by
  rw [AcceptsTopic, eventToTopic_hex p topic hhex]
  rfl

/-- What a filter topic stands for is accepted. -/
theorem acceptsTopic_of_eventToTopic (p : Platform) (topic x : String)
    (h : eventToTopic p topic = .ok x) (hx : IsCanonical x) : AcceptsTopic p topic x := by
  obtain ⟨ds, hds, -, -⟩ := hx
  rw [AcceptsTopic, h]
  exact (hexStringEq_digits p x x ds ds hds hds).mpr rfl

/-- **One filter topic**: it is used as the topics it accepts exactly when it is spelled as they
are. -/
theorem eventToTopic_canonical_iff (p : Platform) (hid : ∀ text, IsCanonical (p.id text))
    (topic : String) :
    (∀ x, IsCanonical x → AcceptsTopic p topic x → eventToTopic p topic = .ok x) ↔
      CanonicalSpelling topic := by
  cases hhex : isHexText topic with
  | false =>
    constructor
    · intro _
      exact .inl hhex
    · intro _ x hx haccepts
      obtain ⟨value, hvalue, hequal⟩ := ok_of_bind_ok haccepts
      have hsignature := hvalue
      rw [eventToTopic_signature p topic hhex] at hsignature
      obtain ⟨signature, -, hhash⟩ := ok_of_bind_ok hsignature
      have hcanonical : IsCanonical value := by
        rw [← Except.ok.inj hhash]
        exact hid signature
      rw [hvalue, canonical_eq p value x hcanonical hx hequal]
  | true =>
    have haccepts := fun x => acceptsTopic_hex_iff p topic x hhex
    obtain ⟨ds, hds⟩ := Option.isSome_iff_exists.mp hhex
    rw [CanonicalSpelling, hhex, eventToTopic_hex p topic hhex]
    constructor
    · intro h
      by_cases hlength : (ds.dropWhile (· = '0')).length ≤ 64
      · obtain ⟨x, hx, hequal⟩ := exists_canonical p topic ds hds hlength
        have hsame := Except.ok.inj (h x hx ((haccepts x).mpr hequal))
        exact .inr (.inl (hsame ▸ hx))
      · exact .inr (.inr ⟨ds, hds, by omega⟩)
    · rintro (h | hcanonical | ⟨es, hes, hlength⟩) x hx hequal
      · exact absurd h (by simp)
      · rw [canonical_eq p topic x hcanonical hx ((haccepts x).mp hequal)]
      · -- no topic has that many digits
        obtain ⟨xs, hxs, hxLength, -⟩ := hx
        have hletters := (hexStringEq_digits p topic x es xs hes hxs).mp ((haccepts x).mp hequal)
        have hsame := congrArg List.length hletters
        have hshort := (List.dropWhile_sublist (fun c => decide (c = '0')) (l := xs)).length_le
        rw [List.length_map, List.length_map] at hsame
        omega

/-! ### What the builders put into the query -/

/-- The entry asks for exactly that topic at the position. -/
def DictionaryQueryEntry.AsksTopic (entry : DictionaryQueryEntry) (i : ℕ) (x : String) : Prop :=
  entry.conditions.filter (fun c => c.field = topicField i) =
    [⟨topicField i, .text x, .equalTo⟩]

/-- The conditions ask for exactly that topic at the position. -/
def ConditionsAskTopic (conditions : EthDictionaryLogConditions) (i : ℕ) (x : String) : Prop :=
  conditions.fields.filter (fun field => field.1 = topicField i) = [(topicField i, [x])]

theorem topicField_inj : ∀ i < 4, ∀ j < 4, topicField i = topicField j → i = j := by decide

/-- The filter has a concrete topic at one of the four positions. -/
def ConcreteTopic (filter : Option EthereumLogFilter) (i : ℕ) (topic : String) : Prop :=
  i < 4 ∧ (filterTopics filter)[i]? = some (some topic) ∧ topic ≠ "" ∧ topic ≠ NOT_NULL_FILTER

/-- **The entry under the name of a concrete topic** is the one for what the topic stands for. -/
theorem atPositions_topicPut {β : Type} {p : Platform} {asked : ℕ → Bool} {notNull : ℕ → β}
    {equals : ℕ → String → β} (key : β → String) (hnotNull : ∀ i, key (notNull i) = topicField i)
    (hequals : ∀ i value, key (equals i value) = topicField i)
    {filter : Option EthereumLogFilter} {i : ℕ} {topic : String}
    (hconcrete : ConcreteTopic filter i topic) (hasked : asked i = true) (out : List β)
    (h : atPositions (topicPut p asked notNull equals) 0 ((filterTopics filter).take 4) = .ok out) :
    ∃ value, eventToTopic p topic = .ok value ∧
      out.filter (fun b => key b = topicField i) = [equals i value] := by
  obtain ⟨hi, htopic, hne, hnull⟩ := hconcrete
  have htaken : ((filterTopics filter).take 4)[i]? = some (some topic) := by
    rw [List.getElem?_take_of_lt hi]
    exact htopic
  obtain ⟨here, hhere, hfilter⟩ := atPositions_filter (topicPut_key key hnotNull hequals) 4
    topicField_inj ((filterTopics filter).take 4) 0 out (by simp) h i (some topic) htaken
  have htruthy : truthy (some topic) = some topic := (truthy_eq_some _ _).mpr ⟨rfl, hne⟩
  rw [Nat.zero_add] at hhere hfilter
  rw [topicPut, htruthy] at hhere
  simp only [hasked, hnull, ↓reduceIte] at hhere
  obtain ⟨value, hvalue, hpure⟩ := ok_of_bind_ok hhere
  refine ⟨value, hvalue, ?_⟩
  rw [hfilter]
  exact (Except.ok.inj hpure).symm

theorem applyAddresses_field (p : Platform) (limit : ℤ) (addresses : List (Option String)) :
    ∀ c ∈ applyAddresses p limit addresses, c.field = "address" := by
  by_cases happly : addressesApply limit addresses = true
  · rcases applyAddresses_cases p limit addresses happly with ⟨a, -, hone⟩ | hmany
    · rw [hone, List.forall_mem_singleton]
    · rw [hmany, List.forall_mem_singleton]
  · rw [applyAddresses, if_neg happly]
    exact fun c hc => absurd hc List.not_mem_nil

section Builders

variable (p : Platform) (limit : ℤ) (addresses : List (Option String))
  (availableFilters : Option (List String)) {filter : Option EthereumLogFilter} {i : ℕ}
  {topic : String}

/-- **V1 asks for the topic the filter topic stands for.** -/
theorem eventFilterToQueryEntry_asksTopic (h : ConcreteTopic filter i topic)
    (entry : DictionaryQueryEntry)
    (hentry : eventFilterToQueryEntry p limit filter addresses = .ok entry) :
    ∃ value, eventToTopic p topic = .ok value ∧ entry.AsksTopic i value := by
  rw [eventFilterToQueryEntry] at hentry
  obtain ⟨conditions, hconditions, hout⟩ := ok_of_bind_ok hentry
  rw [topicConditions_eq] at hconditions
  obtain ⟨value, hvalue, hfilter⟩ := atPositions_topicPut DictionaryQueryCondition.field
    (fun _ => rfl) (fun _ _ => rfl) h rfl conditions hconditions
  have haddress : (applyAddresses p limit addresses).filter
      (fun c => c.field = topicField i) = [] := by
    rw [List.filter_eq_nil_iff]
    intro c hc
    rw [applyAddresses_field p limit addresses c hc, decide_eq_true_eq]
    exact (topicField_ne_address i).symm
  refine ⟨value, hvalue, ?_⟩
  rw [DictionaryQueryEntry.AsksTopic, ← Except.ok.inj hout, List.filter_append, haddress, hfilter]
  rfl

/-- **V2 asks for the topic the filter topic stands for**, where the dictionary can filter by the
position. -/
theorem eventFilterToDictionaryCondition_asksTopic (h : ConcreteTopic filter i topic)
    (conditions : EthDictionaryLogConditions)
    (hconditions : eventFilterToDictionaryCondition p limit filter addresses availableFilters =
      .ok conditions)
    (havailable : available availableFilters (topicField i) = true) :
    ∃ value, eventToTopic p topic = .ok value ∧ ConditionsAskTopic conditions i value := by
  rw [eventFilterToDictionaryCondition] at hconditions
  obtain ⟨fields, hfields, hout⟩ := ok_of_bind_ok hconditions
  rw [topicFields_eq] at hfields
  obtain ⟨value, hvalue, hfilter⟩ := atPositions_topicPut Prod.fst
    (fun _ => rfl) (fun _ _ => rfl) h havailable fields hfields
  have haddress : ∀ values : List String,
      ([("address", values)] : List (String × List String)).filter
        (fun field => field.1 = topicField i) = [] := by
    intro values
    rw [List.filter_eq_nil_iff]
    intro field hfield
    rw [List.mem_singleton.mp hfield, decide_eq_true_eq]
    exact (topicField_ne_address i).symm
  refine ⟨value, hvalue, ?_⟩
  rw [ConditionsAskTopic, ← Except.ok.inj hout, List.filter_append, hfilter]
  by_cases haddresses : available availableFilters "address" = true
  · rw [if_pos haddresses, haddress]
    rfl
  · rw [if_neg haddresses]
    rfl

/-! ### When the builders succeed -/

/-- A topic of the filter is looked up at a position asked for, and is no signature. -/
def SomeUnreadable (asked : ℕ → Bool) (filter : Option EthereumLogFilter) : Prop :=
  ∃ j < 4, asked j = true ∧ topicUnreadable p (filterTopics filter)[j]?.join = true

theorem unreadable_event_iff (asked : ℕ → Bool) (name : String) :
    unreadable p asked (.base (.event name filter), addresses) = false ↔
      ¬ SomeUnreadable p asked filter := by
  rw [unreadable_event]
  constructor
  · rintro h ⟨j, hj, hasked, hunreadable⟩
    have hreadable := h j hj
    rw [hasked, hunreadable] at hreadable
    exact absurd hreadable (by decide)
  · intro h j hj
    rw [← Bool.not_eq_true, Bool.and_eq_true]
    intro hboth
    exact h ⟨j, hj, hboth.1, hboth.2⟩

/-- V1 looks up every topic. -/
theorem eventFilterToQueryEntry_ok_iff :
    (∃ entry, eventFilterToQueryEntry p limit filter addresses = .ok entry) ↔
      ¬ SomeUnreadable p (fun _ => true) filter := by
  rw [← isOk_iff, eventFilterToQueryEntry_isOk p limit "", unreadable_event_iff]

/-- V2 looks up the topics it can filter by. -/
theorem eventFilterToDictionaryCondition_ok_iff :
    (∃ conditions, eventFilterToDictionaryCondition p limit filter addresses availableFilters =
      .ok conditions) ↔
      ¬ SomeUnreadable p (fun j => available availableFilters (topicField j)) filter := by
  rw [← isOk_iff, eventFilterToDictionaryCondition_isOk p limit "", unreadable_event_iff]

end Builders

/-- Neither query has a value for the position: V1 cannot read some topic, and V2 cannot read one
that it can filter by, unless it cannot filter by the position. -/
def NotAsked (p : Platform) (availableFilters : Option (List String))
    (filter : Option EthereumLogFilter) (i : ℕ) : Prop :=
  SomeUnreadable p (fun _ => true) filter ∧
    (available availableFilters (topicField i) = true →
      SomeUnreadable p (fun j => available availableFilters (topicField j)) filter)

/-- **When the topic values of the dictionary queries are canonical.**  Every topic the runtime
accepts is the one that both builders ask for, exactly where the filter topic is spelled as the
topics on chain, or neither builder gets to ask. -/
theorem topic_values_canonical_iff (p : Platform) (hid : ∀ text, IsCanonical (p.id text))
    (limit : ℤ) (filter : Option EthereumLogFilter) (addresses : List (Option String))
    (availableFilters : Option (List String)) (i : ℕ) (topic : String)
    (hconcrete : ConcreteTopic filter i topic) :
    (∀ x, IsCanonical x → AcceptsTopic p topic x →
        (∀ entry, eventFilterToQueryEntry p limit filter addresses = .ok entry →
          entry.AsksTopic i x) ∧
        ∀ conditions, eventFilterToDictionaryCondition p limit filter addresses
            availableFilters = .ok conditions →
          available availableFilters (topicField i) = true → ConditionsAskTopic conditions i x) ↔
      CanonicalSpelling topic ∨ NotAsked p availableFilters filter i := by
  have hv1ok : (∃ entry, eventFilterToQueryEntry p limit filter addresses = .ok entry) ↔
      ¬ SomeUnreadable p (fun _ => true) filter := eventFilterToQueryEntry_ok_iff p limit addresses
  have hv2ok : (∃ conditions, eventFilterToDictionaryCondition p limit filter addresses
      availableFilters = .ok conditions) ↔
      ¬ SomeUnreadable p (fun j => available availableFilters (topicField j)) filter :=
    eventFilterToDictionaryCondition_ok_iff p limit addresses availableFilters
  rw [← eventToTopic_canonical_iff p hid]
  constructor
  · intro h
    rw [or_iff_not_imp_right]
    intro hasked x hx haccepts
    obtain ⟨hv1, hv2⟩ := h x hx haccepts
    rw [NotAsked, not_and_or, ← hv1ok, Classical.not_imp, ← hv2ok] at hasked
    rcases hasked with ⟨entry, hentry⟩ | ⟨havailable, conditions, hconditions⟩
    · obtain ⟨value, hvalue, hasks⟩ :=
        eventFilterToQueryEntry_asksTopic p limit addresses hconcrete entry hentry
      have hsame := hasks.symm.trans (hv1 entry hentry)
      rw [hvalue]
      simpa using hsame
    · obtain ⟨value, hvalue, hasks⟩ := eventFilterToDictionaryCondition_asksTopic p limit
        addresses availableFilters hconcrete conditions hconditions havailable
      have hsame := hasks.symm.trans (hv2 conditions hconditions havailable)
      rw [hvalue]
      simpa using hsame
  · intro h x hx haccepts
    constructor
    · intro entry hentry
      obtain ⟨value, hvalue, hasks⟩ :=
        eventFilterToQueryEntry_asksTopic p limit addresses hconcrete entry hentry
      rcases h with hcanonical | hnot
      · rw [hcanonical x hx haccepts] at hvalue
        rwa [Except.ok.inj hvalue]
      · exact absurd hnot.1 (hv1ok.mp ⟨entry, hentry⟩)
    · intro conditions hconditions havailable
      obtain ⟨value, hvalue, hasks⟩ := eventFilterToDictionaryCondition_asksTopic p limit
        addresses availableFilters hconcrete conditions hconditions havailable
      rcases h with hcanonical | hnot
      · rw [hcanonical x hx haccepts] at hvalue
        rwa [Except.ok.inj hvalue]
      · exact absurd (hnot.2 havailable) (hv2ok.mp ⟨conditions, hconditions⟩)

/-! ### The address of the documentation -/

/-- The filter documented in `interfaces.ts`, with the signature as `format` gives it. -/
def addressTopicFilter : EthereumLogFilter where
  topics := some [some "Transfer(address,address,uint256)", none,
    some "0x220866B1A2219f40e72f5c628B65D54268cA3A9D"]

/-- The topic of a transfer. -/
def transferTopic : String := "0xddf252ad1be2c89b69c2b068fc378daa952ba7f163c4a11628f55a4df523b3ef"

theorem transferTopic_canonical : IsCanonical transferTopic :=
  ⟨_, rfl, by decide, List.all_iff_forall_prop.mp (by decide)⟩

theorem erc20Platform_id_canonical (text : String) : IsCanonical (erc20Platform.id text) := by
  show IsCanonical (if text = "Transfer(address,address,uint256)" then transferTopic else _)
  split
  · exact transferTopic_canonical
  · exact ⟨_, rfl, by decide, List.all_iff_forall_prop.mp (by decide)⟩

/-- The hash of the signature is what is asked for at the first position. -/
theorem topic_values_canonical_iff_transfer :
    (∀ entry, eventFilterToQueryEntry erc20Platform 50 (some addressTopicFilter) [] =
        .ok entry → entry.AsksTopic 0 transferTopic) ∧
      ∀ conditions, eventFilterToDictionaryCondition erc20Platform 50 (some addressTopicFilter)
          [] none = .ok conditions →
        available none (topicField 0) = true → ConditionsAskTopic conditions 0 transferTopic :=
  (topic_values_canonical_iff erc20Platform erc20Platform_id_canonical 50
    (some addressTopicFilter) [] none 0 "Transfer(address,address,uint256)"
    ⟨by decide, rfl, by decide, by decide⟩).mpr (.inl (.inl (by decide)))
    transferTopic transferTopic_canonical
    (acceptsTopic_of_eventToTopic erc20Platform _ _ rfl transferTopic_canonical)

/-- The topic of that address on chain. -/
def addressTopic : String := "0x000000000000000000000000220866b1a2219f40e72f5c628b65d54268ca3a9d"

/-- The runtime accepts it, and both queries ask for the address as it is written. -/
theorem address_topic_not_canonical :
    IsCanonical addressTopic ∧
      AcceptsTopic erc20Platform "0x220866B1A2219f40e72f5c628B65D54268cA3A9D" addressTopic ∧
      eventFilterToQueryEntry erc20Platform 50 (some addressTopicFilter) [] =
        .ok ⟨.evmLogs, [⟨"topics0", .text
            "0xddf252ad1be2c89b69c2b068fc378daa952ba7f163c4a11628f55a4df523b3ef", .equalTo⟩,
          ⟨"topics2", .text "0x220866B1A2219f40e72f5c628B65D54268cA3A9D", .equalTo⟩]⟩ ∧
      eventFilterToDictionaryCondition erc20Platform 50 (some addressTopicFilter) [] none =
        .ok ⟨[("address", []),
          ("topics0", ["0xddf252ad1be2c89b69c2b068fc378daa952ba7f163c4a11628f55a4df523b3ef"]),
          ("topics2", ["0x220866B1A2219f40e72f5c628B65D54268cA3A9D"])]⟩ ∧
      "0x220866B1A2219f40e72f5c628B65D54268cA3A9D" ≠ addressTopic := by
  refine ⟨⟨_, rfl, by decide, List.all_iff_forall_prop.mp (by decide)⟩, ?_, ?_, ?_, by decide⟩
  · -- compared as digits, without building the texts in between
    apply (acceptsTopic_hex_iff erc20Platform "0x220866B1A2219f40e72f5c628B65D54268cA3A9D"
      addressTopic (by decide)).mpr
    apply (hexStringEq_digits erc20Platform "0x220866B1A2219f40e72f5c628B65D54268cA3A9D"
      addressTopic _ _ rfl rfl).mpr
    decide
  · rfl
  · rfl

end SubqlEthereum.Dictionary
