import Mathlib.Data.List.Forall2
import SubqlEthereum.BlockEthereum
import SubqlEthereum.HexSpelling

/-!
# The transaction filter and letter case

The addresses of a transaction filter are compared without regard to case; its type and the
selector of its function are compared as they are written.  `caseBlind_iff` says for which
transactions and filters that makes no difference.
-/

namespace SubqlEthereum.TransactionFilter

open SubqlEthereum.External SubqlEthereum.Project SubqlEthereum.Strings SubqlEthereum.Blocks
open SubqlEthereum.BlockEthereum SubqlEthereum.HexSpelling

/-! ### Spellings of a filter -/

/-- The same field of a filter with its hex string in another spelling. -/
inductive FieldRespelled : TransactionFilterField → TransactionFilterField → Prop
  | «from» {a b : String} : Respelled a b → FieldRespelled (.from a) (.from b)
  | to {a b : Option String} : Option.Rel Respelled a b → FieldRespelled (.to a) (.to b)
  | function {a b : Option String} : Option.Rel Respelled a b →
      FieldRespelled (.function a) (.function b)
  | type {a b : String} : Respelled a b → FieldRespelled (.type a) (.type b)

/-- The same filter with its hex strings in other spellings. -/
def FilterRespelled (f g : EthereumTransactionFilter) : Prop :=
  List.Forall₂ FieldRespelled f.fields g.fields

/-- The strings of the filter are hex strings. -/
def HexFilter (f : EthereumTransactionFilter) : Prop := FilterRespelled f f

/-- No spelling of the filter or of the address of the data source changes the verdict. -/
def CaseBlind (p : Platform) (transaction : EthereumTransaction) (f : EthereumTransactionFilter)
    (address : Option String) : Prop :=
  ∀ g other, FilterRespelled f g → Option.Rel Respelled address other →
    filterTransactionsProcessor p transaction (some g) other =
      filterTransactionsProcessor p transaction (some f) address

/-- The input is empty where the function asks for that, and otherwise starts with a spelling of the
function. -/
def InputMatches (function : Option (Option String)) (input : String) : Prop :=
  match function with
  | none => True
  | some none => input = "0x"
  | some (some signature) =>
    if signature = "0x" then input = "0x"
    else ∃ spelling, Respelled signature spelling ∧ spelling.toList <+: input.toList

/-- The transaction is what the filter asks for, letter case aside. -/
structure MatchesUpToCase (p : Platform) (transaction : EthereumTransaction)
    (f : EthereumTransactionFilter) (address : Option String) : Prop where
  recipient : (recipientTest (some f) address).accepts p transaction.to = true
  sender : (senderTest (some f)).accepts p transaction.from = true
  input : InputMatches f.function transaction.input
  type : ∀ type ∈ f.type, Respelled type transaction.type

/-- The function or the type of the filter has a letter among its digits. -/
def hasCasedField (f : EthereumTransactionFilter) : Bool :=
  f.function.join.any hasLetter || f.type.any hasLetter

/-! ### The fields of a spelling -/

theorem findSome_rel {α β γ δ : Type} {R : α → β → Prop} {S : γ → δ → Prop} (f : α → Option γ)
    (g : β → Option δ) (hfg : ∀ x y, R x y → Option.Rel S (f x) (g y)) {xs : List α}
    {ys : List β} (h : List.Forall₂ R xs ys) :
    Option.Rel S (xs.findSome? f) (ys.findSome? g) := by
  induction h with
  | nil => exact .none
  | cons hxy _ ih =>
    rw [List.findSome?_cons, List.findSome?_cons]
    have hfirst := hfg _ _ hxy
    revert hfirst
    generalize f _ = a
    generalize g _ = b
    intro hfirst
    cases hfirst with
    | none => exact ih
    | some hab => exact .some hab

section Fields

variable {f g : EthereumTransactionFilter} (h : FilterRespelled f g)

include h

theorem FilterRespelled.from_rel : Option.Rel Respelled f.from g.from := by
  refine findSome_rel _ _ ?_ h
  intro x y hxy
  cases hxy with
  | «from» hab => exact .some hab
  | «to» _ => exact .none
  | function _ => exact .none
  | type _ => exact .none

theorem FilterRespelled.to_rel : Option.Rel (Option.Rel Respelled) f.to g.to := by
  refine findSome_rel _ _ ?_ h
  intro x y hxy
  cases hxy with
  | «from» _ => exact .none
  | «to» hab => exact .some hab
  | function _ => exact .none
  | type _ => exact .none

theorem FilterRespelled.function_rel :
    Option.Rel (Option.Rel Respelled) f.function g.function := by
  refine findSome_rel _ _ ?_ h
  intro x y hxy
  cases hxy with
  | «from» _ => exact .none
  | «to» _ => exact .none
  | function hab => exact .some hab
  | type _ => exact .none

theorem FilterRespelled.type_rel : Option.Rel Respelled f.type g.type := by
  refine findSome_rel _ _ ?_ h
  intro x y hxy
  cases hxy with
  | «from» _ => exact .none
  | «to» _ => exact .none
  | function _ => exact .none
  | type hab => exact .some hab

end Fields

/-! ### The tests of the addresses -/

theorem ofTruthy_accepts_eq (p : Platform) {a b : Option String} (h : Option.Rel Respelled a b)
    (other : Option String) :
    (AddressTest.ofTruthy a).accepts p other = (AddressTest.ofTruthy b).accepts p other := by
  cases h with
  | none => rfl
  | some hab =>
    have ha := ne_empty_of_isHexText _ hab.isHexText_left
    have hb := ne_empty_of_isHexText _ hab.symm.isHexText_left
    rw [AddressTest.ofTruthy, AddressTest.ofTruthy, (truthy_eq_some _ _).mpr ⟨rfl, ha⟩,
      (truthy_eq_some _ _).mpr ⟨rfl, hb⟩]
    exact hab.stringNormalizedEq_eq p other

/-- **The tests of the addresses do not depend on the spelling.** -/
theorem addresses_eq (p : Platform) (transaction : EthereumTransaction)
    {f g : EthereumTransactionFilter} {address other : Option String} (h : FilterRespelled f g)
    (haddress : Option.Rel Respelled address other) :
    (recipientTest (some f) address).accepts p transaction.to =
        (recipientTest (some g) other).accepts p transaction.to ∧
      (senderTest (some f)).accepts p transaction.from =
        (senderTest (some g)).accepts p transaction.from := by
  refine ⟨?_, ofTruthy_accepts_eq p h.from_rel _⟩
  have hto := h.to_rel
  rw [recipientTest, recipientTest]
  revert hto
  generalize f.to = a
  generalize g.to = b
  intro hto
  cases hto with
  | none => exact ofTruthy_accepts_eq p haddress _
  | some hab =>
    cases hab with
    | none => rfl
    | some hspelling => exact ofTruthy_accepts_eq p (.some hspelling) _

/-! ### The test of the input -/

/-- The test of the input by a function that is a hex string. -/
def inputAccepted (function : Option (Option String)) (input : String) : Bool :=
  match function with
  | none => true
  | some none => input = "0x"
  | some (some signature) =>
    if signature = "0x" then input = "0x" else signature.toList.isPrefixOf input.toList

theorem functionAccepts_hex (p : Platform) (f : EthereumTransactionFilter) (hf : HexFilter f)
    (input : String) :
    functionAccepts p (some f) input = .ok (inputAccepted f.function input) := by
  have hfunction := FilterRespelled.function_rel hf
  rw [functionAccepts, Option.bind_some]
  cases hcase : f.function with
  | none => rfl
  | some signature =>
    cases signature with
    | none => rfl
    | some signature =>
      rw [hcase] at hfunction
      cases hfunction with
      | some hrel =>
        cases hrel with
        | some hspelling =>
          show _ = Except.ok (if signature = "0x" then _ else _)
          by_cases hempty : signature = "0x"
          · simp only [hempty, ↓reduceIte]
          · simp only [hempty, ↓reduceIte]
            rw [functionToSighash_hex p _ hspelling.isHexText_left]
            rfl

/-- A filter of hex strings has a verdict on every transaction. -/
theorem exists_verdict (p : Platform) (transaction : EthereumTransaction)
    (f : EthereumTransactionFilter) (hf : HexFilter f) (address : Option String) :
    ∃ verdict, filterTransactionsProcessor p transaction (some f) address = .ok verdict := by
  unfold filterTransactionsProcessor
  simp only [functionAccepts_hex p f hf]
  split_ifs
  · exact ⟨_, rfl⟩
  · exact ⟨_, rfl⟩
  · exact ⟨_, rfl⟩
  · exact ⟨_, rfl⟩
  · cases inputAccepted f.function transaction.input <;> exact ⟨_, rfl⟩
  · cases inputAccepted f.function transaction.input <;> exact ⟨_, rfl⟩

theorem verdict_iff (p : Platform) (transaction : EthereumTransaction)
    (f : EthereumTransactionFilter) (hf : HexFilter f) (address : Option String) :
    filterTransactionsProcessor p transaction (some f) address = .ok true ↔
      (recipientTest (some f) address).accepts p transaction.to = true ∧
      (senderTest (some f)).accepts p transaction.from = true ∧
      inputAccepted f.function transaction.input = true ∧
      ∀ type ∈ f.type, transaction.type = type := by
  have htype : typeTest (some f) = f.type := by
    have hrel := FilterRespelled.type_rel hf
    rw [typeTest, Option.bind_some]
    cases hcase : f.type with
    | none => rfl
    | some type =>
      rw [hcase] at hrel
      cases hrel with
      | some hspelling =>
        exact (truthy_eq_some _ _).mpr ⟨rfl, ne_empty_of_isHexText _ hspelling.isHexText_left⟩
  rw [filterTransactionsProcessor_iff, functionAccepts_hex p f hf, htype, Except.ok.injEq]

/-! ### Writing a filter in another spelling -/

def respellField (function type : String → String) :
    TransactionFilterField → TransactionFilterField
  | .from address => .from address
  | .to address => .to address
  | .function signature => .function (signature.map function)
  | .type text => .type (type text)

def respell (f : EthereumTransactionFilter) (function type : String → String) :
    EthereumTransactionFilter where
  fields := f.fields.map (respellField function type)
  nodup := by
    have hkeys : TransactionFilterField.key ∘ respellField function type =
        TransactionFilterField.key := by
      funext field
      cases field <;> rfl
    rw [List.map_map, hkeys]
    exact f.nodup

theorem respell_function (f : EthereumTransactionFilter) (function type : String → String) :
    (respell f function type).function = f.function.map (Option.map function) := by
  rw [EthereumTransactionFilter.function, EthereumTransactionFilter.function, respell,
    List.findSome?_map, List.map_findSome?]
  congr 1
  funext field
  cases field <;> rfl

theorem respell_type (f : EthereumTransactionFilter) (function type : String → String) :
    (respell f function type).type = f.type.map type := by
  rw [EthereumTransactionFilter.type, EthereumTransactionFilter.type, respell,
    List.findSome?_map, List.map_findSome?]
  congr 1
  funext field
  cases field <;> rfl

/-- The function gives every hex string a spelling of it. -/
def Spells (σ : String → String) : Prop := ∀ s, isHexText s = true → Respelled s (σ s)

theorem spells_id : Spells id := fun s hs => Respelled.refl s hs

/-- One hex string in another spelling, the others as they are. -/
theorem spells_update {a b : String} (h : Respelled a b) :
    Spells fun s => if s = a then b else s := by
  intro s hs
  by_cases hsame : s = a
  · simp only [hsame, ↓reduceIte]
    exact h
  · simp only [hsame, ↓reduceIte]
    exact Respelled.refl s hs

theorem respelled_respell (f : EthereumTransactionFilter) (hf : HexFilter f)
    {function type : String → String} (hfunction : Spells function) (htype : Spells type) :
    FilterRespelled f (respell f function type) := by
  rw [FilterRespelled, respell, List.forall₂_map_right_iff, List.forall₂_same]
  intro field hfield
  have hhex := List.forall₂_same.mp hf field hfield
  cases hhex with
  | «from» hab => exact .from hab
  | «to» hab => exact .to hab
  | function hab =>
    cases hab with
    | none => exact .function .none
    | some hspelling => exact .function (.some (hfunction _ hspelling.isHexText_left))
  | type hab => exact .type (htype _ hab.isHexText_left)

theorem FieldRespelled.right {x y : TransactionFilterField} (h : FieldRespelled x y) :
    FieldRespelled y y := by
  have hright : ∀ {a b : Option String}, Option.Rel Respelled a b → Option.Rel Respelled b b := by
    intro a b hab
    cases hab with
    | none => exact .none
    | some hspelling => exact .some (hspelling.symm.trans hspelling)
  cases h with
  | «from» hab => exact .from (hab.symm.trans hab)
  | «to» hab => exact .to (hright hab)
  | function hab => exact .function (hright hab)
  | type hab => exact .type (hab.symm.trans hab)

theorem FilterRespelled.hexFilter {f g : EthereumTransactionFilter} (h : FilterRespelled f g) :
    HexFilter g := by
  have hfields : ∀ {xs ys : List TransactionFilterField}, List.Forall₂ FieldRespelled xs ys →
      List.Forall₂ FieldRespelled ys ys := by
    intro xs ys hxy
    induction hxy with
    | nil => exact .nil
    | cons hfirst _ ih => exact .cons hfirst.right ih
  exact hfields h

/-! ### When letter case makes no difference -/

section CaseBlindness

variable (p : Platform) (transaction : EthereumTransaction) {f g : EthereumTransactionFilter}
  {address other : Option String}

/-- A transaction accepted in one spelling is what the filter asks for, letter case aside. -/
theorem matches_of_verdict (h : FilterRespelled f g) (haddress : Option.Rel Respelled address other)
    (hverdict : filterTransactionsProcessor p transaction (some g) other = .ok true) :
    MatchesUpToCase p transaction f address := by
  rw [verdict_iff p transaction g h.hexFilter] at hverdict
  obtain ⟨hrecipient, hsender, hinput, htype⟩ := hverdict
  obtain ⟨hto, hfrom⟩ := addresses_eq p transaction h haddress
  refine ⟨hto ▸ hrecipient, hfrom ▸ hsender, ?_, ?_⟩
  · have hrel := h.function_rel
    revert hrel hinput
    generalize f.function = a
    generalize g.function = b
    intro hinput hrel
    cases hrel with
    | none => trivial
    | some hab =>
      cases hab with
      | none =>
        have hempty : transaction.input = "0x" := of_decide_eq_true hinput
        exact hempty
      | @some signature spelling hspelling =>
        show if signature = "0x" then _ else _
        change (if spelling = "0x" then _ else _) = true at hinput
        by_cases hempty : signature = "0x"
        · rw [if_pos hempty]
          rw [if_pos (hspelling.eq_empty_iff.mp hempty)] at hinput
          exact of_decide_eq_true hinput
        · rw [if_neg hempty]
          rw [if_neg fun h => hempty (hspelling.eq_empty_iff.mpr h),
            List.isPrefixOf_iff_prefix] at hinput
          exact ⟨spelling, hspelling, hinput⟩
  · intro text htext
    have hrel := h.type_rel
    rw [htext] at hrel
    revert hrel htype
    generalize g.type = b
    intro htype hrel
    cases hrel with
    | some hspelling =>
      rw [htype _ rfl]
      exact hspelling

/-- Some spelling of the function is accepted on an input that matches it. -/
theorem exists_function_spelling (function : Option (Option String)) (input : String)
    (h : InputMatches function input) :
    ∃ σ, Spells σ ∧ inputAccepted (function.map (Option.map σ)) input = true := by
  cases function with
  | none => exact ⟨id, spells_id, rfl⟩
  | some signature =>
    cases signature with
    | none => exact ⟨id, spells_id, decide_eq_true h⟩
    | some signature =>
      change if signature = "0x" then _ else _ at h
      by_cases hempty : signature = "0x"
      · rw [if_pos hempty] at h
        refine ⟨id, spells_id, ?_⟩
        show (if signature = "0x" then _ else _) = true
        rw [if_pos hempty]
        exact decide_eq_true h
      · rw [if_neg hempty] at h
        obtain ⟨spelling, hspelling, hprefix⟩ := h
        have hother : spelling ≠ "0x" := fun h => hempty (hspelling.eq_empty_iff.mpr h)
        refine ⟨_, spells_update hspelling, ?_⟩
        rw [Option.map_some, Option.map_some, if_pos rfl, inputAccepted, if_neg hother,
          List.isPrefixOf_iff_prefix]
        exact hprefix

/-- Some spelling of the type is that of the transaction. -/
theorem exists_type_spelling (type : Option String) (text : String)
    (h : ∀ t ∈ type, Respelled t text) :
    ∃ τ, Spells τ ∧ ∀ t ∈ type.map τ, text = t := by
  cases type with
  | none => exact ⟨id, spells_id, fun t ht => absurd ht (by simp)⟩
  | some type =>
    refine ⟨_, spells_update (h type rfl), ?_⟩
    intro t ht
    rw [Option.map_some, if_pos rfl] at ht
    exact Option.some.inj ht

/-- A function that is accepted in every spelling has no letter. -/
theorem not_hasLetter_function (function : Option (Option String)) (input : String)
    (h : ∀ σ, Spells σ → inputAccepted (function.map (Option.map σ)) input = true) :
    function.join.any hasLetter = false := by
  rw [← Bool.not_eq_true, Option.any_eq_true]
  intro h
  obtain ⟨signature, hsignature, hletter⟩ := h
  obtain rfl : function = some (some signature) := Option.join_eq_some_iff.mp hsignature
  obtain ⟨spelling, hspelling, hne⟩ := exists_respelled_ne signature hletter
  have hsome : signature ≠ "0x" := by
    rintro rfl
    exact absurd hletter (by decide)
  have hother : spelling ≠ "0x" := fun hspelled => hsome (hspelling.eq_empty_iff.mpr hspelled)
  have hfirst := h id spells_id
  have hsecond := h _ (spells_update hspelling)
  rw [Option.map_some, Option.map_some, id_eq, inputAccepted, if_neg hsome,
    List.isPrefixOf_iff_prefix] at hfirst
  rw [Option.map_some, Option.map_some, if_pos rfl, inputAccepted, if_neg hother,
    List.isPrefixOf_iff_prefix] at hsecond
  have hspelled := List.prefix_of_prefix_length_le hsecond hfirst hspelling.length_eq.ge
  exact hne (String.toList_inj.mp (hspelled.eq_of_length hspelling.length_eq.symm))

/-- A type that is the transaction's in every spelling has no letter. -/
theorem not_hasLetter_type (type : Option String) (text : String)
    (h : ∀ τ, Spells τ → ∀ t ∈ type.map τ, text = t) : type.any hasLetter = false := by
  rw [← Bool.not_eq_true, Option.any_eq_true]
  intro h
  obtain ⟨t, rfl, hletter⟩ := h
  obtain ⟨spelling, hspelling, hne⟩ := exists_respelled_ne t hletter
  have hfirst := h id spells_id t rfl
  have hsecond := h _ (spells_update hspelling) spelling (by rw [Option.map_some, if_pos rfl]; rfl)
  exact hne (hsecond.symm.trans hfirst)

/-- A filter without letters where they count has the same function and type in every spelling. -/
theorem FilterRespelled.eq_of_not_cased (h : FilterRespelled f g)
    (hcased : hasCasedField f = false) :
    f.function = g.function ∧ f.type = g.type := by
  rw [hasCasedField, Bool.or_eq_false_iff] at hcased
  constructor
  · have hletter := hcased.1
    have hrel := h.function_rel
    revert hletter hrel
    generalize f.function = a
    generalize g.function = b
    intro hletter hrel
    cases hrel with
    | none => rfl
    | some hab =>
      cases hab with
      | none => rfl
      | some hspelling => rw [hspelling.eq_of_not_hasLetter hletter]
  · have hletter := hcased.2
    have hrel := h.type_rel
    revert hletter hrel
    generalize f.type = a
    generalize g.type = b
    intro hletter hrel
    cases hrel with
    | none => rfl
    | some hspelling => rw [hspelling.eq_of_not_hasLetter hletter]

/-- **When letter case changes no verdict.**  The verdict is the same for all spellings of the
filter and of the address exactly when the function and the type have no letter, or the transaction
is not what the filter asks for in any spelling. -/
theorem caseBlind_iff (hf : HexFilter f) (haddress : Option.Rel Respelled address address) :
    CaseBlind p transaction f address ↔
      (MatchesUpToCase p transaction f address → hasCasedField f = false) := by
  constructor
  · intro h hmatch
    obtain ⟨σ, hσ, hinput⟩ := exists_function_spelling f.function transaction.input hmatch.input
    obtain ⟨τ, hτ, htype⟩ := exists_type_spelling f.type transaction.type hmatch.type
    have hspelled := respelled_respell f hf hσ hτ
    have haddresses := addresses_eq p transaction hspelled haddress
    have haccepted : filterTransactionsProcessor p transaction (some (respell f σ τ)) address =
        .ok true := by
      rw [verdict_iff p transaction _ hspelled.hexFilter, ← haddresses.1, ← haddresses.2,
        respell_function, respell_type]
      exact ⟨hmatch.recipient, hmatch.sender, hinput, htype⟩
    -- so it is accepted in every spelling
    have hall : ∀ σ τ, Spells σ → Spells τ →
        inputAccepted (f.function.map (Option.map σ)) transaction.input = true ∧
          ∀ t ∈ f.type.map τ, transaction.type = t := by
      intro σ' τ' hσ' hτ'
      have hother := respelled_respell f hf hσ' hτ'
      have hverdict := (h _ _ hother haddress).trans
        ((h _ _ hspelled haddress).symm.trans haccepted)
      rw [verdict_iff p transaction _ hother.hexFilter, respell_function, respell_type] at hverdict
      exact hverdict.2.2
    rw [hasCasedField, Bool.or_eq_false_iff]
    exact ⟨not_hasLetter_function _ _ fun σ' hσ' => (hall σ' id hσ' spells_id).1,
      not_hasLetter_type _ _ fun τ' hτ' => (hall id τ' spells_id hτ').2⟩
  · intro h g other hspelled hother
    obtain ⟨verdict, hverdict⟩ := exists_verdict p transaction f hf address
    obtain ⟨verdict', hverdict'⟩ := exists_verdict p transaction g hspelled.hexFilter other
    have hsame : filterTransactionsProcessor p transaction (some g) other = .ok true ↔
        filterTransactionsProcessor p transaction (some f) address = .ok true := by
      by_cases hmatch : MatchesUpToCase p transaction f address
      · obtain ⟨hfunction, htype⟩ := hspelled.eq_of_not_cased (h hmatch)
        obtain ⟨hrecipient, hsender⟩ := addresses_eq p transaction hspelled hother
        rw [verdict_iff p transaction g hspelled.hexFilter, verdict_iff p transaction f hf,
          hrecipient, hsender, hfunction, htype]
      · exact iff_of_false (fun hg => hmatch (matches_of_verdict p transaction hspelled hother hg))
          fun hself => hmatch (matches_of_verdict p transaction hf haddress hself)
    rw [hverdict, hverdict', Except.ok.injEq, Except.ok.injEq] at hsame
    rw [hverdict, hverdict', Bool.eq_iff_iff.mpr hsame]

end CaseBlindness

/-! ### A selector in capitals -/

/-- A filter for one selector and dynamic fees. -/
def selectorFilter (selector : String) : EthereumTransactionFilter where
  fields := [.function (some selector), .type "0x2"]
  nodup := by simp [TransactionFilterField.key]

/-- A transfer of a token. -/
def transferCall : EthereumTransaction where
  «to» := some "0x6B175474E89094C44Da98b954EedeAC495271d0F"
  input := "0xa9059cbb00"
  type := "0x2"

theorem respelled_transfer : Respelled "0xa9059cbb" "0xA9059CBB" :=
  ⟨"a9059cbb".toList, "A9059CBB".toList, by decide, by decide, by decide⟩

theorem selectorFilter_respelled {a b : String} (h : Respelled a b) :
    FilterRespelled (selectorFilter a) (selectorFilter b) :=
  .cons (.function (.some h)) (.cons (.type (Respelled.refl "0x2" (by decide))) .nil)

/-- The selector written in capitals accepts no transfer. -/
theorem capitals_match_nothing :
    filterTransactionsProcessor erc20Platform transferCall (some (selectorFilter "0xa9059cbb"))
        none = .ok true ∧
      filterTransactionsProcessor erc20Platform transferCall (some (selectorFilter "0xA9059CBB"))
        none = .ok false ∧
      ¬ CaseBlind erc20Platform transferCall (selectorFilter "0xa9059cbb") none := by
  have hlower : filterTransactionsProcessor erc20Platform transferCall
      (some (selectorFilter "0xa9059cbb")) none = .ok true := rfl
  have hupper : filterTransactionsProcessor erc20Platform transferCall
      (some (selectorFilter "0xA9059CBB")) none = .ok false := rfl
  refine ⟨hlower, hupper, fun h => ?_⟩
  have hsame := h _ none (selectorFilter_respelled respelled_transfer) .none
  rw [hlower, hupper] at hsame
  exact absurd (Except.ok.inj hsame) (by decide)

/-- A selector without letters has one spelling. -/
theorem caseBlind_digits :
    CaseBlind erc20Platform transferCall (selectorFilter "0x23872423") none :=
  (caseBlind_iff erc20Platform transferCall
    (selectorFilter_respelled (Respelled.refl "0x23872423" (by decide))) .none).mpr
    fun _ => by decide

end SubqlEthereum.TransactionFilter
