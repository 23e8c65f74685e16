import SubqlEthereum.CustomTypes.SignatureResolution

/-!
# The name in a resolved signature

The comment in `resolveCustomTypesInSignature` speaks of a custom type name "as a parameter type",
but the expression is matched against the whole signature.  An event or a function is so renamed
when its name touches a type name of the ABI, as an event `Transfer` does when some contract
declares an enum `Transfer`.  `name_kept_iff` says when the name stays.
-/

namespace SubqlEthereum.CustomTypes

open SubqlEthereum.WordText

/-- The text before the first parenthesis: the name of the event or function. -/
def nameOf (signature : String) : String :=
  String.ofList (signature.toList.takeWhile (· ≠ '('))

/-- In some signature of that name, the expression of the type name matches at a place up to the
first parenthesis. -/
def TouchesName (typeName name : String) : Prop :=
  ∃ params passed rest, name.toList ++ '(' :: params = passed ++ rest ∧
    passed.length ≤ name.toList.length ∧ matchesAt typeName.toList passed rest = true

theorem toList_signature (name params : String) :
    (name ++ "(" ++ params).toList = name.toList ++ '(' :: params.toList := by
  rw [String.toList_append, String.toList_append, List.append_assoc]
  rfl

theorem nameOf_eq_of_toList {text : String} {name params : List Char} (hname : '(' ∉ name)
    (h : text.toList = name ++ '(' :: params) : nameOf text = String.ofList name := by
  rw [nameOf, h, takeWhile_ne_append '(' name params hname]

/-! ### A name that is kept -/

/-- One replacement keeps a name that its word does not touch. -/
theorem scan_name (typeName name : String) (h : ¬ TouchesName typeName name)
    (replacement params : List Char) :
    ∃ params', scan typeName.toList replacement [] 0 (name.toList ++ '(' :: params) =
      name.toList ++ '(' :: params' := by
  have hfront := scan_append typeName.toList replacement (name.toList ++ ['(']) params [] ?_
  · refine ⟨scan typeName.toList replacement (name.toList ++ ['(']) 0 params, ?_⟩
    rw [List.append_assoc, List.append_assoc] at hfront
    exact hfront
  · intro passed rest hsplit hrest
    rw [Bool.eq_false_iff]
    intro hmatch
    apply h
    have hlength := congrArg List.length hsplit
    have hpos := List.length_pos_iff.mpr hrest
    rw [List.length_append, List.length_append, List.length_singleton] at hlength
    refine ⟨params, passed, rest ++ params, ?_, by omega, hmatch⟩
    rw [← List.append_assoc, ← hsplit, List.append_assoc]
    rfl

/-- **A name that no type name touches is kept**, whatever the map says of the parameters. -/
theorem resolve_name (types : CustomTypeMap) (name params : String)
    (h : ∀ entry ∈ types.entries, ¬ TouchesName entry.1 name) :
    ∃ params', (resolveCustomTypesInSignature (name ++ "(" ++ params) types).toList =
      name.toList ++ '(' :: params' := by
  rw [resolve_toList, CustomTypeMap.replacements, List.foldl_map, toList_signature]
  generalize params.toList = rest
  generalize types.entries = entries at h ⊢
  induction entries generalizing rest with
  | nil => exact ⟨rest, rfl⟩
  | cons entry entries ih =>
    obtain ⟨params', hstep⟩ :=
      scan_name entry.1 name (h entry List.mem_cons_self) entry.2.resolvedType.toList rest
    rw [List.foldl_cons, hstep]
    exact ih params' fun e he => h e (List.mem_cons_of_mem entry he)

/-! ### Names that are words -/

/-- A word of word characters at the start of a text stops before the first other character. -/
theorem prefix_of_prefix_append_cons (word front back : List Char) (c : Char)
    (hword : ∀ d ∈ word, isWordChar d = true) (hc : isWordChar c = false)
    (h : word <+: front ++ c :: back) : word <+: front := by
  rcases List.prefix_or_prefix_of_prefix h (List.prefix_append front (c :: back)) with
    hshort | ⟨more, rfl⟩
  · exact hshort
  · cases more with
    | nil => exact ⟨[], by rw [List.append_nil, List.append_nil]⟩
    | cons d more =>
      obtain ⟨tail, htail⟩ := (List.prefix_append_right_inj front).mp h
      obtain ⟨rfl, -⟩ := List.cons.inj htail
      have hd := hword d (List.mem_append_right front List.mem_cons_self)
      rw [hc] at hd
      exact absurd hd (by decide)

/-- A place up to the first parenthesis is a place of the name. -/
theorem split_name (name params passed rest : List Char)
    (hsplit : name ++ '(' :: params = passed ++ rest) (hlength : passed.length ≤ name.length) :
    ∃ front, name = passed ++ front ∧ rest = front ++ '(' :: params := by
  rcases List.append_eq_append_iff.mp hsplit with ⟨more, hpassed, hrest⟩ | hfront
  · have hnil : more = [] := by
      rw [hpassed, List.length_append] at hlength
      exact List.length_eq_zero_iff.mp (by omega)
    subst hnil
    rw [List.append_nil] at hpassed
    exact ⟨[], by rw [hpassed, List.append_nil], hrest.symm⟩
  · exact hfront

/-- **A type name that is a word** touches a name when it is one of the words of it. -/
theorem touchesName_iff_hasWord (typeName name : String) (hne : typeName ≠ "")
    (hword : ∀ c ∈ typeName.toList, isWordChar c = true) :
    TouchesName typeName name ↔ HasWord typeName.toList name.toList := by
  have hlist : typeName.toList ≠ [] := fun h => hne (String.toList_injective h)
  constructor
  · intro h
    obtain ⟨params, passed, rest, hsplit, hlength, hmatch⟩ := h
    obtain ⟨hbegins, hbefore, hafter⟩ := (matchesAt_iff _ _ _).mp hmatch
    obtain ⟨front, hname, rfl⟩ := split_name name.toList params passed rest hsplit hlength
    obtain ⟨after, rfl⟩ :=
      prefix_of_prefix_append_cons typeName.toList front params '(' hword (by decide) hbegins
    obtain ⟨c, cs, hcs⟩ := List.exists_cons_of_ne_nil hlist
    have hhead : isWordChar c = true := hword c (by rw [hcs]; exact List.mem_cons_self)
    have hlast : (passed ++ typeName.toList).getLast?.any isWordChar = true := by
      rw [List.getLast?_append_of_ne_nil passed hlist, List.getLast?_eq_some_getLast hlist]
      exact hword _ (List.getLast_mem hlist)
    refine ⟨hlist, ?_⟩
    rw [hname, ← List.append_assoc]
    apply mem_runs_between typeName.toList passed after hword
    · rw [boundary, hcs, List.cons_append, List.cons_append, List.head?_cons, Option.any_some,
        hhead] at hbefore
      simpa using hbefore
    · rw [boundary, hlast, List.append_assoc, List.drop_left] at hafter
      cases after with
      | nil => rfl
      | cons d after => simpa using hafter
  · intro h
    obtain ⟨-, hmem⟩ := h
    obtain ⟨before, after, hname, hbefore, hafter⟩ :=
      mem_runs typeName.toList name.toList [] (List.forall_mem_nil _) hmem
    have hrest : (after ++ ['(']).head?.any isWordChar = false := by
      cases after with
      | nil => rfl
      | cons c after => exact hafter
    rw [List.nil_append] at hname
    refine ⟨[], before, typeName.toList ++ (after ++ ['(']), ?_, ?_, ?_⟩
    · rw [hname]
      simp
    · rw [hname, List.length_append, List.length_append]
      omega
    · exact (matchesAt_run_iff typeName.toList hlist hword before typeName.toList (after ++ ['('])
        hword hbefore hrest).mpr rfl

/-! ### When the name is kept -/

/-- With names that are words, no name touches what results. -/
theorem not_touchesName_of_name_kept {types : CustomTypeMap} (h : types.WholeWords)
    (name params : String)
    (hkept : nameOf (resolveCustomTypesInSignature (name ++ "(" ++ params) types) = name) :
    ∀ entry ∈ types.entries, ¬ TouchesName entry.1 name := by
  intro entry hentry htouches
  have hword := (touchesName_iff_hasWord entry.1 name (h.nonempty entry hentry)
    (h.wordChars entry hentry)).mp htouches
  have hf := substitutes_resolvedRun types
  have hresolved := resolve_of_substitutes h hf (name ++ "(" ++ params)
  have hnone := not_hasWord_mapWords hf h.settled (name ++ "(" ++ params).toList
    (entry.1.toList, entry.2.resolvedType.toList) (List.mem_map_of_mem hentry)
  rw [← hresolved] at hnone
  -- the parenthesis is still there, so that the name kept is a part of the text that results
  have hparenthesis :
      '(' ∈ (resolveCustomTypesInSignature (name ++ "(" ++ params) types).toList := by
    rw [hresolved, toList_signature, mapWords_append_cons _ _ _ '(' (by decide)]
    exact List.mem_append_right _ List.mem_cons_self
  obtain ⟨front, back, hresult, hfront⟩ := List.eq_append_cons_of_mem hparenthesis
  have hsame : front = name.toList := by
    rw [nameOf_eq_of_toList hfront hresult] at hkept
    rw [← hkept, String.toList_ofList]
  apply hnone
  rw [hresult, hsame]
  refine ⟨hword.1, ?_⟩
  rw [runs_append_cons name.toList back '(' (by decide)]
  exact List.mem_append_left _ hword.2

/-- **When the name is kept.** -/
theorem name_kept_iff (types : CustomTypeMap) (name params : String) (hname : '(' ∉ name.toList) :
    ((∀ entry ∈ types.entries, ¬ TouchesName entry.1 name) →
        nameOf (resolveCustomTypesInSignature (name ++ "(" ++ params) types) = name) ∧
      (types.WholeWords →
        (nameOf (resolveCustomTypesInSignature (name ++ "(" ++ params) types) = name ↔
          ∀ entry ∈ types.entries, ¬ TouchesName entry.1 name)) := by
  have hkeeps : (∀ entry ∈ types.entries, ¬ TouchesName entry.1 name) →
      nameOf (resolveCustomTypesInSignature (name ++ "(" ++ params) types) = name := by
    intro h
    obtain ⟨params', hparams⟩ := resolve_name types name params h
    rw [nameOf_eq_of_toList hname hparams, String.ofList_toList]
  exact ⟨hkeeps, fun h => ⟨not_touchesName_of_name_kept h name params, hkeeps⟩⟩

/-- An enum that has the name of an event. -/
def transferTypes : CustomTypeMap where
  entries := [("Transfer", ⟨"Transfer", .enum, "uint8"⟩)]
  nodup := by decide

theorem transferTypes_wholeWords : transferTypes.WholeWords where
  nonempty := by decide
  wordChars entry hentry := by
    have hall : transferTypes.entries.all (fun entry => entry.1.toList.all isWordChar) = true := by
      decide
    exact List.all_eq_true.mp (List.all_eq_true.mp hall entry hentry)
  no_dollar := by decide
  no_name := by decide

/-- The event loses its name, which then names the parameter type. -/
theorem transfer_renamed :
    nameOf "Transfer(address,Transfer)" = "Transfer" ∧
      resolveCustomTypesInSignature "Transfer(address,Transfer)" transferTypes =
        "uint8(address,uint8)" ∧
      nameOf (resolveCustomTypesInSignature "Transfer(address,Transfer)" transferTypes) ≠
        "Transfer" := by
  decide

/-- `TransferAll` only begins like the enum. -/
theorem transferAll_untouched :
    ∀ entry ∈ transferTypes.entries, ¬ TouchesName entry.1 "TransferAll" := by
  intro entry hentry
  have hwords := transferTypes_wholeWords
  rw [touchesName_iff_hasWord entry.1 "TransferAll" (hwords.nonempty entry hentry)
    (hwords.wordChars entry hentry)]
  rw [List.mem_singleton.mp hentry]
  decide

theorem name_kept_iff_transferAll :
    nameOf (resolveCustomTypesInSignature ("TransferAll" ++ "(" ++ "Transfer)") transferTypes) =
        "TransferAll" ∧
      (nameOf (resolveCustomTypesInSignature ("TransferAll" ++ "(" ++ "Transfer)")
          transferTypes) = "TransferAll" ↔
        ∀ entry ∈ transferTypes.entries, ¬ TouchesName entry.1 "TransferAll") :=
  ⟨(name_kept_iff transferTypes "TransferAll" "Transfer)" (by decide)).1 transferAll_untouched,
    (name_kept_iff transferTypes "TransferAll" "Transfer)" (by decide)).2 transferTypes_wholeWords⟩

end SubqlEthereum.CustomTypes
