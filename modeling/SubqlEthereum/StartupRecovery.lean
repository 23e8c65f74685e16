import SubqlEthereum.StartupCheck

/-!
# The rewind that follows the startup check

`hasForked` and `getLastCorrectFinalizedBlock` in the order the service runs them at startup: the
header the check gives back is the one the search starts from.  The check looks at one header, and
the search stops at the first cached header that fits, so neither of them sees every cached header.
Still the header found parts them: a cached header is on the chain exactly when it is not above it
(`startup_rewind`).  Both directions rest on a hash standing for everything below it.
-/

namespace SubqlEthereum.StartupRecovery

open SubqlEthereum.External SubqlEthereum.UnfinalizedBlocks SubqlEthereum.StartupCheck
open SubqlEthereum.Ethereum (Header)

section Linked

variable {chain : CanonicalChain}

theorem cachedHeaders_of_linked {headers : List Header} (h : LinkedHeaders chain headers)
    (hchain : ∀ m ≤ chain.head, ∀ n ≤ chain.head,
      (chain.header m).blockHash = (chain.header n).blockHash → m = n) :
    CachedHeaders chain headers where
  consecutive := h.consecutive
  nonneg := h.nonneg
  hash_unique := h.hash_determines
  chain_hash_unique := hchain

/-- What comes first in linked headers is linked. -/
theorem linkedHeaders_left (front rest : List Header) (h : LinkedHeaders chain (front ++ rest)) :
    LinkedHeaders chain front where
  consecutive := (List.isChain_append.mp h.consecutive).1
  nonneg header hheader := h.nonneg header (List.mem_append_left _ hheader)
  linked := (List.isChain_append.mp h.linked).1
  hash_determines header hheader := h.hash_determines header (List.mem_append_left _ hheader)

/-- Heights strictly ascend, so a later header is a higher one. -/
theorem lt_of_later {front rest : List Header} {target : Header}
    (h : LinkedHeaders chain (front ++ target :: rest)) :
    ∀ later ∈ rest, target.blockHeight < later.blockHeight := by
  have hascending : (front ++ target :: rest).IsChain fun a b => a.blockHeight < b.blockHeight :=
    h.consecutive.imp fun a b hstep => by omega
  have htrans : IsTrans Header fun a b => a.blockHeight < b.blockHeight :=
    ⟨fun _ _ _ => lt_trans⟩
  have hpairwise := List.isChain_iff_pairwise.mp hascending
  intro later hlater
  have htail := (List.pairwise_append.mp hpairwise).2.1
  exact (List.pairwise_cons.mp htail).1 later hlater

/-- **Below a header of the chain every cached header is on the chain.** -/
theorem canonical_below {headers : List Header} (h : LinkedHeaders chain headers)
    {target : Header} (htarget : target ∈ headers) (hhead : target.blockHeight ≤ chain.head)
    (hcanonical : chain.Canonical target) :
    ∀ other ∈ headers, other.blockHeight ≤ target.blockHeight → chain.Canonical other := by
  obtain ⟨front, rest, rfl⟩ := List.append_of_mem htarget
  intro other hother hle
  have hbefore : other ∈ front ++ [target] := by
    rcases List.mem_append.mp hother with hfront | hrest
    · exact List.mem_append_left _ hfront
    · rcases List.mem_cons.mp hrest with hsame | hlater
      · rw [hsame]
        simp
      · have hlt := lt_of_later h other hlater
        omega
  have hprefix : LinkedHeaders chain (front ++ [target]) := by
    apply linkedHeaders_left _ rest
    rw [List.append_assoc, List.singleton_append]
    exact h
  apply hprefix.canonical_of_last (front ++ [target]) _ other hbefore
  intro last hlast
  rw [List.getLast?_concat, Option.mem_some_iff] at hlast
  rw [← hlast]
  exact ⟨hhead, hcanonical⟩

/-- Below the last header are all the others. -/
theorem below_last {front : List Header} {last : Header} {F : ℕ} (hheight : last.blockHeight = F)
    (h : LinkedHeaders chain (front ++ [last])) : below (front ++ [last]) F = front := by
  have hfront : front.filter (fun header => header.blockHeight < (F : ℤ)) = front := by
    rw [List.filter_eq_self]
    intro header hheader
    have hlt := lt_last front last h.consecutive header hheader
    rw [hheight] at hlt
    exact decide_eq_true hlt
  have hlast : [last].filter (fun header => header.blockHeight < (F : ℤ)) = [] := by
    simp [hheight]
  rw [below, List.filter_append, hfront, hlast, List.append_nil]

/-- Heights count the headers: the first is as far below the end as there are others. -/
theorem first_height (front : List Header) : ∀ last : Header,
    LinkedHeaders chain (front ++ [last]) → ∀ first ∈ (front ++ [last]).head?,
      first.blockHeight + front.length = last.blockHeight := by
  induction front using List.reverseRecOn with
  | nil =>
    intro last _ first hfirst
    have hsame : last = first := by simpa using hfirst
    rw [hsame]
    simp
  | append_singleton front before ih =>
    intro last h first hfirst
    have hstep : last.blockHeight = before.blockHeight + 1 :=
      (List.isChain_append.mp h.consecutive).2.2 before (by simp) last (by simp)
    have hbefore := ih before h.front first (by
      rw [List.head?_append_of_ne_nil _ (by simp)] at hfirst
      exact hfirst)
    rw [List.length_append, List.length_singleton]
    push_cast
    omega

end Linked

/-! ### The check and the search -/

section Startup

variable {node : Node} {chain : CanonicalChain}

/-- A fork found by the first check is at the height of the last cached header, which is not on the
chain. -/
theorem hasForked_forked (hserves : node.Serves chain) {cached : List Header}
    (hlinked : LinkedHeaders chain cached)
    (hhead : ∀ last ∈ cached.getLast?, last.blockHeight ≤ chain.head) {forked : Header}
    (hforked : (hasForked node { unfinalizedBlocks := cached }).1 = .ok (some forked)) :
    ∃ (front : List Header) (last : Header) (F : ℕ), cached = front ++ [last] ∧
      last.blockHeight = F ∧ F ≤ chain.head ∧ forked = chain.header F ∧ ¬ chain.Canonical last := by
  cases hlast : cached.getLast? with
  | none =>
    have hnil : cached = [] := List.getLast?_eq_none_iff.mp hlast
    subst hnil
    have hnone : (hasForked node { unfinalizedBlocks := [] }).1 = .ok none := rfl
    rw [hnone] at hforked
    cases hforked
  | some last =>
    obtain ⟨front, rfl⟩ := List.getLast?_eq_some_iff.mp hlast
    obtain ⟨F, hF⟩ := Int.eq_ofNat_of_zero_le (hlinked.nonneg last (by simp))
    have hbound : F ≤ chain.head := by
      have := hhead last hlast
      omega
    have hcheck : ∀ last' ∈ (front ++ [last]).getLast?,
        node.getHeaderForHeight last'.blockHeight = .ok (chain.header F) := by
      intro last' hlast'
      rw [hlast, Option.mem_some_iff] at hlast'
      rw [← hlast', hF]
      exact hserves.byHeight F hbound
    have hresult := (hasForked_first node (front ++ [last]) _ hcheck).1
    rw [hforked, hlinked.not_broken, hlast] at hresult
    by_cases hsame : last.blockHash = (chain.header F).blockHash
    · simp [hsame] at hresult
    · refine ⟨front, last, F, rfl, hF, hbound, ?_, ?_⟩
      · simpa [hsame] using hresult
      · rw [CanonicalChain.Canonical, hF, Int.toNat_natCast]
        exact hsame

/-- The search from a header of the chain, over the cached headers below it. -/
theorem search_settles (hserves : node.Serves chain) {cached : List Header}
    (hcached : CachedHeaders chain cached) (F : ℕ) (hF : F ≤ chain.head)
    (hlast : ∀ last ∈ cached.getLast?, (F : ℤ) ≤ last.blockHeight + 1) :
    ∃ result asked, searchLoop node [] (below cached F).reverse (chain.header F) =
        (.ok result, asked) ∧ result.Settles chain F (below cached F).reverse := by
  have hdesc : Descends F (below cached F).reverse :=
    descends_below cached hcached.consecutive hcached.nonneg F hlast
  obtain ⟨result, asked, hloop, hsettles, -⟩ :=
    searchLoop_spec hserves hcached.chain_hash_unique (below cached F).reverse F [] hF hdesc
      (fun header hheader => hcached.hash_unique header
        (List.mem_of_mem_filter (List.mem_reverse.mp hheader)))
      (fun ask hask => absurd hask List.not_mem_nil)
  exact ⟨result, asked, hloop, hsettles⟩

/-- **The rewind parts the cached headers.**  Let the check at startup give back a header.  When a
cached header is on the chain, the search from there returns a cached header, below the one given
back, and the cached headers on the chain are those not above it.  When none is, the search goes to
the fallback with the header of the chain at the first cached height. -/
theorem startup_rewind (node : Node) (chain : CanonicalChain) (hserves : node.Serves chain)
    (hchain : ∀ m ≤ chain.head, ∀ n ≤ chain.head,
      (chain.header m).blockHash = (chain.header n).blockHash → m = n)
    (cached : List Header) (hlinked : LinkedHeaders chain cached)
    (hhead : ∀ last ∈ cached.getLast?, last.blockHeight ≤ chain.head) (forked : Header)
    (hforked : (hasForked node { unfinalizedBlocks := cached }).1 = .ok (some forked)) :
    let rewind := getLastCorrectFinalizedBlock node cached forked
    ((∃ header ∈ cached, chain.Canonical header) →
      ∃ target ∈ cached, rewind.1 = .ok (some target) ∧
        target.blockHeight < forked.blockHeight ∧
        ∀ header ∈ cached, chain.Canonical header ↔ header.blockHeight ≤ target.blockHeight) ∧
    ((∀ header ∈ cached, ¬ chain.Canonical header) →
      ∃ first ∈ cached.head?, ∃ asked, rewind =
        fallback node asked forked (chain.header first.blockHeight.toNat)) := by
  intro rewind
  obtain ⟨front, last, F, rfl, hheight, hF, rfl, horphan⟩ :=
    hasForked_forked hserves hlinked hhead hforked
  have hbelow := below_last hheight hlinked
  obtain ⟨result, asked, hloop, hsettles⟩ :=
    search_settles hserves (cachedHeaders_of_linked hlinked hchain) F hF
      (fun last' hlast' => by
        rw [List.getLast?_concat, Option.mem_some_iff] at hlast'
        rw [← hlast', hheight]
        omega)
  have hfilter : (front ++ [last]).filter
      (fun header => header.blockHeight < (chain.header F).blockHeight) =
      below (front ++ [last]) F := by
    rw [chain.height_eq F hF]
    rfl
  have hrewind : rewind = getLastCorrectFinalizedBlock node (front ++ [last]) (chain.header F) :=
    rfl
  rw [getLastCorrectFinalizedBlock] at hrewind
  simp only [hfilter, hloop] at hrewind
  rw [hbelow] at hsettles
  cases result with
  | found target =>
    obtain ⟨hmem, hcanonical, hgreatest⟩ := hsettles
    have htarget : target ∈ front := List.mem_reverse.mp hmem
    have hlt : target.blockHeight < last.blockHeight :=
      lt_last front last hlinked.consecutive target htarget
    refine ⟨fun _ => ⟨target, List.mem_append_left _ htarget, ?_, ?_, ?_⟩, fun hnone => ?_⟩
    · rw [hrewind]
    · rw [chain.height_eq F hF, ← hheight]
      exact hlt
    · intro header hheader
      constructor
      · intro hon
        rcases List.mem_append.mp hheader with hfront | hsingle
        · exact hgreatest header (List.mem_reverse.mpr hfront) hon
        · rw [List.mem_singleton.mp hsingle] at hon
          exact absurd hon horphan
      · exact canonical_below hlinked (List.mem_append_left _ htarget) (by omega) hcanonical
          header hheader
    · exact absurd hcanonical (hnone target (List.mem_append_left _ htarget))
  | exhausted checkingHeader =>
    obtain ⟨hnone, hchecking⟩ := hsettles
    refine ⟨fun hsome => ?_, fun _ => ?_⟩
    · obtain ⟨header, hheader, hon⟩ := hsome
      rcases List.mem_append.mp hheader with hfront | hsingle
      · exact absurd hon (hnone header (List.mem_reverse.mpr hfront))
      · rw [List.mem_singleton.mp hsingle] at hon
        exact absurd hon horphan
    · obtain ⟨first, hfirst⟩ : ∃ first, first ∈ (front ++ [last]).head? :=
        Option.isSome_iff_exists.mp (by simp)
      have hcount := first_height front last hlinked first hfirst
      have hlow : F - front.reverse.length = first.blockHeight.toNat := by
        rw [List.length_reverse]
        omega
      rw [hlow] at hchecking
      exact ⟨first, hfirst, asked, by rw [hrewind, hchecking]⟩

/-- The sample: headers 1 and 2 are kept, the two above are not on the chain. -/
theorem startup_rewind_sample :
    ∃ target ∈ sampleCached,
      (getLastCorrectFinalizedBlock sampleNode sampleCached (sampleChain.header 4)).1 =
        .ok (some target) ∧
      ∀ header ∈ sampleCached, sampleChain.Canonical header ↔
        header.blockHeight ≤ target.blockHeight := by
  have hsample := startup_rewind sampleNode sampleChain sampleNode_serves
    sampleCached_cached.chain_hash_unique sampleCached sampleCached_linked
    (by simp [sampleCached, sampleChain]) (sampleChain.header 4) rfl
  obtain ⟨target, htarget, hresult, -, hparts⟩ := hsample.1 (by
    exact ⟨sampleChain.header 2, by simp [sampleCached], rfl⟩)
  exact ⟨target, htarget, hresult, hparts⟩

end Startup
end SubqlEthereum.StartupRecovery
