import SubqlEthereum.UnfinalizedBlocks

/-!
# The fork check at startup, and the rewind without a proof of index

Two parts of `unfinalizedBlocks.service.ts` around the search.  `hasForked` looks up one header,
the one at the height of the last cached header, and only the first time it is called.  That is
enough because a hash stands for everything below it: when the last cached header is on the chain,
so is the one it names as its parent, and so on down (`canonical_of_last`).

Without a proof of index the rewind goes a configured number of blocks below the fork, however far
down the search has gone before.  `getLastCorrectFinalizedBlock_reindex_iff` says when that is
below every header the search has rejected.
-/

namespace SubqlEthereum.StartupCheck

open SubqlEthereum.External SubqlEthereum.UnfinalizedBlocks
open SubqlEthereum.Ethereum (Header)

/-! ### The check -/

/-- What the service keeps between the calls. -/
structure UnfinalizedBlocksService where
  startupCheck : Bool := true
  unfinalizedBlocks : List Header
deriving DecidableEq, Repr

/-- The last two cached headers do not link; the later one is given back. -/
def lastLinkBroken (unfinalizedBlocks : List Header) : Option Header :=
  if unfinalizedBlocks.length ≤ 2 then none
  else
    let i := unfinalizedBlocks.length - 1
    match unfinalizedBlocks[i]?, unfinalizedBlocks[i - 1]? with
    | some current, some parent =>
      if current.parentHash ≠ some parent.blockHash then some current else none
    | _, _ => none

/-- The result of the check, the service after it and what was asked of the chain. -/
def hasForked (node : Node) (service : UnfinalizedBlocksService) :
    Except JsError (Option Header) × UnfinalizedBlocksService × List Ask :=
  let linkCheck := lastLinkBroken service.unfinalizedBlocks
  if service.startupCheck then
    let service := { service with startupCheck := false }
    match service.unfinalizedBlocks.getLast? with
    | none => (.ok linkCheck, service, [])
    | some lastUnfinalized =>
      let asked := [.height lastUnfinalized.blockHeight]
      match node.getHeaderForHeight lastUnfinalized.blockHeight with
      | .error e => (.error e, service, asked)
      | .ok checkUnfinalized =>
        if lastUnfinalized.blockHash ≠ checkUnfinalized.blockHash then
          (.ok (some checkUnfinalized), service, asked)
        else (.ok linkCheck, service, asked)
  else (.ok linkCheck, service, [])

/-! ### Headers that link -/

/-- Cached headers with consecutive heights, none negative, each naming the one before it as its
parent; a header with the hash of a block of the chain is that block's header. -/
structure LinkedHeaders (chain : CanonicalChain) (headers : List Header) : Prop where
  consecutive : headers.IsChain fun a b => b.blockHeight = a.blockHeight + 1
  nonneg : ∀ header ∈ headers, 0 ≤ header.blockHeight
  linked : headers.IsChain fun a b => b.parentHash = some a.blockHash
  hash_determines : ∀ header ∈ headers, ∀ n ≤ chain.head,
    header.blockHash = (chain.header n).blockHash → header = chain.header n

section Linked

variable {chain : CanonicalChain}

theorem LinkedHeaders.front {front : List Header} {last : Header}
    (h : LinkedHeaders chain (front ++ [last])) : LinkedHeaders chain front where
  consecutive := (List.isChain_append.mp h.consecutive).1
  nonneg header hheader := h.nonneg header (List.mem_append_left _ hheader)
  linked := (List.isChain_append.mp h.linked).1
  hash_determines header hheader := h.hash_determines header (List.mem_append_left _ hheader)

/-- **One step down**: the header before one that is on the chain is on the chain, one below. -/
theorem LinkedHeaders.canonical_before {front : List Header} {before last : Header}
    (h : LinkedHeaders chain (front ++ [before] ++ [last]))
    (hhead : last.blockHeight ≤ chain.head) (hlast : chain.Canonical last) :
    before.blockHeight ≤ chain.head ∧ chain.Canonical before := by
  have hheight : last.blockHeight = before.blockHeight + 1 :=
    (List.isChain_append.mp h.consecutive).2.2 before (by simp) last (by simp)
  have hparent : last.parentHash = some before.blockHash :=
    (List.isChain_append.mp h.linked).2.2 before (by simp) last (by simp)
  have hbefore : 0 ≤ before.blockHeight := h.nonneg before (by simp)
  obtain ⟨n, hn⟩ := Int.eq_ofNat_of_zero_le hbefore
  have hlastHeight : last.blockHeight.toNat = n + 1 := by omega
  -- the last header is the chain's at its height, so its parent is the chain's below
  have hequal : last = chain.header (n + 1) := by
    apply h.hash_determines last (by simp) (n + 1) (by omega)
    rw [CanonicalChain.Canonical, hlastHeight] at hlast
    exact hlast
  have hlink := chain.linked n (by omega)
  rw [← hequal, hparent, Option.some_inj] at hlink
  refine ⟨by omega, ?_⟩
  rw [CanonicalChain.Canonical, hn, Int.toNat_natCast]
  exact hlink

/-- **The last header speaks for all.**  The induction takes the last header off. -/
theorem LinkedHeaders.canonical_of_last (headers : List Header) :
    LinkedHeaders chain headers →
      (∀ last ∈ headers.getLast?, last.blockHeight ≤ chain.head ∧ chain.Canonical last) →
      ∀ header ∈ headers, chain.Canonical header := by
  induction headers using List.reverseRecOn with
  | nil =>
    intro _ _ header hheader
    exact absurd hheader List.not_mem_nil
  | append_singleton front last ih =>
    intro h hlast header hheader
    obtain ⟨hhead, hcanonical⟩ := hlast last (by simp)
    rcases List.mem_append.mp hheader with hfront | hsingle
    · apply ih h.front _ header hfront
      intro before hbefore
      obtain ⟨front', rfl⟩ := List.getLast?_eq_some_iff.mp hbefore
      exact h.canonical_before hhead hcanonical
    · rw [List.mem_singleton.mp hsingle]
      exact hcanonical

/-- Links that hold are not found broken. -/
theorem LinkedHeaders.not_broken {headers : List Header} (h : LinkedHeaders chain headers) :
    lastLinkBroken headers = none := by
  rw [lastLinkBroken]
  by_cases hlen : headers.length ≤ 2
  · rw [if_pos hlen]
  · have hadjacent := List.isChain_iff_getElem.mp h.linked (headers.length - 2) (by omega)
    have hindex : headers.length - 2 + 1 = headers.length - 1 := by omega
    have hindex' : headers.length - 1 - 1 = headers.length - 2 := by omega
    simp only [if_neg hlen, hindex', List.getElem?_eq_getElem (show headers.length - 1 <
      headers.length by omega), List.getElem?_eq_getElem (show headers.length - 2 <
      headers.length by omega)]
    simp only [hindex] at hadjacent
    simp [hadjacent]

end Linked

/-- The first call, over a node that has the header of the last height. -/
theorem hasForked_first (node : Node) (headers : List Header) (check : Header)
    (hcheck : ∀ last ∈ headers.getLast?, node.getHeaderForHeight last.blockHeight = .ok check) :
    (hasForked node { unfinalizedBlocks := headers }).1 =
      .ok (if ∃ last ∈ headers.getLast?, last.blockHash ≠ check.blockHash then some check
        else lastLinkBroken headers) ∧
    (hasForked node { unfinalizedBlocks := headers }).2.1 =
      { startupCheck := false, unfinalizedBlocks := headers } := by
  cases hlast : headers.getLast? with
  | none => simp [hasForked, hlast]
  | some last =>
    have hlookup := hcheck last hlast
    by_cases hsame : last.blockHash = check.blockHash
    · simp [hasForked, hlast, hlookup, hsame]
    · simp [hasForked, hlast, hlookup, hsame]

/-- A call after the first one asks for nothing. -/
theorem hasForked_later (node : Node) (headers : List Header) :
    hasForked node { startupCheck := false, unfinalizedBlocks := headers } =
      (.ok (lastLinkBroken headers), { startupCheck := false, unfinalizedBlocks := headers }, []) :=
  rfl

/-- **Checking one hash at startup is enough.**  The first call finds nothing exactly when every
cached header is on the chain, and gives the chain's header at the last height otherwise; a second
call on the same headers finds nothing and asks for nothing. -/
theorem hasForked_startup (node : Node) (chain : CanonicalChain) (hserves : node.Serves chain)
    (cached : List Header) (hlinked : LinkedHeaders chain cached)
    (hhead : ∀ last ∈ cached.getLast?, last.blockHeight ≤ chain.head) :
    let first := hasForked node { unfinalizedBlocks := cached }
    (first.1 = .ok none ↔ ∀ header ∈ cached, chain.Canonical header) ∧
    ((¬ ∀ header ∈ cached, chain.Canonical header) → ∃ last ∈ cached.getLast?,
      first.1 = .ok (some (chain.header last.blockHeight.toNat))) ∧
    first.2.1.unfinalizedBlocks = cached ∧
    hasForked node first.2.1 = (.ok none, first.2.1, []) := by
  intro first
  have hbroken := hlinked.not_broken
  cases hlast : cached.getLast? with
  | none =>
    have hnil : cached = [] := List.getLast?_eq_none_iff.mp hlast
    subst hnil
    refine ⟨?_, ?_, rfl, rfl⟩
    · exact iff_of_true rfl fun header hheader => absurd hheader List.not_mem_nil
    · intro hnot
      exact absurd (fun header hheader => absurd hheader List.not_mem_nil) hnot
  | some last =>
    have hmem : last ∈ cached := List.mem_of_getLast? hlast
    have hheight : last.blockHeight = last.blockHeight.toNat :=
      (Int.toNat_of_nonneg (hlinked.nonneg last hmem)).symm
    have hbound : last.blockHeight.toNat ≤ chain.head := by
      have := hhead last hlast
      omega
    have hcheck : ∀ last' ∈ cached.getLast?,
        node.getHeaderForHeight last'.blockHeight =
          .ok (chain.header last.blockHeight.toNat) := by
      intro last' hlast'
      rw [hlast, Option.mem_some_iff] at hlast'
      rw [← hlast', hheight]
      exact hserves.byHeight _ hbound
    obtain ⟨hresult, hservice⟩ := hasForked_first node cached _ hcheck
    have hcanonical : (∀ header ∈ cached, chain.Canonical header) ↔
        last.blockHash = (chain.header last.blockHeight.toNat).blockHash := by
      constructor
      · intro hall
        exact hall last hmem
      · intro hsame
        apply hlinked.canonical_of_last
        intro last' hlast'
        rw [hlast, Option.mem_some_iff] at hlast'
        rw [← hlast']
        exact ⟨by omega, hsame⟩
    have hfirst : first.1 = .ok (if last.blockHash ≠
        (chain.header last.blockHeight.toNat).blockHash then
          some (chain.header last.blockHeight.toNat) else none) := by
      simpa [hlast, hbroken] using hresult
    refine ⟨?_, ?_, ?_, ?_⟩
    · rw [hfirst, hcanonical]
      simp
    · intro hnot
      rw [hcanonical] at hnot
      exact ⟨last, rfl, by rw [hfirst, if_pos hnot]⟩
    · exact congrArg UnfinalizedBlocksService.unfinalizedBlocks hservice
    · have hstate : first.2.1 = { startupCheck := false, unfinalizedBlocks := cached } := hservice
      rw [hstate, hasForked_later, hbroken]

theorem sampleCached_linked : LinkedHeaders sampleChain sampleCached where
  consecutive := sampleCached_cached.consecutive
  nonneg := sampleCached_cached.nonneg
  linked := by
    simp [sampleCached, sampleChain_header]
  hash_determines := sampleCached_cached.hash_unique

/-- The forked headers of the sample are noticed at the last of them. -/
theorem hasForked_sample :
    ∃ last ∈ sampleCached.getLast?,
      (hasForked sampleNode { unfinalizedBlocks := sampleCached }).1 =
        .ok (some (sampleChain.header last.blockHeight.toNat)) := by
  have hstartup := hasForked_startup sampleNode sampleChain sampleNode_serves sampleCached
    sampleCached_linked (by simp [sampleCached, sampleChain])
  apply hstartup.2.1
  intro hall
  have hforked := hall { blockHeight := 4, blockHash := "y", parentHash := some "x" }
    (by simp [sampleCached])
  exact absurd hforked (by simp [CanonicalChain.Canonical, sampleChain_header, sampleHash])

/-! ### The rewind without a proof of index -/

/-- Every request for a proof of index fails with the message that there is none. -/
def PoiDisabled (node : Node) : Prop :=
  ∀ header, ∃ e, node.findFinalizedUsingPOI header = .error e ∧ e.message = node.poiNotEnabled

/-- In a consecutive list the first header is the lowest. -/
theorem head_lowest (headers : List Header)
    (hconsecutive : headers.IsChain fun a b => b.blockHeight = a.blockHeight + 1) :
    ∀ first ∈ headers.head?, ∀ header ∈ headers, first.blockHeight ≤ header.blockHeight := by
  have hascending : headers.IsChain fun a b => a.blockHeight ≤ b.blockHeight :=
    hconsecutive.imp fun a b h => by omega
  have htrans : IsTrans Header fun a b => a.blockHeight ≤ b.blockHeight :=
    ⟨fun _ _ _ => le_trans⟩
  have hpairwise := List.isChain_iff_pairwise.mp hascending
  intro first hfirst header hheader
  cases headers with
  | nil => exact absurd hheader List.not_mem_nil
  | cons lowest rest =>
    have hlowest : lowest = first := by simpa using hfirst
    subst hlowest
    rcases List.mem_cons.mp hheader with h | h
    · rw [h]
    · exact (List.pairwise_cons.mp hpairwise).1 header h

/-- Without a proof of index the fallback is the chain's header at the configured distance below
the fork, or at height zero. -/
theorem fallback_reindex (node : Node) (chain : CanonicalChain) (hserves : node.Serves chain)
    (hpoi : PoiDisabled node) (hreindex : 0 ≤ node.blockForkReindex) (F : ℕ) (hF : F ≤ chain.head)
    (asked : List Ask) (checkingHeader : Header) :
    ∃ result, (fallback node asked (chain.header F) checkingHeader).1 = .ok (some result) ∧
      result.blockHeight = max 0 (F - node.blockForkReindex) := by
  obtain ⟨e, he, hmessage⟩ := hpoi checkingHeader
  have hheight : max 0 ((chain.header F).blockHeight - node.blockForkReindex) =
      ((max 0 (F - node.blockForkReindex)).toNat : ℤ) := by
    rw [chain.height_eq F hF]
    omega
  have hbound : (max 0 (F - node.blockForkReindex)).toNat ≤ chain.head := by omega
  refine ⟨chain.header (max 0 (F - node.blockForkReindex)).toNat, ?_, ?_⟩
  · simp only [fallback, he, if_pos hmessage, hheight, hserves.byHeight _ hbound]
    rfl
  · rw [chain.height_eq _ hbound]
    omega

/-- **When the rewind without a proof of index goes below everything rejected.**  Let the search
find none of the cached headers below the fork on the chain.  The header returned is at height zero
or below all of them exactly when the configured distance reaches height zero or below the first
cached header, or when no cached header is below the fork. -/
theorem getLastCorrectFinalizedBlock_reindex_iff (node : Node) (chain : CanonicalChain)
    (hserves : node.Serves chain) (hpoi : PoiDisabled node)
    (hreindex : 0 ≤ node.blockForkReindex) (cached : List Header)
    (hconsecutive : cached.IsChain fun a b => b.blockHeight = a.blockHeight + 1)
    (F : ℕ) (hF : F ≤ chain.head) (checkingHeader : Header) (asked : List Ask)
    (hsearch : searchLoop node [] (below cached F).reverse (chain.header F) =
      (.ok (.exhausted checkingHeader), asked)) :
    ∃ result, (getLastCorrectFinalizedBlock node cached (chain.header F)).1 = .ok (some result) ∧
      ((result.blockHeight = 0 ∨ ∀ header ∈ below cached F,
          result.blockHeight < header.blockHeight) ↔
        F ≤ node.blockForkReindex ∨ ∀ first ∈ cached.head?, first.blockHeight < F →
          F - node.blockForkReindex < first.blockHeight) := by
  obtain ⟨result, hfallback, hheight⟩ :=
    fallback_reindex node chain hserves hpoi hreindex F hF asked checkingHeader
  have hfilter : cached.filter
      (fun header => header.blockHeight < (chain.header F).blockHeight) = below cached F := by
    rw [chain.height_eq F hF]
    rfl
  refine ⟨result, ?_, ?_⟩
  · simp only [getLastCorrectFinalizedBlock, hfilter, hsearch, hfallback]
  · rw [hheight]
    constructor
    · intro h
      rcases h with hzero | hbelow
      · left
        omega
      · right
        intro first hfirst hlt
        have hmem : first ∈ below cached F := by
          rw [below, List.mem_filter]
          exact ⟨List.mem_of_head? hfirst, by simpa using hlt⟩
        have := hbelow first hmem
        omega
    · intro h
      rcases h with hall | hfirst
      · left
        omega
      · by_cases hall : F ≤ node.blockForkReindex
        · left
          omega
        · right
          intro header hheader
          rw [below, List.mem_filter] at hheader
          obtain ⟨hcached, hlt⟩ := hheader
          have hlt : header.blockHeight < F := by simpa using hlt
          cases hhead : cached.head? with
          | none =>
            rw [List.head?_eq_none_iff.mp hhead] at hcached
            exact absurd hcached List.not_mem_nil
          | some first =>
            have hlow := head_lowest cached hconsecutive first hhead header hcached
            have hdistance := hfirst first hhead (by omega)
            omega

/-- The sample node with a short distance to rewind. -/
def shortNode : Node := { sampleNode with blockForkReindex := 1 }

theorem shortNode_serves : shortNode.Serves sampleChain where
  byHeight := sampleNode_serves.byHeight
  byHash := sampleNode_serves.byHash

theorem shortNode_poiDisabled : PoiDisabled shortNode := fun _ => ⟨_, rfl, rfl⟩

/-- The two headers of the sample that were forked away. -/
def orphanedCached : List Header :=
  [{ blockHeight := 3, blockHash := "x", parentHash := some (sampleHash 2) },
    { blockHeight := 4, blockHash := "y", parentHash := some "x" }]

/-- **The rewind stops at a block known to be orphaned**: both cached headers are rejected, at
heights 3 and 4, and the header returned is at height 4. -/
theorem getLastCorrectFinalizedBlock_stops_short :
    (shortNode.Serves sampleChain ∧ PoiDisabled shortNode ∧ 0 ≤ shortNode.blockForkReindex ∧
      orphanedCached.IsChain fun a b => b.blockHeight = a.blockHeight + 1) ∧
    (∃ checkingHeader asked, searchLoop shortNode [] (below orphanedCached 5).reverse
      (sampleChain.header 5) = (.ok (.exhausted checkingHeader), asked)) ∧
    ∃ result, (getLastCorrectFinalizedBlock shortNode orphanedCached
        (sampleChain.header 5)).1 = .ok (some result) ∧
      ¬ (result.blockHeight = 0 ∨ ∀ header ∈ below orphanedCached 5,
        result.blockHeight < header.blockHeight) := by
  refine ⟨⟨shortNode_serves, shortNode_poiDisabled, by decide, by simp [orphanedCached]⟩,
    ⟨_, _, rfl⟩, sampleChain.header 4, rfl, ?_⟩
  decide

/-- The orphaned headers of the sample, with the condition as it stands. -/
theorem getLastCorrectFinalizedBlock_reindex_sample :
    ∃ result, (getLastCorrectFinalizedBlock shortNode orphanedCached
        (sampleChain.header 5)).1 = .ok (some result) ∧
      ((result.blockHeight = 0 ∨ ∀ header ∈ below orphanedCached 5,
          result.blockHeight < header.blockHeight) ↔
        5 ≤ shortNode.blockForkReindex ∨ ∀ first ∈ orphanedCached.head?, first.blockHeight < 5 →
          5 - shortNode.blockForkReindex < first.blockHeight) :=
  getLastCorrectFinalizedBlock_reindex_iff shortNode sampleChain shortNode_serves
    shortNode_poiDisabled (by decide) orphanedCached (by simp [orphanedCached]) 5 (le_refl 5) _ _
    rfl

end SubqlEthereum.StartupCheck
