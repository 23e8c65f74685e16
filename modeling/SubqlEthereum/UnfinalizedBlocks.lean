import Mathlib.Data.List.Chain
import SubqlEthereum.Ethereum.Format
import SubqlEthereum.Library.Fallible
import SubqlEthereum.Strings

/-!
# Finding the block to rewind to

`getLastCorrectFinalizedBlock` of `unfinalizedBlocks.service.ts`.  After a fork the cached
unfinalized headers are walked downwards, in step with the parents of the header the fork was
seen at.  A parent is looked up by its hash and, when that throws, by its height.  When no
cached header fits, the search falls back to the proof of index and, without one, to a fixed
number of blocks.

The lookups of a node may answer differently each time, so a lookup by hash is given what was
asked before.  The search returns its result with everything it asked for, errors included.
-/

namespace SubqlEthereum.UnfinalizedBlocks

open SubqlEthereum.External SubqlEthereum.Strings SubqlEthereum.Fallible
open SubqlEthereum.Blocks (BlockHeader)
open SubqlEthereum.Ethereum (Header ethereumBlockToHeader)

/-! ### The search -/

/-- A request for a header. -/
inductive Ask
  | hash (hash : String)
  | height (height : ℤ)
deriving DecidableEq, Repr

/-- What the service is built on; `poiNotEnabled` is the message of the base class for a project
without a proof of index. -/
structure Node where
  getHeaderForHash : List Ask → String → Except JsError Header
  getHeaderForHeight : ℤ → Except JsError Header
  findFinalizedUsingPOI : Header → Except JsError (Option Header)
  poiNotEnabled : String
  blockForkReindex : ℤ

/-- The error the search throws by itself, and those it passes on. -/
inductive SearchError
  | noParentHash
  | api (e : JsError)

def SearchError.message : SearchError → String
  | .noParentHash => "Unable to get parent hash for header"
  | .api e => e.message

/-- How the walk over the cached headers ends. -/
inductive SearchResult
  | found (header : Header)
  | exhausted (checkingHeader : Header)

/-- The parent of a header, by hash or else by height, with what was asked. -/
def getParent (node : Node) (asked : List Ask) (checkingHeader : Header) (parentHash : String) :
    Except SearchError Header × List Ask :=
  match node.getHeaderForHash asked parentHash with
  | .ok parent => (.ok parent, asked ++ [.hash parentHash])
  | .error _ =>
    -- parent block not found on chain (orphaned), fall back to height-based check
    let parentHeight := checkingHeader.blockHeight - 1
    ((node.getHeaderForHeight parentHeight).mapError .api,
      asked ++ [.hash parentHash, .height parentHeight])

/-- Works backwards through the blocks until a matching hash is found. -/
def searchLoop (node : Node) :
    List Ask → List Header → Header → Except SearchError SearchResult × List Ask
  | asked, [], checkingHeader => (.ok (.exhausted checkingHeader), asked)
  | asked, header :: rest, checkingHeader =>
    if header.blockHash = checkingHeader.blockHash ∨
        some header.blockHash = checkingHeader.parentHash then
      (.ok (.found header), asked)
    else
      match truthy checkingHeader.parentHash with
      | none => (.error .noParentHash, asked)
      | some parentHash =>
        match getParent node asked checkingHeader parentHash with
        | (.ok parent, asked) => searchLoop node asked rest parent
        | (.error e, asked) => (.error e, asked)

/-- The proof of index, or else the configured number of blocks below the fork. -/
def fallback (node : Node) (asked : List Ask) (forkedHeader checkingHeader : Header) :
    Except SearchError (Option Header) × List Ask :=
  match node.findFinalizedUsingPOI checkingHeader with
  | .ok poiHeader => (.ok poiHeader, asked)
  | .error e =>
    if e.message = node.poiNotEnabled then
      let height := max 0 (forkedHeader.blockHeight - node.blockForkReindex)
      (((node.getHeaderForHeight height).map some).mapError .api, asked ++ [.height height])
    else (.error (.api e), asked)

def getLastCorrectFinalizedBlock (node : Node) (unfinalizedBlocks : List Header)
    (forkedHeader : Header) : Except SearchError (Option Header) × List Ask :=
  let bestVerifiableBlocks :=
    unfinalizedBlocks.filter fun header => header.blockHeight < forkedHeader.blockHeight
  match searchLoop node [] bestVerifiableBlocks.reverse forkedHeader with
  | (.ok (.found header), asked) => (.ok (some header), asked)
  | (.ok (.exhausted checkingHeader), asked) => fallback node asked forkedHeader checkingHeader
  | (.error e, asked) => (.error e, asked)

/-! ### The chain and its node -/

/-- A canonical chain up to `head`, linked by hash. -/
structure CanonicalChain where
  head : ℕ
  header : ℕ → Header
  height_eq : ∀ n ≤ head, (header n).blockHeight = n
  hash_nonempty : ∀ n ≤ head, (header n).blockHash ≠ ""
  linked : ∀ n < head, (header (n + 1)).parentHash = some (header n).blockHash

/-- A node of the chain: by height it gives the header of the chain, and by hash the header of the
chain with that hash, unless it throws. -/
structure Node.Serves (node : Node) (chain : CanonicalChain) : Prop where
  byHeight : ∀ n ≤ chain.head, node.getHeaderForHeight n = .ok (chain.header n)
  byHash : ∀ asked hash header, node.getHeaderForHash asked hash = .ok header →
    ∃ n ≤ chain.head, header = chain.header n ∧ header.blockHash = hash

/-- A header is on the chain: its hash is that of the chain at its height. -/
def CanonicalChain.Canonical (chain : CanonicalChain) (header : Header) : Prop :=
  header.blockHash = (chain.header header.blockHeight.toNat).blockHash

/-- Cached headers with consecutive ascending heights, none negative, no two of them or of the
chain sharing a hash. -/
structure CachedHeaders (chain : CanonicalChain) (headers : List Header) : Prop where
  consecutive : headers.IsChain fun a b => b.blockHeight = a.blockHeight + 1
  nonneg : ∀ header ∈ headers, 0 ≤ header.blockHeight
  hash_unique : ∀ header ∈ headers, ∀ n ≤ chain.head,
    header.blockHash = (chain.header n).blockHash → header = chain.header n
  chain_hash_unique : ∀ m ≤ chain.head, ∀ n ≤ chain.head,
    (chain.header m).blockHash = (chain.header n).blockHash → m = n

/-! ### The node of a client -/

/-- The client's `getBlock`, which answers `null` for a block it does not have. -/
structure Client where
  getBlockByHash : List Ask → String → Except JsError (Option BlockHeader)
  getBlockByHeight : ℤ → Except JsError (Option BlockHeader)

/-- `ethereumBlockToHeader` of an answer. -/
def answerToHeader : Option BlockHeader → Except JsError Header
  | some block => .ok (ethereumBlockToHeader block)
  | none => .error { name := "TypeError",
                     message := "Cannot read properties of null (reading 'number')" }

/-- The two lookups of `blockchain.service.ts` over a client, with the rest of a node. -/
def Client.node (client : Client)
    (findFinalizedUsingPOI : Header → Except JsError (Option Header)) (poiNotEnabled : String)
    (blockForkReindex : ℤ) : Node where
  getHeaderForHash asked hash := client.getBlockByHash asked hash >>= answerToHeader
  getHeaderForHeight height := client.getBlockByHeight height >>= answerToHeader
  findFinalizedUsingPOI := findFinalizedUsingPOI
  poiNotEnabled := poiNotEnabled
  blockForkReindex := blockForkReindex

/-- **A client of a chain of blocks makes a node of the chain of their headers.** -/
theorem Client.serves (client : Client) {findFinalizedUsingPOI poiNotEnabled blockForkReindex}
    (chain : CanonicalChain) (blocks : ℕ → BlockHeader)
    (hchain : ∀ n, chain.header n = ethereumBlockToHeader (blocks n))
    (hheight : ∀ n ≤ chain.head, client.getBlockByHeight n = .ok (some (blocks n)))
    (hhash : ∀ asked hash block, client.getBlockByHash asked hash = .ok (some block) →
      ∃ n ≤ chain.head, block = blocks n ∧ block.hash = hash) :
    (client.node findFinalizedUsingPOI poiNotEnabled blockForkReindex).Serves chain where
  byHeight := by
    intro n hn
    show client.getBlockByHeight n >>= answerToHeader = .ok (chain.header n)
    rw [hheight n hn, hchain]
    rfl
  byHash := by
    intro asked hash header hlookup
    obtain ⟨answer, hanswer, hheader⟩ := ok_of_bind_ok hlookup
    cases answer with
    | none => exact absurd hheader (by simp [answerToHeader])
    | some block =>
      obtain ⟨n, hn, hblock, hmatch⟩ := hhash asked hash block hanswer
      have hheader : ethereumBlockToHeader block = header := Except.ok.inj hheader
      refine ⟨n, hn, ?_, ?_⟩
      · rw [← hheader, hblock, hchain]
      · rw [← hheader]
        exact hmatch

/-! ### Walking down in step -/

/-- Headers at the heights below `k`, one at each, from the top. -/
def Descends : ℕ → List Header → Prop
  | _, [] => True
  | k, header :: rest => ∃ j, k = j + 1 ∧ header.blockHeight = j ∧ Descends j rest

theorem Descends.lt : ∀ (k : ℕ) (headers : List Header), Descends k headers →
    ∀ header ∈ headers, header.blockHeight < k
  | _, [], _, _, hmem => absurd hmem List.not_mem_nil
  | k, first :: rest, hdesc, header, hmem => by
    obtain ⟨j, hk, hfirst, hrest⟩ := hdesc
    rcases List.mem_cons.mp hmem with h | h
    · rw [h, hfirst, hk]
      omega
    · have hlt := Descends.lt j rest hrest header h
      omega

/-- In a consecutive list every header is below the last. -/
theorem lt_last (front : List Header) (last : Header)
    (hconsecutive : (front ++ [last]).IsChain fun a b => b.blockHeight = a.blockHeight + 1) :
    ∀ header ∈ front, header.blockHeight < last.blockHeight := by
  have hascending : (front ++ [last]).IsChain fun a b => a.blockHeight < b.blockHeight :=
    hconsecutive.imp fun a b h => by omega
  have htrans : IsTrans Header fun a b => a.blockHeight < b.blockHeight :=
    ⟨fun _ _ _ => lt_trans⟩
  have hpairwise := List.isChain_iff_pairwise.mp hascending
  intro header hheader
  exact (List.pairwise_append.mp hpairwise).2.2 header hheader last (by simp)

/-- The cached headers below a height that is at most one above the last, from the top. -/
theorem descends_below (headers : List Header)
    (hconsecutive : headers.IsChain fun a b => b.blockHeight = a.blockHeight + 1)
    (hnonneg : ∀ header ∈ headers, 0 ≤ header.blockHeight) :
    ∀ k : ℕ, (∀ last ∈ headers.getLast?, (k : ℤ) ≤ last.blockHeight + 1) →
      Descends k (headers.filter fun header => header.blockHeight < (k : ℤ)).reverse := by
  induction headers using List.reverseRecOn with
  | nil =>
    intro k hlast
    exact trivial
  | append_singleton front last ih =>
    intro k hlast
    have hk : (k : ℤ) ≤ last.blockHeight + 1 := hlast last (by simp)
    have hlast0 : 0 ≤ last.blockHeight := hnonneg last (by simp)
    obtain ⟨hfront, -, hstep⟩ := List.isChain_append.mp hconsecutive
    have hih := ih hfront fun header hheader => hnonneg header (List.mem_append_left _ hheader)
    -- the header before the last is one below it
    have hbefore : ∀ before ∈ front.getLast?, last.blockHeight = before.blockHeight + 1 := by
      intro before hbefore
      exact hstep before hbefore last (by simp)
    rw [List.filter_append, List.reverse_append]
    by_cases hlt : last.blockHeight < k
    · obtain ⟨j, hj⟩ := Int.eq_ofNat_of_zero_le hlast0
      have hkj : k = j + 1 := by omega
      have hdesc := hih j fun before hb => by
        have := hbefore before hb
        omega
      have hfilter : front.filter (fun header => header.blockHeight < (k : ℤ)) =
          front.filter fun header => header.blockHeight < (j : ℤ) := by
        apply List.filter_congr
        intro header hheader
        have hbelow := lt_last front last hconsecutive header hheader
        have hleft : header.blockHeight < (k : ℤ) := by omega
        have hright : header.blockHeight < (j : ℤ) := by omega
        simp only [hleft, hright]
      have hsingle : [last].filter (fun header => header.blockHeight < (k : ℤ)) = [last] := by
        simp [hlt]
      rw [hsingle, hfilter]
      exact ⟨j, hkj, hj, hdesc⟩
    · have hnone : [last].filter (fun header => header.blockHeight < (k : ℤ)) = [] := by
        simp [hlt]
      rw [hnone]
      exact hih k fun before hb => by
        have := hbefore before hb
        omega

/-! ### The search finds the highest surviving block -/

/-- An ask for a height is for one that is not negative. -/
def Ask.Grounded (ask : Ask) : Prop :=
  ∀ height, ask = .height height → 0 ≤ height

section Search

variable {node : Node} {chain : CanonicalChain}

/-- By hash or by height, the parent of a header of the chain is the header below it. -/
theorem getParent_spec (hserves : node.Serves chain)
    (hunique : ∀ m ≤ chain.head, ∀ n ≤ chain.head,
      (chain.header m).blockHash = (chain.header n).blockHash → m = n)
    (j : ℕ) (hj : j + 1 ≤ chain.head) (asked : List Ask) (hasked : ∀ ask ∈ asked, ask.Grounded) :
    ∃ asked', getParent node asked (chain.header (j + 1)) (chain.header j).blockHash =
        (.ok (chain.header j), asked') ∧
      ∀ ask ∈ asked', ask.Grounded := by
  have hgrounded : ∀ (more : List Ask), (∀ ask ∈ more, ask.Grounded) →
      ∀ ask ∈ asked ++ more, ask.Grounded := by
    intro more hmore ask hask
    rcases List.mem_append.mp hask with h | h
    · exact hasked ask h
    · exact hmore ask h
  cases hlookup : node.getHeaderForHash asked (chain.header j).blockHash with
  | ok parent =>
    obtain ⟨n, hn, hparent, hhash⟩ := hserves.byHash _ _ _ hlookup
    have hnj : n = j := hunique n hn j (by omega) (by rw [← hparent, hhash])
    refine ⟨asked ++ [.hash (chain.header j).blockHash], ?_, hgrounded _ ?_⟩
    · simp only [getParent, hlookup]
      rw [hparent, hnj]
    · intro ask hask height hheight
      rw [List.mem_singleton.mp hask] at hheight
      exact absurd hheight (by simp)
  | error e =>
    have hbelow : (chain.header (j + 1)).blockHeight - 1 = (j : ℤ) := by
      have := chain.height_eq (j + 1) hj
      push_cast at this
      omega
    refine ⟨asked ++ [.hash (chain.header j).blockHash, .height j], ?_, hgrounded _ ?_⟩
    · simp only [getParent, hlookup, hbelow]
      rw [hserves.byHeight j (by omega)]
      rfl
    · intro ask hask height hheight
      rcases List.mem_cons.mp hask with h | h
      · exact absurd (h.symm.trans hheight) (by simp)
      · rw [List.mem_singleton.mp h] at hheight
        have : (j : ℤ) = height := Ask.height.inj hheight
        omega

/-- What the walk from height `k` over cached headers settles: the first header of the chain, or
that none is, with the walk then `headers.length` below. -/
def SearchResult.Settles (chain : CanonicalChain) (k : ℕ) (headers : List Header) :
    SearchResult → Prop
  | .found header => header ∈ headers ∧ chain.Canonical header ∧
      ∀ other ∈ headers, chain.Canonical other → other.blockHeight ≤ header.blockHeight
  | .exhausted checkingHeader => (∀ header ∈ headers, ¬ chain.Canonical header) ∧
      checkingHeader = chain.header (k - headers.length)

/-- One step: at `j + 1` of the chain the header at height `j` is accepted exactly when it is on
the chain. -/
theorem accepted_iff (j : ℕ) (hj : j + 1 ≤ chain.head) (header : Header)
    (hheight : header.blockHeight = j)
    (hunique : ∀ n ≤ chain.head, header.blockHash = (chain.header n).blockHash →
      header = chain.header n) :
    (header.blockHash = (chain.header (j + 1)).blockHash ∨
      some header.blockHash = (chain.header (j + 1)).parentHash) ↔ chain.Canonical header := by
  have hcanonical : chain.Canonical header ↔ header.blockHash = (chain.header j).blockHash := by
    rw [CanonicalChain.Canonical, hheight, Int.toNat_natCast]
  rw [chain.linked j (by omega), Option.some_inj, hcanonical]
  constructor
  · intro h
    rcases h with hsame | hparent
    · -- a header of the height below cannot carry the hash of the moving header
      have hequal := hunique (j + 1) hj hsame
      have hheight' := chain.height_eq (j + 1) hj
      rw [← hequal, hheight] at hheight'
      push_cast at hheight'
      omega
    · exact hparent
  · exact Or.inr

theorem truthy_parentHash (j : ℕ) (hj : j + 1 ≤ chain.head) :
    truthy (chain.header (j + 1)).parentHash = some (chain.header j).blockHash := by
  rw [chain.linked j (by omega)]
  have hnonempty := chain.hash_nonempty j (by omega)
  simp [truthy, hnonempty]

/-- **The walk.**  It settles the cached headers, without an error and without asking for a
negative height. -/
theorem searchLoop_spec (hserves : node.Serves chain)
    (hchain : ∀ m ≤ chain.head, ∀ n ≤ chain.head,
      (chain.header m).blockHash = (chain.header n).blockHash → m = n) :
    ∀ (headers : List Header) (k : ℕ) (asked : List Ask), k ≤ chain.head → Descends k headers →
      (∀ header ∈ headers, ∀ n ≤ chain.head,
        header.blockHash = (chain.header n).blockHash → header = chain.header n) →
      (∀ ask ∈ asked, ask.Grounded) →
      ∃ result asked', searchLoop node asked headers (chain.header k) = (.ok result, asked') ∧
        result.Settles chain k headers ∧ ∀ ask ∈ asked', ask.Grounded := by
  intro headers
  induction headers with
  | nil =>
    intro k asked hk hdesc hunique hasked
    refine ⟨.exhausted (chain.header k), asked, rfl, ⟨?_, rfl⟩, hasked⟩
    intro header hheader
    exact absurd hheader List.not_mem_nil
  | cons header rest ih =>
    intro k asked hk hdesc hunique hasked
    obtain ⟨j, hkj, hheight, hrest⟩ := hdesc
    subst hkj
    have haccepted := accepted_iff j hk header hheight (hunique header List.mem_cons_self)
    by_cases hcanonical : chain.Canonical header
    · refine ⟨.found header, asked, ?_, ⟨List.mem_cons_self, hcanonical, ?_⟩, hasked⟩
      · rw [searchLoop, if_pos (haccepted.mpr hcanonical)]
      · intro other hother _
        rcases List.mem_cons.mp hother with h | h
        · rw [h]
        · have := hrest.lt j rest other h
          omega
    · obtain ⟨asked₁, hparent, hasked₁⟩ := getParent_spec hserves hchain j hk asked hasked
      obtain ⟨result, asked₂, hloop, hsettles, hasked₂⟩ := ih j asked₁ (by omega) hrest
        (fun other hother => hunique other (List.mem_cons_of_mem _ hother)) hasked₁
      refine ⟨result, asked₂, ?_, ?_, hasked₂⟩
      · rw [searchLoop, if_neg fun h => hcanonical (haccepted.mp h)]
        simp only [truthy_parentHash j hk, hparent]
        exact hloop
      · -- the first header is not on the chain, so the rest decides
        cases result with
        | found best =>
          obtain ⟨hmem, hbest, hgreatest⟩ := hsettles
          refine ⟨List.mem_cons_of_mem _ hmem, hbest, ?_⟩
          intro other hother hon
          rcases List.mem_cons.mp hother with h | h
          · exact absurd (h ▸ hon) hcanonical
          · exact hgreatest other h hon
        | exhausted checkingHeader =>
          obtain ⟨hnone, hchecking⟩ := hsettles
          refine ⟨?_, ?_⟩
          · intro other hother
            rcases List.mem_cons.mp hother with h | h
            · exact h ▸ hcanonical
            · exact hnone other h
          · rw [hchecking, List.length_cons, Nat.add_sub_add_right]

/-- The fallback asks for no negative height. -/
theorem fallback_grounded (asked : List Ask) (hasked : ∀ ask ∈ asked, ask.Grounded)
    (forkedHeader checkingHeader : Header) :
    ∀ ask ∈ (fallback node asked forkedHeader checkingHeader).2, ask.Grounded := by
  rw [fallback]
  cases node.findFinalizedUsingPOI checkingHeader with
  | ok poiHeader => exact hasked
  | error e =>
    by_cases hmessage : e.message = node.poiNotEnabled
    · simp only [if_pos hmessage]
      intro ask hask height hheight
      rcases List.mem_append.mp hask with h | h
      · exact hasked ask h height hheight
      · rw [List.mem_singleton.mp h] at hheight
        have hmax := Ask.height.inj hheight
        omega
    · simp only [if_neg hmessage]
      exact hasked

/-- The fallback passes errors on and has none of its own. -/
theorem fallback_ne_noParentHash (asked : List Ask) (forkedHeader checkingHeader : Header) :
    (fallback node asked forkedHeader checkingHeader).1 ≠ .error .noParentHash := by
  rw [fallback]
  cases node.findFinalizedUsingPOI checkingHeader with
  | ok poiHeader => simp
  | error e =>
    by_cases hmessage : e.message = node.poiNotEnabled
    · simp only [if_pos hmessage]
      cases node.getHeaderForHeight (max 0 (forkedHeader.blockHeight - node.blockForkReindex)) with
      | ok header => simp [Except.map, Except.mapError]
      | error e => simp [Except.map, Except.mapError]
    · simp [if_neg hmessage]

end Search

/-- The cached headers below a height. -/
def below (unfinalizedBlocks : List Header) (height : ℕ) : List Header :=
  unfinalizedBlocks.filter fun header => header.blockHeight < (height : ℤ)

/-- **Fork search finds the highest surviving block.**  Let the fork be seen at a header of the
chain at most one above the last cached header.  When a cached header below it is on the chain,
the search returns the highest one; when none is, it goes to the fallback from the header of the
chain below all of them.  It never asks for a negative height and never misses a parent hash. -/
theorem getLastCorrectFinalizedBlock_highest (node : Node) (chain : CanonicalChain)
    (hserves : node.Serves chain) (unfinalizedBlocks : List Header)
    (hcached : CachedHeaders chain unfinalizedBlocks) (F : ℕ) (hF : F ≤ chain.head)
    (hlast : ∀ last ∈ unfinalizedBlocks.getLast?, (F : ℤ) ≤ last.blockHeight + 1) :
    let run := getLastCorrectFinalizedBlock node unfinalizedBlocks (chain.header F)
    ((∃ header ∈ below unfinalizedBlocks F, chain.Canonical header) →
      ∃ header ∈ below unfinalizedBlocks F, chain.Canonical header ∧
        (∀ other ∈ below unfinalizedBlocks F, chain.Canonical other →
          other.blockHeight ≤ header.blockHeight) ∧
        run.1 = .ok (some header)) ∧
    ((∀ header ∈ below unfinalizedBlocks F, ¬ chain.Canonical header) →
      ∃ asked, run = fallback node asked (chain.header F)
        (chain.header (F - (below unfinalizedBlocks F).length))) ∧
    (∀ ask ∈ run.2, ask.Grounded) ∧
    run.1 ≠ .error .noParentHash := by
  intro run
  have hdesc : Descends F (below unfinalizedBlocks F).reverse :=
    descends_below unfinalizedBlocks hcached.consecutive hcached.nonneg F hlast
  have hmem : ∀ header, header ∈ (below unfinalizedBlocks F).reverse ↔
      header ∈ below unfinalizedBlocks F := fun _ => List.mem_reverse
  obtain ⟨result, asked, hloop, hsettles, hasked⟩ :=
    searchLoop_spec hserves hcached.chain_hash_unique (below unfinalizedBlocks F).reverse F []
      hF hdesc
      (fun header hheader => hcached.hash_unique header
        (List.mem_of_mem_filter ((hmem header).mp hheader)))
      (fun ask hask => absurd hask List.not_mem_nil)
  have hfilter : unfinalizedBlocks.filter
      (fun header => header.blockHeight < (chain.header F).blockHeight) =
      below unfinalizedBlocks F := by
    rw [chain.height_eq F hF]
    rfl
  have hrun : run = getLastCorrectFinalizedBlock node unfinalizedBlocks (chain.header F) := rfl
  rw [getLastCorrectFinalizedBlock] at hrun
  simp only [hfilter, hloop] at hrun
  cases result with
  | found header =>
    obtain ⟨hheader, hcanonical, hgreatest⟩ := hsettles
    simp only at hrun
    refine ⟨fun _ => ⟨header, (hmem header).mp hheader, hcanonical, ?_, ?_⟩, ?_, ?_, ?_⟩
    · intro other hother hon
      exact hgreatest other ((hmem other).mpr hother) hon
    · rw [hrun]
    · intro hnone
      exact absurd hcanonical (hnone header ((hmem header).mp hheader))
    · rw [hrun]
      exact hasked
    · rw [hrun]
      simp
  | exhausted checkingHeader =>
    obtain ⟨hnone, hchecking⟩ := hsettles
    rw [List.length_reverse] at hchecking
    simp only at hrun
    refine ⟨?_, fun _ => ⟨asked, ?_⟩, ?_, ?_⟩
    · intro hsome
      obtain ⟨header, hheader, hcanonical⟩ := hsome
      exact absurd hcanonical (hnone header ((hmem header).mpr hheader))
    · rw [hrun, hchecking]
    · rw [hrun]
      exact fallback_grounded asked hasked (chain.header F) checkingHeader
    · rw [hrun]
      exact fallback_ne_noParentHash asked (chain.header F) checkingHeader

/-! ### A fork two blocks deep -/

/-- The hash of a block of the sample chain. -/
def sampleHash (n : ℕ) : String :=
  String.ofList ('c' :: List.replicate n 'c')

theorem sampleHash_injective (m n : ℕ) (h : sampleHash m = sampleHash n) : m = n := by
  have hlength := congrArg (fun hash => hash.toList.length) h
  simpa [sampleHash] using hlength

def sampleBlock (n : ℕ) : BlockHeader where
  hash := sampleHash n
  parentHash := if n = 0 then "0x00" else sampleHash (n - 1)
  number := n

def sampleChain : CanonicalChain where
  head := 5
  header n := ethereumBlockToHeader (sampleBlock n)
  height_eq _ _ := rfl
  hash_nonempty n _ := by
    intro h
    have hlist := congrArg String.toList h
    simp [ethereumBlockToHeader, sampleBlock, sampleHash] at hlist
  linked _ _ := rfl

theorem sampleChain_header (n : ℕ) : sampleChain.header n =
    { blockHeight := n, blockHash := sampleHash n,
      parentHash := some (if n = 0 then "0x00" else sampleHash (n - 1)) } := rfl

/-- A client of the sample chain that does not find the first hash it is asked for. -/
def sampleClient : Client where
  getBlockByHash asked hash :=
    .ok (((List.range 6).find? fun n => asked ≠ [] ∧ sampleHash n = hash).map sampleBlock)
  getBlockByHeight height := .ok (some (sampleBlock height.toNat))

def sampleNode : Node :=
  sampleClient.node (fun _ => .error { message := "POI not enabled" }) "POI not enabled" 1000

theorem sampleNode_serves : sampleNode.Serves sampleChain := by
  apply sampleClient.serves sampleChain sampleBlock
  · exact fun _ => rfl
  · exact fun _ _ => rfl
  · intro asked hash block hanswer
    obtain ⟨n, hfind, rfl⟩ := Option.map_eq_some_iff.mp (Except.ok.inj hanswer)
    have hmem := List.mem_range.mp (List.mem_of_find?_eq_some hfind)
    have hfound := List.find?_some hfind
    rw [decide_eq_true_iff] at hfound
    refine ⟨n, ?_, rfl, hfound.2⟩
    show n ≤ 5
    omega

/-- Two headers of the chain and two that were forked away. -/
def sampleCached : List Header :=
  [sampleChain.header 1, sampleChain.header 2,
    { blockHeight := 3, blockHash := "x", parentHash := some (sampleHash 2) },
    { blockHeight := 4, blockHash := "y", parentHash := some "x" }]

theorem sampleCached_cached : CachedHeaders sampleChain sampleCached where
  consecutive := by
    simp [sampleCached, sampleChain_header]
  nonneg := by
    simp [sampleCached, sampleChain_header]
  hash_unique := by
    have hforked : ∀ (c : Char) (n : ℕ), c ≠ 'c' → String.ofList [c] ≠ sampleHash n := by
      intro c n hc h
      have hlist := congrArg (fun hash => hash.toList.head?) h
      simp only [sampleHash, String.toList_ofList, List.head?_cons, Option.some_inj] at hlist
      exact hc hlist
    intro header hheader n _ hhash
    have hcanonical : (sampleChain.header n).blockHash = sampleHash n := rfl
    rw [hcanonical] at hhash
    simp only [sampleCached, List.mem_cons, List.not_mem_nil, or_false] at hheader
    rcases hheader with h | h | h | h
    · rw [h, sampleHash_injective 1 n (by rw [← hhash, h]; rfl)]
    · rw [h, sampleHash_injective 2 n (by rw [← hhash, h]; rfl)]
    · rw [h] at hhash
      exact absurd hhash (hforked 'x' n (by decide))
    · rw [h] at hhash
      exact absurd hhash (hforked 'y' n (by decide))
  chain_hash_unique := by
    intro m _ n _ h
    exact sampleHash_injective m n h

theorem sampleFork_highest :
    ∃ header ∈ below sampleCached 5, sampleChain.Canonical header ∧
      (getLastCorrectFinalizedBlock sampleNode sampleCached (sampleChain.header 5)).1 =
        .ok (some header) := by
  have hhighest := getLastCorrectFinalizedBlock_highest sampleNode sampleChain sampleNode_serves
    sampleCached sampleCached_cached 5 (le_refl 5) (by simp [sampleCached])
  obtain ⟨header, hheader, hcanonical, _, hrun⟩ :=
    hhighest.1 ⟨sampleChain.header 2, by simp [below, sampleCached, sampleChain_header], rfl⟩
  exact ⟨header, hheader, hcanonical, hrun⟩

end SubqlEthereum.UnfinalizedBlocks
