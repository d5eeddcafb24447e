import Soqucoin.ChainProofs
import Soqucoin.FlowProofs

/-! # Tracked outpoints across a reorganisation

`ConnectBlock` moves the tracked outpoint along the authority transactions it has verified;
`DisconnectBlock` does not know which ones these were.  It takes the first authority transaction
of the block and the first of its inputs whose coin is a marker, and is right exactly when that
input spends the outpoint tracked before (`outpoints_restored_iff`). -/

namespace Soqucoin

open CheckedLoop

variable {q : CTransaction × CTxUndo} {vtx : List CTransaction} {isMarker : CScript → Bool}

section Outpoint

variable {env : Env} {params : CChainParams} {idx : CBlockIndex} {io : NodeIO}
variable {a : Assets} {view : CoinsView} {block : CBlock} {fp : FirstPass} {p : Pending}
variable {c : AssetCtx} {dbMinted : Finset COutPoint}

/-! ## Blocks without authority transactions -/

/-- Only an authority transaction moves the pending outpoint. -/
theorem usdsoqTx_pendingOutpoint {s t : AssetPass}
    (hauth : isAuthorityTx isUSDSOQAuthorityMarker q.1 = false)
    (h : usdsoqTx env c s (undoPair q) = .ok t) : t.pendingOutpoint = s.pendingOutpoint := by
  cases hcb : q.1.isCoinBase with
  | true => rw [usdsoqTx_coinbase hcb h]
  | false =>
    rw [isAuthorityTx, hcb, Bool.not_false, Bool.true_and] at hauth
    obtain ⟨s₁, hstep, -, hpending⟩ := (usdsoqTx_turn hcb h).authority
    rw [hpending, usdsoqAuthorityStep_unmarked hauth hstep]

/-- The same of BTCSOQ. -/
theorem btcsoqTx_pendingOutpoint {s t : BTCSOQPass}
    (hauth : isAuthorityTx isBTCSOQAuthorityMarker q.1 = false)
    (h : btcsoqTx env c dbMinted s (undoPair q) = .ok t) :
    t.pendingOutpoint = s.pendingOutpoint := by
  cases hcb : q.1.isCoinBase with
  | true => rw [btcsoqTx_coinbase hcb h]
  | false =>
    rw [isAuthorityTx, hcb, Bool.not_false, Bool.true_and] at hauth
    have htotals := (btcsoqTx_turn hcb h).1.totals
    rw [hauth, if_neg Bool.false_ne_true] at htotals
    rw [htotals]

theorem fst_mem_of_mem_zip {undos : List CTxUndo} (h : q ∈ vtx.zip undos) : q.1 ∈ vtx :=
  (List.of_mem_zip h).1

/-- Without an authority transaction the USDSOQ outpoint does not move. -/
theorem Accepted.usdsoq_no_pending (h : Accepted env params idx io false a view block fp p)
    (hnone : (blockFlags params idx).usdsoq →
      ∀ tx ∈ block.vtx, isAuthorityTx isUSDSOQAuthorityMarker tx = false) :
    p.usdsoq.outpoint = none := by
  cases hactive : (blockFlags params idx).usdsoq with
  | false =>
    rw [h.usdsoq_inactive hactive]
    rfl
  | true =>
    obtain ⟨t, _, hrun, -, hp⟩ := h.usdsoq_run hactive
    have hinv := foldlM_invariant (fun s : AssetPass => s.pendingOutpoint = none) _
      (fun s q t hq hstep hs =>
        (usdsoqTx_pendingOutpoint (hnone hactive q.1 (fst_mem_of_mem_zip hq)) hstep).trans hs)
      hrun rfl
    rw [hp]
    exact hinv

/-- Without an authority transaction the BTCSOQ outpoint does not move. -/
theorem Accepted.btcsoq_no_pending (h : Accepted env params idx io false a view block fp p)
    (hnone : (blockFlags params idx).btcsoq →
      ∀ tx ∈ block.vtx, isAuthorityTx isBTCSOQAuthorityMarker tx = false) :
    p.btcsoq.outpoint = none := by
  cases hactive : (blockFlags params idx).btcsoq with
  | false =>
    rw [(h.btcsoq_inactive hactive).1]
    rfl
  | true =>
    obtain ⟨t, _, hrun, -, hp, -⟩ := h.btcsoq_run hactive
    have hinv := foldlM_invariant (fun s : BTCSOQPass => s.pendingOutpoint = none) _
      (fun s q t hq hstep hs =>
        (btcsoqTx_pendingOutpoint (hnone hactive q.1 (fst_mem_of_mem_zip hq)) hstep).trans hs)
      hrun rfl
    rw [hp]
    exact hinv

/-! ## The input `DisconnectBlock` goes by -/

/-- The coin an input spends was a marker before the block. -/
def spendsMarker (isMarker : CScript → Bool) (view : CoinsView) (txin : CTxIn) : Bool :=
  (view.output txin.prevout).any fun coin => isMarker coin.scriptPubKey

/-- The first authority transaction of the block, if any, has the input that
    spends the tracked outpoint as its first one to spend a marker from before
    the block; while nothing is tracked it spends no such marker at all. -/
def MarkerLeads (isMarker : CScript → Bool) (view : CoinsView) (tracked : COutPoint)
    (vtx : List CTransaction) : Prop :=
  ∀ pre tx post, vtx = pre ++ tx :: post → isAuthorityTx isMarker tx = true →
    (∀ t ∈ pre, isAuthorityTx isMarker t = false) →
    (tracked = COutPoint.null ∧ ∀ txin ∈ tx.vin, spendsMarker isMarker view txin = false) ∨
    ∃ before txin after, tx.vin = before ++ txin :: after ∧ txin.prevout = tracked ∧
      spendsMarker isMarker view txin = true ∧
      ∀ t ∈ before, spendsMarker isMarker view t = false

theorem markerLeads_setBestBlock (hash : Uint256) (isMarker : CScript → Bool) (view : CoinsView)
    (tracked : COutPoint) (vtx : List CTransaction) :
    MarkerLeads isMarker (view.setBestBlock hash) tracked vtx =
      MarkerLeads isMarker view tracked vtx := rfl

/-- The first marker among the inputs is the tracked one. -/
theorem find_marker_eq_iff {tracked : COutPoint} {vin : List CTxIn} :
    ((vin.map CTxIn.prevout).find? fun o =>
        (view.output o).any fun coin => isMarker coin.scriptPubKey).getD COutPoint.null = tracked ↔
      (tracked = COutPoint.null ∧ ∀ txin ∈ vin, spendsMarker isMarker view txin = false) ∨
      ∃ before txin after, vin = before ++ txin :: after ∧ txin.prevout = tracked ∧
        spendsMarker isMarker view txin ∧ ∀ t ∈ before, spendsMarker isMarker view t = false := by
  rw [List.find?_map]
  show ((vin.find? (spendsMarker isMarker view)).map CTxIn.prevout).getD COutPoint.null = _ ↔ _
  cases hfind : vin.find? (spendsMarker isMarker view) with
  | none =>
    have hall : ∀ txin ∈ vin, spendsMarker isMarker view txin = false := fun txin htxin =>
      Bool.eq_false_iff.mpr (List.find?_eq_none.mp hfind txin htxin)
    constructor
    · intro h
      exact Or.inl ⟨h.symm, hall⟩
    · rintro (⟨h, -⟩ | ⟨before, txin, after, rfl, -, hmark, -⟩)
      · exact h.symm
      · rw [hall txin (by simp)] at hmark
        exact nomatch hmark
  | some found =>
    obtain ⟨hmark, before, after, rfl, hbefore⟩ := List.find?_eq_some_iff_append.mp hfind
    have hbefore' : ∀ t ∈ before, spendsMarker isMarker view t = false := fun t ht => by
      rw [← Bool.not_eq_true']
      exact hbefore t ht
    constructor
    · intro h
      exact Or.inr ⟨before, found, after, rfl, h, hmark, hbefore'⟩
    · rintro (⟨-, hall⟩ | ⟨before', txin, after', heq, htracked, hmark', hbefore₂⟩)
      · rw [hall found (by simp)] at hmark
        exact nomatch hmark
      · -- both splits stop at the first marker input
        have hsame : (before' ++ txin :: after').find? (spendsMarker isMarker view) =
            some txin := List.find?_eq_some_iff_append.mpr ⟨hmark', before', after', rfl,
              fun t ht => by rw [hbefore₂ t ht]; rfl⟩
        rw [heq, hsame] at hfind
        obtain rfl := Option.some.inj hfind
        exact htracked

/-- The outpoint `DisconnectBlock` goes back to is the tracked one exactly when
    the marker leads; without authority transactions it goes nowhere. -/
theorem revertedOutpoint_iff {tracked : COutPoint} :
    (revertedOutpoint isMarker view vtx).getD tracked = tracked ↔
      MarkerLeads isMarker view tracked vtx := by
  rw [revertedOutpoint]
  show ((vtx.find? (isAuthorityTx isMarker)).map _).getD tracked = tracked ↔ _
  cases hfind : vtx.find? (isAuthorityTx isMarker) with
  | none =>
    refine iff_of_true rfl fun pre tx post hvtx hauth _ => ?_
    exact absurd hauth (List.find?_eq_none.mp hfind tx (by rw [hvtx]; simp))
  | some found =>
    obtain ⟨hauth, pre, post, hvtx, hpre⟩ := List.find?_eq_some_iff_append.mp hfind
    rw [Option.map_some, Option.getD_some, find_marker_eq_iff]
    constructor
    · intro h pre' tx post' hvtx' hauth' hpre'
      have hsame : vtx.find? (isAuthorityTx isMarker) = some tx :=
        List.find?_eq_some_iff_append.mpr ⟨hauth', pre', post', hvtx',
          fun t ht => by rw [hpre' t ht]; rfl⟩
      rw [hfind] at hsame
      obtain rfl := Option.some.inj hsame
      exact h
    · intro h
      refine h pre found post hvtx hauth fun t ht => ?_
      rw [← Bool.not_eq_true']
      exact hpre t ht

theorem no_authority_of_revertedOutpoint (h : revertedOutpoint isMarker view vtx = none) :
    ∀ tx ∈ vtx, isAuthorityTx isMarker tx = false := by
  rw [revertedOutpoint, Option.map_eq_none_iff] at h
  exact fun tx htx => Bool.eq_false_iff.mpr (List.find?_eq_none.mp h tx htx)

/-! ## One asset -/

/-- The tracked outpoint is the one from before, in memory and in the database,
    where no record reads as null. -/
def AssetState.OutpointRestored (before after : AssetState) : Prop :=
  after.authorityOutpoint = before.authorityOutpoint ∧
    after.dbAuthorityOutpoint.getD COutPoint.null = before.dbAuthorityOutpoint.getD COutPoint.null

/-- The undo stages restore the outpoint exactly if the tracked marker leads. -/
theorem outpointRestored_iff {v' : CoinsView} {totals : Int × Int} {ops : List FreezeOp}
    {s : AssetState} {pending : AssetPending} {r : Bool × AssetState} (hagree : s.OutpointsAgree)
    (hnone : (∀ tx ∈ vtx, isAuthorityTx isMarker tx = false) → pending.outpoint = none)
    (hundone : Undone isMarker v' vtx totals ops (commitAsset s pending) r) :
    s.OutpointRestored r.2 ↔ MarkerLeads isMarker v' s.authorityOutpoint vtx := by
  -- memory and database agree on both sides, so memory decides
  have hafter := outpointsAgree_undone (outpointsAgree_commitAsset hagree pending) hundone
  rw [AssetState.OutpointsAgree] at hagree hafter
  rw [AssetState.OutpointRestored, ← hafter, ← hagree, and_self, hundone.outpoint,
    ← revertedOutpoint_iff]
  cases hrev : revertedOutpoint isMarker v' vtx with
  | some o => rfl
  | none =>
    have hkept : (commitAsset s pending).authorityOutpoint = s.authorityOutpoint := by
      show pending.outpoint.getD s.authorityOutpoint = s.authorityOutpoint
      rw [hnone (no_authority_of_revertedOutpoint hrev)]
      rfl
    rw [Option.getD_none, Option.getD_none, hkept]

/-- The same, for an asset that may not be active. -/
theorem outpointRestored_iff_of_active {v' : CoinsView} {totals : Int × Int} {ops : List FreezeOp}
    {s : AssetState} {pending : AssetPending} {r : Bool × AssetState} (active : Bool)
    (hagree : s.OutpointsAgree)
    (hnone : (active → ∀ tx ∈ vtx, isAuthorityTx isMarker tx = false) → pending.outpoint = none)
    (hundone : Undone isMarker v' vtx totals ops (commitAsset s pending) r) :
    s.OutpointRestored (if active then r.2 else commitAsset s pending) ↔
      (active → MarkerLeads isMarker v' s.authorityOutpoint vtx) := by
  cases active with
  | true =>
    rw [if_pos rfl, forall_prop_of_true rfl]
    exact outpointRestored_iff hagree (fun hno => hnone fun _ => hno) hundone
  | false =>
    have hpending := hnone fun h => nomatch h
    rw [if_neg Bool.false_ne_true]
    refine iff_of_true ⟨?_, ?_⟩ fun h => nomatch h
    · show pending.outpoint.getD s.authorityOutpoint = s.authorityOutpoint
      rw [hpending]
      rfl
    · show (pending.outpoint.or s.dbAuthorityOutpoint).getD COutPoint.null = _
      rw [hpending]
      rfl

/-! ## Every reachable node -/

/-- **The tracked outpoints come back** through a reorganisation of an accepted
    block exactly when, in each active asset, the marker leads. -/
theorem outpoints_restored_iff {n : Node} (hreach : Reachable env params n)
    (hheight : idx.nHeight = n.chain.length + 1) (hgenesis : ¬ isGenesis env params block)
    (haccept : (connectBlock env params idx io false n.assets n.view block).verdict = .ok ())
    (hpruned : idx.witnessPruned = false) :
    (n.assets.usdsoq.OutpointRestored
        (reorg env params idx io n.assets n.view block).assets.usdsoq ∧
      n.assets.btcsoq.OutpointRestored
        (reorg env params idx io n.assets n.view block).assets.btcsoq) ↔
      ((blockFlags params idx).usdsoq = true →
        MarkerLeads isUSDSOQAuthorityMarker n.view n.assets.usdsoq.authorityOutpoint block.vtx) ∧
      ((blockFlags params idx).btcsoq = true →
        MarkerLeads isBTCSOQAuthorityMarker n.view n.assets.btcsoq.authorityOutpoint
          block.vtx) := by
  obtain ⟨fp, p, hacc⟩ := connectBlock_accepted haccept hgenesis
  obtain ⟨husd, hbtc⟩ := hreach.outpointsAgree
  obtain ⟨fClean, v', hcoins, hd⟩ := hacc.reorg_disconnected hpruned
  -- the coins come back, so the markers are looked up in the view from before
  obtain ⟨blockundo, hundo, hlayer⟩ := hacc.coinLayer.disconnect (by omega)
    hreach.coinStack.heightsPositive idx.blockHash
  obtain rfl : fp.undos.tail = blockundo := Option.some.inj (hacc.blockundo_eq.symm.trans hundo)
  obtain ⟨-, rfl⟩ := Prod.mk.inj (Except.ok.inj (hcoins.symm.trans hlayer))
  rw [hd.usdsoq, hd.btcsoq, ← markerLeads_setBestBlock idx.blockHash isUSDSOQAuthorityMarker,
    ← markerLeads_setBestBlock idx.blockHash isBTCSOQAuthorityMarker]
  refine and_congr ?_ ?_
  · exact outpointRestored_iff_of_active (s := (initAuthorities params idx n.assets).usdsoq) _
      husd hacc.usdsoq_no_pending (disconnectUSDSOQ_undone ..)
  · exact outpointRestored_iff_of_active (s := (initAuthorities params idx n.assets).btcsoq) _
      hbtc hacc.btcsoq_no_pending (disconnectBTCSOQ_undone ..)

end Outpoint

namespace Sample

/-- Two blocks on the start: coins to spend, then a bootstrap transaction that
    creates two USDSOQ markers, of which the first is tracked. -/
def twoMarkers : Node :=
  (startNode.connected (env sameByte) params (index 1) io (block 1 [])).connected
    (env sameByte) params (index 2) io
    (block 2 [transaction 10 [spend 1 (authorityWitness 0x55 [1, 2])]
      [pay OP_5 0, pay OP_5 0]])

theorem twoMarkers_reachable : Reachable (env sameByte) params twoMarkers := by
  refine ((startNode_reachable _).connected _ _ _ rfl (by decide +kernel)
    (by decide +kernel)).connected _ _ _ rfl (by decide +kernel) ?_
  decide +kernel

/-- The authority spends the tracked marker and the other one, in some order. -/
def spendMarkers (vin : List CTxIn) : CBlock := block 3 [transaction 11 vin [pay OP_5 0]]

/-- An input that spends the tracked marker, signed by the authority. -/
def tracked : CTxIn := spend 10 (authorityWitness 0x55 [1, 2])

/-- An input that spends the other marker. -/
def other : CTxIn := ⟨⟨Uint256.fill 10, 1⟩, [], 0xffffffff, [[0]]⟩

end Sample

open Sample in
/-- A block that spends both markers, the tracked one first. -/
theorem outpoints_restored_iff_tracked_first :
    twoMarkers.assets.usdsoq.authorityOutpoint = ⟨Uint256.fill 10, 0⟩ ∧
    ((twoMarkers.assets.usdsoq.OutpointRestored
        (reorg (env sameByte) params (index 3) io
          twoMarkers.assets twoMarkers.view
          (spendMarkers [tracked, other])).assets.usdsoq ∧
      twoMarkers.assets.btcsoq.OutpointRestored
        (reorg (env sameByte) params (index 3) io
          twoMarkers.assets twoMarkers.view
          (spendMarkers [tracked, other])).assets.btcsoq) ↔
      ((blockFlags params (index 3)).usdsoq = true →
        MarkerLeads isUSDSOQAuthorityMarker twoMarkers.view
          twoMarkers.assets.usdsoq.authorityOutpoint
          (spendMarkers [tracked, other]).vtx) ∧
      ((blockFlags params (index 3)).btcsoq = true →
        MarkerLeads isBTCSOQAuthorityMarker twoMarkers.view
          twoMarkers.assets.btcsoq.authorityOutpoint
          (spendMarkers [tracked, other]).vtx)) :=
  ⟨by decide +kernel, outpoints_restored_iff twoMarkers_reachable rfl
    (by decide +kernel) (by decide +kernel) rfl⟩

open Sample in
/-- With the other marker first, the block is accepted and disconnects cleanly,
    and the node tracks the other marker afterwards. -/
theorem other_marker_tracked_after_reorg :
    Reachable (env sameByte) params twoMarkers ∧
    (connectBlock (env sameByte) params (index 3) io false
      twoMarkers.assets twoMarkers.view
      (spendMarkers [other, tracked])).verdict = .ok () ∧
    (reorg (env sameByte) params (index 3) io
      twoMarkers.assets twoMarkers.view
      (spendMarkers [other, tracked])).verdict = .ok true ∧
    twoMarkers.assets.usdsoq.authorityOutpoint = ⟨Uint256.fill 10, 0⟩ ∧
    (reorg (env sameByte) params (index 3) io
      twoMarkers.assets twoMarkers.view
      (spendMarkers [other, tracked])).assets.usdsoq.authorityOutpoint =
        ⟨Uint256.fill 10, 1⟩ :=
  ⟨twoMarkers_reachable, by decide +kernel, by decide +kernel, by decide +kernel,
    by decide +kernel⟩

end Soqucoin
