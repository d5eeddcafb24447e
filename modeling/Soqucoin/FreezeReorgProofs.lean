import Soqucoin.DisconnectProofs

/-! # Freeze registries across a reorganisation

`ConnectBlock` applies the freeze operations of a block in order, each of them effective when its
turn comes.  `DisconnectBlock` undoes them in the same order, not in reverse, so it restores the
registry exactly when no outpoint is touched a positive even number of times
(`freeze_registries_restored_iff`). -/

namespace Soqucoin

open CheckedLoop Toggle

section Registry

variable {env : Env} {params : CChainParams} {idx : CBlockIndex} {io : NodeIO}
variable {a : Assets} {view : CoinsView} {block : CBlock} {fp : FirstPass} {p : Pending}
variable {c : AssetCtx} {dbMinted : Finset COutPoint}

/-! ## What the passes record -/

/-- The operation of a transaction, the coinbase having none. -/
def unlessCoinBase {β : Type} (op : CTransaction → Option β) (tx : CTransaction) : Option β :=
  if tx.isCoinBase then none else op tx

theorem filterMap_unlessCoinBase {β : Type} (op : CTransaction → Option β)
    (vtx : List CTransaction) :
    vtx.filterMap (unlessCoinBase op) = (vtx.filter fun tx => !tx.isCoinBase).filterMap op := by
  rw [List.filterMap_filter]
  refine List.filterMap_congr fun tx _ => ?_
  rw [unlessCoinBase]
  cases tx.isCoinBase <;> rfl

/-- A transaction's turn in the USDSOQ pass records its freeze operation. -/
theorem usdsoqTx_freezeTurn {s t : AssetPass} {q : CTransaction × CTxUndo}
    (h : usdsoqTx env c s (undoPair q) = .ok t) :
    FreezeTurn CTxOut.isAnyUSDSOQ c s
      (unlessCoinBase (usdsoqFreezeOp c.consensus c.nHeight) q.1) t := by
  rw [unlessCoinBase]
  cases hcb : q.1.isCoinBase with
  | true =>
    obtain rfl := usdsoqTx_coinbase hcb h
    exact FreezeTurn.refl ..
  | false => exact (usdsoqTx_turn hcb h).freeze

/-- A turn of the BTCSOQ pass is a turn of the freeze registry and of the deposits. -/
theorem btcsoqTx_opTurn {s t : BTCSOQPass} {q : CTransaction × CTxUndo}
    (h : btcsoqTx env c dbMinted s (undoPair q) = .ok t) :
    FreezeTurn CTxOut.isBTCSOQ c s.toAssetPass
      ((unlessCoinBase (btcsoqOp c.consensus c.nHeight) q.1).bind freezeOpOf) t.toAssetPass ∧
    MintTurn dbMinted q.1 s.mintedDeposits
      ((unlessCoinBase (btcsoqOp c.consensus c.nHeight) q.1).bind mintOpOf) t.mintedDeposits := by
  rw [unlessCoinBase]
  cases hcb : q.1.isCoinBase with
  | true =>
    obtain rfl := btcsoqTx_coinbase hcb h
    exact ⟨FreezeTurn.refl .., MintTurn.refl ..⟩
  | false =>
    obtain ⟨htally, hturn, hfree⟩ := btcsoqTx_turn hcb h
    rw [if_neg Bool.false_ne_true]
    cases hmark : hasMarker isBTCSOQAuthorityMarker q.1 with
    | false =>
      have hop : btcsoqOp c.consensus c.nHeight q.1 = none := by
        rw [btcsoqOp, hmark, Bool.false_and, if_neg Bool.false_ne_true]
      have htotals := htally.totals
      rw [hmark, if_neg Bool.false_ne_true] at htotals
      rw [hop, htotals]
      exact ⟨FreezeTurn.refl .., MintTurn.refl ..⟩
    | true =>
      by_cases henf : c.consensus.nBTCSOQAuthorityEnforcementHeight ≤ c.nHeight
      · obtain ⟨op, hsigned⟩ := hturn hmark henf
        obtain ⟨_, _, hs⟩ := hsigned.signed
        have hop : btcsoqOp c.consensus c.nHeight q.1 = some op := by
          rw [btcsoqOp, hmark, Bool.true_and, if_pos (decide_eq_true henf), hs.parsed]
        rw [hop]
        exact ⟨hsigned.freeze, hsigned.mint⟩
      · have hop : btcsoqOp c.consensus c.nHeight q.1 = none := by
          rw [btcsoqOp, decide_eq_false henf, Bool.and_false, if_neg Bool.false_ne_true]
        have hf := hfree hmark (not_le.mp henf)
        rw [hop]
        refine ⟨⟨hf.registry.1, ?_, fun _ ho => (nomatch ho), fun _ ho => (nomatch ho)⟩, ?_⟩
        · rw [hf.registry.2]
          exact (List.append_nil _).symm
        · rw [hf.deposits]
          exact MintTurn.refl ..

theorem filterMap_zip_fst {β : Type} {vtx : List CTransaction} {undos : List CTxUndo}
    (hlen : undos.length = vtx.length) (op : CTransaction → Option β) :
    (vtx.zip undos).filterMap (fun q => op q.1) = vtx.filterMap op := by
  have h := congrArg (List.filterMap op) (List.map_fst_zip (Nat.le_of_eq hlen.symm))
  rwa [List.filterMap_map] at h

/-- The registry part of a pass after some transactions: the operations of those that have one are
    pending, effective one after the other, and what they freeze is a holding of the view. -/
structure RegistryRun (isHolding : CTxOut → Bool) (c : AssetCtx)
    (opOf : CTransaction → Option FreezeOp) (vtx : List CTransaction) (t : AssetPass) : Prop where
  ops : t.pendingFreezeOps = vtx.filterMap opOf
  log : FreezeLog c.asset.dbFrozen t
  live : ∀ op ∈ t.pendingFreezeOps, op.adds = true →
    (c.view.output op.key).any isHolding = true

/-- Turns of the registry make a run of it. -/
theorem registryRun_of_turns {σ : Type} {f : σ → CTransaction × CTxUndo → Check σ}
    {isHolding : CTxOut → Bool} {opOf : CTransaction → Option FreezeOp} (π : σ → AssetPass)
    (hturn : ∀ s q t, f s q = .ok t → FreezeTurn isHolding c (π s) (opOf q.1) (π t))
    {txs : List (CTransaction × CTxUndo)} {s t : σ} {o : COutPoint}
    (hstart : π s = AssetPass.start o) (hrun : txs.foldlM f s = .ok t) :
    RegistryRun isHolding c opOf (txs.map Prod.fst) (π t) where
  ops := by
    have hops := foldlM_collect (fun s => (π s).pendingFreezeOps) (fun q => opOf q.1) txs
      (fun s q t _ hq => (hturn s q t hq).ops) hrun
    rw [hops, hstart, List.filterMap_map]
    rfl
  log := foldlM_invariant (fun s => FreezeLog c.asset.dbFrozen (π s)) txs
    (fun s q t _ hq hs => hs.turn (hturn s q t hq)) hrun (hstart ▸ FreezeLog.start ..)
  live := by
    refine foldlM_invariant (fun s => ∀ op ∈ (π s).pendingFreezeOps, op.adds = true →
      (c.view.output op.key).any isHolding = true) txs (fun s q t _ hq hs => ?_) hrun ?_
    · intro op hop
      rw [(hturn s q t hq).ops, List.mem_append, Option.mem_toList] at hop
      rcases hop with hop | hop
      · exact hs op hop
      · exact (hturn s q t hq).live op hop
    · rw [hstart]
      intro op hop
      cases hop

/-- The freeze operation that a block reads off a transaction, for USDSOQ. -/
def usdsoqOpAt (params : CChainParams) (idx : CBlockIndex) : CTransaction → Option FreezeOp :=
  unlessCoinBase (usdsoqFreezeOp (params.getConsensus idx.nHeight) idx.nHeight)

/-- The same for BTCSOQ. -/
def btcsoqOpAt (params : CChainParams) (idx : CBlockIndex) (tx : CTransaction) : Option FreezeOp :=
  (unlessCoinBase (btcsoqOp (params.getConsensus idx.nHeight) idx.nHeight) tx).bind freezeOpOf

theorem filterMap_usdsoqOpAt (vtx : List CTransaction) :
    vtx.filterMap (usdsoqOpAt params idx) =
      usdsoqFreezeOps (params.getConsensus idx.nHeight) idx.nHeight vtx :=
  filterMap_unlessCoinBase _ vtx

theorem filterMap_btcsoqOpAt (vtx : List CTransaction) :
    vtx.filterMap (btcsoqOpAt params idx) =
      btcsoqFreezeOps (params.getConsensus idx.nHeight) idx.nHeight vtx := by
  show vtx.filterMap (fun tx => (unlessCoinBase _ tx).bind freezeOpOf) = _
  rw [← List.filterMap_filterMap, filterMap_unlessCoinBase]
  rfl

/-- The USDSOQ operations that `ConnectBlock` commits are those
    `DisconnectBlock` finds again, and they form an effective log. -/
theorem Accepted.usdsoq_freezeLog (h : Accepted env params idx io false a view block fp p)
    (hactive : (blockFlags params idx).usdsoq) :
    p.usdsoq.freezeOps =
        usdsoqFreezeOps (params.getConsensus idx.nHeight) idx.nHeight block.vtx ∧
      EffectiveLog a.usdsoq.dbFrozen p.usdsoq.freezeOps := by
  obtain ⟨t, _, hrun, -, hp⟩ := h.usdsoq_run hactive
  have hregistry : RegistryRun CTxOut.isAnyUSDSOQ (usdsoqCtx params idx false a fp.view)
      (usdsoqOpAt params idx) _ t :=
    registryRun_of_turns id (fun s q t hq => usdsoqTx_freezeTurn hq) rfl hrun
  rw [hp, ← filterMap_usdsoqOpAt]
  exact ⟨(map_fst_zip_undos h ▸ hregistry.ops :), hregistry.log.effective⟩

/-- The operations committed are those of the block's transactions. -/
theorem Accepted.btcsoq_freezeLog (h : Accepted env params idx io false a view block fp p)
    (hactive : (blockFlags params idx).btcsoq) :
    p.btcsoq.freezeOps =
        btcsoqFreezeOps (params.getConsensus idx.nHeight) idx.nHeight block.vtx ∧
      EffectiveLog a.btcsoq.dbFrozen p.btcsoq.freezeOps := by
  obtain ⟨t, _, hrun, -, hp, -⟩ := h.btcsoq_run hactive
  have hregistry : RegistryRun CTxOut.isBTCSOQ (btcsoqCtx params idx false a fp.view)
      (btcsoqOpAt params idx) _ t.toAssetPass :=
    registryRun_of_turns BTCSOQPass.toAssetPass (fun s q t hq => (btcsoqTx_opTurn hq).1) rfl hrun
  rw [hp, ← filterMap_btcsoqOpAt]
  exact ⟨(map_fst_zip_undos h ▸ hregistry.ops :), hregistry.log.effective⟩

/-! ## What disconnection makes of the registries -/

/-- No outpoint is touched a positive even number of times. -/
def NoEvenTouch (ops : List FreezeOp) : Prop :=
  ∀ o, touches o ops = 0 ∨ Odd (touches o ops)

theorem noEvenTouch_nil : NoEvenTouch [] := fun _ => Or.inl rfl

/-- A reorganisation restores the USDSOQ registry exactly if no coin is touched an even number of
    times. -/
theorem Accepted.usdsoq_frozen_restored_iff
    (h : Accepted env params idx io false a view block fp p) (hpruned : idx.witnessPruned = false) :
    (reorg env params idx io a view block).assets.usdsoq.dbFrozen = a.usdsoq.dbFrozen ↔
      ((blockFlags params idx).usdsoq → NoEvenTouch
        (usdsoqFreezeOps (params.getConsensus idx.nHeight) idx.nHeight block.vtx)) := by
  obtain ⟨fClean, v', -, hd⟩ := h.reorg_disconnected hpruned
  rw [hd.usdsoq]
  cases hactive : (blockFlags params idx).usdsoq with
  | false =>
    rw [if_neg Bool.false_ne_true]
    refine iff_of_true ?_ fun hf => nomatch hf
    show List.foldl apply a.usdsoq.dbFrozen p.usdsoq.freezeOps = _
    rw [h.usdsoq_inactive hactive]
    rfl
  | true =>
    obtain ⟨hops, hlog⟩ := h.usdsoq_freezeLog hactive
    rw [if_pos rfl, (disconnectUSDSOQ_undone ..).frozen, ← hops]
    exact (foldl_undo_restores_iff hlog).trans ⟨fun hr _ => hr, fun hr => hr rfl⟩

/-- The same for the BTCSOQ registry. -/
theorem Accepted.btcsoq_frozen_restored_iff
    (h : Accepted env params idx io false a view block fp p) (hpruned : idx.witnessPruned = false) :
    (reorg env params idx io a view block).assets.btcsoq.dbFrozen = a.btcsoq.dbFrozen ↔
      ((blockFlags params idx).btcsoq → NoEvenTouch
        (btcsoqFreezeOps (params.getConsensus idx.nHeight) idx.nHeight block.vtx)) := by
  obtain ⟨fClean, v', -, hd⟩ := h.reorg_disconnected hpruned
  rw [hd.btcsoq]
  cases hactive : (blockFlags params idx).btcsoq with
  | false =>
    rw [if_neg Bool.false_ne_true]
    refine iff_of_true ?_ fun hf => nomatch hf
    show List.foldl apply a.btcsoq.dbFrozen p.btcsoq.freezeOps = _
    rw [(h.btcsoq_inactive hactive).1]
    rfl
  | true =>
    obtain ⟨hops, hlog⟩ := h.btcsoq_freezeLog hactive
    rw [if_pos rfl, (disconnectBTCSOQ_undone ..).frozen, ← hops]
    exact (foldl_undo_restores_iff hlog).trans ⟨fun hr _ => hr, fun hr => hr rfl⟩

/-- Coinbases have no operations. -/
theorem freezeOps_of_coinbases {vtx : List CTransaction} (consensus : Consensus) (nHeight : Int)
    (h : ∀ tx ∈ vtx, tx.isCoinBase) :
    usdsoqFreezeOps consensus nHeight vtx = [] ∧ btcsoqFreezeOps consensus nHeight vtx = [] := by
  have hnil : (vtx.filter fun tx => !tx.isCoinBase) = [] := by
    rw [List.filter_eq_nil_iff]
    intro tx htx
    rw [h tx htx]
    exact Bool.false_ne_true
  rw [usdsoqFreezeOps, btcsoqFreezeOps, btcsoqOps, hnil]
  exact ⟨rfl, rfl⟩

/-- **Freeze registries across a reorganisation.**  Connecting a block and
    disconnecting it again restores both registries exactly when, in each active
    one, no outpoint is touched a positive even number of times. -/
theorem freeze_registries_restored_iff (env : Env) (params : CChainParams) (idx : CBlockIndex)
    (io : NodeIO) (a : Assets) (view : CoinsView) (block : CBlock)
    (haccept : (connectBlock env params idx io false a view block).verdict = .ok ())
    (hgenesis : isGenesis env params block → ∀ tx ∈ block.vtx, tx.isCoinBase = true)
    (hpruned : idx.witnessPruned = false) :
    ((reorg env params idx io a view block).assets.usdsoq.dbFrozen = a.usdsoq.dbFrozen ∧
      (reorg env params idx io a view block).assets.btcsoq.dbFrozen = a.btcsoq.dbFrozen) ↔
    (((blockFlags params idx).usdsoq = true → NoEvenTouch
        (usdsoqFreezeOps (params.getConsensus idx.nHeight) idx.nHeight block.vtx)) ∧
      ((blockFlags params idx).btcsoq = true → NoEvenTouch
        (btcsoqFreezeOps (params.getConsensus idx.nHeight) idx.nHeight block.vtx))) := by
  by_cases hgen : isGenesis env params block
  · obtain ⟨husd, hbtc⟩ := freezeOps_of_coinbases (params.getConsensus idx.nHeight) idx.nHeight
      (hgenesis hgen)
    rw [reorg_genesis hgen haccept, husd, hbtc]
    exact iff_of_true ⟨rfl, rfl⟩ ⟨fun _ => noEvenTouch_nil, fun _ => noEvenTouch_nil⟩
  · obtain ⟨fp, p, hacc⟩ := connectBlock_accepted haccept hgen
    exact and_congr (hacc.usdsoq_frozen_restored_iff hpruned)
      (hacc.btcsoq_frozen_restored_iff hpruned)

end Registry

namespace Sample

/-- An output that carries a freeze operation on the first output of an id. -/
def freezeOutput (op id : UInt8) : CTxOut :=
  ⟨0, [OP_RETURN, 6] ++ FREEZE_TAG ++ [37, op] ++ List.replicate 32 id ++ [0, 0, 0, 0]⟩

/-- An authority transaction that spends the marker of `prev` and runs one
    freeze operation on coin 8. -/
def freezeTx (id : Nat) (prev op : UInt8) : CTransaction :=
  transaction id [spend prev (authorityWitness 0x55 [1, 2])] [pay OP_5 0, freezeOutput op 8]

/-- The USDSOQ marker and a holding of 5. -/
def holdingCoins : CoinsView := coins [(9, pay OP_5 0), (8, pay OP_7 5)]

/-- A block that freezes the holding. -/
def frozenOnce : CBlock := block 1 [freezeTx 7 9 FREEZE_OP_FREEZE]

/-- A block that freezes it and unfreezes it again. -/
def frozenTwice : CBlock :=
  block 1 [freezeTx 7 9 FREEZE_OP_FREEZE, freezeTx 6 7 FREEZE_OP_UNFREEZE]

end Sample

open Sample in
/-- A block that freezes one coin. -/
theorem freeze_registries_restored_iff_once :
    let r := reorg (Sample.env sameByte) params (index 1) io usdsoqAssets holdingCoins frozenOnce
    (r.assets.usdsoq.dbFrozen = ∅ ∧ r.assets.btcsoq.dbFrozen = ∅) ↔
    (((blockFlags params (index 1)).usdsoq = true →
        NoEvenTouch (usdsoqFreezeOps consensus 1 frozenOnce.vtx)) ∧
      ((blockFlags params (index 1)).btcsoq = true →
        NoEvenTouch (btcsoqFreezeOps consensus 1 frozenOnce.vtx))) :=
  freeze_registries_restored_iff (Sample.env sameByte) params (index 1) io usdsoqAssets
    holdingCoins frozenOnce (by decide +kernel) (fun h => absurd h (by decide +kernel)) rfl

open Sample in
/-- After FREEZE and UNFREEZE of one outpoint in one block, disconnection leaves
    the outpoint frozen, which it was not before. -/
theorem freeze_unfreeze_not_restored :
    let r := connectBlock (Sample.env sameByte) params (index 1) io false usdsoqAssets
      holdingCoins frozenTwice
    let d := reorg (Sample.env sameByte) params (index 1) io usdsoqAssets holdingCoins frozenTwice
    r.verdict = .ok () ∧ d.verdict = .ok true ∧ usdsoqAssets.usdsoq.dbFrozen = ∅ ∧
      d.assets.usdsoq.dbFrozen = {⟨Uint256.fill 8, 0⟩} := by
  decide +kernel

end Soqucoin
