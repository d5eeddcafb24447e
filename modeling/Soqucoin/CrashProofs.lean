import Soqucoin.Persistence
import Soqucoin.VerifyDBProofs

/-! # Crash consistency of the asset state

The LEDGER of a chain is what its blocks make of the asset records, computed from the blocks
alone.  A node that connects blocks, and disconnects only blocks that can be undone, keeps the
ledger of its chain, in the database and in memory (`Sound`).  After a crash the records are those
of the tip and the coins those of the last flush.  The two go together again if the blocks by which
the chains differ, and the block at work, move no asset (`crash_consistent`). -/

namespace Soqucoin

open CheckedLoop Toggle

/-! ## Ledgers -/

/-- What the records of an asset say; one that is not there reads as nothing minted or tracked. -/
structure AssetLedger where
  supply : Supply
  outpoint : COutPoint
  frozen : Finset COutPoint
deriving DecidableEq

/-- What all asset records say. -/
structure Ledger where
  usdsoq : AssetLedger
  btcsoq : AssetLedger
  minted : Finset COutPoint
deriving DecidableEq

/-- The ledger of an asset before the first block. -/
def AssetLedger.empty : AssetLedger := ⟨Supply.zero, COutPoint.null, ∅⟩

/-- The ledger before the first block. -/
def Ledger.empty : Ledger := ⟨AssetLedger.empty, AssetLedger.empty, ∅⟩

/-- What the records of an asset say, with the defaults of a missing record. -/
def AssetState.ledger (s : AssetState) : AssetLedger :=
  ⟨s.dbSupply.getD Supply.zero, s.dbAuthorityOutpoint.getD COutPoint.null, s.dbFrozen⟩

/-- What all the records say. -/
def Assets.ledger (a : Assets) : Ledger := ⟨a.usdsoq.ledger, a.btcsoq.ledger, a.dbMinted⟩

/-- The globals are those of the records. -/
structure AssetState.InStep (s : AssetState) : Prop where
  supply : s.supply = s.ledger.supply
  outpoint : s.authorityOutpoint = s.ledger.outpoint

/-- Both assets are in step with their records. -/
structure Assets.InStep (a : Assets) : Prop where
  usdsoq : a.usdsoq.InStep
  btcsoq : a.btcsoq.InStep

theorem Assets.reload_inStep (keys : AssetId → Authority) (a : Assets) : (a.reload keys).InStep :=
  ⟨⟨rfl, rfl⟩, ⟨rfl, rfl⟩⟩

theorem Assets.reload_ledger (keys : AssetId → Authority) (a : Assets) :
    (a.reload keys).ledger = a.ledger := rfl

/-! ## Commits -/

/-- What committing to an asset makes of its ledger. -/
def AssetLedger.commit (l : AssetLedger) (p : AssetPending) : AssetLedger :=
  ⟨p.supply.getD l.supply, p.outpoint.getD l.outpoint, p.freezeOps.foldl apply l.frozen⟩

theorem AssetLedger.commit_nothing (l : AssetLedger) : l.commit AssetPending.nothing = l := rfl

theorem ledger_commitAsset (s : AssetState) (p : AssetPending) :
    (commitAsset s p).ledger = s.ledger.commit p := by
  obtain ⟨outpoint, supply, ops⟩ := p
  cases outpoint <;> cases supply <;> rfl

/-- The commit keeps the globals in step with the records. -/
theorem inStep_commitAsset {s : AssetState} (h : s.InStep) (p : AssetPending) :
    (commitAsset s p).InStep := by
  obtain ⟨hsupply, houtpoint⟩ := h
  obtain ⟨outpoint, supply, ops⟩ := p
  constructor
  · rw [ledger_commitAsset]
    show supply.getD s.supply = supply.getD s.ledger.supply
    rw [hsupply]
  · rw [ledger_commitAsset]
    show outpoint.getD s.authorityOutpoint = outpoint.getD s.ledger.outpoint
    rw [houtpoint]

/-- What disconnection makes of the records. -/
theorem Undone.ledger_eq {isMarker : CScript → Bool} {v' : CoinsView} {vtx : List CTransaction}
    {totals : Int × Int} {ops : List FreezeOp} {s : AssetState} {r : Bool × AssetState}
    (h : Undone isMarker v' vtx totals ops s r) :
    r.2.ledger = ⟨if 0 < totals.1 || 0 < totals.2 then (undoSupply s.supply totals.1 totals.2).2
        else s.ledger.supply,
      (revertedOutpoint isMarker v' vtx).getD s.ledger.outpoint, ops.foldl undo s.dbFrozen⟩ := by
  rw [AssetState.ledger, h.dbSupply, h.dbOutpoint, h.frozen]
  congr 1
  · simp only [undoAssetSupply]
    split <;> rfl
  · cases revertedOutpoint isMarker v' vtx <;> rfl

section Chains

variable {l : Ledger} {fClean : Bool} {d : DisconnectResult} {overflow underflow : String}
  {e : Entry} {v : CoinsView} {n : Node} {b : Assets} {t : AssetState} {m : Machine}
variable {env : Env} {params : CChainParams} {idx : CBlockIndex} {io : NodeIO}
variable {a : Assets} {view : CoinsView} {block : CBlock} {fp : FirstPass} {p : Pending}

/-! ## The ledger of a chain -/

/-- The counters after a block that moves them. -/
def supplyAfter (s : Supply) (minted burned : Int) : Option Supply :=
  match applySupplyDelta "" "" s minted burned with
  | .ok after => after
  | .error _ => none

section

variable {s : Supply} {minted burned : Int} {after : Option Supply}
  (h : applySupplyDelta overflow underflow s minted burned = .ok after)
include h

/-- The texts of the reasons play no part in a supply check that passes. -/
theorem applySupplyDelta_reasons {overflow' underflow' : String} :
    applySupplyDelta overflow' underflow' s minted burned = .ok after := by
  rw [applySupplyDelta] at h ⊢
  split at h
  · rename_i hmove
    rw [if_pos hmove]
    cases hm : (if 0 < minted then s.mint minted else some s) with
    | none =>
      rw [hm] at h
      cases h
    | some t =>
      rw [hm] at h
      cases hb : (if 0 < burned then t.burn burned else some t) with
      | none =>
        simp only [hb] at h
        cases h
      | some u =>
        simp only [hb] at h ⊢
        exact h
  · rename_i hmove
    rw [if_neg hmove]
    exact h

theorem supplyAfter_eq : supplyAfter s minted burned = after := by
  rw [supplyAfter, applySupplyDelta_reasons h]

end

/-- The key set matters to the script code of an authority input, not to which input it is. -/
theorem usdsoqFollow_keys (keys keys' : Authority) (consensus : Consensus) (nHeight : Int)
    (after : CoinsView) : usdsoqFollow env consensus nHeight after keys =
      usdsoqFollow env consensus nHeight after keys' := by
  funext s tx
  have hfind : (findUSDSOQAuthorityInput env after keys s.1 tx).any (fun found =>
        (tx.vin.getD found.1 default).scriptWitness.isEmpty) =
      (findUSDSOQAuthorityInput env after keys' s.1 tx).any (fun found =>
        (tx.vin.getD found.1 default).scriptWitness.isEmpty) := by
    simp only [findUSDSOQAuthorityInput]
    split
    · rfl
    · cases tx.vin.findIdx? (fun txin => txin.prevout = s.1) <;> rfl
  rw [usdsoqFollow, usdsoqFollow, hfind]

/-- What a block does to the USDSOQ records. -/
def usdsoqEffect (env : Env) (params : CChainParams) (idx : CBlockIndex) (l : AssetLedger)
    (view : CoinsView) (block : CBlock) : AssetPending :=
  if (blockFlags params idx).usdsoq then
    { outpoint := (block.vtx.foldl (usdsoqFollow env (params.getConsensus idx.nHeight) idx.nHeight
        (blockView env idx.nHeight view block.vtx) Authority.uninitialized) (l.outpoint, none)).2
      supply := supplyAfter l.supply
        (wrap64 (authorityCreated isUSDSOQAuthorityMarker CTxOut.isUSDSOQ block.vtx))
        (wrap64 (authoritySpent env idx.nHeight isUSDSOQAuthorityMarker CTxOut.isAnyUSDSOQ view
          block.vtx))
      freezeOps := usdsoqFreezeOps (params.getConsensus idx.nHeight) idx.nHeight block.vtx }
  else AssetPending.nothing

/-- What a block does to the BTCSOQ records, minted deposits apart. -/
def btcsoqEffect (env : Env) (params : CChainParams) (idx : CBlockIndex) (l : AssetLedger)
    (view : CoinsView) (block : CBlock) : AssetPending :=
  if (blockFlags params idx).btcsoq then
    { outpoint := btcsoqMoved env params idx block
      supply := supplyAfter l.supply
        (wrap64 (authorityCreated isBTCSOQAuthorityMarker CTxOut.isBTCSOQ block.vtx))
        (wrap64 (authoritySpent env idx.nHeight isBTCSOQAuthorityMarker CTxOut.isBTCSOQ view
          block.vtx))
      freezeOps := btcsoqFreezeOps (params.getConsensus idx.nHeight) idx.nHeight block.vtx }
  else AssetPending.nothing

/-- The deposits a block mints. -/
def depositsOf (params : CChainParams) (idx : CBlockIndex) (block : CBlock) : List COutPoint :=
  if (blockFlags params idx).btcsoq then
    (btcsoqMintOps (params.getConsensus idx.nHeight) idx.nHeight block.vtx).map
      MintPayload.deposit
  else []

/-- What a connected block does to the ledger. -/
def Ledger.connect (env : Env) (params : CChainParams) (l : Ledger) (view : CoinsView)
    (idx : CBlockIndex) (block : CBlock) : Ledger :=
  { usdsoq := l.usdsoq.commit (usdsoqEffect env params idx l.usdsoq view block)
    btcsoq := l.btcsoq.commit (btcsoqEffect env params idx l.btcsoq view block)
    minted := l.minted ∪ (depositsOf params idx block).toFinset }

/-- The ledger that a chain stands for. -/
def chainLedger (env : Env) (params : CChainParams) : List Entry → Ledger
  | [] => Ledger.empty
  | e :: rest => (chainLedger env params rest).connect env params (chainView env rest) e.idx e.block

theorem AssetPending.ext' {p q : AssetPending} (ho : p.outpoint = q.outpoint)
    (hs : p.supply = q.supply) (hf : p.freezeOps = q.freezeOps) : p = q := by
  cases p; cases q; cases ho; cases hs; cases hf; rfl

section

variable (h : Accepted env params idx io false a view block fp p)
include h

/-- What an accepted block commits for USDSOQ is a function of the ledger and the block. -/
theorem Accepted.usdsoq_effect (hstep : a.usdsoq.InStep) :
    p.usdsoq = usdsoqEffect env params idx a.usdsoq.ledger view block := by
  rw [usdsoqEffect]
  cases hactive : (blockFlags params idx).usdsoq with
  | false =>
    rw [if_neg Bool.false_ne_true]
    exact h.usdsoq_inactive hactive
  | true =>
    rw [if_pos rfl, ← hstep.supply, ← hstep.outpoint]
    obtain ⟨supply, hupdate, hsupply⟩ := h.usdsoq_supply hactive
    rw [if_neg Bool.false_ne_true] at hsupply
    refine AssetPending.ext' ?_ ?_ (h.usdsoq_freezeLog hactive).1
    · rw [h.usdsoq_moved hactive, usdsoqMoved, usdsoqFollow_keys _ Authority.uninitialized]
    · rw [hsupply, supplyAfter_eq hupdate]

/-- The BTCSOQ effect of an accepted block is that computed from its ledger. -/
theorem Accepted.btcsoq_effect (hstep : a.btcsoq.InStep) :
    p.btcsoq = btcsoqEffect env params idx a.btcsoq.ledger view block := by
  rw [btcsoqEffect]
  cases hactive : (blockFlags params idx).btcsoq with
  | false =>
    rw [if_neg Bool.false_ne_true]
    exact (h.btcsoq_inactive hactive).1
  | true =>
    rw [if_pos rfl, ← hstep.supply]
    exact AssetPending.ext' (h.btcsoq_moved hactive)
      (supplyAfter_eq (h.btcsoq_supply hactive)).symm (h.btcsoq_freezeLog hactive).1

theorem Accepted.ledger_connect (hstep : a.InStep) :
    (commitAssets (initAuthorities params idx a) p).ledger =
      a.ledger.connect env params view idx block := by
  rw [Assets.ledger, commitAssets, ledger_commitAsset, ledger_commitAsset,
    h.usdsoq_effect hstep.usdsoq, h.btcsoq_effect hstep.btcsoq, foldl_insert_eq,
    h.mintedDeposits_eq.1]
  rfl

end

theorem inStep_connect (hstep : a.InStep) :
    (commitAssets (initAuthorities params idx a) p).InStep := by
  have husd : (initAuthorities params idx a).usdsoq.InStep :=
    ⟨hstep.usdsoq.supply, hstep.usdsoq.outpoint⟩
  have hbtc : (initAuthorities params idx a).btcsoq.InStep :=
    ⟨hstep.btcsoq.supply, hstep.btcsoq.outpoint⟩
  exact ⟨inStep_commitAsset husd _, inStep_commitAsset hbtc _⟩

/-- The effect of a block does not read the best block. -/
theorem Ledger.connect_setBestBlock (hash : Uint256) (l : Ledger) (v : CoinsView) :
    l.connect env params (v.setBestBlock hash) idx block = l.connect env params v idx block := by
  have husd : usdsoqEffect env params idx l.usdsoq (v.setBestBlock hash) block =
      usdsoqEffect env params idx l.usdsoq v block := by
    rw [usdsoqEffect, usdsoqEffect, authoritySpent_setBestBlock, blockView_setBestBlock]
    rfl
  have hbtc : btcsoqEffect env params idx l.btcsoq (v.setBestBlock hash) block =
      btcsoqEffect env params idx l.btcsoq v block := by
    rw [btcsoqEffect, btcsoqEffect, authoritySpent_setBestBlock]
  rw [Ledger.connect, Ledger.connect, husd, hbtc]

/-! ## Nodes that have the ledger of their chain -/

/-- The blocks of a chain have been accepted one after the other, each on an asset state with the
    ledger of those below; the key sets are whatever they were at the time. -/
inductive LedgerStack (env : Env) (params : CChainParams) : List Entry → CoinsView → Ledger → Prop
  | nil (hash : Uint256) : LedgerStack env params [] (CoinsView.emptyView hash) Ledger.empty
  | cons {rest : List Entry} {v : CoinsView} {e : Entry} {io : NodeIO} {a : Assets}
      {fp : FirstPass} {p : Pending} (below : LedgerStack env params rest v a.ledger)
      (inStep : a.InStep) (height : e.idx.nHeight = rest.length + 1)
      (accepted : Accepted env params e.idx io false a v e.block fp p)
      (undo : e.blockundo = some fp.undos.tail) :
      LedgerStack env params (e :: rest) (fp.view.setBestBlock e.idx.blockHash)
        (a.ledger.connect env params v e.idx e.block)

theorem Accepted.coinLayer_of_undo (h : Accepted env params e.idx io false a v e.block fp p)
    (hundo : e.blockundo = some fp.undos.tail) : CoinLayer env e e.idx.nHeight v fp.view :=
  ⟨rfl, h.bestBlock, checkBlock_shape h.checked, checkBIP30_fresh h.bip30, fp.undos,
    h.connectCoins_eq, hundo⟩

/-- The coins of such a chain are connected too. -/
theorem LedgerStack.coinStack {chain : List Entry} (h : LedgerStack env params chain v l) :
    CoinStack env chain v := by
  induction h with
  | nil hash => exact .nil hash
  | cons _ _ height accepted undo ih =>
    have hlayer := accepted.coinLayer_of_undo undo
    rw [height] at hlayer
    exact .cons ih hlayer

theorem LedgerStack.ledger_eq {chain : List Entry} (h : LedgerStack env params chain v l) :
    l = chainLedger env params chain := by
  induction h with
  | nil hash => rfl
  | cons below _ _ _ _ ih =>
    rw [below.coinStack.view_eq, Ledger.connect_setBestBlock, ih]
    rfl

/-- The records have the ledger of the chain, and the globals are in step. -/
structure Sound (env : Env) (params : CChainParams) (n : Node) : Prop where
  stack : LedgerStack env params n.chain n.view n.assets.ledger
  inStep : n.assets.InStep

theorem Sound.ledger_eq (h : Sound env params n) :
    n.assets.ledger = chainLedger env params n.chain := h.stack.ledger_eq

/-- A node before its first block is sound. -/
theorem Node.Start.sound (h : n.Start) : Sound env params n := by
  have hledger : n.assets.ledger = Ledger.empty := by
    rw [Assets.ledger, AssetState.ledger, AssetState.ledger, h.usdsoq.dbSupply,
      h.usdsoq.dbOutpoint, h.usdsoq.frozen, h.btcsoq.dbSupply, h.btcsoq.dbOutpoint,
      h.btcsoq.frozen, h.minted]
    rfl
  obtain ⟨hash, hview⟩ := h.view
  refine ⟨?_, ⟨?_, ?_⟩, ⟨?_, ?_⟩⟩
  · rw [h.chain, hview, hledger]
    exact .nil hash
  · rw [h.usdsoq.supply, AssetState.ledger, h.usdsoq.dbSupply]
    rfl
  · rw [h.usdsoq.outpoint, AssetState.ledger, h.usdsoq.dbOutpoint]
    rfl
  · rw [h.btcsoq.supply, AssetState.ledger, h.btcsoq.dbSupply]
    rfl
  · rw [h.btcsoq.outpoint, AssetState.ledger, h.btcsoq.dbOutpoint]
    rfl

/-- An accepted block keeps the node sound. -/
theorem Sound.connected (h : Sound env params n) (height : idx.nHeight = n.chain.length + 1)
    (notGenesis : ¬ isGenesis env params block)
    (accepted : (connectBlock env params idx io false n.assets n.view block).verdict = .ok ()) :
    Sound env params (n.connected env params idx io block) := by
  obtain ⟨fp, p, hacc⟩ := connectBlock_accepted accepted notGenesis
  constructor
  · rw [hacc.connected_assets, hacc.connected_view, hacc.ledger_connect h.inStep]
    exact .cons (e := ⟨block, idx, _⟩) h.stack h.inStep height hacc hacc.blockundo_eq
  · rw [hacc.connected_assets]
    exact inStep_connect h.inStep

theorem Grown.sound {within : CBlockIndex → CBlock → Prop} (h : Grown env params within n) :
    Sound env params n := by
  induction h with
  | start hstart => exact hstart.sound
  | block _ idx io block height notGenesis accepted _ ih =>
    exact ih.connected height notGenesis accepted

/-! ## Blocks that can be undone -/

/-- Taking a block back restores the ledger of an asset: the counters can take
    back its totals, its first authority transaction leads with the tracked
    marker, and it touches no outpoint a positive even number of times. -/
structure AssetUndoable (isMarker : CScript → Bool) (l : AssetLedger) (view : CoinsView)
    (vtx : List CTransaction) (totals : Int × Int) (ops : List FreezeOp) : Prop where
  supply : SupplyReversible l.supply totals.1 totals.2
  outpoint : MarkerLeads isMarker view l.outpoint vtx
  frozen : NoEvenTouch ops

/-- The block `e` on the chain `rest` can be taken back in each active asset. -/
structure Undoable (env : Env) (params : CChainParams) (e : Entry) (rest : List Entry) :
    Prop where
  usdsoq : (blockFlags params e.idx).usdsoq = true →
    AssetUndoable isUSDSOQAuthorityMarker (chainLedger env params rest).usdsoq
      (chainView env rest) e.block.vtx
      (wrap64 (authorityCreated isUSDSOQAuthorityMarker CTxOut.isUSDSOQ e.block.vtx),
        wrap64 (authoritySpent env e.idx.nHeight isUSDSOQAuthorityMarker CTxOut.isAnyUSDSOQ
          (chainView env rest) e.block.vtx))
      (usdsoqFreezeOps (params.getConsensus e.idx.nHeight) e.idx.nHeight e.block.vtx)
  btcsoq : (blockFlags params e.idx).btcsoq = true →
    AssetUndoable isBTCSOQAuthorityMarker (chainLedger env params rest).btcsoq
      (chainView env rest) e.block.vtx
      (wrap64 (authorityCreated isBTCSOQAuthorityMarker CTxOut.isBTCSOQ e.block.vtx),
        wrap64 (authoritySpent env e.idx.nHeight isBTCSOQAuthorityMarker CTxOut.isBTCSOQ
          (chainView env rest) e.block.vtx))
      (btcsoqFreezeOps (params.getConsensus e.idx.nHeight) e.idx.nHeight e.block.vtx)

section OneAsset

variable {isMarker : CScript → Bool} {v' : CoinsView} {vtx : List CTransaction}
variable {totals : Int × Int} {ops : List FreezeOp} {s : AssetState} {r : Bool × AssetState}

/-- Disconnection keeps the globals in step with the records. -/
theorem Undone.inStep (h : Undone isMarker v' vtx totals ops s r) (hs : s.InStep) :
    r.2.InStep := by
  constructor
  · rw [h.ledger_eq, h.supply]
    simp only [undoAssetSupply]
    split
    · rfl
    · exact hs.supply
  · rw [h.ledger_eq, h.outpoint, hs.outpoint]

/-- The undo stages of an asset take the ledger back. -/
theorem Undone.ledger_restored {l : AssetLedger} {pending : AssetPending}
    (h : Undone isMarker v' vtx totals ops s r) (hs : s.InStep)
    (hledger : s.ledger = l.commit pending) (hops : pending.freezeOps = ops)
    (hupdate : applySupplyDelta overflow underflow l.supply totals.1 totals.2 = .ok pending.supply)
    (hlog : EffectiveLog l.frozen ops)
    (hnone : (∀ tx ∈ vtx, isAuthorityTx isMarker tx = false) → pending.outpoint = none)
    (hu : AssetUndoable isMarker l v' vtx totals ops) : r.2.ledger = l := by
  have hsupply : r.2.ledger.supply = l.supply := by
    have hafter : s.supply = pending.supply.getD l.supply := by
      rw [hs.supply, hledger]
      rfl
    rw [← (h.inStep hs).supply, h.supply]
    exact (undoAssetSupply_restores_iff hupdate hafter).1.mpr hu.supply
  have houtpoint : r.2.ledger.outpoint = l.outpoint := by
    have hleads := revertedOutpoint_iff.mpr hu.outpoint
    rw [h.ledger_eq]
    show (revertedOutpoint isMarker v' vtx).getD s.ledger.outpoint = l.outpoint
    cases hrev : revertedOutpoint isMarker v' vtx with
    | some o =>
      rw [hrev] at hleads
      exact hleads
    | none =>
      -- no authority transaction, so the block has moved nothing
      rw [Option.getD_none, hledger, AssetLedger.commit,
        hnone (no_authority_of_revertedOutpoint hrev)]
      rfl
  have hfrozen : r.2.ledger.frozen = l.frozen := by
    have hafter : s.dbFrozen = ops.foldl apply l.frozen := by
      rw [← hops]
      exact congrArg AssetLedger.frozen hledger
    rw [h.ledger_eq]
    show ops.foldl undo s.dbFrozen = l.frozen
    rw [hafter]
    exact (foldl_undo_restores_iff hlog).mpr hu.frozen
  calc r.2.ledger = ⟨r.2.ledger.supply, r.2.ledger.outpoint, r.2.ledger.frozen⟩ := rfl
    _ = l := by rw [hsupply, houtpoint, hfrozen]

end OneAsset

section

variable (h : Accepted env params idx io false a view block fp p)
include h

/-- Disconnecting the block takes the USDSOQ ledger back. -/
theorem Accepted.usdsoq_ledger_restored {v' : CoinsView} (ha : a.InStep) (hb : b.InStep)
    (hledger : b.usdsoq.ledger =
      a.usdsoq.ledger.commit (usdsoqEffect env params idx a.usdsoq.ledger view block))
    (hd : Disconnected env params idx b block fp.undos.tail fClean v' d)
    (hu : (blockFlags params idx).usdsoq →
      AssetUndoable isUSDSOQAuthorityMarker a.usdsoq.ledger v' block.vtx
        (wrap64 (authorityCreated isUSDSOQAuthorityMarker CTxOut.isUSDSOQ block.vtx),
          wrap64 (authoritySpent env idx.nHeight isUSDSOQAuthorityMarker CTxOut.isAnyUSDSOQ view
            block.vtx))
        (usdsoqFreezeOps (params.getConsensus idx.nHeight) idx.nHeight block.vtx)) :
    d.assets.usdsoq.ledger = a.usdsoq.ledger ∧ d.assets.usdsoq.InStep := by
  have heffect := h.usdsoq_effect ha.usdsoq
  rw [hd.usdsoq]
  cases hactive : (blockFlags params idx).usdsoq with
  | false =>
    rw [if_neg Bool.false_ne_true, hledger, ← heffect, h.usdsoq_inactive hactive]
    exact ⟨AssetLedger.commit_nothing _, hb.usdsoq⟩
  | true =>
    rw [if_pos rfl]
    have hundone := disconnectUSDSOQ_undone (params.getConsensus idx.nHeight) idx.nHeight v'
      block.vtx fp.undos.tail b.usdsoq
    obtain ⟨supply, hupdate, hsupply⟩ := h.usdsoq_supply hactive
    obtain ⟨hops, hlog⟩ := h.usdsoq_freezeLog hactive
    rw [if_neg Bool.false_ne_true] at hsupply
    rw [h.reversedTotals_eq] at hundone
    rw [hops] at hlog
    rw [SupplyUpdate, ← hsupply, ha.usdsoq.supply] at hupdate
    rw [← heffect] at hledger
    exact ⟨hundone.ledger_restored hb.usdsoq hledger hops hupdate hlog
      (fun hno => h.usdsoq_no_pending fun _ => hno) (hu hactive), hundone.inStep hb.usdsoq⟩

/-- Disconnecting the block takes the BTCSOQ ledger back. -/
theorem Accepted.btcsoq_ledger_restored {v' : CoinsView} (ha : a.InStep) (hb : b.InStep)
    (hledger : b.btcsoq.ledger =
      a.btcsoq.ledger.commit (btcsoqEffect env params idx a.btcsoq.ledger view block))
    (hd : Disconnected env params idx b block fp.undos.tail fClean v' d)
    (hu : (blockFlags params idx).btcsoq →
      AssetUndoable isBTCSOQAuthorityMarker a.btcsoq.ledger v' block.vtx
        (wrap64 (authorityCreated isBTCSOQAuthorityMarker CTxOut.isBTCSOQ block.vtx),
          wrap64 (authoritySpent env idx.nHeight isBTCSOQAuthorityMarker CTxOut.isBTCSOQ view
            block.vtx))
        (btcsoqFreezeOps (params.getConsensus idx.nHeight) idx.nHeight block.vtx)) :
    d.assets.btcsoq.ledger = a.btcsoq.ledger ∧ d.assets.btcsoq.InStep := by
  have heffect := h.btcsoq_effect ha.btcsoq
  rw [hd.btcsoq]
  cases hactive : (blockFlags params idx).btcsoq with
  | false =>
    rw [if_neg Bool.false_ne_true, hledger, ← heffect, (h.btcsoq_inactive hactive).1]
    exact ⟨AssetLedger.commit_nothing _, hb.btcsoq⟩
  | true =>
    rw [if_pos rfl]
    have hundone := disconnectBTCSOQ_undone (params.getConsensus idx.nHeight) idx.nHeight v'
      block.vtx fp.undos.tail b.btcsoq
    have hupdate := h.btcsoq_supply hactive
    obtain ⟨hops, hlog⟩ := h.btcsoq_freezeLog hactive
    rw [h.reversedTotals_eq] at hundone
    rw [hops] at hlog
    rw [SupplyUpdate, ha.btcsoq.supply] at hupdate
    rw [← heffect] at hledger
    exact ⟨hundone.ledger_restored hb.btcsoq hledger hops hupdate hlog
      (fun hno => h.btcsoq_no_pending fun _ => hno) (hu hactive), hundone.inStep hb.btcsoq⟩

/-- Disconnecting the block takes the minted deposits back. -/
theorem Accepted.minted_restored {v' : CoinsView}
    (hminted : b.dbMinted = a.dbMinted ∪ (depositsOf params idx block).toFinset)
    (hd : Disconnected env params idx b block fp.undos.tail fClean v' d) :
    d.assets.dbMinted = a.dbMinted := by
  have hfresh : ∀ o ∈ depositsOf params idx block, o ∉ a.dbMinted := by
    have hdeposits := h.mintedDeposits_eq
    rw [hdeposits.1] at hdeposits
    exact hdeposits.2.2
  rw [hd.dbMinted, hminted]
  rw [depositsOf] at hfresh ⊢
  split
  · rename_i hactive
    rw [if_pos hactive] at hfresh
    rw [← List.foldl_map (g := fun (s : Finset COutPoint) o => s.erase o), foldl_erase_eq,
      Finset.union_sdiff_cancel_right]
    exact Finset.disjoint_left.mpr fun o ho hnew => hfresh o (List.mem_toFinset.mp hnew) ho
  · exact Finset.union_empty _

end

/-- A node is sound after it has disconnected a block that can be undone. -/
theorem Sound.disconnected {rest : List Entry} (h : Sound env params n)
    (tip : n.chain = e :: rest) (hu : Undoable env params e rest)
    (clean : (disconnectBlock env params e.idx n.assets n.view e.block e.blockundo).verdict =
      .ok true) :
    Sound env params
      ⟨(disconnectBlock env params e.idx n.assets n.view e.block e.blockundo).assets,
        (disconnectBlock env params e.idx n.assets n.view e.block e.blockundo).view, rest⟩ := by
  obtain ⟨b, w, chain⟩ := n
  obtain ⟨hstack, hin⟩ := h
  dsimp only at tip hstack hin clean ⊢
  subst tip
  generalize hledger : b.ledger = l at hstack
  cases hstack with
  | @cons _ v _ io a fp p below inStep height accepted undo =>
    have hlayer := accepted.coinLayer_of_undo undo
    rw [height] at hlayer
    obtain ⟨blockundo, hundo, hview, hd⟩ := hlayer.disconnected below.coinStack clean
    obtain rfl := Option.some.inj (hundo.symm.trans undo)
    have hbelow := below.ledger_eq
    have hcoins := below.coinStack.view_eq
    -- the conditions are on the coins of the chain, which are those of the view
    have hspent : ∀ isMarker kind,
        authoritySpent env e.idx.nHeight isMarker kind v e.block.vtx =
          authoritySpent env e.idx.nHeight isMarker kind (chainView env rest) e.block.vtx := by
      intro isMarker kind
      rw [hcoins, authoritySpent_setBestBlock]
    have hleads : ∀ isMarker tracked,
        MarkerLeads isMarker (chainView env rest) tracked e.block.vtx →
          MarkerLeads isMarker (v.setBestBlock e.idx.blockHash) tracked e.block.vtx := by
      intro isMarker tracked h
      rw [hcoins]
      exact h
    obtain ⟨husd, husdStep⟩ := accepted.usdsoq_ledger_restored inStep hin
      (congrArg Ledger.usdsoq hledger) hd fun hactive => by
        have hasset := hu.usdsoq hactive
        rw [← hbelow] at hasset
        rw [hspent]
        exact ⟨hasset.supply, hleads _ _ hasset.outpoint, hasset.frozen⟩
    obtain ⟨hbtc, hbtcStep⟩ := accepted.btcsoq_ledger_restored inStep hin
      (congrArg Ledger.btcsoq hledger) hd fun hactive => by
        have hasset := hu.btcsoq hactive
        rw [← hbelow] at hasset
        rw [hspent]
        exact ⟨hasset.supply, hleads _ _ hasset.outpoint, hasset.frozen⟩
    have hminted := accepted.minted_restored (congrArg Ledger.minted hledger) hd
    refine ⟨?_, husdStep, hbtcStep⟩
    rw [hview, Assets.ledger, husd, hbtc, hminted]
    exact below

/-! ## Agreeing nodes connect the same blocks -/

/-- The same context on other records of the counters and the outpoint. -/
def AssetCtx.withRecords (c : AssetCtx) (dbSupply : Option Supply)
    (dbOutpoint : Option COutPoint) : AssetCtx :=
  { c with asset := { c.asset with dbSupply := dbSupply, dbAuthorityOutpoint := dbOutpoint } }

/-- The USDSOQ pass reads no record but the outpoint's. -/
theorem usdsoqPass_withRecords {c : AssetCtx} (dbSupply : Option Supply)
    {dbOutpoint : Option COutPoint}
    (h : dbOutpoint.getD COutPoint.null = c.asset.dbAuthorityOutpoint.getD COutPoint.null)
    (txs : List (CTransaction × Option CTxUndo)) :
    usdsoqPass env (c.withRecords dbSupply dbOutpoint) txs = usdsoqPass env c txs := by
  have htx : usdsoqTx env (c.withRecords dbSupply dbOutpoint) = usdsoqTx env c := by
    funext s q
    have hboot : usdsoqBootstrap env (c.withRecords dbSupply dbOutpoint) =
        usdsoqBootstrap env c := by
      funext s tx nOut
      rw [usdsoqBootstrap, usdsoqBootstrap, AssetCtx.withRecords, h]
    simp only [usdsoqTx, usdsoqAuthorityStep, hboot]
    rfl
  rw [usdsoqPass, htx]
  rfl

/-- The BTCSOQ pass reads no record but the outpoint's. -/
theorem btcsoqPass_withRecords {c : AssetCtx} (dbSupply : Option Supply)
    {dbOutpoint : Option COutPoint} (dbMinted : Finset COutPoint)
    (h : dbOutpoint.getD COutPoint.null = c.asset.dbAuthorityOutpoint.getD COutPoint.null)
    (txs : List (CTransaction × Option CTxUndo)) :
    btcsoqPass env (c.withRecords dbSupply dbOutpoint) dbMinted txs =
      btcsoqPass env c dbMinted txs := by
  have htx : btcsoqTx env (c.withRecords dbSupply dbOutpoint) dbMinted =
      btcsoqTx env c dbMinted := by
    have hinput : btcsoqAuthorityInput (c.withRecords dbSupply dbOutpoint) =
        btcsoqAuthorityInput c := by
      funext s tx txundo nOut
      rw [btcsoqAuthorityInput, btcsoqAuthorityInput, AssetCtx.withRecords, h]
    funext s q
    simp only [btcsoqTx, btcsoqAuthorityStep, btcsoqStrict, hinput]
    rfl
  rw [btcsoqPass, htx]
  rfl

/-- The same ledger and the same keys, both with the globals in step; the records
    may differ in what is not there. -/
structure AssetState.Agrees (s t : AssetState) : Prop where
  ledger : t.ledger = s.ledger
  keys : t.authority = s.authority
  left : s.InStep
  right : t.InStep

/-- Both assets agree, and so do the minted deposits. -/
structure Assets.Agrees (a b : Assets) : Prop where
  usdsoq : a.usdsoq.Agrees b.usdsoq
  btcsoq : a.btcsoq.Agrees b.btcsoq
  minted : b.dbMinted = a.dbMinted

theorem AssetState.Agrees.eq_with {s : AssetState} (h : s.Agrees t) :
    t = { s with dbSupply := t.dbSupply, dbAuthorityOutpoint := t.dbAuthorityOutpoint } := by
  have hsupply : t.supply = s.supply := by rw [h.right.supply, h.left.supply, h.ledger]
  have houtpoint : t.authorityOutpoint = s.authorityOutpoint := by
    rw [h.right.outpoint, h.left.outpoint, h.ledger]
  have hfrozen : t.dbFrozen = s.dbFrozen := congrArg AssetLedger.frozen h.ledger
  rw [← hsupply, ← houtpoint, ← hfrozen, ← h.keys]

theorem AssetState.Agrees.commit {s : AssetState} (h : s.Agrees t) (p : AssetPending) :
    (commitAsset s p).Agrees (commitAsset t p) :=
  ⟨by rw [ledger_commitAsset, ledger_commitAsset, h.ledger], h.keys,
    inStep_commitAsset h.left p, inStep_commitAsset h.right p⟩

theorem Assets.Agrees.commit (h : a.Agrees b) (p : Pending) :
    (commitAssets a p).Agrees (commitAssets b p) :=
  ⟨h.usdsoq.commit _, h.btcsoq.commit _, by rw [commitAssets, commitAssets, h.minted]⟩

/-- Setting up the authorities keeps the agreement. -/
theorem Assets.Agrees.init (h : a.Agrees b) (params : CChainParams) (idx : CBlockIndex) :
    (initAuthorities params idx a).Agrees (initAuthorities params idx b) where
  usdsoq :=
    { ledger := h.usdsoq.ledger
      keys := by rw [initAuthorities, initAuthorities]; simp only [h.usdsoq.keys]
      left := ⟨h.usdsoq.left.supply, h.usdsoq.left.outpoint⟩
      right := ⟨h.usdsoq.right.supply, h.usdsoq.right.outpoint⟩ }
  btcsoq :=
    { ledger := h.btcsoq.ledger
      keys := by rw [initAuthorities, initAuthorities]; simp only [h.btcsoq.keys]
      left := ⟨h.btcsoq.left.supply, h.btcsoq.left.outpoint⟩
      right := ⟨h.btcsoq.right.supply, h.btcsoq.right.outpoint⟩ }
  minted := h.minted

theorem assetCtx_of_agrees {s : AssetState} (h : s.Agrees t) (v : CoinsView) :
    assetCtx params idx false v t =
      (assetCtx params idx false v s).withRecords t.dbSupply t.dbAuthorityOutpoint :=
  congrArg (assetCtx params idx false v) h.eq_with

/-- Assets that agree validate blocks alike. -/
theorem validateBlock_agrees (h : a.Agrees b) :
    validateBlock env params idx io false b view block =
      validateBlock env params idx io false a view block := by
  have hinputs : checkInputs env params b = checkInputs env params a := by
    funext v tx nHeight fScriptChecks flags fQueue
    have husd : usdsoqActiveHere params b nHeight = usdsoqActiveHere params a nHeight := by
      rw [usdsoqActiveHere, usdsoqActiveHere, h.usdsoq.keys]
    have hbtc : btcsoqActiveHere params b nHeight = btcsoqActiveHere params a nHeight := by
      rw [btcsoqActiveHere, btcsoqActiveHere, h.btcsoq.keys]
    rw [checkInputs, checkInputs, checkTxInputs, checkTxInputs, husd, hbtc, h.usdsoq.keys,
      h.btcsoq.keys]
  have htx : connectTx env params idx b = connectTx env params idx a := by
    funext fQueue s tx
    rw [connectTx, connectTx, hinputs]
  have husd : usdsoqStage env params idx false b = usdsoqStage env params idx false a := by
    funext v txs
    rw [usdsoqStage, usdsoqStage, assetCtx_of_agrees h.usdsoq, usdsoqPass_withRecords]
    exact congrArg AssetLedger.outpoint h.usdsoq.ledger
  have hbtc : btcsoqStage env params idx false b = btcsoqStage env params idx false a := by
    funext v txs
    rw [btcsoqStage, btcsoqStage, assetCtx_of_agrees h.btcsoq, h.minted, btcsoqPass_withRecords]
    exact congrArg AssetLedger.outpoint h.btcsoq.ledger
  simp only [validateBlock, connectTxs, htx, husd, hbtc]

/-- Assets that agree connect blocks alike, and still agree. -/
theorem connectBlock_agrees (h : a.Agrees b) :
    (connectBlock env params idx io false b view block).verdict =
        (connectBlock env params idx io false a view block).verdict ∧
      (connectBlock env params idx io false b view block).view =
        (connectBlock env params idx io false a view block).view ∧
      (connectBlock env params idx io false b view block).blockundo =
        (connectBlock env params idx io false a view block).blockundo ∧
      (connectBlock env params idx io false a view block).assets.Agrees
        (connectBlock env params idx io false b view block).assets := by
  have hinit := h.init params idx
  unfold connectBlock
  simp only [validateBlock_agrees hinit, Bool.false_eq_true, if_false]
  cases checkBlock env block (!false) with
  | error e => exact ⟨rfl, rfl, rfl, h⟩
  | ok u =>
    dsimp only
    split
    · exact ⟨rfl, rfl, rfl, h⟩
    split
    · exact ⟨rfl, rfl, rfl, h⟩
    cases checkBIP30 env params idx view block.vtx with
    | error e => exact ⟨rfl, rfl, rfl, h⟩
    | ok u =>
      cases validateBlock env params idx io false (initAuthorities params idx a) view block with
      | error e => exact ⟨rfl, rfl, rfl, hinit⟩
      | ok p =>
        cases writeIndexes io with
        | error e => exact ⟨rfl, rfl, rfl, hinit.commit p⟩
        | ok u => exact ⟨rfl, rfl, rfl, hinit.commit p⟩

/-- What can be told of a node but for its keys. -/
def Node.outcome (n : Node) : CoinsView × List Entry × Ledger := (n.view, n.chain, n.assets.ledger)

/-- They replay any blocks alike. -/
theorem replay_agrees :
    ∀ {blocks : List (CBlockIndex × NodeIO × CBlock)} {n n' : Node},
      n.assets.Agrees n'.assets → n'.view = n.view → n'.chain = n.chain →
      (replay env params n' blocks).map Node.outcome =
        (replay env params n blocks).map Node.outcome := by
  intro blocks
  induction blocks with
  | nil =>
    rintro ⟨a, _, _⟩ ⟨b, v, chain⟩ hab rfl rfl
    have hledger : b.ledger = a.ledger := by
      rw [Assets.ledger, Assets.ledger, hab.usdsoq.ledger, hab.btcsoq.ledger, hab.minted]
    simp only [replay, Option.map_some, Node.outcome, hledger]
  | cons step blocks ih =>
    obtain ⟨idx, io, block⟩ := step
    rintro ⟨a, _, _⟩ ⟨b, v, chain⟩ hab rfl rfl
    obtain ⟨hverdict, hview, hundo, hab'⟩ := @connectBlock_agrees b env params idx io a v block
      hab
    have hagree : (Node.connected env params ⟨a, v, chain⟩ idx io block).assets.Agrees
        (Node.connected env params ⟨b, v, chain⟩ idx io block).assets := hab'
    cases hfirst : (connectBlock env params idx io false a v block).verdict with
    | error e =>
      rw [hfirst] at hverdict
      simp only [replay, hfirst, hverdict]
    | ok u =>
      rw [hfirst] at hverdict
      simp only [replay, hfirst, hverdict]
      refine ih hagree hview ?_
      rw [Node.connected, Node.connected, hundo]

/-! ## Quiet blocks -/

theorem supplyAfter_zero (s : Supply) : supplyAfter s (wrap64 0) (wrap64 0) = none := rfl

/-- A quiet block has no effect on USDSOQ. -/
theorem Quiet.usdsoqEffect_eq (h : Quiet params idx block) (l : AssetLedger) (view : CoinsView) :
    usdsoqEffect env params idx l view block = AssetPending.nothing := by
  rw [usdsoqEffect]
  split
  · next hactive =>
    have hnone := h.usdsoq hactive
    rw [authorityCreated_eq_zero hnone, authoritySpent_eq_zero _ _ _ hnone,
      foldl_usdsoqFollow_quiet _ hnone, usdsoqFreezeOps_eq_nil _ _ hnone, supplyAfter_zero]
    rfl
  · rfl

/-- It has none on BTCSOQ. -/
theorem Quiet.btcsoqEffect_eq (h : Quiet params idx block) (l : AssetLedger) (view : CoinsView) :
    btcsoqEffect env params idx l view block = AssetPending.nothing := by
  rw [btcsoqEffect]
  split
  · next hactive =>
    have hnone := h.btcsoq hactive
    rw [authorityCreated_eq_zero hnone, authoritySpent_eq_zero _ _ _ hnone,
      btcsoqMoved_quiet hnone, btcsoqFreezeOps, btcsoqOps_eq_nil _ _ hnone, supplyAfter_zero]
    rfl
  · rfl

/-- It records no deposit. -/
theorem Quiet.depositsOf_eq_nil (h : Quiet params idx block) :
    depositsOf params idx block = [] := by
  rw [depositsOf]
  split
  · next hactive =>
    rw [btcsoqMintOps, btcsoqOps_eq_nil _ _ (h.btcsoq hactive)]
    rfl
  · rfl

/-- A quiet block leaves the ledger as it is, whatever it spends and pays. -/
theorem Quiet.ledger_connect (h : Quiet params idx block) (l : Ledger) (view : CoinsView) :
    l.connect env params view idx block = l := by
  rw [Ledger.connect, h.usdsoqEffect_eq, h.btcsoqEffect_eq, h.depositsOf_eq_nil,
    AssetLedger.commit_nothing, AssetLedger.commit_nothing]
  simp

theorem chainLedger_quiet {base up : List Entry} (h : ∀ e ∈ up, Quiet params e.idx e.block) :
    chainLedger env params (up ++ base) = chainLedger env params base := by
  induction up with
  | nil => rfl
  | cons e up ih =>
    obtain ⟨he, hup⟩ := List.forall_mem_cons.mp h
    rw [List.cons_append, chainLedger, he.ledger_connect, ih hup]

/-- Connecting a quiet block writes no record. -/
theorem Quiet.commitWrites_eq_nil {a : Assets} {io : NodeIO} {p : Pending} {view : CoinsView}
    (h : Quiet params idx block) (hstep : a.InStep)
    (hadm : Admitted env params idx false view block)
    (hvalid : validateBlock env params idx io false (initAuthorities params idx a) view block =
      .ok p) : commitWrites p = [] := by
  obtain ⟨fp, hacc⟩ := accepted_withoutWrites hadm hvalid
  have hdeposits : p.mintedDeposits = [] := by
    rw [hacc.mintedDeposits_eq.1]
    exact h.depositsOf_eq_nil
  rw [commitWrites, hacc.usdsoq_effect hstep.usdsoq, hacc.btcsoq_effect hstep.btcsoq,
    h.usdsoqEffect_eq, h.btcsoqEffect_eq, hdeposits]
  rfl

/-- Disconnecting a block without authority transactions writes nothing. -/
theorem undoAssetWrites_quiet {isMarker : CScript → Bool} {created spent : CTxOut → Bool}
    {vtx : List CTransaction} (h : ∀ tx ∈ vtx, isAuthorityTx isMarker tx = false) (id : AssetId)
    (view : CoinsView) (blockundo : CBlockUndo) (s : AssetState) :
    undoAssetWrites id isMarker view vtx
      (reversedTotals isMarker created spent (withUndo vtx blockundo).reverse) s = [] := by
  have htotals : reversedTotals isMarker created spent (withUndo vtx blockundo).reverse =
      (0, 0) := by
    refine foldl_eq_self fun q hq => if_pos ?_
    have hauth := h q.1 (fst_mem_of_mem_withUndo (List.mem_reverse.mp hq))
    rw [isAuthorityTx] at hauth
    cases hcb : q.1.isCoinBase <;> simp_all
  have houtpoint : revertedOutpoint isMarker view vtx = none := by
    rw [revertedOutpoint, Option.map_eq_none_iff, List.find?_eq_none]
    exact fun tx htx => ne_true_of_eq_false (h tx htx)
  rw [undoAssetWrites, htotals, houtpoint]
  rfl

/-- Disconnecting a quiet block writes no record. -/
theorem Quiet.disconnectWrites_eq_nil (h : Quiet params idx block) (a : Assets)
    (view : CoinsView) (blockundo : CBlockUndo) :
    disconnectWrites params idx a view block blockundo = [] := by
  have husd : deploymentActiveAtHeight idx.nHeight (params.getConsensus idx.nHeight) .usdsoq =
      true → undoUSDSOQWrites (params.getConsensus idx.nHeight) idx.nHeight view block.vtx
        blockundo a.usdsoq = [] := by
    intro hactive
    have hnone := h.usdsoq hactive
    rw [undoUSDSOQWrites, undoAssetWrites_quiet hnone, usdsoqFreezeOps_eq_nil _ _ hnone]
    rfl
  have hbtc : deploymentActiveAtHeight idx.nHeight (params.getConsensus idx.nHeight) .btcsoq =
      true → undoBTCSOQWrites (params.getConsensus idx.nHeight) idx.nHeight view block.vtx
        blockundo a.btcsoq = [] := by
    intro hactive
    have hnone := h.btcsoq hactive
    rw [undoBTCSOQWrites, undoAssetWrites_quiet hnone, btcsoqOps_eq_nil _ _ hnone]
    rfl
  rw [disconnectWrites, ite_eq_right_iff.mpr husd, ite_eq_right_iff.mpr hbtc]
  rfl

/-! ## Machines that crash -/

/-- A node as connecting exactly the blocks of its chain leaves it: its records and globals have
    the ledger of the chain, and it accepts and counts the blocks that come next as a node does
    that has connected those of its chain and has the same keys. -/
structure Restored (env : Env) (params : CChainParams) (n : Node) : Prop where
  ledger : n.assets.ledger = chainLedger env params n.chain
  inStep : n.assets.InStep
  replays : ∀ n' : Node, Grown env params (fun _ _ => True) n' → n'.chain = n.chain →
    n'.view.bestBlock = n.view.bestBlock →
    n'.assets.usdsoq.authority = n.assets.usdsoq.authority →
    n'.assets.btcsoq.authority = n.assets.btcsoq.authority →
    ∀ blocks, (replay env params n blocks).map Node.outcome =
      (replay env params n' blocks).map Node.outcome

/-- A sound node that is restarted replays like one that never stopped. -/
theorem Sound.restored (h : Sound env params n) : Restored env params n where
  ledger := h.ledger_eq
  inStep := h.inStep
  replays := by
    intro n' hgrown hchain hbest husd hbtc blocks
    have hsound := hgrown.sound
    have hledger : n'.assets.ledger = n.assets.ledger := by
      rw [h.ledger_eq, hsound.ledger_eq, hchain]
    have hview : n.view = n'.view := by
      rw [h.stack.coinStack.view_eq, hsound.stack.coinStack.view_eq, hchain, hbest]
    refine replay_agrees ⟨⟨?_, husd.symm, hsound.inStep.usdsoq, h.inStep.usdsoq⟩,
      ⟨?_, hbtc.symm, hsound.inStep.btcsoq, h.inStep.btcsoq⟩, ?_⟩ hview hchain.symm
    · exact (congrArg Ledger.usdsoq hledger).symm
    · exact (congrArg Ledger.btcsoq hledger).symm
    · exact (congrArg Ledger.minted hledger).symm

/-- The blocks in which the chain and the one of the last flush differ, and the block that is
    connected or disconnected when the process stops, move no asset: none has an authority
    transaction of an asset that is active there. -/
structure QuietSinceFlush (params : CChainParams) (m : Machine)
    (atWork : Option (CBlockIndex × CBlock)) : Prop where
  since : ∃ base up down, m.node.chain = up ++ base ∧ m.diskChain = down ++ base ∧
    ∀ e ∈ up ++ down, Quiet params e.idx e.block
  atWork : ∀ b ∈ atWork, Quiet params b.1 b.2

/-- The node is sound, and so is what the last flush wrote of it. -/
structure Machine.Sound (env : Env) (params : CChainParams) (m : Machine) : Prop where
  node : Soqucoin.Sound env params m.node
  disk : LedgerStack env params m.diskChain m.diskView (chainLedger env params m.diskChain)

theorem QuietSinceFlush.ledger_eq {atWork : Option (CBlockIndex × CBlock)}
    (h : QuietSinceFlush params m atWork) :
    chainLedger env params m.node.chain = chainLedger env params m.diskChain := by
  obtain ⟨base, up, down, hchain, hdisk, hquiet⟩ := h.since
  rw [hchain, hdisk, chainLedger_quiet fun e he => hquiet e (List.mem_append_left _ he),
    chainLedger_quiet fun e he => hquiet e (List.mem_append_right _ he)]

/-- A call at work on a quiet block has written nothing. -/
theorem QuietSinceFlush.written_eq_nil {atWork : Option (CBlockIndex × CBlock)}
    {written : List RecordWrite} (h : QuietSinceFlush params m atWork)
    (hnode : m.node.assets.InStep) (hwritten : Written env params m.node atWork written) :
    written = [] := by
  cases hwritten with
  | idle => rfl
  | connecting idx io block p admitted valid writes =>
    rw [(h.atWork _ rfl).commitWrites_eq_nil hnode admitted valid] at writes
    exact List.prefix_nil.mp writes
  | disconnecting e rest blockundo fClean view tip pruned undo coins writes =>
    rw [Quiet.disconnectWrites_eq_nil (h.atWork _ rfl)] at writes
    exact List.prefix_nil.mp writes

/-- A restart after a quiet time leaves a sound machine. -/
theorem Machine.Sound.restarted (h : m.Sound env params) {atWork : Option (CBlockIndex × CBlock)}
    {written : List RecordWrite} (hwritten : Written env params m.node atWork written)
    (hquiet : QuietSinceFlush params m atWork) (keys : AssetId → Authority) :
    Soqucoin.Sound env params (m.restarted written keys) where
  stack := by
    -- nothing was written, and the ledgers of the two chains are that of their common part
    rw [hquiet.written_eq_nil h.node.inStep hwritten, Machine.restarted, Assets.reload_ledger]
    show LedgerStack env params m.diskChain m.diskView m.node.assets.ledger
    rw [h.node.ledger_eq, hquiet.ledger_eq]
    exact h.disk
  inStep := Assets.reload_inStep keys _

/-- A step of the machine, a crash included, keeps it sound. -/
theorem Machine.Sound.step {m m' : Machine} (h : m.Sound env params)
    (hstep : MachineStep env params (Undoable env params) (QuietSinceFlush params) m m') :
    m'.Sound env params := by
  cases hstep with
  | flush => exact ⟨h.node, h.node.ledger_eq ▸ h.node.stack⟩
  | crash atWork written keys stop may => exact ⟨h.restarted stop may keys, h.disk⟩
  | node step undo =>
    refine ⟨?_, h.disk⟩
    cases step with
    | connect idx io block height notGenesis accepted =>
      exact h.node.connected height notGenesis accepted
    | disconnect e rest tip clean => exact h.node.disconnected tip (undo e tip) clean

theorem Machine.Reached.step {mayUndo : Entry → List Entry → Prop}
    {mayCrash : Machine → Option (CBlockIndex × CBlock) → Prop} {m' : Machine}
    (h : m.Reached env params mayUndo mayCrash)
    (hstep : MachineStep env params mayUndo mayCrash m m') :
    m'.Reached env params mayUndo mayCrash := by
  obtain ⟨n, hstart, hrun⟩ := h
  exact ⟨n, hstart, hrun.tail hstep⟩

/-- A connected block makes the chain longer, so `mayUndo` asks nothing of it. -/
theorem Machine.Reached.connect {mayUndo : Entry → List Entry → Prop}
    {mayCrash : Machine → Option (CBlockIndex × CBlock) → Prop}
    (h : m.Reached env params mayUndo mayCrash) (idx : CBlockIndex) (io : NodeIO) (block : CBlock)
    (height : idx.nHeight = m.node.chain.length + 1) (notGenesis : ¬ isGenesis env params block)
    (accepted : (connectBlock env params idx io false m.node.assets m.node.view block).verdict =
      .ok ()) :
    ({ m with node := m.node.connected env params idx io block } : Machine).Reached env params
      mayUndo mayCrash := by
  refine h.step (.node (.connect idx io block height notGenesis accepted) fun e he => ?_)
  have hlength := congrArg List.length he
  rw [Node.connected, List.length_cons, List.length_cons] at hlength
  omega

/-- **The asset state survives a crash that finds no asset moved since the flush.**  In every run
    that disconnects only blocks that can be undone and crashes only where the blocks since the
    last flush and the block at work are quiet, every node is as connecting the blocks of its
    chain leaves it; so is the node that starts after such a crash, wherever the process stops. -/
theorem crash_consistent {m : Machine}
    (h : m.Reached env params (Undoable env params) (QuietSinceFlush params)) :
    Restored env params m.node ∧
      ∀ atWork written keys, Written env params m.node atWork written →
        QuietSinceFlush params m atWork → Restored env params (m.restarted written keys) := by
  have hsound : m.Sound env params := by
    obtain ⟨n, hstart, hrun⟩ := h
    induction hrun with
    | refl => exact ⟨hstart.sound, hstart.sound.ledger_eq ▸ hstart.sound.stack⟩
    | tail _ hstep ih => exact ih.step hstep
  exact ⟨hsound.node.restored, fun atWork written keys hwritten hquiet =>
    (hsound.restarted hwritten hquiet keys).restored⟩

end Chains

namespace Sample

/-- The key set of an asset. -/
def keysOf (a : Assets) : AssetId → Authority
  | .usdsoq => a.usdsoq.authority
  | .btcsoq => a.btcsoq.authority

/-- A block that mints 100. -/
def mintBlock : CBlock :=
  block 2 [transaction 10 [spend 1 (authorityWitness 0x55 [1, 2])] [pay OP_5 0, pay OP_7 100]]

/-- A node that has minted since the coins of the first block were flushed. -/
def unflushed (params : CChainParams) : Machine :=
  ⟨bootstrapMint params, (startNode.connected (env sameByte) params (index 1) io (block 1 [])).view,
    (startNode.connected (env sameByte) params (index 1) io (block 1 [])).chain⟩

/-- The node restarted after the mint, without its index flush. -/
def crashed (params : CChainParams) : Node :=
  (unflushed params).restarted [] (keysOf (bootstrapMint params).assets)

/-- The minted coins are paid on, in two parts. -/
def transferBlock : CBlock :=
  block 3 [transaction 11 [⟨⟨Uint256.fill 10, 1⟩, [], 0xffffffff,
    [List.replicate 2421 1, 0 :: List.replicate 1312 1]⟩] [pay OP_7 60, pay OP_7 40]]

theorem transferBlock_quiet : Quiet params (index 3) transferBlock :=
  ⟨fun _ => by decide, fun _ => by decide⟩

/-- A machine whose last block, a transfer, is not flushed. -/
def transferred : Machine :=
  ⟨(bootstrapMint params).connected (env sameByte) params (index 3) io transferBlock,
    (bootstrapMint params).view, (bootstrapMint params).chain⟩

/-- The node that starts again from it. -/
def restarted : Node := transferred.restarted [] (keysOf (bootstrapMint params).assets)

end Sample

open Sample in
/-- A mint is connected and flushed; a transfer of what was minted is connected, and the process
    stops in the next block.  The node starts with the mint and takes the transfer again. -/
theorem crash_consistent_transfer :
    let atWork := some (index 4, block 4 [])
    transferred.Reached (Sample.env sameByte) params (Undoable (Sample.env sameByte) params)
        (QuietSinceFlush params) ∧
      Written (Sample.env sameByte) params transferred.node atWork [] ∧
      QuietSinceFlush params transferred atWork ∧
      Restored (Sample.env sameByte) params restarted ∧
      restarted.assets.usdsoq.supply.totalMinted = 100 ∧
      (connectBlock (Sample.env sameByte) params (index 3) io false restarted.assets
        restarted.view transferBlock).verdict = .ok () := by
  have hstart : (⟨startNode, startNode.view, []⟩ : Machine).Reached (Sample.env sameByte) params
      (Undoable (Sample.env sameByte) params) (QuietSinceFlush params) :=
    ⟨startNode, startNode_start, .refl⟩
  have hfirst := hstart.connect (index 1) io (block 1 []) rfl (not_isGenesis _) firstNode_accepted
  have hmint := hfirst.connect (index 2) io mintBlock rfl (not_isGenesis _) (by decide +kernel)
  have hflushed : (⟨bootstrapMint params, (bootstrapMint params).view,
      (bootstrapMint params).chain⟩ : Machine).Reached (Sample.env sameByte) params
        (Undoable (Sample.env sameByte) params) (QuietSinceFlush params) := hmint.step (.flush _)
  have hheight : (index 3).nHeight = (bootstrapMint params).chain.length + 1 := rfl
  have haccepted : (connectBlock (Sample.env sameByte) params (index 3) io false
      (bootstrapMint params).assets (bootstrapMint params).view transferBlock).verdict =
        .ok () := by
    decide +kernel
  have hreached : transferred.Reached (Sample.env sameByte) params
      (Undoable (Sample.env sameByte) params) (QuietSinceFlush params) := by
    have hconnected := hflushed.connect (index 3) io transferBlock hheight (not_isGenesis _)
      haccepted
    dsimp only at hconnected
    rw [transferred]
    exact hconnected
  have hnext : (connectBlock (Sample.env sameByte) params (index 4) io false
      transferred.node.assets transferred.node.view (block 4 [])).verdict = .ok () := by
    decide +kernel
  obtain ⟨hadm, ⟨p, hp⟩, -⟩ := (connectBlock_verdict_iff (not_isGenesis _)).mp hnext
  have hstop : Written (Sample.env sameByte) params transferred.node (some (index 4, block 4 []))
      [] :=
    .connecting _ io _ p hadm hp List.nil_prefix
  have hquiet : QuietSinceFlush params transferred (some (index 4, block 4 [])) := by
    refine ⟨⟨(bootstrapMint params).chain, [_], [], rfl, rfl, ?_⟩, ?_⟩
    · intro e he
      rw [List.mem_singleton.mp he]
      exact transferBlock_quiet
    · rintro _ ⟨⟩
      exact ⟨fun _ => by decide, fun _ => by decide⟩
  exact ⟨hreached, hstop, hquiet, (crash_consistent hreached).2 _ [] _ hstop hquiet,
    by decide +kernel, by decide +kernel⟩

open Sample in
/-- A mint is connected and the process stops before the coins are flushed.  The node starts again
    with the mint counted and its block to be connected; it refuses the block, and where the
    outpoint is not enforced yet it counts the mint a second time. -/
theorem unflushed_mint_not_restored :
    (unflushed params).Reached (Sample.env sameByte) params (fun _ _ => True)
        (fun _ _ => True) ∧
      ¬ Restored (Sample.env sameByte) params (crashed params) ∧
      (crashed params).chain.length = 1 ∧
      (crashed params).assets.usdsoq.supply.totalMinted = 100 ∧
      (firstNode.assets.usdsoq.supply.totalMinted = 0 ∧
        (connectBlock (Sample.env sameByte) params (index 2) io false firstNode.assets
          firstNode.view mintBlock).verdict = .ok ()) ∧
      (connectBlock (Sample.env sameByte) params (index 2) io false (crashed params).assets
        (crashed params).view mintBlock).verdict =
          .error (.dos 100 "bad-usdsoq-authority-outpoint") ∧
      (connectBlock (Sample.env sameByte) laxParams (index 2) io false (crashed laxParams).assets
        (crashed laxParams).view mintBlock).verdict = .ok () ∧
      (connectBlock (Sample.env sameByte) laxParams (index 2) io false (crashed laxParams).assets
        (crashed laxParams).view mintBlock).assets.usdsoq.supply.totalMinted = 200 := by
  refine ⟨?_, ?_, by decide +kernel, by decide +kernel, ⟨by decide +kernel, by decide +kernel⟩,
    by decide +kernel, by decide +kernel, by decide +kernel⟩
  · have hstart : (⟨startNode, startNode.view, []⟩ : Machine).Reached (Sample.env sameByte) params
        (fun _ _ => True) (fun _ _ => True) := ⟨startNode, startNode_start, .refl⟩
    have hfirst := hstart.connect (index 1) io (block 1 []) rfl (not_isGenesis _)
      firstNode_accepted
    exact (hfirst.step (.flush _)).connect (index 2) io mintBlock rfl (not_isGenesis _)
      (by decide +kernel)
  · intro hrest
    have hminted := congrArg (fun l => l.usdsoq.supply.totalMinted) hrest.ledger
    revert hminted
    decide +kernel

end Soqucoin
