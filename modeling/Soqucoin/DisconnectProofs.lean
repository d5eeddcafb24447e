import Soqucoin.AssetPassProofs

/-! # Disconnecting a block that was connected

`DisconnectBlock` is taken apart once here.  On a block `ConnectBlock` has accepted it always goes
through, whatever it finds: the undo data fits the transactions (`reorg_disconnected`).  What it
leaves of each asset is the subject of the files after this one. -/

namespace Soqucoin

open CheckedLoop

variable {env : Env} {params : CChainParams} {idx : CBlockIndex} {io : NodeIO}
variable {a : Assets} {view : CoinsView} {block : CBlock} {fp : FirstPass} {p : Pending}

/-! ## The coin loop goes through -/

/-- The undo data has an entry for every input. -/
def UndoFits (q : CTransaction × Option CTxUndo) : Prop :=
  ∀ undo ∈ q.2, undo.length = q.1.vin.length

/-- With undo data that fits, a transaction can be disconnected. -/
theorem disconnectTx_ok (env : Env) (nHeight : Int) (s : Bool × CoinsView)
    {q : CTransaction × Option CTxUndo} (h : UndoFits q) :
    ∃ t, disconnectTx env nHeight s q = .ok t := by
  rw [disconnectTx]
  cases hundo : q.2 with
  | none => exact ⟨_, rfl⟩
  | some undo =>
    have hlen : ¬ undo.length ≠ q.1.vin.length := not_not.mpr (h undo hundo)
    simp only [hlen, if_false]
    exact ⟨_, rfl⟩

/-- So can a list of them. -/
theorem disconnectTxs_ok (env : Env) (nHeight : Int) :
    ∀ {l : List (CTransaction × Option CTxUndo)} (s : Bool × CoinsView),
      (∀ q ∈ l, UndoFits q) → ∃ t, l.foldlM (disconnectTx env nHeight) s = .ok t := by
  intro l
  induction l with
  | nil => intro s _; exact ⟨s, rfl⟩
  | cons q l ih =>
    intro s h
    obtain ⟨m, hm⟩ := disconnectTx_ok env nHeight s (h q (List.mem_cons_self ..))
    obtain ⟨t, ht⟩ := ih m fun q' hq' => h q' (List.mem_cons_of_mem _ hq')
    exact ⟨t, foldlM_cons_eq_ok.mpr ⟨m, hm, ht⟩⟩

/-- The undo data of connected transactions fits their inputs. -/
theorem Connects.undoFits {fQueue : Bool} {v v' : CoinsView}
    {txs : List (CTransaction × CTxUndo)} {chks : List CScriptCheck}
    (h : Connects env params idx a fQueue v txs v' chks) :
    ∀ q ∈ txs.map undoPair, UndoFits q := by
  induction h with
  | nil v =>
    intro q hq
    cases hq
  | @cons v v₁ v' tx undo rest chk chks _ _ updated _ ih =>
    intro q hq
    rcases List.mem_cons.mp hq with rfl | hq
    · intro u hu
      cases hcb : tx.isCoinBase with
      | true =>
        rw [undoPair, hcb, if_pos rfl] at hu
        cases hu
      | false =>
        rw [undoPair_of_not_coinbase undo hcb] at hu
        obtain rfl := Option.some.inj hu
        obtain ⟨v₂, hspend, -, -⟩ := updateCoins_of_not_coinbase hcb updated
        exact spendInputs_length hspend
    · exact ih q hq

/-- The undo data of an accepted block can be applied to any view. -/
theorem Accepted.disconnectCoins_ok {fJustCheck : Bool}
    (h : Accepted env params idx io fJustCheck a view block fp p) (w : CoinsView) :
    ∃ fClean v', disconnectCoins env idx.nHeight w block.vtx fp.undos.tail = .ok (fClean, v') := by
  obtain ⟨coinbase, txs, hvtx, -, -⟩ := checkBlock_shape h.checked
  have hlen : fp.undos.tail.length + 1 = block.vtx.length := by
    rw [List.length_tail, h.undos_length, hvtx, List.length_cons]
    omega
  have hfits : ∀ q ∈ (withUndo block.vtx fp.undos.tail).reverse, UndoFits q := by
    intro q hq
    rw [List.mem_reverse, h.withUndo_eq] at hq
    exact h.connects.undoFits q hq
  obtain ⟨⟨fClean, v'⟩, hrun⟩ := disconnectTxs_ok env idx.nHeight (true, w) hfits
  exact ⟨fClean, v', require_bind_eq_ok.mpr ⟨decide_eq_true hlen, hrun⟩⟩

/-! ## The stages -/

/-- What a `DisconnectBlock` that goes through leaves behind; `v'` is the view
    with the coins put back. -/
structure Disconnected (env : Env) (params : CChainParams) (idx : CBlockIndex) (a : Assets)
    (block : CBlock) (blockundo : CBlockUndo) (fClean : Bool) (v' : CoinsView)
    (d : DisconnectResult) : Prop where
  usdsoq : d.assets.usdsoq = if (blockFlags params idx).usdsoq then
      (disconnectUSDSOQ (params.getConsensus idx.nHeight) idx.nHeight v' block.vtx blockundo
        a.usdsoq).2
    else a.usdsoq
  btcsoq : d.assets.btcsoq = if (blockFlags params idx).btcsoq then
      (disconnectBTCSOQ (params.getConsensus idx.nHeight) idx.nHeight v' block.vtx blockundo
        a.btcsoq).2
    else a.btcsoq
  dbMinted : d.assets.dbMinted = if (blockFlags params idx).btcsoq then
      (btcsoqMintOps (params.getConsensus idx.nHeight) idx.nHeight block.vtx).foldl
        (fun s mint => s.erase mint.deposit) a.dbMinted
    else a.dbMinted
  view : d.view = v'.setBestBlock idx.hashPrevBlock
  verdict : d.verdict = .ok (fClean &&
    (if (blockFlags params idx).usdsoq then
      (disconnectUSDSOQ (params.getConsensus idx.nHeight) idx.nHeight v' block.vtx blockundo
        a.usdsoq).1
    else true) &&
    (if (blockFlags params idx).btcsoq then
      (disconnectBTCSOQ (params.getConsensus idx.nHeight) idx.nHeight v' block.vtx blockundo
        a.btcsoq).1
    else true))

/-- `DisconnectBlock` undoes the coins and then each asset in turn. -/
theorem disconnectBlock_disconnected (params : CChainParams) (a : Assets) {w v' : CoinsView}
    {blockundo : CBlockUndo} {fClean : Bool}
    (hpruned : idx.witnessPruned = false) (hbest : idx.blockHash = w.bestBlock)
    (hcoins : disconnectCoins env idx.nHeight w block.vtx blockundo = .ok (fClean, v')) :
    Disconnected env params idx a block blockundo fClean v'
      (disconnectBlock env params idx a w block (some blockundo)) := by
  have husd : (blockFlags params idx).usdsoq =
      deploymentActiveAtHeight idx.nHeight (params.getConsensus idx.nHeight) .usdsoq := rfl
  have hbtc : (blockFlags params idx).btcsoq =
      deploymentActiveAtHeight idx.nHeight (params.getConsensus idx.nHeight) .btcsoq := rfl
  rw [disconnectBlock, if_neg (Bool.eq_false_iff.mp hpruned), if_neg (not_not.mpr hbest)]
  simp only [hcoins, ← husd, ← hbtc]
  cases hu : (blockFlags params idx).usdsoq <;> cases hb : (blockFlags params idx).btcsoq <;>
    exact ⟨by rw [hu]; rfl, by rw [hb]; rfl, by rw [hb], rfl, by rw [hu, hb]; rfl⟩

/-- What disconnection makes of one asset, field by field. -/
structure Undone (isMarker : CScript → Bool) (v' : CoinsView) (vtx : List CTransaction)
    (totals : Int × Int) (ops : List FreezeOp) (s : AssetState) (r : Bool × AssetState) :
    Prop where
  clean : r.1 = (undoAssetSupply s totals).1
  supply : r.2.supply = (undoAssetSupply s totals).2.supply
  dbSupply : r.2.dbSupply = (undoAssetSupply s totals).2.dbSupply
  outpoint : r.2.authorityOutpoint = (revertedOutpoint isMarker v' vtx).getD s.authorityOutpoint
  dbOutpoint : r.2.dbAuthorityOutpoint =
    (revertedOutpoint isMarker v' vtx).or s.dbAuthorityOutpoint
  frozen : r.2.dbFrozen = ops.foldl Toggle.undo s.dbFrozen

theorem undoAssetSupply_frame (s : AssetState) (totals : Int × Int) :
    (undoAssetSupply s totals).2.authorityOutpoint = s.authorityOutpoint ∧
      (undoAssetSupply s totals).2.dbAuthorityOutpoint = s.dbAuthorityOutpoint ∧
      (undoAssetSupply s totals).2.dbFrozen = s.dbFrozen := by
  simp only [undoAssetSupply]
  split <;> exact ⟨rfl, rfl, rfl⟩

/-- The stages that undo an asset, together. -/
theorem undone_of_stages (isMarker : CScript → Bool) (v' : CoinsView) (vtx : List CTransaction)
    (totals : Int × Int) (ops : List FreezeOp) (s : AssetState) :
    Undone isMarker v' vtx totals ops s
      ((undoAssetSupply s totals).1,
        { undoAssetOutpoint isMarker v' vtx (undoAssetSupply s totals).2 with
          dbFrozen := ops.foldl Toggle.undo
            (undoAssetOutpoint isMarker v' vtx (undoAssetSupply s totals).2).dbFrozen }) := by
  obtain ⟨hout, hdb, hfrozen⟩ := undoAssetSupply_frame s totals
  cases hrev : revertedOutpoint isMarker v' vtx with
  | none =>
    simp only [undoAssetOutpoint, hrev]
    exact ⟨rfl, rfl, rfl, by rw [hrev]; exact hout, by rw [hrev]; exact hdb, by rw [hfrozen]⟩
  | some o =>
    simp only [undoAssetOutpoint, hrev]
    exact ⟨rfl, rfl, rfl, by rw [hrev]; rfl, by rw [hrev]; rfl, by rw [hfrozen]⟩

section

variable (consensus : Consensus) (nHeight : Int) (v' : CoinsView) (vtx : List CTransaction)
  (blockundo : CBlockUndo) (s : AssetState)
include consensus nHeight v' vtx blockundo s

theorem disconnectUSDSOQ_undone :
    Undone isUSDSOQAuthorityMarker v' vtx
      (reversedTotals isUSDSOQAuthorityMarker CTxOut.isUSDSOQ CTxOut.isAnyUSDSOQ
        (withUndo vtx blockundo).reverse)
      (usdsoqFreezeOps consensus nHeight vtx) s
      (disconnectUSDSOQ consensus nHeight v' vtx blockundo s) :=
  undone_of_stages ..

theorem disconnectBTCSOQ_undone :
    Undone isBTCSOQAuthorityMarker v' vtx
      (reversedTotals isBTCSOQAuthorityMarker CTxOut.isBTCSOQ CTxOut.isBTCSOQ
        (withUndo vtx blockundo).reverse)
      (btcsoqFreezeOps consensus nHeight vtx) s
      (disconnectBTCSOQ consensus nHeight v' vtx blockundo s) :=
  undone_of_stages ..

end

/-- `DisconnectBlock` on what a real `ConnectBlock` has left. -/
def reorg (env : Env) (params : CChainParams) (idx : CBlockIndex) (io : NodeIO) (a : Assets)
    (view : CoinsView) (block : CBlock) : DisconnectResult :=
  let r := connectBlock env params idx io false a view block
  disconnectBlock env params idx r.assets r.view block r.blockundo

/-- **Disconnection goes through** on an accepted block that has kept its witnesses. -/
theorem Accepted.reorg_disconnected
    (h : Accepted env params idx io false a view block fp p) (hpruned : idx.witnessPruned = false) :
    ∃ fClean v',
      disconnectCoins env idx.nHeight (fp.view.setBestBlock idx.blockHash) block.vtx
        fp.undos.tail = .ok (fClean, v') ∧
      Disconnected env params idx (commitAssets (initAuthorities params idx a) p) block
        fp.undos.tail fClean v' (reorg env params idx io a view block) := by
  obtain ⟨fClean, v', hcoins⟩ := h.disconnectCoins_ok (fp.view.setBestBlock idx.blockHash)
  refine ⟨fClean, v', hcoins, ?_⟩
  have hview := h.view_eq
  have hassets := h.assets_eq
  rw [if_neg Bool.false_ne_true] at hview hassets
  rw [reorg]
  simp only [hview, hassets, h.blockundo_eq]
  exact disconnectBlock_disconnected _ _ hpruned rfl hcoins

section

variable (hgen : isGenesis env params block)
  (haccept : (connectBlock env params idx io false a view block).verdict = .ok ())
include hgen haccept

/-- The genesis block leaves the assets alone and has no undo data. -/
theorem connectBlock_genesis :
    (connectBlock env params idx io false a view block).assets = a ∧
      (connectBlock env params idx io false a view block).blockundo = none := by
  rcases connectBlock_of_isGenesis hgen with ⟨e, he⟩ | hok
  · rw [he] at haccept
    cases haccept
  · rw [hok]
    exact ⟨rfl, rfl⟩

theorem reorg_genesis : (reorg env params idx io a view block).assets = a := by
  obtain ⟨hassets, hundo⟩ := connectBlock_genesis hgen haccept
  simp only [reorg, hassets, hundo, disconnectBlock]
  split
  · rfl
  · split <;> rfl

end

end Soqucoin
