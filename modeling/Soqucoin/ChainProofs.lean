import Mathlib.Logic.Relation
import Soqucoin.DisconnectProofs

/-! # Runs of a node

A node connects blocks on its tip and disconnects its tip.  A run starts right after the genesis
block, whose connection adds no coin and touches no asset.  On every reachable node the coins view
is the chain's transactions applied to the empty view (`Reachable.coinStack`), and the tracked
outpoints in memory are those of the database (`Reachable.outpointsAgree`). -/

namespace Soqucoin

open CheckedLoop

variable {n : Node} {idx : CBlockIndex} {fp : FirstPass} {p : Pending} {v v' : CoinsView}
  {chain rest : List Entry} {e : Entry} {a : Assets}

section Runs

variable {env : Env} {params : CChainParams}

/-! ## Nodes and steps -/

/-- A block of the active chain, with its undo data on disk. -/
structure Entry where
  block : CBlock
  idx : CBlockIndex
  blockundo : Option CBlockUndo

/-- The state of a node; the tip of the chain comes first. -/
structure Node where
  assets : Assets
  view : CoinsView
  chain : List Entry

/-- A node connects a block that `ConnectBlock` accepts, or disconnects its tip
    when `DisconnectBlock` reports a clean undo. -/
inductive Step (env : Env) (params : CChainParams) : Node → Node → Prop
  | connect {n : Node} (idx : CBlockIndex) (io : NodeIO) (block : CBlock)
      (height : idx.nHeight = n.chain.length + 1) (notGenesis : ¬ isGenesis env params block)
      (accepted : (connectBlock env params idx io false n.assets n.view block).verdict = .ok ()) :
      Step env params n
        ⟨(connectBlock env params idx io false n.assets n.view block).assets,
          (connectBlock env params idx io false n.assets n.view block).view,
          ⟨block, idx, (connectBlock env params idx io false n.assets n.view block).blockundo⟩ ::
            n.chain⟩
  | disconnect {n : Node} (e : Entry) (rest : List Entry) (tip : n.chain = e :: rest)
      (clean : (disconnectBlock env params e.idx n.assets n.view e.block e.blockundo).verdict =
        .ok true) :
      Step env params n
        ⟨(disconnectBlock env params e.idx n.assets n.view e.block e.blockundo).assets,
          (disconnectBlock env params e.idx n.assets n.view e.block e.blockundo).view, rest⟩

/-- Nothing minted, tracked, frozen or recorded; the keys may be set. -/
structure AssetState.Empty (s : AssetState) : Prop where
  supply : s.supply = Supply.zero
  outpoint : s.authorityOutpoint = COutPoint.null
  dbSupply : s.dbSupply = none
  dbOutpoint : s.dbAuthorityOutpoint = none
  frozen : s.dbFrozen = ∅

/-- The state a run starts in. -/
structure Node.Start (n : Node) : Prop where
  usdsoq : n.assets.usdsoq.Empty
  btcsoq : n.assets.btcsoq.Empty
  minted : n.assets.dbMinted = ∅
  view : ∃ hash, n.view = CoinsView.emptyView hash
  chain : n.chain = []

/-- The states a node can get into. -/
def Reachable (env : Env) (params : CChainParams) (n : Node) : Prop :=
  ∃ n₀ : Node, n₀.Start ∧ Relation.ReflTransGen (Step env params) n₀ n

theorem Reachable.invariant {P : Node → Prop} (start : ∀ n, n.Start → P n)
    (step : ∀ n n', Step env params n n' → P n → P n') (h : Reachable env params n) : P n := by
  obtain ⟨n₀, hstart, hrun⟩ := h
  induction hrun with
  | refl => exact start n₀ hstart
  | tail _ hstep ih => exact step _ _ hstep ih

/-- A reachable node after one more connected block. -/
def Node.connected (env : Env) (params : CChainParams) (n : Node) (idx : CBlockIndex)
    (io : NodeIO) (block : CBlock) : Node :=
  let r := connectBlock env params idx io false n.assets n.view block
  ⟨r.assets, r.view, ⟨block, idx, r.blockundo⟩ :: n.chain⟩

theorem Reachable.connected (h : Reachable env params n) (idx : CBlockIndex) (io : NodeIO)
    (block : CBlock) (height : idx.nHeight = n.chain.length + 1)
    (notGenesis : ¬ isGenesis env params block)
    (accepted : (connectBlock env params idx io false n.assets n.view block).verdict = .ok ()) :
    Reachable env params (n.connected env params idx io block) := by
  obtain ⟨n₀, hstart, hrun⟩ := h
  exact ⟨n₀, hstart, hrun.tail (.connect idx io block height notGenesis accepted)⟩

section

variable {io : NodeIO} {block : CBlock}
  (h : Accepted env params idx io false n.assets n.view block fp p)
include h

theorem Accepted.connected_assets :
    (n.connected env params idx io block).assets =
      commitAssets (initAuthorities params idx n.assets) p := by
  have hassets := h.assets_eq
  rwa [if_neg Bool.false_ne_true] at hassets

theorem Accepted.connected_view :
    (n.connected env params idx io block).view = fp.view.setBestBlock idx.blockHash := by
  have hview := h.view_eq
  rwa [if_neg Bool.false_ne_true] at hview

end

/-- A node that has only connected blocks, all of them within a condition. -/
inductive Grown (env : Env) (params : CChainParams) (within : CBlockIndex → CBlock → Prop) :
    Node → Prop
  | start {n : Node} (h : n.Start) : Grown env params within n
  | block {n : Node} (below : Grown env params within n) (idx : CBlockIndex) (io : NodeIO)
      (block : CBlock) (height : idx.nHeight = n.chain.length + 1)
      (notGenesis : ¬ isGenesis env params block)
      (accepted : (connectBlock env params idx io false n.assets n.view block).verdict = .ok ())
      (meets : within idx block) : Grown env params within (n.connected env params idx io block)

/-- The best block plays no part in spending inputs. -/
theorem spendInputs_setBestBlock (hash : Uint256) :
    ∀ {vin : List CTxIn} {v v' : CoinsView} {undos : CTxUndo},
      spendInputs v vin = .ok (v', undos) →
      spendInputs (v.setBestBlock hash) vin = .ok (v'.setBestBlock hash, undos) := by
  intro vin
  induction vin with
  | nil =>
    intro v v' undos h
    obtain ⟨rfl, rfl⟩ := Prod.mk.inj (Except.ok.inj h)
    rfl
  | cons txin rest ih =>
    intro v v' undos h
    obtain ⟨v₁, u, us, h₁, h₂, rfl⟩ := spendInputs_cons_eq_ok.mp h
    obtain ⟨txout, ho, rfl, rfl⟩ := spendInput_eq_ok.mp h₁
    refine spendInputs_cons_eq_ok.mpr ⟨_, _, us, ?_, ih h₂, rfl⟩
    exact spendInput_eq_ok.mpr ⟨txout, ho, rfl, rfl⟩

/-- Nor in updating the coins of a transaction. -/
theorem updateCoins_setBestBlock (hash : Uint256) {tx : CTransaction} {nHeight : Int}
    {undo : CTxUndo} (h : updateCoins env v tx nHeight = .ok (v', undo)) :
    updateCoins env (v.setBestBlock hash) tx nHeight = .ok (v'.setBestBlock hash, undo) := by
  obtain ⟨v₁, hspend, hpruned, rfl⟩ := updateCoins_eq_ok.mp h
  refine updateCoins_eq_ok.mpr ⟨v₁.setBestBlock hash, ?_, hpruned, rfl⟩
  rw [spendTx] at hspend ⊢
  split at hspend
  · rename_i hcb
    obtain ⟨rfl, rfl⟩ := Prod.mk.inj (Except.ok.inj hspend)
    rw [if_pos hcb]
  · rename_i hcb
    rw [if_neg hcb]
    exact spendInputs_setBestBlock hash hspend

/-- Nor in those of a block. -/
theorem connectCoins_setBestBlock (hash : Uint256) {nHeight : Int} :
    ∀ {txs : List CTransaction} {v v' : CoinsView} {undos : List CTxUndo},
      connectCoins env nHeight v txs = .ok (v', undos) →
      connectCoins env nHeight (v.setBestBlock hash) txs = .ok (v'.setBestBlock hash, undos) := by
  intro txs
  induction txs with
  | nil =>
    intro v v' undos h
    obtain ⟨rfl, rfl⟩ := Prod.mk.inj (Except.ok.inj h)
    rfl
  | cons tx rest ih =>
    intro v v' undos h
    obtain ⟨v₁, u, us, h₁, h₂, rfl⟩ := connectCoins_cons_eq_ok.mp h
    exact connectCoins_cons_eq_ok.mpr
      ⟨_, u, us, updateCoins_setBestBlock hash h₁, ih h₂, rfl⟩

/-! ## The coins of a chain -/

/-- A block keeps the heights of records positive. -/
theorem HeightsPositive_connectCoins {nHeight : Int} (hpos : 0 < nHeight) :
    ∀ {txs : List CTransaction} {v v' : CoinsView} {undos : List CTxUndo},
      v.HeightsPositive → connectCoins env nHeight v txs = .ok (v', undos) →
      v'.HeightsPositive := by
  intro txs
  induction txs with
  | nil =>
    intro v v' undos hv h
    obtain ⟨rfl, _⟩ := Prod.mk.inj (Except.ok.inj h)
    exact hv
  | cons tx rest ih =>
    intro v v' undos hv h
    obtain ⟨v₁, u, us, h₁, h₂, rfl⟩ := connectCoins_cons_eq_ok.mp h
    exact ih (HeightsPositive_updateCoins hpos hv h₁) h₂

/-- The block's transactions have been connected to a view that had no unspent
    record of their ids. -/
structure CoinLayer (env : Env) (e : Entry) (nHeight : Int) (v v' : CoinsView) : Prop where
  height : e.idx.nHeight = nHeight
  bestBlock : e.idx.hashPrevBlock = v.bestBlock
  shape : ∃ coinbase txs, e.block.vtx = coinbase :: txs ∧ coinbase.isCoinBase = true ∧
    ∀ tx ∈ txs, tx.isCoinBase = false
  fresh : ∀ tx ∈ e.block.vtx, (v.record (env.getHash tx)).isPruned = true
  coins : ∃ undos, connectCoins env nHeight v e.block.vtx = .ok (v', undos) ∧
    e.blockundo = some undos.tail

/-- A view that is the result of connecting these blocks from the empty one. -/
inductive CoinStack (env : Env) : List Entry → CoinsView → Prop
  | nil (hash : Uint256) : CoinStack env [] (CoinsView.emptyView hash)
  | cons {rest : List Entry} {v v' : CoinsView} {e : Entry} (below : CoinStack env rest v)
      (layer : CoinLayer env e (rest.length + 1) v v') :
      CoinStack env (e :: rest) (v'.setBestBlock e.idx.blockHash)

/-- The coins of a chain have positive heights. -/
theorem CoinStack.heightsPositive (h : CoinStack env chain v) : v.HeightsPositive := by
  induction h with
  | nil hash =>
    intro t ht
    exact Bool.noConfusion (show true = false from ht)
  | cons _ layer ih =>
    obtain ⟨undos, hcoins, -⟩ := layer.coins
    have hpos := HeightsPositive_connectCoins (by omega) ih hcoins
    exact hpos

theorem CoinStack.height_pos (h : CoinStack env (e :: rest) v) : 0 < e.idx.nHeight := by
  cases h with
  | cons _ layer =>
    rw [layer.height]
    omega

/-- The coins of the last block can be taken back, cleanly. -/
theorem CoinLayer.disconnect {nHeight : Int} (hpos : 0 < nHeight) (hv : v.HeightsPositive)
    (h : CoinLayer env e nHeight v v') (hash : Uint256) :
    ∃ blockundo, e.blockundo = some blockundo ∧
      disconnectCoins env nHeight (v'.setBestBlock hash) e.block.vtx blockundo =
        .ok (true, v.setBestBlock hash) := by
  obtain ⟨coinbase, txs, hvtx, hcb, htxs⟩ := h.shape
  obtain ⟨undos, hcoins, hundo⟩ := h.coins
  have hfresh := h.fresh coinbase (by rw [hvtx]; exact List.mem_cons_self ..)
  have hcoins' := connectCoins_setBestBlock hash hcoins
  rw [hvtx] at hcoins'
  refine ⟨undos.tail, hundo, ?_⟩
  rw [hvtx]
  exact disconnectCoins_of_connectCoins hpos hv hcb htxs hfresh hcoins'

theorem Accepted.coinLayer {io : NodeIO} {view : CoinsView} {block : CBlock}
    (h : Accepted env params idx io false a view block fp p) :
    CoinLayer env
      ⟨block, idx, (connectBlock env params idx io false a view block).blockundo⟩ idx.nHeight
      view fp.view :=
  ⟨rfl, h.bestBlock, checkBlock_shape h.checked, checkBIP30_fresh h.bip30, fp.undos,
    h.connectCoins_eq, h.blockundo_eq⟩

/-- A disconnected layer: the view below it is left, and the stages of
    `DisconnectBlock` have run on that view. -/
theorem CoinLayer.disconnected (hbelow : CoinStack env rest v)
    (hlayer : CoinLayer env e (rest.length + 1) v v')
    (hclean : (disconnectBlock env params e.idx a (v'.setBestBlock e.idx.blockHash) e.block
      e.blockundo).verdict = .ok true) :
    ∃ blockundo, e.blockundo = some blockundo ∧
      (disconnectBlock env params e.idx a (v'.setBestBlock e.idx.blockHash) e.block
        e.blockundo).view = v ∧
      Disconnected env params e.idx a e.block blockundo true (v.setBestBlock e.idx.blockHash)
        (disconnectBlock env params e.idx a (v'.setBestBlock e.idx.blockHash) e.block
          e.blockundo) := by
  have hpruned : e.idx.witnessPruned = false := by
    by_contra hp
    unfold disconnectBlock at hclean
    rw [if_pos (Bool.of_not_eq_false hp)] at hclean
    cases hclean
  obtain ⟨blockundo, hundo, hcoins⟩ := hlayer.disconnect (by omega) hbelow.heightsPositive
    e.idx.blockHash
  rw [← hlayer.height] at hcoins
  have hd := disconnectBlock_disconnected params a hpruned rfl hcoins
  rw [hundo]
  refine ⟨blockundo, rfl, ?_, hd⟩
  rw [hd.view, hlayer.bestBlock]
  rfl

/-- A clean disconnection of the tip gives the view before it. -/
theorem disconnect_tip {w : CoinsView} (hstack : CoinStack env (e :: rest) w)
    (hclean : (disconnectBlock env params e.idx a w e.block e.blockundo).verdict = .ok true) :
    ∃ v blockundo, CoinStack env rest v ∧
      (disconnectBlock env params e.idx a w e.block e.blockundo).view = v ∧
      Disconnected env params e.idx a e.block blockundo true (v.setBestBlock e.idx.blockHash)
        (disconnectBlock env params e.idx a w e.block e.blockundo) := by
  cases hstack with
  | @cons _ v v' _ below layer =>
    obtain ⟨blockundo, -, hview, hd⟩ := layer.disconnected below hclean
    exact ⟨v, blockundo, below, hview, hd⟩

/-- Connecting and disconnecting blocks, the coins stay those of the chain. -/
theorem coinStack_step {n' : Node} (h : Step env params n n') (hn : CoinStack env n.chain n.view) :
    CoinStack env n'.chain n'.view := by
  cases h with
  | connect idx io block height notGenesis accepted =>
    obtain ⟨fp, p, hacc⟩ := connectBlock_accepted accepted notGenesis
    have hlayer := hacc.coinLayer
    rw [height] at hlayer
    rw [hacc.view_eq, if_neg Bool.false_ne_true]
    exact .cons hn hlayer
  | disconnect e rest tip clean =>
    rw [tip] at hn
    obtain ⟨v, -, hbelow, hview, -⟩ := disconnect_tip hn clean
    rw [hview]
    exact hbelow

theorem Reachable.coinStack (h : Reachable env params n) : CoinStack env n.chain n.view := by
  refine h.invariant (fun n hn => ?_) fun n n' => coinStack_step
  obtain ⟨hash, hview⟩ := hn.view
  rw [hn.chain, hview]
  exact .nil hash

/-- The coins of a chain, computed from its blocks; the best block is left at null. -/
def chainView (env : Env) : List Entry → CoinsView
  | [] => CoinsView.emptyView Uint256.null
  | e :: rest => blockView env e.idx.nHeight (chainView env rest) e.block.vtx

/-- The best block plays no part in the view along a block. -/
theorem blockView_setBestBlock (hash : Uint256) (nHeight : Int) (v : CoinsView)
    (txs : List CTransaction) :
    blockView env nHeight (v.setBestBlock hash) txs =
      (blockView env nHeight v txs).setBestBlock hash := by
  cases hv : connectCoins env nHeight v txs with
  | ok r => rw [blockView, blockView, connectCoins_setBestBlock hash hv, hv]
  | error e =>
    cases hw : connectCoins env nHeight (v.setBestBlock hash) txs with
    | ok r =>
      -- set back, a success on one view is a success on the other
      have hback := connectCoins_setBestBlock v.bestBlock hw
      cases hv.symm.trans hback
    | error e' => rw [blockView, blockView, hv, hw]

/-- The view is determined by the chain, but for the best block. -/
theorem CoinStack.view_eq (h : CoinStack env chain v) :
    v = (chainView env chain).setBestBlock v.bestBlock := by
  induction h with
  | nil hash => rfl
  | @cons rest v v' e below layer ih =>
    obtain ⟨undos, hcoins, -⟩ := layer.coins
    have hblock : blockView env e.idx.nHeight v e.block.vtx = v' := by
      rw [blockView, layer.height, hcoins]
    rw [ih, blockView_setBestBlock] at hblock
    rw [← hblock]
    rfl

theorem spentOutputs_chainView (h : CoinStack env chain v) {nHeight : Int}
    {pre : List CTransaction} {tx : CTransaction} :
    spentOutputs (blockView env nHeight v pre) tx =
      spentOutputs (blockView env nHeight (chainView env chain) pre) tx := by
  rw [h.view_eq, blockView_setBestBlock]
  rfl

/-! ## Memory and database -/

/-- The outpoint in memory is the recorded one; no record reads as null. -/
def AssetState.OutpointsAgree (s : AssetState) : Prop :=
  s.authorityOutpoint = s.dbAuthorityOutpoint.getD COutPoint.null

/-- The commit keeps the global and the record of the outpoint together. -/
theorem outpointsAgree_commitAsset {s : AssetState} (h : s.OutpointsAgree) (p : AssetPending) :
    (commitAsset s p).OutpointsAgree := by
  rw [AssetState.OutpointsAgree] at h ⊢
  show p.outpoint.getD s.authorityOutpoint =
    (p.outpoint.or s.dbAuthorityOutpoint).getD COutPoint.null
  cases p.outpoint with
  | none => exact h
  | some o => rfl

/-- So does disconnection. -/
theorem outpointsAgree_undone {isMarker : CScript → Bool} {vtx : List CTransaction}
    {totals : Int × Int} {ops : List FreezeOp} {s : AssetState} {r : Bool × AssetState}
    (hs : s.OutpointsAgree) (h : Undone isMarker v' vtx totals ops s r) : r.2.OutpointsAgree := by
  rw [AssetState.OutpointsAgree] at hs ⊢
  rw [h.outpoint, h.dbOutpoint]
  cases revertedOutpoint isMarker v' vtx with
  | none => exact hs
  | some o => rfl

/-- A step keeps the tracked outpoints and their records together. -/
theorem outpointsAgree_step {n' : Node} (h : Step env params n n')
    (hstack : CoinStack env n.chain n.view)
    (hn : n.assets.usdsoq.OutpointsAgree ∧ n.assets.btcsoq.OutpointsAgree) :
    n'.assets.usdsoq.OutpointsAgree ∧ n'.assets.btcsoq.OutpointsAgree := by
  cases h with
  | connect idx io block height notGenesis accepted =>
    obtain ⟨fp, p, hacc⟩ := connectBlock_accepted accepted notGenesis
    rw [hacc.assets_eq, if_neg Bool.false_ne_true]
    exact ⟨outpointsAgree_commitAsset hn.1 _, outpointsAgree_commitAsset hn.2 _⟩
  | disconnect e rest tip clean =>
    rw [tip] at hstack
    obtain ⟨v, blockundo, -, -, hd⟩ := disconnect_tip hstack clean
    rw [hd.usdsoq, hd.btcsoq]
    constructor
    · split
      · exact outpointsAgree_undone hn.1 (disconnectUSDSOQ_undone ..)
      · exact hn.1
    · split
      · exact outpointsAgree_undone hn.2 (disconnectBTCSOQ_undone ..)
      · exact hn.2

/-- In every reachable node the global is the record. -/
theorem Reachable.outpointsAgree (h : Reachable env params n) :
    n.assets.usdsoq.OutpointsAgree ∧ n.assets.btcsoq.OutpointsAgree := by
  have hboth := h.invariant (P := fun n => CoinStack env n.chain n.view ∧
      n.assets.usdsoq.OutpointsAgree ∧ n.assets.btcsoq.OutpointsAgree) (fun n hn => ?_)
    fun n n' hstep hn => ⟨coinStack_step hstep hn.1, outpointsAgree_step hstep hn.1 hn.2⟩
  · exact hboth.2
  · obtain ⟨hash, hview⟩ := hn.view
    rw [AssetState.OutpointsAgree, AssetState.OutpointsAgree, hn.usdsoq.outpoint,
      hn.usdsoq.dbOutpoint, hn.btcsoq.outpoint, hn.btcsoq.dbOutpoint, hn.chain, hview]
    exact ⟨.nil hash, rfl, rfl⟩

end Runs

namespace Sample

/-- An asset before its first block. -/
def emptyAsset : AssetState := ⟨Authority.uninitialized, Supply.zero, COutPoint.null, none, none, ∅⟩

/-- A node before its first block. -/
def startNode : Node := ⟨⟨emptyAsset, emptyAsset, ∅⟩, CoinsView.emptyView Uint256.null, []⟩

theorem startNode_start : startNode.Start :=
  ⟨⟨rfl, rfl, rfl, rfl, rfl⟩, ⟨rfl, rfl, rfl, rfl, rfl⟩, rfl, ⟨_, rfl⟩, rfl⟩

theorem startNode_reachable (env : Env) : Reachable env params startNode :=
  ⟨startNode, startNode_start, .refl⟩

/-- The node after an empty block, which sets up the authorities. -/
def firstNode : Node := startNode.connected (env sameByte) params (index 1) io (block 1 [])

theorem firstNode_accepted :
    (connectBlock (env sameByte) params (index 1) io false startNode.assets startNode.view
      (block 1 [])).verdict = .ok () := by
  decide +kernel

theorem not_isGenesis (b : CBlock) : ¬ isGenesis (env sameByte) params b := by
  show Uint256.fill 1 ≠ Uint256.null
  decide

theorem active (d : Deployment) (hd : d = .usdsoq ∨ d = .btcsoq) (h : Int) (hh : 1 ≤ h) :
    deploymentActiveAtHeight h (params.getConsensus h) d := by
  have hheight : (params.getConsensus h).activationHeight d = 0 := if_pos hd
  rw [deploymentActiveAtHeight, hheight, Bool.and_eq_true, decide_eq_true_eq, decide_eq_true_eq]
  exact ⟨by decide, by omega⟩

end Sample

end Soqucoin
