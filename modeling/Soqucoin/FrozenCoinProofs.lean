import Soqucoin.ChainProofs
import Soqucoin.FreezeReorgProofs
import Soqucoin.OutputLifeProofs

/-! # Frozen coins

Each pass keeps frozen holdings from being spent: the registry as committed, with the operations
of the transactions before.  BTCSOQ looks at the inputs of a transaction before it runs the
transaction's own operation; USDSOQ afterwards, so one transaction can lift a freeze and spend the
coin (`frozen_coins_stay_iff`).  In both, what is frozen after a block is an unspent holding. -/

namespace Soqucoin

open CheckedLoop Toggle

variable {post pre : List CTransaction} {o : COutPoint} {tx : CTransaction}
  {opAt : CBlockIndex → CTransaction → Option FreezeOp} {n : Node}

section Frozen

variable {env : Env} {params : CChainParams} {idx : CBlockIndex} {io : NodeIO}
variable {a : Assets} {view : CoinsView} {block : CBlock} {fp : FirstPass} {p : Pending}
variable {isHolding : CTxOut → Bool} {opOf : CTransaction → Option FreezeOp}
variable {db : Finset COutPoint} {ownFirst : Bool}

/-! ## The registry along a block -/

/-- The registry when a transaction's turn comes: the committed one with the
    operations of the transactions before it. -/
def frozenAt (opOf : CTransaction → Option FreezeOp) (db : Finset COutPoint)
    (pre : List CTransaction) : Finset COutPoint :=
  (pre.filterMap opOf).foldl apply db

/-- The transaction lifts the freeze of an outpoint. -/
def Unfreezes (opOf : CTransaction → Option FreezeOp) (tx : CTransaction) (o : COutPoint) : Prop :=
  opOf tx = some ⟨false, o⟩

/-- What a pass has made sure of: operations take turns at freezing and lifting,
    what they freeze is a holding of the view after the block, and no frozen
    holding is spent.  Where the pass runs a transaction's own operation first, a
    transaction that lifts the freeze of a coin may spend it. -/
structure FreezeGuarded (env : Env) (nHeight : Int) (isHolding : CTxOut → Bool)
    (opOf : CTransaction → Option FreezeOp) (ownFirst : Bool) (db : Finset COutPoint)
    (view after : CoinsView) (vtx : List CTransaction) : Prop where
  effective : EffectiveLog db (vtx.filterMap opOf)
  live : ∀ op ∈ vtx.filterMap opOf, op.adds = true →
    (after.output op.key).any isHolding = true
  guard : ∀ pre tx post, vtx = pre ++ tx :: post → tx.isCoinBase = false →
    ∀ o ∈ tx.vin.map CTxIn.prevout, ∀ out, (blockView env nHeight view pre).output o = some out →
      isHolding out = true → o ∈ frozenAt opOf db pre → ownFirst = true ∧ Unfreezes opOf tx o

/-- After a guarded block every frozen outpoint is a live holding. -/
theorem FreezeGuarded.holdings_after (h : Accepted env params idx io false a view block fp p)
    (hg : FreezeGuarded env idx.nHeight isHolding opOf ownFirst db view fp.view block.vtx)
    (hdb : ∀ o ∈ db, (view.output o).any isHolding) :
    ∀ o ∈ frozenAt opOf db block.vtx, (fp.view.output o).any isHolding := by
  intro o ho
  rcases mem_of_mem_foldl_apply ho with ⟨op, hop, rfl, hadds⟩ | ⟨hmem, huntouched⟩
  · exact hg.live op hop hadds
  · -- no operation of the block names the outpoint, so nobody may spend it
    have hstart := hdb o hmem
    rw [Option.any_eq_true] at hstart
    obtain ⟨out, hout, hholding⟩ := hstart
    have hkept : ∀ pre post, block.vtx = pre ++ post →
        (blockView env idx.nHeight view pre).output o = some out := by
      refine prefix_induction hout ?_
      intro pre tx post hvtx ih
      refine h.output_kept hvtx ih fun hcb hspent => ?_
      have hfrozen : o ∈ frozenAt opOf db pre := by
        have hops : ∀ op ∈ pre.filterMap opOf, op.key ≠ o := by
          intro op hop
          refine huntouched op ?_
          rw [hvtx, List.filterMap_append]
          exact List.mem_append_left _ hop
        have hsame := mem_foldl_apply_of_untouched _ db (trace_eq_nil hops)
        rw [decide_eq_true hmem] at hsame
        exact of_decide_eq_true hsame
      obtain ⟨-, hunfreezes⟩ := hg.guard pre tx post hvtx hcb o hspent out ih hholding hfrozen
      refine huntouched ⟨false, o⟩ (List.mem_filterMap.mpr ⟨tx, ?_, hunfreezes⟩) rfl
      exact hvtx ▸ List.mem_append_right _ List.mem_cons_self
    have hfinal := hkept block.vtx [] (List.append_nil _).symm
    rw [h.blockView_eq] at hfinal
    rw [hfinal]
    exact hholding

section

variable (h : Accepted env params idx io false a view block fp p) (hids : CollisionFree env block)
  (hg : FreezeGuarded env idx.nHeight isHolding opOf ownFirst db view fp.view block.vtx)
  (hdb : ∀ o ∈ db, (view.output o).any isHolding = true)
include h hids hg hdb

/-- A coin that is frozen when its turn comes is a holding, in the view where
    its freeze was checked and so wherever it is unspent. -/
theorem FreezeGuarded.isHolding_of_frozen (hpre : block.vtx = pre ++ post) {out : CTxOut}
    (hout : (blockView env idx.nHeight view pre).output o = some out)
    (ho : o ∈ frozenAt opOf db pre) : isHolding out := by
  rcases mem_of_mem_foldl_apply ho with ⟨op, hop, rfl, hadds⟩ | ⟨hmem, -⟩
  · have hlive := hg.live op (by
      rw [hpre, List.filterMap_append]
      exact List.mem_append_left _ hop) hadds
    rw [← h.blockView_eq, Option.any_eq_true] at hlive
    obtain ⟨out', hout', hholding⟩ := hlive
    rwa [h.output_agree hids hpre (List.append_nil _).symm hout hout']
  · have hlive := hdb o hmem
    rw [Option.any_eq_true] at hlive
    obtain ⟨out', hout', hholding⟩ := hlive
    rwa [h.output_agree hids hpre (List.nil_append _).symm hout hout']

theorem FreezeGuarded.spends_frozen (hvtx : block.vtx = pre ++ tx :: post)
    (hcb : tx.isCoinBase = false) (hspent : o ∈ tx.vin.map CTxIn.prevout)
    (ho : o ∈ frozenAt opOf db pre) : ownFirst ∧ Unfreezes opOf tx o := by
  obtain ⟨out, hout⟩ := h.output_of_input hvtx hcb hspent
  exact hg.guard pre tx post hvtx hcb o hspent out hout
    (hg.isHolding_of_frozen h hids hdb hvtx hout ho) ho

end

/-- What a transaction unfreezes is frozen before it. -/
theorem FreezeGuarded.frozen_of_unfreezes {nHeight : Int} {after : CoinsView}
    {vtx : List CTransaction}
    (hg : FreezeGuarded env nHeight isHolding opOf ownFirst db view after vtx)
    (hvtx : vtx = pre ++ tx :: post) (hop : Unfreezes opOf tx o) : o ∈ frozenAt opOf db pre := by
  have hlog := hg.effective
  rw [hvtx, List.filterMap_append, List.filterMap_cons_some hop] at hlog
  have heff : false = !decide (o ∈ frozenAt opOf db pre) := hlog.effective_at
  exact of_decide_eq_true (by simpa using heff.symm)

/-! ## The two passes -/

theorem RegistryRun.current_eq {c : AssetCtx} {vtx : List CTransaction} {t : AssetPass}
    (h : RegistryRun isHolding c opOf vtx t) :
    Overlay.current c.asset.dbFrozen t.frozen = frozenAt opOf c.asset.dbFrozen vtx := by
  rw [h.log.current, h.ops]
  rfl

/-- An input's output stands in the undo data. -/
theorem mem_undoPrevouts {v v' : CoinsView} {undo : CTxUndo} {nHeight : Int}
    (hcb : tx.isCoinBase = false) (hup : updateCoins env v tx nHeight = .ok (v', undo))
    (ho : o ∈ tx.vin.map CTxIn.prevout) {out : CTxOut} (hout : v.output o = some out) :
    (o, out) ∈ undoPrevouts tx (some undo) := by
  obtain ⟨txin, htxin, rfl⟩ := List.mem_map.mp ho
  rw [undoPrevouts_of_updateCoins hcb hup]
  refine List.mem_map.mpr ⟨txin, htxin, ?_⟩
  rw [hout]
  rfl

/-- An accepted block guards the frozen coins of USDSOQ. -/
theorem Accepted.usdsoq_guarded (h : Accepted env params idx io false a view block fp p)
    (hactive : (blockFlags params idx).usdsoq) :
    FreezeGuarded env idx.nHeight CTxOut.isAnyUSDSOQ (usdsoqOpAt params idx) true
      a.usdsoq.dbFrozen view fp.view block.vtx := by
  obtain ⟨t, _, hrun, -, -⟩ := h.usdsoq_run hactive
  have hregistry : ∀ {txs : List (CTransaction × CTxUndo)} {t : AssetPass},
      txs.foldlM (fun s q => usdsoqTx env (usdsoqCtx params idx false a fp.view) s (undoPair q))
        (AssetPass.start a.usdsoq.authorityOutpoint) = .ok t →
      RegistryRun CTxOut.isAnyUSDSOQ (usdsoqCtx params idx false a fp.view)
        (usdsoqOpAt params idx) (txs.map Prod.fst) t :=
    fun hrun => registryRun_of_turns id (fun s q t hq => usdsoqTx_freezeTurn hq) rfl hrun
  have hall := hregistry hrun
  rw [map_fst_zip_undos h] at hall
  refine ⟨hall.ops ▸ hall.log.effective, hall.ops ▸ hall.live, ?_⟩
  intro pre tx post hvtx hcb o ho out hout hholding hfrozen
  obtain ⟨pre', undo, post', v, -, hzip, hpre, -, -, -, hup⟩ := h.at_tx hvtx
  rw [hzip] at hrun
  obtain ⟨m, n, hm, hn, -⟩ := foldlM_at hrun
  have hbefore := (hregistry hm).current_eq
  rw [hpre] at hbefore
  have hturn : FreezeTurn CTxOut.isAnyUSDSOQ (usdsoqCtx params idx false a fp.view) m
      (usdsoqOpAt params idx tx) n := usdsoqTx_freezeTurn hn
  rw [undoPair_of_not_coinbase undo hcb] at hn
  have hguard := (usdsoqTx_turn hcb hn).spends (o, out) (mem_undoPrevouts hcb hup ho hout)
  replace hguard := after_require hguard
  rw [require_eq_ok, show (o, out).2.isAnyUSDSOQ = true from hholding, Bool.true_and,
    isFrozenNow_eq, Bool.not_eq_true', decide_eq_false_iff_not, hturn.frozen] at hguard
  refine ⟨rfl, ?_⟩
  rw [Unfreezes]
  cases hop : usdsoqOpAt params idx tx with
  | none =>
    rw [hop] at hguard
    exact absurd (hbefore ▸ hfrozen) hguard
  | some op =>
    rw [hop] at hguard
    have hnot : o ∉ apply (Overlay.current a.usdsoq.dbFrozen m.frozen) op := by
      rw [← Overlay.current_record]
      exact hguard
    rw [eq_of_notMem_apply (hbefore ▸ hfrozen) hnot]

/-- An accepted block guards the frozen coins of BTCSOQ. -/
theorem Accepted.btcsoq_guarded (h : Accepted env params idx io false a view block fp p)
    (hactive : (blockFlags params idx).btcsoq) :
    FreezeGuarded env idx.nHeight CTxOut.isBTCSOQ (btcsoqOpAt params idx) false
      a.btcsoq.dbFrozen view fp.view block.vtx := by
  obtain ⟨t, _, hrun, -, -⟩ := h.btcsoq_run hactive
  have hregistry : ∀ {txs : List (CTransaction × CTxUndo)} {t : BTCSOQPass},
      txs.foldlM (fun s q => btcsoqTx env (btcsoqCtx params idx false a fp.view) a.dbMinted s
          (undoPair q))
        { AssetPass.start a.btcsoq.authorityOutpoint with mintedDeposits := [] } = .ok t →
      RegistryRun CTxOut.isBTCSOQ (btcsoqCtx params idx false a fp.view)
        (btcsoqOpAt params idx) (txs.map Prod.fst) t.toAssetPass :=
    fun hrun => registryRun_of_turns BTCSOQPass.toAssetPass
      (fun s q t hq => (btcsoqTx_opTurn hq).1) rfl hrun
  have hall := hregistry hrun
  rw [map_fst_zip_undos h] at hall
  refine ⟨hall.ops ▸ hall.log.effective, hall.ops ▸ hall.live, ?_⟩
  intro pre tx post hvtx hcb o ho out hout hholding hfrozen
  obtain ⟨pre', undo, post', v, -, hzip, hpre, -, -, -, hup⟩ := h.at_tx hvtx
  rw [hzip] at hrun
  obtain ⟨m, n, hm, hn, -⟩ := foldlM_at hrun
  have hbefore := (hregistry hm).current_eq
  rw [hpre] at hbefore
  rw [undoPair_of_not_coinbase undo hcb] at hn
  have hguard := (btcsoqTx_turn hcb hn).1.spends (o, out) (mem_undoPrevouts hcb hup ho hout)
  replace hguard := after_require hguard
  rw [require_eq_ok, show (o, out).2.isBTCSOQ = true from hholding, Bool.true_and,
    isFrozenNow_eq, Bool.not_eq_true', decide_eq_false_iff_not] at hguard
  exact absurd (hbefore ▸ hfrozen) hguard

/-! ## Every chain -/

/-- The registry of a chain: the operations of its blocks, in order. -/
def chainFrozen (opAt : CBlockIndex → CTransaction → Option FreezeOp) :
    List Entry → Finset COutPoint
  | [] => ∅
  | e :: below => frozenAt (opAt e.idx) (chainFrozen opAt below) e.block.vtx

/-- In every block of the chain, no transaction spends an outpoint that is
    frozen when its turn comes. -/
def FrozenStay (opAt : CBlockIndex → CTransaction → Option FreezeOp) : List Entry → Prop
  | [] => True
  | e :: below => FrozenStay opAt below ∧
      ∀ pre tx post, e.block.vtx = pre ++ tx :: post → tx.isCoinBase = false →
        ∀ o ∈ tx.vin.map CTxIn.prevout, o ∉ frozenAt (opAt e.idx) (chainFrozen opAt below) pre

/-- No transaction of the chain spends the coin that it unfreezes. -/
def NoOwnUnfreeze (opAt : CBlockIndex → CTransaction → Option FreezeOp) (chain : List Entry) :
    Prop :=
  ∀ e ∈ chain, ∀ tx ∈ e.block.vtx, ∀ o ∈ tx.vin.map CTxIn.prevout, ¬ Unfreezes (opAt e.idx) tx o

/-- One asset of a node: its registry is the one of the chain, and what is
    frozen is an unspent holding. -/
structure RegistryHolds (isHolding : CTxOut → Bool)
    (opAt : CBlockIndex → CTransaction → Option FreezeOp) (db : Finset COutPoint) (n : Node) :
    Prop where
  registry : db = chainFrozen opAt n.chain
  held : ∀ o ∈ db, (n.view.output o).any isHolding = true

theorem registryHolds_start (hdb : db = ∅) (hchain : n.chain = []) :
    RegistryHolds isHolding opAt db n := by
  refine ⟨by rw [hdb, hchain]; rfl, ?_⟩
  rw [hdb]
  intro o ho
  cases ho

/-- A connected block keeps the registry of its chain and the coins in it. -/
theorem RegistryHolds.connected (h : Accepted env params idx io false n.assets n.view block fp p)
    (hn : RegistryHolds isHolding opAt db n)
    (hg : FreezeGuarded env idx.nHeight isHolding (opAt idx) ownFirst db n.view fp.view block.vtx) :
    RegistryHolds isHolding opAt (frozenAt (opAt idx) db block.vtx)
      (n.connected env params idx io block) where
  registry := by
    rw [hn.registry]
    rfl
  held := by
    intro o ho
    rw [h.connected_view]
    exact hg.holdings_after h hn.held o ho

/-- In the new block, whoever spends a frozen coin lifts its freeze, and the other way round. -/
theorem frozenStay_block_iff (h : Accepted env params idx io false n.assets n.view block fp p)
    (hids : CollisionFree env block) (hn : RegistryHolds isHolding opAt db n)
    (hg : FreezeGuarded env idx.nHeight isHolding (opAt idx) true db n.view fp.view block.vtx)
    (hcoinbase : ∀ tx, tx.isCoinBase → opAt idx tx = none) :
    (∀ pre tx post, block.vtx = pre ++ tx :: post → tx.isCoinBase = false →
      ∀ o ∈ tx.vin.map CTxIn.prevout, o ∉ frozenAt (opAt idx) (chainFrozen opAt n.chain) pre) ↔
    ∀ tx ∈ block.vtx, ∀ o ∈ tx.vin.map CTxIn.prevout, ¬ Unfreezes (opAt idx) tx o := by
  rw [← hn.registry]
  constructor
  · intro hstay tx htx o ho hunfreezes
    obtain ⟨pre, post, hvtx⟩ := List.append_of_mem htx
    have hcb : tx.isCoinBase = false := by
      cases hcb : tx.isCoinBase with
      | false => rfl
      | true =>
        rw [Unfreezes, hcoinbase tx hcb] at hunfreezes
        cases hunfreezes
    exact hstay pre tx post hvtx hcb o ho (hg.frozen_of_unfreezes hvtx hunfreezes)
  · intro hnone pre tx post hvtx hcb o ho hfrozen
    obtain ⟨-, hunfreezes⟩ := hg.spends_frozen h hids hn.held hvtx hcb ho hfrozen
    exact hnone tx (hvtx ▸ List.mem_append_right _ List.mem_cons_self) o ho hunfreezes

/-- What every chain keeps, in both assets. -/
structure FreezesKept (params : CChainParams) (n : Node) : Prop where
  usdsoq : RegistryHolds CTxOut.isAnyUSDSOQ (usdsoqOpAt params) n.assets.usdsoq.dbFrozen n
  btcsoq : RegistryHolds CTxOut.isBTCSOQ (btcsoqOpAt params) n.assets.btcsoq.dbFrozen n
  btcsoqStay : FrozenStay (btcsoqOpAt params) n.chain
  usdsoqStay : FrozenStay (usdsoqOpAt params) n.chain ↔ NoOwnUnfreeze (usdsoqOpAt params) n.chain

/-- A connected block keeps both registries. -/
theorem freezesKept_connected
    (hactive : (blockFlags params idx).usdsoq ∧ (blockFlags params idx).btcsoq)
    (h : Accepted env params idx io false n.assets n.view block fp p)
    (hids : CollisionFree env block) (hn : FreezesKept params n) :
    FreezesKept params (n.connected env params idx io block) := by
  have husd := h.usdsoq_guarded hactive.1
  have hbtc := h.btcsoq_guarded hactive.2
  have husdDb : (n.connected env params idx io block).assets.usdsoq.dbFrozen =
      frozenAt (usdsoqOpAt params idx) n.assets.usdsoq.dbFrozen block.vtx := by
    rw [h.connected_assets, frozenAt, filterMap_usdsoqOpAt, ← (h.usdsoq_freezeLog hactive.1).1]
    rfl
  have hbtcDb : (n.connected env params idx io block).assets.btcsoq.dbFrozen =
      frozenAt (btcsoqOpAt params idx) n.assets.btcsoq.dbFrozen block.vtx := by
    rw [h.connected_assets, frozenAt, filterMap_btcsoqOpAt, ← (h.btcsoq_freezeLog hactive.2).1]
    rfl
  have hcoinbase : ∀ tx : CTransaction, tx.isCoinBase = true → usdsoqOpAt params idx tx = none := by
    intro tx hcb
    rw [usdsoqOpAt, unlessCoinBase, if_pos hcb]
  refine ⟨?_, ?_, ⟨hn.btcsoqStay, ?_⟩, ?_⟩
  · rw [husdDb]
    exact hn.usdsoq.connected h husd
  · rw [hbtcDb]
    exact hn.btcsoq.connected h hbtc
  · intro pre tx post hvtx hcb o ho hfrozen
    rw [← hn.btcsoq.registry] at hfrozen
    obtain ⟨hown, -⟩ := hbtc.spends_frozen h hids hn.btcsoq.held hvtx hcb ho hfrozen
    cases hown
  · have hblock := frozenStay_block_iff h hids hn.usdsoq husd hcoinbase
    show FrozenStay _ n.chain ∧ _ ↔ NoOwnUnfreeze (usdsoqOpAt params) (_ :: n.chain)
    rw [NoOwnUnfreeze, List.forall_mem_cons]
    exact (and_congr hn.usdsoqStay hblock).trans and_comm

/-- **Frozen coins stay, but for one case.**  On every chain of accepted blocks without id
    collisions, with both assets active: the registries are those of the chain's operations, and
    these four hold together exactly when no USDSOQ transaction lifts the freeze of one of its own
    inputs: in each asset no transaction spends an outpoint that is frozen when its turn comes,
    and in each asset what is frozen is an unspent holding. -/
theorem frozen_coins_stay_iff
    (hactive : ∀ h, 1 ≤ h → deploymentActiveAtHeight h (params.getConsensus h) .usdsoq = true ∧
      deploymentActiveAtHeight h (params.getConsensus h) .btcsoq = true)
    {n : Node} (h : Grown env params (fun _ block => CollisionFree env block) n) :
    n.assets.usdsoq.dbFrozen = chainFrozen (usdsoqOpAt params) n.chain ∧
    n.assets.btcsoq.dbFrozen = chainFrozen (btcsoqOpAt params) n.chain ∧
    ((FrozenStay (usdsoqOpAt params) n.chain ∧ FrozenStay (btcsoqOpAt params) n.chain ∧
      (∀ o ∈ n.assets.usdsoq.dbFrozen, (n.view.output o).any CTxOut.isAnyUSDSOQ = true) ∧
      ∀ o ∈ n.assets.btcsoq.dbFrozen, (n.view.output o).any CTxOut.isBTCSOQ = true) ↔
    NoOwnUnfreeze (usdsoqOpAt params) n.chain) := by
  have hkept : FreezesKept params n := by
    induction h with
    | start hstart =>
      refine ⟨registryHolds_start hstart.usdsoq.frozen hstart.chain,
        registryHolds_start hstart.btcsoq.frozen hstart.chain, ?_, ?_⟩
      · rw [hstart.chain]
        trivial
      · rw [hstart.chain]
        exact iff_of_true trivial fun e he => by cases he
    | block below idx io block height notGenesis accepted meets ih =>
      obtain ⟨fp, p, hacc⟩ := connectBlock_accepted accepted notGenesis
      exact freezesKept_connected (hactive _ (by omega)) hacc meets ih
  refine ⟨hkept.usdsoq.registry, hkept.btcsoq.registry, ?_⟩
  rw [← hkept.usdsoqStay]
  constructor
  · rintro ⟨hstay, -⟩
    exact hstay
  · intro hstay
    exact ⟨hstay, hkept.btcsoqStay, hkept.usdsoq.held, hkept.btcsoq.held⟩

end Frozen

namespace Sample

/-- A freeze operation on the minted holding. -/
def holdingOp (op : UInt8) : CTxOut :=
  ⟨0, [OP_RETURN, 6] ++ FREEZE_TAG ++ [37, op] ++ List.replicate 32 10 ++ [1, 0, 0, 0]⟩

/-- A mint, then a block that freezes what was minted. -/
def frozenMint : Node :=
  (firstNode.connected (env sameByte) params (index 2) io
    (block 2 [transaction 10 [spend 1 (authorityWitness 0x55 [1, 2])]
      [pay OP_5 0, pay OP_7 100]])).connected (env sameByte) params (index 3) io
    (block 3 [transaction 11 [spend 10 (authorityWitness 0x55 [1, 2])]
      [pay OP_5 0, holdingOp FREEZE_OP_FREEZE]])

theorem frozenMint_grown :
    Grown (env sameByte) params (fun _ block => CollisionFree (env sameByte) block) frozenMint :=
  .block (.block (.block (.start startNode_start) _ _ _ rfl (not_isGenesis _) firstNode_accepted
    (by decide +kernel)) _ _ _ rfl (not_isGenesis _) (by decide +kernel) (by decide +kernel))
    _ _ _ rfl (not_isGenesis _) (by decide +kernel) (by decide +kernel)

/-- An authority transaction that unfreezes the holding and spends it. -/
def unfreezeAndBurn : CTransaction :=
  transaction 12 [spend 11 (authorityWitness 0x55 [1, 2]),
      ⟨⟨Uint256.fill 10, 1⟩, [], 0xffffffff, [[0]]⟩]
    [pay OP_5 0, holdingOp FREEZE_OP_UNFREEZE]

/-- The node after that transaction. -/
def burnedFrozen : Node :=
  frozenMint.connected (env sameByte) params (index 4) io (block 4 [unfreezeAndBurn])

end Sample

open Sample in
/-- A chain with a mint and its freeze. -/
theorem frozen_coins_stay_iff_frozenMint :
    frozenMint.assets.usdsoq.dbFrozen = {⟨Uint256.fill 10, 1⟩} ∧
    frozenMint.assets.usdsoq.dbFrozen = chainFrozen (usdsoqOpAt params) frozenMint.chain ∧
    frozenMint.assets.btcsoq.dbFrozen = chainFrozen (btcsoqOpAt params) frozenMint.chain ∧
    ((FrozenStay (usdsoqOpAt params) frozenMint.chain ∧
      FrozenStay (btcsoqOpAt params) frozenMint.chain ∧
      (∀ o ∈ frozenMint.assets.usdsoq.dbFrozen,
        (frozenMint.view.output o).any CTxOut.isAnyUSDSOQ = true) ∧
      ∀ o ∈ frozenMint.assets.btcsoq.dbFrozen,
        (frozenMint.view.output o).any CTxOut.isBTCSOQ = true) ↔
    NoOwnUnfreeze (usdsoqOpAt params) frozenMint.chain) :=
  ⟨by decide +kernel, frozen_coins_stay_iff
    (fun h hh => ⟨active _ (Or.inl rfl) h hh, active _ (Or.inr rfl) h hh⟩) frozenMint_grown⟩

open Sample in
/-- A USDSOQ coin that the committed registry holds frozen is spent by the
    transaction that lifts its freeze, in an accepted block. -/
theorem frozen_coin_burned :
    Grown (env sameByte) params (fun _ block => CollisionFree (env sameByte) block)
      burnedFrozen ∧
    ⟨Uint256.fill 10, 1⟩ ∈ frozenMint.assets.usdsoq.dbFrozen ∧
    ⟨Uint256.fill 10, 1⟩ ∈ unfreezeAndBurn.vin.map CTxIn.prevout ∧
    ¬ FrozenStay (usdsoqOpAt params) burnedFrozen.chain := by
  refine ⟨.block frozenMint_grown _ _ _ rfl (not_isGenesis _) (by decide +kernel)
    (by decide +kernel), by decide +kernel, by decide +kernel, ?_⟩
  rintro ⟨-, hblock⟩
  refine hblock [coinbase 4] unfreezeAndBurn [] rfl (by decide +kernel) ⟨Uint256.fill 10, 1⟩
    (by decide +kernel) ?_
  decide +kernel

end Soqucoin
