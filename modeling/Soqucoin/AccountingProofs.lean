import Soqucoin.HoldingsProofs
import Soqucoin.MintedDepositProofs
import Soqucoin.OutputLifeProofs
import Soqucoin.SupplyReorgProofs

/-! # Supply counters against the unspent holdings

The counters of an asset move by the totals of a block's authority transactions, counted in 64-bit
words, and its holdings move by the exact totals.  While the minted total fits its word the two
stay together (`accounted_block`).  For BTCSOQ a MINT is bounded and a block's weight bounds the
number of them (`peg_accounted`); for USDSOQ nothing bounds the total, and the counters are right
on chains where it fits (`usdsoq_accounted`). -/

namespace Soqucoin

open CheckedLoop SignedWord

section Accounting

variable {env : Env} {params : CChainParams} {idx : CBlockIndex} {io : NodeIO}
variable {a : Assets} {view : CoinsView} {block : CBlock} {fp : FirstPass} {p : Pending}
variable {kind : CTxOut → Bool} {isMarker : CScript → Bool}

/-! ## One asset, one block -/

/-- The counters and the unspent holdings of an asset tell the same sum, and no holding is negative.
    -/
structure Accounted (s : Supply) (kind : CTxOut → Bool) (v : CoinsView) : Prop where
  balanced : s.totalMinted - s.totalBurned = holdings kind v
  nonNegative : v.NonNegative

theorem accounted_start {s : Supply} {v : CoinsView} (hs : s = Supply.zero)
    (hv : ∃ hash, v = CoinsView.emptyView hash) : Accounted s kind v := by
  obtain ⟨hash, rfl⟩ := hv
  constructor
  · rw [hs, holdings_emptyView]
    rfl
  · exact fun _ _ ho => (nomatch ho)

theorem Accounted.setBestBlock {s : Supply} {v : CoinsView} (h : Accounted s kind v)
    (hash : Uint256) : Accounted s kind (v.setBestBlock hash) :=
  ⟨h.balanced, h.nonNegative⟩

/-- An accepted block keeps the account: what its authority transactions create and spend is what
    the counters take up and what the holdings change by. -/
theorem accounted_block {overflow underflow : String} {before : Supply} {after : Option Supply}
    (hrules : Conserves isMarker kind) (h : Accepted env params idx io false a view block fp p)
    (hupdate : SupplyUpdate overflow underflow before (authorityCreated isMarker kind block.vtx)
      (authoritySpent env idx.nHeight isMarker kind view block.vtx) after)
    (hfits : Fits 64 (authorityCreated isMarker kind block.vtx))
    (hbefore : Accounted before kind view) : Accounted (after.getD before) kind fp.view := by
  have hview := h.nonNegative hbefore.nonNegative
  refine ⟨?_, hview⟩
  have hheld := h.holdings_eq hrules
  have hnonneg : 0 ≤ holdings kind fp.view := holdings_nonneg hview
  have hcreated : 0 ≤ authorityCreated isMarker kind block.vtx := authorityCreated_nonneg h
  have hspent : 0 ≤ authoritySpent env idx.nHeight isMarker kind view block.vtx := by
    have hconnects : 0 ≤ authoritySpent env idx.nHeight isMarker kind view _ :=
      authoritySpent_nonneg h.connects
    rwa [map_fst_zip_undos h] at hconnects
  generalize authorityCreated isMarker kind block.vtx = minted at *
  generalize authoritySpent env idx.nHeight isMarker kind view block.vtx = burned at *
  obtain ⟨hm, hb⟩ := applySupplyDelta_counters hupdate
  rw [wrap64, wrap_of_fits hfits, max_eq_left hcreated] at hm
  -- what is burned was there before or has been minted here
  have hbalance := hbefore.balanced
  have hmax := (after.getD before).minted_le_max
  have hburned := before.burned_nonneg
  have hfitsBurned : Fits 64 burned := by
    refine fits_of_le hspent ?_
    have hmoney : 0 ≤ MAX_MONEY := by decide
    omega
  rw [wrap64, wrap_of_fits hfitsBurned, max_eq_left hspent] at hb
  omega

/-- A block changes the holdings by what authority transactions create and spend. -/
theorem holdings_connected (hrules : Conserves isMarker kind) {n : Node}
    (hgenesis : ¬ isGenesis env params block)
    (haccept : (connectBlock env params idx io false n.assets n.view block).verdict = .ok ()) :
    holdings kind (n.connected env params idx io block).view =
      holdings kind n.view + authorityCreated isMarker kind block.vtx -
        authoritySpent env idx.nHeight isMarker kind n.view block.vtx := by
  obtain ⟨fp, p, hacc⟩ := connectBlock_accepted haccept hgenesis
  rw [hacc.connected_view, holdings_setBestBlock, hacc.holdings_eq hrules]

/-! ## BTCSOQ -/

theorem btcsoq_conserves : Conserves isBTCSOQAuthorityMarker CTxOut.isBTCSOQ where
  spendable _ ho := isUnspendable_of_isWitnessProgram (by decide) ho
  coinbase _ hcb htx := (checkTransaction_coinbase hcb htx).2
  transfer _ _ _ _ _ hout hinputs := (checkTxInputs_conserved hout hinputs).2

/-- A mint names at most all bitcoin there will be. -/
theorem sats_le_of_mintOpOf {op : UInt8 × Bytes} {m : MintPayload} (h : mintOpOf op = some m) :
    m.sats ≤ BTCSOQ_MAX_SATS := by
  rw [mintOpOf] at h
  split at h
  · rw [parseBTCSOQMintPayload] at h
    split at h
    · cases h
    · simp only at h
      split at h
      · cases h
      · rename_i hbound
        rw [Bool.or_eq_true, decide_eq_true_eq, not_or, not_lt] at hbound
        obtain rfl := Option.some.inj h
        exact Int.ofNat_le.mpr hbound.1
  · cases h

/-- A witness with a signature makes the transaction at least as large as a signature. -/
theorem totalSize_of_hasSizedItem {tx : CTransaction} {nIn : Nat}
    (h : HasSizedItem (tx.vin.getD nIn default).scriptWitness) :
    DILITHIUM_SIG_SIZE ≤ totalSize tx := by
  obtain ⟨item, hitem, hlen⟩ := h
  rw [List.getD_eq_getElem?_getD] at hitem
  cases hin : tx.vin[nIn]? with
  | none =>
    rw [hin] at hitem
    exact nomatch hitem
  | some txin =>
    rw [hin, Option.getD_some] at hitem
    have htxin : txin ∈ tx.vin := List.mem_of_getElem? hin
    have hwitness : tx.hasWitness := by
      refine List.any_eq_true.mpr ⟨txin, htxin, ?_⟩
      rw [Bool.not_eq_true', List.isEmpty_eq_false_iff]
      exact List.ne_nil_of_mem hitem
    have hsize : item.length ≤ sizeOfBytes item := Nat.le_add_left ..
    have hstack : sizeOfBytes item ≤ (txin.scriptWitness.map sizeOfBytes).sum :=
      List.le_sum_of_mem (List.mem_map_of_mem hitem)
    have hinputs : sizeOfWitness txin.scriptWitness ≤
        (tx.vin.map fun txin => sizeOfWitness txin.scriptWitness).sum :=
      List.le_sum_of_mem
        (List.mem_map_of_mem (f := fun txin => sizeOfWitness txin.scriptWitness) htxin)
    rw [totalSize, if_pos hwitness]
    rw [sizeOfWitness] at hinputs
    omega

section

variable (h : Accepted env params idx io false a view block fp p)
  (hactive : (blockFlags params idx).btcsoq = true)
  (henf : (params.getConsensus idx.nHeight).nBTCSOQAuthorityEnforcementHeight ≤ idx.nHeight)
include h hactive henf

/-- What an authority transaction mints is bounded by its size, since every mint needs a signature.
    -/
theorem Accepted.created_le_size {tx : CTransaction} (htx : tx ∈ block.vtx) :
    DILITHIUM_SIG_SIZE * (if isAuthorityTx isBTCSOQAuthorityMarker tx then
      valueOf CTxOut.isBTCSOQ tx.vout else 0) ≤ BTCSOQ_MAX_SATS * (totalSize tx : Int) := by
  have hsize₀ : (0 : Int) ≤ totalSize tx := Int.natCast_nonneg _
  split
  · rename_i hauth
    obtain ⟨pre, post, hvtx⟩ := List.append_of_mem htx
    obtain ⟨op, nIn, -, hsized, hvalues⟩ := h.operationValues hactive henf hvtx hauth
    have hsize := totalSize_of_hasSizedItem hsized
    -- only a MINT creates holdings, and its payload bounds them
    have hbound : valueOf CTxOut.isBTCSOQ tx.vout ≤ BTCSOQ_MAX_SATS := by
      by_contra hlt
      rw [not_le] at hlt
      have hmint := hvalues.payload (hvalues.mint (lt_of_le_of_lt (Int.natCast_nonneg _) hlt))
      obtain ⟨m, hm⟩ := Option.isSome_iff_exists.mp hmint
      have hsats := sats_le_of_mintOpOf hm
      rw [hvalues.declared m hm] at hlt
      omega
    rw [DILITHIUM_SIG_SIZE] at hsize ⊢
    rw [BTCSOQ_MAX_SATS] at hbound ⊢
    omega
  · rw [Int.mul_zero]
    exact Int.mul_nonneg (Int.natCast_nonneg _) hsize₀

/-- So the mints of a block cannot overflow a 64-bit sum: its weight bounds their number. -/
theorem Accepted.created_fits (hweight : getBlockWeight block ≤ MAX_BLOCK_WEIGHT) :
    Fits 64 (authorityCreated isBTCSOQAuthorityMarker CTxOut.isBTCSOQ block.vtx) := by
  have hnonneg : 0 ≤ authorityCreated isBTCSOQAuthorityMarker CTxOut.isBTCSOQ block.vtx :=
    authorityCreated_nonneg h
  have hsum := List.sum_le_sum fun tx htx => h.created_le_size hactive henf htx
  rw [List.sum_map_mul_left, List.sum_map_mul_left] at hsum
  have hsize : (block.vtx.map totalSize).sum ≤ MAX_BLOCK_WEIGHT := by
    rw [getBlockWeight, blockTotalSize] at hweight
    omega
  have hcast : (block.vtx.map fun tx => (totalSize tx : Int)).sum =
      ((block.vtx.map totalSize).sum : Nat) := by
    rw [Nat.cast_list_sum, List.map_map]
    rfl
  rw [hcast] at hsum
  rw [authorityCreated] at hnonneg ⊢
  rw [MAX_BLOCK_WEIGHT] at hsize
  rw [DILITHIUM_SIG_SIZE, BTCSOQ_MAX_SATS] at hsum
  constructor
  · omega
  · omega

end

/-- **BTCSOQ peg accounting.**  On every chain of accepted blocks within the
    weight limit, with BTCSOQ active and enforced from the first of them, what
    was minted and not burned is the value of all unspent v8 outputs. -/
theorem peg_accounted
    (hactive : ∀ h, 1 ≤ h → deploymentActiveAtHeight h (params.getConsensus h) .btcsoq = true)
    (henf : ∀ h, 1 ≤ h → (params.getConsensus h).nBTCSOQAuthorityEnforcementHeight ≤ h)
    {n : Node}
    (h : Grown env params (fun _ block => getBlockWeight block ≤ MAX_BLOCK_WEIGHT) n) :
    n.assets.btcsoq.supply.totalMinted - n.assets.btcsoq.supply.totalBurned =
        holdings CTxOut.isBTCSOQ n.view ∧
      0 ≤ n.assets.btcsoq.supply.totalMinted ∧ 0 ≤ n.assets.btcsoq.supply.totalBurned := by
  have hacc : Accounted n.assets.btcsoq.supply CTxOut.isBTCSOQ n.view := by
    induction h with
    | start hstart => exact accounted_start hstart.btcsoq.supply hstart.view
    | @block n below idx io block height notGenesis accepted meets ih =>
      obtain ⟨fp, p, hacc⟩ := connectBlock_accepted accepted notGenesis
      have hheight : 1 ≤ idx.nHeight := by omega
      have hflag : (blockFlags params idx).btcsoq := hactive _ hheight
      have hstep := accounted_block btcsoq_conserves hacc (hacc.btcsoq_supply hflag)
        (hacc.created_fits hflag (henf _ hheight) meets) ih
      rw [hacc.connected_assets, hacc.connected_view]
      exact hstep.setBestBlock _
  exact ⟨hacc.balanced, n.assets.btcsoq.supply.minted_nonneg,
    n.assets.btcsoq.supply.burned_nonneg⟩

/-! ## USDSOQ -/

/-- The rules of USDSOQ are those of an asset with an authority. -/
theorem usdsoq_conserves : Conserves isUSDSOQAuthorityMarker CTxOut.isAnyUSDSOQ where
  spendable o ho := by
    rw [CTxOut.isAnyUSDSOQ, Bool.or_eq_true] at ho
    rcases ho with ho | ho
    · exact isUnspendable_of_isWitnessProgram (by decide) ho
    · exact isUnspendable_of_isWitnessProgram (by decide) ho
  coinbase _ hcb htx := (checkTransaction_coinbase hcb htx).1
  transfer _ _ _ _ _ hout hinputs := (checkTxInputs_conserved hout hinputs).1

theorem valueOf_congr {kind' : CTxOut → Bool} {outs : List CTxOut}
    (h : ∀ o ∈ outs, kind o = kind' o) : valueOf kind outs = valueOf kind' outs := by
  rw [valueOf, valueOf, List.filter_congr h]

/-- An authority transaction creates no confidential holding. -/
theorem Accepted.created_transparent (h : Accepted env params idx io false a view block fp p)
    (hactive : (blockFlags params idx).usdsoq) :
    authorityCreated isUSDSOQAuthorityMarker CTxOut.isUSDSOQ block.vtx =
      authorityCreated isUSDSOQAuthorityMarker CTxOut.isAnyUSDSOQ block.vtx := by
  refine congrArg List.sum (List.map_congr_left fun tx htx => ?_)
  cases hauth : isAuthorityTx isUSDSOQAuthorityMarker tx with
  | false => rfl
  | true =>
    rw [if_pos rfl, if_pos rfl]
    obtain ⟨hcb, hmark⟩ := isAuthorityTx_iff.mp hauth
    obtain ⟨pre, post, hvtx⟩ := List.append_of_mem htx
    obtain ⟨t, _, hrun, -, -⟩ := h.usdsoq_run hactive
    obtain ⟨pre', undo, post', _, _, hzip, -, -, -, -, -⟩ := h.at_tx hvtx
    rw [hzip] at hrun
    obtain ⟨m, m', -, hturn, -⟩ := foldlM_at hrun
    have houts := (usdsoqTx_turn hcb hturn).outputs
    refine valueOf_congr fun o ho => ?_
    obtain ⟨hguard, -⟩ := require_bind_eq_ok.mp (houts o ho)
    rw [hmark, Bool.and_true, Bool.not_eq_true'] at hguard
    rw [← isAnyUSDSOQ_isTransparent, CTxOut.isTransparent]
    cases hany : o.isAnyUSDSOQ with
    | false => rfl
    | true =>
      rw [hany, Bool.true_and] at hguard
      rw [hguard]
      rfl

/-- **USDSOQ supply accounting.**  On every chain of accepted blocks whose authority transactions
    create a total that fits a signed 64-bit word, block by block, with USDSOQ active from the
    first of them, what was minted and not burned is the value of all unspent v7 and v10 outputs. -/
theorem usdsoq_accounted
    (hactive : ∀ h, 1 ≤ h → deploymentActiveAtHeight h (params.getConsensus h) .usdsoq = true)
    {n : Node}
    (h : Grown env params (fun _ block => Fits 64
      (authorityCreated isUSDSOQAuthorityMarker CTxOut.isUSDSOQ block.vtx)) n) :
    n.assets.usdsoq.supply.totalMinted - n.assets.usdsoq.supply.totalBurned =
      holdings CTxOut.isAnyUSDSOQ n.view := by
  have hacc : Accounted n.assets.usdsoq.supply CTxOut.isAnyUSDSOQ n.view := by
    induction h with
    | start hstart => exact accounted_start hstart.usdsoq.supply hstart.view
    | @block n below idx io block height notGenesis accepted meets ih =>
      obtain ⟨fp, p, hacc⟩ := connectBlock_accepted accepted notGenesis
      have hflag : (blockFlags params idx).usdsoq := hactive _ (by omega)
      obtain ⟨supply, hupdate, hp⟩ := hacc.usdsoq_supply hflag
      rw [hacc.created_transparent hflag] at hupdate meets
      have hstep := accounted_block usdsoq_conserves hacc hupdate meets ih
      rw [if_neg Bool.false_ne_true] at hp
      rw [← hp] at hstep
      rw [hacc.connected_assets, hacc.connected_view]
      exact hstep.setBestBlock _
  exact hacc.balanced

end Accounting

namespace Sample

/-- A mint of the given value, on top of the given authority transaction. -/
def usdsoqMint (id prev : Nat) (nValue : Int) : CTransaction :=
  transaction id [spend (UInt8.ofNat prev) (authorityWitness 0x55 [1, 2])]
    [pay OP_5 0, pay OP_7 nValue]

/-- The first node after a block that mints 100. -/
def mintedUSDSOQ : Node :=
  firstNode.connected (env sameByte) params (index 2) io (block 2 [usdsoqMint 10 1 100])

/-- Ten mints, each within `MAX_MONEY`, of 2 ^ 64 together. -/
def overflowingBlock : CBlock :=
  block 2 (usdsoqMint 10 1 1844674407370955167 ::
    (List.range 9).map fun k => usdsoqMint (11 + k) (10 + k) 1844674407370955161)

/-- The first node after the block of those mints. -/
def overflowed : Node := firstNode.connected (env sameByte) params (index 2) io overflowingBlock

theorem overflowed_accepted :
    (connectBlock (env sameByte) params (index 2) io false firstNode.assets firstNode.view
      overflowingBlock).verdict = .ok () := by
  decide +kernel

end Sample

open Sample in
/-- A chain with one mint of 100. -/
theorem peg_accounted_mint :
    mintedOnce.assets.btcsoq.supply.totalMinted = 100 ∧
    mintedOnce.assets.btcsoq.supply.totalMinted - mintedOnce.assets.btcsoq.supply.totalBurned =
      holdings CTxOut.isBTCSOQ mintedOnce.view ∧
    0 ≤ mintedOnce.assets.btcsoq.supply.totalMinted ∧
    0 ≤ mintedOnce.assets.btcsoq.supply.totalBurned :=
  ⟨by decide +kernel, peg_accounted (active _ (Or.inr rfl))
    (fun h hh => show (0 : Int) ≤ h by omega)
    (.block (.block (.start startNode_start) _ _ _ rfl (not_isGenesis _) firstNode_accepted
      (by decide +kernel)) _ _ _ rfl (not_isGenesis _) (by decide +kernel) (by decide +kernel))⟩

open Sample in
/-- A chain with one mint of 100. -/
theorem usdsoq_accounted_mint :
    mintedUSDSOQ.assets.usdsoq.supply.totalMinted = 100 ∧
    mintedUSDSOQ.assets.usdsoq.supply.totalMinted -
      mintedUSDSOQ.assets.usdsoq.supply.totalBurned =
      holdings CTxOut.isAnyUSDSOQ mintedUSDSOQ.view :=
  ⟨by decide +kernel, usdsoq_accounted (active _ (Or.inl rfl))
    (.block (.block (.start startNode_start) _ _ _ rfl (not_isGenesis _) firstNode_accepted
      ⟨by decide +kernel, by decide +kernel⟩) _ _ _ rfl (not_isGenesis _) (by decide +kernel)
      ⟨by decide +kernel, by decide +kernel⟩)⟩

open Sample in
/-- Ten mints of 2 ^ 64 together are accepted and count for nothing. -/
theorem overflowing_mints_not_counted :
    Grown (env sameByte) params (fun _ _ => True) overflowed ∧
    overflowed.assets.usdsoq.supply.totalMinted - overflowed.assets.usdsoq.supply.totalBurned = 0 ∧
    holdings CTxOut.isAnyUSDSOQ overflowed.view = 2 ^ 64 := by
  refine ⟨.block (.block (.start startNode_start) _ _ _ rfl (not_isGenesis _) firstNode_accepted
    trivial) _ _ _ rfl (not_isGenesis _) overflowed_accepted trivial, by decide +kernel, ?_⟩
  rw [overflowed, holdings_connected usdsoq_conserves (not_isGenesis _) overflowed_accepted,
    firstNode, holdings_connected usdsoq_conserves (not_isGenesis _) firstNode_accepted,
    startNode, holdings_emptyView]
  decide +kernel

end Soqucoin
