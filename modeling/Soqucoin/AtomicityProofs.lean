import Soqucoin.MintedDepositProofs
import Soqucoin.OutpointReorgProofs
import Soqucoin.SupplyReorgProofs

/-! # Failed calls and the asset state

The caller drops the coins view of a failed `ConnectBlock` or `DisconnectBlock`; nobody drops what
the call has done to the asset state.  `ConnectBlock` commits the assets before it writes the undo
data and the index, so a failed write leaves the block's effects behind
(`connectBlock_atomic_iff`); `DisconnectBlock` reverses them whatever it has found out about the
coins (`disconnectBlock_atomic_iff`). -/

namespace Soqucoin

open CheckedLoop Toggle

/-- The same counters, outpoint and registry, in memory and in the database; the
    key set is apart. -/
structure AssetState.SameContent (s t : AssetState) : Prop where
  supply : t.supply = s.supply
  dbSupply : t.dbSupply = s.dbSupply
  outpoint : t.authorityOutpoint = s.authorityOutpoint
  dbOutpoint : t.dbAuthorityOutpoint = s.dbAuthorityOutpoint
  frozen : t.dbFrozen = s.dbFrozen

theorem AssetState.SameContent.refl (s : AssetState) : s.SameContent s := ⟨rfl, rfl, rfl, rfl, rfl⟩

/-- Both assets read the same, and the same deposits are minted. -/
structure Assets.SameContent (a b : Assets) : Prop where
  usdsoq : a.usdsoq.SameContent b.usdsoq
  btcsoq : a.btcsoq.SameContent b.btcsoq
  minted : b.dbMinted = a.dbMinted

theorem Assets.SameContent.refl (a : Assets) : a.SameContent a := ⟨.refl _, .refl _, rfl⟩

variable {s : AssetState} {totals : Int × Int} {v' : CoinsView}

theorem outpoint_kept_iff {moved : Option COutPoint} :
    (moved.getD s.authorityOutpoint = s.authorityOutpoint ∧
      moved.or s.dbAuthorityOutpoint = s.dbAuthorityOutpoint) ↔
      ∀ o ∈ moved, s.authorityOutpoint = o ∧ s.dbAuthorityOutpoint = some o := by
  cases moved with
  | none => simp
  | some o => simp [eq_comm]

section Connection

variable {env : Env} {params : CChainParams} {idx : CBlockIndex} {io : NodeIO}
variable {fJustCheck : Bool} {a : Assets} {view : CoinsView} {block : CBlock}
variable {fp : FirstPass} {p : Pending} {c : AssetCtx} {dbMinted : Finset COutPoint}

/-! ## What a block commits -/

/-- A block with these amounts, this outpoint and these operations has nothing to
    write into the asset. -/
structure NothingToWrite (s : AssetState) (minted burned : Int) (moved : Option COutPoint)
    (ops : List FreezeOp) : Prop where
  minted : minted ≤ 0
  burned : burned ≤ 0
  moved : ∀ o ∈ moved, s.authorityOutpoint = o ∧ s.dbAuthorityOutpoint = some o
  toggled : ∀ o, Even (touches o ops)

/-- A supply check leaves counters and record alone exactly if nothing is minted or burned. -/
theorem supply_kept_iff {overflow underflow : String} {minted burned : Int} {after : Option Supply}
    (h : applySupplyDelta overflow underflow s.supply minted burned = .ok after) :
    (after.getD s.supply = s.supply ∧ after.or s.dbSupply = s.dbSupply) ↔
      minted ≤ 0 ∧ burned ≤ 0 := by
  constructor
  · rintro ⟨hsame, -⟩
    obtain ⟨hm, hb⟩ := applySupplyDelta_counters h
    rw [hsame] at hm hb
    omega
  · rintro ⟨hm, hb⟩
    rw [applySupplyDelta, if_neg (by simp [hm, hb])] at h
    obtain rfl := Except.ok.inj h
    exact ⟨rfl, rfl⟩

/-- A commit leaves an asset as it was, its keys apart, exactly when there is nothing to write. -/
theorem sameContent_commitAsset_iff {overflow underflow : String} {minted burned : Int}
    {pending : AssetPending} (keys : Authority)
    (hsupply : applySupplyDelta overflow underflow s.supply minted burned = .ok pending.supply)
    (hlog : EffectiveLog s.dbFrozen pending.freezeOps) :
    s.SameContent (commitAsset { s with authority := keys } pending) ↔
      NothingToWrite s minted burned pending.outpoint pending.freezeOps := by
  constructor
  · intro h
    obtain ⟨hm, hb⟩ := (supply_kept_iff hsupply).mp ⟨h.supply, h.dbSupply⟩
    exact ⟨hm, hb, outpoint_kept_iff.mp ⟨h.outpoint, h.dbOutpoint⟩,
      (foldl_apply_eq_iff hlog).mp h.frozen⟩
  · intro h
    obtain ⟨hs, hdb⟩ := (supply_kept_iff hsupply).mpr ⟨h.minted, h.burned⟩
    obtain ⟨ho, hdbo⟩ := outpoint_kept_iff.mpr h.moved
    exact ⟨hs, hdb, ho, hdbo, (foldl_apply_eq_iff hlog).mpr h.toggled⟩

/-! ## The outpoint a block moves to -/

/-- The outpoint followed and the one to commit, after a transaction.  Below the
    enforcement height a marker is followed inside the block only; an authority
    input without a witness is passed over. -/
def usdsoqFollow (env : Env) (consensus : Consensus) (nHeight : Int) (after : CoinsView)
    (authority : Authority) (s : COutPoint × Option COutPoint) (tx : CTransaction) :
    COutPoint × Option COutPoint :=
  if isAuthorityTx isUSDSOQAuthorityMarker tx = false then s
  else if nHeight < consensus.nUSDSOQAuthorityEnforcementHeight then
    (markerOutpoint env isUSDSOQAuthorityMarker tx, s.2)
  else if (findUSDSOQAuthorityInput env after authority s.1 tx).any (fun found =>
      (tx.vin.getD found.1 default).scriptWitness.isEmpty) = true then s
  else (markerOutpoint env isUSDSOQAuthorityMarker tx,
    some (markerOutpoint env isUSDSOQAuthorityMarker tx))

/-- The outpoint a block gives to USDSOQ, if any. -/
def usdsoqMoved (env : Env) (params : CChainParams) (idx : CBlockIndex) (a : Assets)
    (view : CoinsView) (block : CBlock) : Option COutPoint :=
  (block.vtx.foldl (usdsoqFollow env (params.getConsensus idx.nHeight) idx.nHeight
    (blockView env idx.nHeight view block.vtx) (initAuthorities params idx a).usdsoq.authority)
    (a.usdsoq.authorityOutpoint, none)).2

/-- The outpoint to commit, after a transaction: from the enforcement height on,
    the marker of the last authority transaction. -/
def btcsoqFollow (env : Env) (consensus : Consensus) (nHeight : Int) (moved : Option COutPoint)
    (tx : CTransaction) : Option COutPoint :=
  if isAuthorityTx isBTCSOQAuthorityMarker tx = true ∧
      consensus.nBTCSOQAuthorityEnforcementHeight ≤ nHeight then
    some (markerOutpoint env isBTCSOQAuthorityMarker tx)
  else moved

/-- The outpoint a block gives to BTCSOQ, if any. -/
def btcsoqMoved (env : Env) (params : CChainParams) (idx : CBlockIndex) (block : CBlock) :
    Option COutPoint :=
  block.vtx.foldl (btcsoqFollow env (params.getConsensus idx.nHeight) idx.nHeight) none

/-- The tracked outpoint after the authority check, as a function of the transaction. -/
theorem usdsoqAuthorityStep_follow {s t : AssetPass} {tx : CTransaction}
    (hreal : c.fJustCheck = false) (hcb : tx.isCoinBase = false)
    (h : usdsoqAuthorityStep env c s tx = .ok t) :
    (t.localAuthOutpoint, t.pendingOutpoint) =
      usdsoqFollow env c.consensus c.nHeight c.view c.asset.authority
        (s.localAuthOutpoint, s.pendingOutpoint) tx := by
  have hauth : hasMarker isUSDSOQAuthorityMarker tx = true →
      ¬ isAuthorityTx isUSDSOQAuthorityMarker tx = false := by
    intro hmark hnot
    cases hnot.symm.trans (isAuthorityTx_iff.mpr ⟨hcb, hmark⟩)
  rw [usdsoqFollow]
  cases usdsoqAuthorityStep_turn h with
  | unmarked hnot =>
    rw [if_pos]
    rw [isAuthorityTx, hnot, Bool.and_false]
  | unenforced hmark _ hbelow => rw [if_neg (hauth hmark), if_pos hbelow]
  | unwitnessed hmark _ henf hfound hempty =>
    rw [if_neg (hauth hmark), if_neg (not_lt.mpr henf), hfound, if_pos]
    exact List.isEmpty_iff.mpr hempty
  | signed hmark _ henf hfound hwitness _ =>
    rw [if_neg (hauth hmark), if_neg (not_lt.mpr henf), hfound, if_neg]
    exact fun hempty => hwitness (List.isEmpty_iff.mp hempty)
  | bootstrap hmark _ henf hnone _ _ _ _ =>
    rw [if_neg (hauth hmark), if_neg (not_lt.mpr henf), hnone, Option.any_none,
      if_neg Bool.false_ne_true, hreal]
    rfl
  | unlinked hmark _ henf hnone _ _ =>
    rw [if_neg (hauth hmark), if_neg (not_lt.mpr henf), hnone, Option.any_none,
      if_neg Bool.false_ne_true, hreal]
    rfl

/-- The same for a whole turn. -/
theorem usdsoqTx_follow {s t : AssetPass} {q : CTransaction × CTxUndo}
    (hreal : c.fJustCheck = false) (h : usdsoqTx env c s (undoPair q) = .ok t) :
    (t.localAuthOutpoint, t.pendingOutpoint) =
      usdsoqFollow env c.consensus c.nHeight c.view c.asset.authority
        (s.localAuthOutpoint, s.pendingOutpoint) q.1 := by
  cases hcb : q.1.isCoinBase with
  | true =>
    obtain rfl := usdsoqTx_coinbase hcb h
    rw [usdsoqFollow, isAuthorityTx, hcb]
    rfl
  | false =>
    obtain ⟨s₁, hstep, hlocal, hpending⟩ := (usdsoqTx_turn hcb h).authority
    rw [hlocal, hpending]
    exact usdsoqAuthorityStep_follow hreal hcb hstep

/-- Where the USDSOQ outpoint goes in a block, as a function of the block. -/
theorem Accepted.usdsoq_moved (h : Accepted env params idx io false a view block fp p)
    (hactive : (blockFlags params idx).usdsoq) :
    p.usdsoq.outpoint = usdsoqMoved env params idx a view block := by
  obtain ⟨t, supply, hrun, -, hp⟩ := h.usdsoq_run hactive
  have hfollow := foldlM_track (fun s : AssetPass => (s.localAuthOutpoint, s.pendingOutpoint))
    (fun o (q : CTransaction × CTxUndo) =>
      usdsoqFollow env (params.getConsensus idx.nHeight) idx.nHeight fp.view
        (initAuthorities params idx a).usdsoq.authority o q.1) _
    (fun s q t _ hq => usdsoqTx_follow rfl hq) hrun
  rw [← List.foldl_map, map_fst_zip_undos h, ← h.blockView_eq] at hfollow
  rw [hp, usdsoqMoved]
  exact congrArg Prod.snd hfollow

/-- The outpoint that a BTCSOQ turn leaves to be committed. -/
theorem btcsoqTx_follow {s t : BTCSOQPass} {q : CTransaction × CTxUndo}
    (h : btcsoqTx env c dbMinted s (undoPair q) = .ok t) :
    t.pendingOutpoint = btcsoqFollow env c.consensus c.nHeight s.pendingOutpoint q.1 := by
  by_cases hauth : isAuthorityTx isBTCSOQAuthorityMarker q.1 = true
  · obtain ⟨hcb, hmark⟩ := isAuthorityTx_iff.mp hauth
    obtain ⟨-, hturn, hfree⟩ := btcsoqTx_turn hcb h
    by_cases henf : c.consensus.nBTCSOQAuthorityEnforcementHeight ≤ c.nHeight
    · obtain ⟨op, hop⟩ := hturn hmark henf
      rw [btcsoqFollow, if_pos ⟨hauth, henf⟩]
      exact hop.pending
    · rw [btcsoqFollow, if_neg fun hboth => henf hboth.2]
      exact (hfree hmark (by omega)).pending
  · rw [btcsoqFollow, if_neg fun hboth => hauth hboth.1]
    exact btcsoqTx_pendingOutpoint (Bool.eq_false_iff.mpr hauth) h

/-- The outpoint that the pass hands to the commit is the one the block gives to BTCSOQ. -/
theorem Accepted.btcsoq_moved (h : Accepted env params idx io false a view block fp p)
    (hactive : (blockFlags params idx).btcsoq) :
    p.btcsoq.outpoint = btcsoqMoved env params idx block := by
  obtain ⟨t, supply, hrun, -, hp, -⟩ := h.btcsoq_run hactive
  have hfollow := foldlM_track (fun s : BTCSOQPass => s.pendingOutpoint)
    (fun o (q : CTransaction × CTxUndo) =>
      btcsoqFollow env (params.getConsensus idx.nHeight) idx.nHeight o q.1) _
    (fun s q t _ hq => btcsoqTx_follow hq) hrun
  rw [← List.foldl_map, map_fst_zip_undos h] at hfollow
  rw [hp]
  exact hfollow

/-! ## The whole block -/

/-- In each active asset the block has nothing to write, and it mints against no deposit. -/
structure CommitsNothing (env : Env) (params : CChainParams) (idx : CBlockIndex) (a : Assets)
    (view : CoinsView) (block : CBlock) : Prop where
  usdsoq : (blockFlags params idx).usdsoq = true → NothingToWrite a.usdsoq
    (wrap64 (authorityCreated isUSDSOQAuthorityMarker CTxOut.isUSDSOQ block.vtx))
    (wrap64 (authoritySpent env idx.nHeight isUSDSOQAuthorityMarker CTxOut.isAnyUSDSOQ view
      block.vtx))
    (usdsoqMoved env params idx a view block)
    (usdsoqFreezeOps (params.getConsensus idx.nHeight) idx.nHeight block.vtx)
  btcsoq : (blockFlags params idx).btcsoq = true → NothingToWrite a.btcsoq
    (wrap64 (authorityCreated isBTCSOQAuthorityMarker CTxOut.isBTCSOQ block.vtx))
    (wrap64 (authoritySpent env idx.nHeight isBTCSOQAuthorityMarker CTxOut.isBTCSOQ view
      block.vtx))
    (btcsoqMoved env params idx block)
    (btcsoqFreezeOps (params.getConsensus idx.nHeight) idx.nHeight block.vtx)
  mints : (blockFlags params idx).btcsoq = true →
    btcsoqMintOps (params.getConsensus idx.nHeight) idx.nHeight block.vtx = []

section

variable (h : Accepted env params idx io false a view block fp p)
include h

/-- A block commits nothing for USDSOQ exactly if it mints, burns, moves and freezes nothing. -/
theorem Accepted.usdsoq_sameContent_iff (hactive : (blockFlags params idx).usdsoq) :
    a.usdsoq.SameContent (commitAssets (initAuthorities params idx a) p).usdsoq ↔
      NothingToWrite a.usdsoq
        (wrap64 (authorityCreated isUSDSOQAuthorityMarker CTxOut.isUSDSOQ block.vtx))
        (wrap64 (authoritySpent env idx.nHeight isUSDSOQAuthorityMarker CTxOut.isAnyUSDSOQ view
          block.vtx))
        (usdsoqMoved env params idx a view block)
        (usdsoqFreezeOps (params.getConsensus idx.nHeight) idx.nHeight block.vtx) := by
  obtain ⟨supply, hupdate, hsupply⟩ := h.usdsoq_supply hactive
  obtain ⟨hops, hlog⟩ := h.usdsoq_freezeLog hactive
  rw [if_neg Bool.false_ne_true] at hsupply
  rw [← h.usdsoq_moved hactive, ← hops]
  exact sameContent_commitAsset_iff _ (hupdate.trans (by rw [hsupply])) hlog

theorem Accepted.btcsoq_sameContent_iff (hactive : (blockFlags params idx).btcsoq) :
    a.btcsoq.SameContent (commitAssets (initAuthorities params idx a) p).btcsoq ↔
      NothingToWrite a.btcsoq
        (wrap64 (authorityCreated isBTCSOQAuthorityMarker CTxOut.isBTCSOQ block.vtx))
        (wrap64 (authoritySpent env idx.nHeight isBTCSOQAuthorityMarker CTxOut.isBTCSOQ view
          block.vtx))
        (btcsoqMoved env params idx block)
        (btcsoqFreezeOps (params.getConsensus idx.nHeight) idx.nHeight block.vtx) := by
  obtain ⟨hops, hlog⟩ := h.btcsoq_freezeLog hactive
  rw [← h.btcsoq_moved hactive, ← hops]
  exact sameContent_commitAsset_iff _ (h.btcsoq_supply hactive) hlog

/-- The commit of an accepted block changes the assets exactly if the block has something to commit.
    -/
theorem Accepted.sameContent_iff :
    a.SameContent (commitAssets (initAuthorities params idx a) p) ↔
      CommitsNothing env params idx a view block := by
  constructor
  · intro hsame
    exact ⟨fun hactive => (h.usdsoq_sameContent_iff hactive).mp hsame.usdsoq,
      fun hactive => (h.btcsoq_sameContent_iff hactive).mp hsame.btcsoq,
      fun hactive => h.no_mints hactive (Finset.subset_of_eq hsame.minted)⟩
  · intro hnone
    refine ⟨?_, ?_, ?_⟩
    · cases hactive : (blockFlags params idx).usdsoq with
      | true => exact (h.usdsoq_sameContent_iff hactive).mpr (hnone.usdsoq hactive)
      | false =>
        rw [commitAssets, h.usdsoq_inactive hactive]
        exact ⟨rfl, rfl, rfl, rfl, rfl⟩
    · cases hactive : (blockFlags params idx).btcsoq with
      | true => exact (h.btcsoq_sameContent_iff hactive).mpr (hnone.btcsoq hactive)
      | false =>
        rw [commitAssets, (h.btcsoq_inactive hactive).1]
        exact ⟨rfl, rfl, rfl, rfl, rfl⟩
    · have hempty : p.mintedDeposits = [] := by
        rw [h.mintedDeposits_eq.1]
        cases hactive : (blockFlags params idx).btcsoq with
        | true =>
          rw [hnone.mints hactive]
          rfl
        | false => rfl
      rw [commitAssets, hempty]
      rfl

end

/-! ## Failed connections -/

/-- The same settings, with nothing left to write to disk. -/
def NodeIO.withoutWrites (io : NodeIO) : NodeIO :=
  { io with undoPosNull := false, fTxIndex := false }

/-- What is validated is accepted by a node with nothing left to write. -/
theorem accepted_withoutWrites (hadm : Admitted env params idx false view block)
    (hvalid : validateBlock env params idx io false (initAuthorities params idx a) view block =
      .ok p) :
    ∃ fp, Accepted env params idx io.withoutWrites false a view block fp p := by
  -- validation reads nothing of the settings but whether script checks are queued
  have hvalid' : validateBlock env params idx io.withoutWrites false
      (initAuthorities params idx a) view block = .ok p := hvalid
  obtain ⟨fp, hacc, -⟩ := accepted_of_validated hadm hvalid' fun _ => rfl
  exact ⟨fp, hacc⟩

/-- A block that is turned away first leaves the assets alone. -/
theorem connectBlock_assets_of_not_admitted
    (h : ¬ Admitted env params idx fJustCheck view block) :
    (connectBlock env params idx io fJustCheck a view block).assets = a := by
  by_cases hgen : isGenesis env params block
  · rcases connectBlock_of_isGenesis hgen with ⟨e, he⟩ | hok
    · rw [he]
    · rw [hok]
  · obtain ⟨e, he⟩ := connectBlock_of_not_admitted hgen h
    rw [he]

theorem sameContent_initAuthorities (params : CChainParams) (idx : CBlockIndex) (a : Assets) :
    a.SameContent (initAuthorities params idx a) :=
  ⟨⟨rfl, rfl, rfl, rfl, rfl⟩, ⟨rfl, rfl, rfl, rfl, rfl⟩, rfl⟩

/-- A connection leaves the asset state as it was, whatever its verdict, exactly
    when the block has nothing to commit or does not get that far. -/
theorem connectBlock_sameContent_iff :
    a.SameContent (connectBlock env params idx io false a view block).assets ↔
      (Admitted env params idx false view block →
        (∃ p, validateBlock env params idx io false (initAuthorities params idx a) view block =
          .ok p) → CommitsNothing env params idx a view block) := by
  by_cases hadm : Admitted env params idx false view block
  · cases hvalid : validateBlock env params idx io false (initAuthorities params idx a) view
      block with
    | error e =>
      rw [connectBlock_of_admitted hadm, hvalid]
      refine iff_of_true (sameContent_initAuthorities params idx a) ?_
      rintro - ⟨p, hp⟩
      cases hp
    | ok p =>
      -- the commit comes before the writes, so how these go does not matter
      have hassets : (connectBlock env params idx io false a view block).assets =
          commitAssets (initAuthorities params idx a) p := by
        rw [connectBlock_of_admitted hadm, hvalid, connectValidated,
          if_neg Bool.false_ne_true]
        cases writeIndexes io <;> rfl
      obtain ⟨fp, hacc⟩ := accepted_withoutWrites hadm hvalid
      rw [hassets, hacc.sameContent_iff]
      exact ⟨fun h _ _ => h, fun h => h hadm ⟨p, rfl⟩⟩
  · rw [connectBlock_assets_of_not_admitted hadm]
    exact iff_of_true (.refl a) fun h => absurd h hadm

/-- A dry run writes no content. -/
theorem connectBlock_sameContent_of_justCheck :
    a.SameContent (connectBlock env params idx io true a view block).assets := by
  by_cases hadm : Admitted env params idx true view block
  · rw [connectBlock_of_admitted hadm]
    cases validateBlock env params idx io true (initAuthorities params idx a) view block <;>
      exact sameContent_initAuthorities params idx a
  · rw [connectBlock_assets_of_not_admitted hadm]
    exact .refl a

/-- **`ConnectBlock` is all or nothing, but for the writes after the commit.**
    Every failure leaves the asset state as it was exactly when a block that
    passes validation and then cannot be written has nothing to commit. -/
theorem connectBlock_atomic_iff (env : Env) (params : CChainParams) (idx : CBlockIndex)
    (io : NodeIO) (fJustCheck : Bool) (a : Assets) (view : CoinsView) (block : CBlock) :
    ((connectBlock env params idx io fJustCheck a view block).verdict ≠ .ok () →
      a.SameContent (connectBlock env params idx io fJustCheck a view block).assets) ↔
    (Admitted env params idx fJustCheck view block →
      (∃ p, validateBlock env params idx io fJustCheck (initAuthorities params idx a) view block =
        .ok p) →
      fJustCheck = false → writeIndexes io ≠ .ok () →
      CommitsNothing env params idx a view block) := by
  constructor
  · rintro hatomic hadm hvalid rfl hwrite
    refine connectBlock_sameContent_iff.mp (hatomic ?_) hadm hvalid
    intro hok
    obtain ⟨-, -, hwritten⟩ := (connectBlock_verdict_iff hadm.notGenesis).mp hok
    exact hwrite (hwritten rfl)
  · intro hcond hfail
    cases fJustCheck with
    | true => exact connectBlock_sameContent_of_justCheck
    | false =>
      refine connectBlock_sameContent_iff.mpr fun hadm hvalid => ?_
      refine hcond hadm hvalid rfl fun hwrite => hfail ?_
      exact (connectBlock_verdict_iff hadm.notGenesis).mpr ⟨hadm, hvalid, fun _ => hwrite⟩

end Connection

namespace Sample

/-- The undo data cannot be written. -/
def diskFull : NodeIO := { io with undoWriteToDisk := false }

end Sample

open Sample in
/-- A mint that cannot be written is refused, and counted all the same. -/
theorem unwritten_mint_counted :
    let r := connectBlock (Sample.env sameByte) params (index 1) diskFull false usdsoqAssets
      usdsoqCoins mintOnly
    r.verdict = .error (.abort "Failed to write undo data") ∧
      usdsoqAssets.usdsoq.supply.totalMinted = 0 ∧ r.assets.usdsoq.supply.totalMinted = 100 ∧
      r.assets.usdsoq.dbSupply = some r.assets.usdsoq.supply ∧
      usdsoqAssets.usdsoq.authorityOutpoint = ⟨Uint256.fill 9, 0⟩ ∧
      r.assets.usdsoq.authorityOutpoint = ⟨Uint256.fill 7, 0⟩ := by
  decide +kernel

section Disconnection

variable {env : Env} {params : CChainParams} {idx : CBlockIndex} {a : Assets} {block : CBlock}

/-! ## Supply reversal -/

/-- Both totals can be taken back from the counters. -/
def Reversible (s : Supply) (totals : Int × Int) : Prop :=
  (0 < totals.1 → s.totalBurned ≤ s.totalMinted - totals.1) ∧
    (0 < totals.2 → totals.2 ≤ s.totalBurned)

/-- Neither can. -/
def Irreversible (s : Supply) (totals : Int × Int) : Prop :=
  (0 < totals.1 → s.totalMinted - totals.1 < s.totalBurned) ∧
    (0 < totals.2 → s.totalBurned < totals.2)

/-- Taking back a mint succeeds, or the counters are too low for it. -/
theorem undoMint_step (s : Supply) (amount : Int) :
    (∃ t, (if 0 < amount then s.undoMint amount else some s) = some t ∧
      (0 < amount → s.totalBurned ≤ s.totalMinted - amount) ∧
      t.totalMinted = s.totalMinted - max amount 0 ∧ t.totalBurned = s.totalBurned) ∨
    ((if 0 < amount then s.undoMint amount else some s) = none ∧
      0 < amount ∧ s.totalMinted - amount < s.totalBurned) := by
  by_cases hpos : 0 < amount
  · rw [if_pos hpos]
    cases h : s.undoMint amount with
    | some t =>
      obtain ⟨-, hle, hm, hb⟩ := Supply.undoMint_eq_some.mp h
      exact Or.inl ⟨t, rfl, fun _ => hle, by omega, hb⟩
    | none =>
      refine Or.inr ⟨rfl, hpos, ?_⟩
      by_contra hle
      have hmax := s.minted_le_max
      have hsome := (Supply.undoMint_eq_some (s := s) (t := ⟨s.totalMinted - amount,
        s.totalBurned, s.burned_nonneg, by omega, by omega⟩)).mpr ⟨hpos, by omega, rfl, rfl⟩
      rw [h] at hsome
      cases hsome
  · rw [if_neg hpos]
    exact Or.inl ⟨s, rfl, fun hp => absurd hp hpos, by omega, rfl⟩

/-- Taking back a burn succeeds, or less has been burned. -/
theorem undoBurn_step (s : Supply) (amount : Int) :
    (∃ t, (if 0 < amount then s.undoBurn amount else some s) = some t ∧
      (0 < amount → amount ≤ s.totalBurned) ∧
      t.totalMinted = s.totalMinted ∧ t.totalBurned = s.totalBurned - max amount 0) ∨
    ((if 0 < amount then s.undoBurn amount else some s) = none ∧
      0 < amount ∧ s.totalBurned < amount) := by
  by_cases hpos : 0 < amount
  · rw [if_pos hpos]
    cases h : s.undoBurn amount with
    | some t =>
      obtain ⟨-, hle, hm, hb⟩ := Supply.undoBurn_eq_some.mp h
      exact Or.inl ⟨t, rfl, fun _ => hle, hm, by omega⟩
    | none =>
      refine Or.inr ⟨rfl, hpos, ?_⟩
      by_contra hle
      have hburned := s.burned_le_minted
      have hsome := (Supply.undoBurn_eq_some (s := s) (t := ⟨s.totalMinted,
        s.totalBurned - amount, by omega, by omega, s.minted_le_max⟩)).mpr
          ⟨hpos, by omega, rfl, rfl⟩
      rw [h] at hsome
      cases hsome
  · rw [if_neg hpos]
    exact Or.inl ⟨s, rfl, fun hp => absurd hp hpos, rfl, by omega⟩

/-- Supply reversal is clean exactly when both totals can be taken back, and
    changes no counter exactly when neither can. -/
theorem undoSupply_spec (s : Supply) (totals : Int × Int) :
    ((undoSupply s totals.1 totals.2).1 ↔ Reversible s totals) ∧
      ((undoSupply s totals.1 totals.2).2 = s ↔ Irreversible s totals) := by
  obtain ⟨minted, burned⟩ := totals
  have hb0 := s.burned_nonneg
  simp only [undoSupply, Reversible, Irreversible, Bool.and_eq_true, Supply.ext_iff]
  rcases undoMint_step s minted with ⟨t, ht, hm, htm, htb⟩ | ⟨ht, hpos, hm⟩
  · rw [ht, Option.isSome_some, Option.getD_some]
    rcases undoBurn_step t burned with ⟨u, hu, hb, hum, hub⟩ | ⟨hu, hposb, hb⟩
    · rw [hu, Option.isSome_some, Option.getD_some]
      exact ⟨iff_of_true ⟨rfl, rfl⟩ ⟨hm, fun hp => htb ▸ hb hp⟩, by omega⟩
    · rw [hu, Option.isSome_none, Option.getD_none]
      constructor
      · simp only [Bool.false_eq_true, and_false, false_iff]
        omega
      · omega
  · rw [ht, Option.isSome_none, Option.getD_none]
    rcases undoBurn_step s burned with ⟨u, hu, hb, hum, hub⟩ | ⟨hu, hposb, hb⟩
    · rw [hu, Option.getD_some]
      constructor
      · simp only [Bool.false_eq_true, false_and, false_iff]
        omega
      · omega
    · rw [hu, Option.getD_none]
      constructor
      · simp only [Bool.false_eq_true, false_and, false_iff]
        omega
      · omega

theorem undoAssetSupply_of_pos (h : 0 < totals.1 ∨ 0 < totals.2) :
    undoAssetSupply s totals = ((undoSupply s.supply totals.1 totals.2).1,
      { s with
        supply := (undoSupply s.supply totals.1 totals.2).2
        dbSupply := some (undoSupply s.supply totals.1 totals.2).2 }) := by
  simp only [undoAssetSupply, Bool.or_eq_true, decide_eq_true_eq, if_pos h]

theorem undoAssetSupply_of_nonpos (h : totals.1 ≤ 0 ∧ totals.2 ≤ 0) :
    undoAssetSupply s totals = (true, s) := by
  have hnot : ¬ (0 < totals.1 ∨ 0 < totals.2) := by omega
  simp only [undoAssetSupply, Bool.or_eq_true, decide_eq_true_eq, if_neg hnot]

theorem undoAssetSupply_clean_iff (s : AssetState) (totals : Int × Int) :
    (undoAssetSupply s totals).1 ↔ Reversible s.supply totals := by
  by_cases hpos : 0 < totals.1 ∨ 0 < totals.2
  · rw [undoAssetSupply_of_pos hpos]
    exact (undoSupply_spec s.supply totals).1
  · rw [undoAssetSupply_of_nonpos (by omega)]
    exact iff_of_true rfl ⟨fun h => absurd (Or.inl h) hpos, fun h => absurd (Or.inr h) hpos⟩

/-- Supply reversal leaves the counters and their record as they were exactly when there is
    nothing to take back, or nothing can be and the record is that of the counters. -/
theorem undoAssetSupply_kept_iff (s : AssetState) (totals : Int × Int) :
    ((undoAssetSupply s totals).2.supply = s.supply ∧
      (undoAssetSupply s totals).2.dbSupply = s.dbSupply) ↔
    (totals.1 ≤ 0 ∧ totals.2 ≤ 0) ∨
      (Irreversible s.supply totals ∧ s.dbSupply = some s.supply) := by
  by_cases hpos : 0 < totals.1 ∨ 0 < totals.2
  · rw [undoAssetSupply_of_pos hpos, ← (undoSupply_spec s.supply totals).2]
    constructor
    · rintro ⟨hsupply, hdb⟩
      exact Or.inr ⟨hsupply, hdb.symm.trans (congrArg some hsupply)⟩
    · rintro (⟨hm, hb⟩ | ⟨hsupply, hdb⟩)
      · omega
      · exact ⟨hsupply, (congrArg some hsupply).trans hdb.symm⟩
  · have hnone : totals.1 ≤ 0 ∧ totals.2 ≤ 0 := by omega
    rw [undoAssetSupply_of_nonpos hnone]
    exact iff_of_true ⟨rfl, rfl⟩ (Or.inl hnone)

/-! ## The whole block -/

/-- Taking back these totals, going back to this outpoint and undoing these
    operations changes nothing in the asset. -/
structure NothingToReverse (s : AssetState) (totals : Int × Int) (reverted : Option COutPoint)
    (ops : List FreezeOp) : Prop where
  supply : (totals.1 ≤ 0 ∧ totals.2 ≤ 0) ∨
    (Irreversible s.supply totals ∧ s.dbSupply = some s.supply)
  outpoint : ∀ o ∈ reverted, s.authorityOutpoint = o ∧ s.dbAuthorityOutpoint = some o
  frozen : ∀ o, ∀ adds ∈ (trace o ops).getLast?, decide (o ∈ s.dbFrozen) = !adds

section

variable {isMarker : CScript → Bool} {vtx : List CTransaction} {ops : List FreezeOp}
  {r : Bool × AssetState} (h : Undone isMarker v' vtx totals ops s r)
include h

/-- The undo stages of an asset change nothing exactly if there is nothing to reverse. -/
theorem Undone.sameContent_iff :
    s.SameContent r.2 ↔ NothingToReverse s totals (revertedOutpoint isMarker v' vtx) ops := by
  constructor
  · intro hsame
    refine ⟨(undoAssetSupply_kept_iff s totals).mp ?_, outpoint_kept_iff.mp ?_,
      foldl_undo_eq_iff.mp ?_⟩
    · exact ⟨h.supply ▸ hsame.supply, h.dbSupply ▸ hsame.dbSupply⟩
    · exact ⟨h.outpoint ▸ hsame.outpoint, h.dbOutpoint ▸ hsame.dbOutpoint⟩
    · exact h.frozen ▸ hsame.frozen
  · intro hnone
    obtain ⟨hs, hdb⟩ := (undoAssetSupply_kept_iff s totals).mpr hnone.supply
    obtain ⟨ho, hdbo⟩ := outpoint_kept_iff.mpr hnone.outpoint
    exact ⟨h.supply.trans hs, h.dbSupply.trans hdb, h.outpoint.trans ho, h.dbOutpoint.trans hdbo,
      h.frozen.trans (foldl_undo_eq_iff.mpr hnone.frozen)⟩

theorem Undone.clean_iff : r.1 ↔ Reversible s.supply totals := by
  rw [h.clean]
  exact undoAssetSupply_clean_iff s totals

end

/-- What the authority transactions of a block minted and burned of USDSOQ,
    counted on its undo data. -/
def usdsoqTotals (block : CBlock) (undo : CBlockUndo) : Int × Int :=
  reversedTotals isUSDSOQAuthorityMarker CTxOut.isUSDSOQ CTxOut.isAnyUSDSOQ
    (withUndo block.vtx undo).reverse

/-- What disconnecting the block takes off the BTCSOQ counters. -/
def btcsoqTotals (block : CBlock) (undo : CBlockUndo) : Int × Int :=
  reversedTotals isBTCSOQAuthorityMarker CTxOut.isBTCSOQ CTxOut.isBTCSOQ
    (withUndo block.vtx undo).reverse

/-- In each active asset the counters take the block's totals back. -/
structure SupplyReverses (params : CChainParams) (idx : CBlockIndex) (a : Assets)
    (block : CBlock) (undo : CBlockUndo) : Prop where
  usdsoq : (blockFlags params idx).usdsoq = true →
    Reversible a.usdsoq.supply (usdsoqTotals block undo)
  btcsoq : (blockFlags params idx).btcsoq = true →
    Reversible a.btcsoq.supply (btcsoqTotals block undo)

/-- In each active asset there is nothing to reverse; `restored` is the view with
    the coins put back. -/
structure ReversesNothing (params : CChainParams) (idx : CBlockIndex) (a : Assets)
    (restored : CoinsView) (block : CBlock) (undo : CBlockUndo) : Prop where
  usdsoq : (blockFlags params idx).usdsoq = true → NothingToReverse a.usdsoq
    (usdsoqTotals block undo) (revertedOutpoint isUSDSOQAuthorityMarker restored block.vtx)
    (usdsoqFreezeOps (params.getConsensus idx.nHeight) idx.nHeight block.vtx)
  btcsoq : (blockFlags params idx).btcsoq = true → NothingToReverse a.btcsoq
    (btcsoqTotals block undo) (revertedOutpoint isBTCSOQAuthorityMarker restored block.vtx)
    (btcsoqFreezeOps (params.getConsensus idx.nHeight) idx.nHeight block.vtx)
  mints : (blockFlags params idx).btcsoq = true →
    ∀ mint ∈ btcsoqMintOps (params.getConsensus idx.nHeight) idx.nHeight block.vtx,
      mint.deposit ∉ a.dbMinted

theorem sameContent_ite_iff (active : Bool) {t : AssetState} {P : Prop} (h : s.SameContent t ↔ P) :
    s.SameContent (if active then t else s) ↔ (active → P) := by
  cases active with
  | true => exact h.trans ⟨fun hP _ => hP, fun hP => hP rfl⟩
  | false => exact iff_of_true (.refl s) fun hfalse => by cases hfalse

/-- Disconnecting a block changes the assets exactly if it has something to reverse. -/
theorem Disconnected.sameContent_iff {undo : CBlockUndo} {fClean : Bool} {d : DisconnectResult}
    (h : Disconnected env params idx a block undo fClean v' d) :
    a.SameContent d.assets ↔ ReversesNothing params idx a v' block undo := by
  have husd := sameContent_ite_iff (blockFlags params idx).usdsoq (disconnectUSDSOQ_undone
    (params.getConsensus idx.nHeight) idx.nHeight v' block.vtx undo a.usdsoq).sameContent_iff
  have hbtc := sameContent_ite_iff (blockFlags params idx).btcsoq (disconnectBTCSOQ_undone
    (params.getConsensus idx.nHeight) idx.nHeight v' block.vtx undo a.btcsoq).sameContent_iff
  rw [← h.usdsoq] at husd
  rw [← h.btcsoq] at hbtc
  have hmint : d.assets.dbMinted = a.dbMinted ↔ ((blockFlags params idx).btcsoq = true →
      ∀ mint ∈ btcsoqMintOps (params.getConsensus idx.nHeight) idx.nHeight block.vtx,
        mint.deposit ∉ a.dbMinted) := by
    rw [h.dbMinted]
    cases (blockFlags params idx).btcsoq with
    | false => exact iff_of_true rfl fun hfalse => by cases hfalse
    | true =>
      rw [if_pos rfl, ← List.foldl_map, foldl_erase_eq, Finset.sdiff_eq_self_iff_disjoint,
        Finset.disjoint_right]
      simp
  exact ⟨fun hsame => ⟨husd.mp hsame.usdsoq, hbtc.mp hsame.btcsoq, hmint.mp hsame.minted⟩,
    fun hnone => ⟨husd.mpr hnone.usdsoq, hbtc.mpr hnone.btcsoq, hmint.mpr hnone.mints⟩⟩

theorem clean_ite_iff (active : Bool) {clean : Bool} {P : Prop} (h : clean ↔ P) :
    (if active then clean else true) = true ↔ (active → P) := by
  cases active with
  | true => exact h.trans ⟨fun hP _ => hP, fun hP => hP rfl⟩
  | false => exact iff_of_true rfl fun hfalse => by cases hfalse

/-- Disconnection is clean exactly if the coins and the counters are. -/
theorem Disconnected.verdict_iff {undo : CBlockUndo} {fClean : Bool} {d : DisconnectResult}
    (h : Disconnected env params idx a block undo fClean v' d) :
    d.verdict = .ok true ↔ fClean ∧ SupplyReverses params idx a block undo := by
  have husd := clean_ite_iff (blockFlags params idx).usdsoq (disconnectUSDSOQ_undone
    (params.getConsensus idx.nHeight) idx.nHeight v' block.vtx undo a.usdsoq).clean_iff
  have hbtc := clean_ite_iff (blockFlags params idx).btcsoq (disconnectBTCSOQ_undone
    (params.getConsensus idx.nHeight) idx.nHeight v' block.vtx undo a.btcsoq).clean_iff
  rw [h.verdict, Except.ok.injEq, Bool.and_eq_true, Bool.and_eq_true, husd, hbtc, and_assoc]
  exact and_congr_right fun _ => ⟨fun h => ⟨h.1, h.2⟩, fun h => ⟨h.usdsoq, h.btcsoq⟩⟩

/-! ## Failed disconnections -/

/-- `DisconnectBlock` fails before it has touched anything, or undoes the coins. -/
theorem disconnectBlock_cases (env : Env) (params : CChainParams) (idx : CBlockIndex) (a : Assets)
    (view : CoinsView) (block : CBlock) (blockundo : Option CBlockUndo) :
    (∃ e, disconnectBlock env params idx a view block blockundo = ⟨.error e, a, view⟩) ∨
    ∃ undo fClean v', idx.witnessPruned = false ∧ idx.blockHash = view.bestBlock ∧
      blockundo = some undo ∧
      disconnectCoins env idx.nHeight view block.vtx undo = .ok (fClean, v') := by
  cases hpruned : idx.witnessPruned with
  | true =>
    refine Or.inl ⟨.abort "witness-pruned-block-disconnect", ?_⟩
    simp only [disconnectBlock, hpruned, if_true]
  | false =>
    by_cases hbest : idx.blockHash = view.bestBlock
    · cases blockundo with
      | none =>
        refine Or.inl ⟨.abort "DisconnectBlock(): no undo data available", ?_⟩
        rw [disconnectBlock, hpruned, if_neg Bool.false_ne_true, if_neg (not_not_intro hbest)]
      | some undo =>
        cases hcoins : disconnectCoins env idx.nHeight view block.vtx undo with
        | error e =>
          refine Or.inl ⟨e, ?_⟩
          rw [disconnectBlock, hpruned, if_neg Bool.false_ne_true,
            if_neg (not_not_intro hbest)]
          simp only [hcoins]
        | ok r => exact Or.inr ⟨undo, r.1, r.2, rfl, hbest, rfl, hcoins⟩
    · refine Or.inl ⟨.abort "assert", ?_⟩
      simp only [disconnectBlock, hpruned, Bool.false_eq_true, if_false, ne_eq, hbest,
        not_false_eq_true, if_true]

/-- **`DisconnectBlock` is all or nothing, but for what it reverses before it reports an unclean
    undo.**  Every failure leaves the asset state as it was exactly when a call that gets to the
    assets finds the coins clean and the counters reversible, or has nothing to reverse. -/
theorem disconnectBlock_atomic_iff (env : Env) (params : CChainParams) (idx : CBlockIndex)
    (a : Assets) (view : CoinsView) (block : CBlock) (blockundo : Option CBlockUndo) :
    ((disconnectBlock env params idx a view block blockundo).verdict ≠ .ok true →
      a.SameContent (disconnectBlock env params idx a view block blockundo).assets) ↔
    (idx.witnessPruned = false → idx.blockHash = view.bestBlock →
      ∀ undo fClean restored, blockundo = some undo →
        disconnectCoins env idx.nHeight view block.vtx undo = .ok (fClean, restored) →
        (fClean = true ∧ SupplyReverses params idx a block undo) ∨
          ReversesNothing params idx a restored block undo) := by
  constructor
  · rintro hatomic hpruned hbest undo fClean restored rfl hcoins
    have hd := disconnectBlock_disconnected params a hpruned hbest hcoins
    by_cases hclean : (disconnectBlock env params idx a view block (some undo)).verdict = .ok true
    · exact Or.inl (hd.verdict_iff.mp hclean)
    · exact Or.inr (hd.sameContent_iff.mp (hatomic hclean))
  · intro hcond hfail
    rcases disconnectBlock_cases env params idx a view block blockundo with
      ⟨e, he⟩ | ⟨undo, fClean, restored, hpruned, hbest, rfl, hcoins⟩
    · rw [he]
      exact Assets.SameContent.refl a
    · have hd := disconnectBlock_disconnected params a hpruned hbest hcoins
      rcases hcond hpruned hbest undo fClean restored rfl hcoins with hclean | hnone
      · exact absurd (hd.verdict_iff.mpr hclean) hfail
      · exact hd.sameContent_iff.mpr hnone

end Disconnection

open Sample in
/-- A block that mints 100 and burns them again, on empty counters: its
    disconnection fails and has taken back the burn. -/
theorem failed_disconnection_unburns :
    let r := connectBlock (Sample.env sameByte) params (index 1) io false usdsoqAssets
      usdsoqCoins mintThenBurn
    let d := disconnectBlock (Sample.env sameByte) params (index 1) r.assets r.view mintThenBurn
      r.blockundo
    r.verdict = .ok () ∧ d.verdict = .ok false ∧
      r.assets.usdsoq.supply.totalBurned = 100 ∧ d.assets.usdsoq.supply.totalBurned = 0 ∧
      r.assets.usdsoq.authorityOutpoint = ⟨Uint256.fill 6, 0⟩ ∧
      d.assets.usdsoq.authorityOutpoint = ⟨Uint256.fill 9, 0⟩ := by
  decide +kernel

end Soqucoin
