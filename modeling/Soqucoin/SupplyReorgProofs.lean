import Soqucoin.FlowProofs

/-! # Supply counters across a reorganisation

`ConnectBlock` mints first and burns afterwards; `DisconnectBlock` undoes the mint first as well.
Between its two steps the counters then show the mints of the block gone and its burns still
there, which `UndoMint` refuses when the burns exceed what was outstanding before
(`supply_restored_iff`). -/

namespace Soqucoin

open CheckedLoop

variable {s t : Supply} {burned minted : Int} {overflow underflow : String}

section Reversal

variable {env : Env} {params : CChainParams} {idx : CBlockIndex} {io : NodeIO}
variable {a : Assets} {view : CoinsView} {block : CBlock} {fp : FirstPass} {p : Pending}

/-- Minting fails exactly beyond `MAX_MONEY`. -/
theorem mintDelta_eq_none :
    (if 0 < minted then s.mint minted else some s) = none ↔
      0 < minted ∧ MAX_MONEY < s.totalMinted + minted := by
  by_cases hm : 0 < minted
  · rw [if_pos hm, Supply.mint_eq_none]
    simp [hm]
  · rw [if_neg hm]
    simp [hm]

/-- What minting adds. -/
theorem mintDelta_eq_some (h : (if 0 < minted then s.mint minted else some s) = some t) :
    t.totalMinted = s.totalMinted + max minted 0 ∧ t.totalBurned = s.totalBurned := by
  by_cases hm : 0 < minted
  · rw [if_pos hm] at h
    obtain ⟨-, -, htm, htb⟩ := Supply.mint_eq_some.mp h
    exact ⟨by rw [htm, max_eq_left hm.le], htb⟩
  · rw [if_neg hm] at h
    obtain rfl := Option.some.inj h
    exact ⟨by rw [max_eq_right (not_lt.mp hm), Int.add_zero], rfl⟩

/-- Burning fails exactly beyond what was minted. -/
theorem burnDelta_eq_none :
    (if 0 < burned then s.burn burned else some s) = none ↔
      0 < burned ∧ s.totalMinted < s.totalBurned + burned := by
  by_cases hb : 0 < burned
  · rw [if_pos hb, Supply.burn_eq_none]
    simp [hb]
  · rw [if_neg hb]
    simp [hb]

/-- What a supply check adds to the counters. -/
theorem applySupplyDelta_counters {after : Option Supply}
    (h : applySupplyDelta overflow underflow s minted burned = .ok after) :
    (after.getD s).totalMinted = s.totalMinted + max minted 0 ∧
      (after.getD s).totalBurned = s.totalBurned + max burned 0 := by
  rw [applySupplyDelta] at h
  by_cases hmove : (decide (0 < minted) || decide (0 < burned)) = true
  · rw [if_pos hmove] at h
    split at h
    · exact nomatch h
    rename_i mid hmint
    split at h
    · exact nomatch h
    rename_i fin hburn
    obtain rfl := Except.ok.inj h
    rw [Option.getD_some]
    have hmid := mintDelta_eq_some hmint
    split at hburn
    · obtain ⟨hpos, -, hm, hb⟩ := Supply.burn_eq_some.mp hburn
      exact ⟨hm.trans hmid.1, by rw [hb, hmid.2, max_eq_left hpos.le]⟩
    · rename_i hle
      obtain rfl := Option.some.inj hburn
      exact ⟨hmid.1, by rw [hmid.2, max_eq_right (not_lt.mp hle), Int.add_zero]⟩
  · rw [if_neg hmove] at h
    obtain rfl := Except.ok.inj h
    rw [Bool.or_eq_true, decide_eq_true_eq, decide_eq_true_eq, not_or] at hmove
    rw [Option.getD_none, max_eq_right (not_lt.mp hmove.1), max_eq_right (not_lt.mp hmove.2)]
    exact ⟨(Int.add_zero _).symm, (Int.add_zero _).symm⟩

/-- The counters have room for what a block mints and burns. -/
def Supply.Absorbs (s : Supply) (minted burned : Int) : Prop :=
  (0 < minted → s.totalMinted + minted ≤ MAX_MONEY) ∧
    (0 < burned → s.totalBurned + burned ≤ s.totalMinted + max minted 0)

/-- A supply check passes exactly if the counters have room. -/
theorem applySupplyDelta_iff :
    (∃ after, applySupplyDelta overflow underflow s minted burned = .ok after) ↔
      s.Absorbs minted burned := by
  rw [applySupplyDelta, Supply.Absorbs]
  by_cases hmoved : 0 < minted ∨ 0 < burned
  · rw [if_pos (by simpa using hmoved)]
    cases hmint : (if 0 < minted then s.mint minted else some s) with
    | none =>
      obtain ⟨hm, hover⟩ := mintDelta_eq_none.mp hmint
      constructor
      · rintro ⟨_, h⟩
        cases h
      · rintro ⟨hroom, -⟩
        exact absurd (hroom hm) (not_le.mpr hover)
    | some t =>
      obtain ⟨htm, htb⟩ := mintDelta_eq_some hmint
      have hroom : 0 < minted → s.totalMinted + minted ≤ MAX_MONEY := by
        intro hm
        rw [← max_eq_left hm.le, ← htm]
        exact t.minted_le_max
      cases hburn : (if 0 < burned then t.burn burned else some t) with
      | none =>
        obtain ⟨hb, hunder⟩ := burnDelta_eq_none.mp hburn
        constructor
        · rintro ⟨_, h⟩
          simp only [hburn] at h
          cases h
        · rintro ⟨-, henough⟩
          have hle := henough hb
          omega
      | some after =>
        constructor
        · intro _
          refine ⟨hroom, fun hb => not_lt.mp fun hunder => ?_⟩
          rw [← htm, ← htb] at hunder
          rw [burnDelta_eq_none.mpr ⟨hb, hunder⟩] at hburn
          cases hburn
        · intro _
          exact ⟨some after, by simp only [hburn]⟩
  · rw [not_or] at hmoved
    rw [if_neg (by simpa using hmoved)]
    exact iff_of_true ⟨none, rfl⟩ ⟨fun hm => absurd hm hmoved.1, fun hb => absurd hb hmoved.2⟩

/-- The block moved one way only, or burned no more than was outstanding before it. -/
def SupplyReversible (s : Supply) (minted burned : Int) : Prop :=
  minted ≤ 0 ∨ burned ≤ 0 ∨ s.totalBurned + burned ≤ s.totalMinted

/-- `UndoBurn` takes a burn back. -/
theorem undoBurn_restores (hm : t.totalMinted = s.totalMinted)
    (hb : t.totalBurned = s.totalBurned + max burned 0) :
    (if 0 < burned then t.undoBurn burned else some t) = some s := by
  have hb0 := s.burned_nonneg
  split
  · rename_i hpos
    rw [max_eq_left hpos.le] at hb
    exact Supply.undoBurn_eq_some.mpr ⟨hpos, by omega, hm.symm, by omega⟩
  · rename_i hle
    rw [max_eq_right (not_lt.mp hle), Int.add_zero] at hb
    exact congrArg some (Supply.ext hm hb)

section

variable (hm : t.totalMinted = s.totalMinted + max minted 0)
  (hb : t.totalBurned = s.totalBurned + max burned 0)
include hm hb

/-- A reversible change is taken back. -/
theorem undoSupply_of_reversible (h : SupplyReversible s minted burned) :
    undoSupply t minted burned = (true, s) := by
  have hle := s.burned_le_minted
  have hmint : ∃ u, (if 0 < minted then t.undoMint minted else some t) = some u ∧
      u.totalMinted = s.totalMinted ∧ u.totalBurned = t.totalBurned := by
    split
    · rename_i hpos
      rw [max_eq_left hpos.le] at hm
      have hroom : t.totalBurned ≤ t.totalMinted - minted := by
        rcases h with h | h | h
        · omega
        · rw [max_eq_right h] at hb
          omega
        · rw [hb]
          omega
      have hok : (t.undoMint minted).isSome := by
        rw [Supply.undoMint, dif_pos]
        · rfl
        · have hb0 := t.burned_nonneg
          have hmax := t.minted_le_max
          simp only [Supply.undoMintOk, Bool.and_eq_true, decide_eq_true_eq,
            Supply.moneyRange_iff]
          omega
      obtain ⟨u, hu⟩ := Option.isSome_iff_exists.mp hok
      obtain ⟨-, -, hum, hub⟩ := Supply.undoMint_eq_some.mp hu
      exact ⟨u, hu, by omega, hub⟩
    · rename_i hnot
      rw [max_eq_right (not_lt.mp hnot), Int.add_zero] at hm
      exact ⟨t, rfl, hm, rfl⟩
  obtain ⟨u, hu, hum, hub⟩ := hmint
  simp only [undoSupply, hu, Option.getD_some, undoBurn_restores hum (hub.trans hb),
    Option.isSome_some, Bool.and_self]

/-- Another one is not. -/
theorem undoSupply_of_not_reversible (h : ¬ SupplyReversible s minted burned) :
    (undoSupply t minted burned).2 ≠ s := by
  rw [SupplyReversible, not_or, not_or, not_le, not_le, not_le] at h
  obtain ⟨hpos, hbpos, hshort⟩ := h
  rw [max_eq_left hpos.le] at hm
  rw [max_eq_left hbpos.le] at hb
  have hfail : t.undoMint minted = none := by
    rw [Option.eq_none_iff_forall_ne_some]
    intro u hu
    obtain ⟨-, hle, -, -⟩ := Supply.undoMint_eq_some.mp hu
    omega
  intro heq
  have hminted := congrArg Supply.totalMinted heq
  simp only [undoSupply, hpos, if_true, hfail, Option.getD_none, hbpos] at hminted
  cases hburn : t.undoBurn burned with
  | none =>
    rw [hburn, Option.getD_none] at hminted
    omega
  | some u =>
    obtain ⟨-, -, hum, -⟩ := Supply.undoBurn_eq_some.mp hburn
    rw [hburn, Option.getD_some] at hminted
    omega

end

/-- The supply is restored exactly if the change was reversible. -/
theorem undoAssetSupply_restores_iff {s : AssetState} {before : Supply} {after : Option Supply}
    (hupdate : applySupplyDelta overflow underflow before minted burned = .ok after)
    (hs : s.supply = after.getD before) :
    ((undoAssetSupply s (minted, burned)).2.supply = before ↔
        SupplyReversible before minted burned) ∧
      (SupplyReversible before minted burned → (undoAssetSupply s (minted, burned)).1) := by
  obtain ⟨hm, hb⟩ := applySupplyDelta_counters hupdate
  rw [← hs] at hm hb
  simp only [undoAssetSupply]
  by_cases hmove : (decide (0 < minted) || decide (0 < burned)) = true
  · rw [if_pos hmove]
    constructor
    · constructor
      · intro heq
        by_contra hnot
        exact undoSupply_of_not_reversible hm hb hnot heq
      · intro hrev
        rw [undoSupply_of_reversible hm hb hrev]
    · intro hrev
      rw [undoSupply_of_reversible hm hb hrev]
  · rw [if_neg hmove]
    rw [Bool.or_eq_true, decide_eq_true_eq, decide_eq_true_eq, not_or] at hmove
    rw [max_eq_right (not_lt.mp hmove.1), Int.add_zero] at hm
    rw [max_eq_right (not_lt.mp hmove.2), Int.add_zero] at hb
    exact ⟨iff_of_true (Supply.ext hm hb) (Or.inl (not_lt.mp hmove.1)), fun _ => rfl⟩

/-- The amounts of a block, in the words the code counts them in, can be undone
    from the counters before it. -/
def usdsoqReversible (env : Env) (params : CChainParams) (idx : CBlockIndex) (a : Assets)
    (view : CoinsView) (block : CBlock) : Prop :=
  (blockFlags params idx).usdsoq = true → SupplyReversible a.usdsoq.supply
    (wrap64 (authorityCreated isUSDSOQAuthorityMarker CTxOut.isUSDSOQ block.vtx))
    (wrap64 (authoritySpent env idx.nHeight isUSDSOQAuthorityMarker CTxOut.isAnyUSDSOQ view
      block.vtx))

/-- The BTCSOQ values that the block creates and spends can be taken off the counters again. -/
def btcsoqReversible (env : Env) (params : CChainParams) (idx : CBlockIndex) (a : Assets)
    (view : CoinsView) (block : CBlock) : Prop :=
  (blockFlags params idx).btcsoq = true → SupplyReversible a.btcsoq.supply
    (wrap64 (authorityCreated isBTCSOQAuthorityMarker CTxOut.isBTCSOQ block.vtx))
    (wrap64 (authoritySpent env idx.nHeight isBTCSOQAuthorityMarker CTxOut.isBTCSOQ view
      block.vtx))

section

variable {fClean : Bool} {v' : CoinsView} {d : DisconnectResult}
  (h : Accepted env params idx io false a view block fp p)
  (hd : Disconnected env params idx (commitAssets (initAuthorities params idx a) p) block
    fp.undos.tail fClean v' d)
include h hd

/-- A reorganisation restores the USDSOQ supply exactly if the block is reversible. -/
theorem Accepted.usdsoq_supply_restored_iff :
    (d.assets.usdsoq.supply = a.usdsoq.supply ↔ usdsoqReversible env params idx a view block) ∧
      (usdsoqReversible env params idx a view block →
        (if (blockFlags params idx).usdsoq then
          (disconnectUSDSOQ (params.getConsensus idx.nHeight) idx.nHeight v' block.vtx
            fp.undos.tail (commitAssets (initAuthorities params idx a) p).usdsoq).1
        else true) = true) := by
  rw [hd.usdsoq, usdsoqReversible]
  cases hactive : (blockFlags params idx).usdsoq with
  | false =>
    refine ⟨iff_of_true ?_ fun hf => (nomatch hf), fun _ => rfl⟩
    show p.usdsoq.supply.getD a.usdsoq.supply = a.usdsoq.supply
    rw [h.usdsoq_inactive hactive]
    rfl
  | true =>
    obtain ⟨supply, hupdate, hp⟩ := h.usdsoq_supply hactive
    rw [if_neg Bool.false_ne_true] at hp
    have hundone := disconnectUSDSOQ_undone (params.getConsensus idx.nHeight) idx.nHeight v'
      block.vtx fp.undos.tail (commitAssets (initAuthorities params idx a) p).usdsoq
    rw [h.reversedTotals_eq] at hundone
    have hcommit : (commitAssets (initAuthorities params idx a) p).usdsoq.supply =
        supply.getD a.usdsoq.supply := by rw [← hp]; rfl
    obtain ⟨hiff, hclean⟩ := undoAssetSupply_restores_iff hupdate hcommit
    rw [if_pos rfl, if_pos rfl, hundone.supply, hundone.clean, hiff]
    exact ⟨⟨fun hr _ => hr, fun hr => hr rfl⟩, fun hr => hclean (hr rfl)⟩

/-- A reorganisation restores the BTCSOQ supply exactly if the block is reversible. -/
theorem Accepted.btcsoq_supply_restored_iff :
    (d.assets.btcsoq.supply = a.btcsoq.supply ↔ btcsoqReversible env params idx a view block) ∧
      (btcsoqReversible env params idx a view block →
        (if (blockFlags params idx).btcsoq then
          (disconnectBTCSOQ (params.getConsensus idx.nHeight) idx.nHeight v' block.vtx
            fp.undos.tail (commitAssets (initAuthorities params idx a) p).btcsoq).1
        else true) = true) := by
  rw [hd.btcsoq, btcsoqReversible]
  cases hactive : (blockFlags params idx).btcsoq with
  | false =>
    refine ⟨iff_of_true ?_ fun hf => (nomatch hf), fun _ => rfl⟩
    show p.btcsoq.supply.getD a.btcsoq.supply = a.btcsoq.supply
    rw [(h.btcsoq_inactive hactive).1]
    rfl
  | true =>
    have hupdate := h.btcsoq_supply hactive
    have hundone := disconnectBTCSOQ_undone (params.getConsensus idx.nHeight) idx.nHeight v'
      block.vtx fp.undos.tail (commitAssets (initAuthorities params idx a) p).btcsoq
    rw [h.reversedTotals_eq] at hundone
    obtain ⟨hiff, hclean⟩ := undoAssetSupply_restores_iff hupdate
      (s := (commitAssets (initAuthorities params idx a) p).btcsoq) rfl
    rw [if_pos rfl, if_pos rfl, hundone.supply, hundone.clean, hiff]
    exact ⟨⟨fun hr _ => hr, fun hr => hr rfl⟩, fun hr => hclean (hr rfl)⟩

end

theorem authorityCreated_of_coinbases {isMarker : CScript → Bool} {kind : CTxOut → Bool}
    {vtx : List CTransaction} (h : ∀ tx ∈ vtx, tx.isCoinBase) :
    authorityCreated isMarker kind vtx = 0 := by
  refine authorityCreated_eq_zero fun tx htx => ?_
  rw [isAuthorityTx, h tx htx]
  rfl

/-- **Supply counters across a reorganisation.**  Connecting a block and
    disconnecting it again restores the counters of both assets, and the supply
    reversal reports no failure, exactly when in each active asset the block
    minted or burned nothing, or burned no more than was outstanding before. -/
theorem supply_restored_iff (env : Env) (params : CChainParams) (idx : CBlockIndex)
    (io : NodeIO) (a : Assets) (view : CoinsView) (block : CBlock)
    (haccept : (connectBlock env params idx io false a view block).verdict = .ok ())
    (hgenesis : isGenesis env params block → ∀ tx ∈ block.vtx, tx.isCoinBase = true)
    (hpruned : idx.witnessPruned = false) :
    ((reorg env params idx io a view block).assets.usdsoq.supply = a.usdsoq.supply ∧
      (reorg env params idx io a view block).assets.btcsoq.supply = a.btcsoq.supply ∧
      ∀ undo fClean v', (connectBlock env params idx io false a view block).blockundo = some undo →
        disconnectCoins env idx.nHeight (connectBlock env params idx io false a view block).view
          block.vtx undo = .ok (fClean, v') →
        (reorg env params idx io a view block).verdict = .ok fClean) ↔
    (usdsoqReversible env params idx a view block ∧
      btcsoqReversible env params idx a view block) := by
  by_cases hgen : isGenesis env params block
  · have hzero : ∀ {isMarker kind s burned}, SupplyReversible s
        (wrap64 (authorityCreated isMarker kind block.vtx)) burned := fun {_ _ _ _} =>
      Or.inl (by rw [authorityCreated_of_coinbases (hgenesis hgen)]; decide)
    rw [reorg_genesis hgen haccept, (connectBlock_genesis hgen haccept).2]
    exact iff_of_true ⟨rfl, rfl, fun _ _ _ hf => nomatch hf⟩ ⟨fun _ => hzero, fun _ => hzero⟩
  · obtain ⟨fp, p, hacc⟩ := connectBlock_accepted haccept hgen
    obtain ⟨fClean, v', hcoins, hd⟩ := hacc.reorg_disconnected hpruned
    obtain ⟨husd, hucl⟩ := hacc.usdsoq_supply_restored_iff hd
    obtain ⟨hbtc, hbcl⟩ := hacc.btcsoq_supply_restored_iff hd
    constructor
    · rintro ⟨hu, hb, -⟩
      exact ⟨husd.mp hu, hbtc.mp hb⟩
    · rintro ⟨hu, hb⟩
      refine ⟨husd.mpr hu, hbtc.mpr hb, fun undo fc w hundo hc => ?_⟩
      rw [hacc.blockundo_eq] at hundo
      rw [hacc.view_eq, if_neg Bool.false_ne_true, ← Option.some.inj hundo, hcoins] at hc
      rw [hd.verdict, hucl hu, hbcl hb, Bool.and_true, Bool.and_true]
      exact congrArg _ (Prod.mk.inj (Except.ok.inj hc)).1

end Reversal

namespace Sample

/-- A mint of 100. -/
def mintTx : CTransaction :=
  transaction 7 [spend 9 (authorityWitness 0x55 [1, 2])] [pay OP_5 0, pay OP_7 100]

/-- A transaction that burns what was minted. -/
def burnTx : CTransaction :=
  transaction 6 [spend 7 (authorityWitness 0x55 [1, 2]), ⟨⟨Uint256.fill 7, 1⟩, [], 0xffffffff, []⟩]
    [pay OP_5 0]

/-- A block with the mint. -/
def mintOnly : CBlock := block 1 [mintTx]

/-- A block with both. -/
def mintThenBurn : CBlock := block 1 [mintTx, burnTx]

end Sample

open Sample in
/-- A block that mints. -/
theorem supply_restored_iff_mint :
    let r := connectBlock (Sample.env sameByte) params (index 1) io false usdsoqAssets
      usdsoqCoins mintOnly
    let d := reorg (Sample.env sameByte) params (index 1) io usdsoqAssets usdsoqCoins mintOnly
    (d.assets.usdsoq.supply = Supply.zero ∧ d.assets.btcsoq.supply = Supply.zero ∧
      ∀ undo fClean v', r.blockundo = some undo →
        disconnectCoins (Sample.env sameByte) 1 r.view mintOnly.vtx undo = .ok (fClean, v') →
        d.verdict = .ok fClean) ↔
    (usdsoqReversible (Sample.env sameByte) params (index 1) usdsoqAssets usdsoqCoins mintOnly ∧
      btcsoqReversible (Sample.env sameByte) params (index 1) usdsoqAssets usdsoqCoins
        mintOnly) :=
  supply_restored_iff (Sample.env sameByte) params (index 1) io usdsoqAssets usdsoqCoins mintOnly
    (by decide +kernel) (fun h => absurd h (by decide +kernel)) rfl

open Sample in
/-- A block that mints 100 and burns them again, on empty counters: after
    disconnection 100 are left as minted. -/
theorem mint_and_burn_not_restored :
    let r := connectBlock (Sample.env sameByte) params (index 1) io false usdsoqAssets
      usdsoqCoins mintThenBurn
    let d := reorg (Sample.env sameByte) params (index 1) io usdsoqAssets usdsoqCoins mintThenBurn
    r.verdict = .ok () ∧ usdsoqAssets.usdsoq.supply = Supply.zero ∧
      r.assets.usdsoq.supply.totalMinted = 100 ∧ r.assets.usdsoq.supply.totalBurned = 100 ∧
      d.verdict = .ok false ∧
      d.assets.usdsoq.supply.totalMinted = 100 ∧ d.assets.usdsoq.supply.totalBurned = 0 := by
  decide +kernel

end Soqucoin
