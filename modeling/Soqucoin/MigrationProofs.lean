import Soqucoin.NativeValueProofs
import Soqucoin.QuietBlockProofs

/-! # The migration block pays the committed list

At the armed height the outputs of the coinbase after the first, less the block commitments at
their end, have to hash to `hashMigrationOutputs`.  An accepted migration block therefore pays the
list behind that hash and nothing more than the subsidy and the fees besides; a coinbase that does
so passes, as long as the walk back over the commitments stops at the end of the list
(`migration_pays_committed`). -/

namespace Soqucoin

open CheckedLoop SignedWord

variable {tx : CTransaction} {outs : List CTxOut}

section Migration

variable {env : Env} {params : CChainParams} {idx : CBlockIndex} {io : NodeIO}
variable {fJustCheck : Bool} {a : Assets} {view : CoinsView} {block : CBlock}
variable {coinbase : CTransaction} {committed : List CTxOut}

/-! ## Subsidy and fees -/

/-- The fees of a list of transactions, each on the view it meets. -/
def blockFees (env : Env) (nHeight : Int) : CoinsView → List CTransaction → Int
  | _, [] => 0
  | v, tx :: vtx =>
    (if tx.isCoinBase then 0 else nativeFee v tx) +
      blockFees env nHeight (blockView env nHeight v [tx]) vtx

/-- The subsidy, as the 64-bit amount `GetSoqucoinBlockSubsidy` returns. -/
def subsidyAt (env : Env) (params : CChainParams) (idx : CBlockIndex) : Int :=
  wrap64 (getBlockSubsidy env idx.nHeight (params.getConsensus idx.nHeight) idx.hashPrevBlock)

theorem connectTx_view {q : Bool} {s t : FirstPass}
    (h : connectTx env params idx a q s tx = .ok t) :
    t.view = blockView env idx.nHeight s.view [tx] :=
  foldlM_connectTx_view (foldlM_cons_eq_ok.mpr ⟨t, h, rfl⟩)

/-- The fees of the first loop are those of its transactions, and not negative. -/
theorem foldlM_connectTx_fees {q : Bool} :
    ∀ {vtx : List CTransaction} {s t : FirstPass} {fees : Int},
      (∀ tx ∈ vtx, checkTransaction tx = .ok ()) → s.nFees = wrap64 fees →
      vtx.foldlM (connectTx env params idx a q) s = .ok t →
      t.nFees = wrap64 (fees + blockFees env idx.nHeight s.view vtx) ∧
        0 ≤ blockFees env idx.nHeight s.view vtx := by
  intro vtx
  induction vtx with
  | nil =>
    intro s t fees _ hfees h
    obtain rfl := foldlM_nil_eq_ok.mp h
    rw [blockFees, Int.add_zero]
    exact ⟨hfees, le_refl 0⟩
  | cons tx vtx ih =>
    intro s t fees htx hfees h
    obtain ⟨m, hm, hrest⟩ := foldlM_cons_eq_ok.mp h
    rw [List.forall_mem_cons] at htx
    have hnFees := connectTx_nFees hm
    rw [blockFees, ← connectTx_view hm]
    cases hcb : tx.isCoinBase with
    | true =>
      rw [hcb, if_pos rfl, hfees] at hnFees
      rw [if_pos rfl, Int.zero_add]
      exact ih htx.2 hnFees hrest
    | false =>
      obtain ⟨chk, undo, -, hchk, -, -, -⟩ := connectTx_eq_ok hm
      have hout := checkTransaction_outputs htx.1
      have hfee₀ := (checkTxInputs_checked hout
        (checkInputs_checkTxInputs hcb hchk)).nativeFee_nonneg hout
      rw [hcb, if_neg Bool.false_ne_true, hfees] at hnFees
      obtain ⟨heq, hnonneg⟩ := ih htx.2 (hnFees.trans wrap_add_left) hrest
      rw [if_neg Bool.false_ne_true, ← Int.add_assoc]
      exact ⟨heq, by omega⟩

/-! ## The rule -/

/-- The three constants are armed for a height. -/
def migrationArmed (consensus : Consensus) (nHeight : Int) : Bool :=
  consensus.nMigrationHeight ≠ 0 && nHeight = consensus.nMigrationHeight &&
    !consensus.hashMigrationOutputs.isNull

theorem migrationTotal_armed {consensus : Consensus} {nHeight : Int}
    (harmed : migrationArmed consensus nHeight) :
    migrationTotal consensus nHeight = consensus.nMigrationTotal := by
  rw [migrationArmed] at harmed
  rw [migrationTotal, if_pos harmed]

/-- What the rule requires of a coinbase, with the reward it allows. -/
structure MigrationPassed (env : Env) (consensus : Consensus) (coinbase : CTransaction)
    (outs : List CTxOut) (blockReward reward : Int) : Prop where
  nonempty : outs ≠ []
  hash : env.hashOutputs outs = consensus.hashMigrationOutputs
  total : sumAmounts (outs.map CTxOut.nValue) = consensus.nMigrationTotal
  miner : (coinbase.vout.headD default).nValue ≤ blockReward
  reward_eq : reward = wrap64 (blockReward + consensus.nMigrationTotal)

/-- What an armed migration asks of the coinbase. -/
theorem migrationReward_armed_iff {consensus : Consensus} {nHeight blockReward reward : Int}
    (harmed : migrationArmed consensus nHeight) :
    migrationReward env consensus nHeight coinbase blockReward = .ok reward ↔
      MigrationPassed env consensus coinbase
        (coinbase.vout.tail.rdropWhile isBlockCommitmentOutput) blockReward reward := by
  rw [migrationArmed] at harmed
  rw [migrationReward, if_pos harmed]
  constructor
  · intro h
    obtain ⟨hne, h⟩ := require_bind_eq_ok.mp h
    obtain ⟨hhash, h⟩ := require_bind_eq_ok.mp h
    obtain ⟨htotal, h⟩ := require_bind_eq_ok.mp h
    obtain ⟨hminer, h⟩ := require_bind_eq_ok.mp h
    refine ⟨?_, of_decide_eq_true hhash, of_decide_eq_true htotal, of_decide_eq_true hminer,
      (Except.ok.inj h).symm⟩
    rwa [Bool.not_eq_true', List.isEmpty_eq_false_iff] at hne
  · intro h
    refine require_bind_eq_ok.mpr ⟨?_, require_bind_eq_ok.mpr ⟨decide_eq_true h.hash,
      require_bind_eq_ok.mpr ⟨decide_eq_true h.total, require_bind_eq_ok.mpr
        ⟨decide_eq_true h.miner, congrArg Except.ok h.reward_eq.symm⟩⟩⟩⟩
    rw [Bool.not_eq_true', List.isEmpty_eq_false_iff]
    exact h.nonempty

/-- The walk back takes the commitments off the end of a list, and no more than
    them when the list before ends in something else. -/
theorem rdropWhile_append_of_all {p : CTxOut → Bool}
    (hlast : outs.getLast?.any (fun o => !p o) = true) :
    ∀ {rest : List CTxOut}, (∀ o ∈ rest, p o) → (outs ++ rest).rdropWhile p = outs := by
  intro rest
  induction rest using List.reverseRecOn with
  | nil =>
    intro _
    rw [List.append_nil, List.rdropWhile_eq_self_iff]
    intro hne
    rw [List.getLast?_eq_some_getLast hne, Option.any_some, Bool.not_eq_true'] at hlast
    rw [hlast]
    exact Bool.false_ne_true
  | append_singleton rest o ih =>
    intro h
    rw [← List.append_assoc, List.rdropWhile_concat_pos p _ o (h o (by simp))]
    exact ih fun x hx => h x (List.mem_append_left _ hx)

theorem sumAmounts_exact (h : InRange outs) :
    sumAmounts (outs.map CTxOut.nValue) = (outs.map CTxOut.nValue).sum := by
  have hexact : sumOf (fun _ => true) outs = valueOf (fun _ => true) outs := h.sumOf_exact
  rwa [sumOf, valueOf, List.filter_true] at hexact

/-- Checked sums of values in range do not fail. -/
theorem foldlM_add_of_inRange {f : Int → CTxOut → Check Int}
    (hstep : ∀ acc o, 0 ≤ acc → 0 ≤ o.nValue → acc + o.nValue ≤ MAX_MONEY →
      f acc o = .ok (acc + o.nValue))
    (h : InRange outs) : outs.foldlM f 0 = .ok (outs.map CTxOut.nValue).sum := by
  -- the running total and what is still to come stay within `MAX_MONEY`
  have hloop : ∀ (outs : List CTxOut) (acc : Int), 0 ≤ acc → (∀ o ∈ outs, 0 ≤ o.nValue) →
      acc + (outs.map CTxOut.nValue).sum ≤ MAX_MONEY →
      outs.foldlM f acc = .ok (acc + (outs.map CTxOut.nValue).sum) := by
    intro outs
    induction outs with
    | nil =>
      intro acc _ _ _
      rw [List.map_nil, List.sum_nil, Int.add_zero]
      rfl
    | cons o outs ih =>
      intro acc hacc hnonneg htotal
      rw [List.forall_mem_cons] at hnonneg
      rw [List.map_cons, List.sum_cons] at htotal
      have hrest := (valueOf_bounds (fun _ => true) hnonneg.2).1.trans
        (valueOf_bounds (fun _ => true) hnonneg.2).2
      refine foldlM_cons_eq_ok.mpr ⟨acc + o.nValue, hstep acc o hacc hnonneg.1 (by omega), ?_⟩
      rw [List.map_cons, List.sum_cons, ← Int.add_assoc]
      exact ih _ (by omega) hnonneg.2 (by omega)
  have hout := hloop outs 0 (le_refl 0) h.nonneg (by rw [Int.zero_add]; exact h.total)
  rwa [Int.zero_add] at hout

theorem wrap64_add_of_le {acc value : Int} (hacc : 0 ≤ acc) (hvalue : 0 ≤ value)
    (hle : acc + value ≤ MAX_MONEY) : wrap64 (acc + value) = acc + value :=
  wrap_of_fits (fits_of_le (by omega) (by omega))

/-- Outputs in range have a sum. -/
theorem getValueOut_of_inRange (h : InRange tx.vout) :
    getValueOut tx = .ok (tx.vout.map CTxOut.nValue).sum := by
  refine foldlM_add_of_inRange ?_ h
  intro acc o hacc ho hle
  have hword := wrap64_add_of_le hacc ho hle
  refine require_bind_eq_ok.mpr ⟨?_, congrArg Except.ok hword⟩
  rw [hword, Bool.and_eq_true, Supply.moneyRange_iff, Supply.moneyRange_iff]
  omega

/-- Outputs in range pass the check of their values. -/
theorem checkOutputValues_of_inRange (h : InRange tx.vout) :
    tx.vout.foldlM checkOutputValue 0 = .ok (tx.vout.map CTxOut.nValue).sum := by
  refine foldlM_add_of_inRange ?_ h
  intro acc o hacc ho hle
  have hword := wrap64_add_of_le hacc ho hle
  refine require_bind_eq_ok.mpr ⟨decide_eq_true ho, require_bind_eq_ok.mpr
    ⟨decide_eq_true (by omega), require_bind_eq_ok.mpr ⟨?_, congrArg Except.ok hword⟩⟩⟩
  rw [hword, Supply.moneyRange_iff]
  omega

/-! ## Both directions -/

/-- An accepted coinbase: the committed outputs, block commitments, and no more
    than the subsidy and the fees besides. -/
theorem checkCoinbaseAmount_pays {fees : Int}
    (harmed : migrationArmed (params.getConsensus idx.nHeight) idx.nHeight)
    (hhash : ∀ outs, env.hashOutputs outs =
      (params.getConsensus idx.nHeight).hashMigrationOutputs → outs = committed)
    (hout : InRange coinbase.vout) (hfees : 0 ≤ fees)
    (h : checkCoinbaseAmount env params idx coinbase (wrap64 fees) = .ok ()) :
    ∃ miner commitments, coinbase.vout = miner :: (committed ++ commitments) ∧
      (∀ o ∈ commitments, isBlockCommitmentOutput o) ∧
      (committed.map CTxOut.nValue).sum = (params.getConsensus idx.nHeight).nMigrationTotal ∧
      miner.nValue + (commitments.map CTxOut.nValue).sum ≤ subsidyAt env params idx + fees := by
  have hle := coinbase_le hout hfees h
  obtain ⟨reward, hreward, -⟩ := bind_eq_ok.mp h
  have hpassed := (migrationReward_armed_iff harmed).mp hreward
  obtain hcommitted := hhash _ hpassed.hash
  cases hvout : coinbase.vout with
  | nil =>
    refine absurd ?_ hpassed.nonempty
    rw [hvout]
    rfl
  | cons miner rest =>
    rw [hvout, List.tail_cons] at hpassed hcommitted
    rw [hvout] at hle hout
    have hrest : rest = committed ++ rest.rtakeWhile isBlockCommitmentOutput := by
      rw [← hcommitted, List.rdropWhile_append_rtakeWhile]
    have hin : InRange committed := by
      rw [← hcommitted]
      exact hout.sublist ((List.rdropWhile_prefix _ _).sublist.trans
        (List.sublist_cons_self miner rest))
    have htotal := hpassed.total
    rw [hcommitted, sumAmounts_exact hin] at htotal
    refine ⟨miner, rest.rtakeWhile isBlockCommitmentOutput, congrArg (miner :: ·) hrest,
      fun o ho => List.mem_rtakeWhile_imp ho, htotal, ?_⟩
    have hissued : nativeIssuance env params idx = subsidyAt env params idx +
        (params.getConsensus idx.nHeight).nMigrationTotal := by
      rw [nativeIssuance, migrationTotal_armed harmed]
      rfl
    rw [hrest, List.map_cons, List.sum_cons, List.map_append, List.sum_append, htotal,
      hissued] at hle
    omega

/-- A coinbase that pays the committed list passes. -/
theorem checkCoinbaseAmount_of_committed {miner : CTxOut} {commitments : List CTxOut} {nFees : Int}
    (harmed : migrationArmed (params.getConsensus idx.nHeight) idx.nHeight)
    (hhash : env.hashOutputs committed = (params.getConsensus idx.nHeight).hashMigrationOutputs)
    (htotal : (committed.map CTxOut.nValue).sum =
      (params.getConsensus idx.nHeight).nMigrationTotal)
    (hlast : committed.getLast?.any (fun o => !isBlockCommitmentOutput o) = true)
    (hvout : coinbase.vout = miner :: (committed ++ commitments))
    (hcommit : ∀ o ∈ commitments, isBlockCommitmentOutput o ∧ o.nValue = 0)
    (hout : InRange coinbase.vout) (hminer : miner.nValue ≤ subsidyAt env params idx + nFees)
    (hfits : subsidyAt env params idx + nFees +
      (params.getConsensus idx.nHeight).nMigrationTotal < 2 ^ 63) :
    checkCoinbaseAmount env params idx coinbase nFees = .ok () := by
  have hin : InRange committed := by
    refine hout.sublist ((List.sublist_append_left _ commitments).trans ?_)
    exact hvout ▸ List.sublist_cons_self miner _
  have htotal₀ : 0 ≤ (params.getConsensus idx.nHeight).nMigrationTotal := by
    rw [← htotal, ← sumAmounts_exact hin, ← List.filter_true (committed), ← sumOf,
      hin.sumOf_exact]
    exact hin.valueOf_nonneg
  have hminer₀ : 0 ≤ miner.nValue := hout.nonneg miner (by rw [hvout]; simp)
  have hzero : (commitments.map CTxOut.nValue).sum = 0 :=
    List.sum_eq_zero fun x hx => by
      obtain ⟨o, ho, rfl⟩ := List.mem_map.mp hx
      exact (hcommit o ho).2
  have hreward : wrap64 (nFees + getBlockSubsidy env idx.nHeight
      (params.getConsensus idx.nHeight) idx.hashPrevBlock) = subsidyAt env params idx + nFees := by
    have hword : wrap64 (nFees + subsidyAt env params idx) = subsidyAt env params idx + nFees := by
      rw [Int.add_comm]
      exact wrap_of_fits ⟨by omega, by omega⟩
    rw [← hword]
    exact wrap_add_right.symm
  have hsum : (coinbase.vout.map CTxOut.nValue).sum =
      miner.nValue + (params.getConsensus idx.nHeight).nMigrationTotal := by
    rw [hvout, List.map_cons, List.sum_cons, List.map_append, List.sum_append, hzero, htotal,
      Int.add_zero]
  refine bind_eq_ok.mpr ⟨subsidyAt env params idx + nFees +
    (params.getConsensus idx.nHeight).nMigrationTotal, ?_, bind_eq_ok.mpr
      ⟨_, getValueOut_of_inRange hout, require_eq_ok.mpr (decide_eq_true ?_)⟩⟩
  · rw [hreward, migrationReward_armed_iff harmed, hvout, List.tail_cons,
      rdropWhile_append_of_all hlast fun o ho => (hcommit o ho).1]
    refine ⟨?_, hhash, (sumAmounts_exact hin).trans htotal, ?_, ?_⟩
    · rintro rfl
      exact Bool.false_ne_true hlast
    · rw [hvout]
      exact hminer
    · exact (wrap_of_fits ⟨by omega, by omega⟩).symm
  · rw [hsum]
    omega

/-- **The migration block pays exactly the committed list.**  Let no other list have the hash of
    the committed outputs.  The coinbase of a block accepted at the armed height is a miner
    output, the committed outputs in their order and block commitments; they add up to
    `nMigrationTotal`, and the rest is at most the subsidy and the fees.  Conversely a coinbase of
    that form, with commitments worth nothing, passes if the list does not end like a commitment;
    amounts have passed `CheckTransaction`, and fit a word. -/
theorem migration_pays_committed (env : Env) (params : CChainParams) (idx : CBlockIndex)
    (committed : List CTxOut)
    (harmed : migrationArmed (params.getConsensus idx.nHeight) idx.nHeight = true)
    (hhash : ∀ outs, env.hashOutputs outs =
      (params.getConsensus idx.nHeight).hashMigrationOutputs ↔ outs = committed) :
    (∀ io fJustCheck a view block, (isGenesis env params block → idx.nHeight = 0) →
      (connectBlock env params idx io fJustCheck a view block).verdict = .ok () →
      ∃ miner commitments,
        (block.vtx.headD default).vout = miner :: (committed ++ commitments) ∧
        (∀ o ∈ commitments, isBlockCommitmentOutput o = true) ∧
        (committed.map CTxOut.nValue).sum = (params.getConsensus idx.nHeight).nMigrationTotal ∧
        miner.nValue + (commitments.map CTxOut.nValue).sum ≤
          subsidyAt env params idx + blockFees env idx.nHeight view block.vtx) ∧
    (committed.getLast?.any (fun o => !isBlockCommitmentOutput o) = true →
      (committed.map CTxOut.nValue).sum = (params.getConsensus idx.nHeight).nMigrationTotal →
      ∀ nFees coinbase miner commitments,
        coinbase.vout = miner :: (committed ++ commitments) →
        (∀ o ∈ commitments, isBlockCommitmentOutput o = true ∧ o.nValue = 0) →
        checkTransaction coinbase = .ok () →
        miner.nValue ≤ subsidyAt env params idx + nFees →
        subsidyAt env params idx + nFees +
          (params.getConsensus idx.nHeight).nMigrationTotal < 2 ^ 63 →
        checkCoinbaseAmount env params idx coinbase nFees = .ok ()) := by
  constructor
  · intro io fJustCheck a view block hgenesis haccept
    have hgen : ¬ isGenesis env params block := by
      intro hgen
      simp only [migrationArmed, Bool.and_eq_true, decide_eq_true_eq] at harmed
      exact harmed.1.1 (harmed.1.2 ▸ hgenesis hgen)
    obtain ⟨fp, p, h, hrules⟩ := connectBlock_accepted_rules haccept hgen
    obtain ⟨coinbase, txs, hvtx, -, -⟩ := checkBlock_shape h.checked
    have htx := checkBlock_checkTransaction h.checked
    obtain ⟨hfees, hfees₀⟩ := foldlM_connectTx_fees htx wrap_zero.symm h.validated.firstPass
    rw [Int.zero_add] at hfees
    have hamount := hrules.coinbaseAmount
    rw [hfees] at hamount
    rw [hvtx, List.headD_cons] at hamount ⊢
    have hout := checkTransaction_outputs (htx coinbase (hvtx ▸ List.mem_cons_self))
    rw [hvtx] at hfees₀
    exact checkCoinbaseAmount_pays harmed (fun outs => (hhash outs).mp) hout hfees₀ hamount
  · intro hlast htotal nFees coinbase miner commitments hvout hcommit htx hminer hfits
    exact checkCoinbaseAmount_of_committed harmed ((hhash committed).mpr rfl) htotal hlast hvout
      hcommit (checkTransaction_outputs htx) hminer hfits

end Migration

namespace Sample

/-- The outputs of the migration. -/
def allocations : List CTxOut := [pay OP_1 300, pay OP_1 400]

/-- Armed at height 1 for those outputs. -/
def migrationParams : CChainParams :=
  ⟨fun _ => { consensus with
      nMigrationHeight := 1
      hashMigrationOutputs := Uint256.fill 1
      nMigrationTotal := 700 }, fun _ => rfl⟩

/-- Only the allocations have the committed hash. -/
def migrationEnv : Env :=
  { env sameByte with
    hashOutputs := fun outs => if outs = allocations then Uint256.fill 1 else Uint256.null }

/-- A PAT commitment. -/
def patOutput : CTxOut := ⟨0, [OP_RETURN, 0x22, 0x50, 0x41] ++ List.replicate 32 0⟩

/-- A commitment to range proofs. -/
def latticeFoldOutput : CTxOut := ⟨0, [OP_RETURN, 0x22, 0x4c, 0x46] ++ List.replicate 32 0⟩

/-- The miner's output, the allocations and a commitment. -/
def migrationCoinbase : CTransaction :=
  { coinbase 1 with vout := pay OP_1 50 :: (allocations ++ [latticeFoldOutput]) }

/-- The block with that coinbase. -/
def migrationBlock : CBlock := ⟨[], [migrationCoinbase]⟩

end Sample

open Sample in
/-- The sample migration block is accepted, and a coinbase with two commitments passes as well. -/
theorem migration_pays_committed_sample :
    (connectBlock migrationEnv migrationParams (index 1) io false usdsoqAssets usdsoqCoins
        migrationBlock).verdict = .ok () ∧
      (∃ miner commitments,
        (migrationBlock.vtx.headD default).vout = miner :: (allocations ++ commitments) ∧
        (∀ o ∈ commitments, isBlockCommitmentOutput o = true) ∧
        (allocations.map CTxOut.nValue).sum = 700 ∧
        miner.nValue + (commitments.map CTxOut.nValue).sum ≤
          subsidyAt migrationEnv migrationParams (index 1) +
            blockFees migrationEnv 1 usdsoqCoins migrationBlock.vtx) ∧
      checkCoinbaseAmount migrationEnv migrationParams (index 1)
        { migrationCoinbase with
          vout := pay OP_1 50 :: (allocations ++ [patOutput, latticeFoldOutput]) } 0 = .ok () := by
  have hhash : ∀ outs, migrationEnv.hashOutputs outs =
      (migrationParams.getConsensus (index 1).nHeight).hashMigrationOutputs ↔
        outs = allocations := by
    intro outs
    show (if outs = allocations then Uint256.fill 1 else Uint256.null) = Uint256.fill 1 ↔ _
    by_cases h : outs = allocations
    · rw [if_pos h]
      exact iff_of_true rfl h
    · rw [if_neg h]
      exact iff_of_false (by decide) h
  have haccept : (connectBlock migrationEnv migrationParams (index 1) io false usdsoqAssets
      usdsoqCoins migrationBlock).verdict = .ok () := by decide +kernel
  obtain ⟨hpays, hpasses⟩ := migration_pays_committed migrationEnv migrationParams (index 1)
    allocations (by decide +kernel) hhash
  refine ⟨haccept, hpays io false usdsoqAssets usdsoqCoins migrationBlock ?_ haccept, ?_⟩
  · intro hgen
    exact absurd hgen (by decide +kernel)
  · exact hpasses (by decide +kernel) (by decide +kernel) 0 _ (pay OP_1 50)
      [patOutput, latticeFoldOutput] rfl (by decide +kernel) (by decide +kernel)
      (by decide +kernel) (by decide +kernel)

end Soqucoin
