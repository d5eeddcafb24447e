import Soqucoin.AuthenticationProofs
import Soqucoin.HoldingsProofs

/-! # Native coins come from the subsidy alone

`CheckTxInputs` balances an authority transaction in its native coins, any other in all of its
coins, with both assets conserved.  Either way the native coins it creates are covered by those it
spends (`CheckedInputs.native_le`).  What is left over is the fee the coinbase may claim, besides
the subsidy and the migration total (`native_not_inflated`). -/

namespace Soqucoin

open CheckedLoop SignedWord

section Native

variable {env : Env} {params : CChainParams} {idx : CBlockIndex} {io : NodeIO}
variable {fJustCheck : Bool} {a : Assets} {view v : CoinsView} {block : CBlock}
variable {fp : FirstPass} {p : Pending} {tx : CTransaction} {nSpendHeight : Int}

/-! ## One transaction -/

theorem isBTCSOQ_of_isAnyUSDSOQ {o : CTxOut} (h : o.isAnyUSDSOQ) : o.isBTCSOQ = false := by
  rw [CTxOut.isAnyUSDSOQ, Bool.or_eq_true] at h
  rcases h with h | h
  · exact isWitnessProgram_eq h
  · exact isWitnessProgram_eq h

/-- Every output is of one of three kinds. -/
theorem sum_kinds (outs : List CTxOut) :
    (outs.map CTxOut.nValue).sum = valueOf CTxOut.isNativeSOQ outs +
      valueOf CTxOut.isAnyUSDSOQ outs + valueOf CTxOut.isBTCSOQ outs := by
  induction outs with
  | nil => rfl
  | cons o outs ih =>
    rw [valueOf_cons, valueOf_cons, valueOf_cons, List.map_cons, List.sum_cons, ih,
      CTxOut.isNativeSOQ]
    cases husd : o.isAnyUSDSOQ with
    | true =>
      rw [isBTCSOQ_of_isAnyUSDSOQ husd]
      simp
      omega
    | false =>
      cases o.isBTCSOQ with
      | true =>
        simp
        omega
      | false =>
        simp
        omega

/-- A transaction pays out no more native coin than it spends. -/
theorem CheckedInputs.native_le (h : CheckedInputs params a v nSpendHeight tx) :
    valueOf CTxOut.isNativeSOQ tx.vout ≤ valueOf CTxOut.isNativeSOQ (spentOutputs v tx) := by
  have hbalance := h.balance
  split at hbalance
  · exact hbalance
  · rename_i hexempt
    rw [Bool.or_eq_true, not_or, Bool.not_eq_true, Bool.not_eq_true] at hexempt
    have husd := h.usdsoq hexempt.1
    have hbtc := h.btcsoq hexempt.2
    rw [sum_kinds, sum_kinds] at hbalance
    omega

theorem wrap64_sub_exact {x y : Int} (hx₀ : 0 ≤ x) (hx : x ≤ MAX_MONEY) (hy₀ : 0 ≤ y)
    (hy : y ≤ MAX_MONEY) : wrap64 (x - y) = x - y := by
  have hmax : MAX_MONEY = 2000000000000000000 := by decide
  refine wrap_of_fits ?_
  constructor <;> omega

theorem nativeFee_eq (hin : InRange (spentOutputs v tx)) (hout : InRange tx.vout) :
    nativeFee v tx =
      valueOf CTxOut.isNativeSOQ (spentOutputs v tx) - valueOf CTxOut.isNativeSOQ tx.vout := by
  rw [nativeFee, hin.sumOf_exact, hout.sumOf_exact]
  exact wrap64_sub_exact hin.valueOf_nonneg hin.valueOf_le hout.valueOf_nonneg hout.valueOf_le

theorem CheckedInputs.nativeFee_nonneg (h : CheckedInputs params a v nSpendHeight tx)
    (hout : InRange tx.vout) : 0 ≤ nativeFee v tx := by
  rw [nativeFee_eq h.inputs hout]
  have hle := h.native_le
  omega

/-- The outputs that are stored are worth no more than all. -/
theorem valueOf_kept_le {kind : CTxOut → Bool} {outs : List CTxOut} (h : InRange outs) :
    valueOf (kept kind) outs ≤ valueOf kind outs := by
  have hkept : outs.filter (kept kind) = (outs.filter kind).filter
      fun o => !isUnspendable o.scriptPubKey := by
    rw [List.filter_filter]
    exact List.filter_congr fun o _ => Bool.and_comm ..
  rw [valueOf, hkept]
  exact (valueOf_bounds _ fun o ho => h.nonneg o (List.mem_of_mem_filter ho)).2

/-! ## The first pass -/

/-- A transaction adds its fee to those of the block. -/
theorem connectTx_nFees {fQueue : Bool} {s t : FirstPass}
    (h : connectTx env params idx a fQueue s tx = .ok t) :
    t.nFees = if tx.isCoinBase then s.nFees else wrap64 (s.nFees + nativeFee s.view tx) := by
  replace h := after_require h
  replace h := after_require h
  replace h := after_require h
  obtain ⟨_, -, h⟩ := bind_eq_ok.mp h
  obtain ⟨_, -, h⟩ := bind_eq_ok.mp h
  obtain rfl := Except.ok.inj h
  rfl

/-- The native coins so far, with the fees taken out of them: the fees are
    counted in a word, which has wrapped the exact total. -/
def FeesTaken (limit : Int) (s : FirstPass) : Prop :=
  ∃ fees, 0 ≤ fees ∧ s.nFees = wrap64 fees ∧ holdings CTxOut.isNativeSOQ s.view + fees ≤ limit

/-- A transaction takes its fee out of the native coins. -/
theorem connectTx_native {fQueue : Bool} {s t : FirstPass} {limit : Int}
    (htx : checkTransaction tx = .ok ()) (hcb : tx.isCoinBase = false)
    (h : connectTx env params idx a fQueue s tx = .ok t) (hs : FeesTaken limit s) :
    FeesTaken limit t := by
  obtain ⟨fees, hnonneg, hword, hle⟩ := hs
  obtain ⟨chk, undo, -, hchk, hup, -, -⟩ := connectTx_eq_ok h
  have hout := checkTransaction_outputs htx
  have hchecked := checkTxInputs_checked hout (checkInputs_checkTxInputs hcb hchk)
  have hheld : holdings CTxOut.isNativeSOQ t.view = _ :=
    holdings_updateCoins_kept hout (fun hc => by rw [hcb] at hc; cases hc) hup
  have hkept : valueOf (kept CTxOut.isNativeSOQ) tx.vout ≤ _ := valueOf_kept_le hout
  have hfee := nativeFee_eq hchecked.inputs hout
  have hfee₀ := hchecked.nativeFee_nonneg hout
  have hnFees := connectTx_nFees h
  rw [hcb, if_neg Bool.false_ne_true] at hheld hnFees
  refine ⟨fees + nativeFee s.view tx, by omega, ?_, by omega⟩
  rw [hnFees, hword]
  exact wrap_add_left

/-- The coinbase adds its native outputs. -/
theorem connectTx_coinbase {fQueue : Bool} {s t : FirstPass} (htx : checkTransaction tx = .ok ())
    (hcb : tx.isCoinBase)
    (hfresh : (s.view.record (env.getHash tx)).isPruned) (hfees : s.nFees = 0)
    (h : connectTx env params idx a fQueue s tx = .ok t) :
    FeesTaken (holdings CTxOut.isNativeSOQ s.view + valueOf CTxOut.isNativeSOQ tx.vout) t := by
  obtain ⟨chk, undo, -, -, hup, -, -⟩ := connectTx_eq_ok h
  have hout := checkTransaction_outputs htx
  have hheld : holdings CTxOut.isNativeSOQ t.view = _ :=
    holdings_updateCoins_kept hout (fun _ => hfresh) hup
  have hkept : valueOf (kept CTxOut.isNativeSOQ) tx.vout ≤ _ := valueOf_kept_le hout
  have hnFees := connectTx_nFees h
  rw [hcb, if_pos rfl] at hheld hnFees
  refine ⟨0, le_refl 0, ?_, by omega⟩
  rw [hnFees, hfees]
  exact wrap_zero.symm

/-- The fees of a block come out of its native coins. -/
theorem Accepted.feesTaken (h : Accepted env params idx io fJustCheck a view block fp p) :
    FeesTaken (holdings CTxOut.isNativeSOQ view +
      valueOf CTxOut.isNativeSOQ (block.vtx.headD default).vout) fp := by
  obtain ⟨coinbase, txs, hvtx, hcb, hrest⟩ := checkBlock_shape h.checked
  have htx := checkBlock_checkTransaction h.checked
  have hfresh := checkBIP30_fresh h.bip30
  have hrun := h.validated.firstPass
  rw [hvtx] at htx hfresh hrun ⊢
  obtain ⟨s₁, hfirst, hlater⟩ := foldlM_cons_eq_ok.mp hrun
  have hstart := connectTx_coinbase (htx _ List.mem_cons_self) hcb
    (hfresh _ List.mem_cons_self) rfl hfirst
  refine foldlM_invariant (FeesTaken (holdings CTxOut.isNativeSOQ view +
    valueOf CTxOut.isNativeSOQ coinbase.vout)) txs (fun s tx t hmem hturn hs => ?_) hlater hstart
  exact connectTx_native (htx _ (List.mem_cons_of_mem _ hmem)) (hrest _ hmem) hturn hs

/-! ## The coinbase -/

/-- What the migration rule adds to the reward at a height. -/
def migrationTotal (consensus : Consensus) (nHeight : Int) : Int :=
  if consensus.nMigrationHeight ≠ 0 && nHeight = consensus.nMigrationHeight &&
      !consensus.hashMigrationOutputs.isNull then consensus.nMigrationTotal
  else 0

/-- What a block may add to the native coins: the subsidy, as the 64-bit amount
    `GetSoqucoinBlockSubsidy` returns, and the migration total. -/
def nativeIssuance (env : Env) (params : CChainParams) (idx : CBlockIndex) : Int :=
  wrap64 (getBlockSubsidy env idx.nHeight (params.getConsensus idx.nHeight) idx.hashPrevBlock) +
    migrationTotal (params.getConsensus idx.nHeight) idx.nHeight

/-- Part of outputs in range is in range. -/
theorem InRange.sublist {outs outs' : List CTxOut} (h : InRange outs) (hsub : outs'.Sublist outs) :
    InRange outs' where
  nonneg o ho := h.nonneg o (hsub.subset ho)
  total := by
    refine le_trans (List.Sublist.sum_le_sum (hsub.map CTxOut.nValue) ?_) h.total
    intro x hx
    obtain ⟨o, ho, rfl⟩ := List.mem_map.mp hx
    exact h.nonneg o ho

/-- What a migration adds to the reward. -/
theorem migrationReward_eq {consensus : Consensus} {nHeight x reward : Int}
    {coinbase : CTransaction} (hout : InRange coinbase.vout)
    (h : migrationReward env consensus nHeight coinbase (wrap64 x) = .ok reward) :
    reward = wrap64 (x + migrationTotal consensus nHeight) ∧
      0 ≤ migrationTotal consensus nHeight := by
  rw [migrationReward] at h
  rw [migrationTotal]
  split at h
  · rename_i hmig
    rw [if_pos hmig]
    replace h := after_require h
    replace h := after_require h
    obtain ⟨htotal, h⟩ := require_bind_eq_ok.mp h
    replace h := after_require h
    obtain rfl := Except.ok.inj h
    have hin : InRange (coinbase.vout.tail.rdropWhile isBlockCommitmentOutput) :=
      hout.sublist ((List.rdropWhile_prefix _ _).sublist.trans (List.tail_sublist _))
    have hnonneg : 0 ≤ sumOf (fun _ => true)
        (coinbase.vout.tail.rdropWhile isBlockCommitmentOutput) := by
      rw [hin.sumOf_exact]
      exact hin.valueOf_nonneg
    rw [sumOf, List.filter_true, of_decide_eq_true htotal] at hnonneg
    exact ⟨wrap_add_left, hnonneg⟩
  · rename_i hmig
    rw [if_neg hmig, Int.add_zero]
    exact ⟨(Except.ok.inj h).symm, le_refl 0⟩

/-- A coinbase pays no more than fees and issuance. -/
theorem coinbase_le {coinbase : CTransaction} {fees : Int} (hout : InRange coinbase.vout)
    (hfees : 0 ≤ fees) (h : checkCoinbaseAmount env params idx coinbase (wrap64 fees) = .ok ()) :
    (coinbase.vout.map CTxOut.nValue).sum ≤ fees + nativeIssuance env params idx := by
  obtain ⟨reward, hreward, h⟩ := bind_eq_ok.mp h
  obtain ⟨valueOut, hvalue, h⟩ := bind_eq_ok.mp h
  obtain rfl := getValueOut_total hvalue
  have hle := of_decide_eq_true (require_eq_ok.mp h)
  have hword : wrap64 (wrap64 fees + getBlockSubsidy env idx.nHeight
      (params.getConsensus idx.nHeight) idx.hashPrevBlock) =
      wrap64 (fees + wrap64 (getBlockSubsidy env idx.nHeight
        (params.getConsensus idx.nHeight) idx.hashPrevBlock)) := by
    rw [wrap64, wrap64, wrap64, wrap_add_left, wrap64, wrap_add_right]
  rw [hword] at hreward
  obtain ⟨rfl, hmig⟩ := migrationReward_eq hout hreward
  refine le_trans hle (le_trans (wrap_le ?_) (le_of_eq (Int.add_assoc ..)))
  have hlow := (@wrap_fits 64 (getBlockSubsidy env idx.nHeight
    (params.getConsensus idx.nHeight) idx.hashPrevBlock)).1
  rw [wrap64]
  omega

/-! ## One block -/

/-- **Native coins are not inflated.**  For every view and every accepted block, the unspent
    native coins grow by no more than the subsidy and, at the migration height, the committed
    total; and every transaction but the coinbase has a native fee that is not negative.  The
    genesis block adds nothing: its transactions are not connected. -/
theorem native_not_inflated (env : Env) (params : CChainParams) (idx : CBlockIndex)
    (io : NodeIO) (fJustCheck : Bool) (a : Assets) (view : CoinsView) (block : CBlock)
    (haccept : (connectBlock env params idx io fJustCheck a view block).verdict = .ok ()) :
    (isGenesis env params block →
      holdings CTxOut.isNativeSOQ (connectBlock env params idx io fJustCheck a view block).view =
        holdings CTxOut.isNativeSOQ view) ∧
    (¬ isGenesis env params block →
      holdings CTxOut.isNativeSOQ (connectBlock env params idx io fJustCheck a view block).view ≤
        holdings CTxOut.isNativeSOQ view + nativeIssuance env params idx ∧
      ∀ pre tx post, block.vtx = pre ++ tx :: post → tx.isCoinBase = false →
        0 ≤ nativeFee (blockView env idx.nHeight view pre) tx) := by
  constructor
  · intro hgen
    rcases connectBlock_of_isGenesis hgen with ⟨e, he⟩ | hok
    · rw [he] at haccept
      cases haccept
    · rw [hok]
      cases fJustCheck <;> rfl
  · intro hgen
    obtain ⟨fp, p, h, hrules⟩ := connectBlock_accepted_rules haccept hgen
    obtain ⟨coinbase, txs, hvtx, hcb, -⟩ := checkBlock_shape h.checked
    have htx := checkBlock_checkTransaction h.checked
    refine ⟨?_, fun pre tx post hsplit hcb' => ?_⟩
    · obtain ⟨fees, hnonneg, hword, hle⟩ := h.feesTaken
      have hamount := hrules.coinbaseAmount
      rw [hvtx, List.headD_cons] at hle hamount
      rw [hword] at hamount
      have hout := checkTransaction_outputs (htx coinbase (hvtx ▸ List.mem_cons_self))
      have hcoinbase := coinbase_le hout hnonneg hamount
      have hnative : valueOf CTxOut.isNativeSOQ coinbase.vout ≤ _ :=
        (valueOf_bounds _ hout.nonneg).2
      have hview : holdings CTxOut.isNativeSOQ
          (connectBlock env params idx io fJustCheck a view block).view =
          holdings CTxOut.isNativeSOQ fp.view := by
        rw [h.view_eq]
        cases fJustCheck <;> rfl
      omega
    · exact (h.checkedInputs hsplit hcb').nativeFee_nonneg (h.checkedTransaction hsplit).outputs

end Native

open Sample in
/-- A mint that spends a native coin of 1000 and pays all of it as its fee. -/
theorem native_not_inflated_mint :
    nativeIssuance (Sample.env sameByte) params (index 1) = 50000000000000 ∧
    nativeFee (blockView (Sample.env sameByte) 1 usdsoqCoins [coinbase 1])
      (transaction 7 [spend 9 (authorityWitness 0x55 [1, 2]), spend 8 []]
        [pay OP_5 0, pay OP_7 100]) = 1000 ∧
    (isGenesis (Sample.env sameByte) params signedUSDSOQ →
      holdings CTxOut.isNativeSOQ (connectBlock (Sample.env sameByte) params (index 1) io false
        usdsoqAssets usdsoqCoins signedUSDSOQ).view = holdings CTxOut.isNativeSOQ usdsoqCoins) ∧
    (¬ isGenesis (Sample.env sameByte) params signedUSDSOQ →
      holdings CTxOut.isNativeSOQ (connectBlock (Sample.env sameByte) params (index 1) io false
        usdsoqAssets usdsoqCoins signedUSDSOQ).view ≤
        holdings CTxOut.isNativeSOQ usdsoqCoins +
          nativeIssuance (Sample.env sameByte) params (index 1) ∧
      ∀ pre tx post, signedUSDSOQ.vtx = pre ++ tx :: post → tx.isCoinBase = false →
        0 ≤ nativeFee (blockView (Sample.env sameByte) 1 usdsoqCoins pre) tx) :=
  ⟨by decide +kernel, by decide +kernel,
    native_not_inflated _ _ _ io false usdsoqAssets _ _ (by decide +kernel)⟩

end Soqucoin
