import Soqucoin.DormantProofs
import Soqucoin.InterpreterProofs
import Soqucoin.NativeValueProofs
import Soqucoin.Persistence
import Soqucoin.QuietBlockProofs
import Soqucoin.SigOps

/-! # Activation as a fork — what a deployment grants

An asset's deployment adds rules, and while its authority has keys it grants two exemptions: a
transaction with the authority marker need not conserve the asset, and the scripts of one with the
authority shape are not run.  Every other test of a block is passed without the deployment if it
is passed with it, so on a state reached with both assets dormant a block accepted with the
deployment is accepted without it exactly when it uses neither (`activation_soft_fork_iff`). -/

namespace Soqucoin

open CheckedLoop SignedWord

/-! ## One asset switched off -/

namespace AssetId

/-- The deployment that activates the asset. -/
def deployment : AssetId → Deployment
  | usdsoq => .usdsoq
  | btcsoq => .btcsoq

/-- The script of the asset's authority marker. -/
def isMarker : AssetId → CScript → Bool
  | usdsoq => isUSDSOQAuthorityMarker
  | btcsoq => isBTCSOQAuthorityMarker

/-- An output that holds value of the asset. -/
def isHolding : AssetId → CTxOut → Bool
  | usdsoq => CTxOut.isAnyUSDSOQ
  | btcsoq => CTxOut.isBTCSOQ

/-- The shape by which checks recognise the asset's authority transactions. -/
def isAuthorityShape : AssetId → CTransaction → Bool
  | usdsoq => isUSDSOQAuthorityShape
  | btcsoq => isBTCSOQAuthorityShape

end AssetId

/-- The same parameters, with the deployment of an asset not scheduled. -/
def CChainParams.without (params : CChainParams) (asset : AssetId) : CChainParams where
  getConsensus h :=
    { params.getConsensus h with
      activationHeight := fun d =>
        if d = asset.deployment then NOT_SCHEDULED else (params.getConsensus h).activationHeight d }
  bip34Hash_null := params.bip34Hash_null

/-- The flags, with that of the asset cleared. -/
def ScriptFlags.without (flags : ScriptFlags) : AssetId → ScriptFlags
  | .usdsoq => { flags with usdsoq := false }
  | .btcsoq => { flags with btcsoq := false }

section Switch

variable {params : CChainParams} {idx : CBlockIndex} {a : Assets}

theorem blockFlags_without (asset : AssetId) :
    blockFlags (params.without asset) idx = (blockFlags params idx).without asset := by
  cases asset with
  | usdsoq => rfl
  | btcsoq => rfl

theorem conservedAt_without (asset : AssetId) :
    ConservedAt (params.without asset) idx asset.isHolding := by
  cases asset with
  | usdsoq => exact usdsoq_conservedAt (congrArg ScriptFlags.usdsoq (blockFlags_without .usdsoq))
  | btcsoq => exact btcsoq_conservedAt (congrArg ScriptFlags.btcsoq (blockFlags_without .btcsoq))

theorem isMarker_of_isAuthorityShape {asset : AssetId} {tx : CTransaction}
    (h : asset.isAuthorityShape tx) : hasMarker asset.isMarker tx := by
  cases asset with
  | usdsoq => exact (Bool.and_eq_true_iff.mp h).1
  | btcsoq => exact (Bool.and_eq_true_iff.mp h).1

end Switch

/-! ## Scripts and sigops -/

section Scripts

variable {env : Env} {proofs : ProofVerifiers}

/-- Without an asset's deployment the flags require no more. -/
theorem relaxes_without (flags : ScriptFlags) (asset : AssetId) :
    (flags.without asset).consensus.Relaxes flags.consensus := by
  cases asset with
  | usdsoq =>
    refine ⟨rfl, rfl, id, ?_, id, fun _ => rfl⟩
    intro h
    cases h
  | btcsoq =>
    refine ⟨rfl, rfl, id, id, ?_, fun _ => rfl⟩
    intro h
    cases h

theorem run_without {c : CScriptCheck} (asset : AssetId) (h : c.run (env.node proofs)) :
    CScriptCheck.run (env.node proofs) { c with flags := c.flags.without asset } := by
  rw [CScriptCheck.run, Env.node, verifyScript_withInterpreter] at h ⊢
  exact verifyScript_of_relaxes (relaxes_without c.flags asset) h

theorem getTransactionSigOpCost_without (tx : CTransaction) (spent : List CTxOut)
    (flags : ScriptFlags) (asset : AssetId) :
    (env.node proofs).getTransactionSigOpCost tx spent (flags.without asset) =
      (env.node proofs).getTransactionSigOpCost tx spent flags := by
  cases asset with
  | usdsoq => rfl
  | btcsoq => rfl

end Scripts

/-! ## Values -/

section Values

variable {params params' : CChainParams} {a b : Assets} {v : CoinsView} {tx : CTransaction}
variable {nSpendHeight : Int} {kind : CTxOut → Bool}

/-- Nothing in and nothing out is conserved. -/
theorem checkConservation_of_worthless {notConserved mismatch : String} {prevs : List CTxOut}
    (hin : Worthless kind prevs) (hout : Worthless kind tx.vout) :
    checkConservation kind notConserved mismatch prevs tx = .ok () := by
  have hsum : ∀ outs, Worthless kind outs → sumOf kind outs = 0 := by
    intro outs houts
    rw [sumOf_eq, valueOf_of_worthless houts]
    rfl
  refine require_bind_eq_ok.mpr ⟨decide_eq_true ?_, require_eq_ok.mpr ?_⟩
  · rw [hsum _ hin, hsum _ hout]
  · rw [hsum _ hout]
    rfl

theorem fee_inRange {nValueIn nValueOut : Int} (hout : 0 ≤ nValueOut) (hle : nValueOut ≤ nValueIn)
    (hin : nValueIn ≤ MAX_MONEY) :
    0 ≤ wrap64 (nValueIn - nValueOut) ∧ moneyRange (wrap64 (nValueIn - nValueOut)) := by
  rw [wrap64_sub_exact (hout.trans hle) hin hout (hle.trans hin), Supply.moneyRange_iff]
  omega

/-- The amounts that are compared, native ones under an exemption and all of them
    without, cannot overflow: the rule on the fee is the balance. -/
theorem checkTxInputs_of_balance {allIn allOut : Int} (hout : InRange tx.vout)
    (hhave : v.haveInputs tx)
    (hallIn : tx.vin.foldlM (checkInputValue params v nSpendHeight) 0 = .ok allIn)
    (hallOut : getValueOut tx = .ok allOut)
    (hbalance : if usdsoqExempt params a nSpendHeight tx || btcsoqExempt params a nSpendHeight tx
      then valueOf CTxOut.isNativeSOQ tx.vout ≤ valueOf CTxOut.isNativeSOQ (spentOutputs v tx)
      else (tx.vout.map CTxOut.nValue).sum ≤ ((spentOutputs v tx).map CTxOut.nValue).sum)
    (husd : usdsoqExempt params a nSpendHeight tx = false →
      checkUSDSOQConservation (spentOutputs v tx) tx = .ok ())
    (hbtc : btcsoqExempt params a nSpendHeight tx = false →
      checkBTCSOQConservation (spentOutputs v tx) tx = .ok ()) :
    checkTxInputs params a v tx nSpendHeight = .ok () := by
  obtain ⟨hin, rfl⟩ := inputLoop_total hallIn
  obtain rfl := getValueOut_total hallOut
  let perAsset := usdsoqExempt params a nSpendHeight tx || btcsoqExempt params a nSpendHeight tx
  let nValueOut := if perAsset then sumOf CTxOut.isNativeSOQ tx.vout
    else (tx.vout.map CTxOut.nValue).sum
  let nValueIn := if perAsset then sumOf CTxOut.isNativeSOQ (spentOutputs v tx)
    else ((spentOutputs v tx).map CTxOut.nValue).sum
  have hle : 0 ≤ nValueOut ∧ nValueOut ≤ nValueIn ∧ nValueIn ≤ MAX_MONEY := by
    cases hper : perAsset with
    | true =>
      rw [if_pos hper] at hbalance
      simp only [nValueOut, nValueIn, hper, if_true, hin.sumOf_exact, hout.sumOf_exact]
      exact ⟨hout.valueOf_nonneg, hbalance, hin.valueOf_le⟩
    | false =>
      rw [if_neg (Bool.eq_false_iff.mp hper)] at hbalance
      simp only [nValueOut, nValueIn, hper, Bool.false_eq_true, if_false]
      have hnonneg := valueOf_bounds CTxOut.isNativeSOQ hout.nonneg
      exact ⟨hnonneg.1.trans hnonneg.2, hbalance, hin.total⟩
  obtain ⟨hfee, hrange⟩ := fee_inRange hle.1 hle.2.1 hle.2.2
  rw [checkTxInputs]
  refine require_bind_eq_ok.mpr ⟨hhave, bind_eq_ok.mpr ⟨_, hallIn, bind_eq_ok.mpr ⟨_, hallOut, ?_⟩⟩⟩
  refine require_bind_eq_ok.mpr ⟨decide_eq_true hle.2.1, ?_⟩
  refine require_bind_eq_ok.mpr ⟨decide_eq_true hfee, require_bind_eq_ok.mpr ⟨hrange, ?_⟩⟩
  exact bind_eq_ok.mpr ⟨(), skipIf_eq_ok.mpr husd, skipIf_eq_ok.mpr hbtc⟩

/-- The input checks still pass under parameters that exempt fewer transactions, if those that lose
    their exemption conserve value anyway. -/
theorem checkTxInputs_fewer_exemptions (hout : InRange tx.vout)
    (h : checkTxInputs params a v tx nSpendHeight = .ok ())
    (hmaturity : checkInputValue params' v nSpendHeight = checkInputValue params v nSpendHeight)
    (husd : usdsoqExempt params' b nSpendHeight tx = false →
      usdsoqExempt params a nSpendHeight tx →
        checkUSDSOQConservation (spentOutputs v tx) tx = .ok ())
    (hbtc : btcsoqExempt params' b nSpendHeight tx = false →
      btcsoqExempt params a nSpendHeight tx →
        checkBTCSOQConservation (spentOutputs v tx) tx = .ok ()) :
    checkTxInputs params' b v tx nSpendHeight = .ok () := by
  have hchecked := checkTxInputs_checked hout h
  obtain ⟨hhave, h⟩ := require_bind_eq_ok.mp h
  obtain ⟨allIn, hallIn, h⟩ := bind_eq_ok.mp h
  obtain ⟨allOut, hallOut, h⟩ := bind_eq_ok.mp h
  replace h := after_require h
  replace h := after_require h
  replace h := after_require h
  obtain ⟨_, husdRule, hbtcRule⟩ := bind_eq_ok.mp h
  rw [skipIf_eq_ok] at husdRule hbtcRule
  have husd' : usdsoqExempt params' b nSpendHeight tx = false →
      checkUSDSOQConservation (spentOutputs v tx) tx = .ok () := by
    intro hex
    cases hwas : usdsoqExempt params a nSpendHeight tx with
    | true => exact husd hex hwas
    | false => exact husdRule hwas
  have hbtc' : btcsoqExempt params' b nSpendHeight tx = false →
      checkBTCSOQConservation (spentOutputs v tx) tx = .ok () := by
    intro hex
    cases hwas : btcsoqExempt params a nSpendHeight tx with
    | true => exact hbtc hex hwas
    | false => exact hbtcRule hwas
  rw [← hmaturity] at hallIn
  refine checkTxInputs_of_balance hout hhave hallIn hallOut ?_ husd' hbtc'
  have hnative := hchecked.native_le
  split
  · exact hnative
  · rename_i hexempt
    rw [Bool.or_eq_true, not_or, Bool.not_eq_true, Bool.not_eq_true] at hexempt
    have hu := checkConservation_conserved hchecked.inputs hout (husd' hexempt.1)
    have hb := checkConservation_conserved hchecked.inputs hout (hbtc' hexempt.2)
    rw [sum_kinds, sum_kinds]
    omega

/-- Without the asset the input checks still pass, where its outputs carry no value. -/
theorem checkTxInputs_without {idx : CBlockIndex} (asset : AssetId) (hout : InRange tx.vout)
    (h : checkTxInputs params (initAuthorities params idx a) v tx idx.nHeight = .ok ())
    (hspent : Worthless asset.isHolding (spentOutputs v tx))
    (hcreated : hasMarker asset.isMarker tx → Worthless asset.isHolding tx.vout) :
    checkTxInputs (params.without asset) (initAuthorities (params.without asset) idx a) v tx
      idx.nHeight = .ok () := by
  cases asset with
  | usdsoq =>
    refine checkTxInputs_fewer_exemptions hout h rfl (fun _ hwas => ?_) fun hex hwas => ?_
    · exact checkConservation_of_worthless hspent (hcreated (Bool.and_eq_true_iff.mp hwas).2)
    · -- the other asset's exemption has not changed
      cases hex.symm.trans hwas
  | btcsoq =>
    refine checkTxInputs_fewer_exemptions hout h rfl (fun hex hwas => ?_) fun _ hwas => ?_
    · cases hex.symm.trans hwas
    · exact checkConservation_of_worthless hspent (hcreated (Bool.and_eq_true_iff.mp hwas).2)

end Values

/-! ## One transaction -/

section Transactions

variable {env : Env} {proofs : ProofVerifiers} {params : CChainParams} {idx : CBlockIndex}
variable {a : Assets} {v : CoinsView} {tx : CTransaction} {flags : ScriptFlags} {asset : AssetId}

/-- A transaction of another shape skips its scripts as before. -/
theorem skipsScripts_without (hshape : asset.isAuthorityShape tx = false) :
    skipsScripts (flags.without asset) tx = skipsScripts flags tx := by
  cases asset with
  | usdsoq =>
    have hshape' : isUSDSOQAuthorityShape tx = false := hshape
    rw [skipsScripts, skipsScripts, hshape', Bool.false_and, Bool.false_and]
    rfl
  | btcsoq =>
    have hshape' : isBTCSOQAuthorityShape tx = false := hshape
    rw [skipsScripts, skipsScripts, hshape', Bool.false_and, Bool.false_and]
    rfl

/-- Without the asset, the scripts of its authority shape are run like any other. -/
theorem skipsScripts_of_isAuthorityShape (htx : CheckedTransaction tx)
    (hshape : asset.isAuthorityShape tx) :
    skipsScripts (flags.without asset) tx = false := by
  have hmark := isMarker_of_isAuthorityShape hshape
  cases asset with
  | usdsoq =>
    have hother : isBTCSOQAuthorityShape tx = false := by
      rw [isBTCSOQAuthorityShape, htx.oneMarker hmark, Bool.false_and]
    rw [skipsScripts, hother, ScriptFlags.without, Bool.and_false, Bool.false_and, Bool.or_false]
  | btcsoq =>
    have hother : isUSDSOQAuthorityShape tx = false := by
      rw [isUSDSOQAuthorityShape]
      cases husd : hasMarker isUSDSOQAuthorityMarker tx with
      | true => cases hmark.symm.trans (htx.oneMarker husd)
      | false => rw [Bool.false_and]
    rw [skipsScripts, hother, ScriptFlags.without, Bool.and_false, Bool.false_and, Bool.or_false]

/-- Taking an asset away makes no authority unavailable. -/
theorem authorities_available_without
    (h : (!(isUSDSOQAuthorityShape tx && (blockFlags params idx).usdsoq) ||
        (initAuthorities params idx a).usdsoq.authority.isInitialized) = true ∧
      (!(isBTCSOQAuthorityShape tx && (blockFlags params idx).btcsoq) ||
        (initAuthorities params idx a).btcsoq.authority.isInitialized) = true) (asset : AssetId) :
    (!(isUSDSOQAuthorityShape tx && (blockFlags (params.without asset) idx).usdsoq) ||
        (initAuthorities (params.without asset) idx a).usdsoq.authority.isInitialized) = true ∧
      (!(isBTCSOQAuthorityShape tx && (blockFlags (params.without asset) idx).btcsoq) ||
        (initAuthorities (params.without asset) idx a).btcsoq.authority.isInitialized) = true := by
  rw [blockFlags_without]
  cases asset with
  | usdsoq =>
    refine ⟨?_, h.2⟩
    rw [ScriptFlags.without, Bool.and_false]
    rfl
  | btcsoq =>
    refine ⟨h.1, ?_⟩
    rw [ScriptFlags.without, Bool.and_false]
    rfl

/-- The inputs of a transaction pass without the deployment: its values if it
    moves no value of the asset, its scripts if those it was excused from pass. -/
theorem checkInputs_without (q : Bool) (hcb : tx.isCoinBase = false) (hout : InRange tx.vout)
    (h : ∃ chk, checkInputs (env.node proofs) params (initAuthorities params idx a) v tx idx.nHeight
        idx.fScriptChecks (blockFlags params idx) q = .ok chk ∧
      chk.all (CScriptCheck.run (env.node proofs)))
    (hspent : Worthless asset.isHolding (spentOutputs v tx))
    (hcreated : hasMarker asset.isMarker tx → Worthless asset.isHolding tx.vout)
    (hscripts : idx.fScriptChecks → asset.isAuthorityShape tx →
      ∀ c ∈ scriptChecks v ((blockFlags params idx).without asset) tx,
        c.run (env.node proofs)) :
    ∃ chk, checkInputs (env.node proofs) (params.without asset)
        (initAuthorities (params.without asset) idx a) v tx idx.nHeight idx.fScriptChecks
        (blockFlags (params.without asset) idx) q = .ok chk ∧
      chk.all (CScriptCheck.run (env.node proofs)) := by
  obtain ⟨hvalues, hrest⟩ := (checkInputs_passes_iff q hcb).mp h
  refine (checkInputs_passes_iff q hcb).mpr ⟨checkTxInputs_without asset hout hvalues hspent
    hcreated, fun hfsc => ?_⟩
  obtain ⟨husd, hbtc, hrun⟩ := hrest hfsc
  obtain ⟨husd', hbtc'⟩ := authorities_available_without ⟨husd, hbtc⟩ asset
  refine ⟨husd', hbtc', fun hskip => ?_⟩
  rw [blockFlags_without] at hskip ⊢
  rw [List.all_eq_true]
  cases hshape : asset.isAuthorityShape tx with
  | true => exact hscripts hfsc hshape
  | false =>
    rw [skipsScripts_without hshape] at hskip
    have hall := List.all_eq_true.mp (hrun hskip)
    intro c hc
    obtain ⟨o, ho, rfl⟩ := List.mem_map.mp hc
    exact run_without asset (hall ⟨tx, o.2, o.1, _⟩ (List.mem_map_of_mem ho))

end Transactions

/-! ## One block -/

/-- The block uses neither exemption of the asset: its marked transactions create
    no value of it, and the scripts of its authority transactions pass. -/
structure NeedsNoExemption (env : Env) (params : CChainParams) (idx : CBlockIndex)
    (asset : AssetId) (view : CoinsView) (block : CBlock) : Prop where
  mints : ∀ tx ∈ block.vtx, hasMarker asset.isMarker tx = true → Worthless asset.isHolding tx.vout
  scripts : idx.fScriptChecks = true → ∀ pre tx post, block.vtx = pre ++ tx :: post →
    tx.isCoinBase = false → asset.isAuthorityShape tx = true →
      ∀ c ∈ scriptChecks (blockView env idx.nHeight view pre)
        ((blockFlags params idx).without asset)
        tx, c.run env = true

section Blocks

variable {env : Env} {proofs : ProofVerifiers} {params : CChainParams} {idx : CBlockIndex}
variable {io : NodeIO} {fJustCheck : Bool} {a : Assets} {view : CoinsView} {block : CBlock}
variable {fp : FirstPass} {p : Pending} {asset : AssetId}

theorem CheckedTransaction.coinbase_worthless {tx : CTransaction} (htx : CheckedTransaction tx)
    (hcb : tx.isCoinBase) : Worthless asset.isHolding tx.vout := by
  intro o ho hkind
  cases asset with
  | usdsoq => cases hkind.symm.trans ((htx.coinbase hcb).1 o ho)
  | btcsoq => cases hkind.symm.trans ((htx.coinbase hcb).2 o ho)

/-- A transaction without a marker conserves the asset. -/
theorem CheckedInputs.conserved_unmarked {v : CoinsView} {nSpendHeight : Int} {tx : CTransaction}
    (h : CheckedInputs params a v nSpendHeight tx) (hmark : hasMarker asset.isMarker tx = false) :
    valueOf asset.isHolding (spentOutputs v tx) = valueOf asset.isHolding tx.vout := by
  cases asset with
  | usdsoq =>
    have hmark' : hasMarker isUSDSOQAuthorityMarker tx = false := hmark
    exact h.usdsoq (by rw [usdsoqExempt, hmark', Bool.and_false])
  | btcsoq =>
    have hmark' : hasMarker isBTCSOQAuthorityMarker tx = false := hmark
    exact h.btcsoq (by rw [btcsoqExempt, hmark', Bool.and_false])

/-- Along the block no holding of the asset gets a value. -/
theorem Accepted.worthless_prefix (h : Accepted env params idx io fJustCheck a view block fp p)
    (hview : view.Worthless asset.isHolding)
    (hmints : ∀ tx ∈ block.vtx, hasMarker asset.isMarker tx →
      Worthless asset.isHolding tx.vout)
    {pre post : List CTransaction} (hvtx : block.vtx = pre ++ post) :
    (blockView env idx.nHeight view pre).Worthless asset.isHolding := by
  refine (h.worthless_views hview ?_ pre post hvtx).2
  intro pre tx post hvtx hpre
  have hmem : tx ∈ block.vtx := by
    rw [hvtx]
    simp
  cases hcb : tx.isCoinBase with
  | true =>
    exact (h.checkedTransaction hvtx).coinbase_worthless hcb
  | false =>
    cases hmark : hasMarker asset.isMarker tx with
    | true => exact hmints tx hmem hmark
    | false => exact h.worthless_created hvtx hcb hpre fun hin => hin.conserved_unmarked hmark

/-- The first loop accepts the block without the asset, with script checks that all pass. -/
theorem Accepted.connectTxs_without
    (h : Accepted (env.node proofs) params idx io fJustCheck a view block fp p)
    (hview : view.Worthless asset.isHolding)
    (hnone : NeedsNoExemption (env.node proofs) params idx asset view block) :
    ∃ checks, connectTxs (env.node proofs) (params.without asset) idx
        (initAuthorities (params.without asset) idx a) io.scriptThreads view block.vtx =
          .ok { fp with checks := checks } ∧ checks.all (CScriptCheck.run (env.node proofs)) := by
  refine connectTxs_rerun h.validated.firstPass h.validated.scripts ?_ ?_ [] rfl
  · intro tx spent
    rw [blockFlags_without, getTransactionSigOpCost_without]
  · intro pre tx post chk hvtx hchk hrun
    cases hcb : tx.isCoinBase with
    | true =>
      rw [checkInputs, if_pos hcb]
      exact ⟨[], rfl, rfl⟩
    | false =>
      have hmem : tx ∈ block.vtx := by
        rw [hvtx]
        simp
      have htx := h.checkedTransaction hvtx
      refine checkInputs_without _ hcb htx.outputs ⟨chk, hchk, hrun⟩ ?_ (hnone.mints tx hmem)
        fun hfsc => hnone.scripts hfsc pre tx post hvtx hcb
      exact h.worthless_spent hvtx hcb (h.worthless_prefix hview hnone.mints hvtx)

/-- What the USDSOQ pass accepts it accepts before the deployment. -/
theorem usdsoqStage_without {v : CoinsView} {txs : List (CTransaction × Option CTxUndo)}
    {r : AssetPending} (asset : AssetId)
    (h : usdsoqStage env params idx fJustCheck (initAuthorities params idx a) v txs = .ok r) :
    ∃ r', usdsoqStage env (params.without asset) idx fJustCheck
      (initAuthorities (params.without asset) idx a) v txs = .ok r' := by
  cases asset with
  | usdsoq => exact ⟨AssetPending.nothing, rfl⟩
  | btcsoq => exact ⟨r, h⟩

/-- The same of the BTCSOQ pass. -/
theorem btcsoqStage_without {v : CoinsView} {txs : List (CTransaction × Option CTxUndo)}
    {r : AssetPending × List COutPoint} (asset : AssetId)
    (h : btcsoqStage env params idx fJustCheck (initAuthorities params idx a) v txs = .ok r) :
    ∃ r', btcsoqStage env (params.without asset) idx fJustCheck
      (initAuthorities (params.without asset) idx a) v txs = .ok r' := by
  cases asset with
  | usdsoq => exact ⟨r, h⟩
  | btcsoq => exact ⟨(AssetPending.nothing, []), rfl⟩

/-- The other rules do not read the deployment. -/
theorem RulesPassed.without (h : RulesPassed env params idx block fp) (asset : AssetId)
    (checks : List CScriptCheck) :
    RulesPassed env (params.without asset) idx block { fp with checks := checks } := by
  cases asset with
  | usdsoq =>
    exact ⟨h.coinbaseAmount, h.noV2Outputs, h.utxoCost, h.latticeFold, h.patCommitment⟩
  | btcsoq =>
    exact ⟨h.coinbaseAmount, h.noV2Outputs, h.utxoCost, h.latticeFold, h.patCommitment⟩

/-- All rules of the block pass without the asset. -/
theorem validateBlock_without
    (h : Accepted (env.node proofs) params idx io fJustCheck a view block fp p)
    (hrules : RulesPassed (env.node proofs) params idx block fp)
    (hview : view.Worthless asset.isHolding)
    (hnone : NeedsNoExemption (env.node proofs) params idx asset view block) :
    ∃ p', validateBlock (env.node proofs) (params.without asset) idx io fJustCheck
      (initAuthorities (params.without asset) idx a) view block = .ok p' := by
  obtain ⟨checks, hpass, hrun⟩ := h.connectTxs_without hview hnone
  obtain ⟨usdsoq, husd⟩ := usdsoqStage_without asset h.validated.usdsoq
  obtain ⟨⟨btcsoq, minted⟩, hbtc⟩ := btcsoqStage_without asset h.validated.btcsoq
  refine ⟨⟨fp.view, fp.undos.tail, usdsoq, btcsoq, minted⟩, validateBlock_eq_ok.mpr
    ⟨{ fp with checks := checks }, ⟨hpass, husd, hbtc, hrun, rfl, rfl⟩,
      hrules.without asset checks⟩⟩

/-- A block accepted before the deployment uses no exemption. -/
theorem Accepted.needsNoExemption
    (h : Accepted env (params.without asset) idx io fJustCheck a view block fp p)
    (hview : view.Worthless asset.isHolding) :
    NeedsNoExemption env params idx asset view block where
  mints tx htx _ := (h.worthless_block (conservedAt_without asset) hview).1 tx htx
  scripts hfsc pre tx post hvtx hcb hshape := by
    obtain ⟨-, -, hall⟩ := (h.inputs_passed hvtx hcb).2 hfsc
    rw [blockFlags_without] at hall
    exact List.all_eq_true.mp
      (hall (skipsScripts_of_isAuthorityShape (h.checkedTransaction hvtx) hshape))

/-- On a view without value of the asset, a block accepted with the deployment is
    accepted without it exactly when it uses neither exemption. -/
theorem connectBlock_without_iff (hview : view.Worthless asset.isHolding)
    (haccept : (connectBlock (env.node proofs) params idx io fJustCheck a view block).verdict =
      .ok ()) :
    (connectBlock (env.node proofs) (params.without asset) idx io fJustCheck a view
        block).verdict = .ok () ↔
      isGenesis (env.node proofs) params block ∨
        NeedsNoExemption (env.node proofs) params idx asset view block := by
  by_cases hgen : isGenesis (env.node proofs) params block
  · refine iff_of_true ?_ (Or.inl hgen)
    -- the genesis block is accepted before the deployments are looked at
    have hgen' : isGenesis (env.node proofs) (params.without asset) block := hgen
    rw [isGenesis] at hgen hgen'
    simp only [connectBlock, hgen, if_true] at haccept
    simp only [connectBlock, hgen', if_true]
    exact haccept
  · have hgen' : ¬ isGenesis (env.node proofs) (params.without asset) block := hgen
    rw [or_iff_right hgen]
    constructor
    · intro hdormant
      obtain ⟨fp, p, hacc⟩ := connectBlock_accepted hdormant hgen'
      exact hacc.needsNoExemption hview
    · intro hnone
      obtain ⟨hadm, ⟨p, hp⟩, hio⟩ := (connectBlock_verdict_iff hgen).mp haccept
      obtain ⟨fp, hacc, hrules⟩ := accepted_of_validated hadm hp hio
      refine (connectBlock_verdict_iff hgen').mpr
        ⟨?_, validateBlock_without hacc hrules hview hnone,
        hio⟩
      exact ⟨hgen', hadm.checked, hadm.bestBlock, hadm.bip30⟩

end Blocks

/-! ## Runs -/

section Runs

variable {env : Env} {params : CChainParams} {kind : CTxOut → Bool}

theorem CoinStack.worthless_iff {chain : List Entry} {v : CoinsView} (h : CoinStack env chain v) :
    v.Worthless kind ↔ (chainView env chain).Worthless kind := by
  rw [h.view_eq]
  exact Iff.rfl

/-- The chain and every chain it was before hold no value of the kind; so
    disconnecting a block does not bring any back. -/
theorem worthless_step {n n' : Node} (h : Step env params n n')
    (hrules : ∀ idx, ConservedAt params idx kind) (hstack : CoinStack env n.chain n.view)
    (hn : ∀ rest, rest <:+ n.chain → (chainView env rest).Worthless kind) :
    ∀ rest, rest <:+ n'.chain → (chainView env rest).Worthless kind := by
  have hstack' := coinStack_step h hstack
  intro rest hrest
  cases h with
  | connect idx io block height notGenesis accepted =>
    rcases List.suffix_cons_iff.mp hrest with rfl | hrest
    · obtain ⟨fp, p, hacc⟩ := connectBlock_accepted accepted notGenesis
      have hview := hstack.worthless_iff.mpr (hn n.chain (List.suffix_refl _))
      rw [← hstack'.worthless_iff, hacc.view_eq, if_neg Bool.false_ne_true]
      exact (hacc.worthless_block (hrules idx) hview).2
    · exact hn rest hrest
  | disconnect e below tip clean =>
    refine hn rest ?_
    rw [tip]
    exact hrest.trans (List.suffix_cons e below)

/-- Where the rules conserve an asset from the start, no output of it is worth anything. -/
theorem Reachable.worthless {n : Node} (h : Reachable env params n)
    (hrules : ∀ idx, ConservedAt params idx kind) : n.view.Worthless kind := by
  have hboth := h.invariant (P := fun n => CoinStack env n.chain n.view ∧
      ∀ rest, rest <:+ n.chain → (chainView env rest).Worthless kind) (fun n hn => ?_)
    fun n n' hstep hn => ⟨coinStack_step hstep hn.1, worthless_step hstep hrules hn.1 hn.2⟩
  · exact hboth.1.worthless_iff.mpr (hboth.2 n.chain (List.suffix_refl _))
  · obtain ⟨hash, hview⟩ := hn.view
    rw [hn.chain, hview]
    refine ⟨.nil hash, fun rest hrest o out hout => ?_⟩
    rw [List.suffix_nil.mp hrest] at hout
    cases hout

end Runs

/-- The parameters of a chain on which neither asset is scheduled. -/
def CChainParams.dormant (params : CChainParams) : CChainParams :=
  (params.without .usdsoq).without .btcsoq

theorem conservedAt_dormant (params : CChainParams) (idx : CBlockIndex) (asset : AssetId) :
    ConservedAt params.dormant idx asset.isHolding := by
  cases asset with
  | usdsoq => exact usdsoq_conservedAt rfl
  | btcsoq => exact btcsoq_conservedAt rfl

/-- **Activation is a soft fork up to its two exemptions.**  On every state reached with both
    assets dormant, a block accepted with the deployment of an asset is accepted without it
    exactly when it is the genesis block or uses neither of the exemptions the deployment grants:
    no transaction with the authority marker creates a holding with value, and where scripts are
    checked, every input of a transaction with the authority shape passes its script without the
    deployment's flag. -/
theorem activation_soft_fork_iff (env : Env) (proofs : ProofVerifiers) (params : CChainParams)
    (asset : AssetId) (n : Node) (hreach : Reachable (env.node proofs) params.dormant n)
    (idx : CBlockIndex) (io : NodeIO) (fJustCheck : Bool) (block : CBlock)
    (haccept : (connectBlock (env.node proofs) params idx io fJustCheck n.assets n.view
      block).verdict = .ok ()) :
    (connectBlock (env.node proofs) (params.without asset) idx io fJustCheck n.assets n.view
        block).verdict = .ok () ↔
      isGenesis (env.node proofs) params block ∨
        NeedsNoExemption (env.node proofs) params idx asset n.view block :=
  connectBlock_without_iff (hreach.worthless fun idx => conservedAt_dormant params idx asset)
    haccept

namespace Sample

/-- The sample node with the interpreter and the sigop counts of the source. -/
def nodeEnv : Env := (env sameByte).node crypto.toProofVerifiers

/-- A signed payment to a script of the USDSOQ marker's form, by someone without authority. -/
def markerPayment : CBlock :=
  block 2 [transaction 10 [spend 1 [List.replicate 2421 0, keyItem]] [pay OP_5 0]]

/-- A chain with that payment in it, where the asset is not active. -/
def dormantTip : Node :=
  (startNode.connected nodeEnv params.dormant (index 1) io (block 1 [])).connected nodeEnv
    params.dormant (index 2) io markerPayment

theorem dormantTip_reachable : Reachable nodeEnv params.dormant dormantTip := by
  have hgen : ∀ b, ¬ isGenesis nodeEnv params.dormant b := by
    intro b
    show Uint256.fill 1 ≠ Uint256.null
    decide
  have hstart : Reachable nodeEnv params.dormant startNode := ⟨startNode, startNode_start, .refl⟩
  have hfirst := hstart.connected (index 1) io (block 1 []) rfl (hgen _) (by decide +kernel)
  exact hfirst.connected (index 2) io markerPayment rfl (hgen _) (by decide +kernel)

/-- An authority transaction signed by both keys, that moves the marker and has
    some other outputs. -/
def authorityBlock (vout : List CTxOut) : CBlock :=
  block 3 [transaction 11 [spend 10 (authorityWitness 0x55 [1, 2])] (pay OP_5 0 :: vout)]

end Sample

open Sample in
/-- A move of the marker alone uses no exemption. -/
theorem activation_soft_fork_move :
    (connectBlock nodeEnv params (index 3) io false dormantTip.assets dormantTip.view
        (authorityBlock [])).verdict = .ok () ∧
      NeedsNoExemption nodeEnv params (index 3) .usdsoq dormantTip.view (authorityBlock []) := by
  have haccept : (connectBlock nodeEnv params (index 3) io false dormantTip.assets dormantTip.view
      (authorityBlock [])).verdict = .ok () := by decide +kernel
  have hgen : ¬ isGenesis nodeEnv params (authorityBlock []) := by
    show Uint256.fill 1 ≠ Uint256.null
    decide
  refine ⟨haccept, Or.resolve_left ?_ hgen⟩
  exact (activation_soft_fork_iff (Sample.env sameByte) crypto.toProofVerifiers params .usdsoq
    dormantTip dormantTip_reachable (index 3) io false (authorityBlock []) haccept).mp
      (by decide +kernel)

open Sample in
/-- A mint is accepted with the deployment and rejected without it. -/
theorem activation_accepts_mint :
    Reachable nodeEnv params.dormant dormantTip ∧
      (blockFlags params (index 3)).usdsoq = true ∧
      (initAuthorities params (index 3) dormantTip.assets).usdsoq.authority.isInitialized = true ∧
      (connectBlock nodeEnv params (index 3) io false dormantTip.assets dormantTip.view
        (authorityBlock [pay OP_7 5])).verdict = .ok () ∧
      (connectBlock nodeEnv (params.without .usdsoq) (index 3) io false dormantTip.assets
        dormantTip.view (authorityBlock [pay OP_7 5])).verdict =
          .error (.dos 100 "bad-txns-in-belowout") :=
  ⟨dormantTip_reachable, by decide, by decide +kernel, by decide +kernel, by decide +kernel⟩

end Soqucoin
