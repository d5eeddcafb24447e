import Soqucoin.AuthenticationProofs
import Soqucoin.MempoolProofs

/-! # Mempool acceptance against the BTCSOQ rules of the next block

The BTCSOQ mirror repeats the rules of `ConnectBlock` for the authority input, its signatures,
MINT and BURN.  It has no rule for the target of a FREEZE and none for the supply counters, and
these are the only two ways in which the next block can refuse a transaction that the pool has
accepted (`mempool_btcsoq_block_valid_iff`). -/

namespace Soqucoin

open CheckedLoop Toggle

variable {nIn nOut : Nat} {undo : CTxUndo} {scriptCode : CScript} {tag : UInt8} {payload : Bytes}
  {dbMinted : Finset COutPoint} {c : AssetCtx}

section Acceptance

variable {env : Env} {params : CChainParams} {idx : CBlockIndex} {policy : MempoolPolicy}
variable {a : Assets} {view : CoinsView} {tx coinbase : CTransaction} {fJustCheck : Bool}

/-! ## What the mirror has checked -/

/-- What an accepted authority transaction has shown. -/
structure BTCSOQMirrored (env : Env) (a : Assets) (view : CoinsView) (tx : CTransaction)
    (tag : UInt8) (payload : Bytes) (nIn : Nat) (scriptCode : CScript) : Prop where
  initialized : a.btcsoq.authority.isInitialized = true
  bootstrap : a.btcsoq.authorityOutpoint.isNull = true →
    (a.btcsoq.dbAuthorityOutpoint.getD COutPoint.null).isNull = true
  parsed : parseBTCSOQAuthorityOp tx = some (tag, payload)
  transparent : (tx.vout.all fun o => !o.isConfidential) = true
  mintBound : (!(decide (0 < sumOf CTxOut.isBTCSOQ tx.vout) && decide (tag ≠ BTCSOQ_OP_MINT))) =
    true
  burnBound : (!(decide (0 < sumOf CTxOut.isBTCSOQ (spentOutputs view tx)) &&
    decide (tag ≠ BTCSOQ_OP_BURN))) = true
  operation : btcsoqOperationMirror env a.dbMinted tx
    (sumOf CTxOut.isBTCSOQ (spentOutputs view tx)) tag payload = .ok ()
  input : btcsoqMirrorInput env a.btcsoq view tx = some (nIn, scriptCode)
  witness : (!(tx.vin.getD nIn default).scriptWitness.isEmpty) = true
  tag : decide (getBTCSOQWitnessTag (tx.vin.getD nIn default).scriptWitness = tag) = true
  signed : checkAuthoritySigs env "bad-btcsoq-authority-sig" a.btcsoq.authority tx nIn scriptCode =
    .ok ()

/-- What the mirror has tested of an authority transaction. -/
theorem MempoolAccepted.btcsoqMirrored (h : MempoolAccepted env params idx a view tx)
    (hactive : (blockFlags params idx).btcsoq) (hmark : hasMarker isBTCSOQAuthorityMarker tx) :
    ∃ tag payload nIn scriptCode, BTCSOQMirrored env a view tx tag payload nIn scriptCode := by
  have hm := skipIf_eq_ok.mp h.btcsoq (by rw [hmark, hactive]; rfl)
  obtain ⟨hinit, hm⟩ := require_bind_eq_ok.mp hm
  replace hm := after_require hm
  obtain ⟨hdb, hm⟩ := require_bind_eq_ok.mp hm
  cases hparse : parseBTCSOQAuthorityOp tx with
  | none =>
    rw [hparse] at hm
    cases hm
  | some op =>
    obtain ⟨tag, payload⟩ := op
    simp only [hparse, h.availableOutputs_eq] at hm
    obtain ⟨htransparent, hm⟩ := require_bind_eq_ok.mp hm
    obtain ⟨hmint, hm⟩ := require_bind_eq_ok.mp hm
    obtain ⟨hburn, hm⟩ := require_bind_eq_ok.mp hm
    obtain ⟨_, hop, hm⟩ := bind_eq_ok.mp hm
    rw [btcsoqSigMirror] at hm
    cases hinput : btcsoqMirrorInput env a.btcsoq view tx with
    | none =>
      rw [hinput] at hm
      cases hm
    | some found =>
      obtain ⟨nIn, scriptCode⟩ := found
      simp only [hinput] at hm
      obtain ⟨hwit, hm⟩ := require_bind_eq_ok.mp hm
      obtain ⟨htag, hsigs⟩ := require_bind_eq_ok.mp hm
      rw [Bool.and_eq_true] at hwit
      refine ⟨tag, payload, nIn, scriptCode, hinit, fun hnull => ?_, hparse, htransparent, hmint,
        hburn, hop, hinput, hwit.2, htag, hsigs⟩
      simpa [hnull] using hdb

/-! ## The authority input -/

/-- The script of the first marker is that of the output the index names. -/
theorem markerScript_eq {isMarker : CScript → Bool}
    (hnOut : authorityOutputIndex isMarker tx = some nOut) :
    ((tx.vout.find? fun o => isMarker o.scriptPubKey).map CTxOut.scriptPubKey).getD [] =
      (tx.vout.getD nOut default).scriptPubKey := by
  rw [authorityOutputIndex] at hnOut
  obtain ⟨hlt, hp, hfirst⟩ := List.findIdx?_eq_some_iff_getElem.mp hnOut
  have hfound : tx.vout.find? (fun o => isMarker o.scriptPubKey) = some tx.vout[nOut] :=
    List.find?_eq_some_iff_getElem.mpr ⟨hp, nOut, hlt, rfl, fun j hj => by simpa using hfirst j hj⟩
  rw [hfound, List.getD_eq_getElem?_getD, List.getElem?_eq_getElem hlt]
  rfl

/-- The undo data of an input has the output it spends. -/
theorem undo_of_input {txin : CTxIn} (hundo : undoPrevouts tx (some undo) = view.spentBy tx)
    (hin : tx.vin[nIn]? = some txin) :
    ∃ u, undo[nIn]? = some u ∧ u.txout = (view.output txin.prevout).getD default := by
  have hat := congrArg (fun l => l[nIn]?) hundo
  simp only [undoPrevouts, Option.getD_some, List.getElem?_map, hin, Option.map_some,
    Option.map_eq_some_iff] at hat
  obtain ⟨⟨txin', u⟩, hz, hpair⟩ := hat
  obtain ⟨-, hu⟩ := List.getElem?_zip_eq_some.mp hz
  exact ⟨u, hu, (Prod.mk.inj hpair).2⟩

/-- The block finds the authority input that the mirror has found: the coin of
    the tracked marker is spent by then and its script is in the undo data. -/
theorem MempoolAccepted.btcsoqAuthorityInput_eq (h : MempoolAccepted env params idx a view tx)
    (hnOut : authorityOutputIndex isBTCSOQAuthorityMarker tx = some nOut)
    (hundo : undoPrevouts tx (some undo) = view.spentBy tx)
    (hm : BTCSOQMirrored env a view tx tag payload nIn scriptCode) :
    btcsoqAuthorityInput (nextCtx env params idx fJustCheck view coinbase tx a.btcsoq)
      (AssetPass.start a.btcsoq.authorityOutpoint) tx (some undo) nOut = .ok (nIn, scriptCode) := by
  have hinput := hm.input
  rw [btcsoqMirrorInput] at hinput
  rw [btcsoqAuthorityInput]
  show (if a.btcsoq.authorityOutpoint.isNull then _ else _) = _
  by_cases hnull : a.btcsoq.authorityOutpoint.isNull = true
  · rw [if_pos hnull, markerScript_eq hnOut] at hinput
    rw [if_pos hnull]
    exact require_bind_eq_ok.mpr ⟨hm.bootstrap hnull, congrArg Except.ok (Option.some.inj hinput)⟩
  · rw [if_neg hnull] at hinput
    rw [if_neg hnull]
    obtain ⟨k, hfind, hpair⟩ := Option.map_eq_some_iff.mp hinput
    obtain ⟨hlt, htracked, -⟩ := List.findIdx?_eq_some_iff_getElem.mp hfind
    have hprev : tx.vin[k].prevout = a.btcsoq.authorityOutpoint := of_decide_eq_true htracked
    have hmem : a.btcsoq.authorityOutpoint ∈ tx.vin.map CTxIn.prevout :=
      List.mem_map.mpr ⟨tx.vin[k], List.getElem_mem hlt, hprev⟩
    obtain ⟨out, hout⟩ := h.output_of_input hmem
    obtain ⟨u, hu, htxout⟩ := undo_of_input hundo (List.getElem?_eq_getElem hlt)
    rw [hprev, hout, Option.getD_some] at htxout
    simp only [hout] at hpair
    have hfound : tx.vin.findIdx? (fun txin =>
        txin.prevout = (AssetPass.start a.btcsoq.authorityOutpoint).localAuthOutpoint) = some k :=
      hfind
    have hgone : (nextCtx env params idx fJustCheck view coinbase tx a.btcsoq).view.output
        (AssetPass.start a.btcsoq.authorityOutpoint).localAuthOutpoint = none :=
      h.nextView_input hmem
    simp only [hfound, hgone, Option.getD_some, hu, htxout]
    exact congrArg Except.ok hpair

/-! ## The operation -/

/-- The FREEZE operation of an authority transaction, if it has one, can be read and applies. -/
def BTCSOQFreezeReady (env : Env) (s : AssetState) (view : CoinsView) (tx : CTransaction) : Prop :=
  ∀ payload, parseBTCSOQAuthorityOp tx = some (BTCSOQ_OP_FREEZE, payload) →
    ∃ op, parseFreezePayload payload = some op ∧
      FreezeApplies env view CTxOut.isBTCSOQ s.dbFrozen tx op

/-- The pass before the transaction. -/
def btcsoqStart (s : AssetState) : BTCSOQPass :=
  { AssetPass.start s.authorityOutpoint with mintedDeposits := [] }

/-- A mint that passes the mirror passes in a block. -/
theorem btcsoqMint_of_mirror {s : AssetState}
    (h : btcsoqMintMirror env dbMinted tx payload = .ok ()) :
    ∃ t, btcsoqMint env dbMinted (btcsoqStart s) tx payload = .ok t := by
  rw [btcsoqMintMirror] at h
  rw [btcsoqMint]
  cases hparse : parseBTCSOQMintPayload payload with
  | none =>
    rw [hparse] at h
    cases h
  | some mint =>
    simp only [hparse] at h ⊢
    cases houts : tx.vout.filter CTxOut.isBTCSOQ with
    | nil =>
      rw [houts] at h
      cases h
    | cons o rest =>
      cases rest with
      | cons o' rest =>
        rw [houts] at h
        cases h
      | nil =>
        simp only [houts] at h ⊢
        obtain ⟨hamount, h⟩ := require_bind_eq_ok.mp h
        obtain ⟨hrecipient, hdeposit⟩ := require_bind_eq_ok.mp h
        have hfresh : (!(decide (mint.deposit ∈ (btcsoqStart s).mintedDeposits) ||
            decide (mint.deposit ∈ dbMinted))) = true := by
          simpa [btcsoqStart] using require_eq_ok.mp hdeposit
        exact ⟨_, require_bind_eq_ok.mpr ⟨hamount, require_bind_eq_ok.mpr ⟨hrecipient,
          require_bind_eq_ok.mpr ⟨hfresh, rfl⟩⟩⟩⟩

/-- A freeze passes exactly if its payload parses and the operation its check. -/
theorem btcsoqFreeze_iff {s : BTCSOQPass} :
    (∃ t, btcsoqFreeze c s payload = .ok t) ↔
      ∃ op, parseFreezePayload payload = some op ∧
        checkFreezeOp CTxOut.isBTCSOQ "bad-btcsoq-freeze-dead-target"
          "bad-btcsoq-freeze-redundant" "bad-btcsoq-unfreeze-redundant" c s.frozen op = .ok () := by
  rw [btcsoqFreeze]
  cases hparse : parseFreezePayload payload with
  | none =>
    constructor
    · rintro ⟨t, ht⟩
      cases ht
    · rintro ⟨op, hop, -⟩
      cases hop
  | some op =>
    constructor
    · rintro ⟨t, ht⟩
      obtain ⟨_, hcheck, -⟩ := bind_eq_ok.mp ht
      exact ⟨op, rfl, hcheck⟩
    · rintro ⟨op', hop, hcheck⟩
      obtain rfl := Option.some.inj hop
      exact ⟨_, bind_eq_ok.mpr ⟨(), hcheck, rfl⟩⟩

/-- Of a mirrored operation a block asks one thing more, and only of a freeze. -/
theorem MempoolAccepted.btcsoqOperation_iff (h : MempoolAccepted env params idx a view tx)
    (hcb : NextCoinbase env view tx coinbase)
    (hm : BTCSOQMirrored env a view tx tag payload nIn scriptCode) :
    (∃ t, btcsoqOperation env (nextCtx env params idx fJustCheck view coinbase tx a.btcsoq)
        a.dbMinted (btcsoqStart a.btcsoq) tx (sumOf CTxOut.isBTCSOQ (spentOutputs view tx)) tag
        payload = .ok t) ↔ BTCSOQFreezeReady env a.btcsoq view tx := by
  have hop := hm.operation
  rw [btcsoqOperationMirror] at hop
  rw [btcsoqOperation, BTCSOQFreezeReady, hm.parsed]
  by_cases hmint : tag = BTCSOQ_OP_MINT
  · rw [if_pos hmint] at hop ⊢
    refine iff_of_true (btcsoqMint_of_mirror hop) fun payload' hparse => ?_
    rw [hmint] at hparse
    exact absurd (Prod.mk.inj (Option.some.inj hparse)).1 (by decide)
  · rw [if_neg hmint] at hop ⊢
    by_cases hburn : tag = BTCSOQ_OP_BURN
    · rw [if_pos hburn] at hop ⊢
      refine iff_of_true ⟨_, bind_eq_ok.mpr ⟨(), hop, rfl⟩⟩ fun payload' hparse => ?_
      rw [hburn] at hparse
      exact absurd (Prod.mk.inj (Option.some.inj hparse)).1 (by decide)
    · rw [if_neg hburn]
      by_cases hfreeze : tag = BTCSOQ_OP_FREEZE
      · have hnone := (checkTransaction_coinbase hcb.isCoinBase hcb.checked).2
        rw [if_pos hfreeze, hfreeze, btcsoqFreeze_iff]
        constructor
        · rintro ⟨op, hop, hcheck⟩ payload' hparse
          obtain ⟨-, rfl⟩ := Prod.mk.inj (Option.some.inj hparse)
          exact ⟨op, hop, (h.checkFreezeOp_iff hcb hnone).mp hcheck⟩
        · intro hready
          obtain ⟨op, hop, happlies⟩ := hready payload rfl
          exact ⟨op, hop, (h.checkFreezeOp_iff hcb hnone).mpr happlies⟩
      · rw [if_neg hfreeze]
        refine iff_of_true ⟨_, rfl⟩ fun payload' hparse => ?_
        exact absurd (Prod.mk.inj (Option.some.inj hparse)).1 hfreeze

/-! ## The BTCSOQ pass over the next block -/

namespace MempoolAccepted

/-- The same for the whole authority check. -/
theorem btcsoqStrict_iff (h : MempoolAccepted env params idx a view tx)
    (hcb : NextCoinbase env view tx coinbase)
    (hm : BTCSOQMirrored env a view tx tag payload nIn scriptCode)
    (hnOut : authorityOutputIndex isBTCSOQAuthorityMarker tx = some nOut)
    (hundo : undoPrevouts tx (some undo) = view.spentBy tx) :
    (∃ t, btcsoqStrict env (nextCtx env params idx fJustCheck view coinbase tx a.btcsoq) a.dbMinted
        (btcsoqStart a.btcsoq) tx (some undo) nOut (sumOf CTxOut.isBTCSOQ tx.vout)
        (sumOf CTxOut.isBTCSOQ (spentOutputs view tx)) = .ok t) ↔
      BTCSOQFreezeReady env a.btcsoq view tx := by
  have hinput : btcsoqAuthorityInput (nextCtx env params idx fJustCheck view coinbase tx a.btcsoq)
      (btcsoqStart a.btcsoq).toAssetPass tx (some undo) nOut = .ok (nIn, scriptCode) :=
    h.btcsoqAuthorityInput_eq hnOut hundo hm
  rw [← h.btcsoqOperation_iff hcb hm, btcsoqStrict, hm.parsed]
  constructor
  · rintro ⟨t, ht⟩
    replace ht := after_require ht
    replace ht := after_require ht
    obtain ⟨_, -, ht⟩ := bind_eq_ok.mp ht
    replace ht := after_require ht
    replace ht := after_require ht
    obtain ⟨_, -, ht⟩ := bind_eq_ok.mp ht
    obtain ⟨s, hs, -⟩ := bind_eq_ok.mp ht
    exact ⟨s, hs⟩
  · rintro ⟨s, hs⟩
    exact ⟨_, require_bind_eq_ok.mpr ⟨hm.mintBound, require_bind_eq_ok.mpr ⟨hm.burnBound,
      bind_eq_ok.mpr ⟨_, hinput, require_bind_eq_ok.mpr ⟨hm.witness, require_bind_eq_ok.mpr
        ⟨hm.tag, bind_eq_ok.mpr ⟨(), hm.signed, bind_eq_ok.mpr ⟨s, hs, rfl⟩⟩⟩⟩⟩⟩⟩⟩

/-- What the mempool lets a transaction spend, a block does. -/
theorem btcsoqSpendGuard_ok (h : MempoolAccepted env params idx a view tx)
    (hactive : (blockFlags params idx).btcsoq) (hdb : c.asset.dbFrozen = a.btcsoq.dbFrozen)
    {o : COutPoint} {p : COutPoint × CTxOut} (hp : p ∈ view.spentBy tx) :
    btcsoqSpendGuard c (AssetPass.start o) (hasMarker isBTCSOQAuthorityMarker tx) p = .ok () := by
  have hmarker : (!(isBTCSOQAuthorityMarker p.2.scriptPubKey &&
      !hasMarker isBTCSOQAuthorityMarker tx)) = true := by
    cases hmark : hasMarker isBTCSOQAuthorityMarker tx with
    | true => simp
    | false =>
      obtain ⟨hall, -⟩ := require_bind_eq_ok.mp (skipIf_eq_ok.mp h.btcsoqTransfer hmark)
      rw [hactive, Bool.not_true, Bool.false_or, h.availableOutputs_eq, List.all_eq_true] at hall
      obtain ⟨txin, htxin, rfl⟩ := List.mem_map.mp hp
      simpa using hall _ (List.mem_map_of_mem htxin)
  refine require_bind_eq_ok.mpr ⟨hmarker, require_eq_ok.mpr ?_⟩
  rw [Bool.not_eq_true', Bool.and_eq_false_imp]
  intro hhold
  rw [isFrozenNow_eq, hdb, AssetPass.start, Overlay.current_empty,
    decide_eq_false ((h.frozenMirror_of_mem hp).2 hhold)]

end MempoolAccepted

/-- What `ConnectBlock` checks of BTCSOQ in a block of a coinbase and one transaction. -/
def btcsoqBlockRules (env : Env) (params : CChainParams) (idx : CBlockIndex) (fJustCheck : Bool)
    (a : Assets) (view : CoinsView) (coinbase tx : CTransaction) : Check Unit := do
  let a := initAuthorities params idx a
  let (view, _) ← updateCoins env view coinbase idx.nHeight
  let (view, undo) ← updateCoins env view tx idx.nHeight
  let _ ← btcsoqStage env params idx fJustCheck a view (withUndo [coinbase, tx] [undo])
  .ok ()

/-- A block of a coinbase and one transaction that `ConnectBlock` accepts passes both: what the
    two functions refuse, the whole function refuses. -/
theorem blockRules_of_connectBlock {io : NodeIO} {block : CBlock}
    (h : (connectBlock env params idx io fJustCheck a view block).verdict = .ok ())
    (hgen : ¬ isGenesis env params block) (hvtx : block.vtx = [coinbase, tx])
    (hcb : tx.isCoinBase = false) :
    usdsoqBlockRules env params idx fJustCheck a view coinbase tx = .ok () ∧
      btcsoqBlockRules env params idx fJustCheck a view coinbase tx = .ok () := by
  obtain ⟨fp, p, hacc⟩ := connectBlock_accepted h hgen
  obtain ⟨v, u₀, u, hfirst, hinputs, hsecond, hundo⟩ := hacc.pair hvtx hcb
  have husd := hacc.validated.usdsoq
  have hbtc := hacc.validated.btcsoq
  rw [hvtx, hundo] at husd hbtc
  constructor
  · exact bind_eq_ok.mpr ⟨_, hfirst, bind_eq_ok.mpr ⟨(), hinputs, bind_eq_ok.mpr ⟨_, hsecond,
      bind_eq_ok.mpr ⟨_, husd, rfl⟩⟩⟩⟩
  · exact bind_eq_ok.mpr ⟨_, hfirst, bind_eq_ok.mpr ⟨_, hsecond, bind_eq_ok.mpr ⟨_, hbtc, rfl⟩⟩⟩

/-- What the next block asks of an authority transaction and the mempool does not. -/
def BTCSOQReady (env : Env) (params : CChainParams) (idx : CBlockIndex) (s : AssetState)
    (view : CoinsView) (tx : CTransaction) : Prop :=
  hasMarker isBTCSOQAuthorityMarker tx = true →
    ((params.getConsensus idx.nHeight).nBTCSOQAuthorityEnforcementHeight ≤ idx.nHeight →
      BTCSOQFreezeReady env s view tx) ∧
    s.supply.Absorbs (sumOf CTxOut.isBTCSOQ tx.vout)
      (sumOf CTxOut.isBTCSOQ (spentOutputs view tx))

theorem wrap64_sumOf (p : CTxOut → Bool) (outs : List CTxOut) :
    wrap64 (0 + sumOf p outs) = sumOf p outs := by
  rw [Int.zero_add, sumOf, sumAmounts, SignedWord.accumulate_zero]
  exact SignedWord.wrap_of_fits SignedWord.wrap_fits

/-- The pass over a coinbase and one transaction. -/
theorem btcsoqPass_pair (hcb : coinbase.isCoinBase) :
    (∃ r, btcsoqPass env c dbMinted (withUndo [coinbase, tx] [undo]) = .ok r) ↔
      ∃ s, btcsoqTx env c dbMinted (btcsoqStart c.asset) (tx, some undo) = .ok s ∧
        c.asset.supply.Absorbs s.nMinted s.nBurned := by
  have hskip : btcsoqTx env c dbMinted (btcsoqStart c.asset) (coinbase, none) =
      .ok (btcsoqStart c.asset) := by
    rw [btcsoqTx]
    simp only [hcb, if_true]
  have hloop := foldlM_pair (y := (tx, some undo)) hskip
  constructor
  · rintro ⟨r, h⟩
    obtain ⟨s, hs, h⟩ := bind_eq_ok.mp h
    obtain ⟨supply, hsupply, -⟩ := bind_eq_ok.mp h
    exact ⟨s, hloop.symm.trans hs, applySupplyDelta_iff.mp ⟨supply, hsupply⟩⟩
  · rintro ⟨s, hs, hsupply⟩
    obtain ⟨supply, hsupply⟩ := applySupplyDelta_iff.mpr hsupply
    exact ⟨_, bind_eq_ok.mpr ⟨s, hloop.trans hs, bind_eq_ok.mpr ⟨supply, hsupply, rfl⟩⟩⟩

/-- The authority check leaves the sums alone. -/
theorem btcsoqAuthorityStep_totals {s t : BTCSOQPass} {txundo : Option CTxUndo}
    (hnOut : authorityOutputIndex isBTCSOQAuthorityMarker tx = some nOut)
    (h : btcsoqAuthorityStep env c dbMinted s tx txundo nOut (sumOf CTxOut.isBTCSOQ tx.vout)
      (sumOf CTxOut.isBTCSOQ ((undoPrevouts tx txundo).map Prod.snd)) = .ok t) :
    t.nMinted = s.nMinted ∧ t.nBurned = s.nBurned := by
  rw [btcsoqAuthorityStep] at h
  by_cases henforced : c.nHeight < c.consensus.nBTCSOQAuthorityEnforcementHeight
  · rw [if_pos henforced] at h
    obtain rfl := Except.ok.inj h
    exact ⟨rfl, rfl⟩
  · rw [if_neg henforced] at h
    exact (btcsoqStrict_turn hnOut h).2

namespace MempoolAccepted

variable (fJustCheck) in
/-- Below the enforcement height the block checks nothing of the operation. -/
theorem btcsoqAuthorityStep_iff (h : MempoolAccepted env params idx a view tx)
    (hcb : NextCoinbase env view tx coinbase)
    (hm : BTCSOQMirrored env a view tx tag payload nIn scriptCode)
    (hnOut : authorityOutputIndex isBTCSOQAuthorityMarker tx = some nOut)
    (hundo : undoPrevouts tx (some undo) = view.spentBy tx) :
    (∃ t, btcsoqAuthorityStep env (nextCtx env params idx fJustCheck view coinbase tx a.btcsoq)
        a.dbMinted (btcsoqStart a.btcsoq) tx (some undo) nOut (sumOf CTxOut.isBTCSOQ tx.vout)
        (sumOf CTxOut.isBTCSOQ (spentOutputs view tx)) = .ok t) ↔
      ((params.getConsensus idx.nHeight).nBTCSOQAuthorityEnforcementHeight ≤ idx.nHeight →
        BTCSOQFreezeReady env a.btcsoq view tx) := by
  rw [btcsoqAuthorityStep]
  by_cases henforced : (nextCtx env params idx fJustCheck view coinbase tx a.btcsoq).nHeight <
      (nextCtx env params idx fJustCheck view coinbase tx
        a.btcsoq).consensus.nBTCSOQAuthorityEnforcementHeight
  · rw [if_pos henforced]
    exact iff_of_true ⟨_, rfl⟩ fun hle => absurd henforced (not_lt.mpr hle)
  · rw [if_neg henforced, h.btcsoqStrict_iff hcb hm hnOut hundo]
    exact ⟨fun hready _ => hready, fun hready => hready (not_lt.mp henforced)⟩

/-- The turn of an authority transaction succeeds exactly if it is ready. -/
theorem btcsoqTx_marked_iff (h : MempoolAccepted env params idx a view tx)
    (hcb : NextCoinbase env view tx coinbase) (hactive : (blockFlags params idx).btcsoq)
    (hmark : hasMarker isBTCSOQAuthorityMarker tx)
    (hundo : undoPrevouts tx (some undo) = view.spentBy tx) :
    (∃ s, btcsoqTx env (nextCtx env params idx fJustCheck view coinbase tx a.btcsoq) a.dbMinted
        (btcsoqStart a.btcsoq) (tx, some undo) = .ok s ∧
        a.btcsoq.supply.Absorbs s.nMinted s.nBurned) ↔
      BTCSOQReady env params idx a.btcsoq view tx := by
  obtain ⟨nOut, hnOut⟩ := hasMarker_iff.mp hmark
  obtain ⟨tag, payload, nIn, scriptCode, hm⟩ := h.btcsoqMirrored hactive hmark
  have hspent : (undoPrevouts tx (some undo)).map Prod.snd = spentOutputs view tx := by
    rw [hundo, List.map_map]
    rfl
  have hstep := h.btcsoqAuthorityStep_iff fJustCheck hcb hm hnOut hundo
  rw [← hspent] at hstep
  rw [BTCSOQReady, btcsoqTx]
  simp only [h.notCoinbase, Bool.false_eq_true, if_false, hnOut]
  constructor
  · rintro ⟨s, hs, hsupply⟩ -
    obtain ⟨_, -, hs⟩ := bind_eq_ok.mp hs
    replace hs := after_require hs
    replace hs := after_require hs
    obtain ⟨t, ht, hs⟩ := bind_eq_ok.mp hs
    obtain ⟨hmint, hburn⟩ := btcsoqAuthorityStep_totals hnOut ht
    obtain rfl := Except.ok.inj hs
    simp only [hmint, hburn, hspent] at hsupply
    refine ⟨hstep.mp ⟨t, ht⟩, ?_⟩
    rw [← wrap64_sumOf CTxOut.isBTCSOQ tx.vout,
      ← wrap64_sumOf CTxOut.isBTCSOQ (spentOutputs view tx)]
    exact hsupply
  · intro hready
    obtain ⟨hfreeze, hsupply⟩ := hready hmark
    obtain ⟨t, ht⟩ := hstep.mpr hfreeze
    obtain ⟨hmint, hburn⟩ := btcsoqAuthorityStep_totals hnOut ht
    have hspends : ∀ p ∈ undoPrevouts tx (some undo), btcsoqSpendGuard
        (nextCtx env params idx fJustCheck view coinbase tx a.btcsoq)
        (AssetPass.start a.btcsoq.authorityOutpoint) (hasMarker isBTCSOQAuthorityMarker tx) p =
        .ok () := fun p hp => h.btcsoqSpendGuard_ok hactive rfl (hundo ▸ hp)
    refine ⟨_, bind_eq_ok.mpr ⟨(), forM_eq_ok.mpr hspends, require_bind_eq_ok.mpr
      ⟨hm.initialized, require_bind_eq_ok.mpr ⟨hm.transparent, bind_eq_ok.mpr ⟨t, ht, rfl⟩⟩⟩⟩, ?_⟩
    simp only [hmint, hburn, hspent]
    rw [← wrap64_sumOf CTxOut.isBTCSOQ tx.vout,
      ← wrap64_sumOf CTxOut.isBTCSOQ (spentOutputs view tx)]
      at hsupply
    exact hsupply

end MempoolAccepted

/-- A transaction without a marker passes and changes nothing. -/
theorem MempoolAccepted.btcsoqTx_unmarked (h : MempoolAccepted env params idx a view tx)
    (hactive : (blockFlags params idx).btcsoq)
    (hmark : hasMarker isBTCSOQAuthorityMarker tx = false)
    (hdb : c.asset.dbFrozen = a.btcsoq.dbFrozen)
    (hundo : undoPrevouts tx (some undo) = view.spentBy tx) :
    btcsoqTx env c a.dbMinted (btcsoqStart c.asset) (tx, some undo) =
      .ok (btcsoqStart c.asset) := by
  have hspends : ∀ p ∈ undoPrevouts tx (some undo), btcsoqSpendGuard c
      (AssetPass.start c.asset.authorityOutpoint) (hasMarker isBTCSOQAuthorityMarker tx) p =
      .ok () := fun p hp => h.btcsoqSpendGuard_ok hactive hdb (hundo ▸ hp)
  have hnone : authorityOutputIndex isBTCSOQAuthorityMarker tx = none := by
    cases hnOut : authorityOutputIndex isBTCSOQAuthorityMarker tx with
    | none => rfl
    | some nOut =>
      rw [hasMarker_of_index hnOut] at hmark
      cases hmark
  rw [btcsoqTx]
  simp only [h.notCoinbase, Bool.false_eq_true, if_false, hnone]
  exact bind_eq_ok.mpr ⟨(), forM_eq_ok.mpr hspends, rfl⟩

/-- **The BTCSOQ rules of the next block.**  An accepted transaction passes them
    exactly when the FREEZE operation of an authority transaction applies and
    the supply takes what it mints and burns. -/
theorem mempool_btcsoq_block_valid_iff (hactive : (blockFlags params idx).btcsoq = true)
    (haccepted : acceptToMemoryPool env params idx policy a view tx = .ok ())
    (hcb : NextCoinbase env view tx coinbase) :
    btcsoqBlockRules env params idx fJustCheck a view coinbase tx = .ok () ↔
      BTCSOQReady env params idx a.btcsoq view tx := by
  have h := mempoolAccepted_of_acceptToMemoryPool haccepted
  obtain ⟨undo, hup, hundo⟩ := h.updateCoins_eq hcb
  have hstage : ∀ txs, btcsoqStage env params idx fJustCheck (initAuthorities params idx a)
      (nextView env idx view coinbase tx) txs =
      btcsoqPass env (nextCtx env params idx fJustCheck view coinbase tx
        (initAuthorities params idx a).btcsoq) a.dbMinted txs := by
    intro txs
    rw [btcsoqStage, if_pos hactive]
    rfl
  have hrules : btcsoqBlockRules env params idx fJustCheck a view coinbase tx = .ok () ↔
      ∃ r, btcsoqPass env (nextCtx env params idx fJustCheck view coinbase tx
        (initAuthorities params idx a).btcsoq) a.dbMinted (withUndo [coinbase, tx] [undo]) =
        .ok r := by
    constructor
    · intro hrules
      obtain ⟨⟨v₁, u₁⟩, hfirst, hrules⟩ := bind_eq_ok.mp hrules
      obtain ⟨rfl, -⟩ := Prod.mk.inj (Except.ok.inj
        ((updateCoins_coinbase hcb.isCoinBase).symm.trans hfirst))
      obtain ⟨⟨v₂, u₂⟩, hsecond, hrules⟩ := bind_eq_ok.mp hrules
      obtain ⟨rfl, rfl⟩ := Prod.mk.inj (Except.ok.inj (hup.symm.trans hsecond))
      obtain ⟨r, hpass, -⟩ := bind_eq_ok.mp hrules
      exact ⟨r, (hstage _).symm.trans hpass⟩
    · rintro ⟨r, hpass⟩
      exact bind_eq_ok.mpr ⟨_, updateCoins_coinbase hcb.isCoinBase, bind_eq_ok.mpr
        ⟨_, hup, bind_eq_ok.mpr ⟨r, (hstage _).trans hpass, rfl⟩⟩⟩
  rw [hrules, btcsoqPass_pair hcb.isCoinBase]
  cases hmark : hasMarker isBTCSOQAuthorityMarker tx with
  | true =>
    obtain ⟨tag, payload, nIn, scriptCode, hm⟩ := h.btcsoqMirrored hactive hmark
    rw [initAuthorities_btcsoq hm.initialized]
    exact h.btcsoqTx_marked_iff hcb hactive hmark hundo
  | false =>
    refine iff_of_true ⟨_, h.btcsoqTx_unmarked hactive hmark rfl hundo, ?_⟩ fun hf => ?_
    · exact ⟨fun hpos => absurd hpos (lt_irrefl _), fun hpos => absurd hpos (lt_irrefl _)⟩
    · rw [hmark] at hf
      cases hf

end Acceptance

namespace Sample

/-- A signed freeze of the first output of an id. -/
def btcsoqFreezeOf (id : UInt8) : CTransaction :=
  transaction 7 [spend 9 (authorityWitness BTCSOQ_OP_FREEZE [1, 2])]
    [pay OP_9 0, ⟨0, [OP_RETURN, 38, BTCSOQ_OP_FREEZE, FREEZE_OP_FREEZE] ++ List.replicate 32 id ++
      [0, 0, 0, 0]⟩]

/-- BTCSOQ with its keys set up. -/
def btcsoqTip : Assets := initAuthorities params (index 1) btcsoqAssets

theorem nextCoinbase_btcsoqFreezeOf (id : UInt8) :
    NextCoinbase (Sample.env sameByte) btcsoqCoins (btcsoqFreezeOf id) (coinbase 1) where
  isCoinBase := by decide
  checked := by decide +kernel
  fresh := by decide +kernel
  distinct := show Uint256.fill 7 ≠ Uint256.fill 1 by decide +kernel

end Sample

open Sample in
/-- A signed freeze of a live coin. -/
theorem mempool_btcsoq_block_valid_iff_freeze :
    acceptToMemoryPool (Sample.env sameByte) params (index 1) policy btcsoqTip btcsoqCoins
      (btcsoqFreezeOf 8) = .ok () ∧
    btcsoqBlockRules (Sample.env sameByte) params (index 1) true btcsoqTip btcsoqCoins
      (coinbase 1) (btcsoqFreezeOf 8) = .ok () ∧
    (btcsoqBlockRules (Sample.env sameByte) params (index 1) true btcsoqTip btcsoqCoins
      (coinbase 1) (btcsoqFreezeOf 8) = .ok () ↔
      BTCSOQReady (Sample.env sameByte) params (index 1) btcsoqTip.btcsoq btcsoqCoins
        (btcsoqFreezeOf 8)) :=
  have haccepted : acceptToMemoryPool (Sample.env sameByte) params (index 1) policy btcsoqTip
      btcsoqCoins (btcsoqFreezeOf 8) = .ok () := by decide +kernel
  ⟨haccepted, by decide +kernel, mempool_btcsoq_block_valid_iff (by decide +kernel) haccepted
    (nextCoinbase_btcsoqFreezeOf 8)⟩

open Sample in
/-- A signed FREEZE of a coin that does not exist is accepted into the pool, and
    the block it is put into is not. -/
theorem mempool_takes_dead_btcsoq_freeze :
    (blockFlags params (index 1)).btcsoq = true ∧
    acceptToMemoryPool (Sample.env sameByte) params (index 1) policy btcsoqTip btcsoqCoins
      (btcsoqFreezeOf 5) = .ok () ∧
    NextCoinbase (Sample.env sameByte) btcsoqCoins (btcsoqFreezeOf 5) (coinbase 1) ∧
    btcsoqBlockRules (Sample.env sameByte) params (index 1) true btcsoqTip btcsoqCoins
      (coinbase 1) (btcsoqFreezeOf 5) = .error (.dos 100 "bad-btcsoq-freeze-dead-target") ∧
    (connectBlock (Sample.env sameByte) params (index 1) io true btcsoqTip btcsoqCoins
      (block 1 [btcsoqFreezeOf 5])).verdict =
      .error (.dos 100 "bad-btcsoq-freeze-dead-target") :=
  ⟨by decide +kernel, by decide +kernel, nextCoinbase_btcsoqFreezeOf 5, by decide +kernel,
    by decide +kernel⟩

end Soqucoin
