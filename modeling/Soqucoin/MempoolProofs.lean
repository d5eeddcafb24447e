import Soqucoin.ConservationProofs
import Soqucoin.Mempool
import Soqucoin.OutputLifeProofs
import Soqucoin.SupplyReorgProofs

/-! # Mempool acceptance against the USDSOQ rules of the next block

A transaction that the pool accepts is put into a block template, so it should pass
`ConnectBlock`.  For authority transactions it need not: the mempool looks at the outpoint they
spend and not at their signatures, their freeze operation or the supply.
`mempool_usdsoq_block_valid_iff` says exactly which accepted transactions the next block takes, in
a block of a coinbase and the transaction. -/

namespace Soqucoin

open CheckedLoop Toggle

variable {o : COutPoint} {v : CoinsView} {isHolding : CTxOut → Bool} {authority : Authority}
  {c : AssetCtx} {s : AssetPass} {undo : CTxUndo}

section Acceptance

variable {env : Env} {params : CChainParams} {idx : CBlockIndex} {policy : MempoolPolicy}
variable {a : Assets} {view : CoinsView} {tx coinbase : CTransaction} {fJustCheck : Bool}

/-! ## What an accepted transaction has passed -/

/-- Everything the asset rules of the next block look at. -/
structure MempoolAccepted (env : Env) (params : CChainParams) (idx : CBlockIndex) (a : Assets)
    (view : CoinsView) (tx : CTransaction) : Prop where
  checked : checkTransaction tx = .ok ()
  notCoinbase : tx.isCoinBase = false
  unknown : (view.record (env.getHash tx)).isPruned = true
  available : ∀ txin ∈ tx.vin, view.isAvailable txin.prevout = true
  usdsoq : usdsoqMirror a.usdsoq tx = .ok ()
  btcsoq : btcsoqMirror env (blockFlags params idx).btcsoq a.btcsoq a.dbMinted view tx = .ok ()
  btcsoqTransfer : btcsoqTransferMirror (blockFlags params idx).btcsoq view tx = .ok ()
  usdsoqMarker : usdsoqMarkerMirror (blockFlags params idx).usdsoq view tx = .ok ()
  frozen : ∀ p ∈ availableInputs view tx, frozenMirror a p = .ok ()
  inputs : checkTxInputs params a view tx idx.nHeight = .ok ()

/-- What the mempool has tested. -/
theorem mempoolAccepted_of_acceptToMemoryPool
    (h : acceptToMemoryPool env params idx policy a view tx = .ok ()) :
    MempoolAccepted env params idx a view tx := by
  obtain ⟨_, hchecked, h⟩ := bind_eq_ok.mp h
  obtain ⟨hcb, h⟩ := require_bind_eq_ok.mp h
  replace h := after_require h
  obtain ⟨_, -, h⟩ := bind_eq_ok.mp h
  replace h := after_require h
  obtain ⟨hunknown, h⟩ := require_bind_eq_ok.mp h
  replace h := after_require h
  obtain ⟨hhave, h⟩ := require_bind_eq_ok.mp h
  replace h := after_require h
  replace h := after_require h
  replace h := after_require h
  obtain ⟨_, husdsoq, h⟩ := bind_eq_ok.mp h
  obtain ⟨_, hbtcsoq, h⟩ := bind_eq_ok.mp h
  obtain ⟨_, -, h⟩ := bind_eq_ok.mp h
  obtain ⟨_, htransfer, h⟩ := bind_eq_ok.mp h
  obtain ⟨_, hmarker, h⟩ := bind_eq_ok.mp h
  obtain ⟨_, hfrozen, h⟩ := bind_eq_ok.mp h
  obtain ⟨_, -, h⟩ := bind_eq_ok.mp h
  obtain ⟨_, hinputs, -⟩ := bind_eq_ok.mp h
  rw [Bool.not_eq_true'] at hcb
  rw [CoinsView.haveInputs, hcb, Bool.false_or, List.all_eq_true] at hhave
  exact ⟨hchecked, hcb, hunknown, hhave, husdsoq, hbtcsoq, htransfer, hmarker,
    forM_eq_ok.mp hfrozen, checkInputs_checkTxInputs hcb hinputs⟩

/-- The outpoints of the inputs, with what the view has for them. -/
abbrev CoinsView.spentBy (view : CoinsView) (tx : CTransaction) : List (COutPoint × CTxOut) :=
  tx.vin.map fun txin => (txin.prevout, (view.output txin.prevout).getD default)

namespace MempoolAccepted

section

variable (h : MempoolAccepted env params idx a view tx)
include h

theorem availableInputs_eq : availableInputs view tx = view.spentBy tx := by
  rw [availableInputs, CoinsView.spentBy, ← List.filterMap_eq_map]
  refine List.filterMap_congr fun txin htxin => ?_
  obtain ⟨o, ho⟩ := Option.isSome_iff_exists.mp (h.available txin htxin)
  rw [Function.comp, ho]
  rfl

theorem availableOutputs_eq : availableOutputs view tx = spentOutputs view tx := by
  rw [availableOutputs, h.availableInputs_eq, List.map_map]
  rfl

theorem output_of_input (ho : o ∈ tx.vin.map CTxIn.prevout) : ∃ out, view.output o = some out := by
  obtain ⟨txin, htxin, rfl⟩ := List.mem_map.mp ho
  exact Option.isSome_iff_exists.mp (h.available txin htxin)

end

end MempoolAccepted

theorem output_of_isPruned (h : (v.record o.hash).isPruned) : v.output o = none :=
  CCoins.isPruned_iff.mp h o.n

theorem hash_ne_of_output {out : CTxOut} {id : Uint256} (hpruned : (v.record id).isPruned)
    (ho : v.output o = some out) : o.hash ≠ id := by
  rintro rfl
  rw [output_of_isPruned hpruned] at ho
  cases ho

/-- Different outpoints that are there can be spent one after another. -/
theorem inputsAvailable_of_nodup :
    ∀ {vin : List CTxIn} {v : CoinsView}, (vin.map CTxIn.prevout).Nodup →
      (∀ txin ∈ vin, v.isAvailable txin.prevout) → InputsAvailable v vin := by
  intro vin
  induction vin with
  | nil =>
    intro v _ _
    trivial
  | cons txin vin ih =>
    intro v hnodup havail
    obtain ⟨hnot, hnodup⟩ := List.nodup_cons.mp hnodup
    refine ⟨havail txin List.mem_cons_self, ih hnodup fun t ht => ?_⟩
    have hne : t.prevout ≠ txin.prevout := fun he => hnot (he ▸ List.mem_map_of_mem ht)
    rw [CoinsView.isAvailable, output_spendOne, if_neg hne]
    exact havail t (List.mem_cons_of_mem _ ht)

/-! ## The coins of the next block -/

/-- A coinbase that can stand before the transaction in the next block. -/
structure NextCoinbase (env : Env) (view : CoinsView) (tx coinbase : CTransaction) : Prop where
  isCoinBase : coinbase.isCoinBase = true
  checked : checkTransaction coinbase = .ok ()
  /-- No unspent record has its id (BIP30). -/
  fresh : (view.record (env.getHash coinbase)).isPruned = true
  distinct : env.getHash tx ≠ env.getHash coinbase

/-- The coins once a transaction has been mined, coinbase apart. -/
def minedOutput (env : Env) (view : CoinsView) (tx : CTransaction) (o : COutPoint) :
    Option CTxOut :=
  if o.hash = env.getHash tx then createdOutput tx o.n
  else if o ∈ tx.vin.map CTxIn.prevout then none
  else view.output o

/-- The view after the coinbase of the next block. -/
def coinbaseView (env : Env) (idx : CBlockIndex) (view : CoinsView) (coinbase : CTransaction) :
    CoinsView :=
  afterTx env idx.nHeight view coinbase

/-- The view after the block with the transaction. -/
def nextView (env : Env) (idx : CBlockIndex) (view : CoinsView) (coinbase tx : CTransaction) :
    CoinsView :=
  afterTx env idx.nHeight (coinbaseView env idx view coinbase) tx

theorem coinbaseView_eq (hcb : coinbase.isCoinBase) :
    coinbaseView env idx view coinbase =
      view.store (env.getHash coinbase) (CCoins.fromTx coinbase idx.nHeight) := by
  rw [coinbaseView, afterTx, if_pos hcb]

theorem updateCoins_coinbase (hcb : coinbase.isCoinBase) :
    updateCoins env view coinbase idx.nHeight = .ok (coinbaseView env idx view coinbase, []) := by
  rw [coinbaseView_eq hcb]
  exact updateCoins_eq_ok.mpr ⟨view, if_pos hcb, Or.inl hcb, rfl⟩

namespace MempoolAccepted

section

variable (h : MempoolAccepted env params idx a view tx)
include h

theorem record_coinbaseView (hcb : NextCoinbase env view tx coinbase) {txin : CTxIn}
    (htxin : txin ∈ tx.vin) :
    (coinbaseView env idx view coinbase).record txin.prevout.hash =
      view.record txin.prevout.hash := by
  obtain ⟨out, hout⟩ := h.output_of_input (List.mem_map_of_mem htxin)
  rw [coinbaseView_eq hcb.isCoinBase]
  exact CoinsView.record_store_ne _ _ (hash_ne_of_output hcb.fresh hout)

theorem output_coinbaseView (hcb : NextCoinbase env view tx coinbase) {txin : CTxIn}
    (htxin : txin ∈ tx.vin) :
    (coinbaseView env idx view coinbase).output txin.prevout = view.output txin.prevout := by
  rw [CoinsView.output, h.record_coinbaseView hcb htxin]
  rfl

/-- The transaction can be connected after the coinbase. -/
theorem updateCoins_eq (hcb : NextCoinbase env view tx coinbase) :
    ∃ undo, updateCoins env (coinbaseView env idx view coinbase) tx idx.nHeight =
        .ok (nextView env idx view coinbase tx, undo) ∧
      undoPrevouts tx (some undo) = view.spentBy tx := by
  have hin : InputsAvailable (coinbaseView env idx view coinbase) tx.vin := by
    refine inputsAvailable_of_nodup (checkTransaction_checked h.checked).distinct ?_
    intro txin htxin
    rw [CoinsView.isAvailable, h.output_coinbaseView hcb htxin]
    exact h.available txin htxin
  have hfresh : ((coinbaseView env idx view coinbase).record (env.getHash tx)).isPruned := by
    rw [coinbaseView_eq hcb.isCoinBase, CoinsView.record_store_ne _ _ hcb.distinct]
    exact h.unknown
  obtain ⟨undo, hup⟩ : ∃ undo, updateCoins env (coinbaseView env idx view coinbase) tx
      idx.nHeight = .ok (nextView env idx view coinbase tx, undo) :=
    updateCoins_of_connectable (fun _ => hin) hfresh
  refine ⟨undo, hup, ?_⟩
  rw [undoPrevouts_of_updateCoins h.notCoinbase hup]
  refine List.map_congr_left fun txin htxin => ?_
  rw [h.output_coinbaseView hcb htxin]

theorem nextView_input (ho : o ∈ tx.vin.map CTxIn.prevout) :
    (nextView env idx view coinbase tx).output o = none := by
  obtain ⟨out, hout⟩ := h.output_of_input ho
  rw [nextView, output_afterTx, if_neg (hash_ne_of_output h.unknown hout),
    if_pos ⟨h.notCoinbase, ho⟩]

/-- After the next block, a holding is one of the tip that is not spent or one just created. -/
theorem nextView_holding (hcb : NextCoinbase env view tx coinbase)
    (hnone : ∀ o ∈ coinbase.vout, isHolding o = false) (o : COutPoint) :
    ((nextView env idx view coinbase tx).output o).any isHolding =
      (minedOutput env view tx o).any isHolding := by
  rw [nextView, output_afterTx, minedOutput]
  by_cases htx : o.hash = env.getHash tx
  · rw [if_pos htx, if_pos htx]
  · rw [if_neg htx, if_neg htx]
    by_cases hin : o ∈ tx.vin.map CTxIn.prevout
    · rw [if_pos ⟨h.notCoinbase, hin⟩, if_pos hin]
    · rw [if_neg fun hc => hin hc.2, if_neg hin, coinbaseView_eq hcb.isCoinBase, output_store]
      by_cases hid : o.hash = env.getHash coinbase
      · have hgone : view.output o = none := output_of_isPruned (hid ▸ hcb.fresh)
        rw [if_pos hid, outputAt_fromTx, hgone]
        cases hcreated : createdOutput coinbase o.n with
        | none => rfl
        | some out =>
          exact hnone out (List.mem_of_getElem? (vout_of_createdOutput hcreated))
      · rw [if_neg hid]

end

end MempoolAccepted

/-! ## Freeze operations -/

/-- A freeze operation that the next block accepts: it freezes a holding that
    is live after the transaction and not frozen, or unfreezes a frozen one. -/
def FreezeApplies (env : Env) (view : CoinsView) (isHolding : CTxOut → Bool)
    (dbFrozen : Finset COutPoint) (tx : CTransaction) (op : FreezeOp) : Prop :=
  if op.adds then op.key ∉ dbFrozen ∧ (minedOutput env view tx op.key).any isHolding = true
  else op.key ∈ dbFrozen

/-- The context of an asset pass over the next block. -/
def nextCtx (env : Env) (params : CChainParams) (idx : CBlockIndex) (fJustCheck : Bool)
    (view : CoinsView) (coinbase tx : CTransaction) (s : AssetState) : AssetCtx :=
  assetCtx params idx fJustCheck (nextView env idx view coinbase tx) s

/-- A freeze operation passes in the next block exactly if it applies at the tip. -/
theorem MempoolAccepted.checkFreezeOp_iff (h : MempoolAccepted env params idx a view tx)
    (hcb : NextCoinbase env view tx coinbase) (hnone : ∀ o ∈ coinbase.vout, isHolding o = false)
    {r₁ r₂ r₃ : String} {s : AssetState} {op : FreezeOp} :
    checkFreezeOp isHolding r₁ r₂ r₃ (nextCtx env params idx fJustCheck view coinbase tx s)
        Overlay.empty op = .ok () ↔ FreezeApplies env view isHolding s.dbFrozen tx op := by
  have hlive := h.nextView_holding hcb hnone op.key
  rw [checkFreezeOp_eq_ok, Overlay.current_empty, Effective, FreezeApplies, ← hlive]
  show (op.adds = !decide (op.key ∈ s.dbFrozen)) ∧
    (op.adds = true → ((nextView env idx view coinbase tx).output op.key).any isHolding = true) ↔ _
  cases op.adds with
  | true => simp
  | false => simp

/-- The operation of the transaction does not touch what it spends. -/
theorem MempoolAccepted.not_frozen (h : MempoolAccepted env params idx a view tx)
    {dbFrozen : Finset COutPoint} {op : FreezeOp}
    (hop : FreezeApplies env view isHolding dbFrozen tx op) (ho : o ∈ tx.vin.map CTxIn.prevout)
    (hdb : o ∉ dbFrozen) : isFrozenNow dbFrozen (Overlay.empty.record op) o = false := by
  rw [isFrozenNow_eq, Overlay.current_record, Overlay.current_empty, mem_apply]
  by_cases hkey : op.key = o
  · rw [if_pos hkey]
    rw [FreezeApplies] at hop
    cases hadds : op.adds with
    | false => rfl
    | true =>
      rw [if_pos hadds, hkey] at hop
      obtain ⟨out, hout⟩ := h.output_of_input ho
      rw [minedOutput, if_neg (hash_ne_of_output h.unknown hout), if_pos ho] at hop
      exact nomatch hop.2
  · rw [if_neg hkey, decide_eq_false hdb]

/-! ## The authority of an accepted transaction -/

theorem lazyInitialize_of_initialized {keys : List Bytes} {m : Nat}
    (h : authority.isInitialized) : lazyInitialize authority keys m = authority := by
  rw [lazyInitialize, h, Bool.true_or, if_pos rfl]

theorem initAuthorities_usdsoq (h : a.usdsoq.authority.isInitialized) :
    (initAuthorities params idx a).usdsoq = a.usdsoq := by
  simp only [initAuthorities, lazyInitialize_of_initialized h, ite_self]

theorem initAuthorities_btcsoq (h : a.btcsoq.authority.isInitialized) :
    (initAuthorities params idx a).btcsoq = a.btcsoq := by
  simp only [initAuthorities, lazyInitialize_of_initialized h, ite_self]

/-- The signatures of an input verify over its digest. -/
def AuthoritySigsVerify (env : Env) (authority : Authority) (tx : CTransaction) (nIn : Nat)
    (scriptCode : CScript) : Prop :=
  let sigs := extractWitnessSignatures (tx.vin.getD nIn default).scriptWitness
  sigs ≠ [] ∧ authority.verifyAuthoritySignatures env (authorityDigest env tx nIn scriptCode) sigs

theorem checkAuthoritySigs_eq_ok {reason : String} {nIn : Nat} {scriptCode : CScript} :
    checkAuthoritySigs env reason authority tx nIn scriptCode = .ok () ↔
      AuthoritySigsVerify env authority tx nIn scriptCode := by
  rw [checkAuthoritySigs, require_bind_eq_ok, require_eq_ok, Bool.not_eq_true',
    List.isEmpty_eq_false_iff]
  exact Iff.rfl

/-- How an authority transaction has to be signed: at bootstrap in input 0, over
    the script of its own marker; later in the input that spends the tracked
    marker, over the script of the key set, unless that input has no witness. -/
def USDSOQSigned (env : Env) (s : AssetState) (tx : CTransaction) : Prop :=
  if s.authorityOutpoint.isNull then
    (s.dbAuthorityOutpoint.getD COutPoint.null).isNull = true ∧
      AuthoritySigsVerify env s.authority tx 0
        (markerOutput isUSDSOQAuthorityMarker tx).scriptPubKey
  else
    ∀ nIn ∈ tx.vin.findIdx? (fun txin => txin.prevout = s.authorityOutpoint),
      (tx.vin.getD nIn default).scriptWitness = [] ∨
        AuthoritySigsVerify env s.authority tx nIn
          (witnessScript OP_5 (computeAuthorityKeyHash env s.authority.keys))

/-- Signatures that verify are in a witness. -/
theorem witness_ne_nil_of_sigsVerify {nIn : Nat} {scriptCode : CScript}
    (h : AuthoritySigsVerify env authority tx nIn scriptCode) :
    (tx.vin.getD nIn default).scriptWitness ≠ [] := by
  intro hnil
  refine h.1 (List.eq_nil_iff_forall_not_mem.mpr fun sig hsig => ?_)
  have hmem := mem_of_mem_extractWitnessSignatures hsig
  rw [hnil] at hmem
  cases hmem

/-- The first authority transaction passes exactly if no outpoint is recorded and it is signed. -/
theorem usdsoqBootstrap_iff {nOut : Nat} :
    (∃ t, usdsoqBootstrap env c s tx nOut = .ok t) ↔
      (c.asset.dbAuthorityOutpoint.getD COutPoint.null).isNull ∧
        AuthoritySigsVerify env c.asset.authority tx 0
          (tx.vout.getD nOut default).scriptPubKey := by
  constructor
  · rintro ⟨t, h⟩
    obtain ⟨hdb, h⟩ := require_bind_eq_ok.mp h
    replace h := after_require h
    obtain ⟨_, hsigs, -⟩ := bind_eq_ok.mp h
    exact ⟨hdb, checkAuthoritySigs_eq_ok.mp hsigs⟩
  · rintro ⟨hdb, hsigs⟩
    have hwit : (!(tx.vin.getD 0 default).scriptWitness.isEmpty) = true := by
      simpa using witness_ne_nil_of_sigsVerify hsigs
    exact ⟨_, require_bind_eq_ok.mpr ⟨hdb, require_bind_eq_ok.mpr ⟨hwit,
      bind_eq_ok.mpr ⟨(), checkAuthoritySigs_eq_ok.mpr hsigs, rfl⟩⟩⟩⟩

namespace MempoolAccepted

section

variable (h : MempoolAccepted env params idx a view tx)
include h

/-- The authority input the block finds.  At bootstrap it looks for markers among
    coins that are spent by then. -/
theorem findUSDSOQAuthorityInput_eq (coinbase : CTransaction) (authority : Authority)
    (tracked : COutPoint) :
    findUSDSOQAuthorityInput env (nextView env idx view coinbase tx) authority tracked tx =
      if tracked.isNull then none
      else (tx.vin.findIdx? fun txin => txin.prevout = tracked).map fun k =>
        (k, witnessScript OP_5 (computeAuthorityKeyHash env authority.keys)) := by
  rw [findUSDSOQAuthorityInput]
  by_cases hnull : tracked.isNull = true
  · rw [if_pos hnull, if_pos hnull, List.findSome?_eq_none_iff]
    intro p hp
    have hmem : p.1.prevout ∈ tx.vin.map CTxIn.prevout :=
      List.mem_map_of_mem (List.fst_mem_of_mem_zipIdx hp)
    simp only [h.nextView_input hmem]
  · rw [if_neg hnull, if_neg hnull]
    cases hfind : tx.vin.findIdx? fun txin => txin.prevout = tracked with
    | none => rfl
    | some k =>
      obtain ⟨hk, hkeq, -⟩ := List.findIdx?_eq_some_iff_getElem.mp hfind
      have hmem : tracked ∈ tx.vin.map CTxIn.prevout :=
        List.mem_map.mpr ⟨tx.vin[k], List.getElem_mem hk, by simpa using hkeq⟩
      simp only [Option.map_some, usdsoqScriptCode, h.nextView_input hmem]

theorem findIdx_tracked (hmark : hasMarker isUSDSOQAuthorityMarker tx)
    (hnull : a.usdsoq.authorityOutpoint.isNull = false) :
    ∃ nIn, tx.vin.findIdx? (fun txin => txin.prevout = a.usdsoq.authorityOutpoint) = some nIn := by
  have hspends := require_eq_ok.mp (skipIf_eq_ok.mp h.usdsoq (by rw [hmark, hnull]; rfl))
  rw [← List.findIdx?_isSome] at hspends
  exact Option.isSome_iff_exists.mp hspends

/-- The authority check passes exactly if an authority transaction is signed. -/
theorem usdsoqAuthorityStep_iff (hinit : a.usdsoq.authority.isInitialized)
    (henforced : (params.getConsensus idx.nHeight).nUSDSOQAuthorityEnforcementHeight ≤
      idx.nHeight) :
    (∃ s, usdsoqAuthorityStep env (nextCtx env params idx fJustCheck view coinbase tx a.usdsoq)
        (AssetPass.start a.usdsoq.authorityOutpoint) tx = .ok s) ↔
      (hasMarker isUSDSOQAuthorityMarker tx → USDSOQSigned env a.usdsoq tx) := by
  rw [usdsoqAuthorityStep]
  cases hnOut : authorityOutputIndex isUSDSOQAuthorityMarker tx with
  | none =>
    rw [hasMarker_of_no_index hnOut]
    exact iff_of_true ⟨_, rfl⟩ (fun hf => absurd hf Bool.false_ne_true)
  | some nOut =>
    have hmark := hasMarker_of_index hnOut
    have hmarker : markerOutput isUSDSOQAuthorityMarker tx = tx.vout.getD nOut default := by
      rw [markerOutput, hnOut, Option.getD_some]
    dsimp only
    rw [if_neg (by simpa [nextCtx, assetCtx] using hinit),
      if_neg (by simpa [nextCtx, assetCtx] using henforced)]
    have hfind := h.findUSDSOQAuthorityInput_eq coinbase a.usdsoq.authority
      a.usdsoq.authorityOutpoint
    rw [USDSOQSigned, hmarker]
    by_cases hnull : a.usdsoq.authorityOutpoint.isNull = true
    · rw [if_pos hnull] at hfind ⊢
      simp only [nextCtx, assetCtx, AssetPass.start, hfind, hnull, if_true]
      exact usdsoqBootstrap_iff.trans ⟨fun hs _ => hs, fun hs => hs hmark⟩
    · obtain ⟨nIn, hnIn⟩ := h.findIdx_tracked hmark (Bool.eq_false_iff.mpr hnull)
      rw [if_neg hnull, hnIn, Option.map_some] at hfind
      rw [if_neg hnull, hnIn]
      simp only [nextCtx, assetCtx, AssetPass.start, hfind]
      constructor
      · rintro ⟨s, hs⟩ - k hk
        obtain rfl := Option.some.inj hk
        by_cases hwit : (tx.vin.getD nIn default).scriptWitness.isEmpty = true
        · exact Or.inl (List.isEmpty_iff.mp hwit)
        · rw [if_neg hwit] at hs
          obtain ⟨_, hsigs, -⟩ := bind_eq_ok.mp hs
          exact Or.inr (checkAuthoritySigs_eq_ok.mp hsigs)
      · intro hsigned
        rcases hsigned hmark nIn rfl with hwit | hsigs
        · exact ⟨_, if_pos (List.isEmpty_iff.mpr hwit)⟩
        · have hwit : ¬ (tx.vin.getD nIn default).scriptWitness.isEmpty := by
            simpa using witness_ne_nil_of_sigsVerify hsigs
          rw [if_neg hwit]
          exact ⟨_, bind_eq_ok.mpr ⟨(), checkAuthoritySigs_eq_ok.mpr hsigs, rfl⟩⟩

end

end MempoolAccepted

/-! ## The USDSOQ pass over the next block -/

namespace MempoolAccepted

theorem usdsoqFreezeOp_eq
    (henforced : (params.getConsensus idx.nHeight).nUSDSOQAuthorityEnforcementHeight ≤
      idx.nHeight) :
    usdsoqFreezeOp (params.getConsensus idx.nHeight) idx.nHeight tx =
      if hasMarker isUSDSOQAuthorityMarker tx then parseUSDSOQFreezeOp tx else none := by
  rw [usdsoqFreezeOp, decide_eq_true henforced, Bool.and_true]

section

variable (h : MempoolAccepted env params idx a view tx)
include h

/-- The freeze step passes exactly if its operation applies. -/
theorem usdsoqFreezeStep_iff (hcb : NextCoinbase env view tx coinbase)
    (henforced : (params.getConsensus idx.nHeight).nUSDSOQAuthorityEnforcementHeight ≤ idx.nHeight)
    (hs : s.frozen = Overlay.empty) :
    (∃ t, usdsoqFreezeStep (nextCtx env params idx fJustCheck view coinbase tx a.usdsoq) s tx =
        .ok t) ↔
      (hasMarker isUSDSOQAuthorityMarker tx → ∀ op ∈ parseUSDSOQFreezeOp tx,
        FreezeApplies env view CTxOut.isAnyUSDSOQ a.usdsoq.dbFrozen tx op) := by
  have hnone := (checkTransaction_coinbase hcb.isCoinBase hcb.checked).1
  simp only [usdsoqFreezeStep_eq_ok, exists_and_left, exists_eq, and_true, hs,
    h.checkFreezeOp_iff hcb hnone]
  show (∀ op ∈ usdsoqFreezeOp (params.getConsensus idx.nHeight) idx.nHeight tx, _) ↔ _
  rw [usdsoqFreezeOp_eq henforced]
  cases hasMarker isUSDSOQAuthorityMarker tx with
  | false => exact iff_of_true (fun op hop => by cases hop) (fun hf => by cases hf)
  | true => exact ⟨fun hops _ => hops, fun hops => hops rfl⟩

/-- The mirror has looked up every coin that is spent. -/
theorem frozenMirror_of_mem {p : COutPoint × CTxOut} (hp : p ∈ view.spentBy tx) :
    (p.2.isAnyUSDSOQ → p.1 ∉ a.usdsoq.dbFrozen) ∧ (p.2.isBTCSOQ → p.1 ∉ a.btcsoq.dbFrozen) := by
  obtain ⟨husd, hbtc⟩ := require_bind_eq_ok.mp (h.frozen p (h.availableInputs_eq ▸ hp))
  rw [require_eq_ok] at hbtc
  constructor
  · intro hhold hfrozen
    rw [hhold, decide_eq_true hfrozen] at husd
    cases husd
  · intro hhold hfrozen
    rw [hhold, decide_eq_true hfrozen] at hbtc
    cases hbtc

/-- The spend guard never fails: the mempool has applied it to the registry, and
    the operation of the transaction touches none of its inputs. -/
theorem usdsoqSpendGuard_ok (hactive : (blockFlags params idx).usdsoq)
    (henforced : (params.getConsensus idx.nHeight).nUSDSOQAuthorityEnforcementHeight ≤ idx.nHeight)
    {t : AssetPass} (hs : s.frozen = Overlay.empty)
    (hstep : usdsoqFreezeStep (nextCtx env params idx fJustCheck view coinbase tx a.usdsoq) s tx =
      .ok t)
    (hfreeze : hasMarker isUSDSOQAuthorityMarker tx → ∀ op ∈ parseUSDSOQFreezeOp tx,
      FreezeApplies env view CTxOut.isAnyUSDSOQ a.usdsoq.dbFrozen tx op)
    {p : COutPoint × CTxOut} (hp : p ∈ view.spentBy tx) :
    usdsoqSpendGuard (nextCtx env params idx fJustCheck view coinbase tx a.usdsoq) t
      (hasMarker isUSDSOQAuthorityMarker tx) p = .ok () := by
  obtain ⟨txin, htxin, rfl⟩ := List.mem_map.mp hp
  have hin : txin.prevout ∈ tx.vin.map CTxIn.prevout := List.mem_map_of_mem htxin
  have hmarker : (!(isUSDSOQAuthorityMarker ((view.output txin.prevout).getD default).scriptPubKey
      && !hasMarker isUSDSOQAuthorityMarker tx)) = true := by
    cases hmark : hasMarker isUSDSOQAuthorityMarker tx with
    | true => simp
    | false =>
      have hall := require_eq_ok.mp (skipIf_eq_ok.mp h.usdsoqMarker (by rw [hactive, hmark]; rfl))
      rw [h.availableOutputs_eq, List.all_eq_true] at hall
      simpa using hall _ (List.mem_map_of_mem htxin)
  refine require_bind_eq_ok.mpr ⟨hmarker, require_eq_ok.mpr ?_⟩
  rw [Bool.not_eq_true', Bool.and_eq_false_imp]
  intro hhold
  have hdb := (h.frozenMirror_of_mem hp).1 hhold
  -- the registry after the step: the one of the tip, or with one operation on it
  obtain ⟨-, rfl⟩ := usdsoqFreezeStep_eq_ok.mp hstep
  show isFrozenNow a.usdsoq.dbFrozen ((usdsoqFreezeOp (params.getConsensus idx.nHeight) idx.nHeight
    tx).elim s s.recordFreeze).frozen txin.prevout = false
  rw [usdsoqFreezeOp_eq henforced]
  cases hop : (if hasMarker isUSDSOQAuthorityMarker tx then parseUSDSOQFreezeOp tx else none) with
  | none =>
    rw [Option.elim_none, hs, isFrozenNow_eq, Overlay.current_empty, decide_eq_false hdb]
  | some op =>
    have hmark : hasMarker isUSDSOQAuthorityMarker tx := by
      by_contra hmark
      rw [if_neg hmark] at hop
      cases hop
    rw [if_pos hmark] at hop
    rw [Option.elim_some, AssetPass.recordFreeze, hs]
    exact h.not_frozen (hfreeze hmark op hop) hin hdb

end

end MempoolAccepted

/-- The input checks read the records of the inputs and the exemptions alone. -/
theorem checkTxInputs_congr {w : CoinsView} {b : Assets} {nSpendHeight : Int}
    (hrec : ∀ txin ∈ tx.vin, v.record txin.prevout.hash = w.record txin.prevout.hash)
    (husd : usdsoqActiveHere params a nSpendHeight = usdsoqActiveHere params b nSpendHeight)
    (hbtc : (btcsoqActiveHere params a nSpendHeight && hasMarker isBTCSOQAuthorityMarker tx) =
      (btcsoqActiveHere params b nSpendHeight && hasMarker isBTCSOQAuthorityMarker tx)) :
    checkTxInputs params a v tx nSpendHeight = checkTxInputs params b w tx nSpendHeight := by
  have hout : ∀ txin ∈ tx.vin, v.output txin.prevout = w.output txin.prevout := by
    intro txin htxin
    rw [CoinsView.output, CoinsView.output, hrec txin htxin]
  have hhave : v.haveInputs tx = w.haveInputs tx := by
    rw [CoinsView.haveInputs, CoinsView.haveInputs]
    refine congrArg (tx.isCoinBase || ·) ?_
    rw [Bool.eq_iff_iff, List.all_eq_true, List.all_eq_true]
    refine forall₂_congr fun txin htxin => ?_
    rw [CoinsView.isAvailable, CoinsView.isAvailable, hout txin htxin]
  have hloop : tx.vin.foldlM (checkInputValue params v nSpendHeight) 0 =
      tx.vin.foldlM (checkInputValue params w nSpendHeight) 0 := by
    refine foldlM_congr fun txin htxin nValueIn => ?_
    rw [checkInputValue, checkInputValue, hrec txin htxin, hout txin htxin]
  have hspent : spentOutputs v tx = spentOutputs w tx :=
    List.map_congr_left fun txin htxin => by rw [hout txin htxin]
  simp only [checkTxInputs, hhave, hloop, hspent, husd, hbtc]

/-- The input checks of the mempool hold in the next block. -/
theorem MempoolAccepted.checkTxInputs_next (h : MempoolAccepted env params idx a view tx)
    (hcb : NextCoinbase env view tx coinbase) (hinit : a.usdsoq.authority.isInitialized) :
    checkTxInputs params (initAuthorities params idx a) (coinbaseView env idx view coinbase) tx
      idx.nHeight = .ok () := by
  rw [← h.inputs]
  refine checkTxInputs_congr (fun txin htxin => h.record_coinbaseView hcb htxin) ?_ ?_
  · rw [usdsoqActiveHere, usdsoqActiveHere, initAuthorities_usdsoq hinit]
  · cases hmark : hasMarker isBTCSOQAuthorityMarker tx with
    | false => rw [Bool.and_false, Bool.and_false]
    | true =>
      cases hactive : (blockFlags params idx).btcsoq with
      | false => simp only [btcsoqActiveHere, initAuthorities, hactive, Bool.false_eq_true,
          if_false]
      | true =>
        obtain ⟨hready, -⟩ :=
          require_bind_eq_ok.mp (skipIf_eq_ok.mp h.btcsoq (by rw [hmark, hactive]; rfl))
        rw [btcsoqActiveHere, btcsoqActiveHere, initAuthorities_btcsoq hready]

/-! ## Which accepted transactions the next block takes -/

/-- What `ConnectBlock` checks of USDSOQ in a block of a coinbase and one
    transaction: the rules of `CheckTxInputs`, then the USDSOQ pass. -/
def usdsoqBlockRules (env : Env) (params : CChainParams) (idx : CBlockIndex) (fJustCheck : Bool)
    (a : Assets) (view : CoinsView) (coinbase tx : CTransaction) : Check Unit := do
  let a := initAuthorities params idx a
  let (view, _) ← updateCoins env view coinbase idx.nHeight
  checkTxInputs params a view tx idx.nHeight
  let (view, undo) ← updateCoins env view tx idx.nHeight
  let _ ← usdsoqStage env params idx fJustCheck a view (withUndo [coinbase, tx] [undo])
  .ok ()

/-- An accepted block of a coinbase and one transaction, step by step. -/
theorem Accepted.pair {io : NodeIO} {block : CBlock} {fp : FirstPass} {p : Pending}
    (h : Accepted env params idx io fJustCheck a view block fp p)
    (hvtx : block.vtx = [coinbase, tx]) (hcb : tx.isCoinBase = false) :
    ∃ v u₀ u, updateCoins env view coinbase idx.nHeight = .ok (v, u₀) ∧
      checkTxInputs params (initAuthorities params idx a) v tx idx.nHeight = .ok () ∧
      updateCoins env v tx idx.nHeight = .ok (fp.view, u) ∧ fp.undos.tail = [u] := by
  have hcoins := h.connectCoins_eq
  rw [hvtx] at hcoins
  obtain ⟨v, u₀, us, hfirst, hcoins, hundos⟩ := connectCoins_cons_eq_ok.mp hcoins
  obtain ⟨v', u, us', hsecond, hnil, rfl⟩ := connectCoins_cons_eq_ok.mp hcoins
  obtain ⟨rfl, rfl⟩ := Prod.mk.inj (Except.ok.inj hnil)
  obtain ⟨-, -, -, -, _, -, -, -, hinputs, -, -⟩ :=
    h.at_tx (show block.vtx = [coinbase] ++ tx :: [] from hvtx)
  have hview : blockView env idx.nHeight view [coinbase] = v := by
    rw [blockView, connectCoins_cons_eq_ok.mpr ⟨v, u₀, [], hfirst, rfl, rfl⟩]
  rw [hview] at hinputs
  exact ⟨v, u₀, u, hfirst, checkInputs_checkTxInputs hcb hinputs, hsecond, by rw [hundos]; rfl⟩

/-- What the next block asks of an authority transaction and the mempool does not. -/
structure USDSOQAuthorityReady (env : Env) (s : AssetState) (view : CoinsView)
    (tx : CTransaction) : Prop where
  signed : USDSOQSigned env s tx
  freeze : ∀ op ∈ parseUSDSOQFreezeOp tx,
    FreezeApplies env view CTxOut.isAnyUSDSOQ s.dbFrozen tx op
  outputs : ∀ o ∈ tx.vout, o.isAnyUSDSOQ = true → o.isConfidential = false
  inputs : ∀ o ∈ spentOutputs view tx, o.isAnyUSDSOQ = true → o.isConfidential = false
  supply : s.supply.Absorbs (sumOf (fun o => o.isAnyUSDSOQ && o.isTransparent) tx.vout)
    (sumOf CTxOut.isAnyUSDSOQ (spentOutputs view tx))

/-- What the next block asks of a transaction and the mempool does not. -/
def USDSOQReady (env : Env) (params : CChainParams) (idx : CBlockIndex) (s : AssetState)
    (view : CoinsView) (tx : CTransaction) : Prop :=
  if hasMarker isUSDSOQAuthorityMarker tx then USDSOQAuthorityReady env s view tx
  else ∀ o ∈ tx.vout, o.isAnyUSDSOQ = true → o.isConfidential = true →
    (blockFlags params idx).soquobscura = true

theorem usdsoqOutputGuard_eq_ok {isAuthorityTx : Bool} {o : CTxOut} :
    usdsoqOutputGuard c isAuthorityTx o = .ok () ↔
      (o.isAnyUSDSOQ → o.isConfidential → isAuthorityTx = false ∧ c.flags.soquobscura) := by
  rw [usdsoqOutputGuard, require_bind_eq_ok, require_eq_ok]
  cases o.isAnyUSDSOQ <;> cases o.isConfidential <;> cases isAuthorityTx <;>
    cases c.flags.soquobscura <;> decide

/-- A ready transaction creates no output that the block refuses. -/
theorem USDSOQReady.outputGuard (hready : USDSOQReady env params idx a.usdsoq view tx)
    (o : CTxOut) (ho : o ∈ tx.vout) :
    usdsoqOutputGuard (nextCtx env params idx fJustCheck view coinbase tx a.usdsoq)
      (hasMarker isUSDSOQAuthorityMarker tx) o = .ok () := by
  rw [USDSOQReady] at hready
  refine usdsoqOutputGuard_eq_ok.mpr fun hany hconf => ?_
  cases hmark : hasMarker isUSDSOQAuthorityMarker tx with
  | true =>
    rw [if_pos hmark] at hready
    rw [hready.outputs o ho hany] at hconf
    cases hconf
  | false =>
    rw [hmark, if_neg Bool.false_ne_true] at hready
    exact ⟨rfl, hready o ho hany hconf⟩

/-- The pass over a coinbase and one transaction. -/
theorem usdsoqPass_pair (hcb : coinbase.isCoinBase) :
    (∃ r, usdsoqPass env c (withUndo [coinbase, tx] [undo]) = .ok r) ↔
      ∃ s, usdsoqTx env c (AssetPass.start c.asset.authorityOutpoint) (tx, some undo) = .ok s ∧
        c.asset.supply.Absorbs s.nMinted s.nBurned := by
  have hskip : usdsoqTx env c (AssetPass.start c.asset.authorityOutpoint) (coinbase, none) =
      .ok (AssetPass.start c.asset.authorityOutpoint) := by
    rw [usdsoqTx]
    simp only [hcb, if_true]
  have hloop : (withUndo [coinbase, tx] [undo]).foldlM (usdsoqTx env c)
      (AssetPass.start c.asset.authorityOutpoint) = _ := foldlM_pair hskip
  constructor
  · rintro ⟨r, h⟩
    obtain ⟨s, hs, h⟩ := bind_eq_ok.mp h
    obtain ⟨supply, hsupply, -⟩ := bind_eq_ok.mp h
    exact ⟨s, hloop.symm.trans hs, applySupplyDelta_iff.mp ⟨supply, hsupply⟩⟩
  · rintro ⟨s, hs, hsupply⟩
    obtain ⟨supply, hsupply⟩ := applySupplyDelta_iff.mpr hsupply
    exact ⟨_, bind_eq_ok.mpr ⟨s, hloop.trans hs, bind_eq_ok.mpr ⟨supply, hsupply, rfl⟩⟩⟩

namespace MempoolAccepted

section

variable (h : MempoolAccepted env params idx a view tx) (hcb : NextCoinbase env view tx coinbase)
include h hcb

/-- A turn that succeeds shows the transaction ready. -/
theorem usdsoqReady_of_usdsoqTx (hinit : a.usdsoq.authority.isInitialized)
    (henforced : (params.getConsensus idx.nHeight).nUSDSOQAuthorityEnforcementHeight ≤ idx.nHeight)
    (hspent : (undoPrevouts tx (some undo)).map Prod.snd = spentOutputs view tx)
    (hs : usdsoqTx env (nextCtx env params idx fJustCheck view coinbase tx a.usdsoq)
      (AssetPass.start a.usdsoq.authorityOutpoint) (tx, some undo) = .ok s)
    (hsupply : a.usdsoq.supply.Absorbs s.nMinted s.nBurned) :
    USDSOQReady env params idx a.usdsoq view tx := by
  obtain ⟨s₁, s₂, hauth, hfreeze, -, houts, hrest⟩ := (usdsoqTx_eq_ok h.notCoinbase).mp hs
  obtain ⟨hf, -, hm, hb⟩ := (usdsoqAuthorityStep_turn hauth).frame
  obtain ⟨-, -, -, hm₂, hb₂⟩ := usdsoqFreezeStep_turn hfreeze
  rw [USDSOQReady]
  cases hmark : hasMarker isUSDSOQAuthorityMarker tx with
  | false =>
    intro o ho hany hconf
    exact (usdsoqOutputGuard_eq_ok.mp (houts o ho) hany hconf).2
  | true =>
    rw [hmark, if_pos rfl] at hrest
    obtain ⟨hconf, rfl⟩ := hrest
    refine ⟨(h.usdsoqAuthorityStep_iff hinit henforced).mp ⟨s₁, hauth⟩ hmark,
      (h.usdsoqFreezeStep_iff hcb henforced hf).mp ⟨s₂, hfreeze⟩ hmark, ?_, ?_, ?_⟩
    · intro o ho hany
      by_contra hconf
      have hguard := usdsoqOutputGuard_eq_ok.mp (houts o ho) hany (by simpa using hconf)
      rw [hmark] at hguard
      cases hguard.1
    · intro o ho hany
      rw [← hspent] at ho
      obtain ⟨p, hp, rfl⟩ := List.mem_map.mp ho
      have hguard := List.all_eq_true.mp hconf p hp
      rw [hany] at hguard
      simpa using hguard
    · simp only [hm₂, hb₂, hm, hb, hspent] at hsupply
      exact hsupply

/-- The turn of a ready transaction succeeds. -/
theorem usdsoqTx_of_usdsoqReady (hactive : (blockFlags params idx).usdsoq)
    (hinit : a.usdsoq.authority.isInitialized)
    (henforced : (params.getConsensus idx.nHeight).nUSDSOQAuthorityEnforcementHeight ≤ idx.nHeight)
    (hundo : undoPrevouts tx (some undo) = view.spentBy tx)
    (hspent : (undoPrevouts tx (some undo)).map Prod.snd = spentOutputs view tx)
    (hready : USDSOQReady env params idx a.usdsoq view tx) :
    ∃ s, usdsoqTx env (nextCtx env params idx fJustCheck view coinbase tx a.usdsoq)
      (AssetPass.start a.usdsoq.authorityOutpoint) (tx, some undo) = .ok s ∧
      a.usdsoq.supply.Absorbs s.nMinted s.nBurned := by
  have hmarked : hasMarker isUSDSOQAuthorityMarker tx = true →
      USDSOQAuthorityReady env a.usdsoq view tx := fun hmark => by
    rwa [USDSOQReady, if_pos hmark] at hready
  obtain ⟨s₁, hauth⟩ := (h.usdsoqAuthorityStep_iff hinit henforced).mpr
    fun hmark => (hmarked hmark).signed
  obtain ⟨hf, -, hm, hb⟩ := (usdsoqAuthorityStep_turn hauth).frame
  have hops := fun hmark => (hmarked hmark).freeze
  obtain ⟨s₂, hfreeze⟩ := (h.usdsoqFreezeStep_iff hcb henforced hf).mpr hops
  obtain ⟨-, -, -, hm₂, hb₂⟩ := usdsoqFreezeStep_turn hfreeze
  have hspends : ∀ p ∈ undoPrevouts tx (some undo), _ := fun p hp =>
    h.usdsoqSpendGuard_ok hactive henforced hf hfreeze hops (hundo ▸ hp)
  cases hmark : hasMarker isUSDSOQAuthorityMarker tx with
  | false =>
    refine ⟨s₂, (usdsoqTx_eq_ok h.notCoinbase).mpr ⟨s₁, s₂, hauth, hfreeze, hspends,
      hready.outputGuard, by rw [if_neg (Bool.eq_false_iff.mp hmark)]⟩, ?_⟩
    rw [hm₂, hb₂, hm, hb]
    exact ⟨fun hpos => absurd hpos (lt_irrefl _), fun hpos => absurd hpos (lt_irrefl _)⟩
  | true =>
    refine ⟨{ s₂ with
        nMinted := addValues s₂.nMinted (fun o => o.isAnyUSDSOQ && o.isTransparent) tx.vout
        nBurned := addValues s₂.nBurned CTxOut.isAnyUSDSOQ
          ((undoPrevouts tx (some undo)).map Prod.snd) },
      (usdsoqTx_eq_ok h.notCoinbase).mpr
        ⟨s₁, s₂, hauth, hfreeze, hspends, hready.outputGuard, ?_⟩, ?_⟩
    · rw [if_pos hmark]
      refine ⟨List.all_eq_true.mpr fun p hp => ?_, rfl⟩
      have hconf := (hmarked hmark).inputs p.2 (hspent ▸ List.mem_map_of_mem hp)
      cases hany : p.2.isAnyUSDSOQ with
      | false => rfl
      | true => rw [hconf hany]; rfl
    · simp only [hm₂, hb₂, hm, hb, hspent]
      exact (hmarked hmark).supply

end

variable (fJustCheck) in
/-- A turn succeeds exactly for a ready transaction. -/
theorem usdsoqTx_iff (h : MempoolAccepted env params idx a view tx)
    (hcb : NextCoinbase env view tx coinbase) (hactive : (blockFlags params idx).usdsoq)
    (hinit : a.usdsoq.authority.isInitialized)
    (henforced : (params.getConsensus idx.nHeight).nUSDSOQAuthorityEnforcementHeight ≤ idx.nHeight)
    (hundo : undoPrevouts tx (some undo) = view.spentBy tx) :
    (∃ s, usdsoqTx env (nextCtx env params idx fJustCheck view coinbase tx a.usdsoq)
        (AssetPass.start a.usdsoq.authorityOutpoint) (tx, some undo) = .ok s ∧
        a.usdsoq.supply.Absorbs s.nMinted s.nBurned) ↔
      USDSOQReady env params idx a.usdsoq view tx := by
  have hspent : (undoPrevouts tx (some undo)).map Prod.snd = spentOutputs view tx := by
    rw [hundo, List.map_map]
    rfl
  constructor
  · rintro ⟨s, hs, hsupply⟩
    exact h.usdsoqReady_of_usdsoqTx hcb hinit henforced hspent hs hsupply
  · exact h.usdsoqTx_of_usdsoqReady hcb hactive hinit henforced hundo hspent

end MempoolAccepted

/-- **The USDSOQ rules of the next block.**  An accepted transaction passes them
    exactly when an authority transaction is signed, its freeze operation
    applies, it touches no confidential holding and the supply takes it, and any
    other transaction creates no confidential holding before its activation. -/
theorem mempool_usdsoq_block_valid_iff (hactive : (blockFlags params idx).usdsoq = true)
    (hinit : a.usdsoq.authority.isInitialized = true)
    (henforced : (params.getConsensus idx.nHeight).nUSDSOQAuthorityEnforcementHeight ≤
      idx.nHeight)
    (haccepted : acceptToMemoryPool env params idx policy a view tx = .ok ())
    (hcb : NextCoinbase env view tx coinbase) :
    usdsoqBlockRules env params idx fJustCheck a view coinbase tx = .ok () ↔
      USDSOQReady env params idx a.usdsoq view tx := by
  have h := mempoolAccepted_of_acceptToMemoryPool haccepted
  obtain ⟨undo, hup, hundo⟩ := h.updateCoins_eq hcb
  rw [← h.usdsoqTx_iff fJustCheck hcb hactive hinit henforced hundo]
  have hstage : ∀ txs, usdsoqStage env params idx fJustCheck (initAuthorities params idx a)
      (nextView env idx view coinbase tx) txs =
      usdsoqPass env (nextCtx env params idx fJustCheck view coinbase tx a.usdsoq) txs := by
    intro txs
    rw [usdsoqStage, if_pos hactive, initAuthorities_usdsoq hinit]
    rfl
  refine Iff.trans ?_ (usdsoqPass_pair hcb.isCoinBase)
  constructor
  · intro hrules
    obtain ⟨⟨v₁, u₁⟩, hfirst, hrules⟩ := bind_eq_ok.mp hrules
    obtain ⟨rfl, -⟩ := Prod.mk.inj (Except.ok.inj ((updateCoins_coinbase hcb.isCoinBase).symm.trans
      hfirst))
    obtain ⟨_, -, hrules⟩ := bind_eq_ok.mp hrules
    obtain ⟨⟨v₂, u₂⟩, hsecond, hrules⟩ := bind_eq_ok.mp hrules
    obtain ⟨rfl, rfl⟩ := Prod.mk.inj (Except.ok.inj (hup.symm.trans hsecond))
    obtain ⟨r, hpass, -⟩ := bind_eq_ok.mp hrules
    exact ⟨r, (hstage _).symm.trans hpass⟩
  · rintro ⟨r, hpass⟩
    exact bind_eq_ok.mpr ⟨_, updateCoins_coinbase hcb.isCoinBase, bind_eq_ok.mpr
      ⟨(), h.checkTxInputs_next hcb hinit, bind_eq_ok.mpr ⟨_, hup, bind_eq_ok.mpr
        ⟨r, (hstage _).trans hpass, rfl⟩⟩⟩⟩

end Acceptance

namespace Sample

/-- A node that relays nonstandard transactions and asks for no fee. -/
def policy : MempoolPolicy where
  witnessEnabled := true
  prematureWitness := false
  fRequireStandard := false
  promiscuousFlags := none
  isStandardTx _ := none
  checkFinalTx _ := true
  checkSequenceLocks _ _ := true
  areInputsStandard _ _ := true
  isWitnessStandard _ _ := true
  relayLimits _ _ _ := .ok ()

/-- A signature and the key it verifies under. -/
def keyWitness (key : UInt8) : List Bytes :=
  [List.replicate 2420 key ++ [SIGHASH_ALL], List.replicate 1312 key]

/-- A mint of 100 with a native input, signed by these keys. -/
def relayedMint (sigs : List UInt8) : CTransaction :=
  transaction 7 [spend 9 (authorityWitness 0x55 sigs), spend 8 (keyWitness 5)]
    [pay OP_5 0, pay OP_7 100]

/-- USDSOQ with its keys set up. -/
def usdsoqTip : Assets := initAuthorities params (index 1) usdsoqAssets

theorem nextCoinbase_relayedMint (sigs : List UInt8) :
    NextCoinbase (Sample.env sameByte) usdsoqCoins (relayedMint sigs) (coinbase 1) where
  isCoinBase := by decide
  checked := by decide +kernel
  fresh := by decide +kernel
  distinct := show Uint256.fill 7 ≠ Uint256.fill 1 by decide +kernel

end Sample

open Sample in
/-- A mint that both keys have signed. -/
theorem mempool_usdsoq_block_valid_iff_signed :
    acceptToMemoryPool (Sample.env sameByte) params (index 1) policy usdsoqTip usdsoqCoins
      (relayedMint [1, 2]) = .ok () ∧
    usdsoqBlockRules (Sample.env sameByte) params (index 1) true usdsoqTip usdsoqCoins
      (coinbase 1) (relayedMint [1, 2]) = .ok () ∧
    (usdsoqBlockRules (Sample.env sameByte) params (index 1) true usdsoqTip usdsoqCoins
      (coinbase 1) (relayedMint [1, 2]) = .ok () ↔
      USDSOQReady (Sample.env sameByte) params (index 1) usdsoqTip.usdsoq usdsoqCoins
        (relayedMint [1, 2])) :=
  have haccepted : acceptToMemoryPool (Sample.env sameByte) params (index 1) policy usdsoqTip
      usdsoqCoins (relayedMint [1, 2]) = .ok () := by decide +kernel
  ⟨haccepted, by decide +kernel, mempool_usdsoq_block_valid_iff (by decide +kernel)
    (by decide +kernel) (by decide +kernel) haccepted (nextCoinbase_relayedMint [1, 2])⟩

open Sample in
/-- A mint with one signature of nobody is accepted into the pool, and the block
    it is put into is not. -/
theorem mempool_takes_forged_usdsoq_mint :
    (blockFlags params (index 1)).usdsoq = true ∧
    usdsoqTip.usdsoq.authority.isInitialized = true ∧
    consensus.nUSDSOQAuthorityEnforcementHeight ≤ 1 ∧
    consensus.nUSDSOQAuthorityInputEnforcementHeight ≤ 1 ∧
    acceptToMemoryPool (Sample.env sameByte) params (index 1) policy usdsoqTip usdsoqCoins
      (relayedMint [3]) = .ok () ∧
    NextCoinbase (Sample.env sameByte) usdsoqCoins (relayedMint [3]) (coinbase 1) ∧
    usdsoqBlockRules (Sample.env sameByte) params (index 1) true usdsoqTip usdsoqCoins
      (coinbase 1) (relayedMint [3]) = .error (.dos 100 "bad-usdsoq-authority-sig") ∧
    (connectBlock (Sample.env sameByte) params (index 1) io true usdsoqTip usdsoqCoins
      (block 1 [relayedMint [3]])).verdict = .error (.dos 100 "bad-usdsoq-authority-sig") :=
  ⟨by decide +kernel, by decide +kernel, by decide, by decide, by decide +kernel,
    nextCoinbase_relayedMint [3], by decide +kernel, by decide +kernel⟩

end Soqucoin
