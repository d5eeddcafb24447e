import Soqucoin.AuthorityProofs
import Soqucoin.ConnectProofs

/-! # One turn of an asset pass

What a successful turn of the USDSOQ or the BTCSOQ pass has checked, and what it did to each part
of the pass's state.  A turn is split into the part that follows the marker, the part that keeps
the freeze registry, the guards on spent outputs, and the totals; the run of a whole pass is then
followed one part at a time. -/

namespace Soqucoin

open CheckedLoop Toggle

variable {env : Env} {c : AssetCtx} {dbMinted : Finset COutPoint}

variable {isMarker : CScript → Bool} {tx : CTransaction} {authority : Authority} {nIn : Nat}
  {scriptCode : CScript} {isHolding : CTxOut → Bool} {s t : AssetPass} {txundo : Option CTxUndo}
  {payload : Bytes} {nTxV8In : Int}

theorem hasMarker_iff :
    hasMarker isMarker tx ↔ ∃ nOut, authorityOutputIndex isMarker tx = some nOut := by
  rw [hasMarker, ← List.findIdx?_isSome, Option.isSome_iff_exists]
  rfl

theorem hasMarker_of_index {nOut : Nat} (h : authorityOutputIndex isMarker tx = some nOut) :
    hasMarker isMarker tx :=
  hasMarker_iff.mpr ⟨nOut, h⟩

theorem hasMarker_of_no_index (h : authorityOutputIndex isMarker tx = none) :
    hasMarker isMarker tx = false := by
  rw [Bool.eq_false_iff]
  intro hm
  obtain ⟨nOut, hn⟩ := hasMarker_iff.mp hm
  rw [h] at hn
  exact nomatch hn

/-- The digest authority signatures are made over. -/
def authorityDigest (env : Env) (tx : CTransaction) (nIn : Nat) (scriptCode : CScript) : Bytes :=
  (env.signatureHash scriptCode tx nIn SIGHASH_ALL 0 .witnessV0).bytes

/-- The witness of an input holds threshold many signatures over its digest. -/
def AuthoritySigned (env : Env) (authority : Authority) (tx : CTransaction) (nIn : Nat)
    (scriptCode : CScript) : Prop :=
  SignedByThreshold env authority (authorityDigest env tx nIn scriptCode)
    (tx.vin.getD nIn default).scriptWitness

/-- The signature check shows that the authority has signed. -/
theorem authoritySigned_of_checkAuthoritySigs {reason : String}
    (h : checkAuthoritySigs env reason authority tx nIn scriptCode = .ok ()) :
    AuthoritySigned env authority tx nIn scriptCode := by
  replace h := after_require h
  obtain ⟨keys, hnodup, hsub, hlen, hver⟩ :=
    Authority.signedByThreshold_of_verify (require_eq_ok.mp h)
  refine ⟨keys, hnodup, hsub, hlen, fun key hkey => ?_⟩
  obtain ⟨sig, hsig, hv⟩ := hver key hkey
  exact ⟨sig, mem_of_mem_extractWitnessSignatures hsig, hv⟩

/-- The witness holds an item of the size of a signature. -/
def HasSizedItem (stack : List Bytes) : Prop := ∃ item ∈ stack, item.length = DILITHIUM_SIG_SIZE

theorem hasSizedItem_of_checkAuthoritySigs {reason : String}
    (h : checkAuthoritySigs env reason authority tx nIn scriptCode = .ok ()) :
    HasSizedItem (tx.vin.getD nIn default).scriptWitness := by
  obtain ⟨hne, -⟩ := require_bind_eq_ok.mp h
  rw [Bool.not_eq_true', List.isEmpty_eq_false_iff] at hne
  obtain ⟨sig, hsig⟩ := List.exists_mem_of_ne_nil _ hne
  refine ⟨sig, mem_of_mem_extractWitnessSignatures hsig, ?_⟩
  rw [extractWitnessSignatures] at hsig
  split at hsig
  · cases hsig
  · exact of_decide_eq_true (List.mem_filter.mp hsig).2

/-- A signed authority input has a witness. -/
theorem AuthoritySigned.witness_ne_nil (hinit : authority.isInitialized)
    (h : AuthoritySigned env authority tx nIn scriptCode) :
    (tx.vin.getD nIn default).scriptWitness ≠ [] := by
  obtain ⟨keys, -, -, hlen, hver⟩ := h
  have hpos : 0 < authority.threshold := by
    rw [Authority.isInitialized, Bool.and_eq_true, decide_eq_true_eq] at hinit
    exact hinit.2
  cases keys with
  | nil => exact absurd (lt_of_lt_of_le hpos hlen) (Nat.lt_irrefl 0)
  | cons key keys =>
    obtain ⟨sig, hsig, -⟩ := hver key (List.mem_cons_self ..)
    exact List.ne_nil_of_mem hsig

/-! ## The freeze registry -/

/-- What an operation does to the registry part of the pass. -/
structure FreezeTurn (isHolding : CTxOut → Bool) (c : AssetCtx) (s : AssetPass)
    (op : Option FreezeOp) (t : AssetPass) : Prop where
  frozen : t.frozen = op.elim s.frozen s.frozen.record
  ops : t.pendingFreezeOps = s.pendingFreezeOps ++ op.toList
  effective : ∀ o ∈ op, Effective (Overlay.current c.asset.dbFrozen s.frozen) o
  live : ∀ o ∈ op, o.adds = true → (c.view.output o.key).any isHolding = true

theorem FreezeTurn.refl (isHolding : CTxOut → Bool) (c : AssetCtx) (s : AssetPass) :
    FreezeTurn isHolding c s none s :=
  ⟨rfl, (List.append_nil _).symm, fun _ ho => (nomatch ho), fun _ ho => (nomatch ho)⟩

theorem isFrozenNow_eq {db : Finset COutPoint} {ov : Overlay COutPoint} {o : COutPoint} :
    isFrozenNow db ov o = decide (o ∈ Overlay.current db ov) := by
  rw [Bool.eq_iff_iff, decide_eq_true_eq, Overlay.mem_current]
  simp [isFrozenNow]

/-- An operation passes exactly if it changes the registry and a new entry is a live holding. -/
theorem checkFreezeOp_eq_ok {r₁ r₂ r₃ : String} {ov : Overlay COutPoint} {op : FreezeOp} :
    checkFreezeOp isHolding r₁ r₂ r₃ c ov op = .ok () ↔
      Effective (Overlay.current c.asset.dbFrozen ov) op ∧
        (op.adds → (c.view.output op.key).any isHolding) := by
  rw [checkFreezeOp, Effective]
  cases hadds : op.adds with
  | true =>
    rw [if_pos rfl, require_bind_eq_ok, require_eq_ok, isFrozenNow_eq]
    constructor
    · rintro ⟨hlive, hnot⟩
      exact ⟨hnot.symm, fun _ => hlive⟩
    · rintro ⟨hnot, hlive⟩
      exact ⟨hlive rfl, hnot.symm⟩
  | false =>
    have hmem : (!(decide (op.key ∈ ov.removed) ||
        (decide (op.key ∉ ov.added) && decide (op.key ∉ c.asset.dbFrozen)))) = true ↔
        op.key ∈ Overlay.current c.asset.dbFrozen ov := by
      have hdisj : op.key ∈ ov.added → op.key ∉ ov.removed :=
        fun h => Finset.disjoint_left.mp ov.disjoint h
      simp only [Bool.not_eq_true', Bool.or_eq_false_iff, Bool.and_eq_false_iff,
        decide_eq_false_iff_not, not_not, Overlay.mem_current]
      tauto
    rw [if_neg Bool.false_ne_true, require_eq_ok, hmem]
    simp

/-- An operation that passes its check is recorded. -/
theorem freezeTurn_of_checkFreezeOp {r₁ r₂ r₃ : String} {op : FreezeOp}
    (h : checkFreezeOp isHolding r₁ r₂ r₃ c s.frozen op = .ok ()) :
    FreezeTurn isHolding c s (some op) (s.recordFreeze op) := by
  obtain ⟨heff, hlive⟩ := checkFreezeOp_eq_ok.mp h
  refine ⟨rfl, rfl, ?_, ?_⟩
  · intro o ho
    obtain rfl := Option.some.inj ho
    exact heff
  · intro o ho
    obtain rfl := Option.some.inj ho
    exact hlive

/-- The run of the registry: the overlay shows the registry with the pending
    operations applied, and they form an effective log. -/
structure FreezeLog (db : Finset COutPoint) (s : AssetPass) : Prop where
  current : Overlay.current db s.frozen = s.pendingFreezeOps.foldl apply db
  effective : EffectiveLog db s.pendingFreezeOps

theorem FreezeLog.start (db : Finset COutPoint) (o : COutPoint) :
    FreezeLog db (AssetPass.start o) :=
  ⟨Overlay.current_empty db, trivial⟩

/-- The operations noted so far stay those that the overlay stands for. -/
theorem FreezeLog.turn {op : Option FreezeOp} (hs : FreezeLog c.asset.dbFrozen s)
    (h : FreezeTurn isHolding c s op t) : FreezeLog c.asset.dbFrozen t := by
  cases op with
  | none =>
    have hf : t.frozen = s.frozen := h.frozen
    have ho : t.pendingFreezeOps = s.pendingFreezeOps := by rw [h.ops]; simp
    exact ⟨by rw [hf, ho]; exact hs.current, by rw [ho]; exact hs.effective⟩
  | some op =>
    have hf : t.frozen = s.frozen.record op := h.frozen
    have ho : t.pendingFreezeOps = s.pendingFreezeOps ++ [op] := h.ops
    have heff := h.effective op rfl
    rw [hs.current] at heff
    refine ⟨?_, ?_⟩
    · rw [hf, ho, Overlay.current_record, hs.current, List.foldl_append]
      rfl
    · rw [ho]
      exact hs.effective.append_singleton heff

/-! ## USDSOQ -/

/-- The first marker of a transaction. -/
def markerOutput (isMarker : CScript → Bool) (tx : CTransaction) : CTxOut :=
  tx.vout.getD ((authorityOutputIndex isMarker tx).getD 0) default

/-- The outpoint of that marker. -/
def markerOutpoint (env : Env) (isMarker : CScript → Bool) (tx : CTransaction) : COutPoint :=
  ⟨env.getHash tx, (authorityOutputIndex isMarker tx).getD 0⟩

/-- What the authority enforcement can do with a transaction. -/
inductive USDSOQAuthorityTurn (env : Env) (c : AssetCtx) (s : AssetPass) (tx : CTransaction) :
    AssetPass → Prop
  | unmarked (unmarked : hasMarker isUSDSOQAuthorityMarker tx = false) :
      USDSOQAuthorityTurn env c s tx s
  | unenforced (marked : hasMarker isUSDSOQAuthorityMarker tx = true)
      (keys : c.asset.authority.isInitialized = true)
      (below : c.nHeight < c.consensus.nUSDSOQAuthorityEnforcementHeight) :
      USDSOQAuthorityTurn env c s tx
        { s with localAuthOutpoint := markerOutpoint env isUSDSOQAuthorityMarker tx }
  | unwitnessed {nIn : Nat} {scriptCode : CScript}
      (marked : hasMarker isUSDSOQAuthorityMarker tx = true)
      (keys : c.asset.authority.isInitialized = true)
      (enforced : c.consensus.nUSDSOQAuthorityEnforcementHeight ≤ c.nHeight)
      (found : findUSDSOQAuthorityInput env c.view c.asset.authority s.localAuthOutpoint tx =
        some (nIn, scriptCode))
      (empty : (tx.vin.getD nIn default).scriptWitness = []) :
      USDSOQAuthorityTurn env c s tx s
  | signed {nIn : Nat} {scriptCode : CScript}
      (marked : hasMarker isUSDSOQAuthorityMarker tx = true)
      (keys : c.asset.authority.isInitialized = true)
      (enforced : c.consensus.nUSDSOQAuthorityEnforcementHeight ≤ c.nHeight)
      (found : findUSDSOQAuthorityInput env c.view c.asset.authority s.localAuthOutpoint tx =
        some (nIn, scriptCode))
      (witness : (tx.vin.getD nIn default).scriptWitness ≠ [])
      (sigs : checkAuthoritySigs env "bad-usdsoq-authority-sig" c.asset.authority
        tx nIn scriptCode =
        .ok ()) :
      USDSOQAuthorityTurn env c s tx
        { s with
          localAuthOutpoint := markerOutpoint env isUSDSOQAuthorityMarker tx
          pendingOutpoint := some (markerOutpoint env isUSDSOQAuthorityMarker tx) }
  | bootstrap (marked : hasMarker isUSDSOQAuthorityMarker tx = true)
      (keys : c.asset.authority.isInitialized = true)
      (enforced : c.consensus.nUSDSOQAuthorityEnforcementHeight ≤ c.nHeight)
      (notFound : findUSDSOQAuthorityInput env c.view c.asset.authority s.localAuthOutpoint tx =
        none)
      (untracked : s.localAuthOutpoint.isNull = true)
      (unrecorded : (c.asset.dbAuthorityOutpoint.getD COutPoint.null).isNull = true)
      (witness : (tx.vin.getD 0 default).scriptWitness ≠ [])
      (sigs : checkAuthoritySigs env "bad-usdsoq-authority-sig" c.asset.authority tx 0
        (markerOutput isUSDSOQAuthorityMarker tx).scriptPubKey = .ok ()) :
      USDSOQAuthorityTurn env c s tx
        { s with
          localAuthOutpoint := markerOutpoint env isUSDSOQAuthorityMarker tx
          pendingOutpoint := if c.fJustCheck then s.pendingOutpoint
            else some (markerOutpoint env isUSDSOQAuthorityMarker tx) }
  | unlinked (marked : hasMarker isUSDSOQAuthorityMarker tx = true)
      (keys : c.asset.authority.isInitialized = true)
      (enforced : c.consensus.nUSDSOQAuthorityEnforcementHeight ≤ c.nHeight)
      (notFound : findUSDSOQAuthorityInput env c.view c.asset.authority s.localAuthOutpoint tx =
        none)
      (tracked : s.localAuthOutpoint.isNull = false)
      (below : c.nHeight < c.consensus.nUSDSOQAuthorityInputEnforcementHeight) :
      USDSOQAuthorityTurn env c s tx
        { s with
          localAuthOutpoint := markerOutpoint env isUSDSOQAuthorityMarker tx
          pendingOutpoint := if c.fJustCheck then s.pendingOutpoint
            else some (markerOutpoint env isUSDSOQAuthorityMarker tx) }

/-- What the authority check of a transaction has tested. -/
theorem usdsoqAuthorityStep_turn (h : usdsoqAuthorityStep env c s tx = .ok t) :
    USDSOQAuthorityTurn env c s tx t := by
  rw [usdsoqAuthorityStep] at h
  cases hnOut : authorityOutputIndex isUSDSOQAuthorityMarker tx with
  | none =>
    rw [hnOut] at h
    obtain rfl := Except.ok.inj h
    exact .unmarked (hasMarker_of_no_index hnOut)
  | some nOut =>
    have hmark := hasMarker_of_index hnOut
    have hmarker : (⟨env.getHash tx, nOut⟩ : COutPoint) =
        markerOutpoint env isUSDSOQAuthorityMarker tx := by
      rw [markerOutpoint, hnOut]
      rfl
    have houtput : tx.vout.getD nOut default = markerOutput isUSDSOQAuthorityMarker tx := by
      rw [markerOutput, hnOut]
      rfl
    simp only [hnOut, usdsoqBootstrap, hmarker, houtput] at h
    split at h
    · cases h
    rename_i hkeys
    rw [Bool.not_eq_true', Bool.not_eq_false] at hkeys
    split at h
    · rename_i hbelow
      obtain rfl := Except.ok.inj h
      exact .unenforced hmark hkeys hbelow
    rename_i henf
    rw [not_lt] at henf
    split at h
    · rename_i nIn scriptCode hfound
      split at h
      · rename_i hempty
        obtain rfl := Except.ok.inj h
        exact .unwitnessed hmark hkeys henf hfound (List.isEmpty_iff.mp hempty)
      · rename_i hwitness
        obtain ⟨_, hsigs, h⟩ := bind_eq_ok.mp h
        obtain rfl := Except.ok.inj h
        exact .signed hmark hkeys henf hfound (mt List.isEmpty_iff.mpr hwitness) hsigs
    · rename_i hnone
      split at h
      · rename_i hnull
        obtain ⟨hdb, h⟩ := require_bind_eq_ok.mp h
        obtain ⟨hwitness, h⟩ := require_bind_eq_ok.mp h
        obtain ⟨_, hsigs, h⟩ := bind_eq_ok.mp h
        obtain rfl := Except.ok.inj h
        rw [Bool.not_eq_true', List.isEmpty_eq_false_iff] at hwitness
        exact .bootstrap hmark hkeys henf hnone hnull hdb hwitness hsigs
      · rename_i hnull
        obtain ⟨hbelow, h⟩ := require_bind_eq_ok.mp h
        obtain rfl := Except.ok.inj h
        exact .unlinked hmark hkeys henf hnone (Bool.eq_false_iff.mpr hnull)
          (of_decide_eq_true hbelow)

/-- A transaction without a marker leaves the authority alone. -/
theorem usdsoqAuthorityStep_unmarked (hmark : hasMarker isUSDSOQAuthorityMarker tx = false)
    (h : usdsoqAuthorityStep env c s tx = .ok t) : t = s := by
  rw [usdsoqAuthorityStep] at h
  cases hnOut : authorityOutputIndex isUSDSOQAuthorityMarker tx with
  | none =>
    rw [hnOut] at h
    exact (Except.ok.inj h).symm
  | some nOut => cases hmark.symm.trans (hasMarker_of_index hnOut)

theorem USDSOQAuthorityTurn.frame (h : USDSOQAuthorityTurn env c s tx t) :
    t.frozen = s.frozen ∧ t.pendingFreezeOps = s.pendingFreezeOps ∧
      t.nMinted = s.nMinted ∧ t.nBurned = s.nBurned := by
  cases h <;> exact ⟨rfl, rfl, rfl, rfl⟩

/-- What a transaction's turn in the USDSOQ pass has tested, and what it leaves. -/
structure USDSOQTurn (env : Env) (c : AssetCtx) (s : AssetPass) (tx : CTransaction)
    (txundo : Option CTxUndo) (t : AssetPass) : Prop where
  authority : ∃ s₁, usdsoqAuthorityStep env c s tx = .ok s₁ ∧
    t.localAuthOutpoint = s₁.localAuthOutpoint ∧ t.pendingOutpoint = s₁.pendingOutpoint
  freeze : FreezeTurn CTxOut.isAnyUSDSOQ c s (usdsoqFreezeOp c.consensus c.nHeight tx) t
  spends : ∀ p ∈ undoPrevouts tx txundo,
    usdsoqSpendGuard c t (hasMarker isUSDSOQAuthorityMarker tx) p = .ok ()
  outputs : ∀ o ∈ tx.vout,
    usdsoqOutputGuard c (hasMarker isUSDSOQAuthorityMarker tx) o = .ok ()
  totals : if hasMarker isUSDSOQAuthorityMarker tx then
      t.nMinted = addValues s.nMinted (fun o => o.isAnyUSDSOQ && o.isTransparent) tx.vout ∧
      t.nBurned = addValues s.nBurned CTxOut.isAnyUSDSOQ
        ((undoPrevouts tx txundo).map Prod.snd)
    else t.nMinted = s.nMinted ∧ t.nBurned = s.nBurned

/-- The freeze step passes with no operation, or records one that passes its check. -/
theorem usdsoqFreezeStep_eq_ok :
    usdsoqFreezeStep c s tx = .ok t ↔
      (∀ op ∈ usdsoqFreezeOp c.consensus c.nHeight tx,
        checkFreezeOp CTxOut.isAnyUSDSOQ "bad-usdsoq-freeze-dead-target"
          "bad-usdsoq-freeze-redundant" "bad-usdsoq-unfreeze-redundant" c s.frozen op = .ok ()) ∧
      t = (usdsoqFreezeOp c.consensus c.nHeight tx).elim s s.recordFreeze := by
  rw [usdsoqFreezeStep]
  cases usdsoqFreezeOp c.consensus c.nHeight tx with
  | none =>
    constructor
    · intro h
      exact ⟨fun _ hop => (nomatch hop), (Except.ok.inj h).symm⟩
    · rintro ⟨-, rfl⟩
      rfl
  | some op =>
    constructor
    · intro h
      obtain ⟨_, hcheck, h⟩ := bind_eq_ok.mp h
      refine ⟨fun o ho => ?_, (Except.ok.inj h).symm⟩
      obtain rfl := Option.some.inj ho
      exact hcheck
    · rintro ⟨hcheck, rfl⟩
      exact bind_eq_ok.mpr ⟨(), hcheck op rfl, rfl⟩

/-- The freeze step records the operation of the transaction, and nothing else. -/
theorem usdsoqFreezeStep_turn (h : usdsoqFreezeStep c s tx = .ok t) :
    FreezeTurn CTxOut.isAnyUSDSOQ c s (usdsoqFreezeOp c.consensus c.nHeight tx) t ∧
      t.localAuthOutpoint = s.localAuthOutpoint ∧ t.pendingOutpoint = s.pendingOutpoint ∧
      t.nMinted = s.nMinted ∧ t.nBurned = s.nBurned := by
  obtain ⟨hcheck, rfl⟩ := usdsoqFreezeStep_eq_ok.mp h
  cases hop : usdsoqFreezeOp c.consensus c.nHeight tx with
  | none => exact ⟨FreezeTurn.refl .., rfl, rfl, rfl, rfl⟩
  | some op => exact ⟨freezeTurn_of_checkFreezeOp (hcheck op hop), rfl, rfl, rfl, rfl⟩

/-- A turn is the authority check, the freeze step and the sums, in that order. -/
theorem usdsoqTx_eq_ok (hcb : tx.isCoinBase = false) :
    usdsoqTx env c s (tx, txundo) = .ok t ↔
      ∃ s₁ s₂, usdsoqAuthorityStep env c s tx = .ok s₁ ∧ usdsoqFreezeStep c s₁ tx = .ok s₂ ∧
        (∀ p ∈ undoPrevouts tx txundo,
          usdsoqSpendGuard c s₂ (hasMarker isUSDSOQAuthorityMarker tx) p = .ok ()) ∧
        (∀ o ∈ tx.vout, usdsoqOutputGuard c (hasMarker isUSDSOQAuthorityMarker tx) o = .ok ()) ∧
        if hasMarker isUSDSOQAuthorityMarker tx then
          (undoPrevouts tx txundo).all (fun p => !(p.2.isAnyUSDSOQ && p.2.isConfidential)) = true ∧
            t = { s₂ with
              nMinted := addValues s₂.nMinted (fun o => o.isAnyUSDSOQ && o.isTransparent) tx.vout
              nBurned := addValues s₂.nBurned CTxOut.isAnyUSDSOQ
                ((undoPrevouts tx txundo).map Prod.snd) }
        else t = s₂ := by
  rw [usdsoqTx]
  simp only [hcb, Bool.false_eq_true, if_false]
  constructor
  · intro h
    obtain ⟨s₁, hauth, h⟩ := bind_eq_ok.mp h
    obtain ⟨s₂, hfreeze, h⟩ := bind_eq_ok.mp h
    obtain ⟨_, hspends, h⟩ := bind_eq_ok.mp h
    obtain ⟨_, houts, h⟩ := bind_eq_ok.mp h
    refine ⟨s₁, s₂, hauth, hfreeze, forM_eq_ok.mp hspends, forM_eq_ok.mp houts, ?_⟩
    cases hmark : hasMarker isUSDSOQAuthorityMarker tx with
    | false =>
      simp only [hmark, Bool.not_false, if_true] at h
      exact (Except.ok.inj h).symm
    | true =>
      simp only [hmark, Bool.not_true, Bool.false_eq_true, if_false] at h
      obtain ⟨hconf, h⟩ := require_bind_eq_ok.mp h
      exact ⟨hconf, (Except.ok.inj h).symm⟩
  · rintro ⟨s₁, s₂, hauth, hfreeze, hspends, houts, h⟩
    refine bind_eq_ok.mpr ⟨s₁, hauth, bind_eq_ok.mpr ⟨s₂, hfreeze, bind_eq_ok.mpr
      ⟨(), forM_eq_ok.mpr hspends, bind_eq_ok.mpr ⟨(), forM_eq_ok.mpr houts, ?_⟩⟩⟩⟩
    cases hmark : hasMarker isUSDSOQAuthorityMarker tx with
    | false =>
      simp only [hmark, Bool.false_eq_true, if_false] at h
      rw [h]
      rfl
    | true =>
      simp only [hmark, if_true] at h
      obtain ⟨hconf, rfl⟩ := h
      exact require_bind_eq_ok.mpr ⟨hconf, rfl⟩

/-- What a turn of the USDSOQ pass has tested. -/
theorem usdsoqTx_turn (hcb : tx.isCoinBase = false) (h : usdsoqTx env c s (tx, txundo) = .ok t) :
    USDSOQTurn env c s tx txundo t := by
  obtain ⟨s₁, s₂, hauth, hfreeze, hspends, houts, h⟩ := (usdsoqTx_eq_ok hcb).mp h
  obtain ⟨hf, ho, hm, hb⟩ := (usdsoqAuthorityStep_turn hauth).frame
  obtain ⟨hturn, hloc, hpend, hm₂, hb₂⟩ := usdsoqFreezeStep_turn hfreeze
  have hturn' : FreezeTurn CTxOut.isAnyUSDSOQ c s (usdsoqFreezeOp c.consensus c.nHeight tx) s₂ :=
    ⟨by rw [hturn.frozen, hf], by rw [hturn.ops, ho],
      fun o ho => hf ▸ hturn.effective o ho, hturn.live⟩
  cases hmark : hasMarker isUSDSOQAuthorityMarker tx with
  | false =>
    simp only [hmark, Bool.false_eq_true, if_false] at h
    obtain rfl := h
    refine ⟨⟨s₁, hauth, hloc, hpend⟩, hturn', hspends, houts, ?_⟩
    simp only [hmark, Bool.false_eq_true, if_false]
    exact ⟨hm₂.trans hm, hb₂.trans hb⟩
  | true =>
    simp only [hmark, if_true] at h
    obtain ⟨-, rfl⟩ := h
    refine ⟨⟨s₁, hauth, hloc, hpend⟩, ⟨hturn'.frozen, hturn'.ops, hturn'.effective, hturn'.live⟩,
      hspends, houts, ?_⟩
    simp only [hmark, if_true]
    rw [hm₂, hm, hb₂, hb]
    exact ⟨rfl, rfl⟩

/-! ## BTCSOQ -/

/-- The freeze operation of an authority operation, if it is one. -/
def freezeOpOf (op : UInt8 × Bytes) : Option FreezeOp :=
  if op.1 = BTCSOQ_OP_FREEZE then parseFreezePayload op.2 else none

/-- The deposit of an authority operation, if it is a mint. -/
def mintOpOf (op : UInt8 × Bytes) : Option MintPayload :=
  if op.1 = BTCSOQ_OP_MINT then parseBTCSOQMintPayload op.2 else none

/-- What a MINT operation has been checked for, and the deposit it records. -/
structure MintTurn (dbMinted : Finset COutPoint) (tx : CTransaction) (deposits : List COutPoint)
    (mint : Option MintPayload) (deposits' : List COutPoint) : Prop where
  recorded : deposits' = deposits ++ mint.toList.map MintPayload.deposit
  fresh : ∀ m ∈ mint, m.deposit ∉ deposits ∧ m.deposit ∉ dbMinted
  holding : ∀ m ∈ mint, ∃ o, tx.vout.filter CTxOut.isBTCSOQ = [o] ∧ o.nValue = m.sats

/-- A mint notes a deposit that was new and pays its recipient. -/
theorem btcsoqMint_turn {s t : BTCSOQPass} (h : btcsoqMint env dbMinted s tx payload = .ok t) :
    ∃ mint, parseBTCSOQMintPayload payload = some mint ∧ t.toAssetPass = s.toAssetPass ∧
      MintTurn dbMinted tx s.mintedDeposits (some mint) t.mintedDeposits := by
  rw [btcsoqMint] at h
  split at h
  · exact nomatch h
  · rename_i mint hparse
    split at h
    · rename_i o hout
      obtain ⟨hamount, h⟩ := require_bind_eq_ok.mp h
      replace h := after_require h
      obtain ⟨hfresh, h⟩ := require_bind_eq_ok.mp h
      obtain rfl := Except.ok.inj h
      rw [Bool.not_eq_true', Bool.or_eq_false_iff, decide_eq_false_iff_not,
        decide_eq_false_iff_not] at hfresh
      refine ⟨mint, hparse, rfl, rfl, ?_, ?_⟩
      · intro m hm
        obtain rfl := Option.some.inj hm
        exact hfresh
      · intro m hm
        obtain rfl := Option.some.inj hm
        exact ⟨o, hout, of_decide_eq_true hamount⟩
    · exact nomatch h

/-- A signed FREEZE or UNFREEZE records its operation, and nothing else. -/
theorem btcsoqFreeze_turn {s t : BTCSOQPass} (h : btcsoqFreeze c s payload = .ok t) :
    ∃ op, parseFreezePayload payload = some op ∧ t.mintedDeposits = s.mintedDeposits ∧
      t.toAssetPass = s.toAssetPass.recordFreeze op ∧
      FreezeTurn CTxOut.isBTCSOQ c s.toAssetPass (some op) t.toAssetPass := by
  rw [btcsoqFreeze] at h
  split at h
  · exact nomatch h
  · rename_i op hparse
    obtain ⟨_, hcheck, h⟩ := bind_eq_ok.mp h
    obtain rfl := Except.ok.inj h
    exact ⟨op, hparse, rfl, rfl, freezeTurn_of_checkFreezeOp hcheck⟩

theorem MintTurn.refl (dbMinted : Finset COutPoint) (tx : CTransaction)
    (deposits : List COutPoint) : MintTurn dbMinted tx deposits none deposits :=
  ⟨(List.append_nil _).symm, fun _ hm => (nomatch hm), fun _ hm => (nomatch hm)⟩

/-- What the signed operation does to the pass. -/
structure OperationTurn (c : AssetCtx) (dbMinted : Finset COutPoint) (s : BTCSOQPass)
    (tx : CTransaction) (nTxV8In : Int) (op : UInt8 × Bytes) (t : BTCSOQPass) : Prop where
  outpoint : t.localAuthOutpoint = s.localAuthOutpoint
  totals : t.nMinted = s.nMinted ∧ t.nBurned = s.nBurned
  freeze : FreezeTurn CTxOut.isBTCSOQ c s.toAssetPass (freezeOpOf op) t.toAssetPass
  mint : MintTurn dbMinted tx s.mintedDeposits (mintOpOf op) t.mintedDeposits
  minted : op.1 = BTCSOQ_OP_MINT → (mintOpOf op).isSome = true
  burned : op.1 = BTCSOQ_OP_BURN →
    ∃ release sats, parseBTCSOQBurnPayload op.2 = some (release, sats) ∧ nTxV8In = sats

/-- A BURN burns what it names. -/
theorem btcsoqBurn_amount (h : btcsoqBurn nTxV8In payload = .ok ()) :
    ∃ release sats, parseBTCSOQBurnPayload payload = some (release, sats) ∧ nTxV8In = sats := by
  rw [btcsoqBurn] at h
  split at h
  · cases h
  · rename_i release sats hparse
    obtain ⟨-, heq⟩ := require_bind_eq_ok.mp h
    exact ⟨release, sats, hparse, of_decide_eq_true (require_eq_ok.mp heq)⟩

/-- An operation that neither mints nor freezes leaves the pass as it is. -/
theorem OperationTurn.unchanged {s : BTCSOQPass} {op : UInt8 × Bytes}
    (hmint : op.1 ≠ BTCSOQ_OP_MINT) (hfreeze : op.1 ≠ BTCSOQ_OP_FREEZE)
    (hburned : op.1 = BTCSOQ_OP_BURN → ∃ release sats,
      parseBTCSOQBurnPayload op.2 = some (release, sats) ∧ nTxV8In = sats) :
    OperationTurn c dbMinted s tx nTxV8In op s := by
  refine ⟨rfl, ⟨rfl, rfl⟩, ?_, ?_, fun hm => absurd hm hmint, hburned⟩
  · rw [freezeOpOf, if_neg hfreeze]
    exact FreezeTurn.refl ..
  · rw [mintOpOf, if_neg hmint]
    exact MintTurn.refl ..

/-- What each kind of operation has tested. -/
theorem btcsoqOperation_turn {s t : BTCSOQPass} {tag : UInt8}
    (h : btcsoqOperation env c dbMinted s tx nTxV8In tag payload = .ok t) :
    OperationTurn c dbMinted s tx nTxV8In (tag, payload) t := by
  -- the three tags are different bytes
  have hmb : BTCSOQ_OP_MINT ≠ BTCSOQ_OP_BURN := by decide
  have hmf : BTCSOQ_OP_MINT ≠ BTCSOQ_OP_FREEZE := by decide
  have hbf : BTCSOQ_OP_BURN ≠ BTCSOQ_OP_FREEZE := by decide
  rw [btcsoqOperation] at h
  by_cases hmint : tag = BTCSOQ_OP_MINT
  · rw [if_pos hmint] at h
    obtain ⟨mint, hparse, hpass, hturn⟩ := btcsoqMint_turn h
    have hop : mintOpOf (tag, payload) = some mint := by rw [mintOpOf, if_pos hmint, hparse]
    have hnone : freezeOpOf (tag, payload) = none := by
      rw [freezeOpOf, if_neg (hmint ▸ hmf)]
    refine ⟨by rw [hpass], by rw [hpass]; exact ⟨rfl, rfl⟩, ?_, ?_, ?_, ?_⟩
    · rw [hnone, hpass]
      exact FreezeTurn.refl ..
    · rw [hop]
      exact hturn
    · rw [hop]
      exact fun _ => rfl
    · exact fun hb => absurd (hmint.symm.trans hb) hmb
  · rw [if_neg hmint] at h
    by_cases hburn : tag = BTCSOQ_OP_BURN
    · rw [if_pos hburn] at h
      obtain ⟨_, hcheck, h⟩ := bind_eq_ok.mp h
      obtain rfl := Except.ok.inj h
      exact .unchanged hmint (hburn ▸ hbf) fun _ => btcsoqBurn_amount hcheck
    · rw [if_neg hburn] at h
      by_cases hfreeze : tag = BTCSOQ_OP_FREEZE
      · rw [if_pos hfreeze] at h
        obtain ⟨op, hparse, hdep, hpass, hturn⟩ := btcsoqFreeze_turn h
        have hop : freezeOpOf (tag, payload) = some op := by
          rw [freezeOpOf, if_pos hfreeze, hparse]
        refine ⟨by rw [hpass]; rfl, by rw [hpass]; exact ⟨rfl, rfl⟩, ?_, ?_,
          fun hm => absurd hm hmint, fun hb => absurd hb hburn⟩
        · rw [hop]
          exact hturn
        · rw [mintOpOf, if_neg hmint, hdep]
          exact MintTurn.refl ..
      · rw [if_neg hfreeze] at h
        obtain rfl := Except.ok.inj h
        exact .unchanged hmint hfreeze fun hb => absurd hb hburn

/-- What the strict path has checked of an authority transaction. -/
structure BTCSOQSigned (env : Env) (c : AssetCtx) (dbMinted : Finset COutPoint) (s : BTCSOQPass)
    (tx : CTransaction) (txundo : Option CTxUndo) (op : UInt8 × Bytes) (nIn : Nat)
    (scriptCode : CScript) : Prop where
  parsed : parseBTCSOQAuthorityOp tx = some op
  mintBound : 0 < sumOf CTxOut.isBTCSOQ tx.vout → op.1 = BTCSOQ_OP_MINT
  burnBound : 0 < sumOf CTxOut.isBTCSOQ ((undoPrevouts tx txundo).map Prod.snd) →
    op.1 = BTCSOQ_OP_BURN
  input : btcsoqAuthorityInput c s.toAssetPass tx txundo
    ((authorityOutputIndex isBTCSOQAuthorityMarker tx).getD 0) = .ok (nIn, scriptCode)
  tag : getBTCSOQWitnessTag (tx.vin.getD nIn default).scriptWitness = op.1
  signed : AuthoritySigned env c.asset.authority tx nIn scriptCode
  sized : HasSizedItem (tx.vin.getD nIn default).scriptWitness

/-- A successful turn of the BTCSOQ pass on an authority transaction, from the
    enforcement height on. -/
structure BTCSOQTurn (env : Env) (c : AssetCtx) (dbMinted : Finset COutPoint) (s : BTCSOQPass)
    (tx : CTransaction) (txundo : Option CTxUndo) (op : UInt8 × Bytes) (t : BTCSOQPass) :
    Prop where
  signed : ∃ nIn scriptCode, BTCSOQSigned env c dbMinted s tx txundo op nIn scriptCode
  outpoint : t.localAuthOutpoint = markerOutpoint env isBTCSOQAuthorityMarker tx
  pending : t.pendingOutpoint = some (markerOutpoint env isBTCSOQAuthorityMarker tx)
  freeze : FreezeTurn CTxOut.isBTCSOQ c s.toAssetPass (freezeOpOf op) t.toAssetPass
  mint : MintTurn dbMinted tx s.mintedDeposits (mintOpOf op) t.mintedDeposits
  minted : op.1 = BTCSOQ_OP_MINT → (mintOpOf op).isSome = true

/-- A successful turn of the BTCSOQ pass on an authority transaction below the
    enforcement height: the marker is followed inside the block only. -/
structure BTCSOQFree (env : Env) (s : BTCSOQPass) (tx : CTransaction) (t : BTCSOQPass) :
    Prop where
  outpoint : t.localAuthOutpoint = markerOutpoint env isBTCSOQAuthorityMarker tx
  pending : t.pendingOutpoint = s.pendingOutpoint
  registry : t.frozen = s.frozen ∧ t.pendingFreezeOps = s.pendingFreezeOps
  deposits : t.mintedDeposits = s.mintedDeposits

/-- What every successful turn of the BTCSOQ pass has done to the totals and the guards. -/
structure BTCSOQTally (c : AssetCtx) (s : BTCSOQPass) (tx : CTransaction)
    (txundo : Option CTxUndo) (t : BTCSOQPass) : Prop where
  spends : ∀ p ∈ undoPrevouts tx txundo,
    btcsoqSpendGuard c s.toAssetPass (hasMarker isBTCSOQAuthorityMarker tx) p = .ok ()
  initialized : hasMarker isBTCSOQAuthorityMarker tx = true →
    c.asset.authority.isInitialized = true
  totals : if hasMarker isBTCSOQAuthorityMarker tx then
      t.nMinted = wrap64 (s.nMinted + sumOf CTxOut.isBTCSOQ tx.vout) ∧
      t.nBurned = wrap64
        (s.nBurned + sumOf CTxOut.isBTCSOQ ((undoPrevouts tx txundo).map Prod.snd))
    else t = s

/-- From the enforcement height on: the signed operation, and no change of the sums. -/
theorem btcsoqStrict_turn {s t : BTCSOQPass} {nOut : Nat}
    (hnOut : authorityOutputIndex isBTCSOQAuthorityMarker tx = some nOut)
    (h : btcsoqStrict env c dbMinted s tx txundo nOut (sumOf CTxOut.isBTCSOQ tx.vout)
      (sumOf CTxOut.isBTCSOQ ((undoPrevouts tx txundo).map Prod.snd)) = .ok t) :
    (∃ op, BTCSOQTurn env c dbMinted s tx txundo op t) ∧
      t.nMinted = s.nMinted ∧ t.nBurned = s.nBurned := by
  rw [btcsoqStrict] at h
  split at h
  · exact nomatch h
  rename_i tag payload hparse
  obtain ⟨hmint, h⟩ := require_bind_eq_ok.mp h
  obtain ⟨hburn, h⟩ := require_bind_eq_ok.mp h
  obtain ⟨⟨nIn, scriptCode⟩, hinput, h⟩ := bind_eq_ok.mp h
  replace h := after_require h
  obtain ⟨htag, h⟩ := require_bind_eq_ok.mp h
  obtain ⟨_, hsigs, h⟩ := bind_eq_ok.mp h
  obtain ⟨s₁, hop, h⟩ := bind_eq_ok.mp h
  obtain rfl := Except.ok.inj h
  have hturn := btcsoqOperation_turn hop
  have hmarker : (⟨env.getHash tx, nOut⟩ : COutPoint) =
      markerOutpoint env isBTCSOQAuthorityMarker tx := by rw [markerOutpoint, hnOut]; rfl
  have hbound : ∀ {x : Int} {b : UInt8}, (!(decide (0 < x) && decide (tag ≠ b))) = true →
      0 < x → tag = b := by
    intro x b hb hx
    simpa [hx] using hb
  refine ⟨⟨(tag, payload), ⟨nIn, scriptCode, hparse, hbound hmint, hbound hburn, ?_,
    of_decide_eq_true htag, authoritySigned_of_checkAuthoritySigs hsigs,
    hasSizedItem_of_checkAuthoritySigs hsigs⟩, hmarker,
    congrArg some hmarker, ?_, hturn.mint, hturn.minted⟩, hturn.totals⟩
  · rw [hnOut]
    exact hinput
  · exact ⟨hturn.freeze.frozen, hturn.freeze.ops, hturn.freeze.effective, hturn.freeze.live⟩

/-- What a turn of the BTCSOQ pass has tested, before and after the enforcement height. -/
theorem btcsoqTx_turn {s t : BTCSOQPass} (hcb : tx.isCoinBase = false)
    (h : btcsoqTx env c dbMinted s (tx, txundo) = .ok t) :
    BTCSOQTally c s tx txundo t ∧
      (hasMarker isBTCSOQAuthorityMarker tx →
        c.consensus.nBTCSOQAuthorityEnforcementHeight ≤ c.nHeight →
        ∃ op, BTCSOQTurn env c dbMinted s tx txundo op t) ∧
      (hasMarker isBTCSOQAuthorityMarker tx →
        c.nHeight < c.consensus.nBTCSOQAuthorityEnforcementHeight → BTCSOQFree env s tx t) := by
  rw [btcsoqTx] at h
  simp only [hcb, Bool.false_eq_true, if_false] at h
  obtain ⟨_, hspends, h⟩ := bind_eq_ok.mp h
  have hguards := forM_eq_ok.mp hspends
  cases hnOut : authorityOutputIndex isBTCSOQAuthorityMarker tx with
  | none =>
    have hmark := hasMarker_of_no_index hnOut
    simp only [hnOut] at h
    obtain rfl := Except.ok.inj h
    rw [hmark] at hguards ⊢
    refine ⟨⟨?_, ?_, ?_⟩, fun hf => (nomatch hf), fun hf => (nomatch hf)⟩
    · rwa [hmark]
    · rw [hmark]
      exact fun hf => nomatch hf
    · rw [hmark, if_neg Bool.false_ne_true]
  | some nOut =>
    have hmark := hasMarker_of_index hnOut
    simp only [hnOut] at h
    obtain ⟨hinit, h⟩ := require_bind_eq_ok.mp h
    replace h := after_require h
    obtain ⟨s₁, hstep, h⟩ := bind_eq_ok.mp h
    obtain rfl := Except.ok.inj h
    rw [btcsoqAuthorityStep] at hstep
    by_cases henf : c.nHeight < c.consensus.nBTCSOQAuthorityEnforcementHeight
    · rw [if_pos henf] at hstep
      obtain rfl := Except.ok.inj hstep
      refine ⟨⟨hguards, fun _ => hinit, ?_⟩, fun _ hle => absurd henf (not_lt.mpr hle),
        fun _ _ => ⟨?_, rfl, ⟨rfl, rfl⟩, rfl⟩⟩
      · rw [hmark, if_pos rfl]
        exact ⟨rfl, rfl⟩
      · rw [markerOutpoint, hnOut]
        rfl
    · rw [if_neg henf] at hstep
      obtain ⟨⟨op, hturn⟩, hm, hb⟩ := btcsoqStrict_turn hnOut hstep
      refine ⟨⟨hguards, fun _ => hinit, ?_⟩, fun _ _ => ⟨op, hturn.signed, hturn.outpoint,
        hturn.pending, ?_, hturn.mint, hturn.minted⟩, fun _ hlt => absurd hlt henf⟩
      · rw [hmark, if_pos rfl, ← hm, ← hb]
        exact ⟨rfl, rfl⟩
      · exact ⟨hturn.freeze.frozen, hturn.freeze.ops, hturn.freeze.effective,
          hturn.freeze.live⟩

/-! ## Turns on a coinbase -/

theorem usdsoqTx_coinbase {q : CTransaction × CTxUndo} (hcb : q.1.isCoinBase)
    (h : usdsoqTx env c s (undoPair q) = .ok t) : t = s := by
  rw [usdsoqTx, undoPair] at h
  simp only [hcb, if_true] at h
  exact (Except.ok.inj h).symm

theorem btcsoqTx_coinbase {s t : BTCSOQPass} {q : CTransaction × CTxUndo}
    (hcb : q.1.isCoinBase) (h : btcsoqTx env c dbMinted s (undoPair q) = .ok t) :
    t = s := by
  rw [btcsoqTx, undoPair] at h
  simp only [hcb, if_true] at h
  exact (Except.ok.inj h).symm

/-! ## The passes of an accepted block -/

variable {params : CChainParams} {idx : CBlockIndex} {io : NodeIO} {fJustCheck : Bool}
variable {a : Assets} {view : CoinsView} {block : CBlock} {fp : FirstPass} {p : Pending}

/-- What the USDSOQ pass of an accepted block reads. -/
def usdsoqCtx (params : CChainParams) (idx : CBlockIndex) (fJustCheck : Bool) (a : Assets)
    (view : CoinsView) : AssetCtx :=
  assetCtx params idx fJustCheck view (initAuthorities params idx a).usdsoq

/-- The context of the BTCSOQ pass in a block. -/
def btcsoqCtx (params : CChainParams) (idx : CBlockIndex) (fJustCheck : Bool) (a : Assets)
    (view : CoinsView) : AssetCtx :=
  assetCtx params idx fJustCheck view (initAuthorities params idx a).btcsoq

section

variable (h : Accepted env params idx io fJustCheck a view block fp p)
include h

theorem Accepted.usdsoq_inactive (hactive : (blockFlags params idx).usdsoq = false) :
    p.usdsoq = AssetPending.nothing := by
  have hp := h.validated.usdsoq
  rw [usdsoqStage, hactive, if_neg Bool.false_ne_true] at hp
  exact (Except.ok.inj hp).symm

theorem Accepted.btcsoq_inactive (hactive : (blockFlags params idx).btcsoq = false) :
    p.btcsoq = AssetPending.nothing ∧ p.mintedDeposits = [] := by
  have hp := h.validated.btcsoq
  rw [btcsoqStage, hactive, if_neg Bool.false_ne_true] at hp
  obtain ⟨hpending, hdeposits⟩ := Prod.mk.inj (Except.ok.inj hp)
  exact ⟨hpending.symm, hdeposits.symm⟩

/-- The USDSOQ pass of an accepted block, as one loop and the supply check. -/
theorem Accepted.usdsoq_run (hactive : (blockFlags params idx).usdsoq) :
    ∃ t supply,
      (block.vtx.zip fp.undos).foldlM
        (fun s q => usdsoqTx env (usdsoqCtx params idx fJustCheck a fp.view) s (undoPair q))
        (AssetPass.start a.usdsoq.authorityOutpoint) = .ok t ∧
      applySupplyDelta "bad-usdsoq-supply-overflow" "bad-usdsoq-supply-underflow"
        a.usdsoq.supply t.nMinted t.nBurned = .ok supply ∧
      p.usdsoq = ⟨t.pendingOutpoint, if fJustCheck then none else supply, t.pendingFreezeOps⟩ := by
  have hstage := h.validated.usdsoq
  rw [usdsoqStage, if_pos hactive, h.withUndo_eq] at hstage
  obtain ⟨t, hrun, hstage⟩ := bind_eq_ok.mp hstage
  obtain ⟨supply, hsupply, hstage⟩ := bind_eq_ok.mp hstage
  rw [List.foldlM_map] at hrun
  exact ⟨t, supply, hrun, hsupply, (Except.ok.inj hstage).symm⟩

/-- The BTCSOQ pass of an accepted block, as one loop and the supply check. -/
theorem Accepted.btcsoq_run (hactive : (blockFlags params idx).btcsoq) :
    ∃ t supply,
      (block.vtx.zip fp.undos).foldlM
        (fun s q => btcsoqTx env (btcsoqCtx params idx fJustCheck a fp.view) a.dbMinted s
          (undoPair q))
        { AssetPass.start a.btcsoq.authorityOutpoint with mintedDeposits := [] } = .ok t ∧
      applySupplyDelta "bad-btcsoq-supply-overflow" "bad-btcsoq-supply-underflow"
        a.btcsoq.supply t.nMinted t.nBurned = .ok supply ∧
      p.btcsoq = ⟨t.pendingOutpoint, supply, t.pendingFreezeOps⟩ ∧
      p.mintedDeposits = t.mintedDeposits := by
  have hstage := h.validated.btcsoq
  rw [btcsoqStage, if_pos hactive, h.withUndo_eq] at hstage
  obtain ⟨t, hrun, hstage⟩ := bind_eq_ok.mp hstage
  obtain ⟨supply, hsupply, hstage⟩ := bind_eq_ok.mp hstage
  obtain ⟨hpend, hminted⟩ := Prod.mk.inj (Except.ok.inj hstage)
  rw [List.foldlM_map] at hrun
  exact ⟨t, supply, hrun, hsupply, hpend.symm, hminted.symm⟩

end

end Soqucoin
