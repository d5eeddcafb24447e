import Soqucoin.ConnectBlock

/-! # Mempool — acceptance of a transaction into an empty pool

`AcceptToMemoryPoolWorker` of `validation.cpp`, on a tip whose next block has the index `idx`.
The asset rules, which mirror those of `ConnectBlock`, are written out; the tests of relay policy
(standardness, lock times, fees, ancestor limits) are parameters, so what is proved holds whatever
they say. -/

namespace Soqucoin

open CheckedLoop

/-- Settings of the node and the tests of relay policy. -/
structure MempoolPolicy where
  witnessEnabled : Bool
  /-- `-prematurewitness`. -/
  prematureWitness : Bool
  fRequireStandard : Bool
  /-- `-promiscuousmempoolflags`, for networks that do not require standard transactions. -/
  promiscuousFlags : Option ScriptFlags
  /-- The reason why a transaction is not standard, if it is not. -/
  isStandardTx : CTransaction → Option String
  checkFinalTx : CTransaction → Bool
  checkSequenceLocks : CoinsView → CTransaction → Bool
  areInputsStandard : CoinsView → CTransaction → Bool
  isWitnessStandard : CoinsView → CTransaction → Bool
  /-- Sigop limit, minimum fees, free relay, absurd fees, ancestor limits and the
      size of the pool, on the native fee and the sigop cost. -/
  relayLimits : CTransaction → Int → Int → Check Unit

/-- The part of `STANDARD_SCRIPT_VERIFY_FLAGS` that blocks are checked with.  The
    other flags of it only reject more scripts. -/
def standardScriptVerifyFlags : ScriptFlags where
  p2sh := true
  dersig := true
  checkLockTimeVerify := true
  checkSequenceVerify := true
  witness := true
  nulldummy := true
  pat := false
  latticefold := false
  soquobscura := false
  usdsoq := false
  btcsoq := false
  ctv := false
  apo := false
  csfs := false
  p2wshDilithium := false
  dilithiumKeyhash := false
  v6Controlflow := false
  scriptRestore := true

/-- `MANDATORY_SCRIPT_VERIFY_FLAGS`. -/
def mandatoryScriptVerifyFlags : ScriptFlags := standardScriptVerifyFlags.mandatory

/-- `flags | NextBlockDeploymentScriptFlags()`. -/
def ScriptFlags.orNextBlock (params : CChainParams) (idx : CBlockIndex) (f : ScriptFlags) :
    ScriptFlags :=
  let next := blockFlags params idx
  { f with
    ctv := f.ctv || next.ctv
    apo := f.apo || next.apo
    csfs := f.csfs || next.csfs
    p2wshDilithium := f.p2wshDilithium || next.p2wshDilithium
    dilithiumKeyhash := f.dilithiumKeyhash || next.dilithiumKeyhash
    v6Controlflow := f.v6Controlflow || next.v6Controlflow
    pat := f.pat || next.pat
    latticefold := f.latticefold || next.latticefold
    soquobscura := f.soquobscura || next.soquobscura
    usdsoq := f.usdsoq || next.usdsoq
    btcsoq := f.btcsoq || next.btcsoq }

/-- The inputs that are unspent, with what they spend. -/
def availableInputs (view : CoinsView) (tx : CTransaction) : List (COutPoint × CTxOut) :=
  tx.vin.filterMap fun txin => (view.output txin.prevout).map fun o => (txin.prevout, o)

/-- The outputs that a transaction spends, as far as they are there. -/
def availableOutputs (view : CoinsView) (tx : CTransaction) : List CTxOut :=
  (availableInputs view tx).map Prod.snd

/-! ## Authority transactions -/

/-- The USDSOQ mirror: an authority transaction spends the tracked outpoint, when one is tracked. -/
def usdsoqMirror (a : AssetState) (tx : CTransaction) : Check Unit :=
  skipIf (!(hasMarker isUSDSOQAuthorityMarker tx && !a.authorityOutpoint.isNull))
    (require (tx.vin.any fun txin => txin.prevout = a.authorityOutpoint)
      (.dos 100 "bad-usdsoq-authority-outpoint-mempool"))

/-- The mirror's test of a mint: its payload, recipient and deposit. -/
def btcsoqMintMirror (env : Env) (dbMinted : Finset COutPoint) (tx : CTransaction)
    (payload : Bytes) : Check Unit :=
  match parseBTCSOQMintPayload payload with
  | none => .error (.dos 100 "bad-btcsoq-mint-payload")
  | some mint =>
    match tx.vout.filter CTxOut.isBTCSOQ with
    | [o] => do
        require (o.nValue = mint.sats) (.dos 100 "bad-btcsoq-mint-amount")
        require (computeBTCSOQRecipientCommitment env o.scriptPubKey = mint.recipient)
          (.dos 100 "bad-btcsoq-mint-recipient")
        require (!(mint.deposit ∈ dbMinted)) (.dos 100 "bad-btcsoq-double-mint")
    | _ => .error (.dos 100 "bad-btcsoq-mint-outputs")

/-- The mirror of the operation rules.  It has none for FREEZE. -/
def btcsoqOperationMirror (env : Env) (dbMinted : Finset COutPoint) (tx : CTransaction)
    (nV8In : Int) (tag : UInt8) (payload : Bytes) : Check Unit :=
  if tag = BTCSOQ_OP_MINT then btcsoqMintMirror env dbMinted tx payload
  else if tag = BTCSOQ_OP_BURN then btcsoqBurn nV8In payload
  else .ok ()

/-- The authority input and its script code: the input that spends the tracked
    outpoint, or input 0 with the script of the new marker at bootstrap. -/
def btcsoqMirrorInput (env : Env) (a : AssetState) (view : CoinsView) (tx : CTransaction) :
    Option (Nat × CScript) :=
  if a.authorityOutpoint.isNull then
    some (0, ((tx.vout.find? fun o => isBTCSOQAuthorityMarker o.scriptPubKey).map
      CTxOut.scriptPubKey).getD [])
  else
    (tx.vin.findIdx? fun txin => txin.prevout = a.authorityOutpoint).map fun k =>
      (k, match view.output a.authorityOutpoint with
        | some o => o.scriptPubKey
        | none => witnessScript OP_9 (computeAuthorityKeyHash env a.authority.keys))

/-- The mirror of the signature rules. -/
def btcsoqSigMirror (env : Env) (a : AssetState) (view : CoinsView) (tx : CTransaction)
    (tag : UInt8) : Check Unit :=
  match btcsoqMirrorInput env a view tx with
  | none => .error (.dos 100 "bad-btcsoq-authority-sig")
  | some (nIn, scriptCode) => do
      let stack := (tx.vin.getD nIn default).scriptWitness
      require (nIn < tx.vin.length && !stack.isEmpty) (.dos 100 "bad-btcsoq-authority-sig")
      require (getBTCSOQWitnessTag stack = tag) (.dos 100 "bad-btcsoq-tag-mismatch")
      checkAuthoritySigs env "bad-btcsoq-authority-sig" a.authority tx nIn scriptCode

/-- The authority rules of BTCSOQ, as the mempool repeats them. -/
def btcsoqMirror (env : Env) (fActive : Bool) (a : AssetState) (dbMinted : Finset COutPoint)
    (view : CoinsView) (tx : CTransaction) : Check Unit :=
  skipIf (!(hasMarker isBTCSOQAuthorityMarker tx && fActive)) do
    require a.authority.isInitialized (.dos 100 "bad-btcsoq-authority-unavailable")
    require (a.authorityOutpoint.isNull ||
      tx.vin.any fun txin => txin.prevout = a.authorityOutpoint)
      (.dos 100 "bad-btcsoq-authority-outpoint-mempool")
    require (!a.authorityOutpoint.isNull || (a.dbAuthorityOutpoint.getD COutPoint.null).isNull)
      (.dos 100 "bad-btcsoq-bootstrap-reentry")
    match parseBTCSOQAuthorityOp tx with
    | none => .error (.dos 100 "bad-btcsoq-missing-op")
    | some (tag, payload) => do
        let nV8Out := sumOf CTxOut.isBTCSOQ tx.vout
        let nV8In := sumOf CTxOut.isBTCSOQ (availableOutputs view tx)
        require (tx.vout.all fun o => !o.isConfidential)
          (.dos 100 "bad-btcsoq-authority-must-be-transparent")
        require (!(0 < nV8Out && tag ≠ BTCSOQ_OP_MINT)) (.dos 100 "bad-btcsoq-unbound-mint")
        require (!(0 < nV8In && tag ≠ BTCSOQ_OP_BURN)) (.dos 100 "bad-btcsoq-unbound-burn")
        btcsoqOperationMirror env dbMinted tx nV8In tag payload
        btcsoqSigMirror env a view tx tag

/-! ## Transfers and frozen coins -/

/-- `bad-txns-usdsoq-not-conserved`, before the pool entry is built. -/
def usdsoqConservationMirror (view : CoinsView) (tx : CTransaction) : Check Unit :=
  skipIf (hasMarker isUSDSOQAuthorityMarker tx)
    (require (sumOf CTxOut.isUSDSOQ (availableOutputs view tx) = sumOf CTxOut.isUSDSOQ tx.vout)
      (.dos 100 "bad-txns-usdsoq-not-conserved"))

/-- Without a marker, no BTCSOQ marker may be spent and BTCSOQ values must balance. -/
def btcsoqTransferMirror (fActive : Bool) (view : CoinsView) (tx : CTransaction) : Check Unit :=
  skipIf (hasMarker isBTCSOQAuthorityMarker tx) do
    require (!fActive ||
        (availableOutputs view tx).all fun o => !isBTCSOQAuthorityMarker o.scriptPubKey)
      (.dos 100 "bad-btcsoq-marker-spend")
    require (sumOf CTxOut.isBTCSOQ (availableOutputs view tx) = sumOf CTxOut.isBTCSOQ tx.vout)
      (.dos 100 "bad-txns-btcsoq-not-conserved")

/-- Without a marker, no USDSOQ marker may be spent. -/
def usdsoqMarkerMirror (fActive : Bool) (view : CoinsView) (tx : CTransaction) : Check Unit :=
  skipIf (!(fActive && !hasMarker isUSDSOQAuthorityMarker tx))
    (require ((availableOutputs view tx).all fun o => !isUSDSOQAuthorityMarker o.scriptPubKey)
      (.dos 100 "bad-usdsoq-marker-spend"))

/-- The frozen registries, for one input. -/
def frozenMirror (a : Assets) (p : COutPoint × CTxOut) : Check Unit := do
  require (!(p.2.isAnyUSDSOQ && p.1 ∈ a.usdsoq.dbFrozen)) (.dos 100 "bad-txns-spend-frozen-usdsoq")
  require (!(p.2.isBTCSOQ && p.1 ∈ a.btcsoq.dbFrozen)) (.dos 100 "bad-txns-spend-frozen-btcsoq")

/-! ## Acceptance -/

/-- `IsStandardTx`, on networks that ask for it. -/
def checkStandardTx (policy : MempoolPolicy) (tx : CTransaction) : Check Unit :=
  skipIf (!policy.fRequireStandard) <|
    match policy.isStandardTx tx with
    | some reason => .error (.dos 0 reason)
    | none => .ok ()

/-- `AcceptToMemoryPoolWorker`, with the relay policy as a parameter. -/
def acceptToMemoryPool (env : Env) (params : CChainParams) (idx : CBlockIndex)
    (policy : MempoolPolicy) (a : Assets) (view : CoinsView) (tx : CTransaction) : Check Unit := do
  let next := blockFlags params idx
  checkTransaction tx
  require (!tx.isCoinBase) (.dos 100 "coinbase")
  require (policy.prematureWitness || !tx.hasWitness || policy.witnessEnabled)
    (.dos 0 "no-witness-yet")
  checkStandardTx policy tx
  require (policy.checkFinalTx tx) (.dos 0 "non-final")
  require (view.record (env.getHash tx)).isPruned (.invalid "txn-already-known")
  -- Missing inputs are reported by a flag, without a reason.
  require (tx.vin.all fun txin => !(view.record txin.prevout.hash).isPruned) (.invalid "")
  require (view.haveInputs tx) (.invalid "bad-txns-inputs-spent")
  require (policy.checkSequenceLocks view tx) (.dos 0 "non-BIP68-final")
  require (!policy.fRequireStandard || policy.areInputsStandard view tx)
    (.invalid "bad-txns-nonstandard-inputs")
  require (!(tx.hasWitness && policy.fRequireStandard) || policy.isWitnessStandard view tx)
    (.dos 0 "bad-witness-nonstandard")
  usdsoqMirror a.usdsoq tx
  btcsoqMirror env next.btcsoq a.btcsoq a.dbMinted view tx
  usdsoqConservationMirror view tx
  btcsoqTransferMirror next.btcsoq view tx
  usdsoqMarkerMirror next.usdsoq view tx
  forM (availableInputs view tx) (frozenMirror a)
  let nSigOpsCost := env.getTransactionSigOpCost tx (spentOutputs view tx)
    (standardScriptVerifyFlags.orNextBlock params idx)
  policy.relayLimits tx (nativeFee view tx) nSigOpsCost
  let flags := ((if policy.fRequireStandard then none else policy.promiscuousFlags).getD
    standardScriptVerifyFlags).orNextBlock params idx
  let _ ← checkInputs env params a view tx idx.nHeight true flags false
  let _ ← checkInputs env params a view tx idx.nHeight true mandatoryScriptVerifyFlags false
  .ok ()

end Soqucoin
