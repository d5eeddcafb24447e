import Soqucoin.BlockRules

/-! # Asset rules — the two authority passes of `ConnectBlock`

After the first pass, `ConnectBlock` goes over the transactions once for each active asset.  The
pass follows the authority marker from transaction to transaction, checks authority signatures and
freeze operations, and adds up what was minted and burned.  It writes nothing: its results are
pending until the whole block has been accepted. -/

namespace Soqucoin

open CheckedLoop Toggle

/-- What a pass reads. -/
structure AssetCtx where
  consensus : Consensus
  nHeight : Int
  flags : ScriptFlags
  fJustCheck : Bool
  /-- The coins view after the whole block. -/
  view : CoinsView
  asset : AssetState

/-- What a pass accumulates. -/
structure AssetPass where
  localAuthOutpoint : COutPoint
  /-- The outpoint to commit, if any. -/
  pendingOutpoint : Option COutPoint
  frozen : Overlay COutPoint
  pendingFreezeOps : List FreezeOp
  nMinted : Int
  nBurned : Int

/-- The state at the start of a block. -/
def AssetPass.start (outpoint : COutPoint) : AssetPass :=
  ⟨outpoint, none, Overlay.empty, [], 0, 0⟩

/-- The outputs a transaction spent, read from its undo data. -/
def undoPrevouts (tx : CTransaction) (txundo : Option CTxUndo) : List (COutPoint × CTxOut) :=
  (tx.vin.zip (txundo.getD [])).map fun p => (p.1.prevout, p.2.txout)

/-- `total += value` over the outputs of one kind. -/
def addValues (total : Int) (p : CTxOut → Bool) (outs : List CTxOut) : Int :=
  SignedWord.accumulate 64 total ((outs.filter p).map CTxOut.nValue)

/-- The registry as the block's own operations show it. -/
def isFrozenNow (db : Finset COutPoint) (ov : Overlay COutPoint) (o : COutPoint) : Bool :=
  o ∈ ov.added || (o ∉ ov.removed && o ∈ db)

/-- A freeze operation must freeze a live holding that is not frozen, or unfreeze one that is. -/
def checkFreezeOp (isHolding : CTxOut → Bool) (deadTarget redundant notFrozen : String)
    (c : AssetCtx) (ov : Overlay COutPoint) (op : FreezeOp) : Check Unit :=
  if op.adds then do
    require ((c.view.output op.key).any isHolding) (.dos 100 deadTarget)
    require (!isFrozenNow c.asset.dbFrozen ov op.key) (.dos 100 redundant)
  else
    require (!(op.key ∈ ov.removed || (op.key ∉ ov.added && op.key ∉ c.asset.dbFrozen)))
      (.dos 100 notFrozen)

/-- Note a freeze operation, for later transactions of the block and for the commit. -/
def AssetPass.recordFreeze (s : AssetPass) (op : FreezeOp) : AssetPass :=
  { s with
    frozen := s.frozen.record op
    pendingFreezeOps := s.pendingFreezeOps ++ [op] }

/-- The signatures in the witness of an input verify over its `SIGHASH_ALL`
    digest under the authority. -/
def checkAuthoritySigs (env : Env) (reason : String) (authority : Authority) (tx : CTransaction)
    (nIn : Nat) (scriptCode : CScript) : Check Unit := do
  let sigs := extractWitnessSignatures (tx.vin.getD nIn default).scriptWitness
  require (!sigs.isEmpty) (.dos 100 reason)
  let sighash := env.signatureHash scriptCode tx nIn SIGHASH_ALL 0 .witnessV0
  require (authority.verifyAuthoritySignatures env sighash.bytes sigs) (.dos 100 reason)

/-- The supply after the block, if the block moved it. -/
def applySupplyDelta (overflow underflow : String) (supply : Supply) (nMinted nBurned : Int) :
    Check (Option Supply) :=
  if 0 < nMinted || 0 < nBurned then
    match (if 0 < nMinted then supply.mint nMinted else some supply) with
    | none => .error (.dos 100 overflow)
    | some minted =>
      match (if 0 < nBurned then minted.burn nBurned else some minted) with
      | none => .error (.dos 100 underflow)
      | some after => .ok (some after)
  else .ok none

/-! ## USDSOQ -/

/-- The script code of the tracked marker: its script while the view still has
    it, the script of the key set otherwise. -/
def usdsoqScriptCode (env : Env) (view : CoinsView) (authority : Authority)
    (outpoint : COutPoint) : CScript :=
  match view.output outpoint with
  | some o => o.scriptPubKey
  | none => witnessScript OP_5 (computeAuthorityKeyHash env authority.keys)

/-- The input taken for the authority input, with its script code: the one that
    spends the tracked outpoint; while none is tracked, the first one whose
    coin is a marker that the view still has. -/
def findUSDSOQAuthorityInput (env : Env) (view : CoinsView) (authority : Authority)
    (tracked : COutPoint) (tx : CTransaction) : Option (Nat × CScript) :=
  if tracked.isNull then
    tx.vin.zipIdx.findSome? fun p =>
      match view.output p.1.prevout with
      | some o =>
        if isUSDSOQAuthorityMarker o.scriptPubKey then some (p.2, o.scriptPubKey) else none
      | none => none
  else
    (tx.vin.findIdx? fun txin => txin.prevout = tracked).map fun k =>
      (k, usdsoqScriptCode env view authority tracked)

/-- The bootstrap of the marker chain: the first marker is authorised by the witness of input 0. -/
def usdsoqBootstrap (env : Env) (c : AssetCtx) (s : AssetPass) (tx : CTransaction)
    (nOut : Nat) : Check AssetPass := do
  let marker : COutPoint := ⟨env.getHash tx, nOut⟩
  require ((c.asset.dbAuthorityOutpoint.getD COutPoint.null).isNull)
    (.dos 100 "bad-usdsoq-bootstrap-reentry")
  require (!(tx.vin.getD 0 default).scriptWitness.isEmpty) (.dos 100 "bad-usdsoq-authority-sig")
  checkAuthoritySigs env "bad-usdsoq-authority-sig" c.asset.authority tx 0
    (tx.vout.getD nOut default).scriptPubKey
  .ok { s with
        localAuthOutpoint := marker
        pendingOutpoint := if c.fJustCheck then s.pendingOutpoint else some marker }

/-- Authority enforcement for one transaction. -/
def usdsoqAuthorityStep (env : Env) (c : AssetCtx) (s : AssetPass) (tx : CTransaction) :
    Check AssetPass :=
  match authorityOutputIndex isUSDSOQAuthorityMarker tx with
  | none => .ok s
  | some nOut =>
    let marker : COutPoint := ⟨env.getHash tx, nOut⟩
    if !c.asset.authority.isInitialized then
      .error (.dos 100 "bad-usdsoq-authority-unavailable")
    else if c.nHeight < c.consensus.nUSDSOQAuthorityEnforcementHeight then
      .ok { s with localAuthOutpoint := marker }
    else
      match findUSDSOQAuthorityInput env c.view c.asset.authority s.localAuthOutpoint tx with
      | some (nIn, scriptCode) =>
        -- An authority input without a witness passes here: the source has
        -- one branch for a witness and one for no authority input.
        if (tx.vin.getD nIn default).scriptWitness.isEmpty then .ok s
        else do
          checkAuthoritySigs env "bad-usdsoq-authority-sig" c.asset.authority tx nIn scriptCode
          .ok { s with localAuthOutpoint := marker, pendingOutpoint := some marker }
      | none =>
        if s.localAuthOutpoint.isNull then usdsoqBootstrap env c s tx nOut
        else do
          require (c.nHeight < c.consensus.nUSDSOQAuthorityInputEnforcementHeight)
            (.dos 100 "bad-usdsoq-authority-outpoint")
          .ok { s with
                localAuthOutpoint := marker
                pendingOutpoint := if c.fJustCheck then s.pendingOutpoint else some marker }

/-- The freeze operation of a transaction, where it counts. -/
def usdsoqFreezeOp (consensus : Consensus) (nHeight : Int) (tx : CTransaction) : Option FreezeOp :=
  if hasMarker isUSDSOQAuthorityMarker tx &&
      consensus.nUSDSOQAuthorityEnforcementHeight ≤ nHeight then parseUSDSOQFreezeOp tx
  else none

/-- The freeze operation of an authority transaction, if it has one. -/
def usdsoqFreezeStep (c : AssetCtx) (s : AssetPass) (tx : CTransaction) : Check AssetPass :=
  match usdsoqFreezeOp c.consensus c.nHeight tx with
  | none => .ok s
  | some op => do
      checkFreezeOp CTxOut.isAnyUSDSOQ "bad-usdsoq-freeze-dead-target"
        "bad-usdsoq-freeze-redundant" "bad-usdsoq-unfreeze-redundant" c s.frozen op
      .ok (s.recordFreeze op)

/-- Markers are spent by authority transactions only, and frozen holdings by none. -/
def usdsoqSpendGuard (c : AssetCtx) (s : AssetPass) (isAuthorityTx : Bool)
    (p : COutPoint × CTxOut) : Check Unit := do
  require (!(isUSDSOQAuthorityMarker p.2.scriptPubKey && !isAuthorityTx))
    (.dos 100 "bad-usdsoq-marker-spend")
  require (!(p.2.isAnyUSDSOQ && isFrozenNow c.asset.dbFrozen s.frozen p.1))
    (.dos 100 "bad-txns-spend-frozen-usdsoq")

/-- Confidential holdings: never in an authority transaction, and only with the
    privacy layer elsewhere. -/
def usdsoqOutputGuard (c : AssetCtx) (isAuthorityTx : Bool) (o : CTxOut) : Check Unit := do
  require (!(o.isAnyUSDSOQ && isAuthorityTx && o.isConfidential))
    (.dos 100 "bad-txns-usdsoq-authority-must-be-transparent")
  require (!(o.isAnyUSDSOQ && !isAuthorityTx && o.isConfidential && !c.flags.soquobscura))
    (.dos 100 "bad-txns-usdsoq-confidential-not-active")

/-- One transaction of the USDSOQ pass. -/
def usdsoqTx (env : Env) (c : AssetCtx) (s : AssetPass) (p : CTransaction × Option CTxUndo) :
    Check AssetPass :=
  let (tx, txundo) := p
  if tx.isCoinBase then .ok s
  else do
    let isAuthorityTx := hasMarker isUSDSOQAuthorityMarker tx
    let prevs := undoPrevouts tx txundo
    let s ← usdsoqAuthorityStep env c s tx
    let s ← usdsoqFreezeStep c s tx
    forM prevs (usdsoqSpendGuard c s isAuthorityTx)
    forM tx.vout (usdsoqOutputGuard c isAuthorityTx)
    if !isAuthorityTx then .ok s
    else do
      require (prevs.all fun p => !(p.2.isAnyUSDSOQ && p.2.isConfidential))
        (.dos 100 "bad-txns-usdsoq-conf-input")
      .ok { s with
            nMinted := addValues s.nMinted (fun o => o.isAnyUSDSOQ && o.isTransparent) tx.vout
            nBurned := addValues s.nBurned CTxOut.isAnyUSDSOQ (prevs.map Prod.snd) }

/-- What the commit writes for one asset. -/
structure AssetPending where
  outpoint : Option COutPoint
  supply : Option Supply
  freezeOps : List FreezeOp

/-- A block leaves the asset as it is. -/
def AssetPending.nothing : AssetPending := ⟨none, none, []⟩

/-- The loop over the block, then the supply check on its totals. -/
def usdsoqPass (env : Env) (c : AssetCtx) (txs : List (CTransaction × Option CTxUndo)) :
    Check AssetPending := do
  let s ← txs.foldlM (usdsoqTx env c) (AssetPass.start c.asset.authorityOutpoint)
  let supply ← applySupplyDelta "bad-usdsoq-supply-overflow" "bad-usdsoq-supply-underflow"
    c.asset.supply s.nMinted s.nBurned
  .ok ⟨s.pendingOutpoint, if c.fJustCheck then none else supply, s.pendingFreezeOps⟩

/-! ## BTCSOQ -/

/-- The BTCSOQ pass also collects the deposits it mints against. -/
structure BTCSOQPass extends AssetPass where
  mintedDeposits : List COutPoint

/-- Markers are spent by authority transactions only, and frozen holdings by none. -/
def btcsoqSpendGuard (c : AssetCtx) (s : AssetPass) (isAuthorityTx : Bool)
    (p : COutPoint × CTxOut) : Check Unit := do
  require (!(isBTCSOQAuthorityMarker p.2.scriptPubKey && !isAuthorityTx))
    (.dos 100 "bad-btcsoq-marker-spend")
  require (!(p.2.isBTCSOQ && isFrozenNow c.asset.dbFrozen s.frozen p.1))
    (.dos 100 "bad-txns-spend-frozen-btcsoq")

/-- The authority input and its script code: the input that spends the tracked
    outpoint, or input 0 with the new marker's script at bootstrap. -/
def btcsoqAuthorityInput (c : AssetCtx) (s : AssetPass) (tx : CTransaction)
    (txundo : Option CTxUndo) (nOut : Nat) : Check (Nat × CScript) :=
  if s.localAuthOutpoint.isNull then do
    require ((c.asset.dbAuthorityOutpoint.getD COutPoint.null).isNull)
      (.dos 100 "bad-btcsoq-bootstrap-reentry")
    .ok (0, (tx.vout.getD nOut default).scriptPubKey)
  else
    match tx.vin.findIdx? fun txin => txin.prevout = s.localAuthOutpoint with
    | none => .error (.dos 100 "bad-btcsoq-authority-outpoint")
    | some nIn =>
      match c.view.output s.localAuthOutpoint, (txundo.getD [])[nIn]? with
      | some o, _ => .ok (nIn, o.scriptPubKey)
      | none, some undo => .ok (nIn, undo.txout.scriptPubKey)
      | none, none => .error (.dos 100 "bad-btcsoq-authority-sig")

/-- The MINT operation: one holding output, of the attested amount, to the
    attested recipient, against a deposit not minted before. -/
def btcsoqMint (env : Env) (dbMinted : Finset COutPoint) (s : BTCSOQPass) (tx : CTransaction)
    (payload : Bytes) : Check BTCSOQPass :=
  match parseBTCSOQMintPayload payload with
  | none => .error (.dos 100 "bad-btcsoq-mint-payload")
  | some mint =>
    match tx.vout.filter CTxOut.isBTCSOQ with
    | [o] => do
        require (o.nValue = mint.sats) (.dos 100 "bad-btcsoq-mint-amount")
        require (computeBTCSOQRecipientCommitment env o.scriptPubKey = mint.recipient)
          (.dos 100 "bad-btcsoq-mint-recipient")
        require (!(mint.deposit ∈ s.mintedDeposits || mint.deposit ∈ dbMinted))
          (.dos 100 "bad-btcsoq-double-mint")
        .ok { s with mintedDeposits := s.mintedDeposits ++ [mint.deposit] }
    | _ => .error (.dos 100 "bad-btcsoq-mint-outputs")

/-- The BURN operation: the holdings spent are those of the release intent. -/
def btcsoqBurn (nTxV8In : Int) (payload : Bytes) : Check Unit :=
  match parseBTCSOQBurnPayload payload with
  | none => .error (.dos 100 "bad-btcsoq-burn-payload")
  | some (_, burnSats) => do
      require (0 < nTxV8In) (.dos 100 "bad-btcsoq-burn-empty")
      require (nTxV8In = burnSats) (.dos 100 "bad-btcsoq-burn-amount")

/-- The signed operation FREEZE: its target must be a live coin in the other state. -/
def btcsoqFreeze (c : AssetCtx) (s : BTCSOQPass) (payload : Bytes) : Check BTCSOQPass :=
  match parseFreezePayload payload with
  | none => .error (.dos 100 "bad-btcsoq-freeze-payload")
  | some op => do
      checkFreezeOp CTxOut.isBTCSOQ "bad-btcsoq-freeze-dead-target"
        "bad-btcsoq-freeze-redundant" "bad-btcsoq-unfreeze-redundant" c s.frozen op
      .ok { s with toAssetPass := s.toAssetPass.recordFreeze op }

/-- The operation an authority transaction has signed. -/
def btcsoqOperation (env : Env) (c : AssetCtx) (dbMinted : Finset COutPoint) (s : BTCSOQPass)
    (tx : CTransaction) (nTxV8In : Int) (tag : UInt8) (payload : Bytes) : Check BTCSOQPass :=
  if tag = BTCSOQ_OP_MINT then btcsoqMint env dbMinted s tx payload
  else if tag = BTCSOQ_OP_BURN then do
    btcsoqBurn nTxV8In payload
    .ok s
  else if tag = BTCSOQ_OP_FREEZE then btcsoqFreeze c s payload
  else .ok s

/-- The strict path for an authority transaction, from the enforcement height on. -/
def btcsoqStrict (env : Env) (c : AssetCtx) (dbMinted : Finset COutPoint) (s : BTCSOQPass)
    (tx : CTransaction) (txundo : Option CTxUndo) (nOut : Nat) (nTxV8Out nTxV8In : Int) :
    Check BTCSOQPass :=
  match parseBTCSOQAuthorityOp tx with
  | none => .error (.dos 100 "bad-btcsoq-missing-op")
  | some (tag, payload) => do
      require (!(0 < nTxV8Out && tag ≠ BTCSOQ_OP_MINT)) (.dos 100 "bad-btcsoq-unbound-mint")
      require (!(0 < nTxV8In && tag ≠ BTCSOQ_OP_BURN)) (.dos 100 "bad-btcsoq-unbound-burn")
      let (nIn, scriptCode) ← btcsoqAuthorityInput c s.toAssetPass tx txundo nOut
      let stack := (tx.vin.getD nIn default).scriptWitness
      require (!stack.isEmpty) (.dos 100 "bad-btcsoq-authority-sig")
      require (getBTCSOQWitnessTag stack = tag) (.dos 100 "bad-btcsoq-tag-mismatch")
      checkAuthoritySigs env "bad-btcsoq-authority-sig" c.asset.authority tx nIn scriptCode
      let s ← btcsoqOperation env c dbMinted s tx nTxV8In tag payload
      let marker : COutPoint := ⟨env.getHash tx, nOut⟩
      .ok { s with localAuthOutpoint := marker, pendingOutpoint := some marker }

/-- Authority enforcement for one authority transaction. -/
def btcsoqAuthorityStep (env : Env) (c : AssetCtx) (dbMinted : Finset COutPoint) (s : BTCSOQPass)
    (tx : CTransaction) (txundo : Option CTxUndo) (nOut : Nat) (nTxV8Out nTxV8In : Int) :
    Check BTCSOQPass :=
  if c.nHeight < c.consensus.nBTCSOQAuthorityEnforcementHeight then
    .ok { s with localAuthOutpoint := ⟨env.getHash tx, nOut⟩ }
  else btcsoqStrict env c dbMinted s tx txundo nOut nTxV8Out nTxV8In

/-- One transaction of the BTCSOQ pass. -/
def btcsoqTx (env : Env) (c : AssetCtx) (dbMinted : Finset COutPoint) (s : BTCSOQPass)
    (p : CTransaction × Option CTxUndo) : Check BTCSOQPass :=
  let (tx, txundo) := p
  if tx.isCoinBase then .ok s
  else do
    let prevs := undoPrevouts tx txundo
    let nTxV8Out := sumOf CTxOut.isBTCSOQ tx.vout
    let nTxV8In := sumOf CTxOut.isBTCSOQ (prevs.map Prod.snd)
    forM prevs (btcsoqSpendGuard c s.toAssetPass (hasMarker isBTCSOQAuthorityMarker tx))
    match authorityOutputIndex isBTCSOQAuthorityMarker tx with
    | none => .ok s
    | some nOut => do
        require c.asset.authority.isInitialized (.dos 100 "bad-btcsoq-authority-unavailable")
        require (tx.vout.all fun o => !o.isConfidential)
          (.dos 100 "bad-btcsoq-authority-must-be-transparent")
        let s ← btcsoqAuthorityStep env c dbMinted s tx txundo nOut nTxV8Out nTxV8In
        .ok { s with
              nMinted := wrap64 (s.nMinted + nTxV8Out)
              nBurned := wrap64 (s.nBurned + nTxV8In) }

/-- The loop over the block, then the supply check on its totals. -/
def btcsoqPass (env : Env) (c : AssetCtx) (dbMinted : Finset COutPoint)
    (txs : List (CTransaction × Option CTxUndo)) : Check (AssetPending × List COutPoint) := do
  let s ← txs.foldlM (btcsoqTx env c dbMinted)
    { AssetPass.start c.asset.authorityOutpoint with mintedDeposits := [] }
  let supply ← applySupplyDelta "bad-btcsoq-supply-overflow" "bad-btcsoq-supply-underflow"
    c.asset.supply s.nMinted s.nBurned
  .ok (⟨s.pendingOutpoint, supply, s.pendingFreezeOps⟩, s.mintedDeposits)

end Soqucoin
