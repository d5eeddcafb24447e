import Soqucoin.AssetRules

/-! # Block connection and disconnection

`ConnectBlock` and `DisconnectBlock` of `validation.cpp`, as functions of the asset state, the
coins view and the block.

The view is the caller's scratch cache, which is dropped on failure; the asset state is not, so
every result carries the asset state the call leaves behind, whatever its verdict. -/

namespace Soqucoin

open CheckedLoop

/-! ## Connection -/

/-- Settings of the node, and how its writes to disk go. -/
structure NodeIO where
  /-- `nScriptCheckThreads != 0`: script checks are queued. -/
  scriptThreads : Bool
  /-- The block has no undo data on disk yet. -/
  undoPosNull : Bool
  findUndoPos : Bool
  undoWriteToDisk : Bool
  fTxIndex : Bool
  writeTxIndex : Bool

/-- What `ConnectBlock` returns and leaves behind. -/
structure ConnectResult where
  verdict : Check Unit
  assets : Assets
  view : CoinsView
  /-- The undo data on disk; the genesis block has none. -/
  blockundo : Option CBlockUndo

/-- No transaction of the block may overwrite an unspent record (BIP30), unless
    the chain is the one of the BIP34 exemption. -/
def checkBIP30 (env : Env) (params : CChainParams) (idx : CBlockIndex) (view : CoinsView)
    (vtx : List CTransaction) : Check Unit :=
  skipIf (idx.bip34Ancestor = some (params.getConsensus 0).BIP34Hash)
    (require (vtx.all fun tx => (view.record (env.getHash tx)).isPruned)
      (.dos 100 "bad-txns-BIP30"))

/-- What `ConnectBlock` has validated and not yet committed. -/
structure Pending where
  view : CoinsView
  blockundo : CBlockUndo
  usdsoq : AssetPending
  btcsoq : AssetPending
  mintedDeposits : List COutPoint

/-- The context of an asset's pass in a block. -/
def assetCtx (params : CChainParams) (idx : CBlockIndex) (fJustCheck : Bool) (view : CoinsView)
    (asset : AssetState) : AssetCtx :=
  { consensus := params.getConsensus idx.nHeight
    nHeight := idx.nHeight
    flags := blockFlags params idx
    fJustCheck := fJustCheck
    view := view
    asset := asset }

/-- The USDSOQ pass where the deployment is active. -/
def usdsoqStage (env : Env) (params : CChainParams) (idx : CBlockIndex) (fJustCheck : Bool)
    (a : Assets) (view : CoinsView) (txs : List (CTransaction × Option CTxUndo)) :
    Check AssetPending :=
  if (blockFlags params idx).usdsoq then
    usdsoqPass env (assetCtx params idx fJustCheck view a.usdsoq) txs
  else .ok AssetPending.nothing

/-- The BTCSOQ pass, where the asset is active. -/
def btcsoqStage (env : Env) (params : CChainParams) (idx : CBlockIndex) (fJustCheck : Bool)
    (a : Assets) (view : CoinsView) (txs : List (CTransaction × Option CTxUndo)) :
    Check (AssetPending × List COutPoint) :=
  if (blockFlags params idx).btcsoq then
    btcsoqPass env (assetCtx params idx fJustCheck view a.btcsoq) a.dbMinted txs
  else .ok (AssetPending.nothing, [])

/-- Everything between the authority initialisation and the commit. -/
def validateBlock (env : Env) (params : CChainParams) (idx : CBlockIndex) (io : NodeIO)
    (fJustCheck : Bool) (a : Assets) (view : CoinsView) (block : CBlock) : Check Pending := do
  let consensus := params.getConsensus idx.nHeight
  let s ← connectTxs env params idx a io.scriptThreads view block.vtx
  let blockundo := s.undos.tail
  checkCoinbaseAmount env params idx (block.vtx.headD default) s.nFees
  checkNoV2Outputs block.vtx
  let usdsoq ← usdsoqStage env params idx fJustCheck a s.view (withUndo block.vtx blockundo)
  let (btcsoq, mintedDeposits) ←
    btcsoqStage env params idx fJustCheck a s.view (withUndo block.vtx blockundo)
  checkUtxoCost consensus idx.nHeight block.vtx
  checkLatticeFold env (blockFlags params idx) block
  checkPatCommitment env consensus idx block s.patBatch
  require (s.checks.all (CScriptCheck.run env)) (.dos 100 "")
  .ok ⟨s.view, blockundo, usdsoq, btcsoq, mintedDeposits⟩

/-- The writes that commit an asset's pass: globals and records alike. -/
def commitAsset (s : AssetState) (p : AssetPending) : AssetState :=
  { s with
    supply := p.supply.getD s.supply
    dbSupply := p.supply.or s.dbSupply
    authorityOutpoint := p.outpoint.getD s.authorityOutpoint
    dbAuthorityOutpoint := p.outpoint.or s.dbAuthorityOutpoint
    dbFrozen := p.freezeOps.foldl Toggle.apply s.dbFrozen }

/-- The commit of both assets, at the end of `ConnectBlock`. -/
def commitAssets (a : Assets) (p : Pending) : Assets :=
  { usdsoq := commitAsset a.usdsoq p.usdsoq
    btcsoq := commitAsset a.btcsoq p.btcsoq
    dbMinted := p.mintedDeposits.foldl (fun s o => insert o s) a.dbMinted }

/-- Undo data and indexes on disk; each write can fail. -/
def writeIndexes (io : NodeIO) : Check Unit := do
  require (!io.undoPosNull || io.findUndoPos) (.abort "ConnectBlock(): FindUndoPos failed")
  require (!io.undoPosNull || io.undoWriteToDisk) (.abort "Failed to write undo data")
  require (!io.fTxIndex || io.writeTxIndex) (.abort "Failed to write transaction index")

/-- `ConnectBlock`: all checks in the order of the source, then the commit. -/
def connectBlock (env : Env) (params : CChainParams) (idx : CBlockIndex) (io : NodeIO)
    (fJustCheck : Bool) (a : Assets) (view : CoinsView) (block : CBlock) : ConnectResult :=
  match checkBlock env block (!fJustCheck) with
  | .error e => ⟨.error e, a, view, none⟩
  | .ok () =>
    if idx.hashPrevBlock ≠ view.bestBlock then ⟨.error (.abort "assert"), a, view, none⟩
    else if env.hashBlock block = (params.getConsensus 0).hashGenesisBlock then
      ⟨.ok (), a, if fJustCheck then view else view.setBestBlock idx.blockHash, none⟩
    else
      match checkBIP30 env params idx view block.vtx with
      | .error e => ⟨.error e, a, view, none⟩
      | .ok () =>
        let a := initAuthorities params idx a
        match validateBlock env params idx io fJustCheck a view block with
        | .error e => ⟨.error e, a, view, none⟩
        | .ok p =>
          if fJustCheck then ⟨.ok (), a, p.view, some p.blockundo⟩
          else
            let a := commitAssets a p
            match writeIndexes io with
            | .error e => ⟨.error e, a, p.view, some p.blockundo⟩
            | .ok () => ⟨.ok (), a, p.view.setBestBlock idx.blockHash, some p.blockundo⟩

/-! ## Disconnection -/

/-- What `DisconnectBlock` returns and leaves behind. -/
structure DisconnectResult where
  /-- `fClean`, or the failure that ended the call early. -/
  verdict : Check Bool
  assets : Assets
  view : CoinsView

/-- Totals over the authority transactions of a block: the holdings they create
    and the holdings they spend. -/
def reversedTotals (isMarker : CScript → Bool) (created spent : CTxOut → Bool)
    (txs : List (CTransaction × Option CTxUndo)) : Int × Int :=
  txs.foldl (fun t p =>
    if p.1.isCoinBase || !hasMarker isMarker p.1 then t
    else (addValues t.1 created p.1.vout,
      addValues t.2 spent ((undoPrevouts p.1 p.2).map Prod.snd))) (0, 0)

/-- `UndoMint`, then `UndoBurn`: whether both went through, and the supply. -/
def undoSupply (supply : Supply) (nReversedMint nReversedBurn : Int) : Bool × Supply :=
  let s₁ := if 0 < nReversedMint then supply.undoMint nReversedMint else some supply
  let supply := s₁.getD supply
  let s₂ := if 0 < nReversedBurn then supply.undoBurn nReversedBurn else some supply
  (s₁.isSome && s₂.isSome, s₂.getD supply)

/-- Supply reversal; the record is written only when something was reversed. -/
def undoAssetSupply (s : AssetState) (totals : Int × Int) : Bool × AssetState :=
  let (fClean, supply) := undoSupply s.supply totals.1 totals.2
  if 0 < totals.1 || 0 < totals.2 then
    (fClean, { s with supply := supply, dbSupply := some supply })
  else (true, s)

/-- The outpoint `DisconnectBlock` reverts to: of the first authority transaction of the block,
    the first input whose restored coin is a marker, or null when there is none. -/
def revertedOutpoint (isMarker : CScript → Bool) (view : CoinsView) (vtx : List CTransaction) :
    Option COutPoint :=
  (vtx.find? fun tx => !tx.isCoinBase && hasMarker isMarker tx).map fun tx =>
    ((tx.vin.map CTxIn.prevout).find? fun o =>
      (view.output o).any fun coin => isMarker coin.scriptPubKey).getD COutPoint.null

/-- The tracked outpoint goes back to the marker that the block spent. -/
def undoAssetOutpoint (isMarker : CScript → Bool) (view : CoinsView) (vtx : List CTransaction)
    (s : AssetState) : AssetState :=
  match revertedOutpoint isMarker view vtx with
  | none => s
  | some o => { s with authorityOutpoint := o, dbAuthorityOutpoint := some o }

/-- The freeze operations of a block's transactions, in the order of the block. -/
def usdsoqFreezeOps (consensus : Consensus) (nHeight : Int) (vtx : List CTransaction) :
    List FreezeOp :=
  (vtx.filter fun tx => !tx.isCoinBase).filterMap (usdsoqFreezeOp consensus nHeight)

/-- The signed operation of a transaction, where it counts. -/
def btcsoqOp (consensus : Consensus) (nHeight : Int) (tx : CTransaction) :
    Option (UInt8 × Bytes) :=
  if hasMarker isBTCSOQAuthorityMarker tx &&
      consensus.nBTCSOQAuthorityEnforcementHeight ≤ nHeight then parseBTCSOQAuthorityOp tx
  else none

/-- The signed operations of a block, in order. -/
def btcsoqOps (consensus : Consensus) (nHeight : Int) (vtx : List CTransaction) :
    List (UInt8 × Bytes) :=
  (vtx.filter fun tx => !tx.isCoinBase).filterMap (btcsoqOp consensus nHeight)

/-- Its freeze operations. -/
def btcsoqFreezeOps (consensus : Consensus) (nHeight : Int) (vtx : List CTransaction) :
    List FreezeOp :=
  (btcsoqOps consensus nHeight vtx).filterMap fun op =>
    if op.1 = BTCSOQ_OP_FREEZE then parseFreezePayload op.2 else none

/-- Its mints. -/
def btcsoqMintOps (consensus : Consensus) (nHeight : Int) (vtx : List CTransaction) :
    List MintPayload :=
  (btcsoqOps consensus nHeight vtx).filterMap fun op =>
    if op.1 = BTCSOQ_OP_MINT then parseBTCSOQMintPayload op.2 else none

/-- Undo of the USDSOQ state: supply, outpoint, freeze registry. -/
def disconnectUSDSOQ (consensus : Consensus) (nHeight : Int) (view : CoinsView)
    (vtx : List CTransaction) (blockundo : CBlockUndo) (s : AssetState) : Bool × AssetState :=
  let totals := reversedTotals isUSDSOQAuthorityMarker CTxOut.isUSDSOQ CTxOut.isAnyUSDSOQ
    (withUndo vtx blockundo).reverse
  let (fClean, s) := undoAssetSupply s totals
  let s := undoAssetOutpoint isUSDSOQAuthorityMarker view vtx s
  -- The registry is undone in the order of the block.
  (fClean, { s with
    dbFrozen := (usdsoqFreezeOps consensus nHeight vtx).foldl Toggle.undo s.dbFrozen })

/-- Undo of the BTCSOQ state, minted deposits apart. -/
def disconnectBTCSOQ (consensus : Consensus) (nHeight : Int) (view : CoinsView)
    (vtx : List CTransaction) (blockundo : CBlockUndo) (s : AssetState) : Bool × AssetState :=
  let totals := reversedTotals isBTCSOQAuthorityMarker CTxOut.isBTCSOQ CTxOut.isBTCSOQ
    (withUndo vtx blockundo).reverse
  let (fClean, s) := undoAssetSupply s totals
  let s := undoAssetOutpoint isBTCSOQAuthorityMarker view vtx s
  (fClean, { s with
    dbFrozen := (btcsoqFreezeOps consensus nHeight vtx).foldl Toggle.undo s.dbFrozen })

/-- `DisconnectBlock`, called to disconnect (`pfClean` is null), with the undo
    data read back from disk, if there is any. -/
def disconnectBlock (env : Env) (params : CChainParams) (idx : CBlockIndex) (a : Assets)
    (view : CoinsView) (block : CBlock) (blockundo : Option CBlockUndo) : DisconnectResult :=
  if idx.witnessPruned then ⟨.error (.abort "witness-pruned-block-disconnect"), a, view⟩
  else if idx.blockHash ≠ view.bestBlock then ⟨.error (.abort "assert"), a, view⟩
  else
    match blockundo with
    | none => ⟨.error (.abort "DisconnectBlock(): no undo data available"), a, view⟩
    | some blockundo =>
      match disconnectCoins env idx.nHeight view block.vtx blockundo with
      | .error e => ⟨.error e, a, view⟩
      | .ok (fClean, view) =>
        let consensus := params.getConsensus idx.nHeight
        let active := deploymentActiveAtHeight idx.nHeight consensus
        let (fClean₁, usdsoq) :=
          if active .usdsoq then
            disconnectUSDSOQ consensus idx.nHeight view block.vtx blockundo a.usdsoq
          else (true, a.usdsoq)
        let (fClean₂, btcsoq) :=
          if active .btcsoq then
            disconnectBTCSOQ consensus idx.nHeight view block.vtx blockundo a.btcsoq
          else (true, a.btcsoq)
        let dbMinted :=
          if active .btcsoq then
            (btcsoqMintOps consensus idx.nHeight block.vtx).foldl
              (fun s mint => s.erase mint.deposit) a.dbMinted
          else a.dbMinted
        ⟨.ok (fClean && fClean₁ && fClean₂), ⟨usdsoq, btcsoq, dbMinted⟩,
          view.setBestBlock idx.hashPrevBlock⟩

/-! ## A sample chain

Parameters and state for the concrete blocks that show a statement is not empty, or fails: both
assets active and enforced from the first block. -/

namespace Sample

/-- Two keys, of different bytes. -/
def keys : List Bytes := [List.replicate 1312 1, List.replicate 1312 2]

/-- Parameters with every deployment active from the start. -/
def consensus : Consensus where
  hashGenesisBlock := Uint256.null
  BIP34Hash := Uint256.null
  BIP65Height := 0
  BIP66Height := 0
  nCoinbaseMaturity := 1
  nSubsidyHalvingInterval := 100000
  fSimplifiedRewards := true
  nInitialSubsidy := 500000
  activationHeight d := if d = .usdsoq ∨ d = .btcsoq then 0 else NOT_SCHEDULED
  usdsoqAuthorityKeys := keys
  usdsoqAuthorityThreshold := 2
  nUSDSOQAuthorityEnforcementHeight := 0
  nUSDSOQAuthorityInputEnforcementHeight := 0
  btcsoqAuthorityKeys := keys
  btcsoqAuthorityThreshold := 2
  nBTCSOQAuthorityEnforcementHeight := 0
  nUtxoCostEnforcementHeight := 0
  nMigrationHeight := 0
  hashMigrationOutputs := Uint256.null
  nMigrationTotal := 0
  nPatCommitmentMandatoryHeight := 0

/-- Those parameters at every height. -/
def params : CChainParams := ⟨fun _ => consensus, fun _ => rfl⟩

/-- The block at a height, with the hash of that number, after the one before it. -/
def index (nHeight : Nat) : CBlockIndex where
  nHeight := nHeight
  blockHash := Uint256.fill (UInt8.ofNat nHeight)
  hashPrevBlock := Uint256.fill (UInt8.ofNat (nHeight - 1))
  bip34Ancestor := none
  bip34Ancestor_ne := fun h => nomatch h
  ancestorMedianTimePast _ := 0
  prevMedianTimePast := 0
  csvActive := true
  witnessEnabled := true
  patActive := false
  latticefoldActive := false
  fScriptChecks := true
  witnessPruned := false

/-- A node whose disk always works. -/
def io : NodeIO := ⟨true, true, true, true, false, true⟩

/-- An asset that tracks an outpoint and has no keys yet. -/
def asset (outpoint : COutPoint) : AssetState :=
  ⟨Authority.uninitialized, Supply.zero, outpoint, none, some outpoint, ∅⟩

/-- Both assets, with the outpoints they track. -/
def assets (usdsoq btcsoq : COutPoint) : Assets := ⟨asset usdsoq, asset btcsoq, ∅⟩

/-- USDSOQ tracks the coin of id 9, BTCSOQ nothing yet. -/
def usdsoqAssets : Assets := assets ⟨Uint256.fill 9, 0⟩ COutPoint.null

/-- A signature verifies under the key with the same first byte. -/
def sameByte (key _msg sig : Bytes) : Bool := key.head? = sig.head?

/-- A view of coins by the byte of their id. -/
def coins (outs : List (UInt8 × CTxOut)) : CoinsView :=
  outs.foldl (fun v o => v.store (Uint256.fill o.1) ⟨false, [some o.2], 1, 1⟩)
    (CoinsView.emptyView Uint256.null)

/-- A witness in the authority shape, with its tag and signatures. -/
def authorityWitness (tag : UInt8) (sigs : List UInt8) : List Bytes :=
  [[], [], [tag], []] ++ sigs.map (List.replicate 2420) ++ [[0]]

/-- An input that spends the first output of an id. -/
def spend (id : UInt8) (witness : List Bytes) : CTxIn :=
  ⟨⟨Uint256.fill id, 0⟩, [], 0xffffffff, witness⟩

/-- An output of a witness version. -/
def pay (op : UInt8) (nValue : Int) : CTxOut := ⟨nValue, witnessScript op Uint256.null⟩

/-- The tracked marker and a native coin of someone else. -/
def usdsoqCoins : CoinsView := coins [(9, pay OP_5 0), (8, pay OP_1 1000)]

/-- A transaction whose id is its lock time. -/
def transaction (id : Nat) (vin : List CTxIn) (vout : List CTxOut) : CTransaction :=
  ⟨1, vin, vout, id⟩

/-- A coinbase and the transactions. -/
def block (id : Nat) (txs : List CTransaction) : CBlock := ⟨[], coinbase id :: txs⟩

end Sample

end Soqucoin
