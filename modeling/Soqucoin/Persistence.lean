import Soqucoin.ChainProofs

/-! # What is on disk

The chainstate database has the coins, the best block and the asset records, and gets them at
different times.  A flush writes the coins and the best block together, in one batch;
`ConnectBlock` and `DisconnectBlock` write the asset records themselves, one after the other.  A
node that starts again takes up the coins and the chain of the last flush, and the asset records
as it finds them. -/

namespace Soqucoin

/-! ## The asset records -/

/-- The two assets. -/
inductive AssetId
  | usdsoq | btcsoq
deriving DecidableEq

/-- A write to one asset record.  An operation on a registry writes the record of
    its outpoint or erases it. -/
inductive RecordWrite
  | supply (id : AssetId) (supply : Supply)
  | outpoint (id : AssetId) (outpoint : COutPoint)
  | frozen (id : AssetId) (op : FreezeOp)
  | minted (op : Toggle.Op COutPoint)

/-- Change one of the assets. -/
def Assets.modify (a : Assets) (id : AssetId) (f : AssetState → AssetState) : Assets :=
  match id with
  | .usdsoq => { a with usdsoq := f a.usdsoq }
  | .btcsoq => { a with btcsoq := f a.btcsoq }

/-- A write to the records, which leaves the globals alone. -/
def Assets.write (a : Assets) : RecordWrite → Assets
  | .supply id supply => a.modify id fun s => { s with dbSupply := some supply }
  | .outpoint id outpoint => a.modify id fun s => { s with dbAuthorityOutpoint := some outpoint }
  | .frozen id op => a.modify id fun s => { s with dbFrozen := Toggle.apply s.dbFrozen op }
  | .minted op => { a with dbMinted := Toggle.apply a.dbMinted op }

/-- The writes of `ConnectBlock`, in order. -/
def commitWrites (p : Pending) : List RecordWrite :=
  p.mintedDeposits.map (fun deposit => .minted ⟨true, deposit⟩) ++
  p.btcsoq.freezeOps.map (.frozen .btcsoq) ++
  (p.btcsoq.outpoint.map (.outpoint .btcsoq)).toList ++
  (p.usdsoq.outpoint.map (.outpoint .usdsoq)).toList ++
  p.usdsoq.freezeOps.map (.frozen .usdsoq) ++
  (p.usdsoq.supply.map (.supply .usdsoq)).toList ++
  (p.btcsoq.supply.map (.supply .btcsoq)).toList

/-- The writes that take an asset's counters and outpoint back. -/
def undoAssetWrites (id : AssetId) (isMarker : CScript → Bool) (view : CoinsView)
    (vtx : List CTransaction) (totals : Int × Int) (s : AssetState) : List RecordWrite :=
  (if 0 < totals.1 || 0 < totals.2 then
    [.supply id (undoSupply s.supply totals.1 totals.2).2] else []) ++
  ((revertedOutpoint isMarker view vtx).map (.outpoint id)).toList

/-- The writes of `DisconnectBlock` for USDSOQ. -/
def undoUSDSOQWrites (consensus : Consensus) (nHeight : Int) (view : CoinsView)
    (vtx : List CTransaction) (blockundo : CBlockUndo) (s : AssetState) : List RecordWrite :=
  undoAssetWrites .usdsoq isUSDSOQAuthorityMarker view vtx
    (reversedTotals isUSDSOQAuthorityMarker CTxOut.isUSDSOQ CTxOut.isAnyUSDSOQ
      (withUndo vtx blockundo).reverse) s ++
  (usdsoqFreezeOps consensus nHeight vtx).map fun op => .frozen .usdsoq op.inverse

/-- The write that takes back a signed BTCSOQ operation. -/
def undoBTCSOQOp (op : UInt8 × Bytes) : Option RecordWrite :=
  if op.1 = BTCSOQ_OP_MINT then
    (parseBTCSOQMintPayload op.2).map fun mint => .minted ⟨false, mint.deposit⟩
  else if op.1 = BTCSOQ_OP_FREEZE then
    (parseFreezePayload op.2).map fun freeze => .frozen .btcsoq freeze.inverse
  else none

/-- The writes of `DisconnectBlock` for BTCSOQ. -/
def undoBTCSOQWrites (consensus : Consensus) (nHeight : Int) (view : CoinsView)
    (vtx : List CTransaction) (blockundo : CBlockUndo) (s : AssetState) : List RecordWrite :=
  undoAssetWrites .btcsoq isBTCSOQAuthorityMarker view vtx
    (reversedTotals isBTCSOQAuthorityMarker CTxOut.isBTCSOQ CTxOut.isBTCSOQ
      (withUndo vtx blockundo).reverse) s ++
  (btcsoqOps consensus nHeight vtx).filterMap undoBTCSOQOp

/-- All writes of `DisconnectBlock`, in order. -/
def disconnectWrites (params : CChainParams) (idx : CBlockIndex) (a : Assets) (view : CoinsView)
    (block : CBlock) (blockundo : CBlockUndo) : List RecordWrite :=
  let consensus := params.getConsensus idx.nHeight
  let active := deploymentActiveAtHeight idx.nHeight consensus
  (if active .usdsoq then
    undoUSDSOQWrites consensus idx.nHeight view block.vtx blockundo a.usdsoq else []) ++
  (if active .btcsoq then
    undoBTCSOQWrites consensus idx.nHeight view block.vtx blockundo a.btcsoq else [])

/-! ## Start-up -/

/-- What `AppInitMain` makes of the records of one asset; a counter or an outpoint without a
    record stays as the process starts with it.  The key set has its own record. -/
def AssetState.reload (keys : Authority) (s : AssetState) : AssetState :=
  { s with
    authority := keys
    supply := s.dbSupply.getD Supply.zero
    authorityOutpoint := s.dbAuthorityOutpoint.getD COutPoint.null }

/-- What a start reads from the records. -/
def Assets.reload (keys : AssetId → Authority) (a : Assets) : Assets :=
  { a with
    usdsoq := a.usdsoq.reload (keys .usdsoq)
    btcsoq := a.btcsoq.reload (keys .btcsoq) }

/-! ## A machine -/

/-- A node and the coins and the chain of the last flush. -/
structure Machine where
  node : Node
  diskView : CoinsView
  diskChain : List Entry

/-- The block a process is connecting or disconnecting when it stops, if any, and the records it
    has written: the first ones of the call. -/
inductive Written (env : Env) (params : CChainParams) (n : Node) :
    Option (CBlockIndex × CBlock) → List RecordWrite → Prop
  | idle : Written env params n none []
  | connecting (idx : CBlockIndex) (io : NodeIO) (block : CBlock) (p : Pending)
      {written : List RecordWrite} (admitted : Admitted env params idx false n.view block)
      (valid : validateBlock env params idx io false (initAuthorities params idx n.assets)
        n.view block = .ok p) (writes : written <+: commitWrites p) :
      Written env params n (some (idx, block)) written
  | disconnecting (e : Entry) (rest : List Entry) (blockundo : CBlockUndo) (fClean : Bool)
      (view : CoinsView) {written : List RecordWrite} (tip : n.chain = e :: rest)
      (pruned : e.idx.witnessPruned = false) (undo : e.blockundo = some blockundo)
      (coins : disconnectCoins env e.idx.nHeight n.view e.block.vtx blockundo =
        .ok (fClean, view))
      (writes : written <+: disconnectWrites params e.idx n.assets view e.block blockundo) :
      Written env params n (some (e.idx, e.block)) written

/-- The node after a crash and a start. -/
def Machine.restarted (m : Machine) (written : List RecordWrite) (keys : AssetId → Authority) :
    Node :=
  ⟨(written.foldl Assets.write m.node.assets).reload keys, m.diskView, m.diskChain⟩

/-- The steps of a machine, where `mayUndo` limits the blocks that are disconnected and `mayCrash`
    the crashes, by the state and the block at work.  A flush is a `FlushStateToDisk` that writes
    the coins. -/
inductive MachineStep (env : Env) (params : CChainParams) (mayUndo : Entry → List Entry → Prop)
    (mayCrash : Machine → Option (CBlockIndex × CBlock) → Prop) : Machine → Machine → Prop
  | node {m : Machine} {n : Node} (step : Step env params m.node n)
      (undo : ∀ e, m.node.chain = e :: n.chain → mayUndo e n.chain) :
      MachineStep env params mayUndo mayCrash m { m with node := n }
  | flush (m : Machine) :
      MachineStep env params mayUndo mayCrash m ⟨m.node, m.node.view, m.node.chain⟩
  | crash {m : Machine} (atWork : Option (CBlockIndex × CBlock)) (written : List RecordWrite)
      (keys : AssetId → Authority) (stop : Written env params m.node atWork written)
      (may : mayCrash m atWork) :
      MachineStep env params mayUndo mayCrash m { m with node := m.restarted written keys }

/-- The states of a machine that starts with nothing unflushed. -/
def Machine.Reached (env : Env) (params : CChainParams) (mayUndo : Entry → List Entry → Prop)
    (mayCrash : Machine → Option (CBlockIndex × CBlock) → Prop) (m : Machine) : Prop :=
  ∃ n : Node, n.Start ∧
    Relation.ReflTransGen (MachineStep env params mayUndo mayCrash) ⟨n, n.view, n.chain⟩ m

/-- Connecting blocks one after the other, as long as they are accepted. -/
def replay (env : Env) (params : CChainParams) (n : Node) :
    List (CBlockIndex × NodeIO × CBlock) → Option Node
  | [] => some n
  | (idx, io, block) :: rest =>
    match (connectBlock env params idx io false n.assets n.view block).verdict with
    | .ok () => replay env params (n.connected env params idx io block) rest
    | .error _ => none

end Soqucoin
