import Soqucoin.Validation

/-! # Block rules — what `ConnectBlock` checks besides the assets

The script flags of a height, the first pass over the transactions, the coinbase amount with the
migration rule, the ban on witness v2 outputs, the minimum output value, and the two block
commitments. -/

namespace Soqucoin

open CheckedLoop

/-! ## Flags and authority keys -/

/-- The script flags of a block, by the deployments active at its height. -/
def blockFlags (params : CChainParams) (idx : CBlockIndex) : ScriptFlags :=
  let consensus := params.getConsensus idx.nHeight
  let active := deploymentActiveAtHeight idx.nHeight consensus
  { p2sh := true
    dersig := (params.getConsensus 0).BIP66Height ≤ idx.nHeight
    checkLockTimeVerify := (params.getConsensus 0).BIP65Height ≤ idx.nHeight
    checkSequenceVerify := idx.csvActive
    witness := idx.witnessEnabled
    nulldummy := idx.witnessEnabled
    pat := idx.patActive
    latticefold := idx.latticefoldActive
    soquobscura := active .soquobscura
    usdsoq := active .usdsoq
    btcsoq := active .btcsoq
    ctv := active .ctv
    apo := active .apo
    csfs := active .csfs
    p2wshDilithium := active .p2wshDilithium
    dilithiumKeyhash := active .dilithiumKeyhash
    v6Controlflow := active .v6Controlflow
    scriptRestore := true }

/-- Lazy initialisation of one authority: keys of the wrong size are skipped,
    and a key set that `Initialize` refuses leaves it as it was. -/
def lazyInitialize (authority : Authority) (keys : List Bytes) (m : Nat) : Authority :=
  if authority.isInitialized || keys.isEmpty then authority
  else
    let keys := keys.filter fun key => key.length = DILITHIUM_PUBKEY_SIZE
    (Authority.initializeKeys keys m).getD authority

/-- The authorities as `ConnectBlock` finds them once it has set the flags. -/
def initAuthorities (params : CChainParams) (idx : CBlockIndex) (a : Assets) : Assets :=
  let consensus := params.getConsensus idx.nHeight
  let flags := blockFlags params idx
  { a with
    usdsoq := { a.usdsoq with
      authority :=
        if flags.usdsoq then
          lazyInitialize a.usdsoq.authority consensus.usdsoqAuthorityKeys
            consensus.usdsoqAuthorityThreshold
        else a.usdsoq.authority }
    btcsoq := { a.btcsoq with
      authority :=
        if flags.btcsoq then
          lazyInitialize a.btcsoq.authority consensus.btcsoqAuthorityKeys
            consensus.btcsoqAuthorityThreshold
        else a.btcsoq.authority } }

/-! ## The first pass -/

def LOCKTIME_THRESHOLD : Int := 500000000
def SEQUENCE_FINAL : Nat := 0xffffffff
def SEQUENCE_LOCKTIME_DISABLE_FLAG : Nat := 31
def SEQUENCE_LOCKTIME_TYPE_FLAG : Nat := 22

/-- `CalculateSequenceLocks` for one input: the least height and time at which
    it is final, minus one. -/
def sequenceLock (idx : CBlockIndex) (lock : Int × Int) (p : CTxIn × Int) : Int × Int :=
  let (txin, nCoinHeight) := p
  if txin.nSequence.testBit SEQUENCE_LOCKTIME_DISABLE_FLAG then lock
  else if txin.nSequence.testBit SEQUENCE_LOCKTIME_TYPE_FLAG then
    let nCoinTime := idx.ancestorMedianTimePast (max (nCoinHeight - 1) 0)
    (lock.1, max lock.2 (nCoinTime + ((txin.nSequence % 2 ^ 16) * 2 ^ 9 : Nat) - 1))
  else (max lock.1 (nCoinHeight + (txin.nSequence % 2 ^ 16 : Nat) - 1), lock.2)

/-- `SequenceLocks`: every input of a version 2 transaction has waited long enough. -/
def sequenceLocks (idx : CBlockIndex) (tx : CTransaction) (prevheights : List Int) : Bool :=
  -- `nVersion` is compared as an unsigned number
  let fEnforceBIP68 := 2 ≤ tx.nVersion % 2 ^ 32 && idx.csvActive
  let lock :=
    if fEnforceBIP68 then (tx.vin.zip prevheights).foldl (sequenceLock idx) (-1, -1)
    else (-1, -1)
  lock.1 < idx.nHeight && lock.2 < idx.prevMedianTimePast

/-- `IsFinalTx`: the lock time has passed, or every input opts out of it. -/
def isFinalTx (tx : CTransaction) (nBlockHeight nBlockTime : Int) : Bool :=
  tx.nLockTime = 0 ||
    (tx.nLockTime : Int) <
      (if (tx.nLockTime : Int) < LOCKTIME_THRESHOLD then nBlockHeight else nBlockTime) ||
    tx.vin.all fun txin => txin.nSequence = SEQUENCE_FINAL

/-- The finality check of `ContextualCheckBlock`; `nTime` is the time of the block. -/
def contextualCheckFinality (idx : CBlockIndex) (nTime : Int) (block : CBlock) : Check Unit :=
  let nLockTimeCutoff := if idx.csvActive then idx.prevMedianTimePast else nTime
  require (block.vtx.all fun tx => isFinalTx tx idx.nHeight nLockTimeCutoff)
    (.dos 10 "bad-txns-nonfinal")

/-- Witness versions whose spends the block attestation covers. -/
def isAttestedVersion (script : CScript) : Bool :=
  isWitnessProgram OP_0 script || isWitnessProgram OP_1 script ||
    isWitnessProgram OP_7 script || isWitnessProgram OP_8 script

/-- `AppendTuples`: hashed signature, key and digest of each attested input. -/
def appendTuplesWith (env : Env) (prevoutLookup : COutPoint → Option CTxOut) (tx : CTransaction) :
    List (Bytes × Bytes × Bytes) :=
  if tx.isCoinBase then []
  else
    tx.vin.zipIdx.filterMap fun (txin, nIn) =>
      match prevoutLookup txin.prevout, txin.scriptWitness with
      | some prevout, [sig, pubkey] =>
        if isAttestedVersion prevout.scriptPubKey then
          let sighash := env.signatureHash prevout.scriptPubKey tx nIn
            (sig.getLast?.getD 0) prevout.nValue .witnessV0
          some ((env.sha3 sig).bytes, (env.sha3 (stripKeyPrefix pubkey)).bytes, sighash.bytes)
        else none
      | _, _ => none

/-- The tuples `ConnectBlock` appends: outputs are looked up in the view. -/
def appendTuples (env : Env) (v : CoinsView) (tx : CTransaction) : List (Bytes × Bytes × Bytes) :=
  appendTuplesWith env v.output tx

/-- What the first loop of `ConnectBlock` keeps from transaction to transaction. -/
structure FirstPass where
  view : CoinsView
  /-- Undo data of every transaction so far, the coinbase included. -/
  undos : List CTxUndo
  nFees : Int
  nSigOpsCost : Int
  checks : List CScriptCheck
  patBatch : List (Bytes × Bytes × Bytes)

/-- The fee in the native coin: what is spent less what is created. -/
def nativeFee (v : CoinsView) (tx : CTransaction) : Int :=
  wrap64 (sumOf CTxOut.isNativeSOQ (spentOutputs v tx) - sumOf CTxOut.isNativeSOQ tx.vout)

/-- One transaction of the first loop of `ConnectBlock`. -/
def connectTx (env : Env) (params : CChainParams) (idx : CBlockIndex) (a : Assets)
    (fQueue : Bool) (s : FirstPass) (tx : CTransaction) : Check FirstPass := do
  let flags := blockFlags params idx
  require (s.view.haveInputs tx) (.dos 100 "bad-txns-inputs-missingorspent")
  let prevheights := tx.vin.map fun txin => (s.view.record txin.prevout.hash).nHeight
  require (tx.isCoinBase || sequenceLocks idx tx prevheights) (.dos 100 "bad-txns-nonfinal")
  let nSigOpsCost :=
    s.nSigOpsCost + env.getTransactionSigOpCost tx (spentOutputs s.view tx) flags
  require (nSigOpsCost ≤ MAX_BLOCK_SIGOPS_COST) (.dos 100 "bad-blk-sigops")
  let nFees := if tx.isCoinBase then s.nFees else wrap64 (s.nFees + nativeFee s.view tx)
  let vChecks ← checkInputs env params a s.view tx idx.nHeight idx.fScriptChecks flags fQueue
  let tuples := if idx.fScriptChecks then appendTuples env s.view tx else []
  let (view, txundo) ← updateCoins env s.view tx idx.nHeight
  .ok { view := view
        undos := s.undos ++ [txundo]
        nFees := nFees
        nSigOpsCost := nSigOpsCost
        checks := s.checks ++ vChecks
        patBatch := s.patBatch ++ tuples }

/-- The first loop of `ConnectBlock`. -/
def connectTxs (env : Env) (params : CChainParams) (idx : CBlockIndex) (a : Assets)
    (fQueue : Bool) (view : CoinsView) (vtx : List CTransaction) : Check FirstPass :=
  vtx.foldlM (connectTx env params idx a fQueue) ⟨view, [], 0, 0, [], []⟩

/-! ## The coinbase -/

/-- `GetBlockSubsidy`: halved at each of four intervals, then constant. -/
def getBlockSubsidy (env : Env) (nHeight : Int) (consensus : Consensus) (prevHash : Uint256) :
    Int :=
  let halvings := nHeight / consensus.nSubsidyHalvingInterval
  if !consensus.fSimplifiedRewards then env.oldStyleReward nHeight prevHash
  else if nHeight < 4 * consensus.nSubsidyHalvingInterval then
    (consensus.nInitialSubsidy * COIN) / 2 ^ halvings.toNat
  else 2500 * COIN

/-- The 36-byte coinbase commitment with a given two-byte magic. -/
def parseCommitment (m₀ m₁ : UInt8) (script : CScript) : Option Uint256 :=
  if script.length = 36 && script.take 4 = [OP_RETURN, 0x22, m₀, m₁] then
    some (Uint256.ofSlice script 4)
  else none

/-- The PAT attestation that an output commits to. -/
def parsePatCommitment (script : CScript) : Option Uint256 := parseCommitment 0x50 0x41 script

/-- `BlockProofAccumulator::ParseCoinbaseCommitment`. -/
def parseLatticeFoldCommitment (script : CScript) : Option Uint256 :=
  parseCommitment 0x4c 0x46 script

/-- The SegWit commitment. -/
def isWitnessCommitment (script : CScript) : Bool :=
  38 ≤ script.length && script.take 6 = [OP_RETURN, 0x24, 0xaa, 0x21, 0xa9, 0xed]

/-- An output that carries one of the block's commitments. -/
def isBlockCommitmentOutput (out : CTxOut) : Bool :=
  isWitnessCommitment out.scriptPubKey ||
    (parsePatCommitment out.scriptPubKey).isSome ||
    (parseLatticeFoldCommitment out.scriptPubKey).isSome

/-- The migration rule: the reward the coinbase may claim. -/
def migrationReward (env : Env) (consensus : Consensus) (nHeight : Int) (coinbase : CTransaction)
    (blockReward : Int) : Check Int :=
  if consensus.nMigrationHeight ≠ 0 && nHeight = consensus.nMigrationHeight &&
      !consensus.hashMigrationOutputs.isNull then do
    -- `vout[1 ..]` without the block commitments at its end
    let committed := coinbase.vout.tail.rdropWhile isBlockCommitmentOutput
    require (!committed.isEmpty) (.dos 100 "bad-cb-migration-missing")
    require (env.hashOutputs committed = consensus.hashMigrationOutputs)
      (.dos 100 "bad-cb-migration-outputs")
    require (sumAmounts (committed.map CTxOut.nValue) = consensus.nMigrationTotal)
      (.dos 100 "bad-cb-migration-total")
    require ((coinbase.vout.headD default).nValue ≤ blockReward)
      (.dos 100 "bad-cb-migration-miner-value")
    .ok (wrap64 (blockReward + consensus.nMigrationTotal))
  else .ok blockReward

/-- The coinbase claims no more than the subsidy, the fees and the migration. -/
def checkCoinbaseAmount (env : Env) (params : CChainParams) (idx : CBlockIndex)
    (coinbase : CTransaction) (nFees : Int) : Check Unit := do
  let consensus := params.getConsensus idx.nHeight
  let subsidy := getBlockSubsidy env idx.nHeight consensus idx.hashPrevBlock
  let blockReward ← migrationReward env consensus idx.nHeight coinbase (wrap64 (nFees + subsidy))
  let valueOut ← getValueOut coinbase
  require (valueOut ≤ blockReward) (.dos 100 "bad-cb-amount")

/-! ## Outputs and commitments -/

/-- No output of the retired witness version 2. -/
def checkNoV2Outputs (vtx : List CTransaction) : Check Unit :=
  require (vtx.all fun tx => tx.vout.all fun o => !isWitnessProgram OP_2 o.scriptPubKey)
    (.dos 100 "bad-txns-witness-version-not-active")

def UTXO_COST_PER_BYTE : Int := 6500

/-- The minimum value of an output, markers and unspendable outputs apart. -/
def meetsUtxoCost (o : CTxOut) : Bool :=
  isUnspendable o.scriptPubKey ||
    (o.scriptPubKey.length = 34 && o.scriptPubKey.getD 0 0 = OP_5) ||
    isWitnessProgram OP_9 o.scriptPubKey ||
    UTXO_COST_PER_BYTE * (sizeOfTxOut o : Int) ≤ o.nValue

/-- Every output pays for its place in the UTXO set, once the rule is active. -/
def checkUtxoCost (consensus : Consensus) (nHeight : Int) (vtx : List CTransaction) : Check Unit :=
  skipIf (!deploymentActiveAtHeight nHeight consensus .utxoCost ||
      nHeight < consensus.nUtxoCostEnforcementHeight)
    (require (vtx.all fun tx => tx.vout.all meetsUtxoCost)
      (.dos 100 "bad-txns-output-below-utxo-cost"))

/-- Range proofs and commitments, read off the witness of the input with the output's index. -/
def txRangeProofs (tx : CTransaction) : List (Bytes × Bytes) :=
  tx.vout.zipIdx.filterMap fun (o, j) =>
    if o.isConfidential then
      match (tx.vin.getD j default).scriptWitness.reverse with
      | _ :: commitData :: proofData :: _ => some (proofData, commitData)
      | _ => none
    else none

/-- The range proofs of a block with their commitments, in order. -/
def blockRangeProofs (vtx : List CTransaction) : List (Bytes × Bytes) :=
  (vtx.filter fun tx => !tx.isCoinBase).flatMap txRangeProofs

/-- The LatticeFold accumulator against the coinbase commitment.  The key-image
    part of the source's block looks for inputs that are still unspent, and is
    left out with the key-image database it would write. -/
def checkLatticeFold (env : Env) (flags : ScriptFlags) (block : CBlock) : Check Unit :=
  let proofs := blockRangeProofs block.vtx
  skipIf (!flags.soquobscura || proofs.isEmpty) <|
    match env.accumulateBlockRangeProofs (proofs.map Prod.fst) (proofs.map Prod.snd) with
    | none => .error (.dos 100 "bad-blk-latticefold-accum")
    | some hashAccumulator =>
      match (block.vtx.headD default).vout.findSome?
          (fun o => parseLatticeFoldCommitment o.scriptPubKey) with
      | none => .error (.dos 100 "bad-blk-missing-latticefold-commitment")
      | some committed =>
        require (committed = hashAccumulator) (.dos 100 "bad-blk-latticefold-commitment")

/-- The PAT attestation against the coinbase commitment. -/
def checkPatCommitment (env : Env) (consensus : Consensus) (idx : CBlockIndex) (block : CBlock)
    (patBatch : List (Bytes × Bytes × Bytes)) : Check Unit :=
  skipIf (!idx.fScriptChecks) <|
    let computed := if patBatch.isEmpty then none else env.computeBlockAttestation patBatch
    match (block.vtx.headD default).vout.filterMap (fun o => parsePatCommitment o.scriptPubKey),
        computed with
    | _ :: _ :: _, _ => .error (.dos 100 "bad-blk-pat-commitment-duplicate")
    | [_], none => .error (.dos 100 "bad-blk-pat-commitment-empty")
    | [committed], some h => require (committed = h) (.dos 100 "bad-blk-pat-commitment")
    | [], none => .ok ()
    | [], some _ =>
      require (!(consensus.nPatCommitmentMandatoryHeight ≠ 0 &&
          consensus.nPatCommitmentMandatoryHeight ≤ idx.nHeight))
        (.dos 100 "bad-blk-missing-pat-commitment")

end Soqucoin
