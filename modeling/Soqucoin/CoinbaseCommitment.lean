import Soqucoin.ConnectBlock

/-! # Coinbase commitments — what a block producer writes into the coinbase

`GenerateCoinbaseCommitment` of `validation.cpp`, with `CollectBatch` and `BuildCommitmentScript`
of `consensus/pat_attestation.cpp`.  It appends up to three outputs to the coinbase: the SegWit
witness commitment, the LatticeFold accumulator and the PAT attestation.  Each one changes the id
of the coinbase. -/

namespace Soqucoin

/-- Change the coinbase, where there is one. -/
def CBlock.mapCoinbase (f : CTransaction → CTransaction) (block : CBlock) : CBlock :=
  match block.vtx with
  | [] => block
  | coinbase :: vtx => { block with vtx := f coinbase :: vtx }

/-- An output at the end. -/
def CTransaction.addOutput (o : CTxOut) (tx : CTransaction) : CTransaction :=
  { tx with vout := tx.vout ++ [o] }

/-- `vin[0].scriptWitness.stack` with the nonce as its only item. -/
def CTransaction.setNonce (tx : CTransaction) : CTransaction :=
  match tx.vin with
  | [] => tx
  | txin :: vin => { tx with vin := { txin with scriptWitness := [List.replicate 32 0] } :: vin }

/-! ## The SegWit commitment -/

/-- `GetWitnessCommitmentIndex(block) != -1`. -/
def hasWitnessCommitment (block : CBlock) : Bool :=
  (block.vtx.headD default).vout.any fun o => isWitnessCommitment o.scriptPubKey

/-- What the producer takes from outside: whether the SegWit deployment has a timeout, whether it
    is active after the tip, and the hash of the witness Merkle root with the nonce. -/
structure WitnessRules where
  deployed : Bool
  enabled : Bool
  commitmentHash : CBlock → Uint256

/-- The witness commitment, unless the block has one. -/
def addWitnessCommitment (rules : WitnessRules) (block : CBlock) : CBlock :=
  if rules.deployed && !hasWitnessCommitment block then
    block.mapCoinbase fun tx =>
      (tx.addOutput ⟨0, [OP_RETURN, 0x24, 0xaa, 0x21, 0xa9, 0xed] ++
        (rules.commitmentHash block).bytes⟩).setNonce
  else block

/-! ## The LatticeFold commitment -/

/-- The 36-byte commitment script with a two-byte magic. -/
def commitmentScript (m₀ m₁ : UInt8) (hash : Uint256) : CScript :=
  [OP_RETURN, 0x22, m₀, m₁] ++ hash.bytes

/-- The commitment to the range proofs of the block, if it has any. -/
def addLatticeFoldCommitment (env : Env) (block : CBlock) : CBlock :=
  let proofs := block.vtx.tail.flatMap txRangeProofs
  if proofs.isEmpty then block
  else
    match env.accumulateBlockRangeProofs (proofs.map Prod.fst) (proofs.map Prod.snd) with
    | none => block
    | some hashAccumulator =>
      block.mapCoinbase (·.addOutput ⟨0, commitmentScript 0x4c 0x46 hashAccumulator⟩)

/-! ## The PAT commitment -/

/-- The producer's lookup: the transactions of the block by id, the last one of
    an id, then the tip. -/
def blockLookup (env : Env) (pcoinsTip : CoinsView) (vtx : List CTransaction)
    (out : COutPoint) : Option CTxOut :=
  match vtx.reverse.find? fun tx => env.getHash tx = out.hash with
  | some tx => tx.vout[out.n]?
  | none => pcoinsTip.output out

/-- The tuples of a block, as the producer looks them up. -/
def collectBatch (env : Env) (prevoutLookup : COutPoint → Option CTxOut)
    (vtx : List CTransaction) : List (Bytes × Bytes × Bytes) :=
  vtx.tail.flatMap (appendTuplesWith env prevoutLookup)

/-- `ComputeBlockAttestation`: nothing for an empty batch. -/
def blockAttestation (env : Env) (batch : List (Bytes × Bytes × Bytes)) : Option Uint256 :=
  if batch.isEmpty then none else env.computeBlockAttestation batch

/-- `FindCommitments`. -/
def patCommitments (tx : CTransaction) : List Uint256 :=
  tx.vout.filterMap fun o => parsePatCommitment o.scriptPubKey

/-- The PAT commitment, unless the block has one or no spends. -/
def addPatCommitment (env : Env) (pcoinsTip : CoinsView) (block : CBlock) : CBlock :=
  if block.vtx.length ≤ 1 || !(patCommitments (block.vtx.headD default)).isEmpty then block
  else
    match blockAttestation env
        (collectBatch env (blockLookup env pcoinsTip block.vtx) block.vtx) with
    | none => block
    | some attestation =>
      block.mapCoinbase (·.addOutput ⟨0, commitmentScript 0x50 0x41 attestation⟩)

/-! ## All three -/

/-- `UpdateUncommittedBlockStructures`: the witness nonce of the coinbase. -/
def updateUncommittedBlockStructures (rules : WitnessRules) (block : CBlock) : CBlock :=
  if hasWitnessCommitment block && rules.enabled &&
      (block.vtx.headD default).vin.all (fun txin => txin.scriptWitness.isEmpty) then
    block.mapCoinbase CTransaction.setNonce
  else block

/-- The block when it comes to the PAT commitment. -/
def beforePatCommitment (env : Env) (rules : WitnessRules) (block : CBlock) : CBlock :=
  addLatticeFoldCommitment env (addWitnessCommitment rules block)

/-- `GenerateCoinbaseCommitment`: all three commitments, in order. -/
def generateCoinbaseCommitment (env : Env) (rules : WitnessRules) (pcoinsTip : CoinsView)
    (block : CBlock) : CBlock :=
  updateUncommittedBlockStructures rules
    (addPatCommitment env pcoinsTip (beforePatCommitment env rules block))

end Soqucoin
