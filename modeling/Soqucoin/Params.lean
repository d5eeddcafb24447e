import Soqucoin.CheckedLoopProofs
import Soqucoin.Primitives

/-! # Parameters — consensus parameters, script flags and the outside world

`Consensus` holds the fields of `Consensus::Params` that block connection reads; the source picks
them by height, so the chain parameters are a function of the height.

`Env` collects what the development does not open: hash functions, ML-DSA verification, the
signature digest, the script interpreter's opcode handlers, proof of work, and the two proof
systems. -/

namespace Soqucoin

/-- The soft forks that activate by scheduled height. -/
inductive Deployment
  | soquobscura | usdsoq | btcsoq | ctv | apo | csfs | p2wshDilithium
  | dilithiumKeyhash | v6Controlflow | utxoCost
deriving DecidableEq

/-- `Consensus::NOT_SCHEDULED`. -/
def NOT_SCHEDULED : Int := -1

/-- The consensus parameters that block validation reads. -/
structure Consensus where
  hashGenesisBlock : Uint256
  BIP34Hash : Uint256
  BIP65Height : Int
  BIP66Height : Int
  nCoinbaseMaturity : Int
  nSubsidyHalvingInterval : Int
  fSimplifiedRewards : Bool
  nInitialSubsidy : Int
  activationHeight : Deployment → Int
  /-- Authority keys, decoded from the hexadecimal the source stores. -/
  usdsoqAuthorityKeys : List Bytes
  usdsoqAuthorityThreshold : Nat
  nUSDSOQAuthorityEnforcementHeight : Int
  nUSDSOQAuthorityInputEnforcementHeight : Int
  btcsoqAuthorityKeys : List Bytes
  btcsoqAuthorityThreshold : Nat
  nBTCSOQAuthorityEnforcementHeight : Int
  nUtxoCostEnforcementHeight : Int
  nMigrationHeight : Int
  hashMigrationOutputs : Uint256
  nMigrationTotal : Int
  nPatCommitmentMandatoryHeight : Int

/-- `GetConsensus(height)`.  Every network ships a null `BIP34Hash`. -/
structure CChainParams where
  getConsensus : Int → Consensus
  bip34Hash_null : ∀ h, (getConsensus h).BIP34Hash = Uint256.null

/-- `DeploymentActiveAtHeight`. -/
def deploymentActiveAtHeight (nHeight : Int) (consensus : Consensus) (d : Deployment) : Bool :=
  consensus.activationHeight d ≠ NOT_SCHEDULED && consensus.activationHeight d ≤ nHeight

/-- The script verification flags a block or the mempool can set. -/
structure ScriptFlags where
  p2sh : Bool
  dersig : Bool
  checkLockTimeVerify : Bool
  checkSequenceVerify : Bool
  witness : Bool
  nulldummy : Bool
  pat : Bool
  latticefold : Bool
  soquobscura : Bool
  usdsoq : Bool
  btcsoq : Bool
  ctv : Bool
  apo : Bool
  csfs : Bool
  p2wshDilithium : Bool
  dilithiumKeyhash : Bool
  v6Controlflow : Bool
  scriptRestore : Bool
deriving DecidableEq

/-- The digest a signature is made for. -/
inductive SigVersion
  | base | witnessV0
deriving DecidableEq

def SIGHASH_ALL : UInt8 := 1
def SIGHASH_ANYPREVOUT : UInt8 := 0x41
def SIGHASH_ANYPREVOUTANYSCRIPT : UInt8 := 0x42

/-- Why a validation function returned false: a rejection with its ban score and
    reason (`state.DoS`), one without a score (`state.Invalid`), or the end of
    the process (a failed assertion, an exception, `AbortNode`). -/
inductive Failure
  | dos (nDoS : Nat) (strRejectReason : String)
  | invalid (strRejectReason : String)
  | abort (what : String)
deriving DecidableEq

/-- Validation ends with a value or a failure. -/
abbrev Check := Except Failure

/-- The functions the model is a function of. -/
structure Env where
  /-- Hash of a transaction's serialisation without witnesses. -/
  hashTx : CTransaction → Uint256
  hashBlock : CBlock → Uint256
  sha256 : Bytes → Uint256
  /-- ML-DSA-44 verification of `sig` over `msg` under `key`. -/
  verify : (key msg sig : Bytes) → Bool
  /-- `SignatureHash(scriptCode, tx, nIn, nHashType, amount, sigversion)`. -/
  signatureHash : CScript → CTransaction → Nat → UInt8 → Int → SigVersion → Uint256
  /-- `EvalScript` on a stack, for one input of a transaction. -/
  evalScript : List Bytes → CScript → ScriptFlags → CTransaction → Nat → Int →
    Option (List Bytes)
  /-- Proof of work of a header, merge-mined or not. -/
  checkAuxPowProofOfWork : CBlock → Bool
  /-- The header commits to the Merkle root of the transactions. -/
  merkleRootMatches : CBlock → Bool
  /-- The Merkle tree has a duplicated subtree. -/
  merkleMutated : CBlock → Bool
  getLegacySigOpCount : CTransaction → Nat
  /-- Signature operation cost of a transaction with its spent outputs. -/
  getTransactionSigOpCost : CTransaction → List CTxOut → ScriptFlags → Int
  /-- Reward of the old-style schedule, derived from the previous block's hash. -/
  oldStyleReward : Int → Uint256 → Int
  /-- Hash of the serialised list of migration outputs. -/
  hashOutputs : List CTxOut → Uint256
  /-- `ComputeBlockAttestation` over the collected tuples. -/
  computeBlockAttestation : List (Bytes × Bytes × Bytes) → Option Uint256
  sha3 : Bytes → Uint256
  /-- `AccumulateBlockRangeProofs` over proofs and commitments. -/
  accumulateBlockRangeProofs : List Bytes → List Bytes → Option Uint256

/-- `GetHash`: the id, which leaves out the witnesses. -/
def Env.getHash (env : Env) (tx : CTransaction) : Uint256 := env.hashTx tx.stripWitness

/-- The block index entry of the block being connected, with the facts about
    its ancestors that connection reads. -/
structure CBlockIndex where
  nHeight : Int
  blockHash : Uint256
  /-- `pprev->GetBlockHash()`, the null hash for the first block. -/
  hashPrevBlock : Uint256
  /-- Hash of the ancestor at the BIP34 height, once there is one; the null
      hash is the hash of no block. -/
  bip34Ancestor : Option Uint256
  bip34Ancestor_ne : bip34Ancestor ≠ some Uint256.null
  /-- Median time past of the ancestor at a height, and of the parent. -/
  ancestorMedianTimePast : Int → Int
  prevMedianTimePast : Int
  csvActive : Bool
  witnessEnabled : Bool
  patActive : Bool
  latticefoldActive : Bool
  /-- False inside the assumed-valid part of the chain. -/
  fScriptChecks : Bool
  /-- The block was stored without its witnesses. -/
  witnessPruned : Bool

/-! ## A sample world

A concrete environment for the runs that show a statement is not empty, or fails: ids are read off
the lock time, nothing is hashed, and signature verification is left open. -/

namespace Sample

/-- Stand-ins for hashes: an id is the lock time of the transaction. -/
def env (verify : Bytes → Bytes → Bytes → Bool) : Env where
  hashTx tx := Uint256.fill (UInt8.ofNat tx.nLockTime)
  hashBlock _ := Uint256.fill 1
  sha256 _ := Uint256.null
  verify := verify
  signatureHash _ _ _ _ _ _ := Uint256.null
  evalScript _ _ _ _ _ _ := none
  checkAuxPowProofOfWork _ := true
  merkleRootMatches _ := true
  merkleMutated _ := false
  getLegacySigOpCount _ := 0
  getTransactionSigOpCost _ _ _ := 0
  oldStyleReward _ _ := 0
  hashOutputs _ := Uint256.null
  computeBlockAttestation _ := none
  sha3 _ := Uint256.null
  accumulateBlockRangeProofs _ _ := none

/-- A coinbase by its lock time. -/
def coinbase (lockTime : Nat) : CTransaction :=
  { nVersion := 1
    vin := [⟨COutPoint.null, [0, 0], 0xffffffff, []⟩]
    vout := [⟨0, witnessScript OP_1 Uint256.null⟩]
    nLockTime := lockTime }

end Sample

end Soqucoin
