import Soqucoin.Interpreter

/-! # BlockAccumulator — one commitment to a block's range proofs

`AccumulateBlockRangeProofs` and `VerifyBlockAccumulator` of `consensus/block_accumulator.cpp`: a
hash chain over the proofs and commitments of a block's confidential outputs. -/

namespace Soqucoin.Accumulator

/-- The accumulator of a block's range proofs. -/
structure BlockProofAccumulator where
  nVersion : Nat
  nProofCount : Nat
  hashAccumulator : Uint256
  vchFoldedState : Bytes
deriving DecidableEq

/-- The default constructor. -/
def BlockProofAccumulator.null : BlockProofAccumulator := ⟨0, 0, Uint256.null, []⟩

section Hashing

-- `CHash256`
variable (hash256 : Bytes → Uint256)

/-- `ComputeHash`: of the folded state, null where there is none. -/
def computeHash (vchFoldedState : Bytes) : Uint256 :=
  if vchFoldedState = [] then Uint256.null else hash256 vchFoldedState

/-- The length, cast to 32 bits, and the bytes. -/
def frame (entry : Bytes) : Bytes := writeLE 4 entry.length ++ entry

/-- What is written to `fsHasher`. -/
def seedTranscript (vProofData vCommitData : List Bytes) : Bytes :=
  ascii "soqucoin-latticefold-blockaccum-v1" ++ writeLE 4 vProofData.length ++
    vProofData.flatMap frame ++ vCommitData.flatMap frame

/-- The Fiat-Shamir challenge of one proof, by its position. -/
def challenge (fsSeed : Uint256) (i : Nat) : Uint256 :=
  hash256 (fsSeed.bytes ++ writeLE 4 i)

/-- What one proof adds to the folded state. -/
def proofContribution (fsSeed : Uint256) (i : Nat) (proof commit : Bytes) : Uint256 :=
  hash256 ((challenge hash256 fsSeed i).bytes ++ proof ++ commit)

/-- What is written to `foldHasher`. -/
def foldTranscript (fsSeed : Uint256) (vProofData vCommitData : List Bytes) : Bytes :=
  ascii "soqucoin-latticefold-fold-v1" ++ writeLE 4 vProofData.length ++
    ((vProofData.zip vCommitData).mapIdx fun i entry =>
      (proofContribution hash256 fsSeed i entry.1 entry.2).bytes).flatten

/-- Version, count, seed and fold. -/
def foldedState (vProofData vCommitData : List Bytes) : Bytes :=
  let fsSeed := hash256 (seedTranscript vProofData vCommitData)
  let foldResult := hash256 (foldTranscript hash256 fsSeed vProofData vCommitData)
  writeLE 4 1 ++ writeLE 4 vProofData.length ++ fsSeed.bytes ++ foldResult.bytes

def MAX_PROOFS_PER_BLOCK : Nat := 512

/-- `AccumulateBlockRangeProofs`: the fold over the proofs, or the failure of its bounds. -/
def accumulateBlockRangeProofs (vProofData vCommitData : List Bytes) :
    Option BlockProofAccumulator :=
  if vProofData = [] then some BlockProofAccumulator.null
  else if vProofData.length ≠ vCommitData.length then none
  else if MAX_PROOFS_PER_BLOCK < vProofData.length then none
  else
    let state := foldedState hash256 vProofData vCommitData
    some ⟨0x01, vProofData.length % 2 ^ 32, computeHash hash256 state, state⟩

/-- `VerifyBlockAccumulator`: folding again gives the same hash. -/
def verifyBlockAccumulator (accum : BlockProofAccumulator) (vProofData vCommitData : List Bytes) :
    Bool :=
  if accum.nVersion ≠ 0x01 then false
  else if accum.nProofCount ≠ vProofData.length % 2 ^ 32 then false
  else
    match accumulateBlockRangeProofs hash256 vProofData vCommitData with
    | none => false
    | some recomputed => recomputed.hashAccumulator = accum.hashAccumulator

end Hashing

end Soqucoin.Accumulator
