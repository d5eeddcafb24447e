import Mathlib.Data.List.Sort
import Soqucoin.Interpreter
import Soqucoin.MerkleTreeProofs

/-! # PatAggregate — creating and verifying a PAT proof

`CreateLogarithmicProof`, `ParseLogarithmicProof` and `VerifyLogarithmicProof` of
`crypto/pat/logarithmic.cpp`.  A batch of (signature, key, message) tuples is put into its
canonical order and committed to by a Merkle root, an aggregate of the keys and a root of the
messages. -/

namespace Soqucoin.Pat

open MerkleTree

variable (sha3 : Bytes → Uint256)

/-! ## Canonical order -/

/-- The bytes as `memcmp` compares them. -/
def digits (h : Uint256) : List Nat := h.bytes.map UInt8.toNat

/-- What a tuple is sorted by. -/
structure CanonicalKey where
  msg : Uint256
  pk : Uint256
  sig : Uint256
  pos : Nat
deriving DecidableEq

/-- `operator<`. -/
def CanonicalKey.lt (a b : CanonicalKey) : Bool :=
  if a.msg ≠ b.msg then digits a.msg < digits b.msg
  else if a.pk ≠ b.pk then digits a.pk < digits b.pk
  else if a.sig ≠ b.sig then digits a.sig < digits b.sig
  else a.pos < b.pos

/-- `CanonicalOrder`: positions in the caller's vectors.  No two keys are
    equivalent, so every sort gives this order. -/
def canonicalOrder (vSignatures vPublicKeys vMessages : List Bytes) : List Nat :=
  let keys := (List.range vMessages.length).map fun i =>
    CanonicalKey.mk (sha3 (vMessages.getD i [])) (sha3 (vPublicKeys.getD i []))
      (sha3 (vSignatures.getD i [])) i
  (keys.insertionSort (fun a b => b.lt a = false)).map CanonicalKey.pos

/-! ## Hashes -/

/-- `LeafHash`: domain byte, position and tuple. -/
def leafHash (idx : Nat) (sig pk msg : Bytes) : Uint256 :=
  sha3 (0x00 :: (writeLE 4 idx ++ sig ++ pk ++ msg))

/-- `NodeHash`: domain byte and the two children. -/
def nodeHash (left right : Uint256) : Uint256 :=
  sha3 (0x01 :: (left.bytes ++ right.bytes))

/-- `NextPowerOfTwo`. -/
def nextPowerOfTwo (n : Nat) : Nat := if n = 0 then 1 else smear (n - 1) + 1

/-- `ComputePkAgg`. -/
def computePkAgg (vPks : List Bytes) : Uint256 := sha3 vPks.flatten

/-- `ComputeMsgRoot`. -/
def computeMsgRoot (vMsgs : List Bytes) : Uint256 := sha3 vMsgs.flatten

/-- The loop of `CreateLogarithmicProof` that fills the tree from its leaves: one round per
    layer, from `tree_size` nodes down to one. -/
def buildTree (layer : Nat) (nodes : List Uint256) : List Uint256 :=
  climb (nodeHash sha3) (Nat.log2 layer) nodes

/-- `tree[1]`, for a tree over these leaves, the last one repeated up to `tree_size`. -/
def merkleRoot (leaves : List Uint256) : Uint256 :=
  let treeSize := nextPowerOfTwo leaves.length
  (buildTree sha3 treeSize
    (leaves ++ List.replicate (treeSize - leaves.length) (leaves.getLastD Uint256.null))).headD
      Uint256.null

/-! ## Proofs -/

/-- A proof: three hashes and the number of tuples. -/
structure LogarithmicProof where
  merkleRoot : Uint256
  pkAgg : Uint256
  msgRoot : Uint256
  count : Nat
deriving DecidableEq

/-- `SerializeLogarithmicProof`: 100 bytes. -/
def LogarithmicProof.serialize (proof : LogarithmicProof) : Bytes :=
  proof.merkleRoot.bytes ++ proof.pkAgg.bytes ++ proof.msgRoot.bytes ++ writeLE 4 proof.count

/-- `CreateLogarithmicProof`: the proof of a batch of at most 2^20 tuples. -/
def createLogarithmicProof (vSignatures vPublicKeys vMessages : List Bytes) : Option Bytes :=
  let n := vSignatures.length
  if n = 0 || 2 ^ 20 < n || n ≠ vPublicKeys.length || n ≠ vMessages.length then none
  else
    let order := canonicalOrder sha3 vSignatures vPublicKeys vMessages
    let leaves := order.mapIdx fun i pos =>
      leafHash sha3 i (vSignatures.getD pos []) (vPublicKeys.getD pos []) (vMessages.getD pos [])
    let sortedPks := order.map fun pos => vPublicKeys.getD pos []
    let sortedMsgs := order.map fun pos => vMessages.getD pos []
    some (LogarithmicProof.serialize
      ⟨merkleRoot sha3 leaves, computePkAgg sha3 sortedPks, computeMsgRoot sha3 sortedMsgs, n⟩)

/-- The proof that the bytes stand for. -/
def parseProof (vchProof : Bytes) : Option LogarithmicProof :=
  match parseLogarithmicProof vchProof with
  | none => none
  | some count =>
    some ⟨Uint256.ofSlice vchProof 0, Uint256.ofSlice vchProof 32, Uint256.ofSlice vchProof 64,
      count⟩

/-- The tree that `VerifyLogarithmicProof` rebuilds for itself, up to `tree[1]`. -/
def rebuiltRoot (n : Nat) (leaf : Nat → Uint256) : Uint256 :=
  let treeSize := nextPowerOfTwo n
  let tree := fill treeSize n leaf fun _ => Uint256.null
  let lastLeaf := tree (treeSize + n - 1)
  let tree := fill (treeSize + n) (treeSize - n) (fun _ => lastLeaf) tree
  hashUp (nodeHash sha3) treeSize treeSize tree 1

/-- `VerifyLogarithmicProof`: everything is computed again from the claimed tuples. -/
def verifyLogarithmicProof (vchProof : Bytes) (vClaimedSigs vClaimedPks vClaimedMsgs : List Bytes) :
    Bool :=
  match parseProof vchProof with
  | none => false
  | some proof =>
    let n := proof.count
    if n = 0 || MAX_PAT_PROOF_COUNT < n then false
    else if vClaimedSigs.length ≠ n || vClaimedPks.length ≠ n || vClaimedMsgs.length ≠ n then false
    else
      let order := canonicalOrder sha3 vClaimedSigs vClaimedPks vClaimedMsgs
      let sortedSigs := order.map fun pos => vClaimedSigs.getD pos []
      let sortedPks := order.map fun pos => vClaimedPks.getD pos []
      let sortedMsgs := order.map fun pos => vClaimedMsgs.getD pos []
      if !(vClaimedSigs.all (·.length = 32) && vClaimedPks.all (·.length = 32) &&
          vClaimedMsgs.all (·.length = 32)) then false
      else if computeMsgRoot sha3 sortedMsgs ≠ proof.msgRoot then false
      else if computePkAgg sha3 sortedPks ≠ proof.pkAgg then false
      else
        let leaf := fun i =>
          leafHash sha3 i (sortedSigs.getD i []) (sortedPks.getD i []) (sortedMsgs.getD i [])
        rebuiltRoot sha3 n leaf = proof.merkleRoot

end Soqucoin.Pat
