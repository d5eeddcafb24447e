import Soqucoin.SignatureHash

/-! # AuxPow — work done on a parent chain

`CAuxPow` of `auxpow.cpp`: the coinbase of a parent block commits to the root of a tree over the
blocks of several chains, and `check` follows a block's hash up to that root and the coinbase's up
to the parent header.  The hash is `Hash`, SHA-256 twice, over the bytes of two nodes. -/

namespace Soqucoin

/-- The header of a parent block. -/
structure CPureBlockHeader where
  nVersion : Int
  hashPrevBlock : Uint256
  hashMerkleRoot : Uint256
  nTime : Nat
  nBits : Nat
  nNonce : Nat
deriving DecidableEq

/-- `GetChainId`: the upper half of the version. -/
def CPureBlockHeader.getChainId (header : CPureBlockHeader) : Int := header.nVersion / 2 ^ 16

/-- `CMerkleTx` with what `CAuxPow` adds. -/
structure CAuxPow where
  tx : CTransaction
  hashBlock : Uint256
  vMerkleBranch : List Uint256
  nIndex : Int
  vChainMerkleBranch : List Uint256
  nChainIndex : Int
  parentBlock : CPureBlockHeader
deriving DecidableEq

/-- The bytes in front of the committed root. -/
def pchMergedMiningHeader : Bytes := [0xfa, 0xbe] ++ ascii "mm"

/-- `std::search`, by the distance from the start; `none` is the end. -/
def searchBytes (needle : Bytes) : Bytes → Option Nat
  | [] => if needle = [] then some 0 else none
  | b :: rest =>
    if needle.isPrefixOf (b :: rest) then some 0 else (searchBytes needle rest).map (· + 1)

namespace CAuxPow

/-- The slot of a chain in a tree of height `h`. -/
def getExpectedIndex (nNonce : UInt32) (nChainId : Int) (h : Nat) : Int :=
  let rand := nNonce
  let rand := rand * 1103515245 + 12345
  let rand := rand + UInt32.ofInt nChainId
  let rand := rand * 1103515245 + 12345
  ((rand.toNat % 2 ^ h : Nat) : Int)

/-- The loop of `CheckMerkleBranch`: the bits of the index say on which side a node is. -/
def checkMerkleBranchLoop (hash : Bytes → Uint256) : Uint256 → List Uint256 → Int → Uint256
  | node, [], _ => node
  | node, sibling :: branch, nIndex =>
    checkMerkleBranchLoop hash
      (if nIndex % 2 = 1 then hash (sibling.bytes ++ node.bytes)
        else hash (node.bytes ++ sibling.bytes))
      branch (nIndex / 2)

/-- `CheckMerkleBranch`: the root that the branch leads to, null for the index -1. -/
def checkMerkleBranch (hash : Bytes → Uint256) (node : Uint256) (vMerkleBranch : List Uint256)
    (nIndex : Int) : Uint256 :=
  if nIndex = -1 then Uint256.null else checkMerkleBranchLoop hash node vMerkleBranch nIndex

/-- The failures of `CAuxPow::check`. -/
inductive Error where
  | notGenerate | ownChainId | branchTooLong | merkleRootIncorrect | noInputs | missingRoot
  | multipleHeaders | headerNotBefore | rootNotEarly | missingSize | sizeMismatch | wrongIndex
deriving DecidableEq

/-- Their texts in the log. -/
def Error.message : Error → String
  | notGenerate => "AuxPow is not a generate"
  | ownChainId => "Aux POW parent has our chain ID"
  | branchTooLong => "Aux POW chain merkle branch too long"
  | merkleRootIncorrect => "Aux POW merkle root incorrect"
  | noInputs => "Aux POW coinbase has no inputs"
  | missingRoot => "Aux POW missing chain merkle root in parent coinbase"
  | multipleHeaders => "Multiple merged mining headers in coinbase"
  | headerNotBefore => "Merged mining header is not just before chain merkle root"
  | rootNotEarly =>
    "Aux POW chain merkle root must start in the first 20 bytes of the parent coinbase"
  | missingSize => "Aux POW missing chain merkle tree size and nonce in parent coinbase"
  | sizeMismatch => "Aux POW merkle branch size does not match parent coinbase"
  | wrongIndex => "Aux POW wrong index"

/-- The root's place in the script: right behind the only header, or early. -/
def checkPlacement (script : CScript) (pc : Nat) : Except Error Unit :=
  match searchBytes pchMergedMiningHeader script with
  | some pcHead =>
    if (searchBytes pchMergedMiningHeader (script.drop (pcHead + 1))).isSome then
      .error .multipleHeaders
    else if pcHead + pchMergedMiningHeader.length ≠ pc then .error .headerNotBefore
    else .ok ()
  | none => if pc > 20 then .error .rootNotEarly else .ok ()

/-- Size and nonce behind the root, and the slot they give. -/
def checkSlot (script : CScript) (pc : Nat) (merkleHeight : Nat) (nChainIndex nChainId : Int) :
    Except Error Unit :=
  if script.length < pc + 8 then .error .missingSize
  else if readLEAt script pc 4 ≠ 2 ^ merkleHeight then .error .sizeMismatch
  else if nChainIndex ≠
      getExpectedIndex (UInt32.ofNat (readLEAt script (pc + 4) 4)) nChainId merkleHeight then
    .error .wrongIndex
  else .ok ()

/-- `CAuxPow::check`, with the hash of the merged-mined block and its chain id. -/
def check (hash : Bytes → Uint256) (fStrictChainId : Bool) (auxpow : CAuxPow)
    (hashAuxBlock : Uint256) (nChainId : Int) : Except Error Unit :=
  if auxpow.nIndex ≠ 0 then .error .notGenerate
  else if fStrictChainId ∧ auxpow.parentBlock.getChainId = nChainId then .error .ownChainId
  else if auxpow.vChainMerkleBranch.length > 30 then .error .branchTooLong
  else
    let nRootHash := checkMerkleBranch hash hashAuxBlock auxpow.vChainMerkleBranch
      auxpow.nChainIndex
    let vchRootHash := nRootHash.bytes.reverse
    let coinbaseHash := hash (serializeTransaction auxpow.tx.stripWitness)
    if checkMerkleBranch hash coinbaseHash auxpow.vMerkleBranch auxpow.nIndex ≠
        auxpow.parentBlock.hashMerkleRoot then .error .merkleRootIncorrect
    else
      match auxpow.tx.vin with
      | [] => .error .noInputs
      | txin :: _ =>
        let script := txin.scriptSig
        match searchBytes vchRootHash script with
        | none => .error .missingRoot
        | some pc => do
            checkPlacement script pc
            checkSlot script (pc + vchRootHash.length) auxpow.vChainMerkleBranch.length
              auxpow.nChainIndex nChainId

end CAuxPow

end Soqucoin
