import Soqucoin.Address
import Soqucoin.AssetRules
import Soqucoin.Interpreter

/-! # UsdsoqRpc — the calls that build authority transactions

`rpc/usdsoq.cpp`: `usdsoqmint`, `usdsoqburn`, `usdsoqfreeze` and `usdsoqunfreeze` build a
transaction without signatures, `usdsoqsigntx` puts the authority input, the marker and the
signatures to it.  Arguments are taken as parsed: amounts, hashes, keys and a decoded
transaction. -/

namespace Soqucoin

/-- The errors of the calls. -/
inductive RpcError where
  | notActive (operations : Option String)
  | notInitialized
  | amountNotPositive (operation : String)
  | invalidDestination
  | voutNegative
  | badTag
  | noKeys
  | keySize (i size : Nat)
  | feeRequired
  | signFailed (i : Nat)
  | sigSize (size : Nat)
deriving DecidableEq

/-- Their texts. -/
def RpcError.message : RpcError → String
  | notActive none => "USDSOQ deployment is not active."
  | notActive (some operations) =>
    s!"USDSOQ deployment is not active. {operations} operations are not available."
  | notInitialized =>
    "USDSOQ authority is not initialized. Run usdsoqsetauthority first."
  | amountNotPositive operation => s!"{operation} amount must be positive"
  | invalidDestination => "Invalid destination address"
  | voutNegative => "vout must be non-negative"
  | badTag => "opcode_tag must be 1 (MINT), 2 (BURN), 3 (FREEZE), or 4 (ROTATE)"
  | noKeys => "At least one private key is required"
  | keySize i size => s!"Private key {i} has invalid size {size} (expected 2560)"
  | feeRequired =>
    "Bootstrap mode: fee_outpoint is required for the first authority TX " ++
      "(no existing authority UTXO to spend). Provide a SOQ UTXO as fee_outpoint."
  | signFailed i => s!"Dilithium signing failed for key {i}"
  | sigSize size => s!"Unexpected signature size {size} (expected {DILITHIUM_SIG_SIZE})"

/-! ## Unsigned transactions -/

/-- A transaction of version 2 without inputs. -/
def unsignedTx (vout : List CTxOut) : CTransaction := ⟨2, [], vout, 0⟩

/-- `usdsoqmint`: the holding of a version-1 address. -/
def usdsoqmint (active : Bool) (amount : Int) (destination hrp : Bytes) :
    Except RpcError CTransaction :=
  if !active then .error (.notActive (some "Mint"))
  else if amount ≤ 0 then .error (.amountNotPositive "Mint")
  else
    match Address.decodeDestination destination hrp with
    | none => .error .invalidDestination
    | some program => .ok (unsignedTx [⟨amount, witnessScript OP_7 program⟩])

/-- `usdsoqburn`: an unsigned transaction that burns. -/
def usdsoqburn (active : Bool) (amount : Int) : Except RpcError CTransaction :=
  if !active then .error (.notActive (some "Burn"))
  else if amount ≤ 0 then .error (.amountNotPositive "Burn")
  else .ok (unsignedTx [⟨0, [OP_RETURN, 8] ++ writeLE 8 amount.toNat⟩])

/-- The unsigned transaction with the operation. -/
def makeRegistryFreezeTx (freezeOp : UInt8) (txid : Uint256) (vout : Nat) : CTransaction :=
  unsignedTx [⟨0, [OP_RETURN, 6] ++ FREEZE_TAG ++
    [37] ++ ([freezeOp] ++ txid.bytes ++ writeLE 4 vout)⟩]

/-- `usdsoqfreeze` and `usdsoqunfreeze` differ in the operation. -/
def usdsoqFreezeCall (freezeOp : UInt8) (operations : String) (active : Bool) (txid : Uint256)
    (vout : Int) : Except RpcError CTransaction :=
  if !active then .error (.notActive (some operations))
  else if vout < 0 then .error .voutNegative
  else .ok (makeRegistryFreezeTx freezeOp txid vout.toNat)

/-- `usdsoqfreeze`. -/
def usdsoqfreeze (active : Bool) (txid : Uint256) (vout : Int) : Except RpcError CTransaction :=
  usdsoqFreezeCall FREEZE_OP_FREEZE "Freeze" active txid vout

/-- `usdsoqunfreeze`. -/
def usdsoqunfreeze (active : Bool) (txid : Uint256) (vout : Int) : Except RpcError CTransaction :=
  usdsoqFreezeCall FREEZE_OP_UNFREEZE "Unfreeze" active txid vout

/-! ## `usdsoqsigntx` -/

def DILITHIUM_SECRETKEYBYTES : Nat := 2560

/-- A private key has its size, or the call names the first that has not. -/
def checkKeySize (i : Nat) (sk : Bytes) : Except RpcError Unit :=
  if sk.length = DILITHIUM_SECRETKEYBYTES then .ok () else .error (.keySize i sk.length)

/-- The signature of the key of number `i`; `sign` is the Dilithium library. -/
def signWith (sign : Bytes → Bytes → Option Bytes) (msg : Bytes) (i : Nat) (sk : Bytes) :
    Except RpcError Bytes :=
  match sign sk msg with
  | none => .error (.signFailed i)
  | some sig => if sig.length = DILITHIUM_SIG_SIZE then .ok sig else .error (.sigSize sig.length)

/-- The serialized key set of the marker. -/
def authoritySet (authority : Authority) : Bytes :=
  writeLE 4 authority.threshold ++ writeLE 4 authority.keys.length ++ authority.keys.flatten

/-- The authority input and the fee input: the tracked marker, or the fee outpoint
    in its place while none is tracked. -/
def authorityInputs (tracked : COutPoint) (feeOutpoint : Option COutPoint) :
    Except RpcError (List CTxIn) :=
  let input (prevout : COutPoint) : CTxIn := ⟨prevout, [], 0xffffffff, []⟩
  match tracked.isNull, feeOutpoint with
  | true, none => .error .feeRequired
  | true, some fee => .ok [input fee]
  | false, none => .ok [input tracked]
  | false, some fee => .ok [input tracked, input fee]

/-- Puts a witness on the first input. -/
def setFirstWitness (witness : List Bytes) : List CTxIn → List CTxIn
  | [] => []
  | txin :: vin => { txin with scriptWitness := witness } :: vin

/-- `usdsoqsigntx`: the authority input in front, signed by the given keys. -/
def usdsoqsigntx (env : Env) (sign : Bytes → Bytes → Option Bytes) (active : Bool)
    (asset : AssetState) (mtx : CTransaction) (opcodeTag : Int) (privkeys : List Bytes)
    (feeOutpoint : Option COutPoint) : Except RpcError CTransaction :=
  if !active then .error (.notActive none)
  else if !asset.authority.isInitialized then .error .notInitialized
  else if opcodeTag < 1 ∨ 4 < opcodeTag then .error .badTag
  else if privkeys.isEmpty then .error .noKeys
  else do
    let _ ← privkeys.zipIdx.mapM fun key => checkKeySize key.2 key.1
    let authScript := witnessScript OP_5 (computeAuthorityKeyHash env asset.authority.keys)
    -- the inputs of `mtx` are dropped
    let vin ← authorityInputs asset.authorityOutpoint feeOutpoint
    let tx := { mtx with vin := vin, vout := ⟨0, authScript⟩ :: mtx.vout }
    let sighash := env.signatureHash authScript tx 0 SIGHASH_ALL 0 .witnessV0
    let signatures ← privkeys.zipIdx.mapM fun key => signWith sign sighash.bytes key.2 key.1
    let stack := [[UInt8.ofNat opcodeTag.toNat], sighash.bytes] ++ signatures ++
      [authoritySet asset.authority]
    .ok { tx with vin := setFirstWitness stack vin }

end Soqucoin
