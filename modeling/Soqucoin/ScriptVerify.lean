import Soqucoin.Params

/-! # Script verification — what an input has to show

`VerifyScript` and `TransactionSignatureChecker::CheckSig` of `script/interpreter.cpp`.  The
dispatch is by the shape of the output's script alone; the opcode handlers behind the
script-executing versions are the parameter `Env.evalScript`. -/

namespace Soqucoin

def OP_USDSOQ_MINT : UInt8 := 0xf4
def OP_USDSOQ_BURN : UInt8 := 0xf5
def OP_USDSOQ_FREEZE : UInt8 := 0xf6
def OP_USDSOQ_ROTATE : UInt8 := 0xf7
def OP_SOQUOBSCURA_RANGEPROOF : UInt8 := 0xfa
def OP_CHECKFOLDPROOF : UInt8 := 0xfc
def OP_CHECKPATAGG : UInt8 := 0xfd

/-! ## The single-key path -/

/-- A key with its leading zero byte taken off, if it has one. -/
def stripKeyPrefix (pubkey : Bytes) : Bytes :=
  if pubkey.length = 1313 && pubkey.head? = some 0 then pubkey.tail else pubkey

/-- `CPubKey` holds the key: 1312 bytes, the first of them not `0xff`. -/
def isValidPubKey (pubkey : Bytes) : Bool :=
  pubkey.length = 1312 && pubkey.head? ≠ some 0xff

/-- The hash type of the signature is one of ANYPREVOUT. -/
def isAPOSigHashType (sig : Bytes) : Bool :=
  match sig.getLast? with
  | none => false
  | some b => b &&& 0x7f = SIGHASH_ANYPREVOUT || b &&& 0x7f = SIGHASH_ANYPREVOUTANYSCRIPT

/-- `CheckSig`: the last byte of the signature is its hash type. -/
def checkSig (env : Env) (tx : CTransaction) (nIn : Nat) (amount : Int) (sig pubkey : Bytes)
    (scriptCode : CScript) : Bool :=
  match sig.getLast? with
  | none => false
  | some nHashType =>
    isValidPubKey (stripKeyPrefix pubkey) && sig.dropLast.length = 2420 &&
      env.verify (stripKeyPrefix pubkey)
        (env.signatureHash scriptCode tx nIn nHashType amount .witnessV0).bytes sig.dropLast

/-- The end of `VerifyScript`: a witness `[sig, pubkey]` whose key hashes to the
    program and whose signature verifies. -/
def verifyDilithium (env : Env) (tx : CTransaction) (nIn : Nat) (amount : Int)
    (scriptPubKey : CScript) (witness : List Bytes) : Bool :=
  match witness with
  | [sig, pubkey] =>
    (env.sha256 (stripKeyPrefix pubkey)).bytes = scriptPubKey.drop 2 &&
      !isAPOSigHashType sig && checkSig env tx nIn amount sig pubkey scriptPubKey
  | _ => false

/-! ## The script-executing paths -/

/-- An opcode that a version 6 script may hold. -/
def isWitnessV6ScriptOpcode (op : UInt8) : Bool :=
  op ≤ OP_PUSHDATA4 || (OP_1 ≤ op && op ≤ OP_16) ||
    -- IF NOTIF ELSE ENDIF, DROP, EQUAL EQUALVERIFY, SHA256
    op ∈ ([0x63, 0x64, 0x67, 0x68, 0x75, 0x87, 0x88, 0xa8] : List UInt8) ||
    -- CHECKLOCKTIMEVERIFY CHECKSEQUENCEVERIFY CHECKDILITHIUMKEYHASH
    -- CHECKTEMPLATEVERIFY CHECKSIGFROMSTACK
    op ∈ ([0xb1, 0xb2, 0xb6, 0xb3, 0xb4] : List UInt8) ||
    -- CAT SUBSTR LEFT RIGHT, AND OR XOR, MUL DIV MOD
    op ∈ ([0x7e, 0x7f, 0x80, 0x81, 0x84, 0x85, 0x86, 0x95, 0x96, 0x97] : List UInt8)

/-- The opcodes a witness script may hold, as far as `fuel` opcodes reach. -/
def witnessScriptAllowed : Nat → Bytes → Bool
  | _, [] => true
  | 0, _ :: _ => false
  | fuel + 1, pc =>
    match getOp pc with
    | none => false
    | some (op, _, rest) =>
      !(op ∈ [OP_USDSOQ_MINT, OP_USDSOQ_BURN, OP_USDSOQ_FREEZE, OP_USDSOQ_ROTATE,
          OP_SOQUOBSCURA_RANGEPROOF, OP_CHECKFOLDPROOF, OP_CHECKPATAGG]) &&
        isWitnessV6ScriptOpcode op && witnessScriptAllowed fuel rest

/-- `CastToBool`: negative zero is false. -/
def castToBool : Bytes → Bool
  | [] => false
  | [b] => b ≠ 0 && b ≠ 0x80
  | b :: rest => b ≠ 0 || castToBool rest

/-- One opcode run on the whole witness. -/
def evalWitness (env : Env) (flags : ScriptFlags) (tx : CTransaction) (nIn : Nat)
    (amount : Int) (minItems : Nat) (op : UInt8) (witness : List Bytes) : Bool :=
  minItems ≤ witness.length && (env.evalScript witness [op] flags tx nIn amount).isSome

/-- The witness v5 path: the opcode is chosen by the tag item. -/
def verifyUSDSOQWitness (env : Env) (flags : ScriptFlags) (tx : CTransaction) (nIn : Nat)
    (amount : Int) (witness : List Bytes) : Bool :=
  match witness.head? with
  | some [tag] =>
    if tag = 1 then evalWitness env flags tx nIn amount 4 OP_USDSOQ_MINT witness
    else if tag = 2 then evalWitness env flags tx nIn amount 4 OP_USDSOQ_BURN witness
    else if tag = 3 then evalWitness env flags tx nIn amount 4 OP_USDSOQ_FREEZE witness
    else if tag = 4 then evalWitness env flags tx nIn amount 4 OP_USDSOQ_ROTATE witness
    else false
  | _ => false

/-- The witness v6 path: the second item from the end is the script. -/
def verifyP2WSHDilithium (env : Env) (flags : ScriptFlags) (tx : CTransaction) (nIn : Nat)
    (amount : Int) (scriptPubKey : CScript) (witness : List Bytes) : Bool :=
  match witness.reverse with
  | _ :: witnessScript :: stack =>
    (env.sha256 witnessScript).bytes = scriptPubKey.drop 2 &&
      witnessScript.length ≤ MAX_SCRIPT_SIZE &&
      witnessScriptAllowed witnessScript.length witnessScript &&
      (match env.evalScript stack.reverse witnessScript flags tx nIn amount with
        | some [item] => castToBool item
        | _ => false)
  | _ => false

/-- `VerifyScript`, as far as the witness versions go. -/
def verifyScript (env : Env) (flags : ScriptFlags) (tx : CTransaction) (nIn : Nat)
    (amount : Int) (scriptPubKey : CScript) (witness : List Bytes) : Bool :=
  if isWitnessProgram OP_2 scriptPubKey then
    !flags.pat || evalWitness env flags tx nIn amount 4 OP_CHECKPATAGG witness
  else if isWitnessProgram OP_3 scriptPubKey then
    !flags.latticefold || evalWitness env flags tx nIn amount 4 OP_CHECKFOLDPROOF witness
  else if isWitnessProgram OP_4 scriptPubKey then
    !flags.soquobscura || evalWitness env flags tx nIn amount 3 OP_SOQUOBSCURA_RANGEPROOF witness
  else if isWitnessProgram OP_5 scriptPubKey then
    !flags.usdsoq || verifyUSDSOQWitness env flags tx nIn amount witness
  else if isWitnessProgram OP_6 scriptPubKey then
    !flags.p2wshDilithium || verifyP2WSHDilithium env flags tx nIn amount scriptPubKey witness
  else if isWitnessProgram OP_7 scriptPubKey then
    !flags.usdsoq || verifyDilithium env tx nIn amount scriptPubKey witness
  else if isWitnessProgram OP_8 scriptPubKey then
    !flags.btcsoq || verifyDilithium env tx nIn amount scriptPubKey witness
  else if isWitnessProgram OP_9 scriptPubKey then !flags.btcsoq
  else if isWitnessProgram OP_10 scriptPubKey then !flags.usdsoq || !flags.soquobscura
  else if scriptPubKey.length = 34 && OP_11 ≤ scriptPubKey.getD 0 0 &&
      scriptPubKey.getD 0 0 ≤ OP_16 && scriptPubKey.getD 1 0 = 32 then true
  else if scriptPubKey.head? = some OP_RETURN then true
  else if isWitnessProgram OP_0 scriptPubKey || isWitnessProgram OP_1 scriptPubKey then
    verifyDilithium env tx nIn amount scriptPubKey witness
  else false

end Soqucoin
