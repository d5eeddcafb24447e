import Soqucoin.Interpreter

/-! # Signature operations

The sigop accounting of a transaction: `CScript::GetSigOpCount` of `script.cpp`,
`CountWitnessSigOps` of `script/interpreter.cpp`, and `GetLegacySigOpCount`, `GetP2SHSigOpCount`
and `GetTransactionSigOpCost` of `validation.cpp`. -/

namespace Soqucoin

def OP_HASH160 : UInt8 := 0xa9
def OP_CHECKSIG : UInt8 := 0xac
def OP_CHECKSIGVERIFY : UInt8 := 0xad
def OP_CHECKMULTISIG : UInt8 := 0xae
def OP_CHECKMULTISIGVERIFY : UInt8 := 0xaf
def OP_INVALIDOPCODE : UInt8 := 0xff

def MAX_PUBKEYS_PER_MULTISIG : Nat := 20

/-- `DecodeOP_N`. -/
def decodeOpN (opcode : UInt8) : Nat := if opcode = OP_0 then 0 else opcode.toNat - 0x50

/-! ## Counting in a script -/

/-- What one opcode adds, after the opcode before it; `active` are the opcodes
    that count under the flags. -/
def sigOpsOf (fAccurate : Bool) (active : UInt8 → Bool) (lastOpcode opcode : UInt8) : Nat :=
  if opcode = OP_CHECKSIG || opcode = OP_CHECKSIGVERIFY then 1
  else if opcode = OP_CHECKMULTISIG || opcode = OP_CHECKMULTISIGVERIFY then
    if fAccurate && OP_1 ≤ lastOpcode && lastOpcode ≤ OP_16 then decodeOpN lastOpcode
    else MAX_PUBKEYS_PER_MULTISIG
  else if active opcode then 1
  else 0

/-- The count over a script, as far as `fuel` opcodes reach; it stops where the
    script does not parse. -/
def countSigOps (fAccurate : Bool) (active : UInt8 → Bool) : Nat → Bytes → UInt8 → Nat
  | 0, _, _ => 0
  | fuel + 1, pc, lastOpcode =>
    match getOp pc with
    | none => 0
    | some (opcode, _, rest) =>
      sigOpsOf fAccurate active lastOpcode opcode + countSigOps fAccurate active fuel rest opcode

/-- `GetSigOpCount`. -/
def getSigOpCount (fAccurate : Bool) (script : CScript) : Nat :=
  countSigOps fAccurate (fun _ => false) script.length script OP_INVALIDOPCODE

/-- The charge for a witness script. -/
def countWitnessScriptSigOps (flags : ScriptFlags) (script : CScript) : Nat :=
  countSigOps true (fun opcode => (flags.csfs && opcode = OP_CHECKSIGFROMSTACKVERIFY) ||
    (flags.dilithiumKeyhash && opcode = OP_CHECKDILITHIUMKEYHASH)) script.length script
    OP_INVALIDOPCODE

/-- `IsPayToScriptHash`. -/
def isPayToScriptHash (script : CScript) : Bool :=
  script.length = 23 && script.getD 0 0 = OP_HASH160 && script.getD 1 0 = 0x14 &&
    script.getD 22 0 = OP_EQUAL

/-- The data of the last push, of a script of pushes alone. -/
def lastPushOnly : Nat → Bytes → Bytes → Option Bytes
  | _, [], data => some data
  | 0, _ :: _, _ => none
  | fuel + 1, b :: bs, _ =>
    match getOp (b :: bs) with
    | none => none
    | some (opcode, data, rest) => if OP_16 < opcode then none else lastPushOnly fuel rest data

/-- `GetSigOpCount(scriptSig)` of a script-hash output: what the redeem script counts. -/
def getP2SHScriptSigOps (scriptSig : CScript) : Nat :=
  match lastPushOnly scriptSig.length scriptSig [] with
  | none => 0
  | some subscript => getSigOpCount true subscript

/-! ## Counting in a transaction -/

/-- `IsWitnessProgram`: the version and the program. -/
def witnessProgramOf (script : CScript) : Option (Nat × Bytes) :=
  match script with
  | op :: size :: program =>
    if 4 ≤ script.length && script.length ≤ 42 &&
        (op = OP_0 || (OP_1 ≤ op && op ≤ OP_16)) && size.toNat + 2 = script.length then
      some (decodeOpN op, program)
    else none
  | _ => none

/-- `CountWitnessSigOps`. -/
def countWitnessSigOps (flags : ScriptFlags) (_scriptSig scriptPubKey : CScript)
    (witness : Option (List Bytes)) : Nat :=
  if !flags.witness then 0
  else
    match witnessProgramOf scriptPubKey with
    | none => 0
    | some (version, program) =>
      if version = 0 then
        if program.length = 20 then 1
        else if program.length = 32 then
          match (witness.getD []).reverse with
          | script :: _ => countWitnessScriptSigOps flags script
          | [] => 0
        else 0
      else if version ≤ 5 then 1
      else if version = 6 then
        match (witness.getD []).reverse with
        | _ :: script :: _ =>
          if flags.p2wshDilithium then countWitnessScriptSigOps flags script else 0
        | _ => 0
      else 0

/-- `GetLegacySigOpCount`. -/
def getLegacySigOpCount (tx : CTransaction) : Nat :=
  (tx.vin.map fun txin => getSigOpCount false txin.scriptSig).sum +
    (tx.vout.map fun txout => getSigOpCount false txout.scriptPubKey).sum

/-- `GetP2SHSigOpCount`. -/
def getP2SHSigOpCount (tx : CTransaction) (spent : List CTxOut) : Nat :=
  ((tx.vin.zip spent).map fun p =>
    if isPayToScriptHash p.2.scriptPubKey then getP2SHScriptSigOps p.1.scriptSig else 0).sum

/-- `GetTransactionSigOpCost`. -/
def getTransactionSigOpCost (tx : CTransaction) (spent : List CTxOut) (flags : ScriptFlags) :
    Int :=
  let legacy := getLegacySigOpCount tx * WITNESS_SCALE_FACTOR
  if tx.isCoinBase then (legacy : Int)
  else
    let p2sh := if flags.p2sh then getP2SHSigOpCount tx spent * WITNESS_SCALE_FACTOR else 0
    let witness := ((tx.vin.zip spent).map fun p =>
      countWitnessSigOps flags p.1.scriptSig p.2.scriptPubKey (some p.1.scriptWitness)).sum
    ((legacy + p2sh + witness : Nat) : Int)

/-- A node that counts as above and runs scripts in the interpreter. -/
def Env.node (env : Env) (proofs : ProofVerifiers) : Env :=
  Env.withInterpreter
    { env with
      getLegacySigOpCount := Soqucoin.getLegacySigOpCount
      getTransactionSigOpCost := Soqucoin.getTransactionSigOpCost } proofs

end Soqucoin
