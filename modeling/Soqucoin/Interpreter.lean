import Soqucoin.BlockRules

/-! # The script interpreter — numbers, opcodes and dispatch

`CScriptNum` of `script.h`, and `EvalScript` and `VerifyScript` of `script/interpreter.cpp`, over
an arbitrary signature checker and with the error each failure reports.

The stack is a list with its top first; a script is run opcode by opcode on its bytes, and the
condition stack `vfExec` has the innermost conditional first.  An exception inside `EvalScript` is
the error `unknownError`. -/

namespace Soqucoin

open CheckedLoop

def OP_IF : UInt8 := 0x63
def OP_NOTIF : UInt8 := 0x64
def OP_ELSE : UInt8 := 0x67
def OP_ENDIF : UInt8 := 0x68
def OP_DROP : UInt8 := 0x75
def OP_CAT : UInt8 := 0x7e
def OP_SUBSTR : UInt8 := 0x7f
def OP_LEFT : UInt8 := 0x80
def OP_RIGHT : UInt8 := 0x81
def OP_AND : UInt8 := 0x84
def OP_OR : UInt8 := 0x85
def OP_XOR : UInt8 := 0x86
def OP_EQUAL : UInt8 := 0x87
def OP_EQUALVERIFY : UInt8 := 0x88
def OP_MUL : UInt8 := 0x95
def OP_DIV : UInt8 := 0x96
def OP_MOD : UInt8 := 0x97
def OP_SHA256 : UInt8 := 0xa8
def OP_CHECKLOCKTIMEVERIFY : UInt8 := 0xb1
def OP_CHECKSEQUENCEVERIFY : UInt8 := 0xb2
def OP_CHECKTEMPLATEVERIFY : UInt8 := 0xb3
/-- `OP_NOP5`, the one byte of `OP_CHECKSIGFROMSTACK` and of its `VERIFY` form. -/
def OP_CHECKSIGFROMSTACKVERIFY : UInt8 := 0xb4
def OP_CHECKDILITHIUMKEYHASH : UInt8 := 0xb6
def OP_CHECKDILITHIUMSIG : UInt8 := 0xfb
def OP_RESERVED_BATCHSIG : UInt8 := 0xfe

def MAX_SCRIPT_ELEMENT_SIZE : Nat := 520
def MAX_PAT_PROOF_COUNT : Nat := 1048576
def INT64_MIN : Int := -9223372036854775808

/-- The errors interpretation reports (`SCRIPT_ERR_*`). -/
inductive ScriptError
  | unknownError | evalFalse | scriptSize | pushSize | badOpcode | disallowedOpcode
  | invalidStackOperation | unbalancedConditional | minimalif | equalverify
  | negativeLocktime | unsatisfiedLocktime | divByZero | invalidSplitRange
  | discourageUpgradableNops | checktemplateverify | checksigfromstack
  | checkdilithiumkeyhash | sigHashtype | sigNullfail | patVerificationFailed
  | checkfoldproofFailed | soquobscuraRangeproofUnverified | usdsoqNotActive
  | usdsoqInvalidOpcode | usdsoqAuthorityFailed | btcsoqMarkerSpend
  | confidentialUsdsoqUnverified | disallowedClassicalCrypto | witnessProgramMismatch
deriving DecidableEq

/-- The flags interpretation reads: those of a block, and three of relay policy. -/
structure VerifyFlags extends ScriptFlags where
  minimalData : Bool
  minimalIf : Bool
  discourageUpgradableNops : Bool
deriving DecidableEq

/-- The flags of a block, with the policy flags clear. -/
def ScriptFlags.consensus (flags : ScriptFlags) : VerifyFlags where
  toScriptFlags := flags
  minimalData := false
  minimalIf := false
  discourageUpgradableNops := false

/-- `BaseSignatureChecker`: what the interpreter asks about the spend. -/
structure SignatureChecker where
  checkSig : (sig pubkey : Bytes) → (scriptCode : CScript) → SigVersion → Bool
  checkLockTime : Int → Bool
  checkSequence : Int → Bool
  checkTemplateVerify : Bytes → Bool

/-- The verifiers of the two aggregate proofs. -/
structure ProofVerifiers where
  verifyLogarithmicProof : (proof : Bytes) → (sigs pks msgs : List Bytes) → Bool
  evalCheckFoldProof : (proof : Bytes) → (sighash : Uint256) → (pubkeyHash : Bytes) →
    (sigs : List Bytes) → Bool

/-- The cryptography the opcodes call. -/
structure ScriptCrypto extends ProofVerifiers where
  sha256 : Bytes → Uint256
  /-- ML-DSA-44 verification. -/
  verify : (key msg sig : Bytes) → Bool

/-- A stack of byte strings, its top first. -/
abbrev ScriptStack := List Bytes

/-! ## Numbers -/

namespace CScriptNum

/-- The most significant byte, sign bit apart, is not zero unless the sign bit
    would otherwise fall on the byte before it. -/
def isMinimal (vch : Bytes) : Bool :=
  match vch.reverse with
  | [] => true
  | [b] => b &&& 0x7f ≠ 0
  | b :: b' :: _ => b &&& 0x7f ≠ 0 || b' &&& 0x80 ≠ 0

/-- `set_vch`: little-endian, the top bit of the last byte being the sign. -/
def setVch (vch : Bytes) : Int :=
  match vch.getLast? with
  | none => 0
  | some b =>
    if b &&& 0x80 ≠ 0 then -((readLE vch - 0x80 * 256 ^ (vch.length - 1) : Nat) : Int)
    else (readLE vch : Int)

/-- The constructor from a stack item; it throws on a number that is too long or
    not minimally encoded. -/
def ofVch (vch : Bytes) (fRequireMinimal : Bool) (nMaxNumSize : Nat) : Except ScriptError Int := do
  require (vch.length ≤ nMaxNumSize) .unknownError
  require (!fRequireMinimal || isMinimal vch) .unknownError
  .ok (setVch vch)

/-- The bytes of a 64-bit magnitude, least significant first, without trailing zero bytes. -/
def magnitude : Nat → Nat → Bytes
  | 0, _ => []
  | width + 1, absvalue =>
    if absvalue = 0 then []
    else UInt8.ofNat (absvalue % 256) :: magnitude width (absvalue / 256)

/-- `serialize`, which is also `getvch`. -/
def serialize (value : Int) : Bytes :=
  let result := magnitude 8 value.natAbs
  match result.getLast? with
  | none => []
  | some b =>
    if b &&& 0x80 ≠ 0 then result ++ [if value < 0 then 0x80 else 0]
    else if value < 0 then result.dropLast ++ [b ||| 0x80]
    else result

end CScriptNum

/-! ## Opcode handlers -/

/-- The item `vchTrue`, or the empty `vchFalse`. -/
def vchBool (b : Bool) : Bytes := if b then [1] else []

/-- `ParseLogarithmicProof`: the count of a proof of the right size. -/
def parseLogarithmicProof (vchProof : Bytes) : Option Nat :=
  if vchProof.length = 100 then
    let count := readLEAt vchProof 96 4
    if count = 0 || MAX_PAT_PROOF_COUNT < count then none else some count
  else none

/-- `CPubKey::Verify`: the ML-DSA signature has its fixed size. -/
def ScriptCrypto.pubKeyVerify (crypto : ScriptCrypto) (pubkey : Bytes) (hash : Uint256)
    (sig : Bytes) : Bool :=
  isValidPubKey pubkey && sig.length = 2420 && crypto.verify pubkey hash.bytes sig

/-- The double hash. -/
def ScriptCrypto.hash (crypto : ScriptCrypto) (msg : Bytes) : Uint256 :=
  crypto.sha256 (crypto.sha256 msg).bytes

section Handlers

variable (crypto : ScriptCrypto) (checker : SignatureChecker) (flags : VerifyFlags)

/-- `OP_CHECKPATAGG`. -/
def checkPatAgg (stack : ScriptStack) : Except ScriptError ScriptStack :=
  match stack with
  | _ :: _ :: proofData :: rest =>
    match parseLogarithmicProof proofData with
    | none => .error .patVerificationFailed
    | some n => do
        require (n ≠ 0 && n ≤ MAX_PAT_PROOF_COUNT) .patVerificationFailed
        require (4 + 3 * n ≤ stack.length) .invalidStackOperation
        -- a count item of another size is not compared
        let countBlob := rest.headD []
        require (countBlob.length ≠ 4 || readLE countBlob = n) .patVerificationFailed
        let msgs := (stack.drop 4).take n
        let pks := (stack.drop (4 + n)).take n
        let sigs := (stack.drop (4 + 2 * n)).take n
        require (crypto.verifyLogarithmicProof proofData sigs pks msgs) .patVerificationFailed
        .ok (vchBool true :: stack.drop (4 + 3 * n))
  | _ => .error .invalidStackOperation

/-- `OP_CHECKFOLDPROOF`. -/
def checkFoldProof (script : CScript) (stack : ScriptStack) : Except ScriptError ScriptStack := do
  require flags.latticefold .badOpcode
  match stack with
  | vchProof :: vchPubkeyHash :: vchNumSigs :: _ :: _ =>
    require (vchPubkeyHash.length = 32) .checkfoldproofFailed
    let nSigs ← CScriptNum.ofVch vchNumSigs true 4
    require (1 ≤ nSigs && nSigs ≤ 512) .checkfoldproofFailed
    require (3 + nSigs.toNat ≤ stack.length) .invalidStackOperation
    let sigs := (stack.drop 3).take nSigs.toNat
    let sighash := crypto.sha256 (script ++ vchPubkeyHash)
    require (crypto.evalCheckFoldProof vchProof sighash vchPubkeyHash sigs) .checkfoldproofFailed
    .ok (vchBool true :: stack.drop (3 + nSigs.toNat))
  | _ => .error .invalidStackOperation

/-- `OP_SOQUOBSCURA_RANGEPROOF`: no verifier ships, so it never succeeds. -/
def soquobscuraRangeproof : Except ScriptError ScriptStack := do
  require flags.soquobscura .badOpcode
  .error .soquobscuraRangeproofUnverified

/-- `OP_USDSOQ_MINT`, `BURN`, `FREEZE` and `ROTATE`: the shape of an authority
    witness, read from the bottom of the stack. -/
def usdsoqAuthorityOp (expectedTag : UInt8) (stack : ScriptStack) :
    Except ScriptError ScriptStack := do
  require flags.usdsoq .usdsoqNotActive
  require (4 ≤ stack.length) .invalidStackOperation
  let items := stack.reverse
  require (items.headD [] = [expectedTag]) .usdsoqInvalidOpcode
  let payload := items.getD 1 []
  require (payload ≠ [] && payload.length ≤ 65536) .usdsoqInvalidOpcode
  -- everything between the payload and the key set on top is a signature
  require ((items.drop 2).dropLast.all fun sig => sig.length = 2420) .usdsoqAuthorityFailed
  .ok [vchBool true]

/-- `OP_CAT`. -/
def opCat : ScriptStack → Except ScriptError ScriptStack
  | vch2 :: vch1 :: rest => do
      require (vch1.length + vch2.length ≤ MAX_SCRIPT_ELEMENT_SIZE) .pushSize
      .ok ((vch1 ++ vch2) :: rest)
  | _ => .error .invalidStackOperation

/-- An opcode whose deployment is not active: nothing, unless policy objects. -/
def upgradableNop (stack : ScriptStack) : Except ScriptError ScriptStack := do
  require (!flags.discourageUpgradableNops) .discourageUpgradableNops
  .ok stack

/-- `OP_CHECKTEMPLATEVERIFY`: the hash stays on the stack. -/
def checkTemplateVerifyOp (stack : ScriptStack) : Except ScriptError ScriptStack :=
  if flags.ctv then
    match stack with
    | vchHash :: _ => do
        require (vchHash.length = 32) .checktemplateverify
        require (checker.checkTemplateVerify vchHash) .checktemplateverify
        .ok stack
    | _ => .error .invalidStackOperation
  else upgradableNop flags stack

/-- `OP_CHECKSIGFROMSTACK`: the two opcode names are one byte, so the `VERIFY`
    form is the one that runs. -/
def checkSigFromStack (stack : ScriptStack) : Except ScriptError ScriptStack :=
  if flags.csfs then
    match stack with
    | vchPubKey :: vchMsg :: vchSig :: rest => do
        let pubkey := stripKeyPrefix vchPubKey
        require (pubkey.length = 1312) .checksigfromstack
        require (isValidPubKey pubkey) .checksigfromstack
        require (crypto.pubKeyVerify pubkey (crypto.hash vchMsg) vchSig) .checksigfromstack
        .ok rest
    | _ => .error .invalidStackOperation
  else upgradableNop flags stack

/-- An ANYPREVOUT hash type is taken only where the deployment is active. -/
def apoSigHashTypeAllowed (vchSig : Bytes) : Bool := flags.apo || !isAPOSigHashType vchSig

/-- `OP_CHECKDILITHIUMKEYHASH`. -/
def checkDilithiumKeyHash (sigversion : SigVersion) (script : CScript) (stack : ScriptStack) :
    Except ScriptError ScriptStack :=
  if flags.dilithiumKeyhash then
    match stack with
    | vchKeyHash :: vchPubKey :: vchSig :: rest => do
        require (vchKeyHash.length = 32) .checkdilithiumkeyhash
        let pubkey := stripKeyPrefix vchPubKey
        require (pubkey.length = 1312) .checkdilithiumkeyhash
        require ((crypto.sha256 pubkey).bytes = vchKeyHash) .checkdilithiumkeyhash
        require (isValidPubKey pubkey) .checkdilithiumkeyhash
        require (apoSigHashTypeAllowed flags vchSig) .sigHashtype
        require (checker.checkSig vchSig pubkey script sigversion) .checkdilithiumkeyhash
        .ok rest
    | _ => .error .invalidStackOperation
  else upgradableNop flags stack

/-- `OP_DROP`. -/
def opDrop : ScriptStack → Except ScriptError ScriptStack
  | _ :: rest => .ok rest
  | [] => .error .invalidStackOperation

/-- `OP_EQUAL` and `OP_EQUALVERIFY`. -/
def opEqual (verify : Bool) : ScriptStack → Except ScriptError ScriptStack
  | vch2 :: vch1 :: rest =>
    if verify then do
      require (vch1 = vch2) .equalverify
      .ok rest
    else .ok (vchBool (vch1 = vch2) :: rest)
  | _ => .error .invalidStackOperation

/-- `OP_SHA256`. -/
def opSha256 : ScriptStack → Except ScriptError ScriptStack
  | vch :: rest => .ok ((crypto.sha256 vch).bytes :: rest)
  | [] => .error .invalidStackOperation

/-- `OP_CHECKLOCKTIMEVERIFY`: the operand stays on the stack. -/
def checkLockTimeVerify (stack : ScriptStack) : Except ScriptError ScriptStack :=
  match stack with
  | vch :: _ => do
      let nLockTime ← CScriptNum.ofVch vch flags.minimalData 5
      require (0 ≤ nLockTime) .negativeLocktime
      require (checker.checkLockTime nLockTime) .unsatisfiedLocktime
      .ok stack
  | [] => .error .invalidStackOperation

/-- `OP_CHECKSEQUENCEVERIFY`: an operand with the disable flag is not checked. -/
def checkSequenceVerify (stack : ScriptStack) : Except ScriptError ScriptStack :=
  match stack with
  | vch :: _ => do
      let nSequence ← CScriptNum.ofVch vch flags.minimalData 5
      require (0 ≤ nSequence) .negativeLocktime
      require (nSequence.toNat.testBit SEQUENCE_LOCKTIME_DISABLE_FLAG ||
        checker.checkSequence nSequence) .unsatisfiedLocktime
      .ok stack
  | [] => .error .invalidStackOperation

/-- `OP_AND`, `OP_OR` and `OP_XOR`, on operands of one length. -/
def opBitwise (op : UInt8 → UInt8 → UInt8) : ScriptStack → Except ScriptError ScriptStack
  | vch2 :: vch1 :: rest => do
      require (vch1.length = vch2.length) .invalidStackOperation
      .ok (vch1.zipWith op vch2 :: rest)
  | _ => .error .invalidStackOperation

/-- The test `OP_MUL` makes before it multiplies; `/` truncates. -/
def mulOverflows (a b : Int) : Bool :=
  a ≠ 0 && b ≠ 0 &&
    ((0 < a && 0 < b && INT64_MAX.tdiv b < a) || (0 < a && b < 0 && b < INT64_MIN.tdiv a) ||
      (a < 0 && 0 < b && a < INT64_MIN.tdiv b) || (a < 0 && b < 0 && a < INT64_MAX.tdiv b))

/-- `OP_MUL`, `OP_DIV` and `OP_MOD`, on operands of at most eight bytes. -/
def opArithmetic (opcode : UInt8) : ScriptStack → Except ScriptError ScriptStack
  | vch2 :: vch1 :: rest => do
      let bn1 ← CScriptNum.ofVch vch1 flags.minimalData 8
      let bn2 ← CScriptNum.ofVch vch2 flags.minimalData 8
      require (opcode = OP_MUL || bn2 ≠ 0) .divByZero
      require (opcode ≠ OP_MUL || !mulOverflows bn1 bn2) .pushSize
      let result :=
        if opcode = OP_MUL then bn1 * bn2
        else if opcode = OP_DIV then bn1.tdiv bn2
        else bn1.tmod bn2
      .ok (CScriptNum.serialize result :: rest)
  | _ => .error .invalidStackOperation

/-- `OP_SUBSTR`. -/
def opSubstr : ScriptStack → Except ScriptError ScriptStack
  | vchSize :: vchBegin :: vch :: rest => do
      let nBegin ← CScriptNum.ofVch vchBegin flags.minimalData 4
      let nSize ← CScriptNum.ofVch vchSize flags.minimalData 4
      require (0 ≤ nBegin && 0 ≤ nSize) .invalidSplitRange
      require (nBegin ≤ vch.length && nBegin + nSize ≤ vch.length) .invalidSplitRange
      .ok ((vch.drop nBegin.toNat).take nSize.toNat :: rest)
  | _ => .error .invalidStackOperation

/-- `OP_LEFT` and `OP_RIGHT`. -/
def opSplit (left : Bool) : ScriptStack → Except ScriptError ScriptStack
  | vchSize :: vch :: rest => do
      let nSize ← CScriptNum.ofVch vchSize flags.minimalData 4
      require (0 ≤ nSize) .invalidSplitRange
      require (nSize ≤ vch.length) .invalidSplitRange
      .ok ((if left then vch.take nSize.toNat else vch.drop (vch.length - nSize.toNat)) :: rest)
  | _ => .error .invalidStackOperation

/-- The opcodes restored from the first version of the script language; any
    other opcode does nothing. -/
def restoredOpcode (opcode : UInt8) (stack : ScriptStack) : Except ScriptError ScriptStack :=
  if opcode = OP_AND then opBitwise (· &&& ·) stack
  else if opcode = OP_OR then opBitwise (· ||| ·) stack
  else if opcode = OP_XOR then opBitwise (· ^^^ ·) stack
  else if opcode = OP_MUL || opcode = OP_DIV || opcode = OP_MOD then
    opArithmetic flags opcode stack
  else if opcode = OP_SUBSTR then opSubstr flags stack
  else if opcode = OP_LEFT then opSplit flags true stack
  else if opcode = OP_RIGHT then opSplit flags false stack
  else .ok stack

/-- An opcode above `OP_16` that is executed, conditionals apart. -/
def executeOpcode (sigversion : SigVersion) (script : CScript) (opcode : UInt8)
    (stack : ScriptStack) : Except ScriptError ScriptStack :=
  if opcode = OP_RESERVED_BATCHSIG then .error .badOpcode
  else if opcode = OP_CHECKPATAGG then checkPatAgg crypto stack
  else if opcode = OP_CHECKFOLDPROOF then checkFoldProof crypto flags script stack
  else if opcode = OP_SOQUOBSCURA_RANGEPROOF then soquobscuraRangeproof flags
  else if opcode = OP_USDSOQ_MINT then usdsoqAuthorityOp flags 1 stack
  else if opcode = OP_USDSOQ_BURN then usdsoqAuthorityOp flags 2 stack
  else if opcode = OP_USDSOQ_FREEZE then usdsoqAuthorityOp flags 3 stack
  else if opcode = OP_USDSOQ_ROTATE then usdsoqAuthorityOp flags 4 stack
  else if opcode = OP_CHECKDILITHIUMSIG then .error .badOpcode
  else if opcode = OP_CAT then opCat stack
  else if opcode = OP_CHECKTEMPLATEVERIFY then checkTemplateVerifyOp checker flags stack
  else if opcode = OP_CHECKSIGFROMSTACKVERIFY then checkSigFromStack crypto flags stack
  else if opcode = OP_CHECKDILITHIUMKEYHASH then
    checkDilithiumKeyHash crypto checker flags sigversion script stack
  else if flags.v6Controlflow && opcode = OP_DROP then opDrop stack
  else if flags.v6Controlflow && opcode = OP_EQUAL then opEqual false stack
  else if flags.v6Controlflow && opcode = OP_EQUALVERIFY then opEqual true stack
  else if flags.v6Controlflow && opcode = OP_SHA256 then opSha256 crypto stack
  else if flags.v6Controlflow && opcode = OP_CHECKLOCKTIMEVERIFY then
    checkLockTimeVerify checker flags stack
  else if flags.v6Controlflow && opcode = OP_CHECKSEQUENCEVERIFY then
    checkSequenceVerify checker flags stack
  else if flags.scriptRestore then restoredOpcode flags opcode stack
  else .ok stack

/-! ## `EvalScript` -/

/-- What the loop of `EvalScript` keeps: the stack, and `vfExec` with the
    innermost conditional first. -/
structure ScriptState where
  stack : ScriptStack
  vfExec : List Bool
deriving DecidableEq

/-- No enclosing branch is one that is not taken. -/
def ScriptState.fExec (s : ScriptState) : Bool := s.vfExec.all id

/-- `OP_IF` and `OP_NOTIF`: in a branch that is not taken they only nest. -/
def opIf (opcode : UInt8) (s : ScriptState) : Except ScriptError ScriptState :=
  if s.fExec then
    match s.stack with
    | vch :: rest => do
        require (!flags.minimalIf || vch = [] || vch = [1]) .minimalif
        .ok ⟨rest, (castToBool vch ^^ (opcode = OP_NOTIF)) :: s.vfExec⟩
    | [] => .error .unbalancedConditional
  else .ok { s with vfExec := false :: s.vfExec }

/-- `OP_ELSE`. -/
def opElse (s : ScriptState) : Except ScriptError ScriptState :=
  match s.vfExec with
  | f :: enclosing => .ok { s with vfExec := (!f) :: enclosing }
  | [] => .error .unbalancedConditional

/-- `OP_ENDIF`. -/
def opEndIf (s : ScriptState) : Except ScriptError ScriptState :=
  match s.vfExec with
  | _ :: enclosing => .ok { s with vfExec := enclosing }
  | [] => .error .unbalancedConditional

/-- What a push opcode pushes: `OP_1NEGATE` and `OP_RESERVED` push nothing of their own. -/
def pushedValue (opcode : UInt8) (vchPushValue : Bytes) : Bytes :=
  if opcode = OP_0 then []
  else if OP_1 ≤ opcode && opcode ≤ OP_16 then
    CScriptNum.serialize ((opcode.toNat : Int) - (OP_1.toNat - 1))
  else vchPushValue

/-- One turn of the loop, the opcode read. -/
def evalOpcode (sigversion : SigVersion) (script : CScript) (opcode : UInt8)
    (vchPushValue : Bytes) (s : ScriptState) : Except ScriptError ScriptState := do
  require (vchPushValue.length ≤ MAX_SCRIPT_ELEMENT_SIZE) .pushSize
  if OP_16 < opcode then
    -- conditionals run in a branch that is not taken as well
    if flags.v6Controlflow && (opcode = OP_IF || opcode = OP_NOTIF) then opIf flags opcode s
    else if flags.v6Controlflow && opcode = OP_ELSE then opElse s
    else if flags.v6Controlflow && opcode = OP_ENDIF then opEndIf s
    else if s.fExec then do
      let stack ← executeOpcode crypto checker flags sigversion script opcode s.stack
      .ok { s with stack := stack }
    else .ok s
  else if s.fExec then .ok { s with stack := pushedValue opcode vchPushValue :: s.stack }
  else .ok s

/-- The loop, as far as `fuel` opcodes reach; every opcode takes a byte. -/
def evalLoop (sigversion : SigVersion) (script : CScript) :
    Nat → Bytes → ScriptState → Except ScriptError ScriptState
  | _, [], s => .ok s
  | 0, _ :: _, _ => .error .badOpcode
  | fuel + 1, b :: bs, s =>
    match getOp (b :: bs) with
    | none => .error .badOpcode
    | some (opcode, vchPushValue, rest) => do
        let s ← evalOpcode crypto checker flags sigversion script opcode vchPushValue s
        evalLoop sigversion script fuel rest s

/-- `EvalScript`, on a stack with its top first. -/
def evalScript (sigversion : SigVersion) (script : CScript) (stack : ScriptStack) :
    Except ScriptError ScriptStack := do
  let s ← evalLoop crypto checker flags sigversion script script.length script ⟨stack, []⟩
  require (!flags.v6Controlflow || s.vfExec.isEmpty) .unbalancedConditional
  require (!s.stack.isEmpty) .evalFalse
  .ok s.stack

/-! ## `VerifyScript` -/

/-- The scan of a witness v6 script before it runs, as far as `fuel` opcodes reach. -/
def scanWitnessScript : Nat → Bytes → Except ScriptError Unit
  | _, [] => .ok ()
  | 0, _ :: _ => .error .badOpcode
  | fuel + 1, b :: bs =>
    match getOp (b :: bs) with
    | none => .error .badOpcode
    | some (op, _, rest) => do
        require (!(op ∈ [OP_USDSOQ_MINT, OP_USDSOQ_BURN, OP_USDSOQ_FREEZE, OP_USDSOQ_ROTATE,
          OP_SOQUOBSCURA_RANGEPROOF, OP_CHECKFOLDPROOF, OP_CHECKPATAGG])) .badOpcode
        require (isWitnessV6ScriptOpcode op) .disallowedOpcode
        scanWitnessScript fuel rest

/-- One opcode run on the whole witness; a missing witness is a mismatch. -/
def runWitness (minItems : Nat) (opcode : UInt8) (witness : Option (List Bytes)) :
    Except ScriptError Unit :=
  match witness with
  | none => .error .witnessProgramMismatch
  | some items => do
      require (minItems ≤ items.length) .witnessProgramMismatch
      let _ ← evalScript crypto checker flags .witnessV0 [opcode] items.reverse
      .ok ()

/-- The opcode of a witness v5 tag item. -/
def usdsoqOpcode (tagItem : Bytes) : Option UInt8 :=
  if tagItem = [1] then some OP_USDSOQ_MINT
  else if tagItem = [2] then some OP_USDSOQ_BURN
  else if tagItem = [3] then some OP_USDSOQ_FREEZE
  else if tagItem = [4] then some OP_USDSOQ_ROTATE
  else none

/-- The witness v5 path. -/
def runUSDSOQWitness (witness : Option (List Bytes)) : Except ScriptError Unit :=
  match witness with
  | none => .error .witnessProgramMismatch
  | some items => do
      require (4 ≤ items.length) .witnessProgramMismatch
      match usdsoqOpcode (items.headD []) with
      | none => .error .usdsoqInvalidOpcode
      | some opcode => runWitness crypto checker flags 4 opcode witness

/-- The witness v6 path: the second item from the end is the script, the last
    one is not read, and the script leaves one true item. -/
def runP2WSHDilithium (scriptPubKey : CScript) (witness : Option (List Bytes)) :
    Except ScriptError Unit :=
  match (witness.getD []).reverse with
  | _ :: witnessScript :: stack => do
      require ((crypto.sha256 witnessScript).bytes = scriptPubKey.drop 2) .witnessProgramMismatch
      require (witnessScript.length ≤ MAX_SCRIPT_SIZE) .scriptSize
      scanWitnessScript witnessScript.length witnessScript
      let stack ← evalScript crypto checker flags .witnessV0 witnessScript stack
      require (match stack with | [item] => castToBool item | _ => false) .evalFalse
  | _ => .error .witnessProgramMismatch

/-- The single-key path. -/
def runDilithium (scriptPubKey : CScript) (witness : Option (List Bytes)) :
    Except ScriptError Unit :=
  match witness with
  | some [sig, pubkey] => do
      require ((crypto.sha256 (stripKeyPrefix pubkey)).bytes = scriptPubKey.drop 2)
        .witnessProgramMismatch
      require (!isAPOSigHashType sig) .sigHashtype
      require (checker.checkSig sig pubkey scriptPubKey .witnessV0) .sigNullfail
  | _ => .error .witnessProgramMismatch

end Handlers

/-- `VerifyScript`; `scriptSig` is not read. -/
def SignatureChecker.verifyScript (checker : SignatureChecker) (crypto : ScriptCrypto)
    (flags : VerifyFlags) (_scriptSig scriptPubKey : CScript) (witness : Option (List Bytes)) :
    Except ScriptError Unit :=
  if isWitnessProgram OP_2 scriptPubKey then
    skipIf (!flags.pat) (runWitness crypto checker flags 4 OP_CHECKPATAGG witness)
  else if isWitnessProgram OP_3 scriptPubKey then
    skipIf (!flags.latticefold) (runWitness crypto checker flags 4 OP_CHECKFOLDPROOF witness)
  else if isWitnessProgram OP_4 scriptPubKey then
    skipIf (!flags.soquobscura)
      (runWitness crypto checker flags 3 OP_SOQUOBSCURA_RANGEPROOF witness)
  else if isWitnessProgram OP_5 scriptPubKey then
    skipIf (!flags.usdsoq) (runUSDSOQWitness crypto checker flags witness)
  else if isWitnessProgram OP_6 scriptPubKey then
    skipIf (!flags.p2wshDilithium) (runP2WSHDilithium crypto checker flags scriptPubKey witness)
  else if isWitnessProgram OP_7 scriptPubKey then
    skipIf (!flags.usdsoq) (runDilithium crypto checker scriptPubKey witness)
  else if isWitnessProgram OP_8 scriptPubKey then
    skipIf (!flags.btcsoq) (runDilithium crypto checker scriptPubKey witness)
  else if isWitnessProgram OP_9 scriptPubKey then
    skipIf (!flags.btcsoq) (.error .btcsoqMarkerSpend)
  else if isWitnessProgram OP_10 scriptPubKey then
    skipIf (!flags.usdsoq || !flags.soquobscura) (.error .confidentialUsdsoqUnverified)
  else if scriptPubKey.length = 34 && OP_11 ≤ scriptPubKey.getD 0 0 &&
      scriptPubKey.getD 0 0 ≤ OP_16 && scriptPubKey.getD 1 0 = 32 then .ok ()
  else if scriptPubKey.head? = some OP_RETURN then .ok ()
  else if isWitnessProgram OP_0 scriptPubKey || isWitnessProgram OP_1 scriptPubKey then
    runDilithium crypto checker scriptPubKey witness
  else .error .disallowedClassicalCrypto

/-! ## The checker of a transaction input -/

/-- The bits of a sequence number that state a relative lock. -/
def sequenceLockBits (nSequence : Nat) : Nat :=
  nSequence &&& (2 ^ SEQUENCE_LOCKTIME_TYPE_FLAG ||| 0xffff)

/-- A byte string after its length, in four bytes. -/
def writeSized (bs : Bytes) : Bytes := writeLE 4 bs.length ++ bs

/-- The template of a spending transaction, hashed; the hash of the script
    signatures is there only if one of them is not empty. -/
def templateHash (sha256 : Bytes → Uint256) (tx : CTransaction) (nIn : Nat) : Uint256 :=
  let scriptSigs :=
    if tx.vin.all fun txin => txin.scriptSig.isEmpty then []
    else (sha256 (tx.vin.flatMap fun txin => writeSized txin.scriptSig)).bytes
  let sequences := (sha256 (tx.vin.flatMap fun txin => writeLE 4 txin.nSequence)).bytes
  let outputs := (sha256 (tx.vout.flatMap fun txout =>
    writeLE 8 (txout.nValue % 2 ^ 64).toNat ++ writeSized txout.scriptPubKey)).bytes
  sha256 (writeLE 4 (tx.nVersion % 2 ^ 32).toNat ++ writeLE 4 tx.nLockTime ++ scriptSigs ++
    writeLE 4 tx.vin.length ++ sequences ++ writeLE 4 tx.vout.length ++ outputs ++
    writeLE 4 nIn)

/-- `TransactionSignatureChecker`, for one input of a transaction. -/
def transactionSignatureChecker (env : Env) (tx : CTransaction) (nIn : Nat) (amount : Int) :
    SignatureChecker where
  checkSig sig pubkey scriptCode sigversion :=
    match sig.getLast? with
    | none => false
    | some nHashType =>
      isValidPubKey (stripKeyPrefix pubkey) && sig.dropLast.length = 2420 &&
        env.verify (stripKeyPrefix pubkey)
          (env.signatureHash scriptCode tx nIn nHashType amount sigversion).bytes sig.dropLast
  checkLockTime nLockTime :=
    ((tx.nLockTime < LOCKTIME_THRESHOLD && nLockTime < LOCKTIME_THRESHOLD) ||
      (LOCKTIME_THRESHOLD ≤ tx.nLockTime && LOCKTIME_THRESHOLD ≤ nLockTime)) &&
      nLockTime ≤ tx.nLockTime && (tx.vin.getD nIn default).nSequence ≠ SEQUENCE_FINAL
  checkSequence nSequence :=
    let txToSequence := (tx.vin.getD nIn default).nSequence
    let nSequenceMasked := sequenceLockBits txToSequence
    let nSequenceIn := sequenceLockBits nSequence.toNat
    let typeFlag := 2 ^ SEQUENCE_LOCKTIME_TYPE_FLAG
    0 ≤ nSequence && 2 ≤ tx.nVersion % 2 ^ 32 &&
      !txToSequence.testBit SEQUENCE_LOCKTIME_DISABLE_FLAG &&
      ((nSequenceMasked < typeFlag && nSequenceIn < typeFlag) ||
        (typeFlag ≤ nSequenceMasked && typeFlag ≤ nSequenceIn)) &&
      nSequenceIn ≤ nSequenceMasked
  checkTemplateVerify hash := hash.length = 32 && (templateHash env.sha256 tx nIn).bytes = hash

/-- The hash and the verifiers, as the interpreter calls them. -/
def Env.crypto (env : Env) (proofs : ProofVerifiers) : ScriptCrypto where
  toProofVerifiers := proofs
  sha256 := env.sha256
  verify := env.verify

/-- A node whose script interpreter is the one above. -/
def Env.withInterpreter (env : Env) (proofs : ProofVerifiers) : Env :=
  { env with
    evalScript := fun stack script flags tx nIn amount =>
      ((Soqucoin.evalScript (env.crypto proofs) (transactionSignatureChecker env tx nIn amount)
        flags.consensus .witnessV0 script stack.reverse).map List.reverse).toOption }

end Soqucoin
