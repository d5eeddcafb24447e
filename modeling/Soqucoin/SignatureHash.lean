import Soqucoin.Interpreter

/-! # SignatureHash — the digest an input signs

`SignatureHash` and `PrecomputedTransactionData` of `script/interpreter.cpp`, with the
serialization they hash.  The hash is `CHashWriter`'s, SHA-256 twice.  The hash type is an `int`,
of which a signature gives the last byte. -/

namespace Soqucoin

/-! ## Serialization -/

/-- `WriteCompactSize`. -/
def writeCompactSize (n : Nat) : Bytes :=
  if n < 253 then writeLE 1 n
  else if n ≤ 0xffff then 253 :: writeLE 2 n
  else if n ≤ 0xffffffff then 254 :: writeLE 4 n
  else 255 :: writeLE 8 n

/-- A byte string with its length. -/
def serializeBytes (bs : Bytes) : Bytes := writeCompactSize bs.length ++ bs

/-- The serialization of an outpoint. -/
def serializeOutPoint (o : COutPoint) : Bytes := o.hash.bytes ++ writeLE 4 o.n

/-- An amount, as eight bytes. -/
def serializeAmount (amount : Int) : Bytes := writeLE 8 (amount % 2 ^ 64).toNat

/-- The serialization of an input. -/
def serializeTxIn (txin : CTxIn) : Bytes :=
  serializeOutPoint txin.prevout ++ serializeBytes txin.scriptSig ++ writeLE 4 txin.nSequence

/-- The serialization of an output. -/
def serializeTxOut (txout : CTxOut) : Bytes :=
  serializeAmount txout.nValue ++ serializeBytes txout.scriptPubKey

/-- A vector with its length. -/
def serializeVector {α : Type} (f : α → Bytes) (l : List α) : Bytes :=
  writeCompactSize l.length ++ l.flatMap f

/-- A version, as four bytes. -/
def serializeVersion (nVersion : Int) : Bytes := writeLE 4 (nVersion % 2 ^ 32).toNat

/-- The extended format only when some input has a witness. -/
def serializeTransaction (tx : CTransaction) : Bytes :=
  serializeVersion tx.nVersion ++ (if tx.hasWitness then [0, 1] else []) ++
    serializeVector serializeTxIn tx.vin ++ serializeVector serializeTxOut tx.vout ++
    (if tx.hasWitness then
      tx.vin.flatMap fun txin => serializeVector serializeBytes txin.scriptWitness
    else []) ++
    writeLE 4 tx.nLockTime

/-! ## The digest -/

def SIGHASH_NONE : UInt8 := 2
def SIGHASH_SINGLE : UInt8 := 3
def SIGHASH_ANYONECANPAY : UInt8 := 0x80

/-- The number one, which stands for a digest that cannot be made. -/
def Uint256.one : Uint256 := ⟨1 :: List.replicate 31 0, rfl⟩

/-- The three hashes that the inputs of a transaction share. -/
structure PrecomputedTransactionData where
  hashPrevouts : Uint256
  hashSequence : Uint256
  hashOutputs : Uint256
deriving DecidableEq

section Digest

variable (hash : Bytes → Uint256)

/-- `hashPrevouts` of all inputs. -/
def hashAllPrevouts (tx : CTransaction) : Uint256 :=
  hash (tx.vin.flatMap fun txin => serializeOutPoint txin.prevout)

/-- `hashSequence` of all inputs. -/
def hashAllSequences (tx : CTransaction) : Uint256 :=
  hash (tx.vin.flatMap fun txin => writeLE 4 txin.nSequence)

/-- `hashOutputs` of all outputs. -/
def hashAllOutputs (tx : CTransaction) : Uint256 := hash (tx.vout.flatMap serializeTxOut)

/-- The constructor. -/
def precomputedTransactionData (tx : CTransaction) : PrecomputedTransactionData :=
  ⟨hashAllPrevouts hash tx, hashAllSequences hash tx, hashAllOutputs hash tx⟩

/-- The ANYPREVOUT digest: neither the outpoint nor the sequences are committed to. -/
def anyPrevoutHash (cache : Option PrecomputedTransactionData) (scriptCode : CScript)
    (tx : CTransaction) (nHashType : UInt32) (amount : Int) : Uint256 :=
  let hashOutputs :=
    match cache with
    | some cache => cache.hashOutputs
    | none => hashAllOutputs hash tx
  hash (serializeVersion tx.nVersion ++ Uint256.null.bytes ++ Uint256.null.bytes ++
    serializeOutPoint COutPoint.null ++
    (if nHashType &&& 0x7f = SIGHASH_ANYPREVOUT.toUInt32 then serializeBytes scriptCode
      else serializeBytes []) ++
    serializeAmount amount ++ writeLE 4 0 ++ hashOutputs.bytes ++ writeLE 4 tx.nLockTime ++
    writeLE 4 nHashType.toNat)

/-- The standard digest of a witness input. -/
def witnessHash (cache : Option PrecomputedTransactionData) (scriptCode : CScript)
    (tx : CTransaction) (nIn : Nat) (nHashType : UInt32) (amount : Int) : Uint256 :=
  let anyoneCanPay := nHashType &&& SIGHASH_ANYONECANPAY.toUInt32 ≠ 0
  let single := nHashType &&& 0x1f = SIGHASH_SINGLE.toUInt32
  let noOutputs := nHashType &&& 0x1f = SIGHASH_NONE.toUInt32
  let hashPrevouts :=
    if anyoneCanPay then Uint256.null
    else
      match cache with
      | some cache => cache.hashPrevouts
      | none => hashAllPrevouts hash tx
  let hashSequence :=
    if anyoneCanPay ∨ single ∨ noOutputs then Uint256.null
    else
      match cache with
      | some cache => cache.hashSequence
      | none => hashAllSequences hash tx
  let hashOutputs :=
    if ¬single ∧ ¬noOutputs then
      match cache with
      | some cache => cache.hashOutputs
      | none => hashAllOutputs hash tx
    else if single ∧ nIn < tx.vout.length then hash (serializeTxOut (tx.vout.getD nIn default))
    else Uint256.null
  let txin := tx.vin.getD nIn default
  hash (serializeVersion tx.nVersion ++ hashPrevouts.bytes ++ hashSequence.bytes ++
    serializeOutPoint txin.prevout ++ serializeBytes scriptCode ++ serializeAmount amount ++
    writeLE 4 txin.nSequence ++ hashOutputs.bytes ++ writeLE 4 tx.nLockTime ++
    writeLE 4 nHashType.toNat)

/-- The inputs of the legacy digest: blank scripts but for the signed input, and no
    sequences of the others unless all outputs are signed. -/
def legacyInputs (scriptCode : CScript) (tx : CTransaction) (nIn : Nat) (nHashType : UInt32) :
    List CTxIn :=
  if nHashType &&& SIGHASH_ANYONECANPAY.toUInt32 ≠ 0 then
    [{ tx.vin.getD nIn default with scriptSig := scriptCode }]
  else
    tx.vin.mapIdx fun i txin =>
      if i = nIn then { txin with scriptSig := scriptCode }
      else if nHashType &&& 0x1f = SIGHASH_NONE.toUInt32 ∨
          nHashType &&& 0x1f = SIGHASH_SINGLE.toUInt32 then
        { txin with scriptSig := [], nSequence := 0 }
      else { txin with scriptSig := [] }

/-- The digest before witnesses. -/
def legacyHash (scriptCode : CScript) (tx : CTransaction) (nIn : Nat) (nHashType : UInt32) :
    Uint256 :=
  let single := nHashType &&& 0x1f = SIGHASH_SINGLE.toUInt32
  if single ∧ tx.vout.length ≤ nIn then Uint256.one
  else
    let vout :=
      if nHashType &&& 0x1f = SIGHASH_NONE.toUInt32 then []
      else if single then List.replicate nIn CTxOut.null ++ [tx.vout.getD nIn default]
      else tx.vout
    let txTmp := { tx with vin := legacyInputs scriptCode tx nIn nHashType, vout := vout }
    hash (serializeTransaction txTmp ++ writeLE 4 nHashType.toNat)

/-- `SignatureHash`, for both signature versions. -/
def signatureHash (cache : Option PrecomputedTransactionData) (scriptCode : CScript)
    (tx : CTransaction) (nIn : Nat) (nHashType : UInt32) (amount : Int) (sigversion : SigVersion) :
    Uint256 :=
  if tx.vin.length ≤ nIn then Uint256.one
  else
    match sigversion with
    | .witnessV0 =>
      if nHashType &&& 0x7f = SIGHASH_ANYPREVOUT.toUInt32 ∨
          nHashType &&& 0x7f = SIGHASH_ANYPREVOUTANYSCRIPT.toUInt32 then
        if nHashType &&& SIGHASH_ANYONECANPAY.toUInt32 ≠ 0 then Uint256.one
        else anyPrevoutHash hash cache scriptCode tx nHashType amount
      else witnessHash hash cache scriptCode tx nIn nHashType amount
    | .base => legacyHash hash scriptCode tx nIn nHashType

end Digest

/-- A node whose digests are these, with the cached hashes it passes for a transaction. -/
def Env.withSignatureHash (env : Env) (hash : Bytes → Uint256)
    (cache : CTransaction → Option PrecomputedTransactionData) : Env :=
  { env with
    signatureHash := fun scriptCode tx nIn nHashType amount sigversion =>
      Soqucoin.signatureHash hash (cache tx) scriptCode tx nIn nHashType.toUInt32
        amount sigversion }

end Soqucoin
