import Soqucoin.Params
import Soqucoin.ToggleProofs

/-! # Authority — M-of-N key sets, witnesses and signed operations

The issuer of an asset is a set of ML-DSA-44 keys with a threshold (`CUSDSOQAuthority`,
`CBTCSOQAuthority`: one class written twice).  An authority transaction carries its signatures in
a witness of the layout `[_, _, tag, _, sig…, _]` and its operation in an `OP_RETURN` output. -/

namespace Soqucoin

def DILITHIUM_PUBKEY_SIZE : Nat := 1312
def DILITHIUM_SIG_SIZE : Nat := 2420
def USDSOQ_MAX_AUTHORITY_KEYS : Nat := 15
def USDSOQ_MIN_THRESHOLD : Nat := 2

/-! ## Key sets -/

/-- The conditions `Initialize` tests on a key set and a threshold. -/
def authorityKeysOk (keys : List Bytes) (m : Nat) : Bool :=
  !keys.isEmpty && keys.length ≤ USDSOQ_MAX_AUTHORITY_KEYS && USDSOQ_MIN_THRESHOLD ≤ m &&
    m ≤ keys.length && keys.all (fun key => key.length = DILITHIUM_PUBKEY_SIZE) &&
    decide keys.Nodup

/-- An authority is uninitialised (no keys, threshold zero) or a key set that
    passed `Initialize`. -/
structure Authority where
  keys : List Bytes
  threshold : Nat
  wf : (keys = [] ∧ threshold = 0) ∨ authorityKeysOk keys threshold = true

/-- The key set of USDSOQ. -/
abbrev CUSDSOQAuthority := Authority
/-- The key set of BTCSOQ, with the same rules. -/
abbrev CBTCSOQAuthority := Authority

namespace Authority

/-- No keys and no threshold. -/
def uninitialized : Authority := ⟨[], 0, Or.inl ⟨rfl, rfl⟩⟩

instance : Inhabited Authority := ⟨uninitialized⟩

/-- `IsInitialized`: there are keys and a threshold. -/
def isInitialized (a : Authority) : Bool := !a.keys.isEmpty && 0 < a.threshold

/-- `Initialize`: the new key set, or the failure that leaves the old one. -/
def initializeKeys (keys : List Bytes) (m : Nat) : Option Authority :=
  if h : authorityKeysOk keys m = true then some ⟨keys, m, Or.inr h⟩ else none

theorem keys_nodup (a : Authority) : a.keys.Nodup := by
  rcases a.wf with ⟨hk, _⟩ | h
  · rw [hk]
    exact List.nodup_nil
  · simp only [authorityKeysOk, Bool.and_eq_true, decide_eq_true_eq] at h
    exact h.2

/-- The inner loop over the keys: mark the first unused key under which the signature verifies. -/
def useKey (verifies : Bytes → Bool) : List Bytes → List Bool → Option (List Bool)
  | key :: keys, used :: rest =>
    if !used && verifies key then some (true :: rest)
    else (useKey verifies keys rest).map (used :: ·)
  | _, _ => none

/-- One signature: mark a key and count, or go on to the next signature. -/
def matchSig (env : Env) (msg : Bytes) (keys : List Bytes) (s : List Bool × Nat)
    (sig : Bytes) : List Bool × Nat :=
  match useKey (fun key => env.verify key msg sig) keys s.1 with
  | some used => (used, s.2 + 1)
  | none => s

/-- `VerifyAuthoritySignatures`: enough keys of the set have signed, each counted once. -/
def verifyAuthoritySignatures (env : Env) (a : Authority) (msg : Bytes)
    (sigs : List Bytes) : Bool :=
  a.isInitialized && !sigs.isEmpty && sigs.length ≤ a.keys.length &&
    sigs.all (fun sig => sig.length = DILITHIUM_SIG_SIZE) &&
    a.threshold ≤ (sigs.foldl (matchSig env msg a.keys)
      (List.replicate a.keys.length false, 0)).2

end Authority

/-- `ComputeAuthorityKeyHash`: the program of the set's marker script. -/
def computeAuthorityKeyHash (env : Env) (keys : List Bytes) : Uint256 :=
  env.sha256 keys.flatten

/-! ## Authority witnesses -/

/-- The stack items at indices `4 .. size - 2`. -/
def witnessSigItems (stack : List Bytes) : List Bytes := (stack.drop 4).dropLast

/-- `ExtractWitnessSignatures`: the items of signature size, from the fifth to the last but one. -/
def extractWitnessSignatures (stack : List Bytes) : List Bytes :=
  if stack.length < 6 then []
  else (witnessSigItems stack).filter fun item => item.length = DILITHIUM_SIG_SIZE

/-- `GetBTCSOQWitnessTag`: the one-byte item at index 2, or zero. -/
def getBTCSOQWitnessTag (stack : List Bytes) : UInt8 :=
  match stack[2]? with
  | some [tag] => tag
  | _ => 0

/-- The layout that marks an authority witness: six items, a one-byte tag of the
    asset at index 2, and a signature-sized item. -/
def isAuthorityWitness (isTag : UInt8 → Bool) (stack : List Bytes) : Bool :=
  6 ≤ stack.length &&
    (match stack[2]? with
      | some [tag] => isTag tag
      | _ => false) &&
    (witnessSigItems stack).any fun item => item.length = DILITHIUM_SIG_SIZE

/-- The tag byte of a USDSOQ authority witness. -/
def isUSDSOQTag (tag : UInt8) : Bool := tag = 0x55

def BTCSOQ_OP_MINT : UInt8 := 0x60
def BTCSOQ_OP_BURN : UInt8 := 0x61
def BTCSOQ_OP_FREEZE : UInt8 := 0x63

/-- The tag bytes of a BTCSOQ authority witness. -/
def isBTCSOQTag (tag : UInt8) : Bool := BTCSOQ_OP_MINT ≤ tag && tag ≤ BTCSOQ_OP_FREEZE

/-- The position of the first marker. -/
def authorityOutputIndex (isMarker : CScript → Bool) (tx : CTransaction) : Option Nat :=
  tx.vout.findIdx? fun txout => isMarker txout.scriptPubKey

/-- Some output is a marker. -/
def hasMarker (isMarker : CScript → Bool) (tx : CTransaction) : Bool :=
  tx.vout.any fun txout => isMarker txout.scriptPubKey

/-! ## Signed operations -/

def FREEZE_OP_FREEZE : UInt8 := 0
def FREEZE_OP_UNFREEZE : UInt8 := 1
def FREEZE_OP_PAYLOAD_LEN : Nat := 37

/-- An operation on a freeze registry: `adds` for FREEZE. -/
abbrev FreezeOp := Toggle.Op COutPoint

/-- `op ‖ txid ‖ vout`, with one of the two known operation bytes. -/
def parseFreezePayload (payload : Bytes) : Option FreezeOp :=
  let target : COutPoint := ⟨Uint256.ofSlice payload 1, readLEAt payload 33 4⟩
  if payload.getD 0 0 = FREEZE_OP_FREEZE then some ⟨true, target⟩
  else if payload.getD 0 0 = FREEZE_OP_UNFREEZE then some ⟨false, target⟩
  else none

/-- The characters of FREEZE. -/
def FREEZE_TAG : Bytes := [0x46, 0x52, 0x45, 0x45, 0x5a, 0x45]

/-- The payload of an output that is a tagged freeze operation of the right length. -/
def freezePush (script : CScript) : Option Bytes :=
  match script with
  | op :: pc =>
    if op ≠ OP_RETURN || pc.isEmpty then none
    else
      match getOp pc with
      | none => none
      | some (_, push0, pc) =>
        if push0 ≠ FREEZE_TAG then none
        else
          match getOp pc with
          | none => none
          | some (_, push1, _) =>
            if push1.length ≠ FREEZE_OP_PAYLOAD_LEN then none else some push1
  | [] => none

/-- The loop of `ParseUSDSOQFreezeOp`.  A second payload ends it without a
    result, before its operation byte is looked at. -/
def parseUSDSOQFreezeOpFrom : List CTxOut → Option FreezeOp → Option FreezeOp
  | [], found => found
  | txout :: rest, found =>
    match freezePush txout.scriptPubKey with
    | none => parseUSDSOQFreezeOpFrom rest found
    | some push1 =>
      if found.isSome then none
      else
        match parseFreezePayload push1 with
        | none => parseUSDSOQFreezeOpFrom rest found
        | some op => parseUSDSOQFreezeOpFrom rest (some op)

/-- `ParseUSDSOQFreezeOp`: the operation of a transaction that carries exactly one. -/
def parseUSDSOQFreezeOp (tx : CTransaction) : Option FreezeOp :=
  parseUSDSOQFreezeOpFrom tx.vout none

def BTCSOQ_MINT_PAYLOAD_LEN : Nat := 76
def BTCSOQ_BURN_PAYLOAD_LEN : Nat := 40
/-- All bitcoin there will be, in satoshi. -/
def BTCSOQ_MAX_SATS : Nat := 2100000000000000

/-- `BTCSOQOpPayloadLen`: zero for a tag without wired meaning. -/
def btcsoqOpPayloadLen (tag : UInt8) : Nat :=
  if tag = BTCSOQ_OP_MINT then BTCSOQ_MINT_PAYLOAD_LEN
  else if tag = BTCSOQ_OP_BURN then BTCSOQ_BURN_PAYLOAD_LEN
  else if tag = BTCSOQ_OP_FREEZE then FREEZE_OP_PAYLOAD_LEN
  else 0

/-- `OP_RETURN <tag ‖ payload>` and nothing else, of the tag's length. -/
def btcsoqOpPush (script : CScript) : Option (UInt8 × Bytes) :=
  match script with
  | op :: pc =>
    if op ≠ OP_RETURN || pc.isEmpty then none
    else
      match getOp pc with
      | some (_, tag :: payload, []) =>
        if btcsoqOpPayloadLen tag = 0 || payload.length ≠ btcsoqOpPayloadLen tag then none
        else some (tag, payload)
      | _ => none
  | [] => none

/-- The loop of `ParseBTCSOQAuthorityOp`: a second operation ends it without a result. -/
def parseBTCSOQAuthorityOpFrom :
    List CTxOut → Option (UInt8 × Bytes) → Option (UInt8 × Bytes)
  | [], found => found
  | txout :: rest, found =>
    match btcsoqOpPush txout.scriptPubKey with
    | none => parseBTCSOQAuthorityOpFrom rest found
    | some op => if found.isSome then none else parseBTCSOQAuthorityOpFrom rest (some op)

/-- `ParseBTCSOQAuthorityOp`: tag and payload of the one operation envelope. -/
def parseBTCSOQAuthorityOp (tx : CTransaction) : Option (UInt8 × Bytes) :=
  parseBTCSOQAuthorityOpFrom tx.vout none

/-- What a MINT operation binds. -/
structure MintPayload where
  deposit : COutPoint
  sats : Int
  recipient : Uint256
deriving DecidableEq

/-- `ParseBTCSOQMintPayload`: the deposit, the recipient and the amount. -/
def parseBTCSOQMintPayload (payload : Bytes) : Option MintPayload :=
  if payload.length ≠ BTCSOQ_MINT_PAYLOAD_LEN then none
  else
    let s := readLEAt payload 36 8
    if BTCSOQ_MAX_SATS < s || s = 0 then none
    else some ⟨⟨Uint256.ofSlice payload 0, readLEAt payload 32 4⟩, s, Uint256.ofSlice payload 44⟩

/-- `ParseBTCSOQBurnPayload`: the release script's hash and the amount. -/
def parseBTCSOQBurnPayload (payload : Bytes) : Option (Uint256 × Int) :=
  if payload.length ≠ BTCSOQ_BURN_PAYLOAD_LEN then none
  else
    let s := readLEAt payload 32 8
    if BTCSOQ_MAX_SATS < s || s = 0 then none
    else some (Uint256.ofSlice payload 0, s)

/-- `MakeOpEnvelope`: `OP_RETURN` and one push of the tag and the payload. -/
def makeOpEnvelope (tag : UInt8) (payload : Bytes) : CScript :=
  OP_RETURN :: pushData (tag :: payload)

/-- `BuildBTCSOQMintPayload`: deposit, amount and recipient commitment. -/
def buildBTCSOQMintPayload (m : MintPayload) : Bytes :=
  m.deposit.hash.bytes ++ writeLE 4 m.deposit.n ++ writeLE 8 (m.sats % 2 ^ 64).toNat ++
    m.recipient.bytes

/-- `BuildBTCSOQBurnPayload`: release script's hash and amount. -/
def buildBTCSOQBurnPayload (releaseScriptHash : Uint256) (sats : Int) : Bytes :=
  releaseScriptHash.bytes ++ writeLE 8 (sats % 2 ^ 64).toNat

/-- The hash by which a mint names the script it pays. -/
def computeBTCSOQRecipientCommitment (env : Env) (script : CScript) : Uint256 :=
  env.sha256 script

end Soqucoin
