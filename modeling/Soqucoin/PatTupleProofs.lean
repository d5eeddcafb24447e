import Soqucoin.ScriptCoverageProofs
import Soqucoin.SignatureHash

/-! # PatTupleProofs — the attested tuples are the verified signatures

`AppendTuples` derives the digest and the key of an input again, apart from the script check.
`signatureHash_cached`: the cached hashes of a transaction give the digest that is computed
without them.  `appendTuples_verified`: an input that passed the single-key check adds one tuple,
of its digest and its key. -/

namespace Soqucoin

/-! ## Cached hashes -/

section

variable (hash : Bytes → Uint256) (scriptCode : CScript) (tx : CTransaction)
include hash scriptCode tx

theorem anyPrevoutHash_cached (nHashType : UInt32) (amount : Int) :
    anyPrevoutHash hash (some (precomputedTransactionData hash tx)) scriptCode tx nHashType amount =
      anyPrevoutHash hash none scriptCode tx nHashType amount := rfl

theorem witnessHash_cached (nIn : Nat) (nHashType : UInt32) (amount : Int) :
    witnessHash hash (some (precomputedTransactionData hash tx)) scriptCode tx nIn nHashType
      amount =
      witnessHash hash none scriptCode tx nIn nHashType amount := rfl

/-- The precomputed data changes no digest. -/
theorem signatureHash_cached (nIn : Nat) (nHashType : UInt32) (amount : Int)
    (sigversion : SigVersion) :
    signatureHash hash (some (precomputedTransactionData hash tx)) scriptCode tx nIn nHashType
        amount sigversion =
      signatureHash hash none scriptCode tx nIn nHashType amount sigversion := by
  cases sigversion with
  | base => rfl
  | witnessV0 =>
    rw [signatureHash, signatureHash, anyPrevoutHash_cached, witnessHash_cached]

end

/-- A node passes no cached hashes, or those of the transaction. -/
def CachesOwnHashes (hash : Bytes → Uint256)
    (cache : CTransaction → Option PrecomputedTransactionData) : Prop :=
  ∀ tx, cache tx = none ∨ cache tx = some (precomputedTransactionData hash tx)

variable {env : Env} {tx : CTransaction} {o : CTxOut} {nIn : Nat}

/-- A cache of the transaction's own hashes changes no digest. -/
theorem withSignatureHash_eq {hash : Bytes → Uint256}
    {cache cache' : CTransaction → Option PrecomputedTransactionData}
    (h : CachesOwnHashes hash cache) (h' : CachesOwnHashes hash cache') :
    env.withSignatureHash hash cache = env.withSignatureHash hash cache' := by
  have hnone : ∀ {c : CTransaction → Option PrecomputedTransactionData}, CachesOwnHashes hash c →
      env.withSignatureHash hash c = env.withSignatureHash hash fun _ => none := by
    intro c hc
    rw [Env.withSignatureHash, Env.withSignatureHash]
    congr
    funext scriptCode tx nIn nHashType amount sigversion
    rcases hc tx with hno | hown
    · rw [hno]
    · rw [hown, signatureHash_cached]
  rw [hnone h, hnone h']

/-! ## One input -/

/-- What one turn of the loop of `AppendTuples` adds. -/
def inputTuples (env : Env) (v : CoinsView) (tx : CTransaction) (nIn : Nat) :
    List (Bytes × Bytes × Bytes) :=
  match v.output (tx.vin.getD nIn default).prevout, (tx.vin.getD nIn default).scriptWitness with
  | some prevout, [sig, pubkey] =>
    if isAttestedVersion prevout.scriptPubKey then
      [((env.sha3 sig).bytes, (env.sha3 (stripKeyPrefix pubkey)).bytes,
        (env.signatureHash prevout.scriptPubKey tx nIn (sig.getLast?.getD 0) prevout.nValue
          .witnessV0).bytes)]
    else []
  | _, _ => []

theorem zipIdx_eq_map_range (vin : List CTxIn) :
    vin.zipIdx = (List.range vin.length).map fun nIn => (vin.getD nIn default, nIn) := by
  apply List.ext_getElem
  · simp
  · intro i hi hi'
    have hlt : i < vin.length := by simpa using hi
    simp [List.getD_eq_getElem?_getD, hlt]

/-- The tuples of a transaction, input by input. -/
theorem appendTuples_eq (env : Env) (v : CoinsView) (hcb : tx.isCoinBase = false) :
    appendTuples env v tx = (List.range tx.vin.length).flatMap (inputTuples env v tx) := by
  rw [appendTuples, appendTuplesWith, hcb, if_neg Bool.false_ne_true, zipIdx_eq_map_range,
    List.filterMap_map, List.filterMap_eq_flatMap_toList]
  congr 1
  funext nIn
  rw [Function.comp_apply, inputTuples]
  dsimp only
  cases v.output (tx.vin.getD nIn default).prevout with
  | none => rfl
  | some prevout =>
    rcases (tx.vin.getD nIn default).scriptWitness with _ | ⟨sig, _ | ⟨pubkey, _ | ⟨item, rest⟩⟩⟩
    · rfl
    · rfl
    · by_cases hattested : isAttestedVersion prevout.scriptPubKey = true
      · simp [hattested]
      · simp [hattested]
    · rfl

/-- Outputs that are spent with a single key under the flags of a block, witness
    version 0 included. -/
def isSingleKey (flags : ScriptFlags) (o : CTxOut) : Bool :=
  isWitnessProgram OP_0 o.scriptPubKey || isKeyHolding flags o

theorem isAttestedVersion_of_isSingleKey {flags : ScriptFlags} (h : isSingleKey flags o) :
    isAttestedVersion o.scriptPubKey := by
  simp only [isSingleKey, isKeyHolding, CTxOut.isUSDSOQ, CTxOut.isBTCSOQ, Bool.or_eq_true,
    Bool.and_eq_true] at h
  simp only [isAttestedVersion, Bool.or_eq_true]
  rcases h with h₀ | (h₁ | ⟨-, h₇⟩) | ⟨-, h₈⟩
  · exact .inl (.inl (.inl h₀))
  · exact .inl (.inl (.inr h₁))
  · exact .inl (.inr h₇)
  · exact .inr h₈

/-- An output held by a single key is verified by its signature. -/
theorem verifyScript_of_isSingleKey {flags : ScriptFlags} {witness : List Bytes}
    (hkey : isSingleKey flags o) :
    verifyScript env flags tx nIn o.nValue o.scriptPubKey witness =
      verifyDilithium env tx nIn o.nValue o.scriptPubKey witness := by
  rw [isSingleKey, Bool.or_eq_true] at hkey
  rcases hkey with h₀ | hholding
  · have hhead := head?_of_isWitnessProgram h₀
    rw [List.head?_eq_getElem?] at hhead
    simp +decide [verifyScript, isWitnessProgram_eq h₀, hhead, List.head?_eq_getElem?]
  · exact verifyScript_of_isKeyHolding hholding

/-- The tuple of a signed spend: digests of signature and key, and the message. -/
theorem inputTuples_of_signedSpend {v : CoinsView} {sig pubkey : Bytes} {nHashType : UInt8}
    (hout : v.output (tx.vin.getD nIn default).prevout = some o)
    (hattested : isAttestedVersion o.scriptPubKey)
    (hwit : (tx.vin.getD nIn default).scriptWitness = [sig, pubkey])
    (hlast : sig.getLast? = some nHashType) :
    inputTuples env v tx nIn =
      [((env.sha3 sig).bytes, (env.sha3 (stripKeyPrefix pubkey)).bytes,
        (env.signatureHash o.scriptPubKey tx nIn nHashType o.nValue .witnessV0).bytes)] := by
  rw [inputTuples, hout, hwit]
  dsimp only
  rw [if_pos hattested, hlast, Option.getD_some]

/-- An input of another version, or without two items, gives none. -/
theorem inputTuples_eq_nil {v : CoinsView}
    (h : (∀ o, v.output (tx.vin.getD nIn default).prevout = some o →
      isAttestedVersion o.scriptPubKey = false) ∨
      (tx.vin.getD nIn default).scriptWitness.length ≠ 2) :
    inputTuples env v tx nIn = [] := by
  rw [inputTuples]
  split
  · next prevout sig pubkey hout hwit =>
      rcases h with hversion | hitems
      · rw [if_neg (Bool.eq_false_iff.mp (hversion prevout hout))]
      · rw [hwit] at hitems
        exact absurd rfl hitems
  · rfl

/-- **The attested tuples are those that were verified.** A transaction's tuples are those of its
    inputs, in order; an input that a single key has signed gives one tuple, of the signature, the
    key and the digest that `VerifyScript` has verified, whatever cache either side uses. -/
theorem appendTuples_verified (env : Env) (hash : Bytes → Uint256) (flags : ScriptFlags)
    (v : CoinsView) (tx : CTransaction)
    (cache : CTransaction → Option PrecomputedTransactionData)
    (hcb : tx.isCoinBase = false) (hcache : CachesOwnHashes hash cache) :
    let check := env.withSignatureHash hash cache
    let attest := env.withSignatureHash hash fun tx => some (precomputedTransactionData hash tx)
    appendTuples attest v tx =
        (List.range tx.vin.length).flatMap (inputTuples attest v tx) ∧
    (∀ nIn o, v.output (tx.vin.getD nIn default).prevout = some o →
      isSingleKey flags o = true →
      verifyScript check flags tx nIn o.nValue o.scriptPubKey
        (tx.vin.getD nIn default).scriptWitness = true →
      ∃ sig pubkey nHashType,
        (tx.vin.getD nIn default).scriptWitness = [sig, pubkey] ∧ sig.getLast? = some nHashType ∧
        checkSig check tx nIn o.nValue sig pubkey o.scriptPubKey = true ∧
        check.verify (stripKeyPrefix pubkey)
          (check.signatureHash o.scriptPubKey tx nIn nHashType o.nValue .witnessV0).bytes
          sig.dropLast = true ∧
        inputTuples attest v tx nIn =
          [((env.sha3 sig).bytes, (env.sha3 (stripKeyPrefix pubkey)).bytes,
            (check.signatureHash o.scriptPubKey tx nIn nHashType o.nValue .witnessV0).bytes)]) ∧
    ∀ nIn, ((∀ o, v.output (tx.vin.getD nIn default).prevout = some o →
          isAttestedVersion o.scriptPubKey = false) ∨
        (tx.vin.getD nIn default).scriptWitness.length ≠ 2) →
      inputTuples attest v tx nIn = [] := by
  intro check attest
  have hsame : attest = check := withSignatureHash_eq (fun _ => .inr rfl) hcache
  rw [hsame]
  refine ⟨appendTuples_eq check v hcb, ?_, fun nIn h => inputTuples_eq_nil h⟩
  intro nIn o hout hkey hverified
  rw [verifyScript_of_isSingleKey hkey] at hverified
  obtain ⟨sig, pubkey, nHashType, hwit, -, hlast, hsig⟩ := signedSpend_of_verifyDilithium hverified
  have hchecked : checkSig check tx nIn o.nValue sig pubkey o.scriptPubKey := by
    unfold verifyDilithium at hverified
    rw [hwit] at hverified
    exact (Bool.and_eq_true_iff.mp hverified).2
  exact ⟨sig, pubkey, nHashType, hwit, hlast, hchecked, hsig,
    inputTuples_of_signedSpend hout (isAttestedVersion_of_isSingleKey hkey) hwit hlast⟩

namespace Sample

/-- A signed payment from one key. -/
def attestedPayment : CTransaction :=
  transaction 7 [spend 8 [List.replicate 2421 0, keyItem]] [pay OP_1 1000]

/-- The output that it spends. -/
def attestedOut : CTxOut := pay OP_1 1000

end Sample

open Sample in
/-- One signed payment, verified without a cache. -/
theorem appendTuples_verified_payment :
    let check := (Sample.env sameByte).withSignatureHash (fun _ => Uint256.fill 3) fun _ => none
    let attest := (Sample.env sameByte).withSignatureHash (fun _ => Uint256.fill 3) fun tx =>
      some (precomputedTransactionData (fun _ => Uint256.fill 3) tx)
    verifyScript check (blockFlags params (index 1)) attestedPayment 0 attestedOut.nValue
        attestedOut.scriptPubKey (attestedPayment.vin.getD 0 default).scriptWitness = true ∧
    ∃ sig pubkey nHashType,
      (attestedPayment.vin.getD 0 default).scriptWitness = [sig, pubkey] ∧
      sig.getLast? = some nHashType ∧
      checkSig check attestedPayment 0 attestedOut.nValue sig pubkey attestedOut.scriptPubKey =
        true ∧
      check.verify (stripKeyPrefix pubkey)
        (check.signatureHash attestedOut.scriptPubKey attestedPayment 0 nHashType
          attestedOut.nValue .witnessV0).bytes sig.dropLast = true ∧
      inputTuples attest usdsoqCoins attestedPayment 0 =
        [(((Sample.env sameByte).sha3 sig).bytes,
          ((Sample.env sameByte).sha3 (stripKeyPrefix pubkey)).bytes,
          (check.signatureHash attestedOut.scriptPubKey attestedPayment 0 nHashType
            attestedOut.nValue .witnessV0).bytes)] := by
  intro check attest
  have hverified : verifyScript check (blockFlags params (index 1)) attestedPayment 0
      attestedOut.nValue attestedOut.scriptPubKey
      (attestedPayment.vin.getD 0 default).scriptWitness = true := by decide +kernel
  obtain ⟨-, hspent, -⟩ := appendTuples_verified (Sample.env sameByte) (fun _ => Uint256.fill 3)
    (blockFlags params (index 1)) usdsoqCoins attestedPayment (fun _ => none) rfl fun _ => .inl rfl
  exact ⟨hverified, hspent 0 attestedOut (by decide +kernel) (by decide +kernel) hverified⟩

end Soqucoin
