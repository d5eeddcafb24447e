import Soqucoin.ScriptRunProofs
import Soqucoin.SignatureHash

/-! # KeyhashProofs — covenants of key hashes

The witness v6 script `<h₁> OP_CHECKDILITHIUMKEYHASH … <hₖ> OP_CHECKDILITHIUMKEYHASH OP_1` takes
one key and one signature off the stack for every hash, first to last, and leaves what is below
them.  The clean-stack rule then asks for nothing below. -/

namespace Soqucoin

open CheckedLoop

/-- The script that asks for the keys of the given hashes. -/
def keyhashCovenant (hashes : List Uint256) : CScript :=
  hashes.flatMap (fun h => pushData h.bytes ++ [OP_CHECKDILITHIUMKEYHASH]) ++ [OP_1]

variable {pubkey : Bytes} {out stack : ScriptStack} {hashes : List Uint256}

/-! ## One check -/

section Check

variable {crypto : ScriptCrypto} {checker : SignatureChecker} {flags : VerifyFlags}
  {sigversion : SigVersion} {script : CScript}

/-- The signature and the key are what a check of the hash takes. -/
structure PassesKeyhash (crypto : ScriptCrypto) (checker : SignatureChecker) (flags : VerifyFlags)
    (sigversion : SigVersion) (script : CScript) (vchKeyHash sig key : Bytes) : Prop where
  valid : isValidPubKey (stripKeyPrefix key) = true
  hash_eq : (crypto.sha256 (stripKeyPrefix key)).bytes = vchKeyHash
  allowed : apoSigHashTypeAllowed flags sig = true
  signed : checker.checkSig sig (stripKeyPrefix key) script sigversion = true

theorem length_of_isValidPubKey (h : isValidPubKey pubkey) : pubkey.length = 1312 := by
  rw [isValidPubKey, Bool.and_eq_true, decide_eq_true_eq] at h
  exact h.1

/-- The opcode takes a key and its signature off the stack, and both pass. -/
theorem checkDilithiumKeyHash_eq_ok (hflag : flags.dilithiumKeyhash) {vchKeyHash : Bytes} :
    checkDilithiumKeyHash crypto checker flags sigversion script (vchKeyHash :: stack) = .ok out ↔
      ∃ sig key, stack = key :: sig :: out ∧
        PassesKeyhash crypto checker flags sigversion script vchKeyHash sig key := by
  rcases stack with _ | ⟨key, _ | ⟨sig, rest⟩⟩
  · simp [checkDilithiumKeyHash, hflag]
  · simp [checkDilithiumKeyHash, hflag]
  · rw [checkDilithiumKeyHash, if_pos hflag]
    simp only [require_bind_eq_ok, decide_eq_true_eq, Except.ok.injEq]
    constructor
    · rintro ⟨-, -, hhash, hvalid, hallowed, hsigned, rfl⟩
      exact ⟨sig, key, rfl, hvalid, hhash, hallowed, hsigned⟩
    · rintro ⟨sig', key', hstack, h⟩
      cases hstack
      have hlen : vchKeyHash.length = 32 := by
        rw [← h.hash_eq]
        exact Uint256.length_bytes _
      exact ⟨hlen, length_of_isValidPubKey h.valid, h.hash_eq, h.valid, h.allowed, h.signed, rfl⟩

theorem executeOpcode_keyhash (stack : ScriptStack) :
    executeOpcode crypto checker flags sigversion script OP_CHECKDILITHIUMKEYHASH stack =
      checkDilithiumKeyHash crypto checker flags sigversion script stack := by
  simp +decide [executeOpcode]

/-! ## The checks of a covenant -/

/-- The checks of a covenant, one a hash, each with its pair from the stack. -/
def keyhashChecks (crypto : ScriptCrypto) (checker : SignatureChecker) (flags : VerifyFlags)
    (sigversion : SigVersion) (script : CScript) :
    List Uint256 → ScriptStack → Except ScriptError ScriptStack
  | [], stack => .ok stack
  | h :: hashes, stack => do
      let stack ← checkDilithiumKeyHash crypto checker flags sigversion script (h.bytes :: stack)
      keyhashChecks crypto checker flags sigversion script hashes stack

/-- Keys and signatures as they lie on the stack, the first key on top. -/
def stackOf (pairs : List (Bytes × Bytes)) : ScriptStack := pairs.flatMap fun p => [p.2, p.1]

/-- The checks take one pair a hash, in order. -/
theorem keyhashChecks_eq_ok (hflag : flags.dilithiumKeyhash) :
    keyhashChecks crypto checker flags sigversion script hashes stack = .ok out ↔
      ∃ pairs, stack = stackOf pairs ++ out ∧
        List.Forall₂ (fun h p => PassesKeyhash crypto checker flags sigversion script h.bytes
          p.1 p.2) hashes pairs := by
  induction hashes generalizing stack with
  | nil =>
    rw [keyhashChecks, Except.ok.injEq]
    constructor
    · rintro rfl
      exact ⟨[], rfl, .nil⟩
    · rintro ⟨pairs, rfl, hpairs⟩
      cases hpairs
      rfl
  | cons h hashes ih =>
    rw [keyhashChecks, bind_eq_ok]
    constructor
    · rintro ⟨rest, hcheck, hrest⟩
      obtain ⟨sig, key, rfl, hpass⟩ := (checkDilithiumKeyHash_eq_ok hflag).mp hcheck
      obtain ⟨pairs, rfl, hpairs⟩ := ih.mp hrest
      exact ⟨(sig, key) :: pairs, rfl, .cons hpass hpairs⟩
    · rintro ⟨pairs, rfl, hpairs⟩
      cases hpairs with
      | @cons _ p _ pairs hpass hpairs =>
        exact ⟨stackOf pairs ++ out,
          (checkDilithiumKeyHash_eq_ok hflag).mpr ⟨p.1, p.2, rfl, hpass⟩,
          ih.mpr ⟨pairs, rfl, hpairs⟩⟩

/-- The opcodes a covenant is made of. -/
def CovenantOpcode (opcode : UInt8) : Prop :=
  opcode ≤ OP_PUSHDATA4 ∨ opcode = OP_CHECKDILITHIUMKEYHASH ∨ opcode = OP_1

/-- The instructions of a covenant do the checks and push a one. -/
theorem keyhashCovenant_decodes (hashes : List Uint256) :
    ∃ instrs, Decodes (keyhashCovenant hashes) instrs ∧ (∀ i ∈ instrs, CovenantOpcode i.1) ∧
      ∀ crypto checker flags sigversion script stack,
        runInstrs crypto checker flags sigversion script instrs ⟨stack, []⟩ =
          (keyhashChecks crypto checker flags sigversion script hashes stack >>= fun stack =>
            .ok ⟨[1] :: stack, []⟩) := by
  induction hashes with
  | nil =>
    refine ⟨[(OP_1, [])], .opcode (by decide) .nil, ?_, ?_⟩
    · intro i hi
      rw [List.mem_singleton.mp hi]
      exact .inr (.inr rfl)
    · intro crypto checker flags sigversion script stack
      rfl
  | cons h hashes ih =>
    obtain ⟨instrs, hdec, hops, hrun⟩ := ih
    have hcheck : OP_PUSHDATA4 < OP_CHECKDILITHIUMKEYHASH := by decide
    have hsize : h.bytes.length < 2 ^ 32 := by rw [Uint256.length_bytes]; decide
    obtain ⟨opcode, hle, hvalue, hdec'⟩ := (Decodes.opcode hcheck hdec).pushData hsize
    refine ⟨(opcode, h.bytes) :: (OP_CHECKDILITHIUMKEYHASH, []) :: instrs, ?_, ?_, ?_⟩
    · rw [keyhashCovenant, List.flatMap_cons, List.append_assoc, List.append_assoc]
      exact hdec'
    · intro i hi
      rcases List.mem_cons.mp hi with rfl | hi
      · exact .inl hle
      · rcases List.mem_cons.mp hi with rfl | hi
        · exact .inr (.inl rfl)
        · exact hops i hi
    · intro crypto checker flags sigversion script stack
      rw [runInstrs_cons, evalOpcode_push hle (by rw [Uint256.length_bytes]; decide), hvalue,
        keyhashChecks]
      show (evalOpcode _ _ _ _ _ OP_CHECKDILITHIUMKEYHASH [] _ >>= _) = _
      rw [evalOpcode_execute (by decide) (by decide), executeOpcode_keyhash, bind_assoc, bind_assoc]
      congr 1
      funext stack'
      exact hrun _ _ _ _ _ stack'

/-- The scan allows every opcode of the covenant. -/
theorem CovenantOpcode.scanAllows {opcode : UInt8} (h : CovenantOpcode opcode) :
    ScanAllows opcode := by
  rcases h with hle | rfl | rfl
  · have hassets : ∀ op ∈ assetOpcodes, OP_PUSHDATA4 < op := by decide +kernel
    refine ⟨fun hmem => UInt8.not_le.mpr (hassets opcode hmem) hle, ?_⟩
    rw [isWitnessV6ScriptOpcode, decide_eq_true hle]
    simp only [Bool.true_or]
  · decide
  · decide

/-- The covenant runs as its checks in turn. -/
theorem evalScript_keyhashCovenant :
    evalScript crypto checker flags sigversion (keyhashCovenant hashes) stack = .ok out ↔
      ∃ rest, keyhashChecks crypto checker flags sigversion (keyhashCovenant hashes) hashes stack =
        .ok rest ∧ out = [1] :: rest := by
  obtain ⟨instrs, hdec, -, hrun⟩ := keyhashCovenant_decodes hashes
  rw [evalScript_of_decodes hdec, hrun, bind_assoc, bind_eq_ok]
  refine exists_congr fun rest => and_congr_right fun _ => ?_
  show (require (!flags.v6Controlflow || true) _ >>= _) = _ ↔ _
  rw [Bool.or_true]
  show Except.ok ([1] :: rest) = Except.ok out ↔ _
  rw [Except.ok.injEq, eq_comm]

/-! ## Spending the program -/

/-- The script of a version 6 program. -/
def v6Program (h : Uint256) : CScript := OP_6 :: 32 :: h.bytes

theorem verifyScript_v6Program (hflag : flags.p2wshDilithium) (h : Uint256)
    (scriptSig : CScript) (witness : Option (List Bytes)) :
    checker.verifyScript crypto flags scriptSig (v6Program h) witness =
      runP2WSHDilithium crypto checker flags (v6Program h) witness := by
  have hsix : isWitnessProgram OP_6 (v6Program h) := by
    simp [isWitnessProgram, v6Program]
  simp +decide [SignatureChecker.verifyScript, isWitnessProgram_eq hsix, hflag, skipIf]

/-- What a spend of a version 6 program has shown. -/
theorem verifyScript_v6Program_eq_ok (hflag : flags.p2wshDilithium) {h : Uint256}
    {scriptSig : CScript} {witness : List Bytes} :
    checker.verifyScript crypto flags scriptSig (v6Program h) (some witness) = .ok () ↔
      ∃ items witnessScript last, witness = items ++ [witnessScript, last] ∧
        crypto.sha256 witnessScript = h ∧ witnessScript.length ≤ MAX_SCRIPT_SIZE ∧
        scanWitnessScript witnessScript.length witnessScript = .ok () ∧
        ∃ item, castToBool item ∧
          evalScript crypto checker flags .witnessV0 witnessScript items.reverse = .ok [item] := by
  rw [verifyScript_v6Program hflag]
  constructor
  · intro hrun
    rw [runP2WSHDilithium, Option.getD_some] at hrun
    split at hrun
    next last witnessScript stack hrev =>
      obtain ⟨hhash, hrun⟩ := require_bind_eq_ok.mp hrun
      obtain ⟨hsize, hrun⟩ := require_bind_eq_ok.mp hrun
      obtain ⟨u, hscan, hrun⟩ := bind_eq_ok.mp hrun
      obtain ⟨out, heval, hclean⟩ := bind_eq_ok.mp hrun
      rw [decide_eq_true_eq] at hhash hsize
      rw [require_eq_ok] at hclean
      refine ⟨stack.reverse, witnessScript, last, ?_, Uint256.ext hhash, hsize, hscan, ?_⟩
      · rw [← List.reverse_reverse witness, hrev]
        simp
      · rw [List.reverse_reverse]
        split at hclean
        next item => exact ⟨item, hclean, heval⟩
        · cases hclean
    · cases hrun
  · rintro ⟨items, witnessScript, last, rfl, rfl, hsize, hscan, item, htrue, heval⟩
    rw [runP2WSHDilithium, Option.getD_some, List.reverse_append]
    refine require_bind_eq_ok.mpr ⟨decide_eq_true rfl, ?_⟩
    refine require_bind_eq_ok.mpr ⟨decide_eq_true hsize, ?_⟩
    exact bind_eq_ok.mpr ⟨(), hscan, bind_eq_ok.mpr ⟨[item], heval, require_eq_ok.mpr htrue⟩⟩

theorem reverse_stackOf (pairs : List (Bytes × Bytes)) :
    (stackOf pairs).reverse = pairs.reverse.flatMap fun p => [p.1, p.2] := by
  induction pairs with
  | nil => rfl
  | cons p pairs ih =>
    show (p.2 :: p.1 :: stackOf pairs).reverse = _
    rw [List.reverse_cons, List.reverse_cons, ih, List.reverse_cons, List.flatMap_append]
    simp

theorem scan_keyhashCovenant (hashes : List Uint256) :
    scanWitnessScript (keyhashCovenant hashes).length (keyhashCovenant hashes) = .ok () := by
  obtain ⟨instrs, hdec, hops, -⟩ := keyhashCovenant_decodes hashes
  exact scanWitnessScript_of_decodes hdec (fun i hi => (hops i hi).scanAllows) le_rfl

/-- A covenant is spent by the keys of its hashes and their signatures, those of the last
    hash at the bottom, and by nothing else. -/
theorem spend_keyhashCovenant (hflag : flags.p2wshDilithium) (hkey : flags.dilithiumKeyhash)
    (hsize : (keyhashCovenant hashes).length ≤ MAX_SCRIPT_SIZE) {scriptSig : CScript}
    {witness : List Bytes}
    (hcol : ∀ items witnessScript last, witness = items ++ [witnessScript, last] →
      crypto.sha256 witnessScript = crypto.sha256 (keyhashCovenant hashes) →
        witnessScript = keyhashCovenant hashes) :
    checker.verifyScript crypto flags scriptSig
        (v6Program (crypto.sha256 (keyhashCovenant hashes))) (some witness) = .ok () ↔
      ∃ (pairs : List (Bytes × Bytes)) (last : Bytes),
        witness = pairs.reverse.flatMap (fun p => [p.1, p.2]) ++ [keyhashCovenant hashes, last] ∧
        List.Forall₂ (fun h p => PassesKeyhash crypto checker flags .witnessV0
          (keyhashCovenant hashes) h.bytes p.1 p.2) hashes pairs := by
  rw [verifyScript_v6Program_eq_ok hflag]
  constructor
  · rintro ⟨items, witnessScript, last, hwitness, hhash, -, -, item, -, heval⟩
    obtain rfl := hcol items witnessScript last hwitness hhash
    rw [evalScript_keyhashCovenant] at heval
    obtain ⟨rest, hchecks, hout⟩ := heval
    -- nothing is left below the true item
    obtain rfl : rest = [] := by
      cases hout
      rfl
    obtain ⟨pairs, hstack, hpairs⟩ := (keyhashChecks_eq_ok hkey).mp hchecks
    refine ⟨pairs, last, ?_, hpairs⟩
    rw [hwitness, ← reverse_stackOf, ← List.append_nil (stackOf pairs), ← hstack,
      List.reverse_reverse]
  · rintro ⟨pairs, last, hwitness, hpairs⟩
    refine ⟨_, _, last, hwitness, rfl, hsize, scan_keyhashCovenant hashes, [1], rfl, ?_⟩
    rw [evalScript_keyhashCovenant, ← reverse_stackOf, List.reverse_reverse]
    exact ⟨[], (keyhashChecks_eq_ok hkey).mpr ⟨pairs, (List.append_nil _).symm, hpairs⟩, rfl⟩

end Check

/-! ## The transaction that spends -/

section Node

variable (env : Env) (hash : Bytes → Uint256)
  (cache : CTransaction → Option PrecomputedTransactionData)

/-- The signature is of the transaction's digest with the given script code, under the key. -/
def SignsDigest (tx : CTransaction) (nIn : Nat) (amount : Int) (script : CScript)
    (pubkey sig : Bytes) : Prop :=
  ∃ body nHashType, sig = body ++ [nHashType] ∧ body.length = 2420 ∧
    env.verify pubkey
      (signatureHash hash (cache tx) script tx nIn nHashType.toUInt32 amount .witnessV0).bytes
      body = true

/-- A key of the hash, and a signature of an allowed type under it. -/
structure SatisfiesKeyhash (flags : VerifyFlags) (tx : CTransaction) (nIn : Nat) (amount : Int)
    (script : CScript) (h : Uint256) (sig key : Bytes) : Prop where
  valid : isValidPubKey (stripKeyPrefix key) = true
  hash_eq : env.sha256 (stripKeyPrefix key) = h
  allowed : flags.apo = true ∨ isAPOSigHashType sig = false
  signed : SignsDigest env hash cache tx nIn amount script (stripKeyPrefix key) sig

variable {env hash cache} {proofs : ProofVerifiers} {flags : VerifyFlags} {tx : CTransaction}
  {nIn : Nat} {amount : Int} {script : CScript}

theorem stripKeyPrefix_of_length (h : pubkey.length = 1312) : stripKeyPrefix pubkey = pubkey := by
  rw [stripKeyPrefix, h]
  rfl

/-- The signature check passes exactly if the signature signs the digest. -/
theorem checkSig_iff_signsDigest {sig : Bytes} (hvalid : isValidPubKey pubkey) :
    (transactionSignatureChecker (env.withSignatureHash hash cache) tx nIn amount).checkSig sig
        pubkey script .witnessV0 ↔ SignsDigest env hash cache tx nIn amount script pubkey sig := by
  have hstrip := stripKeyPrefix_of_length (length_of_isValidPubKey hvalid)
  rcases List.eq_nil_or_concat sig with rfl | ⟨body, nHashType, rfl⟩
  · constructor
    · intro h
      cases h
    · rintro ⟨body, nHashType, h, -⟩
      exact absurd h.symm (List.concat_ne_nil nHashType body)
  · simp only [transactionSignatureChecker, List.concat_eq_append, List.getLast?_concat,
      List.dropLast_concat, hstrip, hvalid, Bool.true_and, Bool.and_eq_true, decide_eq_true_eq]
    constructor
    · rintro ⟨hlen, hver⟩
      exact ⟨body, nHashType, rfl, hlen, hver⟩
    · rintro ⟨body', nHashType', heq, hlen, hver⟩
      obtain ⟨rfl, rfl⟩ := List.append_singleton_inj.mp heq
      exact ⟨hlen, hver⟩

/-- The check of a pair, in terms of the digest. -/
theorem passesKeyhash_iff {h : Uint256} {sig key : Bytes} :
    PassesKeyhash ((env.withSignatureHash hash cache).crypto proofs)
        (transactionSignatureChecker (env.withSignatureHash hash cache) tx nIn amount) flags
        .witnessV0 script h.bytes sig key ↔
      SatisfiesKeyhash env hash cache flags tx nIn amount script h sig key := by
  constructor
  · rintro ⟨hvalid, hhash, hallowed, hsigned⟩
    refine ⟨hvalid, Uint256.ext hhash, ?_, (checkSig_iff_signsDigest hvalid).mp hsigned⟩
    simpa [apoSigHashTypeAllowed] using hallowed
  · rintro ⟨hvalid, rfl, hallowed, hsigned⟩
    refine ⟨hvalid, rfl, ?_, (checkSig_iff_signsDigest hvalid).mpr hsigned⟩
    simpa [apoSigHashTypeAllowed] using hallowed

/-- A covenant of `k` hashes is spent exactly by `k` pairs of a signature and a key in the
    reverse order, each key of its hash and each signature of an allowed type and of the
    digest with the covenant as script code. -/
theorem keyhash_covenant_spend_iff (env : Env) (hash : Bytes → Uint256)
    (cache : CTransaction → Option PrecomputedTransactionData) (proofs : ProofVerifiers)
    (flags : VerifyFlags) (tx : CTransaction) (nIn : Nat) (amount : Int) (scriptSig : CScript)
    (hashes : List Uint256) (witness : List Bytes)
    (hsize : (keyhashCovenant hashes).length ≤ MAX_SCRIPT_SIZE)
    (hflag : flags.p2wshDilithium = true) (hkey : flags.dilithiumKeyhash = true)
    (hcol : ∀ items witnessScript last, witness = items ++ [witnessScript, last] →
      env.sha256 witnessScript = env.sha256 (keyhashCovenant hashes) →
      witnessScript = keyhashCovenant hashes) :
    (transactionSignatureChecker (env.withSignatureHash hash cache) tx nIn amount).verifyScript
        ((env.withSignatureHash hash cache).crypto proofs) flags scriptSig
        (v6Program (env.sha256 (keyhashCovenant hashes))) (some witness) = .ok () ↔
      ∃ (pairs : List (Bytes × Bytes)) (last : Bytes),
        witness = pairs.reverse.flatMap (fun p => [p.1, p.2]) ++ [keyhashCovenant hashes, last] ∧
        List.Forall₂ (fun h p => SatisfiesKeyhash env hash cache flags tx nIn amount
          (keyhashCovenant hashes) h p.1 p.2) hashes pairs := by
  refine (spend_keyhashCovenant hflag hkey hsize hcol).trans ?_
  simp only [passesKeyhash_iff]

end Node

namespace Sample

/-- Every signature verifies. -/
def signingEnv : Env := env fun _ _ _ => true

/-- The flags under which the covenant opcode runs. -/
def covenantFlags : VerifyFlags :=
  { genesisFlags with p2wshDilithium := true, dilithiumKeyhash := true }

/-- A signature and a key of zero bytes. -/
def sigAndKey : Bytes × Bytes := (List.replicate 2420 0 ++ [SIGHASH_ALL], List.replicate 1312 0)

/-- A spend of one coin. -/
def covenantSpend : CTransaction where
  nVersion := 2
  vin := [⟨⟨Uint256.one, 0⟩, [], 0xffffffff, []⟩]
  vout := [⟨0, v6Program Uint256.null⟩]
  nLockTime := 0

/-- The hash of the key of zero bytes. -/
def keyHash : Uint256 := signingEnv.sha256 (List.replicate 1312 0)

/-- Keys differ in their bytes, the hash of a key is its first byte, and a signature verifies
    under the key with the same bytes. -/
def keysEnv : Env :=
  { env (fun key _ sig => key.head? = sig.head?) with
    sha256 := fun m => Uint256.fill (m.headD 0) }

/-- A signature and a key of one byte, repeated. -/
def pairOf (b : UInt8) : Bytes × Bytes :=
  (List.replicate 2420 b ++ [SIGHASH_ALL], List.replicate 1312 b)

/-- A covenant that asks for both keys. -/
def twoKeys : CScript := keyhashCovenant [Uint256.fill 1, Uint256.fill 2]

/-- A pair of one byte satisfies the hash of that byte. -/
theorem satisfiesKeyhash_pairOf {b : UInt8}
    (hvalid : isValidPubKey (stripKeyPrefix (pairOf b).2) = true) :
    SatisfiesKeyhash keysEnv keysEnv.sha256 (fun _ => none) covenantFlags covenantSpend 0 0
      twoKeys (Uint256.fill b) (pairOf b).1 (pairOf b).2 := by
  have hkey : stripKeyPrefix (pairOf b).2 = (pairOf b).2 :=
    stripKeyPrefix_of_length (List.length_replicate ..)
  refine ⟨hvalid, ?_, .inr ?_, ?_⟩
  · rw [hkey]
    rfl
  · rw [pairOf, isAPOSigHashType, List.getLast?_concat]
    decide
  · refine ⟨List.replicate 2420 b, SIGHASH_ALL, rfl, List.length_replicate .., ?_⟩
    rw [hkey]
    have hhead : (List.replicate 1312 b).head? = (List.replicate 2420 b).head? := by
      rw [List.head?_replicate, List.head?_replicate, if_neg (by decide), if_neg (by decide)]
    exact decide_eq_true hhead

end Sample

open Sample in
/-- Two keys, whose pairs stand in the witness in the reverse order of their hashes. -/
theorem keyhash_covenant_spend_two :
    (transactionSignatureChecker (keysEnv.withSignatureHash keysEnv.sha256 fun _ => none)
          covenantSpend 0 0).verifyScript
        ((keysEnv.withSignatureHash keysEnv.sha256 fun _ => none).crypto
          crypto.toProofVerifiers) covenantFlags [] (v6Program (keysEnv.sha256 twoKeys))
        (some [(pairOf 2).1, (pairOf 2).2, (pairOf 1).1, (pairOf 1).2, twoKeys, []]) =
      .ok () := by
  refine (keyhash_covenant_spend_iff keysEnv keysEnv.sha256 (fun _ => none)
    crypto.toProofVerifiers covenantFlags covenantSpend 0 0 []
    [Uint256.fill 1, Uint256.fill 2] _ (by decide +kernel) rfl rfl ?_).mpr ?_
  · intro items witnessScript last hwitness _
    obtain ⟨-, hscript⟩ := List.append_inj'
      (show [(pairOf 2).1, (pairOf 2).2, (pairOf 1).1, (pairOf 1).2] ++ [twoKeys, []] =
        items ++ [witnessScript, last] from hwitness) rfl
    exact (List.cons.inj hscript).1.symm
  · exact ⟨[pairOf 1, pairOf 2], [], rfl,
      .cons (satisfiesKeyhash_pairOf (by decide +kernel))
        (.cons (satisfiesKeyhash_pairOf (by decide +kernel)) .nil)⟩

/-! ## ANYPREVOUT with ANYONECANPAY

For the combination `SignatureHash` answers with the constant one, which the comment there says
never matches.  A signature of that constant does. -/

/-- The hash type of the signature combines the two. -/
def CombinesAnyoneCanPay (sig : Bytes) : Prop :=
  ∃ body nHashType, sig = body ++ [nHashType] ∧ nHashType &&& SIGHASH_ANYONECANPAY ≠ 0 ∧
    (nHashType &&& 0x7f = SIGHASH_ANYPREVOUT ∨ nHashType &&& 0x7f = SIGHASH_ANYPREVOUTANYSCRIPT)

section Combined

variable {env : Env} {hash : Bytes → Uint256}
  {cache : CTransaction → Option PrecomputedTransactionData} {proofs : ProofVerifiers}
  {flags : VerifyFlags} {tx : CTransaction} {nIn : Nat} {amount : Int} {script : CScript}
  {key sig : Bytes}

theorem CombinesAnyoneCanPay.isAPOSigHashType (h : CombinesAnyoneCanPay sig) :
    isAPOSigHashType sig := by
  obtain ⟨body, nHashType, rfl, -, htype⟩ := h
  simpa [Soqucoin.isAPOSigHashType] using htype

/-- A combined signature signs the constant one. -/
theorem CombinesAnyoneCanPay.signsDigest_iff (h : CombinesAnyoneCanPay sig) :
    SignsDigest env hash cache tx nIn amount script key sig ↔
      sig.length = 2421 ∧ env.verify key Uint256.one.bytes sig.dropLast := by
  obtain ⟨body, nHashType, rfl, hpay, htype⟩ := h
  have hbits : ∀ mask : UInt8, nHashType.toUInt32 &&& mask.toUInt32 =
      (nHashType &&& mask).toUInt32 :=
    fun mask => (UInt8.toUInt32_and _ _).symm
  have hdigest : signatureHash hash (cache tx) script tx nIn nHashType.toUInt32 amount .witnessV0 =
      Uint256.one := by
    have htype32 : nHashType.toUInt32 &&& 0x7f = SIGHASH_ANYPREVOUT.toUInt32 ∨
        nHashType.toUInt32 &&& 0x7f = SIGHASH_ANYPREVOUTANYSCRIPT.toUInt32 := by
      rw [show (0x7f : UInt32) = (0x7f : UInt8).toUInt32 from rfl, hbits]
      exact htype.imp (congrArg UInt8.toUInt32) (congrArg UInt8.toUInt32)
    have hpay32 : nHashType.toUInt32 &&& SIGHASH_ANYONECANPAY.toUInt32 ≠ 0 := by
      rw [hbits]
      exact fun h => hpay (UInt8.toUInt32_inj.mp h)
    simp [signatureHash, htype32, hpay32]
  rw [List.length_append, List.length_singleton, List.dropLast_concat]
  constructor
  · rintro ⟨body', nHashType', heq, hlen, hver⟩
    obtain ⟨rfl, rfl⟩ := List.append_singleton_inj.mp heq
    rw [hdigest] at hver
    exact ⟨by omega, hver⟩
  · rintro ⟨hlen, hver⟩
    exact ⟨body, nHashType, rfl, by omega, by rw [hdigest]; exact hver⟩

/-- The covenant has 34 bytes for each hash and one more. -/
theorem length_keyhashCovenant (hashes : List Uint256) :
    (keyhashCovenant hashes).length = 34 * hashes.length + 1 := by
  induction hashes with
  | nil => rfl
  | cons h hashes ih =>
    rw [keyhashCovenant, List.flatMap_cons, List.append_assoc, List.length_append]
    rw [keyhashCovenant] at ih
    rw [ih, pushData, pushHeader, Uint256.length_bytes]
    simp
    omega

/-- A covenant of one hash comes to its check with the hash on the stack. -/
theorem executes_keyhashCovenant {crypto : ScriptCrypto} {checker : SignatureChecker} (h : Uint256)
    (stack : ScriptStack) :
    Executes crypto checker flags .witnessV0 (keyhashCovenant [h]) stack
      OP_CHECKDILITHIUMKEYHASH (h.bytes :: stack) := by
  have hcheck : OP_PUSHDATA4 < OP_CHECKDILITHIUMKEYHASH := by decide
  have hone : Decodes [OP_1] [(OP_1, [])] := .opcode (by decide) .nil
  have hsize : h.bytes.length < 2 ^ 32 := by rw [Uint256.length_bytes]; decide
  obtain ⟨opcode, hle, hvalue, hdec⟩ := (Decodes.opcode hcheck hone).pushData hsize
  refine ⟨[(opcode, h.bytes)], [], [(OP_1, [])], ⟨h.bytes :: stack, []⟩, ?_, ?_, rfl, rfl⟩
  · have hscript : keyhashCovenant [h] = pushData h.bytes ++ [OP_CHECKDILITHIUMKEYHASH, OP_1] := by
      simp [keyhashCovenant]
    rw [hscript]
    exact hdec
  · rw [runInstrs_cons, evalOpcode_push hle (by rw [Uint256.length_bytes]; decide), hvalue]
    rfl

/-- What a check of a combined signature asks for. -/
def SpendsByConstant (env : Env) (flags : VerifyFlags) (key sig : Bytes) : Prop :=
  flags.apo = true ∧ isValidPubKey (stripKeyPrefix key) = true ∧ sig.length = 2421 ∧
    env.verify (stripKeyPrefix key) Uint256.one.bytes sig.dropLast = true

/-- With such a type the key hash is satisfied by a signature of the constant. -/
theorem CombinesAnyoneCanPay.satisfiesKeyhash_iff (h : CombinesAnyoneCanPay sig) {kh : Uint256} :
    SatisfiesKeyhash env hash cache flags tx nIn amount script kh sig key ↔
      env.sha256 (stripKeyPrefix key) = kh ∧ SpendsByConstant env flags key sig := by
  constructor
  · rintro ⟨hvalid, hhash, hallowed, hsigned⟩
    obtain ⟨hlen, hver⟩ := h.signsDigest_iff.mp hsigned
    refine ⟨hhash, ?_, hvalid, hlen, hver⟩
    simpa [h.isAPOSigHashType] using hallowed
  · rintro ⟨hhash, hapo, hvalid, hlen, hver⟩
    exact ⟨hvalid, hhash, .inl hapo, h.signsDigest_iff.mpr ⟨hlen, hver⟩⟩

/-- A signature of the constant spends a covenant. -/
theorem spend_by_constant (h : CombinesAnyoneCanPay sig) (hflag : flags.p2wshDilithium)
    (hkey : flags.dilithiumKeyhash) (hspend : SpendsByConstant env flags key sig) :
    (transactionSignatureChecker (env.withSignatureHash hash cache) tx nIn amount).verifyScript
      ((env.withSignatureHash hash cache).crypto proofs) flags []
      (v6Program (env.sha256 (keyhashCovenant [env.sha256 (stripKeyPrefix key)])))
      (some [sig, key, keyhashCovenant [env.sha256 (stripKeyPrefix key)], []]) = .ok () := by
  refine (spend_keyhashCovenant hflag hkey ?_ ?_).mpr ⟨[(sig, key)], [], rfl, ?_⟩
  · rw [length_keyhashCovenant, List.length_singleton]
    decide
  · intro items witnessScript last hwitness _
    obtain ⟨-, hscript⟩ := List.append_inj'
      (show [sig, key] ++ [keyhashCovenant [env.sha256 (stripKeyPrefix key)], []] =
        items ++ [witnessScript, last] from hwitness) rfl
    exact (List.cons.inj hscript).1.symm
  · exact .cons (passesKeyhash_iff.mpr (h.satisfiesKeyhash_iff.mpr ⟨rfl, hspend⟩)) .nil

end Combined

/-- Every witness v6 spend in which a check is given the key and the combined signature
    fails exactly if the signature is not one of the constant under the key, or the
    ANYPREVOUT rules are not active. -/
theorem apo_anyonecanpay_unspendable_iff (env : Env) (hash : Bytes → Uint256)
    (cache : CTransaction → Option PrecomputedTransactionData) (proofs : ProofVerifiers)
    (flags : VerifyFlags) (tx : CTransaction) (nIn : Nat) (amount : Int) (key sig : Bytes)
    (hcombined : CombinesAnyoneCanPay sig) (hflag : flags.p2wshDilithium = true)
    (hkey : flags.dilithiumKeyhash = true) :
    (∀ scriptSig h items witnessScript last vchKeyHash rest,
      Executes ((env.withSignatureHash hash cache).crypto proofs)
        (transactionSignatureChecker (env.withSignatureHash hash cache) tx nIn amount) flags
        .witnessV0 witnessScript items.reverse OP_CHECKDILITHIUMKEYHASH
        (vchKeyHash :: key :: sig :: rest) →
      (transactionSignatureChecker (env.withSignatureHash hash cache) tx nIn amount).verifyScript
        ((env.withSignatureHash hash cache).crypto proofs) flags scriptSig (v6Program h)
        (some (items ++ [witnessScript, last])) ≠ .ok ()) ↔
      ¬SpendsByConstant env flags key sig := by
  constructor
  · intro hfail hspend
    exact hfail [] _ [sig, key] _ [] (env.sha256 (stripKeyPrefix key)).bytes []
      (executes_keyhashCovenant _ _) (spend_by_constant hcombined hflag hkey hspend)
  · intro hnot scriptSig h items witnessScript last vchKeyHash rest hexec hok
    obtain ⟨items', script', last', hwitness, -, -, -, item, -, heval⟩ :=
      (verifyScript_v6Program_eq_ok hflag).mp hok
    obtain ⟨rfl, htail⟩ := List.append_inj' hwitness rfl
    cases htail
    obtain ⟨top', htop⟩ := hexec.executeOpcode_ok (by decide) (by decide) heval
    rw [executeOpcode_keyhash, checkDilithiumKeyHash_eq_ok hkey] at htop
    obtain ⟨sig', key', hstack, hpass⟩ := htop
    cases hstack
    have hhash := hpass.hash_eq
    subst hhash
    exact hnot (hcombined.satisfiesKeyhash_iff.mp (passesKeyhash_iff.mp hpass)).2

namespace Sample

/-- The same flags with ANYPREVOUT. -/
def apoFlags : VerifyFlags := { covenantFlags with apo := true }

/-- A signature whose hash type combines the two. -/
def combinedSig : Bytes := List.replicate 2420 0 ++ [0xc1]

theorem combinedSig_combines : CombinesAnyoneCanPay combinedSig :=
  ⟨List.replicate 2420 0, 0xc1, rfl, by decide, .inl (by decide)⟩

theorem combinedSig_spends : SpendsByConstant signingEnv apoFlags sigAndKey.2 combinedSig :=
  ⟨rfl, by decide +kernel, by decide +kernel, rfl⟩

end Sample

open Sample in
/-- The combined signature without the ANYPREVOUT deployment. -/
theorem apo_anyonecanpay_unspendable_sample :
    (transactionSignatureChecker (signingEnv.withSignatureHash signingEnv.sha256
        fun _ => none) covenantSpend 0 0).verifyScript
      ((signingEnv.withSignatureHash signingEnv.sha256 fun _ => none).crypto
        crypto.toProofVerifiers) covenantFlags []
      (v6Program (signingEnv.sha256 (keyhashCovenant [keyHash])))
      (some [combinedSig, sigAndKey.2, keyhashCovenant [keyHash], []]) ≠
      .ok () := by
  have hnot : ¬SpendsByConstant signingEnv covenantFlags sigAndKey.2
      combinedSig := fun h => Bool.noConfusion h.1
  exact (apo_anyonecanpay_unspendable_iff signingEnv signingEnv.sha256 (fun _ => none)
    crypto.toProofVerifiers covenantFlags covenantSpend 0 0
    sigAndKey.2 combinedSig combinedSig_combines rfl rfl).mpr hnot []
    (signingEnv.sha256 (keyhashCovenant [keyHash]))
    [combinedSig, sigAndKey.2] (keyhashCovenant [keyHash]) []
    keyHash.bytes [] (executes_keyhashCovenant _ _)

open Sample in
/-- A spend with a signature that combines ANYPREVOUT and ANYONECANPAY, by a key holder
    who signs the constant. -/
theorem apo_anyonecanpay_spends :
    CombinesAnyoneCanPay combinedSig ∧
    (transactionSignatureChecker (signingEnv.withSignatureHash signingEnv.sha256
        fun _ => none) covenantSpend 0 0).verifyScript
      ((signingEnv.withSignatureHash signingEnv.sha256 fun _ => none).crypto
        crypto.toProofVerifiers) apoFlags []
      (v6Program (signingEnv.sha256 (keyhashCovenant
        [signingEnv.sha256 (stripKeyPrefix sigAndKey.2)])))
      (some [combinedSig, sigAndKey.2, keyhashCovenant
        [signingEnv.sha256 (stripKeyPrefix sigAndKey.2)], []]) = .ok () :=
  ⟨combinedSig_combines,
    spend_by_constant combinedSig_combines rfl rfl combinedSig_spends⟩

end Soqucoin
