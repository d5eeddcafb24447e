import Soqucoin.InterpreterProofs
import Soqucoin.SigOps

/-! # SigOpWorkProofs — signature work against the sigop charge

The queries are the ML-DSA verifications that `VerifyScript` makes on its way: its verdict depends
on the verifier by them alone (`decides_verifyScript`).  Witness v6 makes one at most for each
opcode that is charged, and v1 one at most.  Version 0 makes the same one, but is charged by the
opcodes that its last witness item, the public key, happens to read as. -/

namespace Soqucoin

open CheckedLoop

/-- An input under check: what `VerifyScript` has besides the scripts and the witness. -/
structure Spend where
  env : Env
  proofs : ProofVerifiers
  tx : CTransaction
  nIn : Nat
  amount : Int
  flags : VerifyFlags

/-- A call of the verifier: key, message and signature. -/
abbrev Query := Bytes × Bytes × Bytes

namespace Spend

variable (x : Spend) (script scriptPubKey : CScript) (opcode : UInt8) (stack : ScriptStack)
  (witness : Option (List Bytes)) (sig pubkey : Bytes)

/-- The verifiers that the spend runs with. -/
def crypto : ScriptCrypto := x.env.crypto x.proofs

/-- The checker of the input that is spent. -/
def checker : SignatureChecker := transactionSignatureChecker x.env x.tx x.nIn x.amount

/-- What `CPubKey::Verify` asks. -/
def verifyQueries (hash : Uint256) : List Query :=
  if isValidPubKey pubkey && sig.length = 2420 then [(pubkey, hash.bytes, sig)] else []

/-- What checking a signature asks the verifier. -/
def checkSigQueries : List Query :=
  match sig.getLast? with
  | none => []
  | some nHashType =>
    verifyQueries sig.dropLast (stripKeyPrefix pubkey)
      (x.env.signatureHash script x.tx x.nIn nHashType x.amount .witnessV0)

/-- What `OP_CHECKSIGFROMSTACKVERIFY` asks. -/
def csfsQueries : List Query :=
  match stack with
  | vchPubKey :: vchMsg :: vchSig :: _ =>
    if x.flags.csfs then verifyQueries vchSig (stripKeyPrefix vchPubKey) (x.crypto.hash vchMsg)
    else []
  | _ => []

/-- What `OP_CHECKDILITHIUMKEYHASH` asks. -/
def keyhashQueries : List Query :=
  match stack with
  | vchKeyHash :: vchPubKey :: vchSig :: _ =>
    if x.flags.dilithiumKeyhash && ((x.env.sha256 (stripKeyPrefix vchPubKey)).bytes = vchKeyHash &&
        apoSigHashTypeAllowed x.flags vchSig) then
      x.checkSigQueries script vchSig (stripKeyPrefix vchPubKey)
    else []
  | _ => []

/-- What an executed opcode asks. -/
def opcodeQueries : List Query :=
  if opcode = OP_CHECKSIGFROMSTACKVERIFY then x.csfsQueries stack
  else if opcode = OP_CHECKDILITHIUMKEYHASH then x.keyhashQueries script stack
  else []

/-- What the loop of `EvalScript` asks, until the script ends or fails. -/
def loopQueries : Nat → Bytes → ScriptState → List Query
  | 0, _, _ => []
  | fuel + 1, pc, s =>
    match getOp pc with
    | none => []
    | some (opcode, data, rest) =>
      (if s.fExec then x.opcodeQueries script opcode s.stack else []) ++
        match evalOpcode x.crypto x.checker x.flags .witnessV0 script opcode data s with
        | .ok s => loopQueries fuel rest s
        | .error _ => []

/-- What the single-key path asks. -/
def dilithiumQueries : List Query :=
  match witness with
  | some [sig, pubkey] =>
    if (x.env.sha256 (stripKeyPrefix pubkey)).bytes = scriptPubKey.drop 2 &&
        !isAPOSigHashType sig then
      x.checkSigQueries scriptPubKey sig pubkey
    else []
  | _ => []

/-- What running the witness script asks. -/
def p2wshQueries : List Query :=
  match (witness.getD []).reverse with
  | _ :: witnessScript :: stack =>
    if (x.env.sha256 witnessScript).bytes = scriptPubKey.drop 2 &&
        witnessScript.length ≤ MAX_SCRIPT_SIZE &&
        scanWitnessScript witnessScript.length witnessScript = .ok () then
      x.loopQueries witnessScript witnessScript.length witnessScript ⟨stack, []⟩
    else []
  | _ => []

/-- What `VerifyScript` asks for an output of version 0, 1 or 6. -/
def verifyScriptQueries : List Query :=
  if isWitnessProgram OP_6 scriptPubKey then
    if x.flags.p2wshDilithium then x.p2wshQueries scriptPubKey witness else []
  else if isWitnessProgram OP_0 scriptPubKey || isWitnessProgram OP_1 scriptPubKey then
    x.dilithiumQueries scriptPubKey witness
  else []

/-! ## The verdict depends on the verifier by the queries -/

/-- Another verifier that answers the queries alike makes no difference to what is computed. -/
def Decides (queries : List Query) {α : Type} (f : Spend → α) : Prop :=
  ∀ verify, (∀ q ∈ queries, verify q.1 q.2.1 q.2.2 = x.env.verify q.1 q.2.1 q.2.2) →
    f { x with env.verify := verify } = f x

/-- The answer to a verification is decided by its query. -/
theorem decides_verify (hash : Uint256) : x.Decides (verifyQueries sig pubkey hash) fun x =>
    isValidPubKey pubkey && sig.length = 2420 && x.env.verify pubkey hash.bytes sig := by
  intro verify h
  dsimp only
  by_cases hasked : (isValidPubKey pubkey && sig.length = 2420) = true
  · rw [verifyQueries, if_pos hasked] at h
    rw [h _ List.mem_cons_self]
  · rw [Bool.not_eq_true] at hasked
    rw [hasked, Bool.false_and, Bool.false_and]

/-- The answer to a signature check is decided by its queries. -/
theorem decides_checkSig : x.Decides (x.checkSigQueries script sig pubkey) fun x =>
    x.checker.checkSig sig pubkey script .witnessV0 := by
  intro verify h
  rw [checkSigQueries] at h
  dsimp only [checker, transactionSignatureChecker]
  cases hlast : sig.getLast? with
  | none => rfl
  | some nHashType =>
    rw [hlast] at h
    exact x.decides_verify _ _ _ verify h

/-- The opcode's verdict is decided by its queries. -/
theorem decides_checkSigFromStack : x.Decides (x.csfsQueries stack) fun x =>
    checkSigFromStack x.crypto x.flags stack := by
  intro verify h
  dsimp only
  rw [checkSigFromStack.eq_def, checkSigFromStack.eq_def]
  cases hflag : x.flags.csfs with
  | false => rfl
  | true =>
    rw [if_pos rfl, if_pos rfl]
    rcases stack with _ | ⟨key, _ | ⟨msg, _ | ⟨sig, rest⟩⟩⟩
    · rfl
    · rfl
    · rfl
    · rw [csfsQueries, hflag, if_pos rfl] at h
      exact bind_congr fun _ => bind_congr fun _ =>
        congrArg (require · _ >>= _) (x.decides_verify _ _ _ verify h)

/-- The opcode's verdict is decided by its queries. -/
theorem decides_checkDilithiumKeyHash : x.Decides (x.keyhashQueries script stack) fun x =>
    checkDilithiumKeyHash x.crypto x.checker x.flags .witnessV0 script stack := by
  intro verify h
  dsimp only
  rw [checkDilithiumKeyHash.eq_def, checkDilithiumKeyHash.eq_def]
  cases hflag : x.flags.dilithiumKeyhash with
  | false => rfl
  | true =>
    rw [if_pos rfl, if_pos rfl]
    rcases stack with _ | ⟨keyHash, _ | ⟨key, _ | ⟨sig, rest⟩⟩⟩
    · rfl
    · rfl
    · rfl
    · rw [keyhashQueries, hflag, Bool.true_and] at h
      -- a failed test before the signature is checked ends both runs
      refine bind_congr fun _ => bind_congr fun _ => require_bind_congr
        fun hhash : decide ((x.env.sha256 (stripKeyPrefix key)).bytes = keyHash) = true => ?_
      refine bind_congr fun _ => require_bind_congr fun hapo => ?_
      rw [hhash, hapo, Bool.and_self, if_pos rfl] at h
      exact congrArg (require · _ >>= _) (x.decides_checkSig _ _ _ verify h)

/-- Every opcode's verdict is decided by its queries. -/
theorem decides_executeOpcode : x.Decides (x.opcodeQueries script opcode stack) fun x =>
    executeOpcode x.crypto x.checker x.flags .witnessV0 script opcode stack := by
  intro verify h
  rw [opcodeQueries] at h
  by_cases hcsfs : opcode = OP_CHECKSIGFROMSTACKVERIFY
  · subst hcsfs
    exact x.decides_checkSigFromStack stack verify h
  rw [if_neg hcsfs] at h
  by_cases hkeyhash : opcode = OP_CHECKDILITHIUMKEYHASH
  · subst hkeyhash
    exact x.decides_checkDilithiumKeyHash script stack verify h
  · dsimp only
    rw [executeOpcode, executeOpcode, if_neg hcsfs, if_neg hkeyhash, if_neg hcsfs, if_neg hkeyhash]
    rfl

/-- The same with conditionals. -/
theorem decides_evalOpcode (data : Bytes) (s : ScriptState) :
    x.Decides (if s.fExec then x.opcodeQueries script opcode s.stack else []) fun x =>
      evalOpcode x.crypto x.checker x.flags .witnessV0 script opcode data s := by
  intro verify h
  dsimp only
  rw [evalOpcode, evalOpcode]
  cases hexec : s.fExec with
  | false => rfl
  | true =>
    rw [hexec, if_pos rfl] at h
    have heq := x.decides_executeOpcode script opcode s.stack verify h
    dsimp only at heq
    rw [heq]

/-- A run is decided by the queries of its opcodes. -/
theorem decides_evalLoop (fuel : Nat) (pc : Bytes) (s : ScriptState) :
    x.Decides (x.loopQueries script fuel pc s) fun x =>
      evalLoop x.crypto x.checker x.flags .witnessV0 script fuel pc s := by
  intro verify h
  induction fuel generalizing pc s with
  | zero => cases pc <;> rfl
  | succ fuel ih =>
    cases pc with
    | nil => rfl
    | cons b bs =>
      rw [loopQueries] at h
      dsimp only
      rw [evalLoop, evalLoop]
      cases hop : getOp (b :: bs) with
      | none => rfl
      | some r =>
        obtain ⟨opcode, data, rest⟩ := r
        rw [hop] at h
        obtain ⟨hstep, hrest⟩ := List.forall_mem_append.mp h
        have heq := x.decides_evalOpcode script opcode data s verify hstep
        dsimp only at heq ⊢
        rw [heq]
        refine bind_congr_of_ok fun s' hok => ih rest s' ?_
        rwa [hok] at hrest

/-- The single-key path is decided by its query. -/
theorem decides_runDilithium : x.Decides (x.dilithiumQueries scriptPubKey witness) fun x =>
    runDilithium x.crypto x.checker scriptPubKey witness := by
  intro verify h
  rcases witness with _ | _ | ⟨sig, _ | ⟨key, _ | ⟨item, rest⟩⟩⟩
  · rfl
  · rfl
  · rfl
  · rw [dilithiumQueries] at h
    refine require_bind_congr
      fun hhash : decide ((x.env.sha256 (stripKeyPrefix key)).bytes = scriptPubKey.drop 2) = true =>
        require_bind_congr fun hapo => ?_
    rw [hhash, hapo, Bool.and_self, if_pos rfl] at h
    exact congrArg (require · _) (x.decides_checkSig scriptPubKey sig key verify h)
  · rfl

/-- A version 6 spend is decided by the queries of its script. -/
theorem decides_runP2WSHDilithium : x.Decides (x.p2wshQueries scriptPubKey witness) fun x =>
    runP2WSHDilithium x.crypto x.checker x.flags scriptPubKey witness := by
  intro verify h
  dsimp only
  rw [runP2WSHDilithium.eq_def, runP2WSHDilithium.eq_def]
  rw [p2wshQueries.eq_def] at h
  generalize (witness.getD []).reverse = items at h ⊢
  rcases items with _ | ⟨item, _ | ⟨witnessScript, stack⟩⟩
  · rfl
  · rfl
  · dsimp only at h
    refine require_bind_congr
      fun hhash : decide ((x.env.sha256 witnessScript).bytes = scriptPubKey.drop 2) = true => ?_
    refine require_bind_congr fun hsize => bind_congr_of_ok fun _ hscan => ?_
    rw [hhash, hsize, decide_eq_true hscan, Bool.and_self, Bool.and_self, if_pos rfl] at h
    have heq := x.decides_evalLoop witnessScript _ witnessScript ⟨stack, []⟩ verify h
    dsimp only at heq
    rw [evalScript, evalScript, heq]

variable {x script scriptPubKey opcode witness}

/-- `VerifyScript` on the three versions that verify signatures. -/
theorem verifyScript_of_version (hop : opcode ∈ [OP_0, OP_1, OP_6])
    (hprogram : isWitnessProgram opcode scriptPubKey) (crypto : ScriptCrypto)
    (checker : SignatureChecker) (flags : VerifyFlags) (scriptSig : CScript) :
    checker.verifyScript crypto flags scriptSig scriptPubKey witness =
      if opcode = OP_6 then
        skipIf (!flags.p2wshDilithium) (runP2WSHDilithium crypto checker flags scriptPubKey witness)
      else runDilithium crypto checker scriptPubKey witness := by
  have hhead := head?_of_isWitnessProgram hprogram
  rw [List.head?_eq_getElem?] at hhead
  fin_cases hop <;>
    simp +decide [SignatureChecker.verifyScript, isWitnessProgram_eq hprogram, hhead,
      List.head?_eq_getElem?]

/-- `VerifyScript` depends on the verifier by the queries alone. -/
theorem decides_verifyScript (x : Spend) (hop : opcode ∈ [OP_0, OP_1, OP_6])
    (hprogram : isWitnessProgram opcode scriptPubKey) (scriptSig : CScript) :
    x.Decides (x.verifyScriptQueries scriptPubKey witness) fun x =>
      x.checker.verifyScript x.crypto x.flags scriptSig scriptPubKey witness := by
  intro verify h
  rw [verifyScriptQueries, isWitnessProgram_eq hprogram, isWitnessProgram_eq hprogram,
    isWitnessProgram_eq hprogram] at h
  dsimp only
  rw [verifyScript_of_version hop hprogram, verifyScript_of_version hop hprogram]
  by_cases hsix : opcode = OP_6
  · rw [if_pos hsix, if_pos hsix]
    rw [decide_eq_true hsix, if_pos rfl] at h
    cases hflag : x.flags.p2wshDilithium with
    | false => rfl
    | true =>
      rw [hflag, if_pos rfl] at h
      exact x.decides_runP2WSHDilithium scriptPubKey witness verify h
  · rw [if_neg hsix, if_neg hsix]
    refine x.decides_runDilithium scriptPubKey witness verify ?_
    rwa [decide_eq_false hsix, if_neg Bool.false_ne_true, if_pos] at h
    simpa [hsix] using hop

/-! ## The charge -/

theorem length_verifyQueries_le (hash : Uint256) : (verifyQueries sig pubkey hash).length ≤ 1 := by
  rw [verifyQueries]
  split
  · exact le_refl 1
  · exact Nat.zero_le 1

theorem length_checkSigQueries_le : (x.checkSigQueries script sig pubkey).length ≤ 1 := by
  rw [checkSigQueries]
  split
  · exact Nat.zero_le 1
  · exact length_verifyQueries_le ..

theorem length_dilithiumQueries_le : (x.dilithiumQueries scriptPubKey witness).length ≤ 1 := by
  rw [dilithiumQueries.eq_def]
  split
  · split
    · exact length_checkSigQueries_le ..
    · exact Nat.zero_le 1
  · exact Nat.zero_le 1

/-- When the single-key path asks the verifier. -/
theorem dilithiumQueries_ne_nil :
    x.dilithiumQueries scriptPubKey witness ≠ [] ↔
      ∃ sig pubkey, witness = some [sig, pubkey] ∧
        (x.env.sha256 (stripKeyPrefix pubkey)).bytes = scriptPubKey.drop 2 ∧
        isAPOSigHashType sig = false ∧ isValidPubKey (stripKeyPrefix pubkey) ∧
        sig.length = 2421 := by
  rcases witness with _ | _ | ⟨sig, _ | ⟨key, _ | ⟨item, rest⟩⟩⟩
  · simp [dilithiumQueries]
  · simp [dilithiumQueries]
  · simp [dilithiumQueries]
  · rcases List.eq_nil_or_concat sig with rfl | ⟨init, nHashType, rfl⟩
    · simp [dilithiumQueries, checkSigQueries]
    · simp [dilithiumQueries, checkSigQueries, verifyQueries, and_assoc]
  · simp [dilithiumQueries]

end Spend

/-- An opcode that verifies a signature, where its deployment is active. -/
def activeSigOp (flags : ScriptFlags) (opcode : UInt8) : Bool :=
  (flags.csfs && opcode = OP_CHECKSIGFROMSTACKVERIFY) ||
    (flags.dilithiumKeyhash && opcode = OP_CHECKDILITHIUMKEYHASH)

/-- An opcode that `CountWitnessScriptSigOps` counts. -/
def isSigOp (flags : ScriptFlags) (opcode : UInt8) : Bool :=
  opcode ∈ [OP_CHECKSIG, OP_CHECKSIGVERIFY, OP_CHECKMULTISIG, OP_CHECKMULTISIGVERIFY] ||
    activeSigOp flags opcode

/-- The opcodes that reading a script comes by. -/
def opcodesOf : Nat → Bytes → List UInt8
  | 0, _ => []
  | fuel + 1, pc =>
    match getOp pc with
    | none => []
    | some (opcode, _, rest) => opcode :: opcodesOf fuel rest

/-- A version 0 spend whose signature is verified, with a key in which no opcode is read
that counts. -/
def UnchargedSpend (env : Env) (flags : ScriptFlags) (scriptPubKey : CScript)
    (witness : Option (List Bytes)) : Prop :=
  isWitnessProgram OP_0 scriptPubKey = true ∧ ∃ sig pubkey, witness = some [sig, pubkey] ∧
    (env.sha256 (stripKeyPrefix pubkey)).bytes = scriptPubKey.drop 2 ∧
    isAPOSigHashType sig = false ∧ isValidPubKey (stripKeyPrefix pubkey) = true ∧
    sig.length = 2421 ∧ ∀ opcode ∈ opcodesOf pubkey.length pubkey, isSigOp flags opcode = false

variable {flags : ScriptFlags} {lastOpcode opcode : UInt8} {x : Spend} {script : CScript}

/-- An opcode is free exactly if it verifies nothing. -/
theorem sigOpsOf_eq_zero :
    sigOpsOf true (activeSigOp flags) lastOpcode opcode = 0 ↔ isSigOp flags opcode = false := by
  have hdecode : OP_1 ≤ lastOpcode → decodeOpN lastOpcode ≠ 0 := by
    intro hle
    have hnat : 0x51 ≤ lastOpcode.toNat := hle
    rw [decodeOpN]
    split
    · next hzero =>
      rw [hzero] at hnat
      exact absurd hnat (by decide)
    · omega
  rw [sigOpsOf, isSigOp]
  split_ifs with hsig hmulti hlast hactive
  · simp only [Bool.or_eq_true, decide_eq_true_eq] at hsig
    rcases hsig with rfl | rfl <;> simp
  · simp only [Bool.or_eq_true, decide_eq_true_eq] at hmulti
    simp only [Bool.and_eq_true, decide_eq_true_eq] at hlast
    rcases hmulti with rfl | rfl <;> simp [hdecode hlast.1.2]
  · simp only [Bool.or_eq_true, decide_eq_true_eq] at hmulti
    rcases hmulti with rfl | rfl <;> simp [MAX_PUBKEYS_PER_MULTISIG]
  · simp [hactive]
  · simp only [Bool.or_eq_true, decide_eq_true_eq, not_or] at hsig hmulti
    simp [hsig, hmulti, hactive]

/-- A script is free exactly if none of its opcodes verifies anything. -/
theorem countWitnessScriptSigOps_eq_zero :
    countWitnessScriptSigOps flags script = 0 ↔
      ∀ opcode ∈ opcodesOf script.length script, isSigOp flags opcode = false := by
  have hloop : ∀ (fuel : Nat) (pc : Bytes) (lastOpcode : UInt8),
      countSigOps true (activeSigOp flags) fuel pc lastOpcode = 0 ↔
        ∀ opcode ∈ opcodesOf fuel pc, isSigOp flags opcode = false := by
    intro fuel
    induction fuel with
    | zero => exact fun _ _ => iff_of_true rfl fun _ h => absurd h List.not_mem_nil
    | succ fuel ih =>
      intro pc lastOpcode
      rw [countSigOps, opcodesOf]
      cases getOp pc with
      | none => exact iff_of_true rfl fun _ h => absurd h List.not_mem_nil
      | some r =>
        obtain ⟨opcode, data, rest⟩ := r
        dsimp only
        rw [Nat.add_eq_zero_iff, sigOpsOf_eq_zero, ih, List.forall_mem_cons]
  exact hloop script.length script OP_INVALIDOPCODE

/-- An opcode asks no more than it is charged. -/
theorem Spend.length_opcodeQueries_le (stack : ScriptStack) :
    (x.opcodeQueries script opcode stack).length ≤
      sigOpsOf true (activeSigOp x.flags.toScriptFlags) lastOpcode opcode := by
  have hpaid : isSigOp x.flags.toScriptFlags opcode = true →
      1 ≤ sigOpsOf true (activeSigOp x.flags.toScriptFlags) lastOpcode opcode := by
    intro h
    rw [Nat.one_le_iff_ne_zero, ne_eq, sigOpsOf_eq_zero, h]
    decide
  rw [opcodeQueries]
  split_ifs with hcsfs hkeyhash
  · rw [csfsQueries.eq_def]
    split
    · split
      · next hflag =>
        exact (length_verifyQueries_le ..).trans
          (hpaid (by simp [isSigOp, activeSigOp, hflag, hcsfs]))
      · exact Nat.zero_le _
    · exact Nat.zero_le _
  · rw [keyhashQueries.eq_def]
    split
    · split
      · next htests =>
        have hflag := (Bool.and_eq_true_iff.mp htests).1
        exact (length_checkSigQueries_le ..).trans
          (hpaid (by simp [isSigOp, activeSigOp, hflag, hkeyhash]))
      · exact Nat.zero_le _
    · exact Nat.zero_le _
  · exact Nat.zero_le _

/-- A run asks no more than the opcodes it comes by are charged. -/
theorem Spend.length_loopQueries_le (fuel : Nat) (pc : Bytes) (s : ScriptState)
    (lastOpcode : UInt8) :
    (x.loopQueries script fuel pc s).length ≤
      countSigOps true (activeSigOp x.flags.toScriptFlags) fuel pc lastOpcode := by
  induction fuel generalizing pc s lastOpcode with
  | zero => exact le_refl 0
  | succ fuel ih =>
    rw [loopQueries, countSigOps]
    cases getOp pc with
    | none => exact le_refl 0
    | some r =>
      obtain ⟨opcode, data, rest⟩ := r
      dsimp only
      rw [List.length_append]
      apply Nat.add_le_add
      · split
        · exact length_opcodeQueries_le s.stack
        · exact Nat.zero_le _
      · split
        · exact ih rest _ opcode
        · exact Nat.zero_le _

/-- The version and program of such a script. -/
theorem witnessProgramOf_of_version (hop : opcode ∈ [OP_0, OP_1, OP_6])
    (hprogram : isWitnessProgram opcode script) :
    witnessProgramOf script = some (decodeOpN opcode, script.drop 2) ∧
      (script.drop 2).length = 32 := by
  simp only [isWitnessProgram, Bool.and_eq_true, decide_eq_true_eq] at hprogram
  obtain ⟨⟨hlen, hop'⟩, hsize⟩ := hprogram
  refine ⟨?_, by rw [List.length_drop, hlen]⟩
  rcases script with _ | ⟨a, _ | ⟨b, program⟩⟩
  · cases hlen
  · cases hlen
  · obtain rfl : a = opcode := hop'
    obtain rfl : b = 32 := hsize
    rw [witnessProgramOf, if_pos]
    · rfl
    · rw [hlen]
      fin_cases hop <;> decide

/-- The charge covers the work for every spend but those. -/
theorem sigops_cover_work_iff (x : Spend) (hwitness : x.flags.witness = true)
    (scriptSig scriptPubKey : CScript) (witness : Option (List Bytes)) :
    (x.verifyScriptQueries scriptPubKey witness).length ≤
        countWitnessSigOps x.flags.toScriptFlags scriptSig scriptPubKey witness ↔
      ¬ UnchargedSpend x.env x.flags.toScriptFlags scriptPubKey witness := by
  rw [Spend.verifyScriptQueries, countWitnessSigOps, hwitness, Bool.not_true,
    if_neg Bool.false_ne_true]
  by_cases hsix : isWitnessProgram OP_6 scriptPubKey = true
  · obtain ⟨hsome, -⟩ := witnessProgramOf_of_version (by decide) hsix
    have hzero : isWitnessProgram OP_0 scriptPubKey = false := isWitnessProgram_eq hsix
    rw [if_pos hsix, hsome]
    refine iff_of_true ?_ fun h => by simp [UnchargedSpend, hzero] at h
    cases hflag : x.flags.p2wshDilithium with
    | false => exact Nat.zero_le _
    | true =>
      rw [if_pos rfl, Spend.p2wshQueries.eq_def]
      show _ ≤ match (witness.getD []).reverse with
        | _ :: script :: _ => countWitnessScriptSigOps x.flags.toScriptFlags script
        | _ => 0
      rcases (witness.getD []).reverse with _ | ⟨item, _ | ⟨witnessScript, stack⟩⟩
      · exact Nat.zero_le _
      · exact Nat.zero_le _
      · dsimp only
        split
        · exact Spend.length_loopQueries_le _ _ _ OP_INVALIDOPCODE
        · exact Nat.zero_le _
  rw [if_neg hsix]
  by_cases hone : isWitnessProgram OP_1 scriptPubKey = true
  · obtain ⟨hsome, -⟩ := witnessProgramOf_of_version (by decide) hone
    have hzero : isWitnessProgram OP_0 scriptPubKey = false := isWitnessProgram_eq hone
    rw [hzero, hone, Bool.or_true, if_pos rfl, hsome]
    exact iff_of_true (Spend.length_dilithiumQueries_le)
      fun h => by simp [UnchargedSpend, hzero] at h
  by_cases hzero : isWitnessProgram OP_0 scriptPubKey = true
  · obtain ⟨hsome, hlen⟩ := witnessProgramOf_of_version (by decide) hzero
    rw [hzero, Bool.true_or, if_pos rfl, hsome]
    dsimp only
    rw [if_pos (show decodeOpN OP_0 = 0 from rfl), if_neg (by rw [hlen]; decide), if_pos hlen]
    by_cases hasked : x.dilithiumQueries scriptPubKey witness = []
    · rw [hasked]
      refine iff_of_true (Nat.zero_le _) ?_
      rintro ⟨-, sig, key, hw, hhash, hapo, hvalid, hsize, -⟩
      exact Spend.dilithiumQueries_ne_nil.mpr ⟨sig, key, hw, hhash, hapo, hvalid, hsize⟩ hasked
    · have hcount := le_antisymm (Spend.length_dilithiumQueries_le)
        (List.length_pos_iff.mpr hasked)
      obtain ⟨sig, key, rfl, hhash, hapo, hvalid, hsize⟩ := Spend.dilithiumQueries_ne_nil.mp hasked
      rw [hcount]
      show 1 ≤ countWitnessScriptSigOps x.flags.toScriptFlags key ↔ _
      rw [Nat.one_le_iff_ne_zero, ne_eq, countWitnessScriptSigOps_eq_zero]
      refine not_congr ⟨fun hnone => ⟨hzero, sig, key, rfl, hhash, hapo, hvalid, hsize, hnone⟩, ?_⟩
      rintro ⟨-, sig', key', heq, -, -, -, -, hnone⟩
      obtain ⟨rfl, rfl⟩ : sig = sig' ∧ key = key' := by simpa using heq
      exact hnone
  · rw [if_neg (by simp [hzero, hone])]
    exact iff_of_true (Nat.zero_le _) fun h => hzero h.1

namespace Spend

/-- A spend under an environment in which every signature verifies, and hashes are null. -/
def verifying : Spend :=
  ⟨Sample.env fun _ _ _ => true, Sample.crypto.toProofVerifiers,
    ⟨2, [⟨⟨Uint256.null, 0⟩, [], 0xffffffff, []⟩], [], 0⟩, 0, 0, Sample.genesisFlags⟩

/-- A program of zero bytes, of a witness version. -/
def programOf (op : UInt8) : CScript := op :: 32 :: Uint256.null.bytes

/-- A signature, and the key of zero bytes. -/
def sigAndZeroKey : Option (List Bytes) :=
  some [List.replicate 2420 0 ++ [1], List.replicate 1312 0]

/-- A spend of version 1. -/
theorem sigops_cover_work_single_key :
    (verifying.verifyScriptQueries (programOf OP_1) sigAndZeroKey).length ≤
      countWitnessSigOps verifying.flags.toScriptFlags [] (programOf OP_1) sigAndZeroKey := by
  refine (sigops_cover_work_iff verifying rfl [] (programOf OP_1) sigAndZeroKey).mpr ?_
  rintro ⟨hzero, -⟩
  exact absurd hzero (by decide)

/-- A spend of version 1. -/
theorem decides_verifyScript_single_key :
    verifying.Decides (verifying.verifyScriptQueries (programOf OP_1) sigAndZeroKey) fun x =>
      x.checker.verifyScript x.crypto x.flags [] (programOf OP_1) sigAndZeroKey :=
  decides_verifyScript verifying (show OP_1 ∈ _ by decide) (by decide) []

/-- A spend of version 0 with a key of zero bytes is accepted after one verification, and is
charged nothing; the same spend of version 1 is charged one. -/
theorem key_read_as_script :
    verifying.checker.verifyScript verifying.crypto verifying.flags [] (programOf OP_0)
        sigAndZeroKey = .ok () ∧
      (verifying.verifyScriptQueries (programOf OP_0) sigAndZeroKey).length = 1 ∧
      countWitnessSigOps verifying.flags.toScriptFlags [] (programOf OP_0) sigAndZeroKey = 0 ∧
      countWitnessSigOps verifying.flags.toScriptFlags [] (programOf OP_1) sigAndZeroKey = 1 := by
  refine ⟨?_, ?_, ?_, ?_⟩
  · decide +kernel
  · decide +kernel
  · decide +kernel
  · decide +kernel

end Spend

end Soqucoin
