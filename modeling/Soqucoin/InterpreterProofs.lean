import Soqucoin.Interpreter

/-! # The interpreter under fewer flags — deployments only add requirements

A deployment that sets a script flag must not let a spend through that fails while the flag is
clear.  The versions a flag switches on are anyone-can-spend while it is clear; the
aggregate-proof versions run one opcode whose handler reads no deployment flag; a witness v6
script that passes the scan holds no opcode of the assets.  `verifyScript_of_relaxes` is the law
for any flag set and any relaxation of it. -/

namespace Soqucoin

open CheckedLoop

variable {op : UInt8} {B : VerifyFlags} {a b : Bool}

section Interpreter

variable {crypto : ScriptCrypto} {checker : SignatureChecker}

/-! ## Scripts of one opcode -/

theorem getOp_single (hop : OP_16 < op) : getOp [op] = some (op, [], []) := by
  have hpush : OP_PUSHDATA4 < OP_16 := by decide
  rw [getOp, if_neg (UInt8.not_le.mpr (UInt8.lt_trans hpush hop))]

/-- A script of one opcode. -/
theorem evalScript_single {flags : VerifyFlags} {sigversion : SigVersion} (hop : OP_16 < op)
    (hcond : op ∉ [OP_IF, OP_NOTIF, OP_ELSE, OP_ENDIF]) (stack : ScriptStack) :
    evalScript crypto checker flags sigversion [op] stack =
      (executeOpcode crypto checker flags sigversion [op] op stack >>= fun stack =>
        require (!stack.isEmpty) .evalFalse >>= fun _ => .ok stack) := by
  simp only [List.mem_cons, List.not_mem_nil, or_false, not_or] at hcond
  obtain ⟨hif, hnotif, helse, hendif⟩ := hcond
  have hturn : evalOpcode crypto checker flags sigversion [op] op [] ⟨stack, []⟩ =
      (executeOpcode crypto checker flags sigversion [op] op stack >>= fun stack =>
        .ok ⟨stack, []⟩) := by
    simp [evalOpcode, hop, hif, hnotif, helse, hendif, ScriptState.fExec, require]
    rfl
  show (evalLoop crypto checker flags sigversion [op] 1 [op] ⟨stack, []⟩ >>= _) = _
  rw [evalLoop, getOp_single hop]
  simp only [hturn, bind_assoc, evalLoop]
  cases executeOpcode crypto checker flags sigversion [op] op stack with
  | error e => rfl
  | ok stack =>
    show (require (!flags.v6Controlflow || true) ScriptError.unbalancedConditional >>= _) = _
    rw [Bool.or_true]
    rfl

/-- An opcode that reads no flag runs alike under all. -/
theorem runWitness_congr {A : VerifyFlags} (op : UInt8) (hop : OP_16 < op)
    (hcond : op ∉ [OP_IF, OP_NOTIF, OP_ELSE, OP_ENDIF])
    (hsame : ∀ stack, executeOpcode crypto checker B .witnessV0 [op] op stack =
      executeOpcode crypto checker A .witnessV0 [op] op stack)
    (minItems : Nat) (witness : Option (List Bytes)) :
    runWitness crypto checker B minItems op witness =
      runWitness crypto checker A minItems op witness := by
  cases witness with
  | none => rfl
  | some items =>
    simp only [runWitness, evalScript_single hop hcond, hsame]

theorem runWitness_checkPatAgg (A B : VerifyFlags) (witness : Option (List Bytes)) :
    runWitness crypto checker B 4 OP_CHECKPATAGG witness =
      runWitness crypto checker A 4 OP_CHECKPATAGG witness := by
  refine runWitness_congr OP_CHECKPATAGG (by decide) (by decide) (fun stack => ?_) 4 witness
  show checkPatAgg crypto stack = checkPatAgg crypto stack
  rfl

/-- OP_CHECKFOLDPROOF reads only the LatticeFold flag. -/
theorem runWitness_checkFoldProof {A : VerifyFlags} (h : B.latticefold = A.latticefold)
    (witness : Option (List Bytes)) :
    runWitness crypto checker B 4 OP_CHECKFOLDPROOF witness =
      runWitness crypto checker A 4 OP_CHECKFOLDPROOF witness := by
  refine runWitness_congr OP_CHECKFOLDPROOF (by decide) (by decide) (fun stack => ?_) 4 witness
  show checkFoldProof crypto B [OP_CHECKFOLDPROOF] stack =
    checkFoldProof crypto A [OP_CHECKFOLDPROOF] stack
  simp only [checkFoldProof, h]

/-- The USDSOQ opcodes look at the flag of that deployment alone. -/
theorem runWitness_usdsoq {A : VerifyFlags} (h : B.usdsoq = A.usdsoq)
    (hop : op ∈ [OP_USDSOQ_MINT, OP_USDSOQ_BURN, OP_USDSOQ_FREEZE, OP_USDSOQ_ROTATE])
    (witness : Option (List Bytes)) :
    runWitness crypto checker B 4 op witness = runWitness crypto checker A 4 op witness := by
  have hauth : ∀ tag stack, usdsoqAuthorityOp B tag stack = usdsoqAuthorityOp A tag stack := by
    intro tag stack
    rw [usdsoqAuthorityOp, usdsoqAuthorityOp, h]
  simp only [List.mem_cons, List.not_mem_nil, or_false] at hop
  rcases hop with rfl | rfl | rfl | rfl
  · exact runWitness_congr OP_USDSOQ_MINT (by decide) (by decide) (hauth 1) 4 witness
  · exact runWitness_congr OP_USDSOQ_BURN (by decide) (by decide) (hauth 2) 4 witness
  · exact runWitness_congr OP_USDSOQ_FREEZE (by decide) (by decide) (hauth 3) 4 witness
  · exact runWitness_congr OP_USDSOQ_ROTATE (by decide) (by decide) (hauth 4) 4 witness

theorem usdsoqOpcode_mem {tagItem : Bytes} (h : usdsoqOpcode tagItem = some op) :
    op ∈ [OP_USDSOQ_MINT, OP_USDSOQ_BURN, OP_USDSOQ_FREEZE, OP_USDSOQ_ROTATE] := by
  unfold usdsoqOpcode at h
  split_ifs at h <;> cases h <;> decide

/-- The USDSOQ opcodes read only their own flag. -/
theorem runUSDSOQWitness_congr {A : VerifyFlags} (h : B.usdsoq = A.usdsoq)
    (witness : Option (List Bytes)) :
    runUSDSOQWitness crypto checker B witness = runUSDSOQWitness crypto checker A witness := by
  cases witness with
  | none => rfl
  | some items =>
    simp only [runUSDSOQWitness]
    cases hop : usdsoqOpcode (items.headD []) with
    | none => rfl
    | some op => simp only [runWitness_usdsoq h (usdsoqOpcode_mem hop)]

/-- No verifier of range proofs ships: with the flag set nothing passes. -/
theorem runWitness_soquobscura_ne_ok (flags : VerifyFlags) (witness : Option (List Bytes)) :
    runWitness crypto checker flags 3 OP_SOQUOBSCURA_RANGEPROOF witness ≠ .ok () := by
  intro h
  cases witness with
  | none => cases h
  | some items =>
    replace h := after_require h
    obtain ⟨stack, hstack, -⟩ := bind_eq_ok.mp h
    rw [evalScript_single (by decide) (by decide)] at hstack
    obtain ⟨stack, hstack, -⟩ := bind_eq_ok.mp hstack
    obtain ⟨-, h⟩ := require_bind_eq_ok.mp
      (show soquobscuraRangeproof flags = .ok stack from hstack)
    cases h

/-! ## Witness v6 scripts -/

/-- A flag set with the flags of the assets and of range proofs replaced. -/
def VerifyFlags.withAssets (A : VerifyFlags) (soquobscura usdsoq btcsoq : Bool) : VerifyFlags :=
  { A with soquobscura := soquobscura, usdsoq := usdsoq, btcsoq := btcsoq }

section WithAssets

variable {A : VerifyFlags} {soquobscura usdsoq btcsoq : Bool} {sigversion : SigVersion}
  {script : CScript}

/-- No opcode of a version 6 script looks at the flags of the assets. -/
theorem executeOpcode_withAssets (hop : isWitnessV6ScriptOpcode op) (stack : ScriptStack) :
    executeOpcode crypto checker (A.withAssets soquobscura usdsoq btcsoq) sigversion script op
        stack = executeOpcode crypto checker A sigversion script op stack := by
  have hassets : ∀ op' ∈ [OP_SOQUOBSCURA_RANGEPROOF, OP_USDSOQ_MINT, OP_USDSOQ_BURN,
      OP_USDSOQ_FREEZE, OP_USDSOQ_ROTATE], isWitnessV6ScriptOpcode op' = false := by
    decide +kernel
  have hne : ∀ op' ∈ [OP_SOQUOBSCURA_RANGEPROOF, OP_USDSOQ_MINT, OP_USDSOQ_BURN,
      OP_USDSOQ_FREEZE, OP_USDSOQ_ROTATE], op ≠ op' := by
    rintro op' hmem rfl
    rw [hassets op hmem] at hop
    cases hop
  simp only [List.mem_cons, List.not_mem_nil, or_false, forall_eq_or_imp, forall_eq] at hne
  obtain ⟨hrange, hmint, hburn, hfreeze, hrotate⟩ := hne
  simp only [executeOpcode, if_neg hrange, if_neg hmint, if_neg hburn, if_neg hfreeze,
    if_neg hrotate]
  rfl

theorem evalOpcode_withAssets (hop : isWitnessV6ScriptOpcode op) (vchPushValue : Bytes)
    (s : ScriptState) :
    evalOpcode crypto checker (A.withAssets soquobscura usdsoq btcsoq) sigversion script op
        vchPushValue s = evalOpcode crypto checker A sigversion script op vchPushValue s := by
  simp only [evalOpcode, executeOpcode_withAssets hop]
  rfl

/-- So neither does a run of one. -/
theorem evalLoop_withAssets (fuel : Nat) (pc : Bytes) (s : ScriptState)
    (hscan : scanWitnessScript fuel pc = .ok ()) :
    evalLoop crypto checker (A.withAssets soquobscura usdsoq btcsoq) sigversion script fuel pc s =
      evalLoop crypto checker A sigversion script fuel pc s := by
  induction fuel generalizing pc s with
  | zero =>
    cases pc with
    | nil => rfl
    | cons b bs => rfl
  | succ fuel ih =>
    cases pc with
    | nil => rfl
    | cons b bs =>
      rw [scanWitnessScript] at hscan
      rw [evalLoop, evalLoop]
      cases hget : getOp (b :: bs) with
      | none => rfl
      | some p =>
        obtain ⟨op, vchPushValue, rest⟩ := p
        rw [hget] at hscan
        replace hscan := after_require hscan
        obtain ⟨hop, hscan⟩ := require_bind_eq_ok.mp hscan
        simp only [evalOpcode_withAssets hop]
        congr 1
        funext s'
        exact ih rest s' hscan

theorem evalScript_withAssets (stack : ScriptStack)
    (hscan : scanWitnessScript script.length script = .ok ()) :
    evalScript crypto checker (A.withAssets soquobscura usdsoq btcsoq) sigversion script stack =
      evalScript crypto checker A sigversion script stack := by
  simp only [evalScript, evalLoop_withAssets script.length script _ hscan]
  rfl

/-- A version 6 spend stays valid whatever assets are active. -/
theorem runP2WSHDilithium_withAssets {scriptPubKey : CScript} {witness : Option (List Bytes)}
    (h : runP2WSHDilithium crypto checker A scriptPubKey witness = .ok ()) :
    runP2WSHDilithium crypto checker (A.withAssets soquobscura usdsoq btcsoq) scriptPubKey
      witness = .ok () := by
  unfold runP2WSHDilithium at h ⊢
  split at h
  · next witnessScript stack _ =>
      obtain ⟨hhash, h⟩ := require_bind_eq_ok.mp h
      obtain ⟨hsize, h⟩ := require_bind_eq_ok.mp h
      obtain ⟨u, hscan, h⟩ := bind_eq_ok.mp h
      refine require_bind_eq_ok.mpr ⟨hhash, require_bind_eq_ok.mpr ⟨hsize, ?_⟩⟩
      refine bind_eq_ok.mpr ⟨u, hscan, ?_⟩
      rw [evalScript_withAssets stack hscan]
      exact h
  · cases h

end WithAssets

/-! ## The law -/

/-- `B` requires no more than `A`: it enforces the aggregate proofs as `A` does,
    of the assets and range proofs no more than `A`, and runs v6 scripts either
    not at all or with the opcodes of `A`. -/
structure VerifyFlags.Relaxes (B A : VerifyFlags) : Prop where
  pat : B.pat = A.pat
  latticefold : B.latticefold = A.latticefold
  soquobscura : B.soquobscura = true → A.soquobscura = true
  usdsoq : B.usdsoq = true → A.usdsoq = true
  btcsoq : B.btcsoq = true → A.btcsoq = true
  p2wshDilithium : B.p2wshDilithium = true →
    B = A.withAssets B.soquobscura B.usdsoq B.btcsoq

theorem skipIf_relaxed {c c' : Except ScriptError Unit} (hba : b → a)
    (hc : b → c = .ok () → c' = .ok ()) (h : skipIf (!a) c = .ok ()) :
    skipIf (!b) c' = .ok () := by
  rw [skipIf_eq_ok] at h ⊢
  intro hb
  rw [Bool.not_eq_false'] at hb
  exact hc hb (h (by rw [hba hb]; rfl))

/-- Flags that ask for less accept what flags that ask for more do. -/
theorem verifyScript_of_relaxes {A : VerifyFlags} (hBA : B.Relaxes A)
    {scriptSig scriptPubKey : CScript} {witness : Option (List Bytes)}
    (h : checker.verifyScript crypto A scriptSig scriptPubKey witness = .ok ()) :
    checker.verifyScript crypto B scriptSig scriptPubKey witness = .ok () := by
  unfold SignatureChecker.verifyScript at h ⊢
  by_cases h2 : isWitnessProgram OP_2 scriptPubKey = true
  · rw [if_pos h2] at h ⊢
    rw [hBA.pat, runWitness_checkPatAgg A B]
    exact h
  rw [if_neg h2] at h ⊢
  by_cases h3 : isWitnessProgram OP_3 scriptPubKey = true
  · rw [if_pos h3] at h ⊢
    rw [hBA.latticefold, runWitness_checkFoldProof hBA.latticefold]
    exact h
  rw [if_neg h3] at h ⊢
  by_cases h4 : isWitnessProgram OP_4 scriptPubKey = true
  · rw [if_pos h4] at h ⊢
    refine skipIf_relaxed hBA.soquobscura ?_ h
    intro _ hrun
    exact absurd hrun (runWitness_soquobscura_ne_ok A witness)
  rw [if_neg h4] at h ⊢
  by_cases h5 : isWitnessProgram OP_5 scriptPubKey = true
  · rw [if_pos h5] at h ⊢
    refine skipIf_relaxed hBA.usdsoq ?_ h
    intro hB hrun
    rw [runUSDSOQWitness_congr (hB.trans (hBA.usdsoq hB).symm)]
    exact hrun
  rw [if_neg h5] at h ⊢
  by_cases h6 : isWitnessProgram OP_6 scriptPubKey = true
  · rw [if_pos h6] at h ⊢
    -- where `B` runs v6 scripts it is `A` up to flags such a script cannot reach
    refine skipIf_relaxed (fun hB => ?_) ?_ h
    · rw [hBA.p2wshDilithium hB] at hB
      exact hB
    · intro hB hrun
      rw [hBA.p2wshDilithium hB]
      exact runP2WSHDilithium_withAssets hrun
  rw [if_neg h6] at h ⊢
  by_cases h7 : isWitnessProgram OP_7 scriptPubKey = true
  · rw [if_pos h7] at h ⊢
    exact skipIf_relaxed hBA.usdsoq (fun _ hrun => hrun) h
  rw [if_neg h7] at h ⊢
  by_cases h8 : isWitnessProgram OP_8 scriptPubKey = true
  · rw [if_pos h8] at h ⊢
    exact skipIf_relaxed hBA.btcsoq (fun _ hrun => hrun) h
  rw [if_neg h8] at h ⊢
  by_cases h9 : isWitnessProgram OP_9 scriptPubKey = true
  · rw [if_pos h9] at h ⊢
    exact skipIf_relaxed hBA.btcsoq (fun _ hrun => hrun) h
  rw [if_neg h9] at h ⊢
  by_cases h10 : isWitnessProgram OP_10 scriptPubKey = true
  · rw [if_pos h10, ← Bool.not_and] at h ⊢
    refine skipIf_relaxed ?_ (fun _ hrun => hrun) h
    simp only [Bool.and_eq_true]
    exact fun hB => ⟨hBA.usdsoq hB.1, hBA.soquobscura hB.2⟩
  rw [if_neg h10] at h ⊢
  -- the remaining versions read no flag
  exact h

/-! ## Deployments -/

/-- The flag a deployment sets; the UTXO cost sets none. -/
def VerifyFlags.deployment (flags : VerifyFlags) : Deployment → Bool
  | .soquobscura => flags.soquobscura
  | .usdsoq => flags.usdsoq
  | .btcsoq => flags.btcsoq
  | .ctv => flags.ctv
  | .apo => flags.apo
  | .csfs => flags.csfs
  | .p2wshDilithium => flags.p2wshDilithium
  | .dilithiumKeyhash => flags.dilithiumKeyhash
  | .v6Controlflow => flags.v6Controlflow
  | .utxoCost => false

/-- No deployment is active. -/
def VerifyFlags.Genesis (flags : VerifyFlags) : Prop := ∀ d, flags.deployment d = false

/-- A flag set with the flags of some deployments added. -/
def VerifyFlags.deploy (flags : VerifyFlags) (D : Deployment → Bool) : VerifyFlags :=
  { flags with
    soquobscura := flags.soquobscura || D .soquobscura
    usdsoq := flags.usdsoq || D .usdsoq
    btcsoq := flags.btcsoq || D .btcsoq
    ctv := flags.ctv || D .ctv
    apo := flags.apo || D .apo
    csfs := flags.csfs || D .csfs
    p2wshDilithium := flags.p2wshDilithium || D .p2wshDilithium
    dilithiumKeyhash := flags.dilithiumKeyhash || D .dilithiumKeyhash
    v6Controlflow := flags.v6Controlflow || D .v6Controlflow }

/-- With no deployment active the flags require the least. -/
theorem VerifyFlags.Genesis.relaxes {G : VerifyFlags} (hG : G.Genesis) (D : Deployment → Bool) :
    G.Relaxes (G.deploy D) where
  pat := rfl
  latticefold := rfl
  soquobscura h := absurd h (Bool.eq_false_iff.mp (hG .soquobscura))
  usdsoq h := absurd h (Bool.eq_false_iff.mp (hG .usdsoq))
  btcsoq h := absurd h (Bool.eq_false_iff.mp (hG .btcsoq))
  p2wshDilithium h := absurd h (Bool.eq_false_iff.mp (hG .p2wshDilithium))

/-- **The soft-fork law of scripts**: whatever deployments are added to a
    genesis flag set, a spend that verifies with them verifies without. -/
theorem verifyScript_genesis_of_deployed (crypto : ScriptCrypto) (checker : SignatureChecker)
    (G : VerifyFlags) (D : Deployment → Bool) (scriptSig scriptPubKey : CScript)
    (witness : Option (List Bytes)) (hG : G.Genesis)
    (h : checker.verifyScript crypto (G.deploy D) scriptSig scriptPubKey witness = .ok ()) :
    checker.verifyScript crypto G scriptSig scriptPubKey witness = .ok () :=
  verifyScript_of_relaxes (hG.relaxes D) h

end Interpreter

namespace Sample

/-- Hashes are null, and every signature and proof verifies. -/
def crypto : ScriptCrypto where
  sha256 _ := Uint256.null
  verify _ _ _ := true
  verifyLogarithmicProof _ _ _ _ := true
  evalCheckFoldProof _ _ _ _ := true

/-- A checker that takes every signature and every lock time. -/
def checker : SignatureChecker where
  checkSig _ _ _ _ := true
  checkLockTime _ := true
  checkSequence _ := true
  checkTemplateVerify _ := true

/-- The flags that are on from the genesis block. -/
def genesisFlags : VerifyFlags where
  p2sh := true
  dersig := true
  checkLockTimeVerify := true
  checkSequenceVerify := true
  witness := true
  nulldummy := true
  pat := true
  latticefold := true
  soquobscura := false
  usdsoq := false
  btcsoq := false
  ctv := false
  apo := false
  csfs := false
  p2wshDilithium := false
  dilithiumKeyhash := false
  v6Controlflow := false
  scriptRestore := true
  minimalData := false
  minimalIf := false
  discourageUpgradableNops := false

theorem genesisFlags_genesis : genesisFlags.Genesis := by
  intro d
  cases d <;> rfl

end Sample

open Sample in
/-- A USDSOQ holding spent by key with every deployment active, and a witness v6
    script `<32 bytes> OP_CHECKDILITHIUMKEYHASH OP_1`. -/
theorem verifyScript_genesis_of_deployed_sample :
    genesisFlags.Genesis ∧
      checker.verifyScript crypto genesisFlags [] (witnessScript OP_7 Uint256.null)
        (some [[1], [2]]) = .ok () ∧
      checker.verifyScript crypto genesisFlags [] (witnessScript OP_6 Uint256.null)
        (some [[1], 1 :: List.replicate 1311 2, 32 :: Uint256.null.bytes ++ [0xb6, 0x51], []]) =
          .ok () :=
  ⟨genesisFlags_genesis,
    verifyScript_genesis_of_deployed crypto checker genesisFlags (fun _ => true) []
      (witnessScript OP_7 Uint256.null) (some [[1], [2]]) genesisFlags_genesis
      (by decide +kernel),
    verifyScript_genesis_of_deployed crypto checker genesisFlags (fun _ => true) []
      (witnessScript OP_6 Uint256.null)
      (some [[1], 1 :: List.replicate 1311 2, 32 :: Uint256.null.bytes ++ [0xb6, 0x51], []])
      genesisFlags_genesis (by decide +kernel)⟩

/-! ## The interpreter inside the node

The node's `verifyScript` takes `EvalScript` as a function of its environment; with the
interpreter in that place it is the `VerifyScript` above, for the checker of the input. -/

section Node

variable {env : Env} {proofs : ProofVerifiers} {tx : CTransaction} {nIn : Nat} {amount : Int}
  {flags : ScriptFlags} {scriptPubKey : CScript} {witness : List Bytes}

theorem toOption_map_isSome {α β : Type} {x : Except ScriptError α} {f : α → β} :
    (x.map f).toOption.isSome ↔ ∃ a, x = .ok a := by
  cases x with
  | error e => simp [Except.map, Except.toOption]
  | ok a => simp [Except.map, Except.toOption]

/-- The interpreter accepts the spend. -/
def Env.VerifiedBy (env : Env) (proofs : ProofVerifiers) (flags : ScriptFlags)
    (tx : CTransaction) (nIn : Nat) (amount : Int) (scriptPubKey : CScript)
    (witness : List Bytes) : Prop :=
  (transactionSignatureChecker env tx nIn amount).verifyScript (env.crypto proofs)
    flags.consensus (tx.vin.getD nIn default).scriptSig scriptPubKey (some witness) = .ok ()

/-- A node that runs the interpreter accepts a proof opcode as the interpreter does. -/
theorem evalWitness_withInterpreter {minItems : Nat} :
    evalWitness (env.withInterpreter proofs) flags tx nIn amount minItems op witness ↔
      runWitness (env.crypto proofs) (transactionSignatureChecker env tx nIn amount)
        flags.consensus minItems op (some witness) = .ok () := by
  simp only [evalWitness, Env.withInterpreter, Bool.and_eq_true, decide_eq_true_eq,
    toOption_map_isSome, runWitness]
  rw [require_bind_eq_ok, bind_eq_ok, decide_eq_true_eq]
  constructor
  · rintro ⟨hlen, stack, hrun⟩
    exact ⟨hlen, stack, hrun, rfl⟩
  · rintro ⟨hlen, stack, hrun, -⟩
    exact ⟨hlen, stack, hrun⟩

/-- The scan of a version 6 script, in both forms. -/
theorem witnessScriptAllowed_iff (fuel : Nat) (pc : Bytes) :
    witnessScriptAllowed fuel pc ↔ scanWitnessScript fuel pc = .ok () := by
  induction fuel generalizing pc with
  | zero =>
    cases pc with
    | nil => simp [witnessScriptAllowed, scanWitnessScript]
    | cons b bs => simp [witnessScriptAllowed, scanWitnessScript]
  | succ fuel ih =>
    cases pc with
    | nil => simp [witnessScriptAllowed, scanWitnessScript]
    | cons b bs =>
      rw [witnessScriptAllowed, scanWitnessScript]
      · cases getOp (b :: bs) with
        | none => simp
        | some p =>
          obtain ⟨op, data, rest⟩ := p
          simp only [Bool.and_eq_true, require_bind_eq_ok, ih rest, and_assoc]
      · simp

theorem verifyUSDSOQWitness_cons (env : Env) (tagItem : Bytes) (rest : List Bytes) :
    verifyUSDSOQWitness env flags tx nIn amount (tagItem :: rest) =
      match usdsoqOpcode tagItem with
      | none => false
      | some op => evalWitness env flags tx nIn amount 4 op (tagItem :: rest) := by
  rcases tagItem with _ | ⟨tag, _ | ⟨b, bs⟩⟩
  · rfl
  · simp only [verifyUSDSOQWitness, List.head?_cons, usdsoqOpcode, List.cons.injEq, and_true]
    split_ifs <;> rfl
  · simp [verifyUSDSOQWitness, usdsoqOpcode]

/-- The same for the USDSOQ opcodes. -/
theorem verifyUSDSOQWitness_withInterpreter :
    verifyUSDSOQWitness (env.withInterpreter proofs) flags tx nIn amount witness ↔
      runUSDSOQWitness (env.crypto proofs) (transactionSignatureChecker env tx nIn amount)
        flags.consensus (some witness) = .ok () := by
  cases witness with
  | nil => simp [verifyUSDSOQWitness, runUSDSOQWitness, require_bind_eq_ok]
  | cons tagItem rest =>
    rw [verifyUSDSOQWitness_cons, runUSDSOQWitness, require_bind_eq_ok, List.headD_cons]
    cases usdsoqOpcode tagItem with
    | none => simp
    | some op =>
      show evalWitness _ flags tx nIn amount 4 op (tagItem :: rest) = true ↔ _
      rw [evalWitness_withInterpreter]
      -- the path of the opcode makes the same test of the item count again
      exact ⟨fun h => ⟨(require_bind_eq_ok.mp h).1, h⟩, fun h => h.2⟩

/-- The Dilithium verifier is the interpreter's. -/
theorem verifyDilithium_withInterpreter :
    verifyDilithium (env.withInterpreter proofs) tx nIn amount scriptPubKey witness ↔
      runDilithium (env.crypto proofs) (transactionSignatureChecker env tx nIn amount)
        scriptPubKey (some witness) = .ok () := by
  rcases witness with _ | ⟨sig, _ | ⟨pubkey, _ | ⟨item, rest⟩⟩⟩
  · simp [verifyDilithium, runDilithium]
  · simp [verifyDilithium, runDilithium]
  · simp only [verifyDilithium, runDilithium, Bool.and_eq_true, require_bind_eq_ok,
      require_eq_ok, and_assoc]
    rfl
  · simp [verifyDilithium, runDilithium]

/-- One true item is left on the stack. -/
theorem cleanStack_iff {x : Except ScriptError ScriptStack} :
    (match (x.map List.reverse).toOption with
      | some [item] => castToBool item
      | _ => false) = true ↔
      (x >>= fun stack =>
        require (match stack with | [item] => castToBool item | _ => false)
          ScriptError.evalFalse) = .ok () := by
  rw [bind_eq_ok]
  cases x with
  | error e => simp [Except.map, Except.toOption]
  | ok stack =>
    rcases stack with _ | ⟨item, _ | ⟨b, rest⟩⟩
    · simp [Except.map, Except.toOption]
    · simp [Except.map, Except.toOption]
    · have hmany : ∀ item', (item :: b :: rest).reverse ≠ [item'] := by
        intro item' h
        have hlen := congrArg List.length h
        simp at hlen
      constructor
      · intro h
        split at h
        · next heq => exact absurd (Option.some.inj heq) (hmany _)
        · cases h
      · rintro ⟨stack, hstack, h⟩
        cases hstack
        cases h

/-- The same for version 6 programs. -/
theorem verifyP2WSHDilithium_withInterpreter :
    verifyP2WSHDilithium (env.withInterpreter proofs) flags tx nIn amount scriptPubKey witness =
        true ↔
      runP2WSHDilithium (env.crypto proofs) (transactionSignatureChecker env tx nIn amount)
        flags.consensus scriptPubKey (some witness) = .ok () := by
  unfold verifyP2WSHDilithium runP2WSHDilithium
  rw [Option.getD_some]
  rcases witness.reverse with _ | ⟨last, _ | ⟨script, stack⟩⟩
  · simp
  · simp
  · simp only [Bool.and_eq_true, and_assoc]
    rw [require_bind_eq_ok, require_bind_eq_ok, bind_eq_ok, witnessScriptAllowed_iff]
    refine and_congr_right fun _ => and_congr_right fun _ => ?_
    show _ ∧ (match ((evalScript (env.crypto proofs) _ flags.consensus .witnessV0 script
      stack.reverse.reverse).map List.reverse).toOption with
        | some [item] => castToBool item
        | _ => false) = true ↔ _
    rw [List.reverse_reverse]
    rw [cleanStack_iff]
    exact ⟨fun ⟨hscan, hrun⟩ => ⟨(), hscan, hrun⟩, fun ⟨_, hscan, hrun⟩ => ⟨hscan, hrun⟩⟩

theorem ite_ok_iff {c : Prop} [Decidable c] {x y : Except ScriptError Unit}
    (hthen : a ↔ x = .ok ()) (helse : b ↔ y = .ok ()) :
    (if c then a else b) = true ↔ (if c then x else y) = .ok () := by
  by_cases h : c
  · rw [if_pos h, if_pos h]
    exact hthen
  · rw [if_neg h, if_neg h]
    exact helse

theorem skipIf_ok_iff {x : Except ScriptError Unit} (h : a ↔ x = .ok ()) :
    (b || a) = true ↔ skipIf b x = .ok () := by
  rw [skipIf_eq_ok, ← h]
  cases b <;> simp

theorem error_ok_iff (e : ScriptError) :
    false ↔ (Except.error e : Except ScriptError Unit) = .ok () := by
  constructor
  · intro h
    cases h
  · intro h
    cases h

/-- **The node verifies as the interpreter does**: with `EvalScript` in its
    place, an input passes exactly when `VerifyScript` accepts it. -/
theorem verifyScript_withInterpreter :
    verifyScript (env.withInterpreter proofs) flags tx nIn amount scriptPubKey witness ↔
      env.VerifiedBy proofs flags tx nIn amount scriptPubKey witness := by
  unfold verifyScript Env.VerifiedBy SignatureChecker.verifyScript
  refine ite_ok_iff (skipIf_ok_iff evalWitness_withInterpreter) ?_
  refine ite_ok_iff (skipIf_ok_iff evalWitness_withInterpreter) ?_
  refine ite_ok_iff (skipIf_ok_iff evalWitness_withInterpreter) ?_
  refine ite_ok_iff (skipIf_ok_iff verifyUSDSOQWitness_withInterpreter) ?_
  refine ite_ok_iff (skipIf_ok_iff verifyP2WSHDilithium_withInterpreter) ?_
  refine ite_ok_iff (skipIf_ok_iff verifyDilithium_withInterpreter) ?_
  refine ite_ok_iff (skipIf_ok_iff verifyDilithium_withInterpreter) ?_
  refine ite_ok_iff ?_ (ite_ok_iff ?_ ?_)
  · rw [← Bool.or_false (!flags.btcsoq)]
    exact skipIf_ok_iff (error_ok_iff _)
  · rw [← Bool.or_false (!flags.usdsoq || !flags.soquobscura)]
    exact skipIf_ok_iff (error_ok_iff _)
  refine ite_ok_iff (iff_of_true rfl rfl) (ite_ok_iff (iff_of_true rfl rfl) ?_)
  exact ite_ok_iff verifyDilithium_withInterpreter (error_ok_iff _)

end Node

end Soqucoin
