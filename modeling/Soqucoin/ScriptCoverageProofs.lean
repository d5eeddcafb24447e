import Soqucoin.AuthenticationProofs

/-! # Script coverage — no coin moves without its key

`CheckInputs` runs the scripts of all inputs or of none.  Where it runs them, every spent
single-key output has a witness with its key and a signature (`spends_signed`); where it does not,
the transaction is an authority transaction of an active asset, and its other inputs are not
looked at (`authority_moves_unsigned_coin`). -/

namespace Soqucoin

open CheckedLoop

variable {flags : ScriptFlags} {tx : CTransaction} {nIn : Nat} {o : CTxOut} {a : Assets}

section Coverage

variable {env : Env}

/-- Outputs that are spent with a single key under the flags of a block. -/
def isKeyHolding (flags : ScriptFlags) (o : CTxOut) : Bool :=
  isWitnessProgram OP_1 o.scriptPubKey || (flags.usdsoq && o.isUSDSOQ) ||
    (flags.btcsoq && o.isBTCSOQ)

/-- The input shows a key that hashes to the program of the output, and a
    signature under it over the digest of the input. -/
def SignedSpend (env : Env) (tx : CTransaction) (nIn : Nat) (o : CTxOut) : Prop :=
  ∃ sig pubkey nHashType, (tx.vin.getD nIn default).scriptWitness = [sig, pubkey] ∧
    (env.sha256 (stripKeyPrefix pubkey)).bytes = o.scriptPubKey.drop 2 ∧
    sig.getLast? = some nHashType ∧
    env.verify (stripKeyPrefix pubkey)
      (env.signatureHash o.scriptPubKey tx nIn nHashType o.nValue .witnessV0).bytes
      sig.dropLast = true

/-- An asset output held by a key is verified by its signature. -/
theorem verifyScript_of_isKeyHolding {witness : List Bytes} (hkey : isKeyHolding flags o) :
    verifyScript env flags tx nIn o.nValue o.scriptPubKey witness =
      verifyDilithium env tx nIn o.nValue o.scriptPubKey witness := by
  simp only [isKeyHolding, Bool.or_eq_true, Bool.and_eq_true, CTxOut.isUSDSOQ,
    CTxOut.isBTCSOQ] at hkey
  rcases hkey with (h₁ | ⟨hflag, h₇⟩) | ⟨hflag, h₈⟩
  · have hhead := head?_of_isWitnessProgram h₁
    rw [List.head?_eq_getElem?] at hhead
    simp +decide [verifyScript, isWitnessProgram_eq h₁, hhead, List.head?_eq_getElem?]
  · simp +decide [verifyScript, isWitnessProgram_eq h₇, hflag]
  · simp +decide [verifyScript, isWitnessProgram_eq h₈, hflag]

/-- What the single-key path has verified. -/
theorem signedSpend_of_verifyDilithium
    (h : verifyDilithium env tx nIn o.nValue o.scriptPubKey
      (tx.vin.getD nIn default).scriptWitness) :
    SignedSpend env tx nIn o := by
  unfold verifyDilithium at h
  split at h
  · rename_i sig pubkey hwit
    rw [Bool.and_eq_true, Bool.and_eq_true, decide_eq_true_eq] at h
    obtain ⟨⟨hhash, -⟩, hsig⟩ := h
    rw [checkSig] at hsig
    split at hsig
    · exact nomatch hsig
    · rename_i nHashType hlast
      exact ⟨sig, pubkey, nHashType, hwit, hhash, hlast, (Bool.and_eq_true_iff.mp hsig).2⟩
  · exact nomatch h

/-- The check of an input passes exactly if its script verifies. -/
theorem runScriptCheck_eq_ok {c : CScriptCheck} :
    runScriptCheck env c = .ok () ↔ c.run env := by
  rw [runScriptCheck]
  split
  · rename_i hrun
    exact iff_of_true rfl hrun
  · rename_i hrun
    refine iff_of_false (fun h => ?_) hrun
    split at h <;> cases h

/-- The script checks of a transaction, run at once or left for later. -/
def queueChecks (env : Env) (checks : List CScriptCheck) (fQueue : Bool) :
    Check (List CScriptCheck) :=
  if fQueue then .ok checks
  else do
    forM checks (runScriptCheck env)
    .ok []

/-- Checks pass at once exactly if they pass from the queue. -/
theorem queueChecks_iff {checks : List CScriptCheck} (fQueue : Bool) :
    (∃ chk, queueChecks env checks fQueue = .ok chk ∧ chk.all (CScriptCheck.run env)) ↔
      checks.all (CScriptCheck.run env) := by
  rw [queueChecks]
  cases fQueue with
  | true =>
    constructor
    · rintro ⟨chk, hchk, hrun⟩
      obtain rfl := Except.ok.inj hchk
      exact hrun
    · intro hrun
      exact ⟨checks, rfl, hrun⟩
  | false =>
    rw [List.all_eq_true, if_neg Bool.false_ne_true]
    constructor
    · rintro ⟨chk, hchk, -⟩ c hc
      obtain ⟨_, hall, -⟩ := bind_eq_ok.mp hchk
      exact runScriptCheck_eq_ok.mp (forM_eq_ok.mp hall c hc)
    · intro hrun
      refine ⟨[], bind_eq_ok.mpr ⟨(), ?_, rfl⟩, rfl⟩
      exact forM_eq_ok.mpr fun c hc => runScriptCheck_eq_ok.mpr (hrun c hc)

/-- What `CheckInputs` asks, apart from queueing. -/
theorem checkInputs_passes_iff {params : CChainParams} {v : CoinsView} {nHeight : Int}
    {fScriptChecks : Bool} (q : Bool) (hcb : tx.isCoinBase = false) :
    (∃ chk, checkInputs env params a v tx nHeight fScriptChecks flags q = .ok chk ∧
        chk.all (CScriptCheck.run env)) ↔
      checkTxInputs params a v tx nHeight = .ok () ∧ (fScriptChecks →
        (!(isUSDSOQAuthorityShape tx && flags.usdsoq) || a.usdsoq.authority.isInitialized) = true ∧
        (!(isBTCSOQAuthorityShape tx && flags.btcsoq) || a.btcsoq.authority.isInitialized) = true ∧
        (skipsScripts flags tx = false →
          (scriptChecks v flags tx).all (CScriptCheck.run env))) := by
  rw [checkInputs, if_neg (by rw [hcb]; exact Bool.false_ne_true)]
  cases fScriptChecks with
  | false =>
    constructor
    · rintro ⟨chk, hchk, -⟩
      obtain ⟨_, hin, -⟩ := bind_eq_ok.mp hchk
      exact ⟨hin, fun h => by cases h⟩
    · rintro ⟨hin, -⟩
      exact ⟨[], bind_eq_ok.mpr ⟨(), hin, rfl⟩, rfl⟩
  | true =>
    rw [if_neg (by decide)]
    constructor
    · rintro ⟨chk, hchk, hrun⟩
      obtain ⟨_, hin, hchk⟩ := bind_eq_ok.mp hchk
      obtain ⟨husd, hchk⟩ := require_bind_eq_ok.mp hchk
      obtain ⟨hbtc, hchk⟩ := require_bind_eq_ok.mp hchk
      refine ⟨hin, fun _ => ⟨husd, hbtc, fun hskip => ?_⟩⟩
      rw [if_neg (by rw [hskip]; exact Bool.false_ne_true)] at hchk
      exact (queueChecks_iff q).mp ⟨chk, hchk, hrun⟩
    · rintro ⟨hin, hscripts⟩
      obtain ⟨husd, hbtc, hrun⟩ := hscripts rfl
      have hrest : ∃ chk, (if skipsScripts flags tx = true then .ok []
          else queueChecks env (scriptChecks v flags tx) q) = Except.ok chk ∧
            chk.all (CScriptCheck.run env) = true := by
        cases hskip : skipsScripts flags tx with
        | true => exact ⟨[], rfl, rfl⟩
        | false => exact (queueChecks_iff q).mpr (hrun hskip)
      obtain ⟨chk, hchk, hall⟩ := hrest
      refine ⟨chk, bind_eq_ok.mpr ⟨(), hin, ?_⟩, hall⟩
      exact require_bind_eq_ok.mpr ⟨husd, require_bind_eq_ok.mpr ⟨hbtc, hchk⟩⟩

/-- Every transaction of an accepted block has passed it. -/
theorem Accepted.inputs_passed {params : CChainParams} {idx : CBlockIndex} {io : NodeIO}
    {fJustCheck : Bool} {view : CoinsView} {block : CBlock} {fp : FirstPass} {p : Pending}
    (h : Accepted env params idx io fJustCheck a view block fp p) {pre post : List CTransaction}
    (hvtx : block.vtx = pre ++ tx :: post) (hcb : tx.isCoinBase = false) :
    checkTxInputs params (initAuthorities params idx a) (blockView env idx.nHeight view pre) tx
        idx.nHeight = .ok () ∧
      (idx.fScriptChecks →
        (!(isUSDSOQAuthorityShape tx && (blockFlags params idx).usdsoq) ||
          (initAuthorities params idx a).usdsoq.authority.isInitialized) = true ∧
        (!(isBTCSOQAuthorityShape tx && (blockFlags params idx).btcsoq) ||
          (initAuthorities params idx a).btcsoq.authority.isInitialized) = true ∧
        (skipsScripts (blockFlags params idx) tx = false →
          (scriptChecks (blockView env idx.nHeight view pre) (blockFlags params idx) tx).all
            (CScriptCheck.run env))) := by
  obtain ⟨_, _, _, _, chk, -, -, -, hchk, hqueue, -⟩ := h.at_tx hvtx
  refine (checkInputs_passes_iff io.scriptThreads hcb).mp ⟨chk, hchk, ?_⟩
  rw [List.all_eq_true]
  intro c hc
  exact List.all_eq_true.mp h.validated.scripts c (hqueue c hc)

/-- Scripts are skipped for the authority shape of an active asset alone. -/
theorem exempt_of_skipsScripts
    (husd : (!(isUSDSOQAuthorityShape tx && flags.usdsoq) || a.usdsoq.authority.isInitialized) =
      true)
    (hbtc : (!(isBTCSOQAuthorityShape tx && flags.btcsoq) || a.btcsoq.authority.isInitialized) =
      true)
    (hskip : skipsScripts flags tx) :
    (isUSDSOQAuthorityShape tx ∧ flags.usdsoq ∧
        a.usdsoq.authority.isInitialized) ∨
      (isBTCSOQAuthorityShape tx ∧ flags.btcsoq ∧ a.btcsoq.authority.isInitialized) := by
  rw [skipsScripts, Bool.or_eq_true] at hskip
  rcases hskip with hs | hs
  · rw [hs, Bool.not_true, Bool.false_or] at husd
    obtain ⟨hshape, hflag⟩ := Bool.and_eq_true_iff.mp hs
    exact Or.inl ⟨hshape, hflag, husd⟩
  · rw [hs, Bool.not_true, Bool.false_or] at hbtc
    obtain ⟨hshape, hflag⟩ := Bool.and_eq_true_iff.mp hs
    exact Or.inr ⟨hshape, hflag, hbtc⟩

/-- Every input has its script check. -/
theorem mem_scriptChecks {v : CoinsView} {txin : CTxIn} (hin : tx.vin[nIn]? = some txin)
    (ho : v.output txin.prevout = some o) :
    (⟨tx, nIn, o, flags⟩ : CScriptCheck) ∈ scriptChecks v flags tx := by
  refine List.mem_map.mpr ⟨(o, nIn), ?_, rfl⟩
  rw [List.mem_zipIdx_iff_getElem?, spentOutputs, List.getElem?_map, hin]
  show some ((v.output txin.prevout).getD default) = some o
  rw [ho]
  rfl

/-- **No coin moves without its key**, exempt transactions apart.  In a block accepted with script
    checks on, every input of a transaction that is not exempt and that spends a single-key output
    shows the key and a signature; an exempt transaction has the shape of an authority transaction
    of an active asset whose keys are set. -/
theorem spends_signed (env : Env) (params : CChainParams) (idx : CBlockIndex) (io : NodeIO)
    (fJustCheck : Bool) (a : Assets) (view : CoinsView) (block : CBlock)
    (haccept : (connectBlock env params idx io fJustCheck a view block).verdict = .ok ())
    (hgenesis : isGenesis env params block → ∀ tx ∈ block.vtx, tx.isCoinBase = true)
    (hscripts : idx.fScriptChecks = true) :
    ∀ pre tx post, block.vtx = pre ++ tx :: post → tx.isCoinBase = false →
      (skipsScripts (blockFlags params idx) tx = false →
        ∀ nIn txin o, tx.vin[nIn]? = some txin →
          (blockView env idx.nHeight view pre).output txin.prevout = some o →
          isKeyHolding (blockFlags params idx) o = true → SignedSpend env tx nIn o) ∧
      (skipsScripts (blockFlags params idx) tx = true →
        (isUSDSOQAuthorityShape tx = true ∧ (blockFlags params idx).usdsoq = true ∧
          (initAuthorities params idx a).usdsoq.authority.isInitialized = true) ∨
        (isBTCSOQAuthorityShape tx = true ∧ (blockFlags params idx).btcsoq = true ∧
          (initAuthorities params idx a).btcsoq.authority.isInitialized = true)) := by
  intro pre tx post hvtx hcb
  obtain ⟨fp, p, hacc⟩ :=
    connectBlock_accepted haccept (not_isGenesis_of_tx hgenesis hvtx hcb)
  obtain ⟨husd, hbtc, hruns⟩ := (hacc.inputs_passed hvtx hcb).2 hscripts
  refine ⟨fun hskip nIn txin o hin ho hkey => ?_, exempt_of_skipsScripts husd hbtc⟩
  have hrun := List.all_eq_true.mp (hruns hskip) _ (mem_scriptChecks hin ho)
  rw [CScriptCheck.run, verifyScript_of_isKeyHolding hkey] at hrun
  exact signedSpend_of_verifyDilithium hrun

end Coverage

namespace Sample

/-- A key whose hash is the null program, behind its zero byte. -/
def keyItem : Bytes := List.replicate 1313 0

/-- A block with one signed payment. -/
def signedPayment : CBlock :=
  block 1 [transaction 7 [spend 8 [List.replicate 2421 0, keyItem]] [pay OP_1 1000]]

end Sample

open Sample in
/-- A block with one signed payment. -/
theorem spends_signed_payment :
    (connectBlock (Sample.env sameByte) params (index 1) io false usdsoqAssets usdsoqCoins
      signedPayment).verdict = .ok () ∧
    ∀ pre tx post, signedPayment.vtx = pre ++ tx :: post → tx.isCoinBase = false →
      (skipsScripts (blockFlags params (index 1)) tx = false →
        ∀ nIn txin o, tx.vin[nIn]? = some txin →
          (blockView (Sample.env sameByte) 1 usdsoqCoins pre).output txin.prevout = some o →
          isKeyHolding (blockFlags params (index 1)) o = true →
          SignedSpend (Sample.env sameByte) tx nIn o) ∧
      (skipsScripts (blockFlags params (index 1)) tx = true →
        (isUSDSOQAuthorityShape tx = true ∧ (blockFlags params (index 1)).usdsoq = true ∧
          (initAuthorities params (index 1) usdsoqAssets).usdsoq.authority.isInitialized =
            true) ∨
        (isBTCSOQAuthorityShape tx = true ∧ (blockFlags params (index 1)).btcsoq = true ∧
          (initAuthorities params (index 1) usdsoqAssets).btcsoq.authority.isInitialized =
            true)) :=
  have haccept : (connectBlock (Sample.env sameByte) params (index 1) io false usdsoqAssets
      usdsoqCoins signedPayment).verdict = .ok () := by decide +kernel
  ⟨haccept, spends_signed (Sample.env sameByte) params (index 1) io false usdsoqAssets usdsoqCoins
    signedPayment haccept (fun h => absurd h (by decide +kernel)) rfl⟩

open Sample in
/-- An authority transaction, signed by the authority, that also spends a native
    coin whose owner has signed nothing. -/
theorem authority_moves_unsigned_coin :
    (connectBlock (Sample.env sameByte) params (index 1) io false usdsoqAssets usdsoqCoins
      signedUSDSOQ).verdict = .ok () ∧ (index 1).fScriptChecks = true ∧
    ¬ ∀ pre tx post, signedUSDSOQ.vtx = pre ++ tx :: post → tx.isCoinBase = false →
      ∀ nIn txin o, tx.vin[nIn]? = some txin →
        (blockView (Sample.env sameByte) 1 usdsoqCoins pre).output txin.prevout = some o →
        isKeyHolding (blockFlags params (index 1)) o = true →
        SignedSpend (Sample.env sameByte) tx nIn o := by
  refine ⟨by decide +kernel, rfl, fun h => ?_⟩
  obtain ⟨sig, pubkey, _, hwit, -⟩ :=
    h [coinbase 1] _ [] rfl (by decide) 1 (spend 8 []) (pay OP_1 1000) rfl (by decide +kernel)
      (by decide)
  exact nomatch (show [] = [sig, pubkey] from hwit)

end Soqucoin
