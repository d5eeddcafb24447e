import Mathlib.Data.Nat.Bitwise
import Soqucoin.ConnectProofs
import Soqucoin.ScriptNumberProofs
import Soqucoin.ScriptRunProofs

/-! # TimelockProofs — the waits behind the timelock opcodes

`OP_CHECKLOCKTIMEVERIFY` and `OP_CHECKSEQUENCEVERIFY` compare their operand with fields of the
spending transaction.  The wait comes from elsewhere: the finality check of `ContextualCheckBlock`
holds a block back until the lock time has passed, `SequenceLocks` in `ConnectBlock` until a coin
is old enough. -/

namespace Soqucoin

open CheckedLoop

/-! ## Finality -/

/-- The bound of a lock time: the height of the block, or the median time before it. -/
def lockBound (idx : CBlockIndex) (nLockTime : Int) : Int :=
  if nLockTime < LOCKTIME_THRESHOLD then idx.nHeight else idx.prevMedianTimePast

theorem lockTime_lt_of_isFinalTx {tx : CTransaction} {idx : CBlockIndex} {nIn : Nat}
    (h : isFinalTx tx idx.nHeight idx.prevMedianTimePast) (hin : nIn < tx.vin.length)
    (hseq : (tx.vin.getD nIn default).nSequence ≠ SEQUENCE_FINAL) :
    tx.nLockTime = 0 ∨ (tx.nLockTime : Int) < lockBound idx tx.nLockTime := by
  rw [isFinalTx, Bool.or_eq_true, Bool.or_eq_true, decide_eq_true_eq, decide_eq_true_eq] at h
  rcases h with (hzero | hlt) | hall
  · exact .inl hzero
  · exact .inr hlt
  · refine absurd ?_ hseq
    rw [List.getD_eq_getElem?_getD, List.getElem?_eq_getElem hin, Option.getD_some]
    exact of_decide_eq_true (List.all_eq_true.mp hall _ (List.getElem_mem hin))

/-! ## Relative locks -/

section Sequence

variable {idx : CBlockIndex}

/-- What a relative lock asks of the block, for a coin of the given height. -/
def SequenceMet (idx : CBlockIndex) (nSequence : Nat) (nCoinHeight : Int) : Prop :=
  if nSequence.testBit SEQUENCE_LOCKTIME_TYPE_FLAG then
    512 * ((nSequence % 2 ^ 16 : Nat) : Int) ≤
      idx.prevMedianTimePast - idx.ancestorMedianTimePast (max (nCoinHeight - 1) 0)
  else ((nSequence % 2 ^ 16 : Nat) : Int) ≤ idx.nHeight - nCoinHeight

theorem le_sequenceLock (lock : Int × Int) (p : CTxIn × Int) :
    lock.1 ≤ (sequenceLock idx lock p).1 ∧ lock.2 ≤ (sequenceLock idx lock p).2 := by
  rw [sequenceLock]
  split_ifs
  · exact ⟨le_rfl, le_rfl⟩
  · exact ⟨le_rfl, le_max_left _ _⟩
  · exact ⟨le_max_left _ _, le_rfl⟩

theorem le_foldl_sequenceLock (l : List (CTxIn × Int)) (lock : Int × Int) :
    lock.1 ≤ (l.foldl (sequenceLock idx) lock).1 ∧
      lock.2 ≤ (l.foldl (sequenceLock idx) lock).2 := by
  induction l generalizing lock with
  | nil => exact ⟨le_rfl, le_rfl⟩
  | cons p l ih =>
    rw [List.foldl_cons]
    exact ⟨(le_sequenceLock lock p).1.trans (ih _).1, (le_sequenceLock lock p).2.trans (ih _).2⟩

/-- A lock that is met has been waited for. -/
theorem sequenceMet_of_sequenceLock {lock : Int × Int} {txin : CTxIn} {nCoinHeight : Int}
    (hdisable : txin.nSequence.testBit SEQUENCE_LOCKTIME_DISABLE_FLAG = false)
    (hheight : (sequenceLock idx lock (txin, nCoinHeight)).1 < idx.nHeight)
    (htime : (sequenceLock idx lock (txin, nCoinHeight)).2 < idx.prevMedianTimePast) :
    SequenceMet idx txin.nSequence nCoinHeight := by
  rw [sequenceLock] at hheight htime
  dsimp only at hheight htime
  rw [if_neg (by rw [hdisable]; decide)] at hheight htime
  rw [SequenceMet]
  split_ifs at hheight htime ⊢ with htype
  · have hlt := lt_of_le_of_lt (le_max_right lock.2 _) htime
    push_cast at hlt ⊢
    omega
  · have hlt := lt_of_le_of_lt (le_max_right lock.1 _) hheight
    omega

/-- So has every lock of the inputs. -/
theorem sequenceMet_of_foldl {l : List (CTxIn × Int)} {lock : Int × Int} {txin : CTxIn}
    {nCoinHeight : Int} (hmem : (txin, nCoinHeight) ∈ l)
    (hdisable : txin.nSequence.testBit SEQUENCE_LOCKTIME_DISABLE_FLAG = false)
    (hheight : (l.foldl (sequenceLock idx) lock).1 < idx.nHeight)
    (htime : (l.foldl (sequenceLock idx) lock).2 < idx.prevMedianTimePast) :
    SequenceMet idx txin.nSequence nCoinHeight := by
  induction l generalizing lock with
  | nil => cases hmem
  | cons q l ih =>
    rw [List.foldl_cons] at hheight htime
    rcases List.mem_cons.mp hmem with rfl | hmem
    · obtain ⟨hlow, hhigh⟩ :=
        @le_foldl_sequenceLock idx l (sequenceLock idx lock (txin, nCoinHeight))
      exact sequenceMet_of_sequenceLock hdisable (hlow.trans_lt hheight) (hhigh.trans_lt htime)
    · exact ih hmem hheight htime

end Sequence

theorem sequenceLockBits_eq (n : Nat) :
    sequenceLockBits n =
      2 ^ SEQUENCE_LOCKTIME_TYPE_FLAG * (n.testBit SEQUENCE_LOCKTIME_TYPE_FLAG).toNat +
        n % 2 ^ 16 := by
  have hlow : n &&& 0xffff = n % 2 ^ 16 := Nat.and_two_pow_sub_one_eq_mod n 16
  have hlt : n % 2 ^ 16 < 2 ^ SEQUENCE_LOCKTIME_TYPE_FLAG :=
    (Nat.mod_lt n (by decide)).trans (by decide)
  rw [sequenceLockBits, Nat.and_or_distrib_left, Nat.and_two_pow, hlow, Nat.mul_comm,
    Nat.two_pow_add_eq_or_of_lt hlt]

theorem SequenceMet.mono {idx : CBlockIndex} {n m : Nat} {nCoinHeight : Int}
    (h : SequenceMet idx m nCoinHeight)
    (htype : n.testBit SEQUENCE_LOCKTIME_TYPE_FLAG = m.testBit SEQUENCE_LOCKTIME_TYPE_FLAG)
    (hle : n % 2 ^ 16 ≤ m % 2 ^ 16) : SequenceMet idx n nCoinHeight := by
  rw [SequenceMet] at h ⊢
  rw [htype]
  split_ifs at h ⊢ with hflag
  · omega
  · omega

/-- The comparison of the opcode, bit by bit. -/
theorem sequenceLockBits_le {n m : Nat}
    (hsame : (sequenceLockBits m < 2 ^ SEQUENCE_LOCKTIME_TYPE_FLAG ∧
        sequenceLockBits n < 2 ^ SEQUENCE_LOCKTIME_TYPE_FLAG) ∨
      (2 ^ SEQUENCE_LOCKTIME_TYPE_FLAG ≤ sequenceLockBits m ∧
        2 ^ SEQUENCE_LOCKTIME_TYPE_FLAG ≤ sequenceLockBits n))
    (hle : sequenceLockBits n ≤ sequenceLockBits m) :
    n.testBit SEQUENCE_LOCKTIME_TYPE_FLAG = m.testBit SEQUENCE_LOCKTIME_TYPE_FLAG ∧
      n % 2 ^ 16 ≤ m % 2 ^ 16 := by
  have hpow : 2 ^ SEQUENCE_LOCKTIME_TYPE_FLAG = 2 ^ 22 := rfl
  rw [sequenceLockBits_eq, sequenceLockBits_eq, hpow] at hsame hle
  have hn := Bool.toNat_le (n.testBit SEQUENCE_LOCKTIME_TYPE_FLAG)
  have hm := Bool.toNat_le (m.testBit SEQUENCE_LOCKTIME_TYPE_FLAG)
  have htype : (n.testBit SEQUENCE_LOCKTIME_TYPE_FLAG).toNat =
      (m.testBit SEQUENCE_LOCKTIME_TYPE_FLAG).toNat := by omega
  have hinj : ∀ a b : Bool, a.toNat = b.toNat → a = b := by decide
  rw [htype] at hle
  exact ⟨hinj _ _ htype, Nat.le_of_add_le_add_left hle⟩

/-! ## The opcodes -/

section Opcodes

variable {crypto : ScriptCrypto} {checker : SignatureChecker} {flags : VerifyFlags}
  {sigversion : SigVersion} {script : CScript} {operand : Bytes} {rest out : ScriptStack}

/-- The opcode succeeds only with its check. -/
theorem checkLockTime_of_executeOpcode (hflow : flags.v6Controlflow)
    (h : executeOpcode crypto checker flags sigversion script OP_CHECKLOCKTIMEVERIFY
      (operand :: rest) = .ok out) :
    checker.checkLockTime (CScriptNum.setVch operand) := by
  have hop : executeOpcode crypto checker flags sigversion script OP_CHECKLOCKTIMEVERIFY
      (operand :: rest) = checkLockTimeVerify checker flags (operand :: rest) := by
    simp +decide [executeOpcode, hflow]
  rw [hop, checkLockTimeVerify] at h
  obtain ⟨n, hn, h⟩ := bind_eq_ok.mp h
  obtain ⟨-, -, rfl⟩ := CScriptNum.ofVch_eq_ok.mp hn
  replace h := after_require h
  exact (require_bind_eq_ok.mp h).1

/-- The opcode succeeds only with its check. -/
theorem checkSequence_of_executeOpcode (hflow : flags.v6Controlflow)
    (h : executeOpcode crypto checker flags sigversion script OP_CHECKSEQUENCEVERIFY
      (operand :: rest) = .ok out)
    (hdisable : (CScriptNum.setVch operand).toNat.testBit SEQUENCE_LOCKTIME_DISABLE_FLAG = false) :
    checker.checkSequence (CScriptNum.setVch operand) := by
  have hop : executeOpcode crypto checker flags sigversion script OP_CHECKSEQUENCEVERIFY
      (operand :: rest) = checkSequenceVerify checker flags (operand :: rest) := by
    simp +decide [executeOpcode, hflow]
  rw [hop, checkSequenceVerify] at h
  obtain ⟨n, hn, h⟩ := bind_eq_ok.mp h
  obtain ⟨-, -, rfl⟩ := CScriptNum.ofVch_eq_ok.mp hn
  replace h := after_require h
  have hcheck := (require_bind_eq_ok.mp h).1
  rwa [hdisable, Bool.false_or] at hcheck

end Opcodes

section Checker

variable {env : Env} {tx : CTransaction} {nIn : Nat} {amount n : Int}

theorem checkLockTime_eq_true
    (h : (transactionSignatureChecker env tx nIn amount).checkLockTime n) :
    (tx.nLockTime < LOCKTIME_THRESHOLD ↔ n < LOCKTIME_THRESHOLD) ∧ n ≤ tx.nLockTime ∧
      (tx.vin.getD nIn default).nSequence ≠ SEQUENCE_FINAL := by
  simp only [transactionSignatureChecker, Bool.and_eq_true, Bool.or_eq_true,
    decide_eq_true_eq] at h
  obtain ⟨⟨hkind, hle⟩, hseq⟩ := h
  exact ⟨by omega, hle, hseq⟩

theorem checkSequence_eq_true
    (h : (transactionSignatureChecker env tx nIn amount).checkSequence n) :
    2 ≤ tx.nVersion % 2 ^ 32 ∧
      (tx.vin.getD nIn default).nSequence.testBit SEQUENCE_LOCKTIME_DISABLE_FLAG = false ∧
      n.toNat.testBit SEQUENCE_LOCKTIME_TYPE_FLAG =
        (tx.vin.getD nIn default).nSequence.testBit SEQUENCE_LOCKTIME_TYPE_FLAG ∧
      n.toNat % 2 ^ 16 ≤ (tx.vin.getD nIn default).nSequence % 2 ^ 16 := by
  simp only [transactionSignatureChecker, Bool.and_eq_true, Bool.or_eq_true, Bool.not_eq_true',
    decide_eq_true_eq] at h
  obtain ⟨⟨⟨⟨-, hversion⟩, hdisable⟩, hsame⟩, hle⟩ := h
  exact ⟨hversion, hdisable, sequenceLockBits_le hsame hle⟩

end Checker

/-! ## Accepted blocks -/

/-- A spend comes to an opcode with an operand on top of the stack, and passes it.  The
    witness of a v6 spend ends in the script and one more item. -/
def PassesTimelock (env : Env) (proofs : ProofVerifiers) (flags : ScriptFlags)
    (tx : CTransaction) (nIn : Nat) (amount : Int) (opcode : UInt8) (operand : Bytes) : Prop :=
  ∃ (items : List Bytes) (script : CScript) (last : Bytes) (rest out : ScriptStack),
    (tx.vin.getD nIn default).scriptWitness = items ++ [script, last] ∧
    Executes (env.crypto proofs) (transactionSignatureChecker env tx nIn amount) flags.consensus
      .witnessV0 script items.reverse opcode (operand :: rest) ∧
    executeOpcode (env.crypto proofs) (transactionSignatureChecker env tx nIn amount)
      flags.consensus .witnessV0 script opcode (operand :: rest) = .ok out

section Accepted

variable {env : Env} {proofs : ProofVerifiers} {params : CChainParams} {idx : CBlockIndex}
  {flags : ScriptFlags} {tx : CTransaction} {nIn : Nat} {amount : Int} {operand : Bytes}

/-- A spend that passes comes after the operand. -/
theorem PassesTimelock.lockTime (hflow : flags.v6Controlflow) (hheight : 0 < idx.nHeight)
    (hfinal : isFinalTx tx idx.nHeight idx.prevMedianTimePast) (hin : nIn < tx.vin.length)
    (h : PassesTimelock env proofs flags tx nIn amount OP_CHECKLOCKTIMEVERIFY operand) :
    CScriptNum.setVch operand < lockBound idx (CScriptNum.setVch operand) := by
  obtain ⟨items, script, last, rest, out, -, -, hexec⟩ := h
  obtain ⟨hkind, hle, hseq⟩ := checkLockTime_eq_true (checkLockTime_of_executeOpcode hflow hexec)
  have hbound : lockBound idx tx.nLockTime = lockBound idx (CScriptNum.setVch operand) := by
    rw [lockBound, lockBound, if_congr hkind rfl rfl]
  rcases lockTime_lt_of_isFinalTx hfinal hin hseq with hzero | hlt
  · -- without a lock time the operand is at most 0, a height
    rw [hzero] at hle hbound
    rw [← hbound]
    exact lt_of_le_of_lt hle hheight
  · rw [← hbound]
    exact lt_of_le_of_lt hle hlt

/-- A spend that passes has waited the operand. -/
theorem PassesTimelock.sequence {prevheights : List Int} {nCoinHeight : Int}
    (hflow : flags.v6Controlflow) (hcsv : idx.csvActive)
    (hlocks : sequenceLocks idx tx prevheights) (hin : nIn < tx.vin.length)
    (hcoin : prevheights[nIn]? = some nCoinHeight)
    (h : PassesTimelock env proofs flags tx nIn amount OP_CHECKSEQUENCEVERIFY operand)
    (hdisable : (CScriptNum.setVch operand).toNat.testBit SEQUENCE_LOCKTIME_DISABLE_FLAG = false) :
    SequenceMet idx (CScriptNum.setVch operand).toNat nCoinHeight := by
  obtain ⟨items, script, last, rest, out, -, -, hexec⟩ := h
  obtain ⟨hversion, hset, htype, hle⟩ :=
    checkSequence_eq_true (checkSequence_of_executeOpcode hflow hexec hdisable)
  rw [sequenceLocks] at hlocks
  simp only [hversion, hcsv, decide_true, Bool.and_true, if_true, Bool.and_eq_true,
    decide_eq_true_eq] at hlocks
  have hmem : (tx.vin.getD nIn default, nCoinHeight) ∈ tx.vin.zip prevheights := by
    refine List.mem_of_getElem? (i := nIn) ?_
    rw [List.getElem?_zip_eq_some]
    refine ⟨?_, hcoin⟩
    rw [List.getD_eq_getElem?_getD, List.getElem?_eq_getElem hin, Option.getD_some]
  exact (sequenceMet_of_foldl hmem hset hlocks.1 hlocks.2).mono htype hle

end Accepted

namespace Sample

/-- Parameters with the time-lock opcodes in version 6 scripts. -/
def timelockParams : CChainParams :=
  ⟨fun _ => { consensus with
    activationHeight := fun d =>
      if d = .p2wshDilithium ∨ d = .v6Controlflow then 0 else NOT_SCHEDULED }, fun _ => rfl⟩

/-- A node that runs the interpreter. -/
def timelockEnv : Env := (env sameByte).withInterpreter crypto.toProofVerifiers

/-- A coin of height 1, under a v6 program, before the block of height 20. -/
def timelockCoins : CoinsView := (coins [(7, pay OP_6 1000000)]).setBestBlock (Uint256.fill 19)

/-- A spend of the coin by a script, with a sequence number. -/
def timelockSpend (nSequence : Nat) (script : CScript) : CTransaction :=
  ⟨2, [⟨⟨Uint256.fill 7, 0⟩, [], nSequence, [script, [0]]⟩], [pay OP_1 1000000], 3⟩

/-- The block with that spend. -/
def timelockBlock (nSequence : Nat) (script : CScript) : CBlock :=
  block 5 [timelockSpend nSequence script]

/-- Three blocks since the coin, and after height 3. -/
def waitThree : CScript := [OP_3, OP_CHECKLOCKTIMEVERIFY, OP_CHECKSEQUENCEVERIFY]

theorem waitThree_decodes : Decodes waitThree
    [(OP_3, []), (OP_CHECKLOCKTIMEVERIFY, []), (OP_CHECKSEQUENCEVERIFY, [])] :=
  .cons rfl (.cons rfl (.cons rfl .nil))

theorem waitThree_lockTime : PassesTimelock (env sameByte) crypto.toProofVerifiers
    (blockFlags timelockParams (index 20)) (timelockSpend 3 waitThree) 0 1000000
    OP_CHECKLOCKTIMEVERIFY [3] :=
  ⟨[], waitThree, [0], [], [[3]], rfl, ⟨[(OP_3, [])], [], [(OP_CHECKSEQUENCEVERIFY, [])],
    ⟨[[3]], []⟩, waitThree_decodes, by decide +kernel, rfl, rfl⟩, by decide +kernel⟩

theorem waitThree_sequence : PassesTimelock (env sameByte) crypto.toProofVerifiers
    (blockFlags timelockParams (index 20)) (timelockSpend 3 waitThree) 0 1000000
    OP_CHECKSEQUENCEVERIFY [3] :=
  ⟨[], waitThree, [0], [], [[3]], rfl, ⟨[(OP_3, []), (OP_CHECKLOCKTIMEVERIFY, [])], [], [],
    ⟨[[3]], []⟩, waitThree_decodes, by decide +kernel, rfl, rfl⟩, by decide +kernel⟩

/-- An operand of 65536. -/
def waitHigh : CScript := pushData [0, 0, 1] ++ [OP_CHECKSEQUENCEVERIFY]

end Sample

/-- In an accepted block, a spend that passes `OP_CHECKSEQUENCEVERIFY` has waited the low
    16 bits of the operand since its coin, and one that passes `OP_CHECKLOCKTIMEVERIFY`
    comes after the operand. -/
theorem timelocks_waited (env : Env) (proofs : ProofVerifiers) (params : CChainParams)
    (idx : CBlockIndex) (io : NodeIO) (fJustCheck : Bool) (a : Assets) (view : CoinsView)
    (block : CBlock) (nTime : Int) (hgen : ¬ isGenesis (env.withInterpreter proofs) params block)
    (hheight : 0 < idx.nHeight) (hcsv : idx.csvActive = true)
    (hflow : (blockFlags params idx).v6Controlflow = true)
    (hfinal : contextualCheckFinality idx nTime block = .ok ())
    (haccepted : (connectBlock (env.withInterpreter proofs) params idx io fJustCheck a view
      block).verdict = .ok ()) :
    ∀ before tx after nIn, block.vtx = before ++ tx :: after → tx.isCoinBase = false →
      nIn < tx.vin.length →
      ∃ s, connectTxs (env.withInterpreter proofs) params idx (initAuthorities params idx a)
          io.scriptThreads view before = .ok s ∧
        ∀ (amount : Int) (operand : Bytes),
          (PassesTimelock env proofs (blockFlags params idx) tx nIn amount
              OP_CHECKSEQUENCEVERIFY operand →
            (CScriptNum.setVch operand).toNat.testBit SEQUENCE_LOCKTIME_DISABLE_FLAG = false →
            SequenceMet idx (CScriptNum.setVch operand).toNat
              (s.view.record (tx.vin.getD nIn default).prevout.hash).nHeight) ∧
          (PassesTimelock env proofs (blockFlags params idx) tx nIn amount
              OP_CHECKLOCKTIMEVERIFY operand →
            CScriptNum.setVch operand < lockBound idx (CScriptNum.setVch operand)) := by
  intro before tx after nIn hvtx hcb hin
  obtain ⟨t, p, hacc⟩ := connectBlock_accepted haccepted hgen
  have hpass := hacc.validated.firstPass
  rw [hvtx, connectTxs] at hpass
  -- `s.view` is the view of this transaction's turn: an output of an earlier transaction of
  -- the block counts as mined in it
  obtain ⟨s, s', hs, htx, -⟩ := foldlM_at hpass
  replace htx := after_require htx
  obtain ⟨hlocks, -⟩ := require_bind_eq_ok.mp htx
  rw [hcb, Bool.false_or] at hlocks
  have htxfinal : isFinalTx tx idx.nHeight idx.prevMedianTimePast := by
    rw [contextualCheckFinality, require_eq_ok, hcsv, List.all_eq_true] at hfinal
    exact hfinal tx (by rw [hvtx]; simp)
  refine ⟨s, hs, fun amount operand => ⟨fun hpasses hdisable => ?_, fun hpasses => ?_⟩⟩
  · refine hpasses.sequence hflow hcsv hlocks hin ?_ hdisable
    rw [List.getElem?_map, List.getD_eq_getElem?_getD, List.getElem?_eq_getElem hin]
    rfl
  · exact hpasses.lockTime hflow hheight htxfinal hin

open Sample in
/-- A spend that waits three blocks, in an accepted block. -/
theorem timelocks_waited_three :
    (connectBlock timelockEnv timelockParams (index 20) io false
      usdsoqAssets timelockCoins
      (timelockBlock 3 waitThree)).verdict = .ok () ∧
    ∃ s, connectTxs timelockEnv timelockParams (index 20)
        (initAuthorities timelockParams (index 20) usdsoqAssets) true
        timelockCoins [coinbase 5] = .ok s ∧
      SequenceMet (index 20) 3 (s.view.record (Uint256.fill 7)).nHeight ∧
      (3 : Int) < lockBound (index 20) 3 := by
  have haccepted : (connectBlock timelockEnv timelockParams (index 20)
      io false usdsoqAssets timelockCoins
      (timelockBlock 3 waitThree)).verdict = .ok () := by decide +kernel
  obtain ⟨s, hs, hwaited⟩ := timelocks_waited (env sameByte)
    crypto.toProofVerifiers timelockParams (index 20) io false
    usdsoqAssets timelockCoins (timelockBlock 3 waitThree) 0
    (by decide +kernel) (by decide) rfl (by decide +kernel) (by decide +kernel) haccepted
    [coinbase 5] (timelockSpend 3 waitThree) [] 0 rfl (by decide +kernel)
    (by decide)
  obtain ⟨hsequence, hlock⟩ := hwaited 1000000 [3]
  exact ⟨haccepted, s, hs, hsequence waitThree_sequence (by decide),
    hlock waitThree_lockTime⟩

open Sample in
/-- The opcode masks its operand: 65536 blocks are asked for, and 19 waited. -/
theorem high_bits_not_waited :
    contextualCheckFinality (index 20) 0 (timelockBlock 0 waitHigh) = .ok () ∧
    (connectBlock timelockEnv timelockParams (index 20) io false
      usdsoqAssets timelockCoins
      (timelockBlock 0 waitHigh)).verdict = .ok () ∧
    PassesTimelock (env sameByte) crypto.toProofVerifiers
      (blockFlags timelockParams (index 20))
      (timelockSpend 0 waitHigh) 0 1000000 OP_CHECKSEQUENCEVERIFY [0, 0, 1] ∧
    (CScriptNum.setVch [0, 0, 1]).toNat.testBit SEQUENCE_LOCKTIME_DISABLE_FLAG = false ∧
    (CScriptNum.setVch [0, 0, 1]).toNat.testBit SEQUENCE_LOCKTIME_TYPE_FLAG = false ∧
    (index 20).nHeight - (timelockCoins.record (Uint256.fill 7)).nHeight = 19 ∧
    CScriptNum.setVch [0, 0, 1] = 65536 :=
  ⟨by decide +kernel, by decide +kernel,
    ⟨[], waitHigh, [0], [], [[0, 0, 1]], rfl,
      ⟨[(3, [0, 0, 1])], [], [], ⟨[[0, 0, 1]], []⟩, .cons rfl (.cons rfl .nil),
        by decide +kernel, rfl, rfl⟩, by decide +kernel⟩,
    by decide, by decide, by decide +kernel, by decide⟩

end Soqucoin
