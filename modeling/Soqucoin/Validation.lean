import Soqucoin.Authority
import Soqucoin.Coins
import Soqucoin.ScriptVerify
import Soqucoin.Supply

/-! # Validation — the checks on a transaction and on a block by itself

`CheckTransaction`, `CheckBlock`, `Consensus::CheckTxInputs` and `CheckInputs` of
`validation.cpp`, and `HasDilithiumSignatures`.  Tests run in the order of the source, and each
failing one ends the run with the source's reason. -/

namespace Soqucoin

open CheckedLoop

/-! ## Asset state -/

/-- What the node keeps of one asset: the globals, and the records of the chainstate database.
    Outpoint and supply records may be absent. -/
structure AssetState where
  authority : Authority
  supply : Supply
  authorityOutpoint : COutPoint
  dbSupply : Option Supply
  dbAuthorityOutpoint : Option COutPoint
  dbFrozen : Finset COutPoint

/-- The two assets, and the Bitcoin deposits already minted. -/
structure Assets where
  usdsoq : AssetState
  btcsoq : AssetState
  dbMinted : Finset COutPoint

/-! ## `CheckTransaction` -/

/-- The data of the last push of a script. -/
def lastPush : Nat → Bytes → Bytes → Option Bytes
  | _, [], last => some last
  | 0, _ :: _, _ => none
  | fuel + 1, pc, last =>
    match getOp pc with
    | none => none
    | some (opcode, data, rest) =>
      lastPush fuel rest (if opcode ≤ OP_PUSHDATA4 then data else last)

/-- The item `HasDilithiumSignatures` takes for the key of an input. -/
def keyBlob (txin : CTxIn) : Option Bytes :=
  match txin.scriptWitness.getLast? with
  | some item => some item
  | none => lastPush txin.scriptSig.length txin.scriptSig []

/-- The USDSOQ authority shape: a marker output and an authority witness. -/
def isUSDSOQAuthorityShape (tx : CTransaction) : Bool :=
  hasMarker isUSDSOQAuthorityMarker tx &&
    tx.vin.any fun txin => isAuthorityWitness isUSDSOQTag txin.scriptWitness

/-- A BTCSOQ marker, and an input with an authority witness. -/
def isBTCSOQAuthorityShape (tx : CTransaction) : Bool :=
  hasMarker isBTCSOQAuthorityMarker tx &&
    tx.vin.any fun txin => isAuthorityWitness isBTCSOQTag txin.scriptWitness

/-- `HasDilithiumSignatures`. -/
def hasDilithiumSignatures (tx : CTransaction) : Bool :=
  tx.isCoinBase || isUSDSOQAuthorityShape tx ||
    tx.vin.all fun txin =>
      match keyBlob txin with
      | some (b :: _) => b = 0
      | _ => false

/-- `nValueOut += txout.nValue`, with the tests around it. -/
def checkOutputValue (nValueOut : Int) (txout : CTxOut) : Check Int := do
  require (0 ≤ txout.nValue) (.dos 100 "bad-txns-vout-negative")
  require (txout.nValue ≤ MAX_MONEY) (.dos 100 "bad-txns-vout-toolarge")
  let nValueOut := wrap64 (nValueOut + txout.nValue)
  require (moneyRange nValueOut) (.dos 100 "bad-txns-txouttotal-toolarge")
  .ok nValueOut

/-- `CheckTransaction`. -/
def checkTransaction (tx : CTransaction) : Check Unit := do
  require (!tx.vin.isEmpty) (.dos 10 "bad-txns-vin-empty")
  require (!tx.vout.isEmpty) (.dos 10 "bad-txns-vout-empty")
  require (baseSize tx ≤ MAX_BLOCK_BASE_SIZE) (.dos 100 "bad-txns-oversize")
  let _ ← tx.vout.foldlM checkOutputValue 0
  require (decide (tx.vin.map CTxIn.prevout).Nodup) (.dos 100 "bad-txns-inputs-duplicate")
  require (!tx.isCoinBase ||
      tx.vin.all (fun txin => 2 ≤ txin.scriptSig.length && txin.scriptSig.length ≤ 100))
    (.dos 100 "bad-cb-length")
  require (tx.isCoinBase || tx.vin.all (fun txin => !txin.prevout.isNull))
    (.dos 10 "bad-txns-prevout-null")
  require (hasDilithiumSignatures tx) (.dos 100 "bad-txns-requires-dilithium")
  require (!(tx.isCoinBase &&
      (tx.vout.any CTxOut.isAnyUSDSOQ || hasMarker isUSDSOQAuthorityMarker tx)))
    (.dos 100 "bad-cb-usdsoq-asset")
  require (!(tx.isCoinBase &&
      (tx.vout.any CTxOut.isBTCSOQ || hasMarker isBTCSOQAuthorityMarker tx)))
    (.dos 100 "bad-cb-btcsoq-asset")
  require (!(hasMarker isUSDSOQAuthorityMarker tx && hasMarker isBTCSOQAuthorityMarker tx))
    (.dos 100 "bad-txns-dual-authority-marker")

/-! ## `CheckBlock` -/

/-- The first transaction is a coinbase and no other one is. -/
def checkCoinbasePosition (vtx : List CTransaction) : Check Unit :=
  match vtx with
  | [] => .error (.dos 100 "bad-cb-missing")
  | tx :: rest => do
      require tx.isCoinBase (.dos 100 "bad-cb-missing")
      require (rest.all fun tx => !tx.isCoinBase) (.dos 100 "bad-cb-multiple")

/-- `CheckBlock(block, state, fCheck, fCheck)`.  The flag `fChecked`, by which the source skips a
    block that passed before, is left out: it changes no verdict. -/
def checkBlock (env : Env) (block : CBlock) (fCheck : Bool) : Check Unit := do
  require (!fCheck || env.checkAuxPowProofOfWork block) (.dos 50 "high-hash")
  require (!fCheck || env.merkleRootMatches block) (.dos 100 "bad-txnmrklroot")
  require (!fCheck || !env.merkleMutated block) (.dos 100 "bad-txns-duplicate")
  require (!block.vtx.isEmpty && block.vtx.length ≤ MAX_BLOCK_BASE_SIZE &&
    blockBaseSize block ≤ MAX_BLOCK_BASE_SIZE) (.dos 100 "bad-blk-length")
  checkCoinbasePosition block.vtx
  forM block.vtx checkTransaction
  require (((block.vtx.map env.getLegacySigOpCount).sum * WITNESS_SCALE_FACTOR : Nat) ≤
    MAX_BLOCK_SIGOPS_COST) (.dos 100 "bad-blk-sigops")

/-! ## `CheckTxInputs` -/

/-- The outputs a transaction spends, in the order of its inputs. -/
def spentOutputs (v : CoinsView) (tx : CTransaction) : List CTxOut :=
  tx.vin.map fun txin => (v.output txin.prevout).getD default

/-- `nValueIn += coins->vout[prevout.n].nValue`, with the tests around it. -/
def checkInputValue (params : CChainParams) (v : CoinsView) (nSpendHeight : Int)
    (nValueIn : Int) (txin : CTxIn) : Check Int := do
  let coins := v.record txin.prevout.hash
  require (!(coins.fCoinBase && nSpendHeight - coins.nHeight <
      (params.getConsensus coins.nHeight).nCoinbaseMaturity))
    (.invalid "bad-txns-premature-spend-of-coinbase")
  let value := ((v.output txin.prevout).getD default).nValue
  let nValueIn := wrap64 (nValueIn + value)
  require (moneyRange value && moneyRange nValueIn)
    (.dos 100 "bad-txns-inputvalues-outofrange")
  .ok nValueIn

/-- `GetValueOut`, which throws on a value or a total out of range. -/
def getValueOut (tx : CTransaction) : Check Int :=
  tx.vout.foldlM (fun nValueOut txout => do
    let nValueOut := wrap64 (nValueOut + txout.nValue)
    require (moneyRange txout.nValue && moneyRange nValueOut)
      (.abort "CTransaction::GetValueOut(): value out of range")
    .ok nValueOut) 0

/-- Total value of the outputs of one kind. -/
def sumOf (p : CTxOut → Bool) (outs : List CTxOut) : Int :=
  sumAmounts ((outs.filter p).map CTxOut.nValue)

/-- The conservation rule of one asset, and the kinds of inputs a transfer of it may have. -/
def checkConservation (isHolding : CTxOut → Bool) (notConserved mismatch : String)
    (prevs : List CTxOut) (tx : CTransaction) : Check Unit := do
  require (sumOf isHolding prevs = sumOf isHolding tx.vout) (.dos 100 notConserved)
  require (!(0 < sumOf isHolding tx.vout) ||
      prevs.all (fun p => isHolding p || (p.isNativeSOQ && p.isTransparent)))
    (.dos 100 mismatch)

/-- USDSOQ values balance. -/
def checkUSDSOQConservation (prevs : List CTxOut) (tx : CTransaction) : Check Unit :=
  checkConservation CTxOut.isAnyUSDSOQ "bad-txns-usdsoq-not-conserved"
    "bad-txns-usdsoq-input-mismatch" prevs tx

/-- BTCSOQ values balance. -/
def checkBTCSOQConservation (prevs : List CTxOut) (tx : CTransaction) : Check Unit :=
  checkConservation CTxOut.isBTCSOQ "bad-txns-btcsoq-not-conserved"
    "bad-txns-btcsoq-input-mismatch" prevs tx

/-- USDSOQ is active at the height and its authority is set up. -/
def usdsoqActiveHere (params : CChainParams) (a : Assets) (nHeight : Int) : Bool :=
  deploymentActiveAtHeight nHeight (params.getConsensus nHeight) .usdsoq &&
    a.usdsoq.authority.isInitialized

/-- BTCSOQ is active at the height and its authority is set up. -/
def btcsoqActiveHere (params : CChainParams) (a : Assets) (nHeight : Int) : Bool :=
  deploymentActiveAtHeight nHeight (params.getConsensus nHeight) .btcsoq &&
    a.btcsoq.authority.isInitialized

/-- `Consensus::CheckTxInputs`. -/
def checkTxInputs (params : CChainParams) (a : Assets) (v : CoinsView) (tx : CTransaction)
    (nSpendHeight : Int) : Check Unit := do
  require (v.haveInputs tx) (.invalid "")
  let allIn ← tx.vin.foldlM (checkInputValue params v nSpendHeight) 0
  let allOut ← getValueOut tx
  let prevs := spentOutputs v tx
  let isAuthorityTx := usdsoqActiveHere params a nSpendHeight &&
    hasMarker isUSDSOQAuthorityMarker tx
  let isBTCSOQAuthorityTx := btcsoqActiveHere params a nSpendHeight &&
    hasMarker isBTCSOQAuthorityMarker tx
  let perAsset := isAuthorityTx || isBTCSOQAuthorityTx
  let nValueOut := if perAsset then sumOf CTxOut.isNativeSOQ tx.vout else allOut
  let nValueIn := if perAsset then sumOf CTxOut.isNativeSOQ prevs else allIn
  require (nValueOut ≤ nValueIn) (.dos 100 "bad-txns-in-belowout")
  let nTxFee := wrap64 (nValueIn - nValueOut)
  require (0 ≤ nTxFee) (.dos 100 "bad-txns-fee-negative")
  require (moneyRange nTxFee) (.dos 100 "bad-txns-fee-outofrange")
  skipIf isAuthorityTx (checkUSDSOQConservation prevs tx)
  skipIf isBTCSOQAuthorityTx (checkBTCSOQConservation prevs tx)

/-! ## `CheckInputs` -/

/-- `CScriptCheck`: one input to verify. -/
structure CScriptCheck where
  tx : CTransaction
  nIn : Nat
  prevOut : CTxOut
  flags : ScriptFlags

/-- `CScriptCheck::operator()`. -/
def CScriptCheck.run (env : Env) (c : CScriptCheck) : Bool :=
  verifyScript env c.flags c.tx c.nIn c.prevOut.nValue c.prevOut.scriptPubKey
    (c.tx.vin.getD c.nIn default).scriptWitness

/-- `flags & STANDARD_NOT_MANDATORY_VERIFY_FLAGS`. -/
def ScriptFlags.hasNonMandatory (f : ScriptFlags) : Bool :=
  f.scriptRestore || f.dersig || f.nulldummy || f.checkLockTimeVerify ||
    f.checkSequenceVerify || f.witness

/-- `flags & ~STANDARD_NOT_MANDATORY_VERIFY_FLAGS`. -/
def ScriptFlags.mandatory (f : ScriptFlags) : ScriptFlags :=
  { f with
    scriptRestore := false
    dersig := false
    nulldummy := false
    checkLockTimeVerify := false
    checkSequenceVerify := false
    witness := false }

/-- The checks of a transaction, one an input. -/
def scriptChecks (v : CoinsView) (flags : ScriptFlags) (tx : CTransaction) : List CScriptCheck :=
  (spentOutputs v tx).zipIdx.map fun p => ⟨tx, p.2, p.1, flags⟩

/-- Run a script check at once, as a node without script threads does. -/
def runScriptCheck (env : Env) (c : CScriptCheck) : Check Unit :=
  if c.run env then .ok ()
  else if c.flags.hasNonMandatory && CScriptCheck.run env { c with flags := c.flags.mandatory }
  then .error (.invalid "non-mandatory-script-verify-flag")
  else .error (.dos 100 "mandatory-script-verify-flag-failed")

/-- The authority exemption of `CheckInputs`: all scripts of the transaction are skipped. -/
def skipsScripts (flags : ScriptFlags) (tx : CTransaction) : Bool :=
  (isUSDSOQAuthorityShape tx && flags.usdsoq) || (isBTCSOQAuthorityShape tx && flags.btcsoq)

/-- `CheckInputs`: the script checks left to run later, none when they are run at once. -/
def checkInputs (env : Env) (params : CChainParams) (a : Assets) (v : CoinsView)
    (tx : CTransaction) (nSpendHeight : Int) (fScriptChecks : Bool) (flags : ScriptFlags)
    (fQueue : Bool) : Check (List CScriptCheck) :=
  if tx.isCoinBase then .ok []
  else do
    checkTxInputs params a v tx nSpendHeight
    if !fScriptChecks then .ok []
    else do
      require (!(isUSDSOQAuthorityShape tx && flags.usdsoq) || a.usdsoq.authority.isInitialized)
        (.dos 100 "bad-usdsoq-authority-unavailable")
      require (!(isBTCSOQAuthorityShape tx && flags.btcsoq) || a.btcsoq.authority.isInitialized)
        (.dos 100 "bad-btcsoq-authority-unavailable")
      if skipsScripts flags tx then .ok []
      else if fQueue then .ok (scriptChecks v flags tx)
      else do
        forM (scriptChecks v flags tx) (runScriptCheck env)
        .ok []

end Soqucoin
