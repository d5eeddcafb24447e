import Soqucoin.Params
import Soqucoin.SparseListProofs

/-! # Coins — the unspent outputs and their undo data

`coins.h`, `undo.h`, and from `validation.cpp` `UpdateCoins`, `ApplyTxInUndo` and the coin loop of
`DisconnectBlock`.

A null output (`nValue == -1`) is `none` here.  A record without outputs, an absent record and a
pruned one answer every query alike and compare equal, so the view keeps one of them: every record
it holds is cleaned up, and a record without outputs is the blank one. -/

namespace Soqucoin

open CheckedLoop SparseList

/-- The outputs of one transaction that are still unspent. -/
structure CCoins where
  fCoinBase : Bool
  vout : List (Option CTxOut)
  nHeight : Int
  nVersion : Int
deriving DecidableEq

namespace CCoins

/-- The blank record, which `Clear` leaves. -/
def blank : CCoins := ⟨false, [], 0, 0⟩

instance : Inhabited CCoins := ⟨blank⟩

/-- The output at a position, if it is there and not null. -/
def outputAt (c : CCoins) (n : Nat) : Option CTxOut := entry c.vout n

/-- The output is unspent. -/
def isAvailable (c : CCoins) (n : Nat) : Bool := (c.outputAt n).isSome

/-- `IsPruned`: no output is left. -/
def isPruned (c : CCoins) : Bool := c.vout.all Option.isNone

/-- `Cleanup`: drop the null outputs at the end. -/
def cleanup (c : CCoins) : CCoins := { c with vout := trim c.vout }

/-- An output that `ClearUnspendable` keeps. -/
def keepSpendable (o : CTxOut) : Option CTxOut :=
  if isUnspendable o.scriptPubKey then none else some o

/-- `ClearUnspendable`: outputs that nobody can spend are never stored. -/
def clearUnspendable (c : CCoins) : CCoins :=
  { c with vout := c.vout.map (Option.bind · keepSpendable) }.cleanup

/-- The record of a new transaction. -/
def fromTx (tx : CTransaction) (nHeight : Int) : CCoins :=
  clearUnspendable
    { fCoinBase := tx.isCoinBase
      vout := tx.vout.map fun o => if o.isNull then none else some o
      nHeight := nHeight
      nVersion := tx.nVersion }

/-- `Spend`, for an output that is there. -/
def spend (c : CCoins) (n : Nat) : CCoins := { c with vout := c.vout.set n none }.cleanup

/-- `operator==`: two pruned records are equal whatever else they say. -/
def sameAs (a b : CCoins) : Bool := (a.isPruned && b.isPruned) || a = b

/-- What the cache keeps of a record that was modified. -/
def normalize (c : CCoins) : CCoins := if c.cleanup.vout = [] then blank else c.cleanup

/-- Cleaned up, and blank when nothing is left. -/
def Canonical (c : CCoins) : Prop := Trimmed c.vout ∧ (c.vout = [] → c = blank)

theorem blank_canonical : blank.Canonical := ⟨fun h => (nomatch h), fun _ => rfl⟩

theorem normalize_canonical (c : CCoins) : c.normalize.Canonical := by
  rw [normalize]
  by_cases h : c.cleanup.vout = []
  · rw [if_pos h]
    exact blank_canonical
  · rw [if_neg h]
    exact ⟨trim_trimmed c.vout, fun hnil => absurd hnil h⟩

end CCoins

/-- The coins view: a record for every transaction id, and the block it stands at. -/
structure CoinsView where
  record : Uint256 → CCoins
  canonical : ∀ txid, (record txid).Canonical
  bestBlock : Uint256

namespace CoinsView

/-- Write a record back, as the destructor of a modifier does. -/
def store (v : CoinsView) (txid : Uint256) (c : CCoins) : CoinsView where
  record t := if t = txid then c.normalize else v.record t
  canonical t := by
    by_cases h : t = txid
    · rw [if_pos h]
      exact c.normalize_canonical
    · rw [if_neg h]
      exact v.canonical t
  bestBlock := v.bestBlock

/-- `SetBestBlock`. -/
def setBestBlock (v : CoinsView) (hash : Uint256) : CoinsView := { v with bestBlock := hash }

/-- The unspent output at an outpoint. -/
def output (v : CoinsView) (o : COutPoint) : Option CTxOut := (v.record o.hash).outputAt o.n

/-- The outpoint is unspent. -/
def isAvailable (v : CoinsView) (o : COutPoint) : Bool := (v.output o).isSome

/-- `HaveInputs`: every input is unspent. -/
def haveInputs (v : CoinsView) (tx : CTransaction) : Bool :=
  tx.isCoinBase || tx.vin.all fun txin => v.isAvailable txin.prevout

/-- No coins. -/
def emptyView (bestBlock : Uint256) : CoinsView :=
  ⟨fun _ => CCoins.blank, fun _ => CCoins.blank_canonical, bestBlock⟩

end CoinsView

/-! ## Spending and undoing -/

/-- What is kept to restore one spent output: the metadata of the record only
    when this was its last output, a zero height otherwise. -/
structure CTxInUndo where
  txout : CTxOut
  fCoinBase : Bool
  nHeight : Int
  nVersion : Int
deriving DecidableEq

/-- The undo data of a transaction, one entry an input. -/
abbrev CTxUndo := List CTxInUndo
/-- The undo data of a block, one entry a transaction after the coinbase. -/
abbrev CBlockUndo := List CTxUndo

/-- Spend one input and note how to undo it. -/
def spendInput (v : CoinsView) (txin : CTxIn) : Check (CoinsView × CTxInUndo) :=
  let coins := v.record txin.prevout.hash
  match coins.outputAt txin.prevout.n with
  | none => .error (.abort "assert(false)")
  | some txout =>
    let spent := coins.spend txin.prevout.n
    .ok (v.store txin.prevout.hash spent,
      if spent.vout = [] then ⟨txout, coins.fCoinBase, coins.nHeight, coins.nVersion⟩
      else ⟨txout, false, 0, 0⟩)

/-- Spend the inputs of a transaction in order. -/
def spendInputs : CoinsView → List CTxIn → Check (CoinsView × CTxUndo)
  | v, [] => .ok (v, [])
  | v, txin :: rest => do
      let (v, undo) ← spendInput v txin
      let (v, undos) ← spendInputs v rest
      .ok (v, undo :: undos)

/-- Mark the inputs of a transaction spent; a coinbase has none. -/
def spendTx (v : CoinsView) (tx : CTransaction) : Check (CoinsView × CTxUndo) :=
  if tx.isCoinBase then .ok (v, []) else spendInputs v tx.vin

/-- `UpdateCoins`.  A non-coinbase transaction whose id still has an unspent
    record is an exception in `ModifyNewCoins`. -/
def updateCoins (env : Env) (v : CoinsView) (tx : CTransaction) (nHeight : Int) :
    Check (CoinsView × CTxUndo) := do
  let (v, txundo) ← spendTx v tx
  require (tx.isCoinBase || (v.record (env.getHash tx)).isPruned)
    (.abort "ModifyNewCoins should not find pre-existing coins on a non-coinbase")
  .ok (v.store (env.getHash tx) (CCoins.fromTx tx nHeight), txundo)

/-- `ApplyTxInUndo`: whether the undo was clean, and the view with the output put back. -/
def applyTxInUndo (undo : CTxInUndo) (v : CoinsView) (out : COutPoint) : Bool × CoinsView :=
  let coins := v.record out.hash
  let fClean := if undo.nHeight ≠ 0 then coins.isPruned else !coins.isPruned
  let coins :=
    if undo.nHeight ≠ 0 then ⟨undo.fCoinBase, [], undo.nHeight, undo.nVersion⟩ else coins
  -- `vout.resize(out.n + 1)` where it is shorter, then the output
  (fClean && !coins.isAvailable out.n,
    v.store out.hash { coins with vout := put coins.vout out.n undo.txout })

/-- Take a transaction's outputs out of the view again. -/
def disconnectOutputs (env : Env) (v : CoinsView) (tx : CTransaction) (nHeight : Int) :
    Bool × CoinsView :=
  let outs := (v.record (env.getHash tx)).clearUnspendable
  let outsBlock := CCoins.fromTx tx nHeight
  let outs :=
    if outsBlock.nVersion < 0 then { outs with nVersion := outsBlock.nVersion } else outs
  (outs.sameAs outsBlock, v.store (env.getHash tx) CCoins.blank)

/-- Put a transaction's inputs back, the last one first. -/
def disconnectInputs (v : CoinsView) (inputs : List (CTxIn × CTxInUndo)) : Bool × CoinsView :=
  inputs.foldr (fun p s =>
    let r := applyTxInUndo p.2 s.2 p.1.prevout
    (s.1 && r.1, r.2)) (true, v)

/-- One turn of the coin loop of `DisconnectBlock`; the coinbase has no undo
    data.  It fails when the undo data does not fit the transaction. -/
def disconnectTx (env : Env) (nHeight : Int) (s : Bool × CoinsView)
    (p : CTransaction × Option CTxUndo) : Check (Bool × CoinsView) :=
  let (fClean, v) := disconnectOutputs env s.2 p.1 nHeight
  match p.2 with
  | none => .ok (s.1 && fClean, v)
  | some txundo =>
    if txundo.length ≠ p.1.vin.length then
      .error (.abort "DisconnectBlock(): transaction and undo data inconsistent")
    else
      let r := disconnectInputs v (p.1.vin.zip txundo)
      .ok (s.1 && fClean && r.1, r.2)

/-- Every transaction with its undo data; the coinbase has none. -/
def withUndo (vtx : List CTransaction) (blockundo : CBlockUndo) :
    List (CTransaction × Option CTxUndo) :=
  vtx.zip (none :: blockundo.map some)

/-- The coin loop of `DisconnectBlock`, from the last transaction to the first. -/
def disconnectCoins (env : Env) (nHeight : Int) (v : CoinsView) (vtx : List CTransaction)
    (blockundo : CBlockUndo) : Check (Bool × CoinsView) := do
  require (blockundo.length + 1 = vtx.length)
    (.abort "DisconnectBlock(): block and undo data inconsistent")
  (withUndo vtx blockundo).reverse.foldlM (disconnectTx env nHeight) (true, v)

end Soqucoin
