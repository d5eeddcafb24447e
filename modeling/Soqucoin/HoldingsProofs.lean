import Mathlib.Algebra.BigOperators.Group.Finset.Basic
import Mathlib.Algebra.Order.BigOperators.Group.Finset
import Mathlib.Data.Fintype.BigOperators
import Mathlib.Data.Set.Finite.List
import Soqucoin.ConservationProofs

/-! # The unspent holdings of an asset

`holdings kind v` is the value of all unspent outputs of a kind, over every transaction id.  A
block changes it by what its authority transactions create and spend and by nothing else
(`Accepted.holdings_eq`): spending takes an output out, a new record never replaces an unspent
one, and the other transactions conserve the asset. -/

namespace Soqucoin

open CheckedLoop SparseList

variable {env : Env} {params : CChainParams} {idx : CBlockIndex} {io : NodeIO}
variable {fJustCheck : Bool} {a : Assets} {view v : CoinsView} {block : CBlock}
variable {fp : FirstPass} {p : Pending} {kind : CTxOut → Bool} {isMarker : CScript → Bool}

instance finiteUInt8 : Finite UInt8 :=
  Finite.of_injective UInt8.toFin fun _ _ h => UInt8.toFin_inj.mp h

instance : Finite Uint256 := by
  have hbytes := (List.finite_length_eq UInt8 32).to_subtype
  refine Finite.of_injective
    (fun h : Uint256 => (⟨h.bytes, h.size_eq⟩ : {l : List UInt8 | l.length = 32})) fun a b h => ?_
  cases a
  cases b
  exact (Uint256.mk.injEq ..).mpr (congrArg Subtype.val h)

noncomputable instance : Fintype Uint256 := Fintype.ofFinite Uint256

/-! ## The sum -/

/-- What an output counts for. -/
def heldValue (kind : CTxOut → Bool) (o : CTxOut) : Int := if kind o then o.nValue else 0

/-- The value of the unspent outputs of a kind in one record. -/
def CCoins.held (kind : CTxOut → Bool) (c : CCoins) : Int := total (heldValue kind) c.vout

/-- **The unspent holdings**: the value of all unspent outputs of a kind. -/
noncomputable def holdings (kind : CTxOut → Bool) (v : CoinsView) : Int :=
  ∑ t : Uint256, (v.record t).held kind

theorem holdings_emptyView (hash : Uint256) : holdings kind (CoinsView.emptyView hash) = 0 :=
  Finset.sum_eq_zero fun _ _ => rfl

theorem holdings_setBestBlock (hash : Uint256) :
    holdings kind (v.setBestBlock hash) = holdings kind v := rfl

theorem held_cleanup (c : CCoins) : c.cleanup.held kind = c.held kind :=
  total_trim ..

theorem held_normalize (c : CCoins) : c.normalize.held kind = c.held kind := by
  rw [CCoins.normalize]
  split
  · rename_i hnil
    rw [← held_cleanup c, CCoins.held, CCoins.held, hnil]
    rfl
  · exact held_cleanup c

/-- Storing a record changes the holdings by what it holds less what it held. -/
theorem holdings_store (t : Uint256) (c : CCoins) :
    holdings kind (v.store t c) = holdings kind v + (c.held kind - (v.record t).held kind) := by
  have hdiff : ∑ s : Uint256, (((v.store t c).record s).held kind - (v.record s).held kind) =
      c.held kind - (v.record t).held kind := by
    rw [Finset.sum_eq_single t]
    · rw [CoinsView.record_store, if_pos rfl, held_normalize]
    · intro s _ hs
      rw [CoinsView.record_store, if_neg hs, Int.sub_self]
    · exact fun h => absurd (Finset.mem_univ t) h
  rw [Finset.sum_sub_distrib] at hdiff
  rw [holdings, holdings]
  omega

/-! ## Spending and creating -/

theorem valueOf_eq_total (kind : CTxOut → Bool) (outs : List CTxOut) :
    valueOf kind outs = (outs.map (heldValue kind)).sum := by
  induction outs with
  | nil => rfl
  | cons o outs ih => rw [valueOf_cons, ih, List.map_cons, List.sum_cons, heldValue]

variable {v' : CoinsView} {tx : CTransaction} {c : CCoins} {undo : CTxUndo} {fQueue : Bool}
  {txs : List (CTransaction × CTxUndo)} {chks : List CScriptCheck}

/-- A spent input takes its value off the holdings. -/
theorem holdings_spendInput {txin : CTxIn} {undo : CTxInUndo}
    (h : spendInput v txin = .ok (v', undo)) :
    holdings kind v' = holdings kind v - heldValue kind undo.txout := by
  obtain ⟨txout, hout, rfl, hundo⟩ := spendInput_eq_ok.mp h
  have htxout : undo.txout = txout := by
    rw [hundo, undoEntry_txout]
  have hspent : ((v.record txin.prevout.hash).spend txin.prevout.n).held kind =
      (v.record txin.prevout.hash).held kind - heldValue kind txout := by
    rw [CCoins.spend, held_cleanup]
    exact total_set_none _ _ hout
  rw [CoinsView.spendOne, holdings_store, hspent, htxout]
  omega

/-- So do the inputs of a transaction. -/
theorem holdings_spendInputs :
    ∀ {vin : List CTxIn} {v v' : CoinsView} {undos : CTxUndo},
      spendInputs v vin = .ok (v', undos) →
      holdings kind v' = holdings kind v - valueOf kind (undos.map CTxInUndo.txout) := by
  intro vin
  induction vin with
  | nil =>
    intro v v' undos h
    obtain ⟨rfl, rfl⟩ := Prod.mk.inj (Except.ok.inj h)
    exact (Int.sub_zero _).symm
  | cons txin rest ih =>
    intro v v' undos h
    obtain ⟨v₁, u, us, h₁, h₂, rfl⟩ := spendInputs_cons_eq_ok.mp h
    rw [ih h₂, holdings_spendInput h₁, List.map_cons, valueOf_cons, heldValue]
    omega

/-- The outputs of a kind that the coins record of their transaction keeps. -/
def kept (kind : CTxOut → Bool) (o : CTxOut) : Bool := kind o && !isUnspendable o.scriptPubKey

/-- A new record holds the spendable outputs of the kind. -/
theorem held_fromTx_kept (hout : InRange tx.vout) (nHeight : Int) :
    (CCoins.fromTx tx nHeight).held kind = valueOf (kept kind) tx.vout := by
  rw [CCoins.fromTx, CCoins.clearUnspendable, held_cleanup, valueOf_eq_total, CCoins.held, total,
    List.map_map, List.map_map]
  refine congrArg List.sum (List.map_congr_left fun o ho => ?_)
  have hnotNull : o.isNull = false := by
    have hnonneg := hout.nonneg o ho
    rw [CTxOut.isNull, decide_eq_false_iff_not]
    omega
  show Option.elim (Option.bind (if o.isNull then none else some o) CCoins.keepSpendable) 0
    (heldValue kind) = heldValue (kept kind) o
  rw [hnotNull, if_neg Bool.false_ne_true, Option.bind_some, CCoins.keepSpendable, heldValue, kept]
  cases isUnspendable o.scriptPubKey with
  | false =>
    rw [Bool.not_false, Bool.and_true]
    rfl
  | true =>
    rw [Bool.not_true, Bool.and_false]
    rfl

/-- Holdings are kept by the coins record: they are neither null nor unspendable. -/
def Spendable (kind : CTxOut → Bool) : Prop :=
  ∀ o, kind o = true → isUnspendable o.scriptPubKey = false

theorem kept_of_spendable (hkind : Spendable kind) : kept kind = kind := by
  funext o
  rw [kept]
  cases hk : kind o with
  | false => rfl
  | true =>
    rw [hkind o hk]
    rfl

theorem held_of_isPruned (h : c.isPruned) : c.held kind = 0 := by
  refine List.sum_eq_zero fun x hx => ?_
  obtain ⟨o, ho, rfl⟩ := List.mem_map.mp hx
  have hnone := List.all_eq_true.mp h o ho
  rw [Option.isNone_iff_eq_none.mp hnone]
  rfl

/-- `UpdateCoins` moves the holdings by what the transaction creates and the
    record keeps, and by what the transaction spends. -/
theorem holdings_updateCoins_kept {nHeight : Int} (hout : InRange tx.vout)
    (hfresh : tx.isCoinBase → (v.record (env.getHash tx)).isPruned)
    (h : updateCoins env v tx nHeight = .ok (v', undo)) :
    holdings kind v' = holdings kind v + valueOf (kept kind) tx.vout -
      (if tx.isCoinBase then 0 else valueOf kind (spentOutputs v tx)) := by
  cases hcb : tx.isCoinBase with
  | true =>
    rw [(updateCoins_of_coinbase hcb h).2, holdings_store, held_fromTx_kept hout,
      held_of_isPruned (hfresh hcb), if_pos rfl]
    omega
  | false =>
    obtain ⟨v₁, hspend, hpruned, rfl⟩ := updateCoins_of_not_coinbase hcb h
    rw [holdings_store, held_fromTx_kept hout, held_of_isPruned hpruned,
      holdings_spendInputs hspend, ← spentOutputs_of_spendInputs hspend,
      if_neg Bool.false_ne_true]
    omega

theorem holdings_updateCoins (hkind : Spendable kind) {nHeight : Int} (hout : InRange tx.vout)
    (hfresh : tx.isCoinBase → (v.record (env.getHash tx)).isPruned)
    (h : updateCoins env v tx nHeight = .ok (v', undo)) :
    holdings kind v' = holdings kind v + valueOf kind tx.vout -
      (if tx.isCoinBase then 0 else valueOf kind (spentOutputs v tx)) := by
  rw [holdings_updateCoins_kept hout hfresh h, kept_of_spendable hkind]

/-! ## One block -/

/-- The rules that make the outputs of a kind an asset with a marker: they can be spent, no
    coinbase creates them, and without a marker they are conserved. -/
structure Conserves (isMarker : CScript → Bool) (kind : CTxOut → Bool) : Prop where
  spendable : Spendable kind
  coinbase : ∀ tx, tx.isCoinBase = true → checkTransaction tx = .ok () →
    ∀ o ∈ tx.vout, kind o = false
  transfer : ∀ (params : CChainParams) (a : Assets) (v : CoinsView) (tx : CTransaction)
    (nSpendHeight : Int), InRange tx.vout → checkTxInputs params a v tx nSpendHeight = .ok () →
    hasMarker isMarker tx = false → valueOf kind (spentOutputs v tx) = valueOf kind tx.vout

/-- Only an authority transaction changes the holdings. -/
theorem holdings_tx (hrules : Conserves isMarker kind) {chk : List CScriptCheck}
    (htx : checkTransaction tx = .ok ())
    (hfresh : tx.isCoinBase → (v.record (env.getHash tx)).isPruned)
    (hchecked : checkInputs env params a v tx idx.nHeight idx.fScriptChecks (blockFlags params idx)
      fQueue = .ok chk)
    (hupdated : updateCoins env v tx idx.nHeight = .ok (v', undo)) :
    holdings kind v' = holdings kind v +
      (if isAuthorityTx isMarker tx then valueOf kind tx.vout else 0) -
      (if isAuthorityTx isMarker tx then valueOf kind (spentOutputs v tx) else 0) := by
  have hout := checkTransaction_outputs htx
  rw [holdings_updateCoins hrules.spendable hout hfresh hupdated, isAuthorityTx]
  cases hcb : tx.isCoinBase with
  | true =>
    have hnone := valueOf_eq_zero (hrules.coinbase tx hcb htx)
    simp only [Bool.not_true, Bool.false_and, Bool.false_eq_true, if_true, if_false, hnone]
  | false =>
    cases hmark : hasMarker isMarker tx with
    | true => rfl
    | false =>
      have hsame := hrules.transfer params a v tx idx.nHeight hout
        (checkInputs_checkTxInputs hcb hchecked) hmark
      simp only [Bool.not_false, Bool.and_false, Bool.false_eq_true, if_false, hsame]
      omega

/-- The holdings after a chain of transactions. -/
theorem holdings_connects (hrules : Conserves isMarker kind)
    (h : Connects env params idx a fQueue v txs v' chks)
    (htxs : ∀ q ∈ txs, checkTransaction q.1 = .ok () ∧ q.1.isCoinBase = false) :
    holdings kind v' = holdings kind v +
      authorityCreated isMarker kind (txs.map Prod.fst) -
      authoritySpent env idx.nHeight isMarker kind v (txs.map Prod.fst) := by
  induction h with
  | nil v =>
    show holdings kind v = holdings kind v + 0 - 0
    omega
  | @cons v v₁ v' tx undo rest chk chks _ checked updated _ ih =>
    obtain ⟨htx, hcb⟩ := htxs (tx, undo) (List.mem_cons_self ..)
    have hhead := holdings_tx hrules htx (fun h => nomatch hcb.symm.trans h) checked updated
    rw [ih fun q hq => htxs q (List.mem_cons_of_mem _ hq), hhead, List.map_cons,
      authorityCreated, authorityCreated, List.map_cons, List.sum_cons, authoritySpent,
      ← afterTx_of_updateCoins updated]
    omega

/-- **A block moves the holdings by its authority transactions**, by what they
    create less what they spend. -/
theorem Accepted.holdings_eq (hrules : Conserves isMarker kind)
    (h : Accepted env params idx io fJustCheck a view block fp p) :
    holdings kind fp.view = holdings kind view + authorityCreated isMarker kind block.vtx -
      authoritySpent env idx.nHeight isMarker kind view block.vtx := by
  obtain ⟨coinbase, txs, hvtx, hcb, htxs⟩ := checkBlock_shape h.checked
  have hcheck := checkBlock_checkTransaction h.checked
  have hfresh := checkBIP30_fresh h.bip30
  have hcon := h.connects
  have hlen := h.undos_length
  rw [hvtx] at hcheck hfresh hcon hlen ⊢
  cases hundos : fp.undos with
  | nil =>
    rw [hundos] at hlen
    exact nomatch hlen
  | cons u us =>
    rw [hundos] at hcon hlen
    have hus : (txs.zip us).map Prod.fst = txs :=
      List.map_fst_zip (Nat.le_of_eq (Nat.succ.inj hlen).symm)
    rw [List.zip_cons_cons] at hcon
    generalize fp.checks = checks at hcon
    cases hcon with
    | cons _ checked updated later =>
      have hhead := holdings_tx hrules (hcheck coinbase (List.mem_cons_self ..))
        (fun _ => hfresh coinbase (List.mem_cons_self ..)) checked updated
      have htail := holdings_connects hrules later fun q hq =>
        have hmem := (List.of_mem_zip hq).1
        ⟨hcheck q.1 (List.mem_cons_of_mem _ hmem), htxs q.1 hmem⟩
      rw [hus] at htail
      rw [htail, hhead, authorityCreated, authorityCreated, List.map_cons, List.sum_cons,
        authoritySpent, ← afterTx_of_updateCoins updated]
      omega

/-! ## Values are not negative -/

/-- Authority transactions create no negative amount. -/
theorem authorityCreated_nonneg (h : Accepted env params idx io fJustCheck a view block fp p) :
    0 ≤ authorityCreated isMarker kind block.vtx := by
  refine List.sum_nonneg fun x hx => ?_
  obtain ⟨tx, htx, rfl⟩ := List.mem_map.mp hx
  have hout := checkTransaction_outputs (checkBlock_checkTransaction h.checked tx htx)
  show 0 ≤ if isAuthorityTx isMarker tx then valueOf kind tx.vout else 0
  split
  · exact hout.valueOf_nonneg
  · exact le_refl _

/-- What authority transactions spend is not negative. -/
theorem authoritySpent_nonneg (h : Connects env params idx a fQueue v txs v' chks) :
    0 ≤ authoritySpent env idx.nHeight isMarker kind v (txs.map Prod.fst) := by
  induction h with
  | nil v => exact le_refl _
  | @cons v v₁ v' tx undo rest chk chks _ checked updated _ ih =>
    rw [List.map_cons, authoritySpent, ← afterTx_of_updateCoins updated]
    refine Int.add_nonneg ?_ ih
    split
    · rename_i hauth
      have hcb := (isAuthorityTx_iff.mp hauth).1
      exact (checkTxInputs_inputs (checkInputs_checkTxInputs hcb checked)).valueOf_nonneg
    · exact le_refl _

/-- No unspent output of the record has a negative value. -/
def CCoins.NonNegative (c : CCoins) : Prop := ∀ o, some o ∈ c.vout → 0 ≤ o.nValue

/-- No unspent output has a negative value. -/
def CoinsView.NonNegative (v : CoinsView) : Prop := ∀ t, (v.record t).NonNegative

theorem nonNegative_cleanup (h : c.NonNegative) : c.cleanup.NonNegative :=
  fun o ho => h o ((List.rdropWhile_prefix _ _).mem ho)

/-- Storing a record without negative values keeps the view so. -/
theorem nonNegative_store {t : Uint256} (hv : v.NonNegative) (hc : c.NonNegative) :
    (v.store t c).NonNegative := by
  intro s
  rw [CoinsView.record_store]
  split
  · rw [CCoins.normalize]
    split
    · exact fun _ ho => absurd ho List.not_mem_nil
    · exact nonNegative_cleanup hc
  · exact hv s

theorem nonNegative_spend (h : c.NonNegative) (n : Nat) : (c.spend n).NonNegative := by
  refine nonNegative_cleanup fun o ho => ?_
  rcases List.mem_or_eq_of_mem_set ho with ho | ho
  · exact h o ho
  · exact nomatch ho

/-- A new record has no negative output. -/
theorem nonNegative_fromTx (hout : InRange tx.vout) (nHeight : Int) :
    (CCoins.fromTx tx nHeight).NonNegative := by
  refine nonNegative_cleanup fun o ho => ?_
  obtain ⟨x, hx, hkeep⟩ := List.mem_map.mp ho
  obtain ⟨o', ho', rfl⟩ := List.mem_map.mp hx
  -- an output that is kept is one of the transaction's
  obtain ⟨o₁, h₁, h₂⟩ := Option.bind_eq_some_iff.mp hkeep
  have heq₁ : o' = o₁ := by
    split at h₁
    · cases h₁
    · exact Option.some.inj h₁
  have heq₂ : o₁ = o := by
    rw [CCoins.keepSpendable] at h₂
    split at h₂
    · cases h₂
    · exact Option.some.inj h₂
  rw [← heq₂, ← heq₁]
  exact hout.nonneg o' ho'

theorem nonNegative_spendOne (hv : v.NonNegative) (o : COutPoint) :
    (v.spendOne o).NonNegative :=
  nonNegative_store hv (nonNegative_spend (hv _) _)

/-- No transaction makes a negative output. -/
theorem nonNegative_connects (h : Connects env params idx a fQueue v txs v' chks)
    (hv : v.NonNegative) (htxs : ∀ q ∈ txs, checkTransaction q.1 = .ok ()) : v'.NonNegative := by
  induction h with
  | nil v => exact hv
  | @cons v v₁ v' tx undo rest chk chks _ _ updated _ ih =>
    have hout := checkTransaction_outputs (htxs (tx, undo) (List.mem_cons_self ..))
    refine ih ?_ fun q hq => htxs q (List.mem_cons_of_mem _ hq)
    cases hcb : tx.isCoinBase with
    | true =>
      rw [(updateCoins_of_coinbase hcb updated).2]
      exact nonNegative_store hv (nonNegative_fromTx hout _)
    | false =>
      obtain ⟨v₂, hspend, -, rfl⟩ := updateCoins_of_not_coinbase hcb updated
      have hspent : v₂.NonNegative :=
        spendInputs_invariant CoinsView.NonNegative
          (fun _ o _ _ hw => nonNegative_spendOne hw o) hspend hv
      exact nonNegative_store hspent (nonNegative_fromTx hout _)

theorem Accepted.nonNegative (h : Accepted env params idx io fJustCheck a view block fp p)
    (hview : view.NonNegative) : fp.view.NonNegative :=
  nonNegative_connects h.connects hview fun q hq =>
    checkBlock_checkTransaction h.checked q.1 (List.of_mem_zip hq).1

theorem holdings_nonneg (h : v.NonNegative) : 0 ≤ holdings kind v := by
  refine Finset.sum_nonneg fun t _ => List.sum_nonneg fun x hx => ?_
  obtain ⟨o, ho, rfl⟩ := List.mem_map.mp hx
  cases o with
  | none => exact le_refl _
  | some o =>
    show 0 ≤ if kind o then o.nValue else 0
    split
    · exact h t o ho
    · exact le_refl _

end Soqucoin
