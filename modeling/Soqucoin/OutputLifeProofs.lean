import Soqucoin.FlowProofs

/-! # The life of one output

What the coins view has at one outpoint, from transaction to transaction of a block.  An output
enters the view with the transaction that creates it, stays while no input names it, and leaves
with the first one that does. Transaction ids are not assumed to differ: `UpdateCoins` and BIP30
keep a new record from covering a live one (`Accepted.output_kept`). -/

namespace Soqucoin

open CheckedLoop SparseList

variable {env : Env} {params : CChainParams} {idx : CBlockIndex} {io : NodeIO}
variable {fJustCheck : Bool} {a : Assets} {view : CoinsView} {block : CBlock}
variable {fp : FirstPass} {p : Pending}

/-! ## One transaction -/

/-- Spending inputs takes exactly their outputs. -/
theorem output_foldl_spendOne (o : COutPoint) :
    ∀ (vin : List CTxIn) (v : CoinsView),
      (vin.foldl (fun w txin => w.spendOne txin.prevout) v).output o =
        if o ∈ vin.map CTxIn.prevout then none else v.output o := by
  intro vin
  induction vin with
  | nil =>
    intro v
    rfl
  | cons txin rest ih =>
    intro v
    rw [List.foldl_cons, ih, output_spendOne, List.map_cons]
    by_cases hrest : o ∈ rest.map CTxIn.prevout
    · rw [if_pos hrest, if_pos (List.mem_cons_of_mem _ hrest)]
    · rw [if_neg hrest]
      by_cases ho : o = txin.prevout
      · rw [if_pos ho, if_pos (ho ▸ List.mem_cons_self)]
      · rw [if_neg ho, if_neg fun h => (List.mem_cons.mp h).elim ho hrest]

/-- What a transaction leaves in the view at a position: null and unspendable
    outputs are not kept. -/
def createdOutput (tx : CTransaction) (n : Nat) : Option CTxOut :=
  tx.vout[n]?.bind fun o => if o.isNull then none else CCoins.keepSpendable o

/-- A fresh record has the spendable outputs of its transaction. -/
theorem outputAt_fromTx (tx : CTransaction) (nHeight : Int) (n : Nat) :
    (CCoins.fromTx tx nHeight).outputAt n = createdOutput tx n := by
  rw [CCoins.fromTx, CCoins.outputAt_clearUnspendable, createdOutput]
  show (entry (tx.vout.map fun o => if o.isNull then none else some o) n).bind _ = _
  rw [entry, List.getElem?_map]
  cases tx.vout[n]? with
  | none => rfl
  | some o =>
    show (if o.isNull then none else some o).bind CCoins.keepSpendable =
      if o.isNull then none else CCoins.keepSpendable o
    cases o.isNull <;> rfl

variable {tx : CTransaction} {o : COutPoint} {out : CTxOut} {post pre : List CTransaction}

theorem createdOutput_of_spendable {n : Nat} {o : CTxOut} (hn : tx.vout[n]? = some o)
    (hvalue : 0 ≤ o.nValue) (hspendable : isUnspendable o.scriptPubKey = false) :
    createdOutput tx n = some o := by
  have hnull : o.isNull = false := by
    rw [CTxOut.isNull, decide_eq_false_iff_not]
    omega
  simp [createdOutput, hn, hnull, CCoins.keepSpendable, hspendable]

theorem vout_of_createdOutput {n : Nat} {o : CTxOut} (h : createdOutput tx n = some o) :
    tx.vout[n]? = some o := by
  rw [createdOutput, Option.bind_eq_some_iff] at h
  obtain ⟨o', ho', hkept⟩ := h
  rw [ho']
  split at hkept
  · cases hkept
  · rw [CCoins.keepSpendable] at hkept
    split at hkept
    · cases hkept
    · exact hkept

/-- The outputs after a transaction. -/
theorem output_afterTx (nHeight : Int) (v : CoinsView) (tx : CTransaction) (o : COutPoint) :
    (afterTx env nHeight v tx).output o =
      if o.hash = env.getHash tx then createdOutput tx o.n
      else if tx.isCoinBase = false ∧ o ∈ tx.vin.map CTxIn.prevout then none
      else v.output o := by
  rw [afterTx, output_store, outputAt_fromTx]
  by_cases hid : o.hash = env.getHash tx
  · rw [if_pos hid, if_pos hid]
  · rw [if_neg hid, if_neg hid]
    cases hcb : tx.isCoinBase with
    | true => simp
    | false =>
      show (tx.vin.foldl (fun w txin => w.spendOne txin.prevout) v).output o = _
      rw [output_foldl_spendOne]
      simp only [true_and]

/-- An output that is not spent stays. -/
theorem output_afterTx_of_live {v v' : CoinsView} {undo : CTxUndo} {nHeight : Int}
    (hup : updateCoins env v tx nHeight = .ok (v', undo))
    (hfresh : tx.isCoinBase → (v.record (env.getHash tx)).isPruned)
    (hlive : v.output o = some out) (hkept : tx.isCoinBase = false → o ∉ tx.vin.map CTxIn.prevout) :
    (afterTx env nHeight v tx).output o = some out := by
  have hid : o.hash ≠ env.getHash tx := by
    intro hid
    have hnone : v.output o = none := by
      cases hcb : tx.isCoinBase with
      | true =>
        rw [CoinsView.output, hid]
        exact CCoins.isPruned_iff.mp (hfresh hcb) o.n
      | false =>
        obtain ⟨v₁, hspent, hpruned, -⟩ := updateCoins_of_not_coinbase hcb hup
        have hv₁ : v₁.output o = none := by
          rw [CoinsView.output, hid]
          exact CCoins.isPruned_iff.mp hpruned o.n
        rwa [spendInputs_eq_foldl hspent, output_foldl_spendOne, if_neg (hkept hcb)] at hv₁
    rw [hnone] at hlive
    cases hlive
  rw [output_afterTx, if_neg hid, if_neg fun h => hkept h.1 h.2, hlive]

/-! ## Along a block -/

/-- One more transaction at the end of a block. -/
theorem connectCoins_concat {nHeight : Int} {m n : CoinsView} {undo : CTxUndo}
    (hup : updateCoins env m tx nHeight = .ok (n, undo)) :
    ∀ {txs : List CTransaction} {v : CoinsView} {undos : List CTxUndo},
      connectCoins env nHeight v txs = .ok (m, undos) →
      connectCoins env nHeight v (txs ++ [tx]) = .ok (n, undos ++ [undo]) := by
  intro txs
  induction txs with
  | nil =>
    intro v undos h
    cases h
    exact connectCoins_cons_eq_ok.mpr ⟨n, undo, [], hup, rfl, rfl⟩
  | cons t txs ih =>
    intro v undos h
    obtain ⟨v₁, u, us, ht, hrest, rfl⟩ := connectCoins_cons_eq_ok.mp h
    exact connectCoins_cons_eq_ok.mpr ⟨v₁, u, us ++ [undo], ht, ih hrest, rfl⟩

namespace Accepted

section

variable (h : Accepted env params idx io fJustCheck a view block fp p)
include h

section

variable (hvtx : block.vtx = pre ++ tx :: post)
include hvtx

/-- Only the first transaction is a coinbase, and BIP30 has found no live record of its id. -/
theorem fresh_coinbase (hcb : tx.isCoinBase) :
    ((blockView env idx.nHeight view pre).record (env.getHash tx)).isPruned := by
  obtain ⟨coinbase, txs, hshape, -, hrest⟩ := checkBlock_shape h.checked
  have hmem : tx ∈ block.vtx := hvtx ▸ List.mem_append_right _ List.mem_cons_self
  cases pre with
  | nil => exact checkBIP30_fresh h.bip30 tx hmem
  | cons t pre =>
    rw [hshape, List.cons_append, List.cons.injEq] at hvtx
    have htx : tx ∈ txs := hvtx.2 ▸ List.mem_append_right _ List.mem_cons_self
    rw [hrest tx htx] at hcb
    cases hcb

/-- The view after one more transaction. -/
theorem blockView_concat :
    blockView env idx.nHeight view (pre ++ [tx]) =
      afterTx env idx.nHeight (blockView env idx.nHeight view pre) tx := by
  have hlen := h.undos_length
  have hcon := h.connects
  rw [hvtx] at hlen
  obtain ⟨pre', undo, post', hzip, hpre, -⟩ := zip_at hlen
  rw [hvtx, hzip] at hcon
  obtain ⟨m, n, chks₁, chk, chks₂, h₁, hin, hchk, hup, -, -⟩ := hcon.at
  have hm : blockView env idx.nHeight view pre = m := by
    rw [blockView, ← hpre, h₁.connectCoins]
  have hn := connectCoins_concat hup h₁.connectCoins
  rw [hpre] at hn
  rw [blockView, hn, hm]
  exact afterTx_of_updateCoins hup

theorem output_kept (hlive : (blockView env idx.nHeight view pre).output o = some out)
    (hkept : tx.isCoinBase = false → o ∉ tx.vin.map CTxIn.prevout) :
    (blockView env idx.nHeight view (pre ++ [tx])).output o = some out := by
  obtain ⟨-, undo, -, v, -, -, -, -, -, -, hup⟩ := h.at_tx hvtx
  rw [h.blockView_concat hvtx]
  exact output_afterTx_of_live hup (h.fresh_coinbase hvtx) hlive hkept

theorem output_of_input (hcb : tx.isCoinBase = false) (ho : o ∈ tx.vin.map CTxIn.prevout) :
    ∃ out, (blockView env idx.nHeight view pre).output o = some out := by
  obtain ⟨-, -, -, -, -, -, -, hinputs, -, -, -⟩ := h.at_tx hvtx
  obtain ⟨txin, htxin, rfl⟩ := List.mem_map.mp ho
  rw [CoinsView.haveInputs, hcb, Bool.false_or, List.all_eq_true] at hinputs
  exact Option.isSome_iff_exists.mp (hinputs txin htxin)

end

theorem getHash_ne_of_live (hlive : view.output o = some out) (htx : tx ∈ block.vtx) :
    env.getHash tx ≠ o.hash := by
  intro hid
  have hnone := CCoins.isPruned_iff.mp (checkBIP30_fresh h.bip30 tx htx) o.n
  rw [CoinsView.output, ← hid, hnone] at hlive
  cases hlive

/-- An output along the block was there before it, or is created in it. -/
theorem output_origin :
    ∀ pre post, block.vtx = pre ++ post → ∀ (o : COutPoint) (out : CTxOut),
      (blockView env idx.nHeight view pre).output o = some out →
      view.output o = some out ∨
        ∃ t ∈ pre, env.getHash t = o.hash ∧ t.vout[o.n]? = some out := by
  refine prefix_induction ?_ ?_
  · intro o out hout
    exact Or.inl hout
  · intro pre tx post hvtx ih o out hout
    rw [h.blockView_concat hvtx, output_afterTx] at hout
    split at hout
    · rename_i hid
      refine Or.inr ⟨tx, List.mem_append_right _ List.mem_cons_self, hid.symm, ?_⟩
      exact vout_of_createdOutput hout
    · split at hout
      · cases hout
      · rcases ih o out hout with hstart | ⟨t, ht, hcreated⟩
        · exact Or.inl hstart
        · exact Or.inr ⟨t, List.mem_append_left _ ht, hcreated⟩

end

end Accepted

/-- No two transactions of the block collide: those with the same id are the
    same, witnesses apart. -/
def CollisionFree (env : Env) (block : CBlock) : Prop :=
  ∀ t ∈ block.vtx, ∀ t' ∈ block.vtx, env.getHash t = env.getHash t' →
    t.stripWitness = t'.stripWitness

instance decidableCollisionFree (env : Env) (block : CBlock) :
    Decidable (CollisionFree env block) :=
  inferInstanceAs (Decidable (∀ t ∈ block.vtx, ∀ t' ∈ block.vtx, _ → _))

/-- Along a block an outpoint never stands for two outputs. -/
theorem Accepted.output_agree (h : Accepted env params idx io fJustCheck a view block fp p)
    (hids : CollisionFree env block) {pre' post' : List CTransaction}
    (hpre : block.vtx = pre ++ post) (hpre' : block.vtx = pre' ++ post') {out' : CTxOut}
    (hout : (blockView env idx.nHeight view pre).output o = some out)
    (hout' : (blockView env idx.nHeight view pre').output o = some out') : out = out' := by
  have hmem : ∀ t ∈ pre, t ∈ block.vtx := fun t ht => hpre ▸ List.mem_append_left _ ht
  have hmem' : ∀ t ∈ pre', t ∈ block.vtx := fun t ht => hpre' ▸ List.mem_append_left _ ht
  rcases h.output_origin pre post hpre o out hout with hstart | ⟨t, ht, hid, hvout⟩
  · rcases h.output_origin pre' post' hpre' o out' hout' with hstart' | ⟨t', ht', hid', -⟩
    · exact Option.some.inj (hstart.symm.trans hstart')
    · exact absurd hid' (h.getHash_ne_of_live hstart (hmem' t' ht'))
  · rcases h.output_origin pre' post' hpre' o out' hout' with hstart' | ⟨t', ht', hid', hvout'⟩
    · exact absurd hid (h.getHash_ne_of_live hstart' (hmem t ht))
    · have hstrip := hids t (hmem t ht) t' (hmem' t' ht') (hid.trans hid'.symm)
      have hsame : t.stripWitness.vout = t'.stripWitness.vout := congrArg CTransaction.vout hstrip
      rw [show t.vout = t'.vout from hsame] at hvout
      exact Option.some.inj (hvout.symm.trans hvout')

end Soqucoin
