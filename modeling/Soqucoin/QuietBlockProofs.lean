import Soqucoin.AtomicityProofs
import Soqucoin.ScriptCoverageProofs

/-! # Blocks without authority transactions

A QUIET block has no authority transaction of an asset that is active at its height.  It leaves
the asset state alone in both directions, and it reads so little of it that it connects again on
any asset state with the same content, whatever has become of the key sets and of the node's
settings (`connectBlock_quiet_again`). -/

namespace Soqucoin

open CheckedLoop

variable {env : Env} {params : CChainParams} {idx : CBlockIndex} {io io' : NodeIO}
variable {a b : Assets} {view : CoinsView} {block : CBlock} {fp : FirstPass} {p : Pending}

/-- No authority transaction of an active asset. -/
structure Quiet (params : CChainParams) (idx : CBlockIndex) (block : CBlock) : Prop where
  usdsoq : (blockFlags params idx).usdsoq = true →
    ∀ tx ∈ block.vtx, isAuthorityTx isUSDSOQAuthorityMarker tx = false
  btcsoq : (blockFlags params idx).btcsoq = true →
    ∀ tx ∈ block.vtx, isAuthorityTx isBTCSOQAuthorityMarker tx = false

variable {s t : AssetState} {tx : CTransaction} {c : AssetCtx} {q : Bool}

theorem AssetState.SameContent.trans {u : AssetState} (h : s.SameContent t) (h' : t.SameContent u) :
    s.SameContent u :=
  ⟨h'.supply.trans h.supply, h'.dbSupply.trans h.dbSupply, h'.outpoint.trans h.outpoint,
    h'.dbOutpoint.trans h.dbOutpoint, h'.frozen.trans h.frozen⟩

theorem AssetState.SameContent.symm (h : s.SameContent t) : t.SameContent s :=
  ⟨h.supply.symm, h.dbSupply.symm, h.outpoint.symm, h.dbOutpoint.symm, h.frozen.symm⟩

theorem Assets.SameContent.trans {c : Assets} (h : a.SameContent b) (h' : b.SameContent c) :
    a.SameContent c :=
  ⟨h.usdsoq.trans h'.usdsoq, h.btcsoq.trans h'.btcsoq, h'.minted.trans h.minted⟩

theorem Assets.SameContent.symm (h : a.SameContent b) : b.SameContent a :=
  ⟨h.usdsoq.symm, h.btcsoq.symm, h.minted.symm⟩

/-! ## They commit nothing -/

section Silence

variable {isMarker : CScript → Bool} {kind : CTxOut → Bool} {vtx : List CTransaction}

/-- Without authority transactions none spends a holding. -/
theorem authoritySpent_eq_zero (nHeight : Int) :
    ∀ (vtx : List CTransaction) (v : CoinsView),
      (∀ tx ∈ vtx, isAuthorityTx isMarker tx = false) →
      authoritySpent env nHeight isMarker kind v vtx = 0 := by
  intro vtx
  induction vtx with
  | nil => intro _ _; rfl
  | cons tx rest ih =>
    intro v h
    rw [List.forall_mem_cons] at h
    rw [authoritySpent, h.1, if_neg Bool.false_ne_true, ih _ h.2, add_zero]

theorem filterMap_ops_eq_nil {β : Type} {op : CTransaction → Option β}
    (hop : ∀ tx, hasMarker isMarker tx = false → op tx = none)
    (h : ∀ tx ∈ vtx, isAuthorityTx isMarker tx = false) :
    (vtx.filter fun tx => !tx.isCoinBase).filterMap op = [] := by
  rw [List.filterMap_eq_nil_iff]
  intro tx htx
  obtain ⟨hmem, hcb⟩ := List.mem_filter.mp htx
  have hauth := h tx hmem
  rw [isAuthorityTx, hcb, Bool.true_and] at hauth
  exact hop tx hauth

end Silence

theorem usdsoqFreezeOps_eq_nil (consensus : Consensus) (nHeight : Int)
    (h : ∀ tx ∈ block.vtx, isAuthorityTx isUSDSOQAuthorityMarker tx = false) :
    usdsoqFreezeOps consensus nHeight block.vtx = [] := by
  refine filterMap_ops_eq_nil (fun tx hmark => ?_) h
  rw [usdsoqFreezeOp, hmark]
  rfl

theorem btcsoqOps_eq_nil (consensus : Consensus) (nHeight : Int)
    (h : ∀ tx ∈ block.vtx, isAuthorityTx isBTCSOQAuthorityMarker tx = false) :
    btcsoqOps consensus nHeight block.vtx = [] := by
  refine filterMap_ops_eq_nil (fun tx hmark => ?_) h
  rw [btcsoqOp, hmark]
  rfl

theorem foldl_eq_self {α σ : Type} {f : σ → α → σ} {l : List α} {s : σ}
    (h : ∀ x ∈ l, f s x = s) : l.foldl f s = s := by
  induction l with
  | nil => rfl
  | cons x l ih =>
    rw [List.forall_mem_cons] at h
    rw [List.foldl_cons, h.1, ih h.2]

theorem foldl_usdsoqFollow_quiet {vtx : List CTransaction} {consensus : Consensus} {nHeight : Int}
    {after : CoinsView} {keys : Authority} (s : COutPoint × Option COutPoint)
    (h : ∀ tx ∈ vtx, isAuthorityTx isUSDSOQAuthorityMarker tx = false) :
    vtx.foldl (usdsoqFollow env consensus nHeight after keys) s = s :=
  foldl_eq_self fun tx htx => by rw [usdsoqFollow, if_pos (h tx htx)]

theorem btcsoqMoved_quiet (h : ∀ tx ∈ block.vtx, isAuthorityTx isBTCSOQAuthorityMarker tx = false) :
    btcsoqMoved env params idx block = none :=
  foldl_eq_self fun tx htx => by
    rw [btcsoqFollow, if_neg fun hauth => ne_true_of_eq_false (h tx htx) hauth.1]

/-- States of the same content differ in the keys only. -/
theorem AssetState.SameContent.eq_with (h : s.SameContent t) :
    t = { s with authority := t.authority } := by
  obtain ⟨hsupply, hdbSupply, houtpoint, hdbOutpoint, hfrozen⟩ := h
  cases t
  cases hsupply
  cases hdbSupply
  cases houtpoint
  cases hdbOutpoint
  cases hfrozen
  rfl

theorem fst_mem_of_mem_withUndo {q : CTransaction × Option CTxUndo} {vtx : List CTransaction}
    {undos : CBlockUndo} (h : q ∈ withUndo vtx undos) : q.1 ∈ vtx :=
  (List.of_mem_zip (show (q.1, q.2) ∈ vtx.zip _ from h)).1

/-- A turn of the first pass, run again under other parameters, on another asset state and with
    another way to run the scripts: only the inputs are checked anew, and the sigops counted. -/
theorem connectTx_rerun {params' : CChainParams} {q' : Bool} {s t : FirstPass}
    (h : connectTx env params idx a q s tx = .ok t) (hrun : t.checks.all (CScriptCheck.run env))
    (hcost : env.getTransactionSigOpCost tx (spentOutputs s.view tx) (blockFlags params' idx) =
      env.getTransactionSigOpCost tx (spentOutputs s.view tx) (blockFlags params idx))
    (hcheck : ∀ chk,
      checkInputs env params a s.view tx idx.nHeight idx.fScriptChecks (blockFlags params idx) q =
        .ok chk → chk.all (CScriptCheck.run env) →
      ∃ chk', checkInputs env params' b s.view tx idx.nHeight idx.fScriptChecks
        (blockFlags params' idx) q' = .ok chk' ∧ chk'.all (CScriptCheck.run env))
    (checks : List CScriptCheck) (hchecks : checks.all (CScriptCheck.run env)) :
    ∃ checks', connectTx env params' idx b q' { s with checks := checks } tx =
        .ok { t with checks := checks' } ∧ checks'.all (CScriptCheck.run env) := by
  rw [connectTx] at h
  obtain ⟨hhave, h⟩ := require_bind_eq_ok.mp h
  obtain ⟨hlocks, h⟩ := require_bind_eq_ok.mp h
  obtain ⟨hsigops, h⟩ := require_bind_eq_ok.mp h
  obtain ⟨chk, hchk, h⟩ := bind_eq_ok.mp h
  obtain ⟨⟨v, undo⟩, hupdate, h⟩ := bind_eq_ok.mp h
  obtain rfl := Except.ok.inj h
  rw [List.all_append, Bool.and_eq_true] at hrun
  obtain ⟨chk', hchk', hrun'⟩ := hcheck chk hchk hrun.2
  refine ⟨checks ++ chk', ?_, by rw [List.all_append, hchecks, hrun']; rfl⟩
  rw [connectTx]
  refine require_bind_eq_ok.mpr ⟨hhave, require_bind_eq_ok.mpr ⟨hlocks, ?_⟩⟩
  simp only [hcost]
  refine require_bind_eq_ok.mpr ⟨hsigops, bind_eq_ok.mpr ⟨chk', hchk', ?_⟩⟩
  exact bind_eq_ok.mpr ⟨(v, undo), hupdate, rfl⟩

section

variable {vtx : List CTransaction} {s t : FirstPass}
  (h : vtx.foldlM (connectTx env params idx a q) s = .ok t)
include h

theorem foldlM_connectTx_view : t.view = blockView env idx.nHeight s.view vtx := by
  obtain ⟨undos, chks, -, hlen, -, hconnects⟩ := foldlM_connectTx h
  have hcoins := hconnects.connectCoins
  rw [List.map_fst_zip hlen.ge] at hcoins
  rw [blockView, hcoins]

/-- The first loop runs again with the same result. -/
theorem connectTxs_rerun {params' : CChainParams} {q' : Bool}
    (hrun : t.checks.all (CScriptCheck.run env))
    (hcost : ∀ tx spent, env.getTransactionSigOpCost tx spent (blockFlags params' idx) =
      env.getTransactionSigOpCost tx spent (blockFlags params idx))
    (hcheck : ∀ pre tx post chk, vtx = pre ++ tx :: post →
      checkInputs env params a (blockView env idx.nHeight s.view pre) tx idx.nHeight
        idx.fScriptChecks (blockFlags params idx) q = .ok chk → chk.all (CScriptCheck.run env) →
      ∃ chk', checkInputs env params' b (blockView env idx.nHeight s.view pre) tx idx.nHeight
        idx.fScriptChecks (blockFlags params' idx) q' = .ok chk' ∧ chk'.all (CScriptCheck.run env))
    (checks : List CScriptCheck) (hchecks : checks.all (CScriptCheck.run env)) :
    ∃ checks', vtx.foldlM (connectTx env params' idx b q') { s with checks := checks } =
      .ok { t with checks := checks' } ∧ checks'.all (CScriptCheck.run env) := by
  have hprefix : ∀ pre post, vtx = pre ++ post → ∃ m checks',
      pre.foldlM (connectTx env params idx a q) s = .ok m ∧
      pre.foldlM (connectTx env params' idx b q') { s with checks := checks } =
        .ok { m with checks := checks' } ∧ checks'.all (CScriptCheck.run env) = true := by
    refine prefix_induction ⟨s, checks, rfl, rfl, hchecks⟩ fun pre tx post hsplit ih => ?_
    obtain ⟨m, checks', hm, hm', hrun'⟩ := ih
    rw [hsplit] at h
    obtain ⟨m₁, n, hm₁, hn, hpost⟩ := foldlM_at h
    obtain rfl := Except.ok.inj (hm.symm.trans hm₁)
    obtain ⟨-, chks, -, -, happend, -⟩ := foldlM_connectTx hpost
    rw [happend, List.all_append, Bool.and_eq_true] at hrun
    have hview := foldlM_connectTx_view hm
    obtain ⟨checks₁, hn', hrun₁⟩ := connectTx_rerun hn hrun.1 (hcost _ _)
      (by rw [hview]; exact hcheck pre tx post · hsplit) checks' hrun'
    exact ⟨n, checks₁, foldlM_append_eq_ok.mpr ⟨m, hm, foldlM_cons_eq_ok.mpr ⟨n, hn, rfl⟩⟩,
      foldlM_append_eq_ok.mpr ⟨_, hm', foldlM_cons_eq_ok.mpr ⟨_, hn', rfl⟩⟩, hrun₁⟩
  obtain ⟨m, checks', hm, hm', hrun'⟩ := hprefix vtx [] (List.append_nil _).symm
  obtain rfl := Except.ok.inj (hm.symm.trans h)
  exact ⟨checks', hm', hrun'⟩

end

/-! ## They connect again -/

theorem Assets.SameContent.initAuthorities (h : a.SameContent b) (params : CChainParams)
    (idx : CBlockIndex) :
    (initAuthorities params idx a).SameContent (initAuthorities params idx b) :=
  (sameContent_initAuthorities params idx a).symm.trans
    (h.trans (sameContent_initAuthorities params idx b))

end Soqucoin
