import Soqucoin.AccountingProofs

/-! # Dormant assets hold no value

While a deployment is dormant no transaction is exempt from the conservation of its asset,
whatever markers it has and whatever the other asset exempts it from, and no coinbase creates the
asset.  So value of that shape would have to come from value of that shape, and on a chain from
the empty view there is none (`dormant_assets_hold_no_value`). -/

namespace Soqucoin

open CheckedLoop

section Dormant

variable {env : Env} {params : CChainParams} {idx : CBlockIndex} {io : NodeIO}
variable {fJustCheck : Bool} {a : Assets} {view : CoinsView} {block : CBlock}
variable {fp : FirstPass} {p : Pending} {kind : CTxOut → Bool}

/-- The outputs of a kind are worth nothing. -/
def Worthless (kind : CTxOut → Bool) (outs : List CTxOut) : Prop :=
  ∀ o ∈ outs, kind o = true → o.nValue = 0

/-- Every unspent output of the kind has value 0. -/
def CoinsView.Worthless (kind : CTxOut → Bool) (v : CoinsView) : Prop :=
  ∀ o out, v.output o = some out → kind out = true → out.nValue = 0

/-- Worthless outputs have no value together. -/
theorem valueOf_of_worthless {outs : List CTxOut} (h : Worthless kind outs) :
    valueOf kind outs = 0 := by
  induction outs with
  | nil => rfl
  | cons o outs ih =>
    rw [Worthless, List.forall_mem_cons] at h
    rw [valueOf_cons, ih h.2]
    split
    · rename_i hkind
      rw [h.1 hkind]
      rfl
    · rfl

theorem worthless_of_valueOf {outs : List CTxOut} (hnonneg : ∀ o ∈ outs, 0 ≤ o.nValue)
    (h : valueOf kind outs = 0) : Worthless kind outs := by
  intro o ho hkind
  refine List.all_zero_of_le_zero_le_of_sum_eq_zero ?_ h
    (List.mem_map.mpr ⟨o, List.mem_filter.mpr ⟨ho, hkind⟩, rfl⟩)
  intro x hx
  obtain ⟨o', ho', rfl⟩ := List.mem_map.mp hx
  exact hnonneg o' (List.mem_filter.mp ho').1

/-- The rules for a kind of outputs at a height: no coinbase creates them, and
    every other transaction conserves them. -/
structure ConservedAt (params : CChainParams) (idx : CBlockIndex) (kind : CTxOut → Bool) :
    Prop where
  coinbase : ∀ tx, CheckedTransaction tx → tx.isCoinBase = true → ∀ o ∈ tx.vout, kind o = false
  transfer : ∀ a v tx, CheckedInputs params a v idx.nHeight tx →
    valueOf kind (spentOutputs v tx) = valueOf kind tx.vout

/-- Before its deployment USDSOQ is conserved. -/
theorem usdsoq_conservedAt (h : (blockFlags params idx).usdsoq = false) :
    ConservedAt params idx CTxOut.isAnyUSDSOQ where
  coinbase tx htx hcb := (htx.coinbase hcb).1
  transfer a v tx hin := by
    have hdormant : deploymentActiveAtHeight idx.nHeight (params.getConsensus idx.nHeight)
        .usdsoq = false := h
    refine hin.usdsoq ?_
    rw [usdsoqExempt, usdsoqActiveHere, hdormant]
    rfl

/-- Before its deployment BTCSOQ is conserved. -/
theorem btcsoq_conservedAt (h : (blockFlags params idx).btcsoq = false) :
    ConservedAt params idx CTxOut.isBTCSOQ where
  coinbase tx htx hcb := (htx.coinbase hcb).2
  transfer a v tx hin := by
    have hdormant : deploymentActiveAtHeight idx.nHeight (params.getConsensus idx.nHeight)
        .btcsoq = false := h
    refine hin.btcsoq ?_
    rw [btcsoqExempt, btcsoqActiveHere, hdormant]
    rfl

/-! ## One block -/

section

variable {pre post : List CTransaction} {tx : CTransaction}
  (h : Accepted env params idx io fJustCheck a view block fp p)
  (hvtx : block.vtx = pre ++ tx :: post) (hcb : tx.isCoinBase = false)
  (hview : (blockView env idx.nHeight view pre).Worthless kind)
include h hvtx hcb hview

theorem Accepted.worthless_spent :
    Worthless kind (spentOutputs (blockView env idx.nHeight view pre) tx) := by
  intro out hout hkind
  obtain ⟨txin, htxin, rfl⟩ := List.mem_map.mp hout
  obtain ⟨coin, hcoin⟩ := h.output_of_input hvtx hcb (List.mem_map_of_mem htxin)
  rw [hcoin, Option.getD_some] at hkind ⊢
  exact hview txin.prevout coin hcoin hkind

/-- Where an asset is conserved and worth nothing, nothing is created. -/
theorem Accepted.worthless_created
    (hconserved : CheckedInputs params (initAuthorities params idx a)
      (blockView env idx.nHeight view pre) idx.nHeight tx →
      valueOf kind (spentOutputs (blockView env idx.nHeight view pre) tx) = valueOf kind tx.vout) :
    Worthless kind tx.vout := by
  refine worthless_of_valueOf (h.checkedTransaction hvtx).outputs.nonneg ?_
  rw [← hconserved (h.checkedInputs hvtx hcb),
    valueOf_of_worthless (h.worthless_spent hvtx hcb hview)]

end

/-- If no transaction creates value of the kind on a view without any, the block does not: an
    output it spends was there before, or an earlier transaction of the block has created it. -/
theorem Accepted.worthless_views (h : Accepted env params idx io fJustCheck a view block fp p)
    (hview : view.Worthless kind)
    (hstep : ∀ pre tx post, block.vtx = pre ++ tx :: post →
      (blockView env idx.nHeight view pre).Worthless kind → Worthless kind tx.vout) :
    ∀ pre post, block.vtx = pre ++ post →
      (∀ tx ∈ pre, Worthless kind tx.vout) ∧
        (blockView env idx.nHeight view pre).Worthless kind := by
  have hinside : ∀ pre post, block.vtx = pre ++ post → (∀ t ∈ pre, Worthless kind t.vout) →
      (blockView env idx.nHeight view pre).Worthless kind := by
    intro pre post hsplit hpre o out hout hkind
    rcases h.output_origin pre post hsplit o out hout with hbefore | ⟨t, ht, -, hvout⟩
    · exact hview o out hbefore hkind
    · exact hpre t ht out (List.mem_of_getElem? hvout) hkind
  have hall : ∀ pre post, block.vtx = pre ++ post → ∀ t ∈ pre, Worthless kind t.vout := by
    refine prefix_induction (fun t ht => by cases ht) fun pre tx post hsplit ih t ht => ?_
    rcases List.mem_append.mp ht with ht | ht
    · exact ih t ht
    · rw [List.mem_singleton.mp ht]
      exact hstep pre tx post hsplit (hinside pre _ hsplit ih)
  intro pre post hsplit
  exact ⟨hall pre post hsplit, hinside pre post hsplit (hall pre post hsplit)⟩

/-- A block that conserves the kind gives no value to it. -/
theorem Accepted.worthless_block (h : Accepted env params idx io fJustCheck a view block fp p)
    (hrules : ConservedAt params idx kind) (hview : view.Worthless kind) :
    (∀ tx ∈ block.vtx, Worthless kind tx.vout) ∧ fp.view.Worthless kind := by
  rw [← h.blockView_eq]
  refine h.worthless_views hview ?_ block.vtx [] (List.append_nil _).symm
  intro pre tx post hvtx hpre
  cases hcb : tx.isCoinBase with
  | true =>
    intro o ho hkind
    rw [hrules.coinbase tx (h.checkedTransaction hvtx) hcb o ho] at hkind
    cases hkind
  | false => exact h.worthless_created hvtx hcb hpre (hrules.transfer _ _ tx)

/-! ## Whole chains -/

/-- No chain gives value to a kind that every block conserves. -/
theorem Grown.worthless {within : CBlockIndex → CBlock → Prop} {n : Node}
    (hrules : ∀ idx block, within idx block → ConservedAt params idx kind)
    (h : Grown env params within n) :
    (∀ e ∈ n.chain, ∀ tx ∈ e.block.vtx, Worthless kind tx.vout) ∧ n.view.Worthless kind := by
  induction h with
  | @start n hstart =>
    obtain ⟨hash, hview⟩ := hstart.view
    rw [hstart.chain, hview]
    refine ⟨fun e he => (by cases he), fun o out hout => ?_⟩
    rw [show (CoinsView.emptyView hash).output o = none from rfl] at hout
    cases hout
  | @block n _ idx io block _ notGenesis accepted meets ih =>
    obtain ⟨fp, p, hacc⟩ := connectBlock_accepted accepted notGenesis
    obtain ⟨htxs, hview⟩ := hacc.worthless_block (hrules idx block meets) ih.2
    rw [hacc.connected_view]
    refine ⟨fun e he => ?_, hview⟩
    rcases List.mem_cons.mp he with rfl | he
    · exact htxs
    · exact ih.1 e he

/-- **Dormant assets hold no value.**  On every chain of accepted blocks from the
    empty view at whose heights USDSOQ is dormant, every v7 and every v10 output
    ever created has value zero; and the same for BTCSOQ and its v8 outputs. -/
theorem dormant_assets_hold_no_value (env : Env) (params : CChainParams) (n : Node) :
    (Grown env params (fun idx _ => (blockFlags params idx).usdsoq = false) n →
      ∀ e ∈ n.chain, ∀ tx ∈ e.block.vtx, ∀ o ∈ tx.vout, o.isAnyUSDSOQ = true → o.nValue = 0) ∧
    (Grown env params (fun idx _ => (blockFlags params idx).btcsoq = false) n →
      ∀ e ∈ n.chain, ∀ tx ∈ e.block.vtx, ∀ o ∈ tx.vout, o.isBTCSOQ = true → o.nValue = 0) :=
  ⟨fun h => (h.worthless fun _ _ => usdsoq_conservedAt).1,
    fun h => (h.worthless fun _ _ => btcsoq_conservedAt).1⟩

end Dormant

namespace Sample

/-- Parameters with BTCSOQ active and nothing else. -/
def dormantParams : CChainParams :=
  ⟨fun _ => { consensus with
      activationHeight := fun d => if d = .btcsoq then 0 else NOT_SCHEDULED }, fun _ => rfl⟩

/-- Two blocks, the second one with a USDSOQ marker and a holding of value zero. -/
def dormantNode : Node :=
  (startNode.connected (env sameByte) dormantParams (index 1) io (block 1 [])).connected
    (env sameByte) dormantParams { index 2 with fScriptChecks := false } io
    (block 2 [transaction 10 [spend 1 (authorityWitness 0x55 [1, 2])] [pay OP_5 0, pay OP_7 0]])

end Sample

open Sample in
/-- A chain on which USDSOQ never becomes active, with an output of its form. -/
theorem dormant_assets_hold_no_value_sample :
    Grown (Sample.env sameByte) dormantParams
        (fun idx _ => (blockFlags dormantParams idx).usdsoq = false) dormantNode ∧
      (∃ e ∈ dormantNode.chain, ∃ tx ∈ e.block.vtx, ∃ o ∈ tx.vout, o.isAnyUSDSOQ = true) ∧
      ∀ e ∈ dormantNode.chain, ∀ tx ∈ e.block.vtx, ∀ o ∈ tx.vout,
        o.isAnyUSDSOQ = true → o.nValue = 0 := by
  have hgrown : Grown (Sample.env sameByte) dormantParams
      (fun idx _ => (blockFlags dormantParams idx).usdsoq = false) dormantNode :=
    .block (.block (.start startNode_start) _ _ _ rfl (by decide) (by decide +kernel) rfl)
      _ _ _ rfl (by decide) (by decide +kernel) rfl
  refine ⟨hgrown, ?_, (dormant_assets_hold_no_value _ _ _).1 hgrown⟩
  exact ⟨_, List.mem_cons_self .., _, List.mem_cons_of_mem _ (List.mem_cons_self ..), pay OP_7 0,
    List.mem_cons_of_mem _ (List.mem_cons_self ..), by decide⟩

end Soqucoin
