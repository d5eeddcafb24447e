import Soqucoin.MintedDepositProofs
import Soqucoin.OutputLifeProofs

/-! # The BTCSOQ authority chain

Every BTCSOQ authority transaction after the first has to spend the tracked marker, and the node
then tracks a marker of its own.  The tracked outpoint moves after all coins of the block have
been spent, so the guard that keeps other transactions off markers is what leaves the marker
unspent after every block (`authority_chain_never_wedges`). -/

namespace Soqucoin

open CheckedLoop

variable {txs : List CTransaction} {tracked : COutPoint} {v : CoinsView} {tx : CTransaction}

section Wedge

variable {env : Env} {params : CChainParams} {idx : CBlockIndex} {io : NodeIO}
variable {a : Assets} {view : CoinsView} {block : CBlock} {fp : FirstPass} {p : Pending}
variable {isMarker : CScript → Bool}

/-! ## A spending chain with a live end -/

/-- The outpoint is unspent and a marker. -/
def CoinsView.hasMarkerAt (v : CoinsView) (isMarker : CScript → Bool) (o : COutPoint) : Prop :=
  ∃ out, v.output o = some out ∧ isMarker out.scriptPubKey = true

/-- A transaction spends the first marker output of another. -/
def SpendsMarkerOf (env : Env) (isMarker : CScript → Bool) (t t' : CTransaction) : Prop :=
  markerOutpoint env isMarker t ∈ t'.vin.map CTxIn.prevout

/-- The authority transactions so far, the outpoint tracked after them, and the
    view they have led to. -/
structure MarkerChain (env : Env) (isMarker : CScript → Bool) (txs : List CTransaction)
    (tracked : COutPoint) (v : CoinsView) : Prop where
  linked : txs.IsChain (SpendsMarkerOf env isMarker)
  none_yet : txs = [] → tracked = COutPoint.null
  last : ∀ t ∈ txs.getLast?, tracked = markerOutpoint env isMarker t ∧
    tracked.isNull = false ∧ v.hasMarkerAt isMarker tracked

section

variable (h : MarkerChain env isMarker txs tracked v)
include h

theorem MarkerChain.keep {v' : CoinsView}
    (hkept : v.hasMarkerAt isMarker tracked → v'.hasMarkerAt isMarker tracked) :
    MarkerChain env isMarker txs tracked v' where
  linked := h.linked
  none_yet := h.none_yet
  last t ht := ⟨(h.last t ht).1, (h.last t ht).2.1, hkept (h.last t ht).2.2⟩

/-- One more authority transaction, on top of the tracked marker. -/
theorem MarkerChain.extend {v' : CoinsView}
    (hspends : tracked.isNull = false → tracked ∈ tx.vin.map CTxIn.prevout)
    (hnull : (markerOutpoint env isMarker tx).isNull = false)
    (hlive : v'.hasMarkerAt isMarker (markerOutpoint env isMarker tx)) :
    MarkerChain env isMarker (txs ++ [tx]) (markerOutpoint env isMarker tx) v' where
  linked := by
    refine List.isChain_append.mpr ⟨h.linked, List.isChain_singleton tx, ?_⟩
    intro t ht t' ht'
    obtain rfl : tx = t' := Option.some.inj ht'
    obtain ⟨htracked, hnonnull, -⟩ := h.last t ht
    rw [SpendsMarkerOf, ← htracked]
    exact hspends hnonnull
  none_yet hnil := absurd hnil (List.append_ne_nil_of_right_ne_nil _ (List.cons_ne_nil _ _))
  last t ht := by
    rw [List.getLast?_append_of_ne_nil _ (List.cons_ne_nil _ _)] at ht
    obtain rfl : tx = t := Option.some.inj ht
    exact ⟨rfl, hnull, hlive⟩

/-- Nothing is tracked exactly before the first authority transaction. -/
theorem MarkerChain.isNull_iff : tracked.isNull ↔ txs = [] := by
  constructor
  · intro hnull
    cases hlast : txs.getLast? with
    | none => exact List.getLast?_eq_none_iff.mp hlast
    | some t =>
      rw [(h.last t hlast).2.1] at hnull
      cases hnull
  · intro hnil
    rw [h.none_yet hnil]
    decide

end

/-! ## The marker a transaction creates -/

theorem length_le_baseSize (tx : CTransaction) : tx.vout.length ≤ baseSize tx := by
  have hsum : tx.vout.length ≤ (tx.vout.map sizeOfTxOut).sum := by
    induction tx.vout with
    | nil => exact Nat.le_refl 0
    | cons o rest ih =>
      rw [List.length_cons, List.map_cons, List.sum_cons]
      have ho : 1 ≤ sizeOfTxOut o := Nat.le_trans (by decide) (Nat.le_add_right 8 _)
      omega
  exact Nat.le_trans hsum (by unfold baseSize; omega)

/-- The outpoint of a created marker is not the null outpoint. -/
theorem markerOutpoint_isNull (htx : checkTransaction tx = .ok ())
    (hmark : hasMarker isMarker tx) : (markerOutpoint env isMarker tx).isNull = false := by
  obtain ⟨nOut, hnOut⟩ := hasMarker_iff.mp hmark
  obtain ⟨hlt, -⟩ := List.findIdx?_eq_some_iff_getElem.mp hnOut
  have hsize := (checkTransaction_checked htx).size
  have hlen := length_le_baseSize tx
  have hn : nOut ≠ 0xffffffff := by
    rw [MAX_BLOCK_BASE_SIZE] at hsize
    omega
  rw [markerOutpoint, hnOut, COutPoint.isNull, Option.getD_some, decide_eq_false hn,
    Bool.and_false]

/-- The marker that a transaction creates is there after it. -/
theorem hasMarkerAt_afterTx {op : UInt8} (hop : op ≠ OP_RETURN) (nHeight : Int) (v : CoinsView)
    (htx : checkTransaction tx = .ok ()) (hmark : hasMarker (isWitnessProgram op) tx) :
    (afterTx env nHeight v tx).hasMarkerAt (isWitnessProgram op)
      (markerOutpoint env (isWitnessProgram op) tx) := by
  obtain ⟨nOut, hnOut⟩ := hasMarker_iff.mp hmark
  obtain ⟨hlt, hscript, -⟩ := List.findIdx?_eq_some_iff_getElem.mp hnOut
  refine ⟨tx.vout[nOut], ?_, hscript⟩
  rw [markerOutpoint, hnOut, output_afterTx, if_pos rfl]
  exact createdOutput_of_spendable (List.getElem?_eq_getElem hlt)
    ((checkTransaction_outputs htx).nonneg _ (List.getElem_mem hlt))
    (isUnspendable_of_isWitnessProgram hop hscript)

/-! ## One transaction of an accepted block -/

section

variable (h : Accepted env params idx io false a view block fp p)
  (hactive : (blockFlags params idx).btcsoq = true)
  (henf : (params.getConsensus idx.nHeight).nBTCSOQAuthorityEnforcementHeight ≤ idx.nHeight)
include h hactive henf

/-- Who spends a marker carries one. -/
theorem hasMarker_of_spends_marker {pre post : List CTransaction}
    (hvtx : block.vtx = pre ++ tx :: post) (hcb : tx.isCoinBase = false) {o : COutPoint}
    (ho : o ∈ tx.vin.map CTxIn.prevout)
    (hat : (blockView env idx.nHeight view pre).hasMarkerAt isBTCSOQAuthorityMarker o) :
    hasMarker isBTCSOQAuthorityMarker tx := by
  obtain ⟨undo, s, t, v, -, hturn, hup⟩ := btcsoq_turn_at h hactive henf hvtx
  rw [undoPair_of_not_coinbase undo hcb] at hturn
  obtain ⟨htally, -, -⟩ := btcsoqTx_turn hcb hturn
  obtain ⟨out, hout, hscript⟩ := hat
  obtain ⟨txin, htxin, rfl⟩ := List.mem_map.mp ho
  have hmem : (txin.prevout, out) ∈ undoPrevouts tx (some undo) := by
    rw [undoPrevouts_of_updateCoins hcb hup]
    refine List.mem_map.mpr ⟨txin, htxin, ?_⟩
    rw [hout]
    rfl
  obtain ⟨hguard, -⟩ := require_bind_eq_ok.mp (htally.spends _ hmem)
  simpa [hscript] using hguard

/-- An authority transaction of an accepted block spends the tracked marker. -/
theorem spends_tracked {pre post : List CTransaction} (hvtx : block.vtx = pre ++ tx :: post)
    (hauth : isAuthorityTx isBTCSOQAuthorityMarker tx)
    (hnull : (pre.foldl (btcsoqTracked env) a.btcsoq.authorityOutpoint).isNull = false) :
    pre.foldl (btcsoqTracked env) a.btcsoq.authorityOutpoint ∈ tx.vin.map CTxIn.prevout := by
  obtain ⟨hcb, hmark⟩ := isAuthorityTx_iff.mp hauth
  obtain ⟨undo, s, t, v, hlocal, hturn, hup⟩ := btcsoq_turn_at h hactive henf hvtx
  rw [undoPair_of_not_coinbase undo hcb] at hturn
  obtain ⟨-, hstrict, -⟩ := btcsoqTx_turn hcb hturn
  obtain ⟨op, hop⟩ := hstrict hmark henf
  obtain ⟨nIn, scriptCode, hsigned⟩ := hop.signed
  obtain ⟨hspends, -⟩ := btcsoqAuthorityInput_spends hcb hup hsigned.input
  rw [hlocal, if_neg (by rw [hnull]; exact Bool.false_ne_true)] at hspends
  obtain ⟨hlt, hprev⟩ := hspends
  rw [← hprev, List.getD_eq_getElem?_getD, List.getElem?_eq_getElem hlt]
  exact List.mem_map_of_mem (List.getElem_mem hlt)

/-! ## One block -/

/-- The chain of markers holds before every transaction of the block. -/
theorem markerChain_prefix
    (hbefore : MarkerChain env isBTCSOQAuthorityMarker txs a.btcsoq.authorityOutpoint view) :
    ∀ pre post, block.vtx = pre ++ post →
      MarkerChain env isBTCSOQAuthorityMarker
        (txs ++ pre.filter (isAuthorityTx isBTCSOQAuthorityMarker))
        (pre.foldl (btcsoqTracked env) a.btcsoq.authorityOutpoint)
        (blockView env idx.nHeight view pre) := by
  refine prefix_induction ?_ ?_
  · rw [List.filter_nil, List.append_nil]
    exact hbefore
  · intro pre tx post hvtx ih
    rw [List.filter_append, ← List.append_assoc, List.foldl_append, List.foldl_cons,
      List.foldl_nil, btcsoqTracked]
    cases hauth : isAuthorityTx isBTCSOQAuthorityMarker tx with
    | true =>
      obtain ⟨hcb, hmark⟩ := isAuthorityTx_iff.mp hauth
      have htx : checkTransaction tx = .ok () :=
        checkBlock_checkTransaction h.checked tx (hvtx ▸ List.mem_append_right _ List.mem_cons_self)
      rw [List.filter_cons_of_pos hauth, List.filter_nil, hcb, hmark]
      refine ih.extend (spends_tracked h hactive henf hvtx hauth)
        (markerOutpoint_isNull htx hmark) ?_
      rw [h.blockView_concat hvtx]
      exact hasMarkerAt_afterTx (by decide) _ _ htx hmark
    | false =>
      have hstays : (tx.isCoinBase || !hasMarker isBTCSOQAuthorityMarker tx) = true := by
        rw [isAuthorityTx] at hauth
        revert hauth
        cases tx.isCoinBase <;> cases hasMarker isBTCSOQAuthorityMarker tx <;> decide
      rw [List.filter_cons_of_neg (by rw [hauth]; exact Bool.false_ne_true), List.filter_nil,
        List.append_nil, if_pos hstays]
      refine ih.keep ?_
      rintro ⟨out, hout, hscript⟩
      refine ⟨out, h.output_kept hvtx hout fun hcb hspent => ?_, hscript⟩
      -- whoever spends the tracked marker is an authority transaction
      have hmark := hasMarker_of_spends_marker h hactive henf hvtx hcb hspent
        ⟨out, hout, hscript⟩
      rw [hcb, hmark] at hstays
      cases hstays

end

/-- What a turn leaves to be committed is what it tracks. -/
theorem btcsoqTx_committed {c : AssetCtx} {dbMinted : Finset COutPoint} {s t : BTCSOQPass}
    {q : CTransaction × CTxUndo} {before : COutPoint}
    (henf : c.consensus.nBTCSOQAuthorityEnforcementHeight ≤ c.nHeight)
    (h : btcsoqTx env c dbMinted s (undoPair q) = .ok t)
    (hs : s.pendingOutpoint.getD before = s.localAuthOutpoint) :
    t.pendingOutpoint.getD before = t.localAuthOutpoint := by
  cases hcb : q.1.isCoinBase with
  | true =>
    obtain rfl := btcsoqTx_coinbase hcb h
    exact hs
  | false =>
    obtain ⟨htally, hturn, -⟩ := btcsoqTx_turn hcb h
    cases hmark : hasMarker isBTCSOQAuthorityMarker q.1 with
    | true =>
      obtain ⟨op, hop⟩ := hturn hmark henf
      rw [hop.pending, hop.outpoint]
      rfl
    | false =>
      have htotals := htally.totals
      rw [hmark, if_neg Bool.false_ne_true] at htotals
      rw [htotals]
      exact hs

/-- The committed outpoint is the one tracked through the whole block. -/
theorem Accepted.btcsoq_outpoint (h : Accepted env params idx io false a view block fp p)
    (hactive : (blockFlags params idx).btcsoq)
    (henf : (params.getConsensus idx.nHeight).nBTCSOQAuthorityEnforcementHeight ≤ idx.nHeight) :
    p.btcsoq.outpoint.getD a.btcsoq.authorityOutpoint =
      block.vtx.foldl (btcsoqTracked env) a.btcsoq.authorityOutpoint := by
  obtain ⟨t, supply, hrun, -, hpending⟩ := h.btcsoq_run hactive
  have hcommitted := foldlM_invariant
    (fun s : BTCSOQPass =>
      s.pendingOutpoint.getD a.btcsoq.authorityOutpoint = s.localAuthOutpoint)
    _ (fun s q t _ hq hs => btcsoqTx_committed henf hq hs) hrun rfl
  have htracked := foldlM_track (fun s : BTCSOQPass => s.localAuthOutpoint)
    (fun o (q : CTransaction × CTxUndo) => btcsoqTracked env o q.1) _
    (fun s q t _ hq => btcsoqTx_tracked henf hq) hrun
  rw [hpending.1, hcommitted, htracked, ← List.foldl_map, map_fst_zip_undos h]
  rfl

/-! ## Every chain -/

/-- The authority transactions of a chain, in the order of its blocks. -/
def chainAuthorityTxs (isMarker : CScript → Bool) (chain : List Entry) : List CTransaction :=
  (chain.reverse.flatMap fun e => e.block.vtx).filter (isAuthorityTx isMarker)

theorem chainAuthorityTxs_cons (isMarker : CScript → Bool) (e : Entry) (rest : List Entry) :
    chainAuthorityTxs isMarker (e :: rest) =
      chainAuthorityTxs isMarker rest ++ e.block.vtx.filter (isAuthorityTx isMarker) := by
  rw [chainAuthorityTxs, chainAuthorityTxs, List.reverse_cons, List.flatMap_append,
    List.filter_append, List.flatMap_singleton]

/-- A connected block keeps the chain of markers. -/
theorem markerChain_connected {n : Node} (hactive : (blockFlags params idx).btcsoq)
    (henf : (params.getConsensus idx.nHeight).nBTCSOQAuthorityEnforcementHeight ≤ idx.nHeight)
    (hgenesis : ¬ isGenesis env params block)
    (haccept : (connectBlock env params idx io false n.assets n.view block).verdict = .ok ())
    (hn : MarkerChain env isBTCSOQAuthorityMarker
      (chainAuthorityTxs isBTCSOQAuthorityMarker n.chain) n.assets.btcsoq.authorityOutpoint
      n.view) :
    MarkerChain env isBTCSOQAuthorityMarker
      (chainAuthorityTxs isBTCSOQAuthorityMarker (n.connected env params idx io block).chain)
      (n.connected env params idx io block).assets.btcsoq.authorityOutpoint
      (n.connected env params idx io block).view := by
  obtain ⟨fp, p, h⟩ := connectBlock_accepted haccept hgenesis
  have hblock := markerChain_prefix h hactive henf hn block.vtx [] (List.append_nil _).symm
  rw [h.blockView_eq, ← h.btcsoq_outpoint hactive henf, ← chainAuthorityTxs_cons
    isBTCSOQAuthorityMarker ⟨block, idx, _⟩ n.chain] at hblock
  rw [h.connected_assets, h.connected_view]
  exact hblock.keep fun hat => hat

/-- **The BTCSOQ authority chain never wedges.**  On every chain of accepted blocks, with BTCSOQ
    active and enforced from the first of them, each authority transaction after the first spends
    the first marker output of the one before it; nothing is tracked exactly while there is none
    of them; and what is tracked otherwise is an unspent marker. -/
theorem authority_chain_never_wedges
    (hactive : ∀ h, 1 ≤ h → deploymentActiveAtHeight h (params.getConsensus h) .btcsoq = true)
    (henf : ∀ h, 1 ≤ h → (params.getConsensus h).nBTCSOQAuthorityEnforcementHeight ≤ h)
    {n : Node} (h : Grown env params (fun _ _ => True) n) :
    (chainAuthorityTxs isBTCSOQAuthorityMarker n.chain).IsChain
        (SpendsMarkerOf env isBTCSOQAuthorityMarker) ∧
      (n.assets.btcsoq.authorityOutpoint.isNull = true ↔
        chainAuthorityTxs isBTCSOQAuthorityMarker n.chain = []) ∧
      (n.assets.btcsoq.authorityOutpoint.isNull = false →
        n.view.hasMarkerAt isBTCSOQAuthorityMarker n.assets.btcsoq.authorityOutpoint) := by
  have hchain : MarkerChain env isBTCSOQAuthorityMarker
      (chainAuthorityTxs isBTCSOQAuthorityMarker n.chain) n.assets.btcsoq.authorityOutpoint
      n.view := by
    induction h with
    | start hstart =>
      rw [hstart.chain, hstart.btcsoq.outpoint]
      exact ⟨List.isChain_nil, fun _ => rfl, fun t ht => by cases ht⟩
    | block below idx io block height notGenesis accepted meets ih =>
      have hheight : 1 ≤ idx.nHeight := by omega
      exact markerChain_connected (hactive _ hheight) (henf _ hheight) notGenesis accepted ih
  refine ⟨hchain.linked, hchain.isNull_iff, fun hnull => ?_⟩
  cases hlast : (chainAuthorityTxs isBTCSOQAuthorityMarker n.chain).getLast? with
  | none =>
    rw [hchain.isNull_iff.mpr (List.getLast?_eq_none_iff.mp hlast)] at hnull
    cases hnull
  | some t => exact (hchain.last t hlast).2.2

end Wedge

namespace Sample

/-- The node after a second mint, on top of the first. -/
def mintedTwice : Node :=
  mintedOnce.connected (env sameByte) params (index 3) io
    (block 3 [transaction 11 [spend 10 (authorityWitness BTCSOQ_OP_MINT [1, 2])]
      [pay OP_9 0, pay OP_8 100, mintOutput 4]])

end Sample

open Sample in
/-- Two mints, each on top of the marker before it. -/
theorem authority_chain_never_wedges_mints :
    (chainAuthorityTxs isBTCSOQAuthorityMarker mintedTwice.chain).length = 2 ∧
    mintedTwice.assets.btcsoq.authorityOutpoint = ⟨Uint256.fill 11, 0⟩ ∧
    (chainAuthorityTxs isBTCSOQAuthorityMarker mintedTwice.chain).IsChain
      (SpendsMarkerOf (env sameByte) isBTCSOQAuthorityMarker) ∧
    (mintedTwice.assets.btcsoq.authorityOutpoint.isNull = true ↔
      chainAuthorityTxs isBTCSOQAuthorityMarker mintedTwice.chain = []) ∧
    (mintedTwice.assets.btcsoq.authorityOutpoint.isNull = false →
      mintedTwice.view.hasMarkerAt isBTCSOQAuthorityMarker
        mintedTwice.assets.btcsoq.authorityOutpoint) :=
  ⟨by decide +kernel, by decide +kernel,
    authority_chain_never_wedges (active _ (Or.inr rfl)) (fun h hh => show (0 : Int) ≤ h by omega)
      (.block (.block (.block (.start startNode_start) _ _ _ rfl (not_isGenesis _)
        firstNode_accepted trivial) _ _ _ rfl (not_isGenesis _) (by decide +kernel) trivial)
        _ _ _ rfl (not_isGenesis _) (by decide +kernel) trivial)⟩

end Soqucoin
