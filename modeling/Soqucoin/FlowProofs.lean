import Soqucoin.DisconnectProofs

/-! # What the authority transactions of a block create and spend

Both directions count the same two totals over the authority transactions: `ConnectBlock` in the
order of the block, `DisconnectBlock` from its end, both in 64-bit words.  Here the totals are
integers over the block and the coins view it meets; the counted ones are their residues. -/

namespace Soqucoin

open CheckedLoop SignedWord

variable {env : Env} {params : CChainParams} {idx : CBlockIndex} {io : NodeIO}
variable {fJustCheck : Bool} {a : Assets} {view : CoinsView} {block : CBlock}
variable {fp : FirstPass} {p : Pending} {c : AssetCtx} {dbMinted : Finset COutPoint}

/-! ## The totals -/

/-- The exact value of the outputs of one kind. -/
def valueOf (kind : CTxOut → Bool) (outs : List CTxOut) : Int :=
  ((outs.filter kind).map CTxOut.nValue).sum

/-- A transaction with a marker that is no coinbase. -/
def isAuthorityTx (isMarker : CScript → Bool) (tx : CTransaction) : Bool :=
  !tx.isCoinBase && hasMarker isMarker tx

theorem isAuthorityTx_iff {isMarker : CScript → Bool} {tx : CTransaction} :
    isAuthorityTx isMarker tx ↔ tx.isCoinBase = false ∧ hasMarker isMarker tx := by
  rw [isAuthorityTx, Bool.and_eq_true, Bool.not_eq_true']

/-- What the authority transactions of a block create of one kind. -/
def authorityCreated (isMarker : CScript → Bool) (kind : CTxOut → Bool)
    (vtx : List CTransaction) : Int :=
  (vtx.map fun tx => if isAuthorityTx isMarker tx then valueOf kind tx.vout else 0).sum

theorem authorityCreated_eq_zero {isMarker : CScript → Bool} {kind : CTxOut → Bool}
    {vtx : List CTransaction} (h : ∀ tx ∈ vtx, isAuthorityTx isMarker tx = false) :
    authorityCreated isMarker kind vtx = 0 := by
  refine List.sum_eq_zero fun x hx => ?_
  obtain ⟨tx, htx, rfl⟩ := List.mem_map.mp hx
  rw [h tx htx, if_neg Bool.false_ne_true]

/-- What they spend of it, on the view the block meets. -/
def authoritySpent (env : Env) (nHeight : Int) (isMarker : CScript → Bool)
    (kind : CTxOut → Bool) : CoinsView → List CTransaction → Int
  | _, [] => 0
  | v, tx :: rest =>
    (if isAuthorityTx isMarker tx then valueOf kind (spentOutputs v tx) else 0) +
      authoritySpent env nHeight isMarker kind (afterTx env nHeight v tx) rest

theorem sumOf_eq (kind : CTxOut → Bool) (outs : List CTxOut) :
    sumOf kind outs = wrap64 (valueOf kind outs) :=
  accumulate_zero _

/-! ## The same totals on the undo data -/

/-- The values an authority transaction creates of one kind, with its undo
    data; other transactions have none. -/
def createdValues (isMarker : CScript → Bool) (kind : CTxOut → Bool)
    (q : CTransaction × Option CTxUndo) : List Int :=
  if isAuthorityTx isMarker q.1 then (q.1.vout.filter kind).map CTxOut.nValue else []

/-- The values it spends. -/
def spentValues (isMarker : CScript → Bool) (kind : CTxOut → Bool)
    (q : CTransaction × Option CTxUndo) : List Int :=
  if isAuthorityTx isMarker q.1 then
    (((undoPrevouts q.1 q.2).map Prod.snd).filter kind).map CTxOut.nValue
  else []

theorem sum_flatMap {α : Type} (f : α → List Int) (l : List α) :
    (l.flatMap f).sum = (l.map fun x => (f x).sum).sum := by
  rw [List.flatMap, List.sum_flatten, List.map_map]
  rfl

/-- The values that authority transactions create, summed. -/
theorem sum_createdValues (isMarker : CScript → Bool) (kind : CTxOut → Bool)
    (txs : List (CTransaction × CTxUndo)) :
    ((txs.map undoPair).flatMap (createdValues isMarker kind)).sum =
      authorityCreated isMarker kind (txs.map Prod.fst) := by
  rw [sum_flatMap, authorityCreated, List.map_map, List.map_map]
  refine congrArg List.sum (List.map_congr_left fun q _ => ?_)
  show (createdValues isMarker kind (undoPair q)).sum =
    if isAuthorityTx isMarker q.1 then valueOf kind q.1.vout else 0
  rw [createdValues, undoPair_fst]
  cases isAuthorityTx isMarker q.1 with
  | true => rfl
  | false => rfl

/-- Spending the inputs is spending one outpoint after another. -/
theorem spendInputs_eq_foldl :
    ∀ {vin : List CTxIn} {v v' : CoinsView} {undos : CTxUndo},
      spendInputs v vin = .ok (v', undos) →
      v' = vin.foldl (fun w txin => w.spendOne txin.prevout) v := by
  intro vin
  induction vin with
  | nil =>
    intro v v' undos h
    obtain ⟨rfl, _⟩ := Prod.mk.inj (Except.ok.inj h)
    rfl
  | cons txin rest ih =>
    intro v v' undos h
    obtain ⟨v₁, u, us, h₁, h₂, rfl⟩ := spendInputs_cons_eq_ok.mp h
    obtain ⟨txout, ho, rfl, -⟩ := spendInput_eq_ok.mp h₁
    exact ih h₂

/-- `UpdateCoins` gives the view after the transaction. -/
theorem afterTx_of_updateCoins {v v' : CoinsView} {tx : CTransaction} {undo : CTxUndo}
    {nHeight : Int} (h : updateCoins env v tx nHeight = .ok (v', undo)) :
    v' = afterTx env nHeight v tx := by
  rw [afterTx]
  cases hcb : tx.isCoinBase with
  | true => exact (updateCoins_of_coinbase hcb h).2
  | false =>
    obtain ⟨v₁, hspend, -, rfl⟩ := updateCoins_of_not_coinbase hcb h
    rw [spendInputs_eq_foldl hspend]
    rfl

/-- The values that authority transactions spend, summed. -/
theorem sum_spentValues (isMarker : CScript → Bool) (kind : CTxOut → Bool) {fQueue : Bool}
    {v v' : CoinsView} {txs : List (CTransaction × CTxUndo)} {chks : List CScriptCheck}
    (h : Connects env params idx a fQueue v txs v' chks) :
    ((txs.map undoPair).flatMap (spentValues isMarker kind)).sum =
      authoritySpent env idx.nHeight isMarker kind v (txs.map Prod.fst) := by
  induction h with
  | nil v => rfl
  | @cons v v₁ v' tx undo rest chk chks _ _ updated _ ih =>
    rw [List.map_cons, List.flatMap_cons, List.sum_append, ih, List.map_cons, authoritySpent,
      ← afterTx_of_updateCoins updated]
    refine congrArg (· + _) ?_
    rw [spentValues, undoPair_fst]
    cases hauth : isAuthorityTx isMarker tx with
    | false => rfl
    | true =>
      have hcb := (isAuthorityTx_iff.mp hauth).1
      rw [if_pos rfl, if_pos rfl, undoPair_of_not_coinbase undo hcb,
        undoPrevouts_of_updateCoins hcb updated, List.map_map]
      rfl

/-! ## What `ConnectBlock` counts -/

/-- The two ways to name the holdings an authority transaction mints: it creates
    no confidential ones. -/
theorem isAnyUSDSOQ_isTransparent (o : CTxOut) :
    (o.isAnyUSDSOQ && o.isTransparent) = o.isUSDSOQ := by
  rw [CTxOut.isAnyUSDSOQ, CTxOut.isTransparent, CTxOut.isConfidential,
    CTxOut.isV10ConfidentialUSDSOQ, CTxOut.isUSDSOQ]
  cases h₇ : isWitnessProgram OP_7 o.scriptPubKey with
  | false => cases isWitnessProgram OP_10 o.scriptPubKey <;> simp
  | true =>
    simp only [isWitnessProgram, Bool.and_eq_true, decide_eq_true_eq] at h₇
    obtain ⟨⟨hlen, hop⟩, h32⟩ := h₇
    rw [isWitnessProgram, isWitnessProgram, hlen, hop, h32]
    decide

/-- A turn adds what its transaction creates and spends to the sums. -/
theorem usdsoqTx_totals {s t : AssetPass} {q : CTransaction × CTxUndo}
    (h : usdsoqTx env c s (undoPair q) = .ok t) :
    t.nMinted = accumulate 64 s.nMinted
        (createdValues isUSDSOQAuthorityMarker CTxOut.isUSDSOQ (undoPair q)) ∧
      t.nBurned = accumulate 64 s.nBurned
        (spentValues isUSDSOQAuthorityMarker CTxOut.isAnyUSDSOQ (undoPair q)) := by
  rw [createdValues, spentValues, isAuthorityTx, undoPair_fst]
  cases hcb : q.1.isCoinBase with
  | true =>
    obtain rfl := usdsoqTx_coinbase hcb h
    exact ⟨rfl, rfl⟩
  | false =>
    have htotals := (usdsoqTx_turn hcb h).totals
    cases hmark : hasMarker isUSDSOQAuthorityMarker q.1 with
    | false =>
      rw [hmark, if_neg Bool.false_ne_true] at htotals
      exact htotals
    | true =>
      rw [hmark, if_pos rfl] at htotals
      rw [htotals.1, htotals.2, funext isAnyUSDSOQ_isTransparent]
      exact ⟨rfl, rfl⟩

/-- A turn adds what its transaction creates and spends to the sums. -/
theorem btcsoqTx_totals {s t : BTCSOQPass} {q : CTransaction × CTxUndo}
    (h : btcsoqTx env c dbMinted s (undoPair q) = .ok t) :
    t.nMinted = accumulate 64 s.nMinted (if isAuthorityTx isBTCSOQAuthorityMarker q.1 then
        [sumOf CTxOut.isBTCSOQ q.1.vout] else []) ∧
      t.nBurned = accumulate 64 s.nBurned (if isAuthorityTx isBTCSOQAuthorityMarker q.1 then
        [sumOf CTxOut.isBTCSOQ ((undoPrevouts q.1 (undoPair q).2).map Prod.snd)] else []) := by
  rw [isAuthorityTx]
  cases hcb : q.1.isCoinBase with
  | true =>
    obtain rfl := btcsoqTx_coinbase hcb h
    exact ⟨rfl, rfl⟩
  | false =>
    have htotals := (btcsoqTx_turn hcb h).1.totals
    cases hmark : hasMarker isBTCSOQAuthorityMarker q.1 with
    | false =>
      rw [hmark, if_neg Bool.false_ne_true] at htotals
      rw [htotals]
      exact ⟨rfl, rfl⟩
    | true =>
      rw [hmark, if_pos rfl] at htotals
      exact htotals

/-- The outcome of the supply update of an accepted block, for one asset. -/
def SupplyUpdate (overflow underflow : String) (before : Supply) (minted burned : Int)
    (after : Option Supply) : Prop :=
  applySupplyDelta overflow underflow before (wrap64 minted) (wrap64 burned) = .ok after

/-- The USDSOQ supply after a block, from what its authority transactions create and spend. -/
theorem Accepted.usdsoq_supply (h : Accepted env params idx io fJustCheck a view block fp p)
    (hactive : (blockFlags params idx).usdsoq) :
    ∃ supply, SupplyUpdate "bad-usdsoq-supply-overflow" "bad-usdsoq-supply-underflow"
        a.usdsoq.supply (authorityCreated isUSDSOQAuthorityMarker CTxOut.isUSDSOQ block.vtx)
        (authoritySpent env idx.nHeight isUSDSOQAuthorityMarker CTxOut.isAnyUSDSOQ view block.vtx)
        supply ∧ p.usdsoq.supply = if fJustCheck then none else supply := by
  obtain ⟨t, supply, hrun, hsupply, hp⟩ := h.usdsoq_run hactive
  have hm := foldlM_track AssetPass.nMinted
    (fun acc q => accumulate 64 acc
      (createdValues isUSDSOQAuthorityMarker CTxOut.isUSDSOQ (undoPair q)))
    _ (fun s q t _ hq => (usdsoqTx_totals hq).1) hrun
  have hb := foldlM_track AssetPass.nBurned
    (fun acc q => accumulate 64 acc
      (spentValues isUSDSOQAuthorityMarker CTxOut.isAnyUSDSOQ (undoPair q)))
    _ (fun s q t _ hq => (usdsoqTx_totals hq).2) hrun
  rw [foldl_accumulate, ← List.flatMap_map, AssetPass.start, accumulate_zero, sum_createdValues,
    map_fst_zip_undos h] at hm
  rw [foldl_accumulate, ← List.flatMap_map, AssetPass.start, accumulate_zero,
    sum_spentValues _ _ h.connects, map_fst_zip_undos h] at hb
  rw [hm, hb] at hsupply
  exact ⟨supply, hsupply, by rw [hp]⟩

/-- Sums of wrapped sums are wrapped sums. -/
theorem accumulate_sumOf {β : Type} (auth : β → Bool) (kind : CTxOut → Bool)
    (outs : β → List CTxOut) (l : List β) :
    accumulate 64 0 (l.flatMap fun q => if auth q then [sumOf kind (outs q)] else []) =
      wrap64 (l.flatMap fun q =>
        if auth q then ((outs q).filter kind).map CTxOut.nValue else []).sum := by
  rw [accumulate_zero, sum_flatMap, sum_flatMap]
  refine Eq.trans ?_ (wrap_sum_map_wrap _ _)
  refine congrArg (wrap 64) (congrArg List.sum (List.map_congr_left fun q _ => ?_))
  cases auth q with
  | true =>
    show (sumOf kind (outs q)) + 0 = wrap64 (valueOf kind (outs q))
    rw [Int.add_zero, sumOf_eq]
  | false => exact wrap_zero.symm

/-- The BTCSOQ supply after a block, from what its authority transactions create and spend. -/
theorem Accepted.btcsoq_supply (h : Accepted env params idx io fJustCheck a view block fp p)
    (hactive : (blockFlags params idx).btcsoq) :
    SupplyUpdate "bad-btcsoq-supply-overflow" "bad-btcsoq-supply-underflow"
      a.btcsoq.supply (authorityCreated isBTCSOQAuthorityMarker CTxOut.isBTCSOQ block.vtx)
      (authoritySpent env idx.nHeight isBTCSOQAuthorityMarker CTxOut.isBTCSOQ view block.vtx)
      p.btcsoq.supply := by
  obtain ⟨t, supply, hrun, hsupply, hp, -⟩ := h.btcsoq_run hactive
  have hm := foldlM_track (fun s : BTCSOQPass => s.nMinted)
    (fun acc q => accumulate 64 acc (if isAuthorityTx isBTCSOQAuthorityMarker q.1 then
      [sumOf CTxOut.isBTCSOQ q.1.vout] else []))
    _ (fun s q t _ hq => (btcsoqTx_totals hq).1) hrun
  have hb := foldlM_track (fun s : BTCSOQPass => s.nBurned)
    (fun acc q => accumulate 64 acc (if isAuthorityTx isBTCSOQAuthorityMarker q.1 then
      [sumOf CTxOut.isBTCSOQ ((undoPrevouts q.1 (undoPair q).2).map Prod.snd)] else []))
    _ (fun s q t _ hq => (btcsoqTx_totals hq).2) hrun
  have hcreated := sum_createdValues isBTCSOQAuthorityMarker CTxOut.isBTCSOQ
    (block.vtx.zip fp.undos)
  have hspent := sum_spentValues isBTCSOQAuthorityMarker CTxOut.isBTCSOQ h.connects
  rw [List.flatMap_map, map_fst_zip_undos h] at hcreated hspent
  rw [foldl_accumulate] at hm hb
  have hm' := hm.trans (accumulate_sumOf (fun q : CTransaction × CTxUndo =>
    isAuthorityTx isBTCSOQAuthorityMarker q.1) CTxOut.isBTCSOQ (fun q => q.1.vout) _)
  have hb' := hb.trans (accumulate_sumOf (fun q : CTransaction × CTxUndo =>
    isAuthorityTx isBTCSOQAuthorityMarker q.1) CTxOut.isBTCSOQ
    (fun q => (undoPrevouts q.1 (undoPair q).2).map Prod.snd) _)
  rw [← hcreated, ← hspent, hp]
  rw [hm', hb'] at hsupply
  exact hsupply

/-! ## What `DisconnectBlock` counts -/

/-- What disconnecting adds up is the same in any order. -/
theorem reversedTotals_eq (isMarker : CScript → Bool) (created spent : CTxOut → Bool)
    (l : List (CTransaction × Option CTxUndo)) :
    reversedTotals isMarker created spent l =
      (wrap64 (l.flatMap (createdValues isMarker created)).sum,
        wrap64 (l.flatMap (spentValues isMarker spent)).sum) := by
  have hstep : (fun (t : Int × Int) (q : CTransaction × Option CTxUndo) =>
      if q.1.isCoinBase || !hasMarker isMarker q.1 then t
      else (addValues t.1 created q.1.vout,
        addValues t.2 spent ((undoPrevouts q.1 q.2).map Prod.snd))) =
      fun t q => (accumulate 64 t.1 (createdValues isMarker created q),
        accumulate 64 t.2 (spentValues isMarker spent q)) := by
    funext t q
    rw [createdValues, spentValues, isAuthorityTx]
    cases q.1.isCoinBase <;> cases hasMarker isMarker q.1 <;> rfl
  have hfold : ∀ (l : List (CTransaction × Option CTxUndo)) (t : Int × Int),
      l.foldl (fun t q => (accumulate 64 t.1 (createdValues isMarker created q),
        accumulate 64 t.2 (spentValues isMarker spent q))) t =
      (accumulate 64 t.1 (l.flatMap (createdValues isMarker created)),
        accumulate 64 t.2 (l.flatMap (spentValues isMarker spent))) := by
    intro l
    induction l with
    | nil => intro t; rfl
    | cons q l ih =>
      intro t
      rw [List.foldl_cons, ih, List.flatMap_cons, List.flatMap_cons, accumulate_append,
        accumulate_append]
  rw [reversedTotals, hstep, hfold, accumulate_zero, accumulate_zero]
  rfl

theorem sum_flatMap_reverse {α : Type} (f : α → List Int) (l : List α) :
    (l.reverse.flatMap f).sum = (l.flatMap f).sum := by
  rw [sum_flatMap, sum_flatMap, List.map_reverse, List.sum_reverse]

theorem Accepted.reversedTotals_eq (h : Accepted env params idx io fJustCheck a view block fp p)
    (isMarker : CScript → Bool) (created spent : CTxOut → Bool) :
    reversedTotals isMarker created spent (withUndo block.vtx fp.undos.tail).reverse =
      (wrap64 (authorityCreated isMarker created block.vtx),
        wrap64 (authoritySpent env idx.nHeight isMarker spent view block.vtx)) := by
  rw [Soqucoin.reversedTotals_eq, sum_flatMap_reverse, sum_flatMap_reverse, h.withUndo_eq,
    sum_createdValues, sum_spentValues _ _ h.connects, map_fst_zip_undos h]

end Soqucoin
