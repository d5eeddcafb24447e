import Soqucoin.Coins

/-! # Coins survive a reorganisation

`UpdateCoins` on the transactions of a block, and then the coin loop of `DisconnectBlock` with the
recorded undo data, restore the view: one inverse for each loop, from an input to a block
(`disconnectTxs_of_connectCoins`).  An undo entry carries the metadata of its record exactly when
its height is not zero, so a live record must not have height zero. -/

namespace Soqucoin

open CheckedLoop SparseList

variable {c coins : CCoins} {v v' : CoinsView} {t : Uint256} {txin : CTxIn} {n : Nat}
  {txout : CTxOut} {o : COutPoint} {undos : CTxUndo} {env : Env} {tx : CTransaction} {nHeight : Int}

namespace CCoins

theorem isPruned_iff : c.isPruned ↔ ∀ i, c.outputAt i = none :=
  all_isNone_iff

theorem isPruned_cleanup (c : CCoins) : c.cleanup.isPruned = c.isPruned := by
  rw [Bool.eq_iff_iff, isPruned_iff, isPruned_iff]
  exact forall_congr' fun i => by rw [outputAt, cleanup, entry_trim]; rfl

theorem cleanup_vout_eq_nil_iff : c.cleanup.vout = [] ↔ c.isPruned := by
  rw [isPruned_iff]
  exact trim_eq_nil_iff

theorem normalize_of_isPruned (h : c.isPruned) : c.normalize = blank := by
  rw [normalize, if_pos (cleanup_vout_eq_nil_iff.mpr h)]

theorem normalize_of_not_isPruned (h : c.isPruned = false) : c.normalize = c.cleanup := by
  rw [normalize, if_neg]
  intro hnil
  rw [cleanup_vout_eq_nil_iff.mp hnil] at h
  cases h

theorem Canonical.cleanup_eq (h : c.Canonical) : c.cleanup = c := by
  rw [cleanup, trim_of_trimmed h.1]

theorem Canonical.normalize_eq (h : c.Canonical) : c.normalize = c := by
  rw [normalize, h.cleanup_eq]
  by_cases hnil : c.vout = []
  · rw [if_pos hnil]
    exact (h.2 hnil).symm
  · rw [if_neg hnil]

theorem Canonical.eq_blank (h : c.Canonical) (hp : c.isPruned) : c = blank := by
  rw [← h.normalize_eq, normalize_of_isPruned hp]

/-- Normalising a record changes no output. -/
theorem outputAt_normalize (c : CCoins) (i : Nat) : c.normalize.outputAt i = c.outputAt i := by
  cases hp : c.isPruned with
  | true =>
    rw [normalize_of_isPruned hp, isPruned_iff.mp hp i]
    rfl
  | false =>
    rw [normalize_of_not_isPruned hp]
    exact entry_trim c.vout i

theorem isPruned_normalize (c : CCoins) : c.normalize.isPruned = c.isPruned := by
  rw [Bool.eq_iff_iff, isPruned_iff, isPruned_iff]
  exact forall_congr' fun i => by rw [outputAt_normalize]

/-! ### Clearing unspendable outputs -/

theorem entry_map_keepSpendable (l : List (Option CTxOut)) (i : Nat) :
    entry (l.map (Option.bind · keepSpendable)) i = (entry l i).bind keepSpendable := by
  rw [entry, entry, List.getElem?_map]
  cases l[i]? <;> rfl

theorem outputAt_clearUnspendable (c : CCoins) (i : Nat) :
    c.clearUnspendable.outputAt i = (c.outputAt i).bind keepSpendable := by
  rw [outputAt, clearUnspendable, cleanup, entry_trim]
  exact entry_map_keepSpendable c.vout i

theorem keepSpendable_idem (o : CTxOut) :
    (keepSpendable o).bind keepSpendable = keepSpendable o := by
  rw [keepSpendable]
  by_cases h : isUnspendable o.scriptPubKey = true
  · rw [if_pos h]
    rfl
  · rw [if_neg h]
    show keepSpendable o = some o
    rw [keepSpendable, if_neg h]

/-- What is cleared once stays clear. -/
theorem clearUnspendable_idem (c : CCoins) :
    c.clearUnspendable.clearUnspendable = c.clearUnspendable := by
  have hvout : c.clearUnspendable.clearUnspendable.vout = c.clearUnspendable.vout := by
    refine ext_of_trimmed (trim_trimmed _) (trim_trimmed _) fun i => ?_
    show c.clearUnspendable.clearUnspendable.outputAt i = c.clearUnspendable.outputAt i
    rw [outputAt_clearUnspendable, outputAt_clearUnspendable]
    cases c.outputAt i with
    | none => rfl
    | some o => exact keepSpendable_idem o
  show ({ c with vout := c.clearUnspendable.clearUnspendable.vout } : CCoins) = _
  rw [hvout]
  rfl

theorem fromTx_cleanup (tx : CTransaction) (h : Int) : (fromTx tx h).cleanup = fromTx tx h := by
  show ({ fromTx tx h with vout := trim (fromTx tx h).vout } : CCoins) = fromTx tx h
  rw [trim_of_trimmed (l := (fromTx tx h).vout) (trim_trimmed _)]

end CCoins

namespace CoinsView

theorem ext_records {w : CoinsView} (hr : ∀ t, v.record t = w.record t)
    (hb : v.bestBlock = w.bestBlock) : v = w := by
  cases v
  cases w
  obtain rfl := funext hr
  obtain rfl := hb
  rfl

@[simp] theorem record_store_self (v : CoinsView) (t : Uint256) (c : CCoins) :
    (v.store t c).record t = c.normalize :=
  if_pos rfl

theorem record_store_ne (v : CoinsView) {t' : Uint256} (c : CCoins) (h : t' ≠ t) :
    (v.store t c).record t' = v.record t' :=
  if_neg h

theorem record_store (v : CoinsView) (t t' : Uint256) (c : CCoins) :
    (v.store t c).record t' = if t' = t then c.normalize else v.record t' := rfl

theorem store_store_eq (v : CoinsView) (t : Uint256) (c d : CCoins)
    (h : d.normalize = v.record t) : (v.store t c).store t d = v := by
  refine ext_records (fun t' => ?_) rfl
  rw [record_store, record_store]
  by_cases ht : t' = t
  · rw [if_pos ht, h, ht]
  · rw [if_neg ht, if_neg ht]

/-- A record with outputs knows its height. -/
def HeightsPositive (v : CoinsView) : Prop :=
  ∀ t, (v.record t).isPruned = false → 0 < (v.record t).nHeight

/-- Storing a record with a positive height keeps the heights positive. -/
theorem HeightsPositive.store (hv : v.HeightsPositive) (hc : c.isPruned = false → 0 < c.nHeight) :
    (v.store t c).HeightsPositive := by
  intro t' hlive
  rw [record_store] at hlive ⊢
  by_cases ht : t' = t
  · rw [if_pos ht] at hlive ⊢
    rw [CCoins.isPruned_normalize] at hlive
    rw [CCoins.normalize_of_not_isPruned hlive]
    exact hc hlive
  · rw [if_neg ht] at hlive ⊢
    exact hv t' hlive

end CoinsView

/-! ## One input -/

/-- The view without one output. -/
def CoinsView.spendOne (v : CoinsView) (o : COutPoint) : CoinsView :=
  v.store o.hash ((v.record o.hash).spend o.n)

/-- What `UpdateCoins` notes about a spent output. -/
def undoEntry (v : CoinsView) (o : COutPoint) (txout : CTxOut) : CTxInUndo :=
  let coins := v.record o.hash
  if (coins.spend o.n).vout = [] then ⟨txout, coins.fCoinBase, coins.nHeight, coins.nVersion⟩
  else ⟨txout, false, 0, 0⟩

@[simp] theorem undoEntry_txout (v : CoinsView) (o : COutPoint) (txout : CTxOut) :
    (undoEntry v o txout).txout = txout := by
  rw [undoEntry]
  split <;> rfl

/-- Spending an input takes one unspent output and notes it. -/
theorem spendInput_eq_ok {u : CTxInUndo} :
    spendInput v txin = .ok (v', u) ↔
      ∃ txout, v.output txin.prevout = some txout ∧ v' = v.spendOne txin.prevout ∧
        u = undoEntry v txin.prevout txout := by
  rw [spendInput, CoinsView.output]
  cases h : (v.record txin.prevout.hash).outputAt txin.prevout.n with
  | none =>
    constructor
    · intro he
      exact nomatch he
    · rintro ⟨_, ho, _⟩
      exact nomatch ho
  | some txout =>
    constructor
    · intro he
      obtain ⟨rfl, rfl⟩ := Prod.mk.inj (Except.ok.inj he)
      exact ⟨txout, rfl, rfl, rfl⟩
    · rintro ⟨_, ho, rfl, rfl⟩
      obtain rfl := Option.some.inj ho
      rfl

theorem CCoins.isPruned_of_entry (h : entry coins.vout n = some txout) :
    coins.isPruned = false := by
  rw [Bool.eq_false_iff]
  intro hp
  rw [show entry coins.vout n = none from CCoins.isPruned_iff.mp hp n] at h
  cases h

theorem HeightsPositive_spendOne (hv : v.HeightsPositive) (ho : v.output o = some txout) :
    (v.spendOne o).HeightsPositive := by
  refine hv.store fun _ => ?_
  show 0 < (v.record o.hash).nHeight
  exact hv o.hash (CCoins.isPruned_of_entry ho)

/-- Spending leaves no outputs at the end that are spent, so a pruned record is empty. -/
theorem CCoins.isPruned_spend : (coins.spend n).isPruned ↔ (coins.spend n).vout = [] := by
  constructor
  · intro hp
    rw [← CCoins.cleanup_vout_eq_nil_iff] at hp
    rw [← hp]
    exact (trim_of_trimmed (trim_trimmed _)).symm
  · intro hnil
    rw [CCoins.isPruned, hnil]
    rfl

theorem CCoins.normalize_spend (h : (coins.spend n).isPruned = false) :
    (coins.spend n).normalize = coins.spend n := by
  rw [CCoins.normalize_of_not_isPruned h]
  show ({ coins.spend n with vout := trim (trim _) } : CCoins) = _
  rw [trim_of_trimmed (trim_trimmed _)]
  rfl

theorem CCoins.isAvailable_spend (coins : CCoins) (n : Nat) :
    (coins.spend n).isAvailable n = false := by
  show (entry (trim (coins.vout.set n none)) n).isSome = false
  rw [entry_trim, entry_set_none, if_pos rfl]
  rfl

/-- Putting a spent output back gives the view there was. -/
theorem CoinsView.store_spendOne (hat : entry (v.record o.hash).vout o.n = some txout)
    (hvout : c.vout = put ((v.record o.hash).spend o.n).vout o.n txout)
    (hcb : c.fCoinBase = (v.record o.hash).fCoinBase)
    (hheight : c.nHeight = (v.record o.hash).nHeight)
    (hversion : c.nVersion = (v.record o.hash).nVersion) : (v.spendOne o).store o.hash c = v := by
  refine CoinsView.store_store_eq _ _ _ _ ?_
  have hrestore : trim (put ((v.record o.hash).spend o.n).vout o.n txout) =
      (v.record o.hash).vout := trim_put_trim_set (v.canonical o.hash).1 hat
  have hclean : c.cleanup = v.record o.hash := by
    show CCoins.mk c.fCoinBase (trim c.vout) c.nHeight c.nVersion = v.record o.hash
    rw [hvout, hrestore, hcb, hheight, hversion]
  rw [CCoins.normalize_of_not_isPruned, hclean]
  rw [← CCoins.isPruned_cleanup, hclean]
  exact CCoins.isPruned_of_entry hat

/-- The note of a spent input takes it back. -/
theorem applyTxInUndo_of_spendInput {u : CTxInUndo} (hv : v.HeightsPositive)
    (h : spendInput v txin = .ok (v', u)) : applyTxInUndo u v' txin.prevout = (true, v) := by
  obtain ⟨txout, ho, rfl, rfl⟩ := spendInput_eq_ok.mp h
  generalize txin.prevout = o at ho ⊢
  have hat : entry (v.record o.hash).vout o.n = some txout := ho
  have hspent : (v.spendOne o).record o.hash = ((v.record o.hash).spend o.n).normalize :=
    CoinsView.record_store_self ..
  by_cases hnil : ((v.record o.hash).spend o.n).vout = []
  · -- last output of its record: the undo entry carries the metadata
    have hu : undoEntry v o txout = ⟨txout, (v.record o.hash).fCoinBase,
        (v.record o.hash).nHeight, (v.record o.hash).nVersion⟩ := if_pos hnil
    have hh : (v.record o.hash).nHeight ≠ 0 :=
      ne_of_gt (hv o.hash (CCoins.isPruned_of_entry hat))
    rw [applyTxInUndo, hu, hspent, CCoins.normalize_of_isPruned (CCoins.isPruned_spend.mpr hnil)]
    simp only [ne_eq, hh, not_false_eq_true, if_true]
    refine Prod.ext rfl (CoinsView.store_spendOne hat ?_ rfl rfl rfl)
    rw [hnil]
  · -- the record lives on and keeps its metadata
    have hnot : ((v.record o.hash).spend o.n).isPruned = false :=
      Bool.eq_false_iff.mpr fun hp => hnil (CCoins.isPruned_spend.mp hp)
    have hu : undoEntry v o txout = ⟨txout, false, 0, 0⟩ := if_neg hnil
    rw [applyTxInUndo, hu, hspent, CCoins.normalize_spend hnot]
    simp only [ne_eq, not_true_eq_false, if_false, hnot, CCoins.isAvailable_spend]
    exact Prod.ext rfl (CoinsView.store_spendOne hat rfl rfl rfl rfl)

/-! ## All inputs of a transaction -/

/-- The first input, then the others. -/
theorem spendInputs_cons_eq_ok {rest : List CTxIn} :
    spendInputs v (txin :: rest) = .ok (v', undos) ↔
      ∃ v₁ u us, spendInput v txin = .ok (v₁, u) ∧ spendInputs v₁ rest = .ok (v', us) ∧
        undos = u :: us := by
  rw [spendInputs, bind_eq_ok]
  constructor
  · rintro ⟨⟨v₁, u⟩, h₁, hrest⟩
    obtain ⟨⟨v₂, us⟩, h₂, hok⟩ := bind_eq_ok.mp hrest
    obtain ⟨rfl, rfl⟩ := Prod.mk.inj (Except.ok.inj hok)
    exact ⟨v₁, u, us, h₁, h₂, rfl⟩
  · rintro ⟨v₁, u, us, h₁, h₂, rfl⟩
    exact ⟨(v₁, u), h₁, bind_eq_ok.mpr ⟨(v', us), h₂, rfl⟩⟩

/-- What one spent output keeps, spending the inputs keeps. -/
theorem spendInputs_invariant (P : CoinsView → Prop)
    (step : ∀ v o txout, v.output o = some txout → P v → P (v.spendOne o)) :
    ∀ {vin : List CTxIn} {v v' : CoinsView} {undos : CTxUndo},
      spendInputs v vin = .ok (v', undos) → P v → P v' := by
  intro vin
  induction vin with
  | nil =>
    intro v v' undos h hP
    obtain ⟨rfl, _⟩ := Prod.mk.inj (Except.ok.inj h)
    exact hP
  | cons txin rest ih =>
    intro v v' undos h hP
    obtain ⟨v₁, u, us, h₁, h₂, rfl⟩ := spendInputs_cons_eq_ok.mp h
    obtain ⟨txout, ho, rfl, -⟩ := spendInput_eq_ok.mp h₁
    exact ih h₂ (step v txin.prevout txout ho hP)

/-- One note an input. -/
theorem spendInputs_length :
    ∀ {vin : List CTxIn} {v v' : CoinsView} {undos : CTxUndo},
      spendInputs v vin = .ok (v', undos) → undos.length = vin.length := by
  intro vin
  induction vin with
  | nil =>
    intro v v' undos h
    obtain ⟨_, rfl⟩ := Prod.mk.inj (Except.ok.inj h)
    rfl
  | cons txin rest ih =>
    intro v v' undos h
    obtain ⟨v₁, u, us, _, h₂, rfl⟩ := spendInputs_cons_eq_ok.mp h
    rw [List.length_cons, List.length_cons, ih h₂]

/-- The notes of a transaction take back its inputs. -/
theorem disconnectInputs_of_spendInputs :
    ∀ {vin : List CTxIn} {v v' : CoinsView} {undos : CTxUndo},
      v.HeightsPositive → spendInputs v vin = .ok (v', undos) →
      disconnectInputs v' (vin.zip undos) = (true, v) := by
  intro vin
  induction vin with
  | nil =>
    intro v v' undos _ h
    obtain ⟨rfl, rfl⟩ := Prod.mk.inj (Except.ok.inj h)
    rfl
  | cons txin rest ih =>
    intro v v' undos hv h
    obtain ⟨v₁, u, us, h₁, h₂, rfl⟩ := spendInputs_cons_eq_ok.mp h
    have hv₁ : v₁.HeightsPositive := by
      obtain ⟨txout, ho, rfl, -⟩ := spendInput_eq_ok.mp h₁
      exact HeightsPositive_spendOne hv ho
    -- the later inputs come back first
    have hrest := ih hv₁ h₂
    have hfirst := applyTxInUndo_of_spendInput hv h₁
    rw [disconnectInputs] at hrest
    rw [List.zip_cons_cons, disconnectInputs, List.foldr_cons, hrest]
    show (true && (applyTxInUndo u v₁ txin.prevout).1,
      (applyTxInUndo u v₁ txin.prevout).2) = (true, v)
    rw [hfirst]
    rfl

/-! ## One transaction -/

/-- A transaction spends its inputs and stores its outputs under a fresh id. -/
theorem updateCoins_eq_ok :
    updateCoins env v tx nHeight = .ok (v', undos) ↔
      ∃ v₁, spendTx v tx = .ok (v₁, undos) ∧
        (tx.isCoinBase ∨ (v₁.record (env.getHash tx)).isPruned) ∧
        v' = v₁.store (env.getHash tx) (CCoins.fromTx tx nHeight) := by
  rw [updateCoins, bind_eq_ok]
  constructor
  · rintro ⟨⟨v₁, us⟩, h₁, hrest⟩
    obtain ⟨hreq, hok⟩ := require_bind_eq_ok.mp hrest
    obtain ⟨rfl, rfl⟩ := Prod.mk.inj (Except.ok.inj hok)
    exact ⟨v₁, h₁, Bool.or_eq_true_iff.mp hreq, rfl⟩
  · rintro ⟨v₁, h₁, hreq, rfl⟩
    exact ⟨(v₁, undos), h₁, require_bind_eq_ok.mpr ⟨Bool.or_eq_true_iff.mpr hreq, rfl⟩⟩

theorem updateCoins_of_coinbase (hcb : tx.isCoinBase)
    (h : updateCoins env v tx nHeight = .ok (v', undos)) :
    undos = [] ∧ v' = v.store (env.getHash tx) (CCoins.fromTx tx nHeight) := by
  obtain ⟨v₁, h₁, -, rfl⟩ := updateCoins_eq_ok.mp h
  rw [spendTx, if_pos hcb] at h₁
  obtain ⟨rfl, rfl⟩ := Prod.mk.inj (Except.ok.inj h₁)
  exact ⟨rfl, rfl⟩

/-- A transaction spends its inputs and stores its outputs under a fresh id. -/
theorem updateCoins_of_not_coinbase (hcb : tx.isCoinBase = false)
    (h : updateCoins env v tx nHeight = .ok (v', undos)) :
    ∃ v₁, spendInputs v tx.vin = .ok (v₁, undos) ∧
      (v₁.record (env.getHash tx)).isPruned ∧
      v' = v₁.store (env.getHash tx) (CCoins.fromTx tx nHeight) := by
  obtain ⟨v₁, h₁, hreq, rfl⟩ := updateCoins_eq_ok.mp h
  rw [spendTx, if_neg (Bool.eq_false_iff.mp hcb)] at h₁
  rw [hcb] at hreq
  exact ⟨v₁, h₁, hreq.resolve_left Bool.false_ne_true, rfl⟩

/-- A transaction keeps the heights of records positive. -/
theorem HeightsPositive_updateCoins (hpos : 0 < nHeight) (hv : v.HeightsPositive)
    (h : updateCoins env v tx nHeight = .ok (v', undos)) : v'.HeightsPositive := by
  obtain ⟨v₁, h₁, -, rfl⟩ := updateCoins_eq_ok.mp h
  have hv₁ : v₁.HeightsPositive := by
    rw [spendTx] at h₁
    by_cases hcb : tx.isCoinBase = true
    · rw [if_pos hcb] at h₁
      obtain ⟨rfl, -⟩ := Prod.mk.inj (Except.ok.inj h₁)
      exact hv
    · rw [if_neg hcb] at h₁
      exact spendInputs_invariant _ (fun _ _ _ ho hw => HeightsPositive_spendOne hw ho) h₁ hv
  exact hv₁.store fun _ => hpos

/-- New outputs are taken back to an empty record. -/
theorem disconnectOutputs_of_store (hfresh : (v.record (env.getHash tx)).isPruned) :
    disconnectOutputs env (v.store (env.getHash tx) (CCoins.fromTx tx nHeight)) tx nHeight =
      (true, v) := by
  have hview : (v.store (env.getHash tx) (CCoins.fromTx tx nHeight)).store (env.getHash tx)
      CCoins.blank = v := by
    refine CoinsView.store_store_eq _ _ _ _ ?_
    rw [(v.canonical _).eq_blank hfresh]
    rfl
  rw [disconnectOutputs, CoinsView.record_store_self, hview]
  refine Prod.ext ?_ rfl
  cases hp : (CCoins.fromTx tx nHeight).isPruned with
  | true =>
    -- both records are pruned, whatever their metadata say
    have hblank : CCoins.blank.clearUnspendable = CCoins.blank := rfl
    rw [CCoins.normalize_of_isPruned hp, hblank]
    show CCoins.sameAs _ _ = true
    by_cases hn : (CCoins.fromTx tx nHeight).nVersion < 0
    · rw [if_pos hn, CCoins.sameAs, hp]
      rfl
    · rw [if_neg hn, CCoins.sameAs, hp]
      rfl
  | false =>
    have hsame : (CCoins.fromTx tx nHeight).normalize.clearUnspendable =
        CCoins.fromTx tx nHeight := by
      rw [CCoins.normalize_of_not_isPruned hp, CCoins.fromTx_cleanup]
      exact CCoins.clearUnspendable_idem _
    rw [hsame]
    show CCoins.sameAs (if _ then _ else _) _ = true
    rw [ite_self, CCoins.sameAs]
    simp

/-- Disconnection takes a transaction back exactly. -/
theorem disconnectTx_of_updateCoins (hv : v.HeightsPositive) (hcb : tx.isCoinBase = false)
    (h : updateCoins env v tx nHeight = .ok (v', undos)) :
    disconnectTx env nHeight (true, v') (tx, some undos) = .ok (true, v) := by
  obtain ⟨v₁, h₁, hfresh, rfl⟩ := updateCoins_of_not_coinbase hcb h
  rw [disconnectTx]
  simp only [disconnectOutputs_of_store hfresh]
  rw [if_neg (not_not.mpr (spendInputs_length h₁)), disconnectInputs_of_spendInputs hv h₁]
  rfl

/-- It takes a coinbase back exactly. -/
theorem disconnectTx_of_updateCoins_coinbase (hcb : tx.isCoinBase)
    (hfresh : (v.record (env.getHash tx)).isPruned)
    (h : updateCoins env v tx nHeight = .ok (v', undos)) :
    disconnectTx env nHeight (true, v') (tx, none) = .ok (true, v) := by
  obtain ⟨-, rfl⟩ := updateCoins_of_coinbase hcb h
  rw [disconnectTx]
  simp only [disconnectOutputs_of_store hfresh]
  rfl

/-! ## A block -/

/-- What a block does to the coins, transaction by transaction, with the undo data. -/
def connectCoins (env : Env) (nHeight : Int) :
    CoinsView → List CTransaction → Check (CoinsView × List CTxUndo)
  | v, [] => .ok (v, [])
  | v, tx :: rest => do
      let (v, undo) ← updateCoins env v tx nHeight
      let (v, undos) ← connectCoins env nHeight v rest
      .ok (v, undo :: undos)

/-- The first transaction, then the others. -/
theorem connectCoins_cons_eq_ok {rest : List CTransaction} {undos : List CTxUndo} :
    connectCoins env nHeight v (tx :: rest) = .ok (v', undos) ↔
      ∃ v₁ u us, updateCoins env v tx nHeight = .ok (v₁, u) ∧
        connectCoins env nHeight v₁ rest = .ok (v', us) ∧ undos = u :: us := by
  rw [connectCoins, bind_eq_ok]
  constructor
  · rintro ⟨⟨v₁, u⟩, h₁, hrest⟩
    obtain ⟨⟨v₂, us⟩, h₂, hok⟩ := bind_eq_ok.mp hrest
    obtain ⟨rfl, rfl⟩ := Prod.mk.inj (Except.ok.inj hok)
    exact ⟨v₁, u, us, h₁, h₂, rfl⟩
  · rintro ⟨v₁, u, us, h₁, h₂, rfl⟩
    exact ⟨(v₁, u), h₁, bind_eq_ok.mpr ⟨(v', us), h₂, rfl⟩⟩

/-- One entry of undo data a transaction. -/
theorem connectCoins_length :
    ∀ {txs : List CTransaction} {v v' : CoinsView} {undos : List CTxUndo},
      connectCoins env nHeight v txs = .ok (v', undos) → undos.length = txs.length := by
  intro txs
  induction txs with
  | nil =>
    intro v v' undos h
    obtain ⟨_, rfl⟩ := Prod.mk.inj (Except.ok.inj h)
    rfl
  | cons tx rest ih =>
    intro v v' undos h
    obtain ⟨v₁, u, us, _, h₂, rfl⟩ := connectCoins_cons_eq_ok.mp h
    rw [List.length_cons, List.length_cons, ih h₂]

/-- The transactions after the coinbase are taken back in the reverse order. -/
theorem disconnectTxs_of_connectCoins (hpos : 0 < nHeight) :
    ∀ {txs : List CTransaction} {v v' : CoinsView} {undos : List CTxUndo},
      v.HeightsPositive → (∀ tx ∈ txs, tx.isCoinBase = false) →
      connectCoins env nHeight v txs = .ok (v', undos) →
      (txs.zip (undos.map some)).reverse.foldlM (disconnectTx env nHeight) (true, v') =
        .ok (true, v) := by
  intro txs
  induction txs with
  | nil =>
    intro v v' undos _ _ h
    obtain ⟨rfl, rfl⟩ := Prod.mk.inj (Except.ok.inj h)
    rfl
  | cons tx rest ih =>
    intro v v' undos hv hcb h
    obtain ⟨v₁, u, us, h₁, h₂, rfl⟩ := connectCoins_cons_eq_ok.mp h
    have hv₁ := HeightsPositive_updateCoins hpos hv h₁
    have hrest := ih hv₁ (fun t ht => hcb t (List.mem_cons_of_mem _ ht)) h₂
    rw [List.map_cons, List.zip_cons_cons, List.reverse_cons, foldlM_append_eq_ok]
    refine ⟨(true, v₁), hrest, foldlM_cons_eq_ok.mpr ⟨(true, v), ?_, rfl⟩⟩
    exact disconnectTx_of_updateCoins hv (hcb tx (List.mem_cons_self ..)) h₁

/-- Disconnecting a connected block gives the coins there were. -/
theorem disconnectCoins_of_connectCoins (hpos : 0 < nHeight) {coinbase : CTransaction}
    {txs : List CTransaction} {undos : List CTxUndo} (hv : v.HeightsPositive)
    (hcb : coinbase.isCoinBase) (htxs : ∀ tx ∈ txs, tx.isCoinBase = false)
    (hfresh : (v.record (env.getHash coinbase)).isPruned)
    (h : connectCoins env nHeight v (coinbase :: txs) = .ok (v', undos)) :
    disconnectCoins env nHeight v' (coinbase :: txs) undos.tail = .ok (true, v) := by
  obtain ⟨v₁, u, us, h₁, h₂, rfl⟩ := connectCoins_cons_eq_ok.mp h
  have hv₁ := HeightsPositive_updateCoins hpos hv h₁
  have hlen : us.length + 1 = (coinbase :: txs).length := by
    rw [List.length_cons, connectCoins_length h₂]
  have hrest := disconnectTxs_of_connectCoins hpos hv₁ htxs h₂
  rw [List.tail_cons, disconnectCoins, require_bind_eq_ok]
  refine ⟨decide_eq_true hlen, ?_⟩
  rw [withUndo, List.zip_cons_cons, List.reverse_cons, foldlM_append_eq_ok]
  refine ⟨(true, v₁), hrest, foldlM_cons_eq_ok.mpr ⟨(true, v), ?_, rfl⟩⟩
  exact disconnectTx_of_updateCoins_coinbase hcb hfresh h₁

/-! ## Blocks whose transactions can be connected -/

/-- Every input is available when its turn comes. -/
def InputsAvailable : CoinsView → List CTxIn → Prop
  | _, [] => True
  | v, txin :: rest =>
    v.isAvailable txin.prevout = true ∧ InputsAvailable (v.spendOne txin.prevout) rest

/-- The view after a transaction's inputs are spent and its outputs added. -/
def afterTx (env : Env) (nHeight : Int) (v : CoinsView) (tx : CTransaction) : CoinsView :=
  let spent := if tx.isCoinBase then v
    else tx.vin.foldl (fun w txin => w.spendOne txin.prevout) v
  spent.store (env.getHash tx) (CCoins.fromTx tx nHeight)

/-- Each transaction spends available coins, and its id has no unspent record,
    when its turn comes. -/
def Connectable (env : Env) (nHeight : Int) : CoinsView → List CTransaction → Prop
  | _, [] => True
  | v, tx :: rest =>
    (tx.isCoinBase = false → InputsAvailable v tx.vin) ∧
      (v.record (env.getHash tx)).isPruned = true ∧
      Connectable env nHeight (afterTx env nHeight v tx) rest

/-- Inputs that are there can be spent. -/
theorem spendInputs_of_inputsAvailable :
    ∀ {vin : List CTxIn} {v : CoinsView}, InputsAvailable v vin →
      ∃ undos, spendInputs v vin =
        .ok (vin.foldl (fun w txin => w.spendOne txin.prevout) v, undos) := by
  intro vin
  induction vin with
  | nil => intro v _; exact ⟨[], rfl⟩
  | cons txin rest ih =>
    rintro v ⟨havail, hrest⟩
    obtain ⟨txout, ho⟩ := Option.isSome_iff_exists.mp havail
    obtain ⟨us, hus⟩ := ih hrest
    exact ⟨_, spendInputs_cons_eq_ok.mpr
      ⟨_, _, us, spendInput_eq_ok.mpr ⟨txout, ho, rfl, rfl⟩, hus, rfl⟩⟩

/-- A record without outputs has none after a spend. -/
theorem isPruned_spendOne (ho : v.output o = some txout) (hp : (v.record t).isPruned) :
    ((v.spendOne o).record t).isPruned := by
  have hne : t ≠ o.hash := by
    rintro rfl
    have hnone := CCoins.isPruned_iff.mp hp o.n
    rw [show (v.record o.hash).outputAt o.n = some txout from ho] at hnone
    exact nomatch hnone
  rw [CoinsView.spendOne, CoinsView.record_store_ne _ _ hne]
  exact hp

/-- A transaction with its inputs there and a fresh id can be connected. -/
theorem updateCoins_of_connectable (hin : tx.isCoinBase = false → InputsAvailable v tx.vin)
    (hfresh : (v.record (env.getHash tx)).isPruned) :
    ∃ undos, updateCoins env v tx nHeight = .ok (afterTx env nHeight v tx, undos) := by
  cases hcb : tx.isCoinBase with
  | true =>
    refine ⟨[], updateCoins_eq_ok.mpr ⟨v, if_pos hcb, Or.inl hcb, ?_⟩⟩
    rw [afterTx, if_pos hcb]
  | false =>
    obtain ⟨undos, hspend⟩ := spendInputs_of_inputsAvailable (hin hcb)
    have hpruned := spendInputs_invariant (fun w => (w.record (env.getHash tx)).isPruned = true)
      (fun w o txout ho hw => isPruned_spendOne ho hw) hspend hfresh
    refine ⟨undos, updateCoins_eq_ok.mpr ⟨_, ?_, Or.inr hpruned, ?_⟩⟩
    · rw [spendTx, if_neg (Bool.eq_false_iff.mp hcb)]
      exact hspend
    · rw [afterTx, if_neg (Bool.eq_false_iff.mp hcb)]

/-- Transactions whose inputs are there in turn connect. -/
theorem connectCoins_of_connectable :
    ∀ {txs : List CTransaction} {v : CoinsView}, Connectable env nHeight v txs →
      ∃ v' undos, connectCoins env nHeight v txs = .ok (v', undos) := by
  intro txs
  induction txs with
  | nil => intro v _; exact ⟨v, [], rfl⟩
  | cons tx rest ih =>
    rintro v ⟨hin, hfresh, hrest⟩
    obtain ⟨u, hu⟩ := updateCoins_of_connectable hin hfresh
    obtain ⟨v', us, hus⟩ := ih hrest
    exact ⟨v', u :: us, connectCoins_cons_eq_ok.mpr ⟨_, u, us, hu, hus, rfl⟩⟩

/-- **Coins survive a reorganisation.**  For every view whose live records have positive heights,
    and every block at a positive height whose transactions spend available coins and have ids
    without unspent records: `UpdateCoins` goes through on all of them, and the coin loop of
    `DisconnectBlock` with the recorded undo data is clean and gives the view back. -/
theorem disconnectCoins_restores_view (env : Env) (nHeight : Int) (hpos : 0 < nHeight)
    (v : CoinsView) (hv : v.HeightsPositive) (coinbase : CTransaction)
    (txs : List CTransaction) (hcb : coinbase.isCoinBase = true)
    (htxs : ∀ tx ∈ txs, tx.isCoinBase = false)
    (hblock : Connectable env nHeight v (coinbase :: txs)) :
    ∃ v' undos, connectCoins env nHeight v (coinbase :: txs) = .ok (v', undos) ∧
      disconnectCoins env nHeight v' (coinbase :: txs) undos.tail = .ok (true, v) := by
  obtain ⟨v', undos, h⟩ := connectCoins_of_connectable hblock
  exact ⟨v', undos, h,
    disconnectCoins_of_connectCoins hpos hv hcb htxs hblock.2.1 h⟩

/-- A block whose second transaction spends the coinbase of the same block. -/
theorem disconnectCoins_restores_view_sample :
    let env := Sample.env fun _ _ _ => false
    let block := [Sample.coinbase 1,
      { Sample.coinbase 2 with vin := [⟨⟨Uint256.fill 1, 0⟩, [], 0, []⟩] }]
    ∃ v' undos,
      connectCoins env 1 (CoinsView.emptyView Uint256.null) block = .ok (v', undos) ∧
      disconnectCoins env 1 v' block undos.tail =
        .ok (true, CoinsView.emptyView Uint256.null) := by
  refine disconnectCoins_restores_view _ 1 (by decide) _ ?_ _ _ (by decide) (by decide) ?_
  · intro t h
    exact Bool.noConfusion (show true = false from h)
  · refine ⟨fun h => absurd h (by decide), by decide, fun _ => ⟨by decide, trivial⟩, ?_, trivial⟩
    decide

end Soqucoin
