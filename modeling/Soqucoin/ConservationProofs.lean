import Soqucoin.FlowProofs

/-! # Values in range and values conserved

The amounts of a transaction are added in 64-bit words, with a range test after every addition;
behind these tests the words are exact (`sumOf_exact`).  So the conservation rule of
`CheckTxInputs`, which compares words, is one about values (`checkTxInputs_conserved`). -/

namespace Soqucoin

open CheckedLoop SignedWord

variable {env : Env} {params : CChainParams} {a : Assets} {v : CoinsView} {tx : CTransaction}
variable {nSpendHeight : Int} {kind : CTxOut → Bool}

/-! ## Range tests make words exact -/

/-- One turn of a loop that adds an amount and tests the range. -/
def AddsInRange {α : Type} (value : α → Int) (f : Int → α → Check Int) : Prop :=
  ∀ acc x t, f acc x = .ok t →
    moneyRange (value x) = true ∧ moneyRange t = true ∧ t = wrap64 (acc + value x)

theorem fits_of_le {x : Int} (h₀ : 0 ≤ x) (h : x ≤ 2 * MAX_MONEY) : Fits 64 x := by
  rw [MAX_MONEY, COIN] at h
  constructor
  · omega
  · omega

/-- A checked sum is the sum, and all its terms are in range. -/
theorem foldlM_inRange {α : Type} {value : α → Int} {f : Int → α → Check Int}
    (hf : AddsInRange value f) :
    ∀ {l : List α} {acc t : Int}, moneyRange acc → l.foldlM f acc = .ok t →
      (∀ x ∈ l, 0 ≤ value x) ∧ t = acc + (l.map value).sum ∧ moneyRange t := by
  intro l
  induction l with
  | nil =>
    intro acc t hacc h
    rw [foldlM_nil_eq_ok.mp h]
    exact ⟨fun _ hx => (nomatch hx), (Int.add_zero acc).symm, hacc⟩
  | cons x l ih =>
    intro acc t hacc h
    obtain ⟨m, hm, h⟩ := foldlM_cons_eq_ok.mp h
    obtain ⟨hvalue, hrange, hm'⟩ := hf acc x m hm
    obtain ⟨hnonneg, hsum, ht⟩ := ih hrange h
    rw [Supply.moneyRange_iff] at hacc hvalue
    -- one addition of two amounts in range cannot overflow
    have hexact : m = acc + value x :=
      hm'.trans (wrap_of_fits (fits_of_le (by omega) (by omega)))
    refine ⟨?_, ?_, ht⟩
    · intro y hy
      rcases List.mem_cons.mp hy with rfl | hy
      · exact hvalue.1
      · exact hnonneg y hy
    · rw [hsum, hexact, List.map_cons, List.sum_cons]
      omega

/-- Outputs whose values are in range, one by one and together. -/
structure InRange (outs : List CTxOut) : Prop where
  nonneg : ∀ o ∈ outs, 0 ≤ o.nValue
  total : (outs.map CTxOut.nValue).sum ≤ MAX_MONEY

theorem valueOf_cons (kind : CTxOut → Bool) (o : CTxOut) (outs : List CTxOut) :
    valueOf kind (o :: outs) = (if kind o then o.nValue else 0) + valueOf kind outs := by
  rw [valueOf, valueOf, List.filter_cons]
  cases kind o with
  | true => rfl
  | false => exact (Int.zero_add _).symm

variable {outs : List CTxOut}

/-- The value of a kind is between zero and the value of all. -/
theorem valueOf_bounds (kind : CTxOut → Bool) (h : ∀ o ∈ outs, 0 ≤ o.nValue) :
    0 ≤ valueOf kind outs ∧ valueOf kind outs ≤ (outs.map CTxOut.nValue).sum := by
  induction outs with
  | nil => exact ⟨le_refl _, le_refl _⟩
  | cons o outs ih =>
    have ho := h o (List.mem_cons_self ..)
    have hrest := ih fun x hx => h x (List.mem_cons_of_mem _ hx)
    rw [valueOf_cons, List.map_cons, List.sum_cons]
    cases kind o with
    | true =>
      rw [if_pos rfl]
      omega
    | false =>
      rw [if_neg Bool.false_ne_true]
      omega

theorem InRange.valueOf_nonneg (h : InRange outs) : 0 ≤ valueOf kind outs :=
  (valueOf_bounds kind h.nonneg).1

theorem InRange.valueOf_le (h : InRange outs) : valueOf kind outs ≤ MAX_MONEY :=
  (valueOf_bounds kind h.nonneg).2.trans h.total

/-- **The words are the values** for outputs in range. -/
theorem InRange.sumOf_exact (h : InRange outs) : sumOf kind outs = valueOf kind outs := by
  rw [sumOf_eq]
  refine wrap_of_fits (fits_of_le h.valueOf_nonneg ?_)
  have hle : valueOf kind outs ≤ MAX_MONEY := h.valueOf_le
  have hnonneg : 0 ≤ valueOf kind outs := h.valueOf_nonneg
  omega

/-! ## The outputs of a checked transaction -/

/-- The loop over the outputs adds their values within the range. -/
theorem checkOutputValue_adds : AddsInRange CTxOut.nValue checkOutputValue := by
  intro acc o t h
  obtain ⟨hlo, h⟩ := require_bind_eq_ok.mp h
  obtain ⟨hhi, h⟩ := require_bind_eq_ok.mp h
  obtain ⟨hrange, h⟩ := require_bind_eq_ok.mp h
  obtain rfl := Except.ok.inj h
  refine ⟨?_, hrange, rfl⟩
  rw [moneyRange, hlo, hhi]
  rfl

/-- What a transaction has passed by itself. -/
structure CheckedTransaction (tx : CTransaction) : Prop where
  vin : tx.vin ≠ []
  size : baseSize tx ≤ MAX_BLOCK_BASE_SIZE
  outputs : InRange tx.vout
  distinct : (tx.vin.map CTxIn.prevout).Nodup
  prevouts : tx.isCoinBase = false → ∀ txin ∈ tx.vin, txin.prevout.isNull = false
  coinbase : tx.isCoinBase = true →
    (∀ o ∈ tx.vout, o.isAnyUSDSOQ = false) ∧ ∀ o ∈ tx.vout, o.isBTCSOQ = false
  oneMarker : hasMarker isUSDSOQAuthorityMarker tx = true →
    hasMarker isBTCSOQAuthorityMarker tx = false

/-- What `CheckTransaction` has tested. -/
theorem checkTransaction_checked (h : checkTransaction tx = .ok ()) : CheckedTransaction tx := by
  obtain ⟨hvin, h⟩ := require_bind_eq_ok.mp h
  replace h := after_require h
  obtain ⟨hsize, h⟩ := require_bind_eq_ok.mp h
  obtain ⟨total, hloop, h⟩ := bind_eq_ok.mp h
  obtain ⟨hdistinct, h⟩ := require_bind_eq_ok.mp h
  replace h := after_require h
  obtain ⟨hprev, h⟩ := require_bind_eq_ok.mp h
  replace h := after_require h
  obtain ⟨husd, h⟩ := require_bind_eq_ok.mp h
  obtain ⟨hbtc, h⟩ := require_bind_eq_ok.mp h
  have hdual := require_eq_ok.mp h
  obtain ⟨hnonneg, hsum, hrange⟩ := foldlM_inRange checkOutputValue_adds rfl hloop
  rw [Supply.moneyRange_iff] at hrange
  refine ⟨?_, of_decide_eq_true hsize, ⟨hnonneg, by omega⟩, of_decide_eq_true hdistinct,
    fun hcb => ?_, fun hcb => ?_, fun hmark => ?_⟩
  · intro hnil
    rw [hnil] at hvin
    cases hvin
  · rw [hcb, Bool.false_or, List.all_eq_true] at hprev
    intro txin htxin
    simpa using hprev txin htxin
  · rw [hcb, Bool.true_and, Bool.not_eq_true', Bool.or_eq_false_iff, List.any_eq_false]
      at husd hbtc
    exact ⟨fun o ho => Bool.eq_false_iff.mpr (husd.1 o ho),
      fun o ho => Bool.eq_false_iff.mpr (hbtc.1 o ho)⟩
  · rwa [hmark, Bool.true_and, Bool.not_eq_true'] at hdual

theorem checkTransaction_outputs (h : checkTransaction tx = .ok ()) : InRange tx.vout :=
  (checkTransaction_checked h).outputs

theorem checkTransaction_coinbase (hcb : tx.isCoinBase) (h : checkTransaction tx = .ok ()) :
    (∀ o ∈ tx.vout, o.isAnyUSDSOQ = false) ∧ ∀ o ∈ tx.vout, o.isBTCSOQ = false :=
  (checkTransaction_checked h).coinbase hcb

/-- Every transaction of an accepted block has passed by itself. -/
theorem Accepted.checkedTransaction {idx : CBlockIndex} {io : NodeIO} {fJustCheck : Bool}
    {view : CoinsView} {block : CBlock} {fp : FirstPass} {p : Pending}
    (h : Accepted env params idx io fJustCheck a view block fp p)
    {pre post : List CTransaction} (hvtx : block.vtx = pre ++ tx :: post) :
    CheckedTransaction tx := by
  refine checkTransaction_checked (checkBlock_checkTransaction h.checked tx ?_)
  rw [hvtx]
  exact List.mem_append_right _ List.mem_cons_self

theorem valueOf_eq_zero (h : ∀ o ∈ outs, kind o = false) : valueOf kind outs = 0 := by
  have hnil : outs.filter kind = [] :=
    List.filter_eq_nil_iff.mpr fun o ho => Bool.eq_false_iff.mp (h o ho)
  rw [valueOf, hnil]
  rfl

/-! ## The inputs of a checked transaction -/

/-- The loop over the inputs adds their values within the range. -/
theorem checkInputValue_adds :
    AddsInRange (fun txin : CTxIn => ((v.output txin.prevout).getD default).nValue)
      (checkInputValue params v nSpendHeight) := by
  intro acc txin t h
  replace h := after_require h
  obtain ⟨hrange, h⟩ := require_bind_eq_ok.mp h
  obtain rfl := Except.ok.inj h
  rw [Bool.and_eq_true] at hrange
  exact ⟨hrange.1, hrange.2, rfl⟩

theorem checkInputs_checkTxInputs {fScriptChecks fQueue : Bool} {flags : ScriptFlags}
    {chk : List CScriptCheck} (hcb : tx.isCoinBase = false)
    (h : checkInputs env params a v tx nSpendHeight fScriptChecks flags fQueue = .ok chk) :
    checkTxInputs params a v tx nSpendHeight = .ok () := by
  rw [checkInputs, hcb, if_neg Bool.false_ne_true] at h
  obtain ⟨_, hinputs, -⟩ := bind_eq_ok.mp h
  exact hinputs

/-! ## Conservation -/

theorem checkConservation_conserved {notConserved mismatch : String} {prevs : List CTxOut}
    (hin : InRange prevs) (hout : InRange tx.vout)
    (h : checkConservation kind notConserved mismatch prevs tx = .ok ()) :
    valueOf kind prevs = valueOf kind tx.vout := by
  obtain ⟨heq, -⟩ := require_bind_eq_ok.mp h
  rw [← hin.sumOf_exact, ← hout.sumOf_exact]
  exact of_decide_eq_true heq

/-- An authority transaction of the active asset, which may mint and burn. -/
def usdsoqExempt (params : CChainParams) (a : Assets) (nHeight : Int) (tx : CTransaction) : Bool :=
  usdsoqActiveHere params a nHeight && hasMarker isUSDSOQAuthorityMarker tx

/-- The same for BTCSOQ. -/
def btcsoqExempt (params : CChainParams) (a : Assets) (nHeight : Int) (tx : CTransaction) : Bool :=
  btcsoqActiveHere params a nHeight && hasMarker isBTCSOQAuthorityMarker tx

/-- What the inputs of a transaction have passed, in exact values: its native
    coins alone are balanced when it is exempt in one asset, all of its coins
    otherwise; and it conserves each asset it is not exempt in. -/
structure CheckedInputs (params : CChainParams) (a : Assets) (v : CoinsView) (nSpendHeight : Int)
    (tx : CTransaction) : Prop where
  inputs : InRange (spentOutputs v tx)
  balance : if usdsoqExempt params a nSpendHeight tx || btcsoqExempt params a nSpendHeight tx then
      valueOf CTxOut.isNativeSOQ tx.vout ≤ valueOf CTxOut.isNativeSOQ (spentOutputs v tx)
    else (tx.vout.map CTxOut.nValue).sum ≤ ((spentOutputs v tx).map CTxOut.nValue).sum
  usdsoq : usdsoqExempt params a nSpendHeight tx = false →
    valueOf CTxOut.isAnyUSDSOQ (spentOutputs v tx) = valueOf CTxOut.isAnyUSDSOQ tx.vout
  btcsoq : btcsoqExempt params a nSpendHeight tx = false →
    valueOf CTxOut.isBTCSOQ (spentOutputs v tx) = valueOf CTxOut.isBTCSOQ tx.vout

/-- The loop over the inputs gives their sum. -/
theorem inputLoop_total {allIn : Int}
    (h : tx.vin.foldlM (checkInputValue params v nSpendHeight) 0 = .ok allIn) :
    InRange (spentOutputs v tx) ∧ allIn = ((spentOutputs v tx).map CTxOut.nValue).sum := by
  obtain ⟨hnonneg, hsum, hrange⟩ := foldlM_inRange checkInputValue_adds rfl h
  rw [Supply.moneyRange_iff] at hrange
  have htotal : allIn = ((spentOutputs v tx).map CTxOut.nValue).sum := by
    rw [spentOutputs, List.map_map, hsum, Int.zero_add]
    rfl
  refine ⟨⟨?_, by omega⟩, htotal⟩
  intro o ho
  obtain ⟨txin, htxin, rfl⟩ := List.mem_map.mp ho
  exact hnonneg txin htxin

/-- `GetValueOut` is the sum of the outputs. -/
theorem getValueOut_total {allOut : Int} (h : getValueOut tx = .ok allOut) :
    allOut = (tx.vout.map CTxOut.nValue).sum := by
  refine (@foldlM_inRange CTxOut CTxOut.nValue _ ?_ tx.vout 0 allOut rfl h).2.1.trans
    (Int.zero_add _)
  intro acc o t ht
  obtain ⟨hrange, ht⟩ := require_bind_eq_ok.mp ht
  obtain rfl := Except.ok.inj ht
  rw [Bool.and_eq_true] at hrange
  exact ⟨hrange.1, hrange.2, rfl⟩

theorem checkTxInputs_inputs (h : checkTxInputs params a v tx nSpendHeight = .ok ()) :
    InRange (spentOutputs v tx) := by
  replace h := after_require h
  obtain ⟨allIn, hloop, -⟩ := bind_eq_ok.mp h
  exact (inputLoop_total hloop).1

/-- What `CheckTxInputs` has tested. -/
theorem checkTxInputs_checked (hout : InRange tx.vout)
    (h : checkTxInputs params a v tx nSpendHeight = .ok ()) :
    CheckedInputs params a v nSpendHeight tx := by
  replace h := after_require h
  obtain ⟨allIn, hloop, h⟩ := bind_eq_ok.mp h
  obtain ⟨allOut, hallOut, h⟩ := bind_eq_ok.mp h
  obtain ⟨hbelow, h⟩ := require_bind_eq_ok.mp h
  replace h := after_require h
  replace h := after_require h
  obtain ⟨_, husd, hbtc⟩ := bind_eq_ok.mp h
  obtain ⟨hin, rfl⟩ := inputLoop_total hloop
  obtain rfl := getValueOut_total hallOut
  rw [skipIf_eq_ok] at husd hbtc
  refine ⟨hin, ?_, fun hex => checkConservation_conserved hin hout (husd hex),
    fun hex => checkConservation_conserved hin hout (hbtc hex)⟩
  have hle :
      (if (usdsoqExempt params a nSpendHeight tx || btcsoqExempt params a nSpendHeight tx) = true
        then sumOf CTxOut.isNativeSOQ tx.vout else (tx.vout.map CTxOut.nValue).sum) ≤
      (if (usdsoqExempt params a nSpendHeight tx || btcsoqExempt params a nSpendHeight tx) = true
        then sumOf CTxOut.isNativeSOQ (spentOutputs v tx)
        else ((spentOutputs v tx).map CTxOut.nValue).sum) := of_decide_eq_true hbelow
  rw [hin.sumOf_exact, hout.sumOf_exact] at hle
  split
  · rwa [if_pos ‹_›, if_pos ‹_›] at hle
  · rwa [if_neg ‹_›, if_neg ‹_›] at hle

/-- The inputs of every other transaction of an accepted block have passed. -/
theorem Accepted.checkedInputs {idx : CBlockIndex} {io : NodeIO} {fJustCheck : Bool}
    {view : CoinsView} {block : CBlock} {fp : FirstPass} {p : Pending}
    (h : Accepted env params idx io fJustCheck a view block fp p)
    {pre post : List CTransaction} (hvtx : block.vtx = pre ++ tx :: post)
    (hcb : tx.isCoinBase = false) :
    CheckedInputs params (initAuthorities params idx a) (blockView env idx.nHeight view pre)
      idx.nHeight tx := by
  obtain ⟨_, _, _, _, chk, -, -, -, hcheck, -, -⟩ := h.at_tx hvtx
  exact checkTxInputs_checked (h.checkedTransaction hvtx).outputs
    (checkInputs_checkTxInputs hcb hcheck)

/-- **Conservation.**  A transaction without a marker of an asset spends as much
    of it as it creates, in each asset. -/
theorem checkTxInputs_conserved (hout : InRange tx.vout)
    (h : checkTxInputs params a v tx nSpendHeight = .ok ()) :
    (hasMarker isUSDSOQAuthorityMarker tx = false →
      valueOf CTxOut.isAnyUSDSOQ (spentOutputs v tx) = valueOf CTxOut.isAnyUSDSOQ tx.vout) ∧
    (hasMarker isBTCSOQAuthorityMarker tx = false →
      valueOf CTxOut.isBTCSOQ (spentOutputs v tx) = valueOf CTxOut.isBTCSOQ tx.vout) := by
  have hchecked := checkTxInputs_checked hout h
  constructor
  · intro hmark
    exact hchecked.usdsoq (by rw [usdsoqExempt, hmark, Bool.and_false])
  · intro hmark
    exact hchecked.btcsoq (by rw [btcsoqExempt, hmark, Bool.and_false])

end Soqucoin
