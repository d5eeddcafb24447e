import Soqucoin.AssetPassProofs

/-! # Authority authentication

Script checks are skipped for whole authority transactions, so an asset is as safe as the
signatures its pass asks for.  The BTCSOQ pass authenticates every authority transaction
(`btcsoq_authenticated`), the USDSOQ pass exactly those with a witness on their authority input
(`usdsoq_authenticated_iff`). -/

namespace Soqucoin

open CheckedLoop

variable {nIn : Nat} {scriptCode : CScript} {s : AssetPass}

/-! ## USDSOQ -/

section USDSOQ

variable {env : Env} {c : AssetCtx}

/-- The input that carries the signatures of an authority transaction, with its
    script code: the authority input, or input 0 at bootstrap. -/
def usdsoqAuthorityInput (env : Env) (view : CoinsView) (authority : Authority)
    (tracked : COutPoint) (tx : CTransaction) : Nat × CScript :=
  (findUSDSOQAuthorityInput env view authority tracked tx).getD
    (0, (markerOutput isUSDSOQAuthorityMarker tx).scriptPubKey)

/-- The witness of that input. -/
def usdsoqAuthorityWitness (env : Env) (view : CoinsView) (authority : Authority)
    (tracked : COutPoint) (tx : CTransaction) : List Bytes :=
  (tx.vin.getD (usdsoqAuthorityInput env view authority tracked tx).1 default).scriptWitness

/-- The tracked outpoint after a transaction: it stays where no authority transaction moves it. -/
def usdsoqTracked (env : Env) (view : CoinsView) (authority : Authority) (tracked : COutPoint)
    (tx : CTransaction) : COutPoint :=
  if tx.isCoinBase || !hasMarker isUSDSOQAuthorityMarker tx ||
      (usdsoqAuthorityWitness env view authority tracked tx).isEmpty then tracked
  else markerOutpoint env isUSDSOQAuthorityMarker tx

/-- Signed by the authority, on the input that spends the tracked outpoint once there is one. -/
structure USDSOQAuthenticated (env : Env) (view : CoinsView) (authority : Authority)
    (tracked : COutPoint) (tx : CTransaction) : Prop where
  spends : tracked.isNull = false →
    (usdsoqAuthorityInput env view authority tracked tx).1 < tx.vin.length ∧
    (tx.vin.getD (usdsoqAuthorityInput env view authority tracked tx).1 default).prevout = tracked
  signed : AuthoritySigned env authority tx (usdsoqAuthorityInput env view authority tracked tx).1
    (usdsoqAuthorityInput env view authority tracked tx).2

/-- Where an outpoint is tracked, the input found spends it. -/
theorem findUSDSOQAuthorityInput_spends {view : CoinsView} {authority : Authority}
    {tracked : COutPoint} {tx : CTransaction} (hnull : tracked.isNull = false)
    (h : findUSDSOQAuthorityInput env view authority tracked tx = some (nIn, scriptCode)) :
    nIn < tx.vin.length ∧ (tx.vin.getD nIn default).prevout = tracked := by
  rw [findUSDSOQAuthorityInput, if_neg (Bool.eq_false_iff.mp hnull)] at h
  obtain ⟨k, hk, heq⟩ := Option.map_eq_some_iff.mp h
  obtain ⟨rfl, -⟩ := Prod.mk.inj heq
  obtain ⟨hlt, hp, -⟩ := List.findIdx?_eq_some_iff_getElem.mp hk
  refine ⟨hlt, ?_⟩
  rw [List.getD_eq_getElem?_getD, List.getElem?_eq_getElem hlt]
  exact of_decide_eq_true hp

section Input

variable {view : CoinsView} {authority : Authority} {tracked : COutPoint} {tx : CTransaction}

theorem usdsoqAuthorityInput_of_some {found : Nat × CScript}
    (h : findUSDSOQAuthorityInput env view authority tracked tx = some found) :
    usdsoqAuthorityInput env view authority tracked tx = found := by
  rw [usdsoqAuthorityInput, h]
  rfl

theorem usdsoqAuthorityInput_of_none
    (h : findUSDSOQAuthorityInput env view authority tracked tx = none) :
    usdsoqAuthorityInput env view authority tracked tx =
      (0, (markerOutput isUSDSOQAuthorityMarker tx).scriptPubKey) := by
  rw [usdsoqAuthorityInput, h]
  rfl

end Input

/-- What an authority transaction has passed from the two enforcement heights on. -/
theorem usdsoqAuthorityStep_enforced {t : AssetPass} {tx : CTransaction}
    (hmark : hasMarker isUSDSOQAuthorityMarker tx)
    (henf : c.consensus.nUSDSOQAuthorityEnforcementHeight ≤ c.nHeight)
    (hinput : c.consensus.nUSDSOQAuthorityInputEnforcementHeight ≤ c.nHeight)
    (h : usdsoqAuthorityStep env c s tx = .ok t) :
    (usdsoqAuthorityWitness env c.view c.asset.authority s.localAuthOutpoint tx = [] ∧ t = s) ∨
    (usdsoqAuthorityWitness env c.view c.asset.authority s.localAuthOutpoint tx ≠ [] ∧
      t.localAuthOutpoint = markerOutpoint env isUSDSOQAuthorityMarker tx ∧
      USDSOQAuthenticated env c.view c.asset.authority s.localAuthOutpoint tx) := by
  cases usdsoqAuthorityStep_turn h with
  | unmarked hnot => cases hmark.symm.trans hnot
  | unenforced _ _ hbelow => exact absurd hbelow (not_lt.mpr henf)
  | unwitnessed _ _ _ hfound hempty =>
    -- the branch the source has not written
    rw [usdsoqAuthorityWitness, usdsoqAuthorityInput_of_some hfound]
    exact Or.inl ⟨hempty, rfl⟩
  | signed _ _ _ hfound hwitness hsigs =>
    have hinput := usdsoqAuthorityInput_of_some hfound
    rw [usdsoqAuthorityWitness, hinput]
    refine Or.inr ⟨hwitness, rfl, ?_, ?_⟩
    · rw [hinput]
      exact fun hnull => findUSDSOQAuthorityInput_spends hnull hfound
    · rw [hinput]
      exact authoritySigned_of_checkAuthoritySigs hsigs
  | bootstrap _ _ _ hnone hnull _ hwitness hsigs =>
    have hinput := usdsoqAuthorityInput_of_none hnone
    rw [usdsoqAuthorityWitness, hinput]
    refine Or.inr ⟨hwitness, rfl, ?_, ?_⟩
    · intro htracked
      cases hnull.symm.trans htracked
    · rw [hinput]
      exact authoritySigned_of_checkAuthoritySigs hsigs
  | unlinked _ _ _ _ _ hbelow => exact absurd hbelow (not_lt.mpr hinput)

/-- The outpoint that the pass tracks moves as `usdsoqTracked` says. -/
theorem usdsoqTx_tracked {t : AssetPass} {p : CTransaction × CTxUndo}
    (henf : c.consensus.nUSDSOQAuthorityEnforcementHeight ≤ c.nHeight)
    (hinput : c.consensus.nUSDSOQAuthorityInputEnforcementHeight ≤ c.nHeight)
    (h : usdsoqTx env c s (undoPair p) = .ok t) :
    t.localAuthOutpoint = usdsoqTracked env c.view c.asset.authority s.localAuthOutpoint p.1 := by
  cases hcb : p.1.isCoinBase with
  | true =>
    obtain rfl := usdsoqTx_coinbase hcb h
    rw [usdsoqTracked, hcb]
    rfl
  | false =>
    obtain ⟨s₁, hstep, hlocal, -⟩ := (usdsoqTx_turn hcb h).authority
    rw [hlocal, usdsoqTracked, hcb]
    cases hmark : hasMarker isUSDSOQAuthorityMarker p.1 with
    | false =>
      obtain rfl := usdsoqAuthorityStep_unmarked hmark hstep
      rfl
    | true =>
      rcases usdsoqAuthorityStep_enforced hmark henf hinput hstep with
        ⟨hnil, rfl⟩ | ⟨hne, hmarker, -⟩
      · rw [hnil]
        rfl
      · rw [hmarker, List.isEmpty_eq_false_iff.mpr hne]
        rfl

variable {params : CChainParams} {idx : CBlockIndex} {io : NodeIO} {fJustCheck : Bool}
variable {a : Assets} {view : CoinsView} {block : CBlock} {fp : FirstPass} {p : Pending}

/-- The turn of any transaction of an accepted block, with the outpoint tracked up to it. -/
theorem usdsoq_turn_at (h : Accepted env params idx io fJustCheck a view block fp p)
    (hactive : (blockFlags params idx).usdsoq)
    (henf : (params.getConsensus idx.nHeight).nUSDSOQAuthorityEnforcementHeight ≤ idx.nHeight)
    (hinput : (params.getConsensus idx.nHeight).nUSDSOQAuthorityInputEnforcementHeight ≤
      idx.nHeight)
    {pre post : List CTransaction} {tx : CTransaction} (hvtx : block.vtx = pre ++ tx :: post) :
    ∃ undo s t,
      s.localAuthOutpoint = pre.foldl
        (usdsoqTracked env fp.view (initAuthorities params idx a).usdsoq.authority)
        a.usdsoq.authorityOutpoint ∧
      usdsoqTx env (usdsoqCtx params idx fJustCheck a fp.view) s (undoPair (tx, undo)) = .ok t := by
  obtain ⟨t, -, hrun, -, -⟩ := h.usdsoq_run hactive
  obtain ⟨pre', undo, post', -, -, hzip, hpre, -⟩ := h.at_tx hvtx
  rw [hzip] at hrun
  obtain ⟨m, n, hm, hn, -⟩ := foldlM_at hrun
  refine ⟨undo, m, n, ?_, hn⟩
  rw [foldlM_track AssetPass.localAuthOutpoint
    (fun o q => usdsoqTracked env fp.view (initAuthorities params idx a).usdsoq.authority o q.1)
    pre' (fun s q t _ hq => usdsoqTx_tracked henf hinput hq) hm, ← hpre, List.foldl_map]
  rfl

/-- **USDSOQ authentication.**  An accepted block authenticates every authority transaction
    exactly when each of them has a witness on its authority input. -/
theorem usdsoq_authenticated_iff (env : Env) (params : CChainParams) (idx : CBlockIndex)
    (io : NodeIO) (fJustCheck : Bool) (a : Assets) (view : CoinsView) (block : CBlock)
    (haccept : (connectBlock env params idx io fJustCheck a view block).verdict = .ok ())
    (hgenesis : isGenesis env params block → ∀ tx ∈ block.vtx, tx.isCoinBase = true)
    (hactive : (blockFlags params idx).usdsoq = true)
    (hinit : (initAuthorities params idx a).usdsoq.authority.isInitialized = true)
    (henf : (params.getConsensus idx.nHeight).nUSDSOQAuthorityEnforcementHeight ≤ idx.nHeight)
    (hinput : (params.getConsensus idx.nHeight).nUSDSOQAuthorityInputEnforcementHeight ≤
      idx.nHeight) :
    (∀ pre tx post, block.vtx = pre ++ tx :: post → tx.isCoinBase = false →
      hasMarker isUSDSOQAuthorityMarker tx = true →
      USDSOQAuthenticated env (blockView env idx.nHeight view block.vtx)
        (initAuthorities params idx a).usdsoq.authority
        (pre.foldl (usdsoqTracked env (blockView env idx.nHeight view block.vtx)
          (initAuthorities params idx a).usdsoq.authority) a.usdsoq.authorityOutpoint) tx) ↔
    (∀ pre tx post, block.vtx = pre ++ tx :: post → tx.isCoinBase = false →
      hasMarker isUSDSOQAuthorityMarker tx = true →
      usdsoqAuthorityWitness env (blockView env idx.nHeight view block.vtx)
        (initAuthorities params idx a).usdsoq.authority
        (pre.foldl (usdsoqTracked env (blockView env idx.nHeight view block.vtx)
          (initAuthorities params idx a).usdsoq.authority)
          a.usdsoq.authorityOutpoint) tx ≠ []) := by
  constructor
  · intro h pre tx post hvtx hcb hmark
    exact (h pre tx post hvtx hcb hmark).signed.witness_ne_nil hinit
  · intro h pre tx post hvtx hcb hmark
    have hwit := h pre tx post hvtx hcb hmark
    obtain ⟨fp, p, hacc⟩ :=
      connectBlock_accepted haccept (not_isGenesis_of_tx hgenesis hvtx hcb)
    obtain ⟨undo, s, t, hlocal, hturn⟩ := usdsoq_turn_at hacc hactive henf hinput hvtx
    obtain ⟨s₁, hstep, -, -⟩ := (usdsoqTx_turn hcb hturn).authority
    rw [hacc.blockView_eq] at hwit ⊢
    rw [← hlocal] at hwit ⊢
    rcases usdsoqAuthorityStep_enforced hmark henf hinput hstep with ⟨hnil, -⟩ | ⟨-, -, hauth⟩
    · exact absurd hnil hwit
    · exact hauth

/-- Where no signature verifies, nothing is signed by an authority. -/
theorem not_authoritySigned {authority : Authority} {tx : CTransaction}
    (hinit : authority.isInitialized) (hnever : ∀ key msg sig, env.verify key msg sig = false) :
    ¬ AuthoritySigned env authority tx nIn scriptCode := by
  rintro ⟨keys, -, -, hlen, hver⟩
  cases keys with
  | nil =>
    rw [Authority.isInitialized, Bool.and_eq_true, decide_eq_true_eq] at hinit
    exact absurd (lt_of_lt_of_le hinit.2 hlen) (Nat.lt_irrefl 0)
  | cons key keys =>
    obtain ⟨sig, -, hv⟩ := hver key (List.mem_cons_self ..)
    rw [hnever] at hv
    cases hv

end USDSOQ

namespace Sample

/-- A block with an authority transaction signed by both keys on the input that
    spends the tracked marker. -/
def signedUSDSOQ : CBlock :=
  block 1 [transaction 7 [spend 9 (authorityWitness 0x55 [1, 2]), spend 8 []]
    [pay OP_5 0, pay OP_7 100]]

/-- The same mint with no witness on the marker input; the other input has the
    witness layout of an authority transaction. -/
def unsignedUSDSOQ : CBlock :=
  block 1 [transaction 7 [spend 9 [], spend 8 (authorityWitness 0x55 [0])]
    [pay OP_5 0, pay OP_7 100]]

end Sample

open Sample in
/-- A block with a signed authority transaction. -/
theorem usdsoq_authenticated_iff_signed :
    (connectBlock (Sample.env sameByte) params (index 1) io false usdsoqAssets usdsoqCoins
      signedUSDSOQ).verdict = .ok () ∧
    ((∀ pre tx post, signedUSDSOQ.vtx = pre ++ tx :: post → tx.isCoinBase = false →
      hasMarker isUSDSOQAuthorityMarker tx = true →
      USDSOQAuthenticated (Sample.env sameByte)
        (blockView (Sample.env sameByte) 1 usdsoqCoins signedUSDSOQ.vtx)
        (initAuthorities params (index 1) usdsoqAssets).usdsoq.authority
        (pre.foldl (usdsoqTracked (Sample.env sameByte)
          (blockView (Sample.env sameByte) 1 usdsoqCoins signedUSDSOQ.vtx)
          (initAuthorities params (index 1) usdsoqAssets).usdsoq.authority)
          ⟨Uint256.fill 9, 0⟩) tx) ↔
    (∀ pre tx post, signedUSDSOQ.vtx = pre ++ tx :: post → tx.isCoinBase = false →
      hasMarker isUSDSOQAuthorityMarker tx = true →
      usdsoqAuthorityWitness (Sample.env sameByte)
        (blockView (Sample.env sameByte) 1 usdsoqCoins signedUSDSOQ.vtx)
        (initAuthorities params (index 1) usdsoqAssets).usdsoq.authority
        (pre.foldl (usdsoqTracked (Sample.env sameByte)
          (blockView (Sample.env sameByte) 1 usdsoqCoins signedUSDSOQ.vtx)
          (initAuthorities params (index 1) usdsoqAssets).usdsoq.authority)
          ⟨Uint256.fill 9, 0⟩) tx ≠ [])) :=
  ⟨by decide +kernel,
    usdsoq_authenticated_iff (Sample.env sameByte) params (index 1) io false usdsoqAssets
      usdsoqCoins signedUSDSOQ (by decide +kernel) (fun h => absurd h (by decide +kernel))
      (by decide +kernel) (by decide +kernel) (by decide) (by decide)⟩

open Sample in
/-- A block that mints USDSOQ without any signature is accepted, though no
    signature verifies at all. -/
theorem usdsoq_unsigned_mint_accepted :
    let env := Sample.env fun _ _ _ => false
    let authority := (initAuthorities params (index 1) usdsoqAssets).usdsoq.authority
    let after := blockView env 1 usdsoqCoins unsignedUSDSOQ.vtx
    let r := connectBlock env params (index 1) io false usdsoqAssets usdsoqCoins unsignedUSDSOQ
    r.verdict = .ok () ∧ r.assets.usdsoq.supply.totalMinted = 100 ∧
    (blockFlags params (index 1)).usdsoq = true ∧ authority.isInitialized = true ∧
    consensus.nUSDSOQAuthorityEnforcementHeight ≤ 1 ∧
    consensus.nUSDSOQAuthorityInputEnforcementHeight ≤ 1 ∧
    ¬ ∀ pre tx post, unsignedUSDSOQ.vtx = pre ++ tx :: post → tx.isCoinBase = false →
      hasMarker isUSDSOQAuthorityMarker tx = true →
      USDSOQAuthenticated env after authority
        (pre.foldl (usdsoqTracked env after authority) usdsoqAssets.usdsoq.authorityOutpoint)
        tx := by
  refine ⟨by decide +kernel, by decide +kernel, by decide +kernel, by decide +kernel,
    by decide, by decide, fun h => ?_⟩
  have hauth := h [coinbase 1] _ [] rfl (by decide) (by decide)
  exact not_authoritySigned (by decide +kernel) (fun _ _ _ => rfl) hauth.signed

/-! ## BTCSOQ -/

section BTCSOQ

variable {env : Env} {c : AssetCtx} {dbMinted : Finset COutPoint}

/-- The tracked outpoint after a transaction: every authority transaction moves
    it to its own marker. -/
def btcsoqTracked (env : Env) (tracked : COutPoint) (tx : CTransaction) : COutPoint :=
  if tx.isCoinBase || !hasMarker isBTCSOQAuthorityMarker tx then tracked
  else markerOutpoint env isBTCSOQAuthorityMarker tx

/-- The script code signatures are made over: the script of the tracked marker,
    or of the new one at bootstrap.  The view after the block is asked first, the
    view the transaction met otherwise. -/
def btcsoqScriptCode (after before : CoinsView) (tracked : COutPoint) (tx : CTransaction) :
    CScript :=
  if tracked.isNull then (markerOutput isBTCSOQAuthorityMarker tx).scriptPubKey
  else ((after.output tracked).getD ((before.output tracked).getD default)).scriptPubKey

/-- Signed by the authority on the input that spends the tracked outpoint, or on
    input 0 at bootstrap, with the operation the witness is tagged with. -/
def BTCSOQAuthenticated (env : Env) (after before : CoinsView) (authority : Authority)
    (tracked : COutPoint) (tx : CTransaction) : Prop :=
  ∃ nIn op, (if tracked.isNull then nIn = 0
      else nIn < tx.vin.length ∧ (tx.vin.getD nIn default).prevout = tracked) ∧
    AuthoritySigned env authority tx nIn (btcsoqScriptCode after before tracked tx) ∧
    parseBTCSOQAuthorityOp tx = some op ∧
    getBTCSOQWitnessTag (tx.vin.getD nIn default).scriptWitness = op.1

/-- The authority input spends the tracked outpoint, and its script is the one that is signed. -/
theorem btcsoqAuthorityInput_spends {tx : CTransaction} {v v' : CoinsView} {undo : CTxUndo}
    {nHeight : Int} (hcb : tx.isCoinBase = false)
    (hup : updateCoins env v tx nHeight = .ok (v', undo))
    (h : btcsoqAuthorityInput c s tx (some undo)
      ((authorityOutputIndex isBTCSOQAuthorityMarker tx).getD 0) = .ok (nIn, scriptCode)) :
    (if s.localAuthOutpoint.isNull then nIn = 0
      else nIn < tx.vin.length ∧ (tx.vin.getD nIn default).prevout = s.localAuthOutpoint) ∧
    scriptCode = btcsoqScriptCode c.view v s.localAuthOutpoint tx := by
  rw [btcsoqAuthorityInput] at h
  rw [btcsoqScriptCode]
  by_cases hnull : s.localAuthOutpoint.isNull = true
  · rw [if_pos hnull] at h ⊢
    replace h := after_require h
    obtain ⟨rfl, rfl⟩ := Prod.mk.inj (Except.ok.inj h)
    rw [if_pos hnull]
    exact ⟨rfl, rfl⟩
  · rw [if_neg hnull] at h ⊢
    rw [if_neg hnull]
    split at h
    · exact nomatch h
    rename_i k hk
    obtain ⟨hlt, hp, -⟩ := List.findIdx?_eq_some_iff_getElem.mp hk
    have hprev : (tx.vin.getD k default).prevout = s.localAuthOutpoint := by
      rw [List.getD_eq_getElem?_getD, List.getElem?_eq_getElem hlt]
      exact of_decide_eq_true hp
    split at h
    · rename_i o hout
      obtain ⟨rfl, rfl⟩ := Prod.mk.inj (Except.ok.inj h)
      rw [hout]
      exact ⟨⟨hlt, hprev⟩, rfl⟩
    · rename_i u hout hu
      obtain ⟨rfl, rfl⟩ := Prod.mk.inj (Except.ok.inj h)
      refine ⟨⟨hlt, hprev⟩, ?_⟩
      -- the undo entry at the index of the input holds the coin it spent
      obtain ⟨v₁, hspend, -, -⟩ := updateCoins_of_not_coinbase hcb hup
      have hmap := congrArg (fun l : List (Option CTxOut) => l[k]?) (spendInputs_txouts hspend)
      simp only [List.getElem?_map] at hmap
      rw [Option.getD_some] at hu
      rw [hu, List.getElem?_eq_getElem hlt] at hmap
      have hcoin : v.output s.localAuthOutpoint = some u.txout := by
        rw [← of_decide_eq_true hp]
        exact (Option.some.inj hmap).symm
      rw [hout, hcoin]
      rfl
    · exact nomatch h

/-- The outpoint that the pass tracks moves as `btcsoqTracked` says. -/
theorem btcsoqTx_tracked {s t : BTCSOQPass} {p : CTransaction × CTxUndo}
    (henf : c.consensus.nBTCSOQAuthorityEnforcementHeight ≤ c.nHeight)
    (h : btcsoqTx env c dbMinted s (undoPair p) = .ok t) :
    t.localAuthOutpoint = btcsoqTracked env s.localAuthOutpoint p.1 := by
  cases hcb : p.1.isCoinBase with
  | true =>
    obtain rfl := btcsoqTx_coinbase hcb h
    rw [btcsoqTracked, hcb]
    rfl
  | false =>
    obtain ⟨htally, hturn, -⟩ := btcsoqTx_turn hcb h
    rw [btcsoqTracked, hcb]
    cases hmark : hasMarker isBTCSOQAuthorityMarker p.1 with
    | false =>
      have htotals := htally.totals
      rw [hmark, if_neg Bool.false_ne_true] at htotals
      rw [htotals]
      rfl
    | true =>
      obtain ⟨op, hop⟩ := hturn hmark henf
      exact hop.outpoint

variable {params : CChainParams} {idx : CBlockIndex} {io : NodeIO} {fJustCheck : Bool}
variable {a : Assets} {view : CoinsView} {block : CBlock} {fp : FirstPass} {p : Pending}

/-- The turn of any transaction of an accepted block, with the outpoint tracked up to it. -/
theorem btcsoq_turn_at (h : Accepted env params idx io fJustCheck a view block fp p)
    (hactive : (blockFlags params idx).btcsoq)
    (henf : (params.getConsensus idx.nHeight).nBTCSOQAuthorityEnforcementHeight ≤ idx.nHeight)
    {pre post : List CTransaction} {tx : CTransaction} (hvtx : block.vtx = pre ++ tx :: post) :
    ∃ undo s t v,
      s.localAuthOutpoint = pre.foldl (btcsoqTracked env) a.btcsoq.authorityOutpoint ∧
      btcsoqTx env (btcsoqCtx params idx fJustCheck a fp.view) a.dbMinted s
        (undoPair (tx, undo)) = .ok t ∧
      updateCoins env (blockView env idx.nHeight view pre) tx idx.nHeight = .ok (v, undo) := by
  obtain ⟨t, -, hrun, -, -⟩ := h.btcsoq_run hactive
  obtain ⟨pre', undo, post', v, -, hzip, hpre, -, -, -, hup⟩ := h.at_tx hvtx
  rw [hzip] at hrun
  obtain ⟨m, n, hm, hn, -⟩ := foldlM_at hrun
  refine ⟨undo, m, n, v, ?_, hn, hup⟩
  rw [foldlM_track (fun s : BTCSOQPass => s.localAuthOutpoint)
    (fun o q => btcsoqTracked env o q.1) pre'
    (fun s q t _ hq => btcsoqTx_tracked henf hq) hm, ← hpre, List.foldl_map]
  rfl

/-- **BTCSOQ authentication.**  In an accepted block every authority transaction spends the
    outpoint tracked so far, or bootstraps it, is signed over its digest, and carries the
    operation its witness is tagged with; and nothing else spends a marker. -/
theorem btcsoq_authenticated (env : Env) (params : CChainParams) (idx : CBlockIndex)
    (io : NodeIO) (fJustCheck : Bool) (a : Assets) (view : CoinsView) (block : CBlock)
    (haccept : (connectBlock env params idx io fJustCheck a view block).verdict = .ok ())
    (hgenesis : isGenesis env params block → ∀ tx ∈ block.vtx, tx.isCoinBase = true)
    (hactive : (blockFlags params idx).btcsoq = true)
    (henf : (params.getConsensus idx.nHeight).nBTCSOQAuthorityEnforcementHeight ≤ idx.nHeight) :
    ∀ pre tx post, block.vtx = pre ++ tx :: post → tx.isCoinBase = false →
      (hasMarker isBTCSOQAuthorityMarker tx = true →
        BTCSOQAuthenticated env (blockView env idx.nHeight view block.vtx)
          (blockView env idx.nHeight view pre) (initAuthorities params idx a).btcsoq.authority
          (pre.foldl (btcsoqTracked env) a.btcsoq.authorityOutpoint) tx) ∧
      (hasMarker isBTCSOQAuthorityMarker tx = false →
        ∀ o ∈ spentOutputs (blockView env idx.nHeight view pre) tx,
          isBTCSOQAuthorityMarker o.scriptPubKey = false) := by
  intro pre tx post hvtx hcb
  obtain ⟨fp, p, hacc⟩ :=
    connectBlock_accepted haccept (not_isGenesis_of_tx hgenesis hvtx hcb)
  obtain ⟨undo, s, t, v, hlocal, hturn, hup⟩ := btcsoq_turn_at hacc hactive henf hvtx
  rw [undoPair_of_not_coinbase undo hcb] at hturn
  obtain ⟨htally, hauth, -⟩ := btcsoqTx_turn hcb hturn
  refine ⟨fun hmark => ?_, fun hmark o ho => ?_⟩
  · obtain ⟨op, hop⟩ := hauth hmark henf
    obtain ⟨nIn, scriptCode, hsigned⟩ := hop.signed
    obtain ⟨hspends, rfl⟩ := btcsoqAuthorityInput_spends hcb hup hsigned.input
    rw [hlocal] at hspends
    have hs := hsigned.signed
    rw [hlocal] at hs
    rw [hacc.blockView_eq]
    exact ⟨nIn, op, hspends, hs, hsigned.parsed, hsigned.tag⟩
  · obtain ⟨txin, htxin, rfl⟩ := List.mem_map.mp ho
    have hguard := htally.spends
      (txin.prevout, ((blockView env idx.nHeight view pre).output txin.prevout).getD default) (by
        rw [undoPrevouts_of_updateCoins hcb hup]
        exact List.mem_map_of_mem htxin)
    obtain ⟨hnot, -⟩ := require_bind_eq_ok.mp hguard
    rw [hmark, Bool.not_false, Bool.and_true, Bool.not_eq_true'] at hnot
    exact hnot

end BTCSOQ

namespace Sample

/-- A BURN of 100 signed by both keys, that spends the marker and one holding. -/
def signedBTCSOQ : CBlock :=
  block 1 [transaction 7 [spend 9 (authorityWitness BTCSOQ_OP_BURN [1, 2]), spend 8 [[0]]]
    [pay OP_9 0, ⟨0, [OP_RETURN, 41, BTCSOQ_OP_BURN] ++ List.replicate 32 0 ++
      [100, 0, 0, 0, 0, 0, 0, 0]⟩]]

/-- The BTCSOQ marker and a holding of 100. -/
def btcsoqCoins : CoinsView := coins [(9, pay OP_9 0), (8, pay OP_8 100)]

/-- BTCSOQ tracks that marker, with 100 minted. -/
def btcsoqAssets : Assets :=
  { assets COutPoint.null ⟨Uint256.fill 9, 0⟩ with
    btcsoq := { asset ⟨Uint256.fill 9, 0⟩ with
      supply := ⟨100, 0, Supply.zero.burned_nonneg, by decide, by decide⟩ } }

end Sample

open Sample in
/-- A block with a signed burn. -/
theorem btcsoq_authenticated_burn :
    (connectBlock (Sample.env sameByte) params (index 1) io false btcsoqAssets btcsoqCoins
      signedBTCSOQ).verdict = .ok () ∧
    ∀ pre tx post, signedBTCSOQ.vtx = pre ++ tx :: post → tx.isCoinBase = false →
      (hasMarker isBTCSOQAuthorityMarker tx = true →
        BTCSOQAuthenticated (Sample.env sameByte)
          (blockView (Sample.env sameByte) 1 btcsoqCoins signedBTCSOQ.vtx)
          (blockView (Sample.env sameByte) 1 btcsoqCoins pre)
          (initAuthorities params (index 1) btcsoqAssets).btcsoq.authority
          (pre.foldl (btcsoqTracked (Sample.env sameByte)) ⟨Uint256.fill 9, 0⟩) tx) ∧
      (hasMarker isBTCSOQAuthorityMarker tx = false →
        ∀ o ∈ spentOutputs (blockView (Sample.env sameByte) 1 btcsoqCoins pre) tx,
          isBTCSOQAuthorityMarker o.scriptPubKey = false) :=
  have haccept : (connectBlock (Sample.env sameByte) params (index 1) io false btcsoqAssets
      btcsoqCoins signedBTCSOQ).verdict = .ok () := by decide +kernel
  ⟨haccept, btcsoq_authenticated (Sample.env sameByte) params (index 1) io false btcsoqAssets
    btcsoqCoins signedBTCSOQ haccept (fun h => absurd h (by decide +kernel)) (by decide +kernel)
    (by decide)⟩

end Soqucoin
