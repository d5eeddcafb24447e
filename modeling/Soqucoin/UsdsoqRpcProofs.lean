import Soqucoin.MempoolProofs
import Soqucoin.OperationProofs
import Soqucoin.UsdsoqRpc

/-! # UsdsoqRpcProofs — what becomes of a signed authority transaction

`usdsoqsigntx` writes the witness as `[tag][payload][sigs…][authority_set]`, `ConnectBlock` reads
it as `[sig][key][tag][payload][sigs…][authority_set]`. The two first signatures are therefore
never found, and threshold many signatures are too few: `usdsoqsigntx_rejected`. -/

namespace Soqucoin

open CheckedLoop

/-! ## The signatures that are found -/

/-- No more keys count than there are signatures. -/
theorem foldl_matchSig_le (env : Env) (msg : Bytes) (keys : List Bytes) :
    ∀ (sigs : List Bytes) (s : List Bool × Nat),
      (sigs.foldl (Authority.matchSig env msg keys) s).2 ≤ s.2 + sigs.length := by
  intro sigs
  induction sigs with
  | nil =>
    intro s
    exact le_refl _
  | cons sig sigs ih =>
    intro s
    have hstep : (Authority.matchSig env msg keys s sig).2 ≤ s.2 + 1 := by
      rw [Authority.matchSig]
      split
      · exact le_refl _
      · exact Nat.le_succ _
    rw [List.foldl_cons, List.length_cons]
    exact (ih _).trans (by omega)

theorem threshold_le_of_verify {env : Env} {a : Authority} {msg : Bytes} {sigs : List Bytes}
    (h : a.verifyAuthoritySignatures env msg sigs) : a.threshold ≤ sigs.length := by
  rw [Authority.verifyAuthoritySignatures, Bool.and_eq_true, decide_eq_true_eq] at h
  have hcount := foldl_matchSig_le env msg a.keys sigs (List.replicate a.keys.length false, 0)
  rw [Nat.zero_add] at hcount
  exact h.2.trans hcount

theorem length_extract_le (tag payload set : Bytes) (sigs : List Bytes) :
    (extractWitnessSignatures ([tag, payload] ++ sigs ++ [set])).length ≤ sigs.length - 2 := by
  rw [extractWitnessSignatures]
  split
  · exact Nat.zero_le _
  · refine (List.length_filter_le _ _).trans ?_
    rw [witnessSigItems, List.length_dropLast, List.length_drop, List.length_append,
      List.length_append]
    simp only [List.length_cons, List.length_nil]
    omega

theorem checkAuthoritySigs_ne_ok {env : Env} {reason : String} {authority : Authority}
    {tx : CTransaction} {nIn : Nat} {scriptCode : CScript} {tag payload set : Bytes}
    {sigs : List Bytes} (hpos : 0 < authority.threshold) (hlen : sigs.length = authority.threshold)
    (hwit : (tx.vin.getD nIn default).scriptWitness = [tag, payload] ++ sigs ++ [set]) :
    checkAuthoritySigs env reason authority tx nIn scriptCode ≠ .ok () := by
  intro h
  replace h := after_require h
  have hthreshold := threshold_le_of_verify (require_eq_ok.mp h)
  rw [hwit] at hthreshold
  have hfound := length_extract_le tag payload set sigs
  omega

/-! ## The signed transaction -/

/-- What `usdsoqsigntx` returns: a marker before the outputs it was given, and
    the authority inputs in place of the inputs it was given. -/
structure SignedForm (asset : AssetState) (mtx : CTransaction) (keyCount : Nat)
    (feeOutpoint : Option COutPoint) (tx : CTransaction) : Prop where
  initialized : asset.authority.isInitialized = true
  vout : ∃ program, tx.vout = ⟨0, witnessScript OP_5 program⟩ :: mtx.vout
  vin : ∃ vin tag payload sigs set, authorityInputs asset.authorityOutpoint feeOutpoint = .ok vin ∧
    sigs.length = keyCount ∧ tx.vin = setFirstWitness ([tag, payload] ++ sigs ++ [set]) vin

section Signed

variable {env : Env} {sign : Bytes → Bytes → Option Bytes} {active : Bool} {asset : AssetState}
  {mtx tx : CTransaction} {opcodeTag : Int} {privkeys : List Bytes}
  {feeOutpoint : Option COutPoint} {keyCount : Nat}

/-- The form of what is signed. -/
theorem signedForm_of_usdsoqsigntx
    (h : usdsoqsigntx env sign active asset mtx opcodeTag privkeys feeOutpoint = .ok tx) :
    SignedForm asset mtx privkeys.length feeOutpoint tx := by
  unfold usdsoqsigntx at h
  split_ifs at h with hactive hinit htag hkeys
  obtain ⟨_, -, h⟩ := bind_eq_ok.mp h
  obtain ⟨vin, hvin, h⟩ := bind_eq_ok.mp h
  obtain ⟨sigs, hsigs, h⟩ := bind_eq_ok.mp h
  obtain rfl := Except.ok.inj h
  have hlen : sigs.length = privkeys.length := by
    rw [← (mapM_eq_ok hsigs).length_eq, List.length_zipIdx]
  refine ⟨?_, ⟨_, rfl⟩, ⟨vin, _, _, sigs, _, hvin, hlen, rfl⟩⟩
  rwa [Bool.not_eq_true', Bool.not_eq_false] at hinit

section

variable (h : SignedForm asset mtx keyCount feeOutpoint tx)
include h

theorem SignedForm.marked : hasMarker isUSDSOQAuthorityMarker tx := by
  obtain ⟨program, hvout⟩ := h.vout
  have hmarker : isUSDSOQAuthorityMarker (witnessScript OP_5 program) := by
    simp [isUSDSOQAuthorityMarker, isWitnessProgram, witnessScript, program.size_eq]
  rw [hasMarker, hvout, List.any_cons, hmarker, Bool.true_or]

/-- Its inputs, the authority's first. -/
theorem SignedForm.inputs :
    ∃ first rest tag payload sigs set, tx.vin = first :: rest ∧
      first.scriptWitness = [tag, payload] ++ sigs ++ [set] ∧ sigs.length = keyCount ∧
      (asset.authorityOutpoint.isNull → rest = [] ∧ feeOutpoint = some first.prevout) ∧
      (asset.authorityOutpoint.isNull = false → first.prevout = asset.authorityOutpoint ∧
        ∀ txin ∈ rest, feeOutpoint = some txin.prevout) := by
  obtain ⟨vin, tag, payload, sigs, set, hinputs, hlen, hvin⟩ := h.vin
  unfold authorityInputs at hinputs
  cases hnull : asset.authorityOutpoint.isNull with
  | true =>
    cases hfee : feeOutpoint with
    | none =>
      rw [hnull, hfee] at hinputs
      cases hinputs
    | some fee =>
      rw [hnull, hfee] at hinputs
      obtain rfl := Except.ok.inj hinputs
      refine ⟨_, _, tag, payload, sigs, set, hvin, rfl, hlen, fun _ => ⟨rfl, rfl⟩, ?_⟩
      intro hfalse
      cases hfalse
  | false =>
    cases hfee : feeOutpoint with
    | none =>
      rw [hnull, hfee] at hinputs
      obtain rfl := Except.ok.inj hinputs
      refine ⟨_, _, tag, payload, sigs, set, hvin, rfl, hlen, ?_, fun _ => ⟨rfl, ?_⟩⟩
      · intro htrue
        cases htrue
      · intro txin htxin
        cases htxin
    | some fee =>
      rw [hnull, hfee] at hinputs
      obtain rfl := Except.ok.inj hinputs
      refine ⟨_, _, tag, payload, sigs, set, hvin, rfl, hlen, ?_, fun _ => ⟨rfl, ?_⟩⟩
      · intro htrue
        cases htrue
      · intro txin htxin
        obtain rfl := List.mem_singleton.mp htxin
        rfl

/-- An input is the authority's or the fee's. -/
theorem SignedForm.prevout_cases :
    ∀ txin ∈ tx.vin, txin.prevout = asset.authorityOutpoint ∨
      some txin.prevout = feeOutpoint := by
  obtain ⟨first, rest, -, -, -, -, hvin, -, -, hnull, htracked⟩ := h.inputs
  intro txin htxin
  rw [hvin] at htxin
  cases hcase : asset.authorityOutpoint.isNull with
  | true =>
    obtain ⟨rfl, hfee⟩ := hnull hcase
    obtain rfl := List.mem_singleton.mp htxin
    exact .inr hfee.symm
  | false =>
    obtain ⟨hfirst, hrest⟩ := htracked hcase
    rcases List.mem_cons.mp htxin with rfl | htxin
    · exact .inl hfirst
    · exact .inr (hrest txin htxin).symm

/-- The authority input is found in front. -/
theorem SignedForm.found_first {view : CoinsView} {nIn : Nat} {scriptCode : CScript}
    (hfound : findUSDSOQAuthorityInput env view asset.authority asset.authorityOutpoint tx =
      some (nIn, scriptCode)) :
    nIn = 0 := by
  obtain ⟨first, rest, tag, payload, sigs, set, hvin, -, -, hnull, htracked⟩ := h.inputs
  rw [findUSDSOQAuthorityInput, hvin] at hfound
  cases hcase : asset.authorityOutpoint.isNull with
  | true =>
    obtain ⟨rfl, -⟩ := hnull hcase
    rw [if_pos hcase, List.zipIdx_singleton, List.findSome?_cons, List.findSome?_nil] at hfound
    dsimp only at hfound
    split at hfound
    · next found heq =>
        split at heq
        · split_ifs at heq
          exact (Prod.mk.inj (Option.some.inj (heq.trans hfound))).1.symm
        · cases heq
    · cases hfound
  | false =>
    obtain ⟨hfirst, -⟩ := htracked hcase
    rw [if_neg (Bool.eq_false_iff.mp hcase), List.findIdx?_cons,
      if_pos (decide_eq_true hfirst), Option.map_some] at hfound
    exact (Prod.mk.inj (Option.some.inj hfound)).1.symm

end

/-- One signature item is not read, so a threshold of signatures is one too few. -/
theorem SignedForm.authorityStep_ne_ok
    (h : SignedForm asset mtx asset.authority.threshold feeOutpoint tx) {c : AssetCtx}
    {s t : AssetPass} (hasset : c.asset = asset)
    (hlocal : s.localAuthOutpoint = asset.authorityOutpoint)
    (hheight : c.consensus.nUSDSOQAuthorityEnforcementHeight ≤ c.nHeight)
    (hinput : c.consensus.nUSDSOQAuthorityInputEnforcementHeight ≤ c.nHeight) :
    usdsoqAuthorityStep env c s tx ≠ .ok t := by
  intro hstep
  have hpos : 0 < asset.authority.threshold := by
    have hinit := h.initialized
    rw [Authority.isInitialized, Bool.and_eq_true, decide_eq_true_eq] at hinit
    exact hinit.2
  obtain ⟨first, rest, tag, payload, sigs, set, hvin, hwit, hlen, -, -⟩ := h.inputs
  have hfirst : (tx.vin.getD 0 default).scriptWitness = [tag, payload] ++ sigs ++ [set] := by
    rw [hvin, List.getD_cons_zero, hwit]
  have hzero : ∀ {nIn : Nat} {scriptCode : CScript},
      findUSDSOQAuthorityInput env c.view c.asset.authority s.localAuthOutpoint tx =
        some (nIn, scriptCode) → nIn = 0 := by
    intro nIn scriptCode hfound
    rw [hasset, hlocal] at hfound
    exact h.found_first hfound
  cases usdsoqAuthorityStep_turn hstep with
  | unmarked hno => exact absurd (hno.symm.trans h.marked) Bool.false_ne_true
  | unenforced _ _ hbelow => omega
  | unwitnessed _ _ _ hfound hempty =>
    obtain rfl := hzero hfound
    rw [hfirst] at hempty
    cases hempty
  | signed _ _ _ hfound _ hsigs =>
    obtain rfl := hzero hfound
    rw [hasset] at hsigs
    exact checkAuthoritySigs_ne_ok hpos hlen hfirst hsigs
  | bootstrap _ _ _ _ _ _ _ hsigs =>
    rw [hasset] at hsigs
    exact checkAuthoritySigs_ne_ok hpos hlen hfirst hsigs
  | unlinked _ _ _ _ _ hbelow => omega

end Signed

/-- In an accepted block the transaction after the coinbase has passed the authority
    check, from the state of the asset that the block starts with. -/
theorem authorityStep_after_coinbase {env : Env} {params : CChainParams} {idx : CBlockIndex}
    {io : NodeIO} {fJustCheck : Bool} {a : Assets} {view : CoinsView} {block : CBlock}
    {fp : FirstPass} {p : Pending} {coinbase tx : CTransaction} {rest : List CTransaction}
    (h : Accepted env params idx io fJustCheck a view block fp p)
    (hactive : (blockFlags params idx).usdsoq)
    (hinit : a.usdsoq.authority.isInitialized) (hvtx : block.vtx = coinbase :: tx :: rest) :
    ∃ c t, c.asset = a.usdsoq ∧ c.consensus = params.getConsensus idx.nHeight ∧
      c.nHeight = idx.nHeight ∧
      usdsoqAuthorityStep env c (AssetPass.start a.usdsoq.authorityOutpoint) tx = .ok t := by
  have hstage := h.validated.usdsoq
  rw [usdsoqStage, if_pos hactive, initAuthorities_usdsoq hinit] at hstage
  obtain ⟨s, hloop, -⟩ := bind_eq_ok.mp hstage
  obtain ⟨coinbase', txs, hvtx', hcb, hothers⟩ := checkBlock_shape h.checked
  obtain ⟨rfl, rfl⟩ := List.cons.inj (hvtx.symm.trans hvtx')
  have htx : tx.isCoinBase = false := hothers tx List.mem_cons_self
  -- the coinbase leaves the pass as it starts
  have hlen := h.undos_length
  rw [hvtx] at hlen hloop
  obtain ⟨u₀, others, hundos⟩ := List.exists_cons_of_length_eq_add_one hlen
  rw [hundos, List.length_cons] at hlen
  obtain ⟨u₁, us, rfl⟩ := List.exists_cons_of_length_eq_add_one (Nat.succ.inj hlen)
  rw [hundos, List.tail_cons] at hloop
  obtain ⟨s₁, hfirst, hloop⟩ := foldlM_cons_eq_ok.mp hloop
  obtain ⟨s₂, hsecond, -⟩ := foldlM_cons_eq_ok.mp hloop
  rw [usdsoqTx] at hfirst hsecond
  dsimp only at hfirst hsecond
  rw [if_pos hcb] at hfirst
  obtain rfl := Except.ok.inj hfirst
  rw [htx, if_neg Bool.false_ne_true] at hsecond
  obtain ⟨t, hstep, -⟩ := bind_eq_ok.mp hsecond
  exact ⟨_, t, rfl, rfl, rfl, hstep⟩

/-- **No transaction that `usdsoqsigntx` signs with threshold many keys is valid.** Whatever
    transaction, tag, keys and fee outpoint it is given, and whatever the signing function: where
    the authority is enforced, the authority check of `ConnectBlock` refuses what it returns, and
    so does `ConnectBlock` a block with it after the coinbase.  The inputs of the transaction are
    lost as well: those it returns spend the tracked marker or the fee outpoint. -/
theorem usdsoqsigntx_rejected (env : Env) (sign : Bytes → Bytes → Option Bytes) (active : Bool)
    (a : Assets) (mtx tx : CTransaction) (opcodeTag : Int) (privkeys : List Bytes)
    (feeOutpoint : Option COutPoint) (hkeys : privkeys.length = a.usdsoq.authority.threshold)
    (hsign : usdsoqsigntx env sign active a.usdsoq mtx opcodeTag privkeys feeOutpoint = .ok tx) :
    (∀ txin ∈ tx.vin, txin.prevout = a.usdsoq.authorityOutpoint ∨
      some txin.prevout = feeOutpoint) ∧
    (∀ c s t, c.asset = a.usdsoq → s.localAuthOutpoint = a.usdsoq.authorityOutpoint →
      c.consensus.nUSDSOQAuthorityEnforcementHeight ≤ c.nHeight →
      c.consensus.nUSDSOQAuthorityInputEnforcementHeight ≤ c.nHeight →
      usdsoqAuthorityStep env c s tx ≠ .ok t) ∧
    ∀ params idx io fJustCheck view block coinbase rest,
      (blockFlags params idx).usdsoq = true →
      (params.getConsensus idx.nHeight).nUSDSOQAuthorityEnforcementHeight ≤ idx.nHeight →
      (params.getConsensus idx.nHeight).nUSDSOQAuthorityInputEnforcementHeight ≤ idx.nHeight →
      ¬ isGenesis env params block → block.vtx = coinbase :: tx :: rest →
      (connectBlock env params idx io fJustCheck a view block).verdict ≠ .ok () := by
  have hform := signedForm_of_usdsoqsigntx hsign
  have hthreshold := hform
  rw [hkeys] at hthreshold
  refine ⟨hform.prevout_cases, fun c s t hasset hlocal hheight hinput =>
    hthreshold.authorityStep_ne_ok hasset hlocal hheight hinput, ?_⟩
  intro params idx io fJustCheck view block coinbase rest hactive hheight hinput hgen hvtx haccept
  obtain ⟨fp, p, h⟩ := connectBlock_accepted haccept hgen
  obtain ⟨c, t, hasset, hconsensus, hnHeight, hstep⟩ :=
    authorityStep_after_coinbase h hactive hform.initialized hvtx
  rw [← hconsensus, ← hnHeight] at hheight hinput
  exact hthreshold.authorityStep_ne_ok hasset rfl hheight hinput hstep

namespace Sample

/-- The assets with their keys set up. -/
def keyedAssets : Assets := initAuthorities params (index 1) usdsoqAssets

/-- A private key signs with its first byte, which its public key shares. -/
def signByte (sk _msg : Bytes) : Option Bytes := some (List.replicate 2420 (sk.headD 0))

/-- The private keys of both authority keys. -/
def privateKeys : List Bytes := [List.replicate 2560 1, List.replicate 2560 2]

/-- A native coin. -/
def feeOutpoint : COutPoint := ⟨Uint256.fill 8, 0⟩

/-- What `usdsoqmint` returns. -/
def unsignedMint : CTransaction := unsignedTx [⟨1000000000, witnessScript OP_7 Uint256.null⟩]

/-- The mint after signing. -/
def signedMint : CTransaction where
  nVersion := 2
  vin := [⟨⟨Uint256.fill 9, 0⟩, [], 0xffffffff,
      [[1], Uint256.null.bytes, List.replicate 2420 1, List.replicate 2420 2,
        authoritySet keyedAssets.usdsoq.authority]⟩,
    ⟨feeOutpoint, [], 0xffffffff, []⟩]
  vout := ⟨0, witnessScript OP_5 Uint256.null⟩ :: unsignedMint.vout
  nLockTime := 0

end Sample

open Sample in
/-- The two keys of a two-of-two authority sign a mint; both signatures verify, and
    `ConnectBlock` refuses it. -/
theorem signed_mint_refused :
    usdsoqmint true 1000000000
        (ascii "sq1pqqqqqqqqqqqqqqqqqqqqqqqqqqqqqqqqqqqqqqqqqqqqqqqqqqqqz3m5dc") (ascii "sq") =
      .ok unsignedMint ∧
    usdsoqsigntx (Sample.env sameByte) signByte true keyedAssets.usdsoq unsignedMint 1 privateKeys
      (some feeOutpoint) = .ok signedMint ∧
    (keys.all fun key => privateKeys.any fun sk => (signByte sk []).any (sameByte key [])) = true ∧
    (usdsoqAuthorityStep (Sample.env sameByte)
        (assetCtx params (index 1) false usdsoqCoins keyedAssets.usdsoq)
        (AssetPass.start keyedAssets.usdsoq.authorityOutpoint) signedMint).map (fun _ => ()) =
      .error (.dos 100 "bad-usdsoq-authority-sig") := by
  exact ⟨by decide +kernel, by decide +kernel, by decide +kernel, by decide +kernel⟩

open Sample in
/-- A mint, signed by as many keys as the threshold asks for, that no block takes. -/
theorem usdsoqsigntx_rejected_mint :
    privateKeys.length = keyedAssets.usdsoq.authority.threshold ∧
    usdsoqsigntx (Sample.env sameByte) signByte true keyedAssets.usdsoq unsignedMint 1 privateKeys
      (some feeOutpoint) = .ok signedMint ∧
    (connectBlock (Sample.env sameByte) params (index 1) io false keyedAssets usdsoqCoins
      (block 1 [signedMint])).verdict ≠ .ok () := by
  have hsign : usdsoqsigntx (Sample.env sameByte) signByte true keyedAssets.usdsoq unsignedMint 1
      privateKeys (some feeOutpoint) = .ok signedMint := by decide +kernel
  obtain ⟨-, -, hblock⟩ := usdsoqsigntx_rejected (Sample.env sameByte) signByte true keyedAssets
    unsignedMint signedMint 1 privateKeys (some feeOutpoint) (by decide +kernel) hsign
  exact ⟨by decide +kernel, hsign, hblock params (index 1) io false usdsoqCoins
    (block 1 [signedMint]) (coinbase 1)
    [] rfl (by decide) (by decide) (by decide +kernel) rfl⟩

/-! ## Freeze calls -/

/-- The operation is read back from the unsigned transaction. -/
theorem parseUSDSOQFreezeOp_registry {freeze : Bool} {op : UInt8}
    (hop : op = if freeze then FREEZE_OP_FREEZE else FREEZE_OP_UNFREEZE) (txid : Uint256)
    {vout : Nat} (hvout : vout < 256 ^ 4) :
    parseUSDSOQFreezeOp (makeRegistryFreezeTx op txid vout) = some ⟨freeze, ⟨txid, vout⟩⟩ := by
  have hpush : freezePush ([OP_RETURN, 6] ++ FREEZE_TAG ++ [37] ++
      ([op] ++ txid.bytes ++ writeLE 4 vout)) = some ([op] ++ txid.bytes ++ writeLE 4 vout) := by
    refine freezePush_eq_some.mpr ⟨6, 37, _, _, [], rfl,
      getOp_of_pushSize (by decide) (pushSize_direct (by decide) _),
      getOp_of_pushSize (by decide) ?_, by simp [FREEZE_OP_PAYLOAD_LEN]⟩
    rw [pushSize_direct (by decide), List.append_nil]
    simp
  have htxid : Uint256.ofSlice ([op] ++ txid.bytes ++ writeLE 4 vout) 1 = txid :=
    Uint256.ofSlice_append [op] txid _
  have hindex : readLEAt ([op] ++ txid.bytes ++ writeLE 4 vout) 33 4 = vout := by
    simpa using readLEAt_append hvout (show ([op] ++ txid.bytes).length = 33 by simp) []
  rw [parseUSDSOQFreezeOp, makeRegistryFreezeTx, unsignedTx, parseUSDSOQFreezeOpFrom, hpush]
  dsimp only
  rw [parseFreezePayload, htxid, hindex]
  cases freeze <;> subst hop <;> rfl

/-- A freeze call is refused for an inactive asset and for a negative output number only. -/
theorem exists_usdsoqFreezeCall_iff {op : UInt8} {operations : String} {active : Bool}
    {txid : Uint256} {vout : Int} :
    (∃ tx, usdsoqFreezeCall op operations active txid vout = .ok tx) ↔
      active = true ∧ 0 ≤ vout := by
  rw [usdsoqFreezeCall]
  cases active with
  | false =>
    refine iff_of_false ?_ fun h => Bool.false_ne_true h.1
    rintro ⟨tx, h⟩
    cases h
  | true =>
    rw [Bool.not_true, if_neg Bool.false_ne_true]
    split_ifs with hneg
    · refine iff_of_false ?_ fun h => absurd hneg (not_lt.mpr h.2)
      rintro ⟨tx, h⟩
      cases h
    · exact iff_of_true ⟨_, rfl⟩ ⟨rfl, not_lt.mp hneg⟩

/-- **Freeze calls and the parser agree.**  `usdsoqfreeze` and `usdsoqunfreeze` return a
    transaction exactly where USDSOQ is active and the output number is not negative; what they
    return is read as the operation on the outpoint they were given, and signing changes nothing
    about that. -/
theorem freeze_calls_parsed (freeze active : Bool) (txid : Uint256) (vout : Int32) :
    ((∃ tx, (if freeze then usdsoqfreeze else usdsoqunfreeze) active txid vout.toInt = .ok tx) ↔
      active = true ∧ 0 ≤ vout.toInt) ∧
    (∀ tx, (if freeze then usdsoqfreeze else usdsoqunfreeze) active txid vout.toInt = .ok tx →
      parseUSDSOQFreezeOp tx = some ⟨freeze, ⟨txid, vout.toInt.toNat⟩⟩) ∧
    ∀ env sign active asset mtx opcodeTag privkeys feeOutpoint tx,
      usdsoqsigntx env sign active asset mtx opcodeTag privkeys feeOutpoint = .ok tx →
      parseUSDSOQFreezeOp tx = parseUSDSOQFreezeOp mtx := by
  obtain ⟨op, operations, hop, hcall⟩ : ∃ op operations,
      op = (if freeze then FREEZE_OP_FREEZE else FREEZE_OP_UNFREEZE) ∧
      (if freeze then usdsoqfreeze else usdsoqunfreeze) active txid vout.toInt =
        usdsoqFreezeCall op operations active txid vout.toInt := by
    cases freeze <;> exact ⟨_, _, rfl, rfl⟩
  rw [hcall]
  refine ⟨exists_usdsoqFreezeCall_iff, ?_, ?_⟩
  · intro tx h
    rw [usdsoqFreezeCall] at h
    split_ifs at h
    obtain rfl := Except.ok.inj h
    exact parseUSDSOQFreezeOp_registry hop txid (by have := vout.toInt_lt; omega)
  · intro env sign active asset mtx opcodeTag privkeys feeOutpoint tx h
    -- the marker in front of the outputs is no `OP_RETURN`
    obtain ⟨program, hvout⟩ := (signedForm_of_usdsoqsigntx h).vout
    rw [parseUSDSOQFreezeOp, hvout]
    rfl

end Soqucoin
