import Soqucoin.QuietBlockProofs

/-! # Dry runs — a block checked and a block connected get the same verdict

`TestBlockValidity` runs `ConnectBlock` with `fJustCheck` before a template is handed out.  A dry
run leaves out the tests of the proof of work and of the Merkle root, which a template does not
have yet.  For the rest the flag decides what is kept, never what is refused
(`connectBlock_dryRun_agrees`). -/

namespace Soqucoin

open CheckedLoop

variable {s t : AssetPass} {c : AssetCtx} {txs : List (CTransaction × Option CTxUndo)}

section Agreement

variable {env : Env} {params : CChainParams} {idx : CBlockIndex} {io : NodeIO}
variable {fJustCheck : Bool} {a : Assets} {view : CoinsView} {block : CBlock}

/-! ## The passes -/

/-- What a pass has accumulated, but for the outpoint to commit. -/
def AssetPass.forget (s : AssetPass) : AssetPass := { s with pendingOutpoint := none }

/-- The same context, in a dry run or not. -/
def AssetCtx.withJustCheck (c : AssetCtx) (fJustCheck : Bool) : AssetCtx :=
  { c with fJustCheck := fJustCheck }

theorem map_forget_bind_ok {x : Check Unit} (h : s.forget = t.forget) :
    (x >>= fun _ => Except.ok s).map AssetPass.forget =
      (x >>= fun _ => Except.ok t).map AssetPass.forget :=
  map_bind_congr fun _ => congrArg Except.ok h

/-- A dry run differs only in the outpoint it would commit. -/
theorem usdsoqAuthorityStep_dryRun {tx : CTransaction} (h : s.forget = t.forget) (b : Bool) :
    (usdsoqAuthorityStep env c s tx).map AssetPass.forget =
      (usdsoqAuthorityStep env (c.withJustCheck b) t tx).map AssetPass.forget := by
  obtain ⟨tracked, pending, frozen, ops, minted, burned⟩ := s
  obtain ⟨tracked', pending', frozen', ops', minted', burned'⟩ := t
  cases h
  rw [usdsoqAuthorityStep, usdsoqAuthorityStep]
  cases authorityOutputIndex isUSDSOQAuthorityMarker tx with
  | none => rfl
  | some nOut =>
    refine ite_map_congr Iff.rfl (fun _ => rfl) fun _ => ?_
    refine ite_map_congr Iff.rfl (fun _ => rfl) fun _ => ?_
    cases hfound : findUSDSOQAuthorityInput env c.view c.asset.authority tracked tx with
    | some found =>
      simp only [AssetCtx.withJustCheck, hfound]
      exact ite_map_congr Iff.rfl (fun _ => rfl) fun _ => rfl
    | none =>
      simp only [AssetCtx.withJustCheck, hfound]
      refine ite_map_congr Iff.rfl (fun _ => ?_) fun _ => map_forget_bind_ok rfl
      refine map_bind_congr fun _ => ?_
      refine map_bind_congr fun _ => ?_
      exact map_forget_bind_ok rfl

/-- A dry run differs only in the outpoint it would commit. -/
theorem usdsoqFreezeStep_dryRun {tx : CTransaction} (h : s.forget = t.forget) (b : Bool) :
    (usdsoqFreezeStep c s tx).map AssetPass.forget =
      (usdsoqFreezeStep (c.withJustCheck b) t tx).map AssetPass.forget := by
  obtain ⟨tracked, pending, frozen, ops, minted, burned⟩ := s
  obtain ⟨tracked', pending', frozen', ops', minted', burned'⟩ := t
  cases h
  rw [usdsoqFreezeStep, usdsoqFreezeStep]
  cases hop : usdsoqFreezeOp c.consensus c.nHeight tx with
  | none =>
    simp only [AssetCtx.withJustCheck, hop]
    rfl
  | some op =>
    simp only [AssetCtx.withJustCheck, hop]
    exact map_forget_bind_ok rfl

/-- A turn of a dry run differs only in the outpoint it would commit. -/
theorem usdsoqTx_dryRun {q : CTransaction × Option CTxUndo} (h : s.forget = t.forget) (b : Bool) :
    (usdsoqTx env c s q).map AssetPass.forget =
      (usdsoqTx env (c.withJustCheck b) t q).map AssetPass.forget := by
  obtain ⟨tx, txundo⟩ := q
  rw [usdsoqTx, usdsoqTx]
  refine ite_map_congr Iff.rfl (fun _ => congrArg Except.ok h) fun _ => ?_
  refine bind_map_congr (usdsoqAuthorityStep_dryRun h b) fun s₁ t₁ h₁ => ?_
  refine bind_map_congr (usdsoqFreezeStep_dryRun h₁ b) fun s₂ t₂ h₂ => ?_
  obtain ⟨tracked, pending, frozen, ops, minted, burned⟩ := s₂
  obtain ⟨tracked', pending', frozen', ops', minted', burned'⟩ := t₂
  cases h₂
  refine map_bind_congr fun _ => ?_
  refine map_bind_congr fun _ => ?_
  exact ite_map_congr Iff.rfl (fun _ => rfl) fun _ => map_forget_bind_ok rfl

/-! ## The stages -/

/-- The verdict of a check, without its result. -/
def verdictOf {α : Type} (x : Check α) : Check Unit := x.map fun _ => ()

/-- The verdict of the pass does not read whether it is a dry run. -/
theorem usdsoqPass_dryRun (b : Bool) :
    verdictOf (usdsoqPass env c txs) = verdictOf (usdsoqPass env (c.withJustCheck b) txs) := by
  have hloop := foldlM_map_congr (f := usdsoqTx env c) (g := usdsoqTx env (c.withJustCheck b))
    AssetPass.forget (l := txs) (fun q _ s t h => usdsoqTx_dryRun h b)
    (rfl : (AssetPass.start c.asset.authorityOutpoint).forget = _)
  refine bind_map_congr hloop fun s t h => ?_
  have hminted : s.forget.nMinted = t.forget.nMinted := congrArg AssetPass.nMinted h
  have hburned : s.forget.nBurned = t.forget.nBurned := congrArg AssetPass.nBurned h
  rw [show s.nMinted = t.nMinted from hminted, show s.nBurned = t.nBurned from hburned]
  exact map_bind_congr fun _ => rfl

theorem usdsoqStage_dryRun {v : CoinsView} (b b' : Bool) :
    verdictOf (usdsoqStage env params idx b a v txs) =
      verdictOf (usdsoqStage env params idx b' a v txs) := by
  rw [usdsoqStage, usdsoqStage]
  exact ite_map_congr Iff.rfl (fun _ => usdsoqPass_dryRun b') fun _ => rfl

theorem btcsoqStage_dryRun {v : CoinsView} (b b' : Bool) :
    btcsoqStage env params idx b a v txs = btcsoqStage env params idx b' a v txs := rfl

/-- A dry run of the rules has the verdict of a real one. -/
theorem validateBlock_dryRun (b b' : Bool) :
    verdictOf (validateBlock env params idx io b a view block) =
      verdictOf (validateBlock env params idx io b' a view block) := by
  rw [validateBlock, validateBlock]
  refine bind_map_congr (π := id) (κ := id) rfl fun s t hst => ?_
  obtain rfl : s = t := hst
  refine map_bind_congr fun _ => ?_
  refine map_bind_congr fun _ => ?_
  -- the two runs part here: what the USDSOQ pass returns differs, its verdict does not
  refine bind_map_congr (usdsoqStage_dryRun b b') fun _ _ _ => ?_
  refine bind_map_congr (π := id) (κ := id) (btcsoqStage_dryRun b b' ▸ rfl) fun _ _ _ => ?_
  refine map_bind_congr fun _ => ?_
  refine map_bind_congr fun _ => ?_
  refine map_bind_congr fun _ => ?_
  exact map_bind_congr fun _ => rfl

/-! ## The verdict -/

/-- The tests of `CheckBlock` that a dry run leaves out. -/
def checkWorkAndMerkle (env : Env) (block : CBlock) : Check Unit := do
  require (env.checkAuxPowProofOfWork block) (.dos 50 "high-hash")
  require (env.merkleRootMatches block) (.dos 100 "bad-txnmrklroot")
  require (!env.merkleMutated block) (.dos 100 "bad-txns-duplicate")

theorem checkBlock_true_eq :
    checkBlock env block true = (do
      checkWorkAndMerkle env block
      checkBlock env block false) := by
  rw [checkBlock, checkBlock, checkWorkAndMerkle]
  cases env.checkAuxPowProofOfWork block <;> cases env.merkleRootMatches block <;>
    cases env.merkleMutated block <;> rfl

/-- The rules a dry run applies, the flag given to the passes apart. -/
def checkRules (env : Env) (params : CChainParams) (idx : CBlockIndex) (io : NodeIO)
    (fJustCheck : Bool) (a : Assets) (view : CoinsView) (block : CBlock) : Check Unit := do
  require (idx.hashPrevBlock = view.bestBlock) (.abort "assert")
  if isGenesis env params block then .ok ()
  else do
    checkBIP30 env params idx view block.vtx
    verdictOf (validateBlock env params idx io fJustCheck (initAuthorities params idx a) view block)

theorem checkRules_dryRun (b b' : Bool) :
    checkRules env params idx io b a view block = checkRules env params idx io b' a view block := by
  rw [checkRules, checkRules, validateBlock_dryRun b b']

/-- What is left to a block that is connected. -/
def writesOf (env : Env) (params : CChainParams) (io : NodeIO) (fJustCheck : Bool)
    (block : CBlock) : Check Unit :=
  if fJustCheck || isGenesis env params block then .ok () else writeIndexes io

/-- The verdict of `ConnectBlock`, as checks, rules and writes. -/
theorem connectBlock_verdict_eq :
    (connectBlock env params idx io fJustCheck a view block).verdict = (do
      checkBlock env block (!fJustCheck)
      checkRules env params idx io fJustCheck a view block
      writesOf env params io fJustCheck block) := by
  rw [connectBlock, checkRules, writesOf]
  cases checkBlock env block (!fJustCheck) with
  | error e => rfl
  | ok u =>
    by_cases hbest : idx.hashPrevBlock = view.bestBlock
    · by_cases hgen : isGenesis env params block
      · have hgen' : env.hashBlock block = (params.getConsensus 0).hashGenesisBlock := hgen
        simp only [hbest, hgen, hgen', ne_eq, not_true_eq_false, if_false, if_true,
          decide_true, Bool.or_true]
        rfl
      · have hgen' : ¬ env.hashBlock block = (params.getConsensus 0).hashGenesisBlock := hgen
        simp only [hbest, hgen, hgen', ne_eq, not_true_eq_false, if_false, decide_true,
          decide_false, Bool.or_false]
        cases checkBIP30 env params idx view block.vtx with
        | error e => rfl
        | ok u =>
          cases hvalid : validateBlock env params idx io fJustCheck
            (initAuthorities params idx a) view block with
          | error e => rfl
          | ok p =>
            cases fJustCheck with
            | true => rfl
            | false => cases writeIndexes io <;> rfl
    · simp only [hbest, ne_eq, not_false_eq_true, if_true, decide_false]
      rfl

/-- A block is connected exactly as it was checked, with the tests that the dry
    run left out before and the writes after. -/
theorem connectBlock_verdict_dryRun :
    (connectBlock env params idx io false a view block).verdict = (do
      checkWorkAndMerkle env block
      (connectBlock env params idx io true a view block).verdict
      writesOf env params io false block) := by
  rw [connectBlock_verdict_eq, connectBlock_verdict_eq, Bool.not_false, Bool.not_true,
    checkBlock_true_eq, checkRules_dryRun false true]
  cases checkWorkAndMerkle env block with
  | error e => rfl
  | ok u =>
    cases checkBlock env block false with
    | error e => rfl
    | ok u => cases checkRules env params idx io true a view block <;> rfl

/-! ## Template checks -/

/-- A call of `TestBlockValidity`: the template, its dummy index, the scratch view, and how the
    checks before `ConnectBlock` ended.  Those are `ContextualCheckBlockHeader`, `CheckBlock` with
    the caller's flags and `ContextualCheckBlock`, and read no asset state. -/
structure TemplateCheck where
  block : CBlock
  indexDummy : CBlockIndex
  viewNew : CoinsView
  prechecked : Check Unit

/-- `TestBlockValidity` on the tip below the height given. -/
def testBlockValidity (env : Env) (params : CChainParams) (io : NodeIO) (nHeight : Int)
    (a : Assets) (t : TemplateCheck) : Check Unit × Assets :=
  match t.prechecked with
  | .error e => (.error e, a)
  | .ok () =>
    let r := connectBlock env params { t.indexDummy with nHeight := nHeight } io true a
      t.viewNew t.block
    (r.verdict, r.assets)

/-- The assets after a node has tested some block templates. -/
def afterTemplates (env : Env) (params : CChainParams) (io : NodeIO) (nHeight : Int) (a : Assets)
    (ts : List TemplateCheck) : Assets :=
  ts.foldl (fun a t => (testBlockValidity env params io nHeight a t).2) a

/-- A key set is set up once. -/
theorem lazyInitialize_idem (authority : Authority) (keys : List Bytes) (m : Nat) :
    lazyInitialize (lazyInitialize authority keys m) keys m = lazyInitialize authority keys m := by
  by_cases hdone : (authority.isInitialized || keys.isEmpty) = true
  · have hkept : lazyInitialize authority keys m = authority := by
      rw [lazyInitialize, if_pos hdone]
    rw [hkept, hkept]
  · have honce : lazyInitialize authority keys m =
        (Authority.initializeKeys (keys.filter fun key => key.length = DILITHIUM_PUBKEY_SIZE)
          m).getD authority := by
      rw [lazyInitialize, if_neg hdone]
    rw [honce]
    cases hinit : Authority.initializeKeys
      (keys.filter fun key => key.length = DILITHIUM_PUBKEY_SIZE) m with
    | none =>
      rw [hinit] at honce
      exact honce
    | some loaded =>
      -- the keys that were loaded stay, however `isInitialized` judges them
      rw [Option.getD_some, lazyInitialize]
      by_cases hagain : (loaded.isInitialized || keys.isEmpty) = true
      · rw [if_pos hagain]
      · rw [if_neg hagain]
        simp only [hinit, Option.getD_some]

/-- Initialising the authorities twice is doing it once. -/
theorem initAuthorities_initAuthorities {idx' : CBlockIndex} (h : idx'.nHeight = idx.nHeight)
    (a : Assets) :
    initAuthorities params idx (initAuthorities params idx' a) = initAuthorities params idx a := by
  have husd : (blockFlags params idx').usdsoq = (blockFlags params idx).usdsoq := by
    simp only [blockFlags, h]
  have hbtc : (blockFlags params idx').btcsoq = (blockFlags params idx).btcsoq := by
    simp only [blockFlags, h]
  simp only [initAuthorities, husd, hbtc, h]
  cases (blockFlags params idx).usdsoq <;> cases (blockFlags params idx).btcsoq <;>
    simp only [if_true, Bool.false_eq_true, if_false, lazyInitialize_idem]

/-- A dry run leaves the assets alone, or initialises their authorities. -/
theorem connectBlock_justCheck_assets (env : Env) (params : CChainParams) (idx : CBlockIndex)
    (io : NodeIO) (a : Assets) (view : CoinsView) (block : CBlock) :
    (connectBlock env params idx io true a view block).assets = a ∨
      (connectBlock env params idx io true a view block).assets = initAuthorities params idx a := by
  by_cases hadm : Admitted env params idx true view block
  · refine Or.inr ?_
    rw [connectBlock_of_admitted hadm]
    cases validateBlock env params idx io true (initAuthorities params idx a) view block <;> rfl
  · exact Or.inl (connectBlock_assets_of_not_admitted hadm)

/-- What template checks at the height of a block leave alone. -/
structure TemplateFrame (params : CChainParams) (idx : CBlockIndex) (a b : Assets) : Prop where
  content : a.SameContent b
  keys : initAuthorities params idx b = initAuthorities params idx a

theorem TemplateFrame.refl (params : CChainParams) (idx : CBlockIndex) (a : Assets) :
    TemplateFrame params idx a a := ⟨.refl a, rfl⟩

/-- Testing a template leaves the assets within the frame. -/
theorem TemplateFrame.testBlockValidity {b : Assets} (h : TemplateFrame params idx a b)
    (t : TemplateCheck) :
    TemplateFrame params idx a (testBlockValidity env params io idx.nHeight b t).2 := by
  rw [Soqucoin.testBlockValidity]
  cases t.prechecked with
  | error e => exact h
  | ok u =>
    refine ⟨h.content.trans connectBlock_sameContent_of_justCheck, ?_⟩
    rcases connectBlock_justCheck_assets env params
      { t.indexDummy with nHeight := idx.nHeight } io b t.viewNew t.block with hassets | hassets
    · exact (congrArg (initAuthorities params idx) hassets).trans h.keys
    · refine (congrArg (initAuthorities params idx) hassets).trans ?_
      exact (initAuthorities_initAuthorities rfl b).trans h.keys

/-- Any number of template checks stay within the frame. -/
theorem templateFrame_afterTemplates (env : Env) (io : NodeIO) (ts : List TemplateCheck) :
    ∀ {b : Assets}, TemplateFrame params idx a b →
      TemplateFrame params idx a (afterTemplates env params io idx.nHeight b ts) := by
  induction ts with
  | nil =>
    intro b h
    exact h
  | cons t ts ih =>
    intro b h
    exact ih (h.testBlockValidity t)

theorem TemplateFrame.verdict_eq {b : Assets} (h : TemplateFrame params idx a b) :
    (connectBlock env params idx io fJustCheck b view block).verdict =
      (connectBlock env params idx io fJustCheck a view block).verdict := by
  rw [connectBlock_verdict_eq, connectBlock_verdict_eq, checkRules, checkRules, h.keys]

/-- **A block is connected as it was checked.**  The verdict on a block that is connected is the
    verdict of its dry run, but for the proof of work, the Merkle root and the writes to disk.
    Dry runs keep supply, outpoints, freeze registries and minted deposits, and any number of
    template checks on the tip changes neither verdict. -/
theorem connectBlock_dryRun_agrees (env : Env) (params : CChainParams) (idx : CBlockIndex)
    (io : NodeIO) (a : Assets) (view : CoinsView) (block : CBlock) (ts : List TemplateCheck) :
    (connectBlock env params idx io false a view block).verdict = (do
      checkWorkAndMerkle env block
      (connectBlock env params idx io true a view block).verdict
      writesOf env params io false block) ∧
    a.SameContent (connectBlock env params idx io true a view block).assets ∧
    a.SameContent (afterTemplates env params io idx.nHeight a ts) ∧
    ∀ fJustCheck, (connectBlock env params idx io fJustCheck
        (afterTemplates env params io idx.nHeight a ts) view block).verdict =
      (connectBlock env params idx io fJustCheck a view block).verdict := by
  have hframe := templateFrame_afterTemplates env io ts (.refl params idx a)
  exact ⟨connectBlock_verdict_dryRun, connectBlock_sameContent_of_justCheck, hframe.content,
    fun _ => hframe.verdict_eq⟩

end Agreement

open Sample in
/-- A template without proof of work passes its dry run and cannot be connected. -/
theorem dryRun_without_work :
    let env : Env := { Sample.env sameByte with checkAuxPowProofOfWork := fun _ => false }
    (connectBlock env params (index 1) io true usdsoqAssets usdsoqCoins
      (Sample.block 10 [])).verdict =
        .ok () ∧
      (connectBlock env params (index 1) io false usdsoqAssets usdsoqCoins
          (Sample.block 10 [])).verdict = .error (.dos 50 "high-hash") := by
  decide +kernel

end Soqucoin
