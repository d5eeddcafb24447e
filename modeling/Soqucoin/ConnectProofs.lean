import Soqucoin.ConnectBlock
import Soqucoin.CoinsUndoProofs

/-! # What an accepted block has been through

`ConnectBlock` is taken apart once here; the results about it are derived from what this file says
and never unfold it again.  `connectBlock_verdict_iff` says what a block has to pass,
`connectBlock_accepted` the stages it has passed and the state it leaves, `connectTxs_connects`
the first pass as a chain of `UpdateCoins` steps, each with the checks made before it. -/

namespace Soqucoin

open CheckedLoop SparseList

variable {env : Env} {params : CChainParams} {idx : CBlockIndex} {io : NodeIO}
variable {fJustCheck : Bool} {a : Assets} {view : CoinsView} {block : CBlock}

/-! ## The stages -/

/-- The stages behind a successful validation. -/
structure Validated (env : Env) (params : CChainParams) (idx : CBlockIndex) (io : NodeIO)
    (fJustCheck : Bool) (a : Assets) (view : CoinsView) (block : CBlock) (s : FirstPass)
    (p : Pending) : Prop where
  firstPass : connectTxs env params idx a io.scriptThreads view block.vtx = .ok s
  usdsoq : usdsoqStage env params idx fJustCheck a s.view (withUndo block.vtx s.undos.tail) =
    .ok p.usdsoq
  btcsoq : btcsoqStage env params idx fJustCheck a s.view (withUndo block.vtx s.undos.tail) =
    .ok (p.btcsoq, p.mintedDeposits)
  scripts : s.checks.all (CScriptCheck.run env) = true
  view_eq : p.view = s.view
  blockundo_eq : p.blockundo = s.undos.tail

/-- The rules on the coinbase, the outputs and the commitments that a block has passed. -/
structure RulesPassed (env : Env) (params : CChainParams) (idx : CBlockIndex) (block : CBlock)
    (s : FirstPass) : Prop where
  coinbaseAmount : checkCoinbaseAmount env params idx (block.vtx.headD default) s.nFees = .ok ()
  noV2Outputs : checkNoV2Outputs block.vtx = .ok ()
  utxoCost : checkUtxoCost (params.getConsensus idx.nHeight) idx.nHeight block.vtx = .ok ()
  latticeFold : checkLatticeFold env (blockFlags params idx) block = .ok ()
  patCommitment : checkPatCommitment env (params.getConsensus idx.nHeight) idx block s.patBatch =
    .ok ()

/-- A block is valid exactly if the passes succeed and the rules hold. -/
theorem validateBlock_eq_ok {p : Pending} :
    validateBlock env params idx io fJustCheck a view block = .ok p ↔
      ∃ s, Validated env params idx io fJustCheck a view block s p ∧
        RulesPassed env params idx block s := by
  constructor
  · intro h
    rw [validateBlock, bind_eq_ok] at h
    obtain ⟨s, hs, h⟩ := h
    obtain ⟨_, hcoinbase, h⟩ := bind_eq_ok.mp h
    obtain ⟨_, hv2, h⟩ := bind_eq_ok.mp h
    obtain ⟨usdsoq, hu, h⟩ := bind_eq_ok.mp h
    obtain ⟨⟨btcsoq, minted⟩, hb, h⟩ := bind_eq_ok.mp h
    obtain ⟨_, hcost, h⟩ := bind_eq_ok.mp h
    obtain ⟨_, hfold, h⟩ := bind_eq_ok.mp h
    obtain ⟨_, hpat, h⟩ := bind_eq_ok.mp h
    obtain ⟨hc, h⟩ := require_bind_eq_ok.mp h
    obtain rfl := Except.ok.inj h
    exact ⟨s, ⟨hs, hu, hb, hc, rfl, rfl⟩, ⟨hcoinbase, hv2, hcost, hfold, hpat⟩⟩
  · rintro ⟨s, hval, hrules⟩
    obtain ⟨v, undo, u, b, m⟩ := p
    obtain rfl := hval.view_eq
    obtain rfl := hval.blockundo_eq
    exact bind_eq_ok.mpr ⟨s, hval.firstPass, bind_eq_ok.mpr ⟨(), hrules.coinbaseAmount,
      bind_eq_ok.mpr ⟨(), hrules.noV2Outputs, bind_eq_ok.mpr ⟨u, hval.usdsoq,
      bind_eq_ok.mpr ⟨(b, m), hval.btcsoq, bind_eq_ok.mpr ⟨(), hrules.utxoCost,
      bind_eq_ok.mpr ⟨(), hrules.latticeFold, bind_eq_ok.mpr ⟨(), hrules.patCommitment,
      require_bind_eq_ok.mpr ⟨hval.scripts, rfl⟩⟩⟩⟩⟩⟩⟩⟩⟩

/-- What an accepted block other than the genesis block has passed, and what it leaves behind. -/
structure Accepted (env : Env) (params : CChainParams) (idx : CBlockIndex) (io : NodeIO)
    (fJustCheck : Bool) (a : Assets) (view : CoinsView) (block : CBlock) (s : FirstPass)
    (p : Pending) : Prop where
  checked : checkBlock env block (!fJustCheck) = .ok ()
  bestBlock : idx.hashPrevBlock = view.bestBlock
  bip30 : checkBIP30 env params idx view block.vtx = .ok ()
  validated : Validated env params idx io fJustCheck (initAuthorities params idx a) view block s p
  assets_eq : (connectBlock env params idx io fJustCheck a view block).assets =
    if fJustCheck then initAuthorities params idx a
    else commitAssets (initAuthorities params idx a) p
  view_eq : (connectBlock env params idx io fJustCheck a view block).view =
    if fJustCheck then s.view else s.view.setBestBlock idx.blockHash
  blockundo_eq : (connectBlock env params idx io fJustCheck a view block).blockundo =
    some s.undos.tail

/-- The block is the genesis block, whose transactions are not connected. -/
def isGenesis (env : Env) (params : CChainParams) (block : CBlock) : Prop :=
  env.hashBlock block = (params.getConsensus 0).hashGenesisBlock

instance : Decidable (isGenesis env params block) := inferInstanceAs (Decidable (_ = _))

variable {post pre : List CTransaction} {tx : CTransaction} {fQueue : Bool} {v' : CoinsView}

/-- A block with a transaction other than coinbases is not the genesis block. -/
theorem not_isGenesis_of_tx
    (hgenesis : isGenesis env params block → ∀ tx ∈ block.vtx, tx.isCoinBase)
    (hvtx : block.vtx = pre ++ tx :: post) (hcb : tx.isCoinBase = false) :
    ¬ isGenesis env params block := by
  intro hg
  have htx := hgenesis hg tx (by rw [hvtx]; simp)
  rw [hcb] at htx
  exact nomatch htx

/-- What a block other than the genesis block passes before its transactions are looked at. -/
structure Admitted (env : Env) (params : CChainParams) (idx : CBlockIndex) (fJustCheck : Bool)
    (view : CoinsView) (block : CBlock) : Prop where
  notGenesis : ¬ isGenesis env params block
  checked : checkBlock env block (!fJustCheck) = .ok ()
  bestBlock : idx.hashPrevBlock = view.bestBlock
  bip30 : checkBIP30 env params idx view block.vtx = .ok ()

/-- What `ConnectBlock` returns once the validation is through. -/
def connectValidated (idx : CBlockIndex) (io : NodeIO) (fJustCheck : Bool) (a : Assets)
    (view : CoinsView) : Check Pending → ConnectResult
  | .error e => ⟨.error e, a, view, none⟩
  | .ok p =>
    if fJustCheck then ⟨.ok (), a, p.view, some p.blockundo⟩
    else
      match writeIndexes io with
      | .error e => ⟨.error e, commitAssets a p, p.view, some p.blockundo⟩
      | .ok () =>
        ⟨.ok (), commitAssets a p, p.view.setBestBlock idx.blockHash, some p.blockundo⟩

/-- What is admitted is validated and then committed. -/
theorem connectBlock_of_admitted (h : Admitted env params idx fJustCheck view block) :
    connectBlock env params idx io fJustCheck a view block =
      connectValidated idx io fJustCheck (initAuthorities params idx a) view
        (validateBlock env params idx io fJustCheck (initAuthorities params idx a) view block) := by
  have hgen : ¬ env.hashBlock block = (params.getConsensus 0).hashGenesisBlock := h.notGenesis
  simp only [connectBlock, h.checked, ne_eq, h.bestBlock, not_true_eq_false, if_false, hgen,
    h.bip30]
  cases validateBlock env params idx io fJustCheck (initAuthorities params idx a) view block with
  | error e => rfl
  | ok p => rfl

/-- A block that is not admitted changes nothing. -/
theorem connectBlock_of_not_admitted (hgen : ¬ isGenesis env params block)
    (h : ¬ Admitted env params idx fJustCheck view block) :
    ∃ e, connectBlock env params idx io fJustCheck a view block = ⟨.error e, a, view, none⟩ := by
  have hgen' : ¬ env.hashBlock block = (params.getConsensus 0).hashGenesisBlock := hgen
  cases hcheck : checkBlock env block (!fJustCheck) with
  | error e => exact ⟨e, by simp only [connectBlock, hcheck]⟩
  | ok u =>
    by_cases hbest : idx.hashPrevBlock = view.bestBlock
    · cases hbip : checkBIP30 env params idx view block.vtx with
      | error e =>
        exact ⟨e, by simp only [connectBlock, hcheck, ne_eq, hbest, not_true_eq_false,
          if_false, hgen', hbip]⟩
      | ok u => exact absurd ⟨hgen, hcheck, hbest, hbip⟩ h
    · exact ⟨.abort "assert", by
        simp only [connectBlock, hcheck, ne_eq, hbest, not_false_eq_true, if_true]⟩

/-- The genesis block is refused, or becomes the best block and nothing else. -/
theorem connectBlock_of_isGenesis (hgen : isGenesis env params block) :
    (∃ e, connectBlock env params idx io fJustCheck a view block = ⟨.error e, a, view, none⟩) ∨
      connectBlock env params idx io fJustCheck a view block =
        ⟨.ok (), a, if fJustCheck then view else view.setBestBlock idx.blockHash, none⟩ := by
  have hgen' : env.hashBlock block = (params.getConsensus 0).hashGenesisBlock := hgen
  cases hcheck : checkBlock env block (!fJustCheck) with
  | error e => exact Or.inl ⟨e, by simp only [connectBlock, hcheck]⟩
  | ok u =>
    by_cases hbest : idx.hashPrevBlock = view.bestBlock
    · refine Or.inr ?_
      simp only [connectBlock, hcheck, ne_eq, hbest, not_true_eq_false, if_false, hgen', if_true]
    · refine Or.inl ⟨.abort "assert", ?_⟩
      simp only [connectBlock, hcheck, ne_eq, hbest, not_false_eq_true, if_true]

/-- `ConnectBlock` accepts a block other than the genesis block exactly when it
    is admitted, validated, and, unless it is only checked, written. -/
theorem connectBlock_verdict_iff (hgen : ¬ isGenesis env params block) :
    (connectBlock env params idx io fJustCheck a view block).verdict = .ok () ↔
      Admitted env params idx fJustCheck view block ∧
        (∃ p, validateBlock env params idx io fJustCheck (initAuthorities params idx a) view
          block = .ok p) ∧ (fJustCheck = false → writeIndexes io = .ok ()) := by
  by_cases hadm : Admitted env params idx fJustCheck view block
  · rw [connectBlock_of_admitted hadm]
    cases validateBlock env params idx io fJustCheck (initAuthorities params idx a) view block with
    | error e => simp [connectValidated]
    | ok p =>
      cases fJustCheck <;> cases hio : writeIndexes io <;> simp [connectValidated, hadm, hio]
  · obtain ⟨e, he⟩ : ∃ e, connectBlock env params idx io fJustCheck a view block =
        ⟨.error e, a, view, none⟩ := connectBlock_of_not_admitted hgen hadm
    rw [he]
    simp [hadm]

/-- An admitted and valid block whose writes succeed is accepted. -/
theorem accepted_of_validated {p : Pending} (hadm : Admitted env params idx fJustCheck view block)
    (hp : validateBlock env params idx io fJustCheck (initAuthorities params idx a) view block =
      .ok p)
    (hio : fJustCheck = false → writeIndexes io = .ok ()) :
    ∃ s, Accepted env params idx io fJustCheck a view block s p ∧
      RulesPassed env params idx block s := by
  obtain ⟨s, hs, hrules⟩ := validateBlock_eq_ok.mp hp
  have hresult : connectBlock env params idx io fJustCheck a view block =
      connectValidated idx io fJustCheck (initAuthorities params idx a) view (.ok p) := by
    rw [connectBlock_of_admitted hadm, hp]
  refine ⟨s, ⟨hadm.checked, hadm.bestBlock, hadm.bip30, hs, ?_, ?_, ?_⟩, hrules⟩ <;>
    rw [hresult] <;> cases fJustCheck <;>
    simp [connectValidated, hio, hs.view_eq, hs.blockundo_eq]

section

variable (h : (connectBlock env params idx io fJustCheck a view block).verdict = .ok ())
  (hgen : ¬ isGenesis env params block)
include h hgen

theorem connectBlock_accepted_rules :
    ∃ s p, Accepted env params idx io fJustCheck a view block s p ∧
      RulesPassed env params idx block s := by
  obtain ⟨hadm, ⟨p, hp⟩, hio⟩ := (connectBlock_verdict_iff hgen).mp h
  obtain ⟨s, hs⟩ := accepted_of_validated hadm hp hio
  exact ⟨s, p, hs⟩

theorem connectBlock_accepted : ∃ s p, Accepted env params idx io fJustCheck a view block s p := by
  obtain ⟨s, p, hs, -⟩ := connectBlock_accepted_rules h hgen
  exact ⟨s, p, hs⟩

end

/-! ## The block by itself -/

/-- A checked block has one coinbase, in front. -/
theorem checkBlock_shape {fCheck : Bool} (h : checkBlock env block fCheck = .ok ()) :
    ∃ coinbase txs, block.vtx = coinbase :: txs ∧ coinbase.isCoinBase ∧
      ∀ tx ∈ txs, tx.isCoinBase = false := by
  replace h := after_require h
  replace h := after_require h
  replace h := after_require h
  replace h := after_require h
  obtain ⟨_, hpos, -⟩ := bind_eq_ok.mp h
  cases hvtx : block.vtx with
  | nil =>
    rw [hvtx] at hpos
    exact nomatch hpos
  | cons coinbase txs =>
    rw [hvtx] at hpos
    obtain ⟨hcb, hrest⟩ := require_bind_eq_ok.mp hpos
    refine ⟨coinbase, txs, rfl, hcb, fun tx htx => ?_⟩
    have hall := List.all_eq_true.mp (require_eq_ok.mp hrest) tx htx
    rwa [Bool.not_eq_true'] at hall

/-- `CheckBlock` checks every transaction. -/
theorem checkBlock_checkTransaction {fCheck : Bool} (h : checkBlock env block fCheck = .ok ()) :
    ∀ tx ∈ block.vtx, checkTransaction tx = .ok () := by
  replace h := after_require h
  replace h := after_require h
  replace h := after_require h
  replace h := after_require h
  obtain ⟨_, -, h⟩ := bind_eq_ok.mp h
  obtain ⟨_, htxs, -⟩ := bind_eq_ok.mp h
  exact forM_eq_ok.mp htxs

/-- BIP30 is in force on every block: no network has a `BIP34Hash` that is the hash of a block. -/
theorem checkBIP30_fresh (h : checkBIP30 env params idx view block.vtx = .ok ()) :
    ∀ tx ∈ block.vtx, (view.record (env.getHash tx)).isPruned := by
  have henforced : decide (idx.bip34Ancestor = some (params.getConsensus 0).BIP34Hash) = false := by
    rw [params.bip34Hash_null, decide_eq_false_iff_not]
    exact idx.bip34Ancestor_ne
  have hall := require_eq_ok.mp (skipIf_eq_ok.mp h henforced)
  exact List.all_eq_true.mp hall

/-! ## The first pass -/

/-- A chain of connected transactions: each one's inputs passed `CheckInputs`
    against the view it met, and `UpdateCoins` made the next view.  The last
    argument collects the script checks left to run. -/
inductive Connects (env : Env) (params : CChainParams) (idx : CBlockIndex) (a : Assets)
    (fQueue : Bool) :
    CoinsView → List (CTransaction × CTxUndo) → CoinsView → List CScriptCheck → Prop
  | nil (v : CoinsView) : Connects env params idx a fQueue v [] v []
  | cons {v v₁ v' : CoinsView} {tx : CTransaction} {undo : CTxUndo}
      {rest : List (CTransaction × CTxUndo)} {chk chks : List CScriptCheck}
      (inputs : v.haveInputs tx = true)
      (checked : checkInputs env params a v tx idx.nHeight idx.fScriptChecks
        (blockFlags params idx) fQueue = .ok chk)
      (updated : updateCoins env v tx idx.nHeight = .ok (v₁, undo))
      (later : Connects env params idx a fQueue v₁ rest v' chks) :
      Connects env params idx a fQueue v ((tx, undo) :: rest) v' (chk ++ chks)

/-- What a transaction of the first loop has passed. -/
theorem connectTx_eq_ok {s t : FirstPass} (h : connectTx env params idx a fQueue s tx = .ok t) :
    ∃ chk undo, s.view.haveInputs tx ∧
      checkInputs env params a s.view tx idx.nHeight idx.fScriptChecks (blockFlags params idx)
        fQueue = .ok chk ∧
      updateCoins env s.view tx idx.nHeight = .ok (t.view, undo) ∧
      t.undos = s.undos ++ [undo] ∧ t.checks = s.checks ++ chk := by
  obtain ⟨hin, h⟩ := require_bind_eq_ok.mp h
  replace h := after_require h
  replace h := after_require h
  obtain ⟨chk, hchk, h⟩ := bind_eq_ok.mp h
  obtain ⟨⟨v, undo⟩, hup, h⟩ := bind_eq_ok.mp h
  obtain rfl := Except.ok.inj h
  exact ⟨chk, undo, hin, hchk, hup, rfl, rfl⟩

/-- The first loop, as a chain of connected transactions. -/
theorem foldlM_connectTx :
    ∀ {vtx : List CTransaction} {s t : FirstPass},
      vtx.foldlM (connectTx env params idx a fQueue) s = .ok t →
      ∃ undos chks, t.undos = s.undos ++ undos ∧ undos.length = vtx.length ∧
        t.checks = s.checks ++ chks ∧
        Connects env params idx a fQueue s.view (vtx.zip undos) t.view chks := by
  intro vtx
  induction vtx with
  | nil =>
    intro s t h
    obtain rfl := foldlM_nil_eq_ok.mp h
    exact ⟨[], [], (List.append_nil _).symm, rfl, (List.append_nil _).symm, .nil _⟩
  | cons tx rest ih =>
    intro s t h
    obtain ⟨m, hm, hrest⟩ := foldlM_cons_eq_ok.mp h
    obtain ⟨chk, undo, hin, hchk, hup, hundos, hchecks⟩ := connectTx_eq_ok hm
    obtain ⟨undos, chks, hu, hlen, hc, hcon⟩ := ih hrest
    refine ⟨undo :: undos, chk ++ chks, ?_, ?_, ?_, ?_⟩
    · rw [hu, hundos, List.append_assoc]
      rfl
    · rw [List.length_cons, hlen, List.length_cons]
    · rw [hc, hchecks, List.append_assoc]
    · exact .cons hin hchk hup hcon

/-- The first loop is a chain of connected transactions. -/
theorem connectTxs_connects {vtx : List CTransaction} {s : FirstPass}
    (h : connectTxs env params idx a fQueue view vtx = .ok s) :
    s.undos.length = vtx.length ∧
      Connects env params idx a fQueue view (vtx.zip s.undos) s.view s.checks := by
  obtain ⟨undos, chks, hu, hlen, hc, hcon⟩ := foldlM_connectTx h
  rw [List.nil_append] at hu hc
  rw [hu, hc]
  exact ⟨hlen, hcon⟩

/-- Their coins connect as well. -/
theorem Connects.connectCoins {fQueue : Bool} {v v' : CoinsView}
    {txs : List (CTransaction × CTxUndo)} {chks : List CScriptCheck}
    (h : Connects env params idx a fQueue v txs v' chks) :
    connectCoins env idx.nHeight v (txs.map Prod.fst) = .ok (v', txs.map Prod.snd) := by
  induction h with
  | nil v => rfl
  | cons _ _ updated _ ih =>
    exact connectCoins_cons_eq_ok.mpr ⟨_, _, _, updated, ih, rfl⟩

/-! ## Undo data records what was spent -/

theorem output_store (v : CoinsView) (t : Uint256) (c : CCoins) (o : COutPoint) :
    (v.store t c).output o = if o.hash = t then c.outputAt o.n else v.output o := by
  rw [CoinsView.output, CoinsView.record_store]
  by_cases h : o.hash = t
  · rw [if_pos h, if_pos h, CCoins.outputAt_normalize]
  · rw [if_neg h, if_neg h]
    rfl

/-- Spending an outpoint takes that output alone. -/
theorem output_spendOne (v : CoinsView) (o o' : COutPoint) :
    (v.spendOne o).output o' = if o' = o then none else v.output o' := by
  rw [CoinsView.spendOne, output_store]
  have hspend : ((v.record o.hash).spend o.n).outputAt o'.n =
      if o'.n = o.n then none else (v.record o.hash).outputAt o'.n := by
    show entry (trim _) o'.n = _
    rw [entry_trim, entry_set_none]
    rfl
  by_cases hhash : o'.hash = o.hash
  · rw [if_pos hhash, hspend]
    by_cases hn : o'.n = o.n
    · have heq : o' = o := by
        cases o
        cases o'
        cases hhash
        cases hn
        rfl
      rw [if_pos hn, if_pos heq]
    · have hne : o' ≠ o := fun h => hn (by rw [h])
      rw [if_neg hn, if_neg hne, ← hhash]
      rfl
  · have hne : o' ≠ o := fun h => hhash (by rw [h])
    rw [if_neg hhash, if_neg hne]

/-- The notes name the outputs that were spent. -/
theorem spendInputs_txouts :
    ∀ {vin : List CTxIn} {v v' : CoinsView} {undos : CTxUndo},
      spendInputs v vin = .ok (v', undos) →
      undos.map (fun u => some u.txout) = vin.map fun txin => v.output txin.prevout := by
  intro vin
  induction vin with
  | nil =>
    intro v v' undos h
    obtain ⟨_, rfl⟩ := Prod.mk.inj (Except.ok.inj h)
    rfl
  | cons txin rest ih =>
    intro v v' undos h
    obtain ⟨v₁, u, us, h₁, h₂, rfl⟩ := spendInputs_cons_eq_ok.mp h
    obtain ⟨txout, ho, rfl, rfl⟩ := spendInput_eq_ok.mp h₁
    rw [List.map_cons, List.map_cons, undoEntry_txout, ho]
    refine congrArg _ ?_
    have hrest := ih h₂
    -- an output that is there after the first spend was there before it
    have hkeep : ∀ o x, (v.spendOne txin.prevout).output o = some x → v.output o = some x := by
      intro o x hx
      rw [output_spendOne] at hx
      by_cases heq : o = txin.prevout
      · rw [if_pos heq] at hx
        exact nomatch hx
      · rwa [if_neg heq] at hx
    rw [hrest]
    refine List.map_congr_left fun txin' hmem => ?_
    have hmem' : (v.spendOne txin.prevout).output txin'.prevout ∈
        us.map (fun u => some u.txout) := by
      rw [hrest]
      exact List.mem_map_of_mem hmem
    obtain ⟨u', _, hu'⟩ := List.mem_map.mp hmem'
    rw [hkeep _ _ hu'.symm, hu']

theorem spentOutputs_of_spendInputs {v : CoinsView} {undos : CTxUndo}
    (h : spendInputs v tx.vin = .ok (v', undos)) :
    spentOutputs v tx = undos.map CTxInUndo.txout := by
  have hout := congrArg (List.map fun o : Option CTxOut => o.getD default)
    (spendInputs_txouts h)
  rw [List.map_map, List.map_map] at hout
  exact hout.symm

/-- The undo data of a transaction names its inputs and what they spent. -/
theorem undoPrevouts_of_updateCoins {v : CoinsView} {undo : CTxUndo} {nHeight : Int}
    (hcb : tx.isCoinBase = false) (h : updateCoins env v tx nHeight = .ok (v', undo)) :
    undoPrevouts tx (some undo) =
      tx.vin.map fun txin => (txin.prevout, (v.output txin.prevout).getD default) := by
  obtain ⟨v₁, hspend, -, -⟩ := updateCoins_of_not_coinbase hcb h
  have houts := spendInputs_txouts hspend
  rw [undoPrevouts, Option.getD_some]
  clear hspend h hcb
  generalize tx.vin = vin at houts
  induction vin generalizing undo with
  | nil => rfl
  | cons txin vin ih =>
    cases undo with
    | nil => exact nomatch houts
    | cons u us =>
      obtain ⟨hu, hus⟩ := List.cons.inj houts
      have hu' : v.output txin.prevout = some u.txout := hu.symm
      rw [List.zip_cons_cons, List.map_cons, List.map_cons, ih hus, hu']
      rfl

/-! ## The block with its undo data -/

/-- A transaction with its undo data, which the coinbase has none of. -/
def undoPair (p : CTransaction × CTxUndo) : CTransaction × Option CTxUndo :=
  (p.1, if p.1.isCoinBase then none else some p.2)

@[simp] theorem undoPair_fst (p : CTransaction × CTxUndo) : (undoPair p).1 = p.1 := rfl

theorem undoPair_of_not_coinbase (undo : CTxUndo) (hcb : tx.isCoinBase = false) :
    undoPair (tx, undo) = (tx, some undo) := by
  rw [undoPair, hcb, if_neg Bool.false_ne_true]

/-- The two ways to pair a block with its undo data agree: the data written to
    disk leaves out the coinbase. -/
theorem withUndo_tail {coinbase : CTransaction} {txs : List CTransaction} {undos : List CTxUndo}
    (hcb : coinbase.isCoinBase) (hrest : ∀ tx ∈ txs, tx.isCoinBase = false)
    (hlen : undos.length = (coinbase :: txs).length) :
    withUndo (coinbase :: txs) undos.tail = ((coinbase :: txs).zip undos).map undoPair := by
  cases undos with
  | nil => exact nomatch hlen
  | cons u us =>
    have hlen' : us.length = txs.length := Nat.succ.inj hlen
    show (coinbase, none) :: txs.zip (us.map some) =
      undoPair (coinbase, u) :: (txs.zip us).map undoPair
    rw [undoPair, hcb, if_pos rfl]
    refine congrArg _ ?_
    clear hlen hcb
    induction txs generalizing us with
    | nil => rfl
    | cons tx txs ih =>
      cases us with
      | nil => exact nomatch hlen'
      | cons u us =>
        have htx := hrest tx (List.mem_cons_self ..)
        show (tx, some u) :: txs.zip (us.map some) =
          undoPair (tx, u) :: (txs.zip us).map undoPair
        rw [undoPair, htx, if_neg Bool.false_ne_true]
        exact congrArg _ (ih (fun t ht => hrest t (List.mem_cons_of_mem _ ht)) us
          (Nat.succ.inj hlen'))

/-- A transaction of the block with its undo data. -/
theorem zip_at {undos : List CTxUndo} (hlen : undos.length = (pre ++ tx :: post).length) :
    ∃ pre' undo post', (pre ++ tx :: post).zip undos = pre' ++ (tx, undo) :: post' ∧
      pre'.map Prod.fst = pre ∧ post'.map Prod.fst = post := by
  have hfst : ((pre ++ tx :: post).zip undos).map Prod.fst = pre ++ tx :: post :=
    List.map_fst_zip (Nat.le_of_eq hlen.symm)
  obtain ⟨pre', rest, hsplit, hpre, hrest⟩ := List.map_eq_append_iff.mp hfst
  obtain ⟨⟨tx', undo⟩, post', rfl, rfl, hpost⟩ := List.map_eq_cons_iff.mp hrest
  exact ⟨pre', undo, post', hsplit, hpre, hpost⟩

/-- A chain of connected transactions, at one of them. -/
theorem Connects.at {undo : CTxUndo} {post : List (CTransaction × CTxUndo)} :
    ∀ {pre : List (CTransaction × CTxUndo)} {v : CoinsView} {chks : List CScriptCheck},
      Connects env params idx a fQueue v (pre ++ (tx, undo) :: post) v' chks →
      ∃ m n chks₁ chk chks₂, Connects env params idx a fQueue v pre m chks₁ ∧
        m.haveInputs tx ∧
        checkInputs env params a m tx idx.nHeight idx.fScriptChecks (blockFlags params idx)
          fQueue = .ok chk ∧
        updateCoins env m tx idx.nHeight = .ok (n, undo) ∧
        Connects env params idx a fQueue n post v' chks₂ ∧ chks = chks₁ ++ (chk ++ chks₂) := by
  intro pre
  induction pre with
  | nil =>
    intro v chks h
    cases h with
    | cons inputs checked updated later =>
      exact ⟨_, _, _, _, _, .nil _, inputs, checked, updated, later, rfl⟩
  | cons p pre ih =>
    intro v chks h
    cases h with
    | cons inputs checked updated later =>
      obtain ⟨m, n, chks₁, chk, chks₂, h₁, hin, hchk, hup, h₂, rfl⟩ := ih later
      exact ⟨m, n, _, chk, chks₂, .cons inputs checked updated h₁, hin, hchk, hup, h₂,
        (List.append_assoc ..).symm⟩

/-- The coins view after the transactions of a block. -/
def blockView (env : Env) (nHeight : Int) (view : CoinsView) (vtx : List CTransaction) :
    CoinsView :=
  match connectCoins env nHeight view vtx with
  | .ok (v, _) => v
  | .error _ => view

namespace Accepted

variable {s : FirstPass} {p : Pending}

section

variable (h : Accepted env params idx io fJustCheck a view block s p)
include h

theorem undos_length : s.undos.length = block.vtx.length :=
  (connectTxs_connects h.validated.firstPass).1

theorem connects :
    Connects env params idx (initAuthorities params idx a) io.scriptThreads view
      (block.vtx.zip s.undos) s.view s.checks :=
  (connectTxs_connects h.validated.firstPass).2

theorem connectCoins_eq : connectCoins env idx.nHeight view block.vtx = .ok (s.view, s.undos) := by
  have hcon := h.connects.connectCoins
  rwa [List.map_fst_zip (Nat.le_of_eq h.undos_length.symm),
    List.map_snd_zip (Nat.le_of_eq h.undos_length)] at hcon

theorem blockView_eq : blockView env idx.nHeight view block.vtx = s.view := by
  rw [blockView, h.connectCoins_eq]

theorem withUndo_eq : withUndo block.vtx s.undos.tail = (block.vtx.zip s.undos).map undoPair := by
  obtain ⟨coinbase, txs, hvtx, hcb, hrest⟩ := checkBlock_shape h.checked
  have hlen := h.undos_length
  rw [hvtx] at hlen ⊢
  exact withUndo_tail hcb hrest hlen

/-- An accepted block, stopped at one of its transactions: the view it met, the
    checks of its inputs, and its undo data. -/
theorem at_tx (hvtx : block.vtx = pre ++ tx :: post) :
    ∃ pre' undo post' v chk, block.vtx.zip s.undos = pre' ++ (tx, undo) :: post' ∧
      pre'.map Prod.fst = pre ∧ (blockView env idx.nHeight view pre).haveInputs tx ∧
      checkInputs env params (initAuthorities params idx a) (blockView env idx.nHeight view pre)
        tx idx.nHeight idx.fScriptChecks (blockFlags params idx) io.scriptThreads = .ok chk ∧
      (∀ x ∈ chk, x ∈ s.checks) ∧
      updateCoins env (blockView env idx.nHeight view pre) tx idx.nHeight = .ok (v, undo) := by
  have hlen := h.undos_length
  have hcon := h.connects
  rw [hvtx] at hlen
  obtain ⟨pre', undo, post', hzip, hpre, -⟩ := zip_at hlen
  rw [hvtx, hzip] at hcon
  obtain ⟨m, n, chks₁, chk, chks₂, h₁, hin, hchk, hup, -, hchks⟩ := hcon.at
  have hview : blockView env idx.nHeight view pre = m := by
    rw [blockView, ← hpre, h₁.connectCoins]
  rw [hview]
  refine ⟨pre', undo, post', n, chk, by rw [hvtx, hzip], hpre, hin, hchk, fun x hx => ?_, hup⟩
  rw [hchks]
  exact List.mem_append_right _ (List.mem_append_left _ hx)

end

end Accepted

theorem map_fst_zip_undos {s : FirstPass} {p : Pending}
    (h : Accepted env params idx io fJustCheck a view block s p) :
    (block.vtx.zip s.undos).map Prod.fst = block.vtx :=
  List.map_fst_zip (Nat.le_of_eq h.undos_length.symm)

end Soqucoin
