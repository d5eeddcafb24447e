import Soqucoin.CoinbaseCommitment
import Soqucoin.OutputLifeProofs
import Soqucoin.QuietBlockProofs

/-! # The PAT attestation — producer and validator collect the same batch

The producer looks prevouts up in a map of the whole block and then at the tip; the validator
reads them from a view that each transaction changes.  Where ids identify outputs, the two agree
on every input that the view has when its turn comes (`blockLookup_of_resolves`).  The coinbase is
the exception: writing the commitment into it changes its id, so the producer finds what the
validator does not. -/

namespace Soqucoin

open CheckedLoop

section Agreement

variable {env : Env} {nHeight : Int} {view v w : CoinsView} {txs : List CTransaction}
variable {coinbase coinbase' tx : CTransaction} {block : CBlock} {rules : WitnessRules}

/-! ## The validator -/

/-- What the validator collects from a list of transactions, each on the view it meets. -/
def validatorBatch (env : Env) (nHeight : Int) :
    CoinsView → List CTransaction → List (Bytes × Bytes × Bytes)
  | _, [] => []
  | v, tx :: vtx =>
    appendTuples env v tx ++ validatorBatch env nHeight (afterTx env nHeight v tx) vtx

/-- A transaction adds its own tuples to the batch. -/
theorem connectTx_patBatch {params : CChainParams} {idx : CBlockIndex} {a : Assets} {q : Bool}
    {s t : FirstPass} (h : connectTx env params idx a q s tx = .ok t) :
    t.patBatch = s.patBatch ++ (if idx.fScriptChecks then appendTuples env s.view tx else []) ∧
      t.view = afterTx env idx.nHeight s.view tx := by
  replace h := after_require h
  replace h := after_require h
  replace h := after_require h
  obtain ⟨_, -, h⟩ := bind_eq_ok.mp h
  obtain ⟨⟨v, undo⟩, hup, h⟩ := bind_eq_ok.mp h
  obtain rfl := Except.ok.inj h
  exact ⟨rfl, afterTx_of_updateCoins hup⟩

/-- The first loop collects the tuples that the validator collects. -/
theorem foldlM_connectTx_patBatch {params : CChainParams} {idx : CBlockIndex} {a : Assets}
    {q : Bool} :
    ∀ {vtx : List CTransaction} {s t : FirstPass},
      vtx.foldlM (connectTx env params idx a q) s = .ok t →
      t.patBatch = s.patBatch ++
        (if idx.fScriptChecks then validatorBatch env idx.nHeight s.view vtx else []) := by
  intro vtx
  induction vtx with
  | nil =>
    intro s t h
    obtain rfl := foldlM_nil_eq_ok.mp h
    rw [validatorBatch, ite_self, List.append_nil]
  | cons tx vtx ih =>
    intro s t h
    obtain ⟨m, hm, hrest⟩ := foldlM_cons_eq_ok.mp h
    obtain ⟨hbatch, hview⟩ := connectTx_patBatch hm
    rw [ih hrest, hbatch, hview, validatorBatch]
    cases idx.fScriptChecks <;> simp

/-! ## Where inputs come from -/

/-- The view after these transactions. -/
def viewAfter (env : Env) (nHeight : Int) (v : CoinsView) (vtx : List CTransaction) : CoinsView :=
  vtx.foldl (afterTx env nHeight) v

/-- Every input is in the view that earlier transactions leave. -/
def Resolves (env : Env) (nHeight : Int) (v : CoinsView) (vtx : List CTransaction) : Prop :=
  ∀ pre tx post, vtx = pre ++ tx :: post → (viewAfter env nHeight v pre).haveInputs tx = true

/-- Ids identify outputs: of two transactions of a block with one id, and of the
    coins that the view has under the id of one. -/
structure IdsIdentify (env : Env) (view : CoinsView) (txs : List CTransaction) : Prop where
  inBlock : ∀ t ∈ txs, ∀ t' ∈ txs, env.getHash t = env.getHash t' → t.vout = t'.vout
  onChain : ∀ t ∈ txs, ∀ n out, view.output ⟨env.getHash t, n⟩ = some out → t.vout[n]? = some out

/-- No input spends an output of a transaction with this id. -/
def Avoids (id : Uint256) (txs : List CTransaction) : Prop :=
  ∀ tx ∈ txs, ∀ txin ∈ tx.vin, txin.prevout.hash ≠ id

/-- An output after some transactions was there before, or is created by one. -/
theorem viewAfter_origin {o : COutPoint} {out : CTxOut} :
    ∀ {vtx : List CTransaction} {v : CoinsView}, (viewAfter env nHeight v vtx).output o = some out →
      v.output o = some out ∨ ∃ t ∈ vtx, env.getHash t = o.hash ∧ t.vout[o.n]? = some out := by
  intro vtx
  induction vtx with
  | nil =>
    intro v h
    exact Or.inl h
  | cons tx vtx ih =>
    intro v h
    rcases ih (show (viewAfter env nHeight (afterTx env nHeight v tx) vtx).output o = _ from h)
      with hstart | ⟨t, ht, hid, hvout⟩
    · rw [output_afterTx] at hstart
      split at hstart
      · rename_i hid
        exact Or.inr ⟨tx, List.mem_cons_self, hid.symm, vout_of_createdOutput hstart⟩
      · split at hstart
        · cases hstart
        · exact Or.inl hstart
    · exact Or.inr ⟨t, List.mem_cons_of_mem _ ht, hid, hvout⟩

/-- The producer finds what the validator finds. -/
theorem blockLookup_of_resolves {pre post : List CTransaction} {o : COutPoint} {out : CTxOut}
    (hids : IdsIdentify env view txs) (hsplit : txs = pre ++ post)
    (hcb : o.hash ≠ env.getHash coinbase) (hcb' : o.hash ≠ env.getHash coinbase')
    (h : (viewAfter env nHeight view (coinbase' :: pre)).output o = some out) :
    blockLookup env view (coinbase :: txs) o = some out := by
  have hmem : ∀ t ∈ pre, t ∈ txs := fun t ht => hsplit ▸ List.mem_append_left _ ht
  -- the transaction of the block with that id, if any, has the output
  have hvout : ∀ t ∈ txs, env.getHash t = o.hash → t.vout[o.n]? = some out := by
    intro t ht hid
    rcases viewAfter_origin h with hstart | ⟨t', ht', hid', hvout'⟩
    · exact hids.onChain t ht o.n out (hid ▸ hstart)
    · rcases List.mem_cons.mp ht' with rfl | ht'
      · exact absurd hid'.symm hcb'
      · rw [hids.inBlock t ht t' (hmem t' ht') (hid.trans hid'.symm)]
        exact hvout'
  rw [blockLookup]
  cases hfind : (coinbase :: txs).reverse.find? fun t => env.getHash t = o.hash with
  | some t =>
    have hid := List.find?_some hfind
    rw [decide_eq_true_eq] at hid
    rcases List.mem_cons.mp (List.mem_reverse.mp (List.mem_of_find?_eq_some hfind)) with rfl | ht
    · exact absurd hid.symm hcb
    · exact hvout t ht hid
  | none =>
    rcases viewAfter_origin h with hstart | ⟨t', ht', hid', -⟩
    · exact hstart
    · rcases List.mem_cons.mp ht' with rfl | ht'
      · exact absurd hid'.symm hcb'
      · have hnone := List.find?_eq_none.mp hfind t'
          (List.mem_reverse.mpr (List.mem_cons_of_mem _ (hmem t' ht')))
        exact absurd (decide_eq_true hid') hnone

/-- Where the lookups agree, so do the tuples. -/
theorem appendTuplesWith_eq {lookup : COutPoint → Option CTxOut}
    (h : tx.isCoinBase = false → ∀ txin ∈ tx.vin, lookup txin.prevout = v.output txin.prevout) :
    appendTuplesWith env lookup tx = appendTuples env v tx := by
  rw [appendTuples, appendTuplesWith, appendTuplesWith]
  cases hcb : tx.isCoinBase with
  | true => rfl
  | false =>
    rw [if_neg Bool.false_ne_true, if_neg Bool.false_ne_true]
    refine List.filterMap_congr fun ⟨txin, nIn⟩ hp => ?_
    have hlookup := h hcb txin (List.fst_mem_of_mem_zipIdx hp)
    dsimp only
    generalize lookup txin.prevout = o at hlookup ⊢
    subst hlookup
    rfl

/-- **The batches agree**, tuple for tuple and in order. -/
theorem collectBatch_eq_validatorBatch (hids : IdsIdentify env view txs)
    (hcb : coinbase'.isCoinBase) (hres : Resolves env nHeight view (coinbase' :: txs))
    (havoid : Avoids (env.getHash coinbase) txs) (havoid' : Avoids (env.getHash coinbase') txs) :
    collectBatch env (blockLookup env view (coinbase :: txs)) (coinbase :: txs) =
      validatorBatch env nHeight view (coinbase' :: txs) := by
  -- by induction on what is left of the block, with the view the rest has left
  have hrest : ∀ post pre, txs = pre ++ post →
      post.flatMap (appendTuplesWith env (blockLookup env view (coinbase :: txs))) =
        validatorBatch env nHeight (viewAfter env nHeight view (coinbase' :: pre)) post := by
    intro post
    induction post with
    | nil =>
      intro pre _
      rfl
    | cons tx post ih =>
      intro pre hsplit
      have htx : tx ∈ txs := hsplit ▸ List.mem_append_right _ List.mem_cons_self
      have hhave := hres (coinbase' :: pre) tx post (by rw [hsplit]; rfl)
      rw [List.flatMap_cons, validatorBatch]
      refine congrArg₂ (· ++ ·) (appendTuplesWith_eq fun hspends txin htxin => ?_) ?_
      · rw [CoinsView.haveInputs, hspends, Bool.false_or, List.all_eq_true] at hhave
        obtain ⟨out, hout⟩ := Option.isSome_iff_exists.mp (hhave txin htxin)
        rw [hout]
        exact blockLookup_of_resolves hids hsplit (havoid tx htx txin htxin)
          (havoid' tx htx txin htxin) hout
      · have hnext := ih (pre ++ [tx]) (by rw [hsplit, List.append_assoc]; rfl)
        rwa [viewAfter, ← List.cons_append, List.foldl_append] at hnext
  rw [collectBatch, validatorBatch, appendTuples, appendTuplesWith, if_pos hcb]
  exact hrest txs [] rfl

/-! ## The coinbase does not matter to the others -/

/-- Two views agree on the outputs of transactions with other ids. -/
def AgreeOff (id id' : Uint256) (v w : CoinsView) : Prop :=
  ∀ o : COutPoint, o.hash ≠ id → o.hash ≠ id' → v.output o = w.output o

theorem AgreeOff.afterTx {id id' : Uint256} (h : AgreeOff id id' v w) (tx : CTransaction) :
    AgreeOff id id' (afterTx env nHeight v tx) (afterTx env nHeight w tx) := by
  intro o ho ho'
  rw [output_afterTx, output_afterTx, h o ho ho']

/-- Views that agree but for two ids do so after the same transactions. -/
theorem AgreeOff.viewAfter {id id' : Uint256} :
    ∀ {vtx : List CTransaction} {v w : CoinsView}, AgreeOff id id' v w →
      AgreeOff id id' (viewAfter env nHeight v vtx) (viewAfter env nHeight w vtx) := by
  intro vtx
  induction vtx with
  | nil =>
    intro v w h
    exact h
  | cons tx vtx ih =>
    intro v w h
    exact ih (h.afterTx tx)

theorem agreeOff_coinbase (hcb : coinbase.isCoinBase) (hcb' : coinbase'.isCoinBase) :
    AgreeOff (env.getHash coinbase) (env.getHash coinbase')
      (Soqucoin.afterTx env nHeight view coinbase)
      (Soqucoin.afterTx env nHeight view coinbase') := by
  intro o ho ho'
  rw [output_afterTx, output_afterTx, if_neg ho, if_neg ho', hcb, hcb']
  simp

/-- Inputs resolve under any coinbase that they do not spend. -/
theorem Resolves.withCoinbase (h : Resolves env nHeight view (coinbase :: txs))
    (hcb : coinbase.isCoinBase) (hcb' : coinbase'.isCoinBase)
    (havoid : Avoids (env.getHash coinbase) txs) (havoid' : Avoids (env.getHash coinbase') txs) :
    Resolves env nHeight view (coinbase' :: txs) := by
  intro pre tx post hsplit
  cases pre with
  | nil =>
    obtain ⟨rfl, -⟩ := List.cons.inj hsplit
    rw [CoinsView.haveInputs, hcb']
    rfl
  | cons c pre =>
    obtain ⟨rfl, htxs⟩ := List.cons.inj hsplit
    have htx : tx ∈ txs := htxs ▸ List.mem_append_right _ List.mem_cons_self
    have hhave := h (coinbase :: pre) tx post (congrArg (coinbase :: ·) htxs)
    have hagree : AgreeOff (env.getHash coinbase) (env.getHash coinbase')
        (Soqucoin.viewAfter env nHeight view (coinbase :: pre))
        (Soqucoin.viewAfter env nHeight view (coinbase' :: pre)) :=
      (agreeOff_coinbase hcb hcb').viewAfter
    rw [CoinsView.haveInputs, Bool.or_eq_true, List.all_eq_true] at hhave ⊢
    refine hhave.imp_right fun hall txin htxin => ?_
    have hin := hall txin htxin
    rwa [CoinsView.isAvailable, hagree _ (havoid tx htx txin htxin)
      (havoid' tx htx txin htxin)] at hin

/-! ## The commitment -/

/-- A commitment is read under its own magic. -/
theorem parseCommitment_commitmentScript (m₀ m₁ n₀ n₁ : UInt8) (hash : Uint256) :
    parseCommitment m₀ m₁ (commitmentScript n₀ n₁ hash) =
      if n₀ = m₀ ∧ n₁ = m₁ then some hash else none := by
  have hlen : (commitmentScript n₀ n₁ hash).length = 36 := by
    rw [commitmentScript, List.length_append, hash.size_eq]
    rfl
  have hslice : Uint256.ofSlice (commitmentScript n₀ n₁ hash) 4 = hash := by
    have hbytes : ((commitmentScript n₀ n₁ hash).drop 4).take 32 = hash.bytes :=
      List.take_of_length_le (le_of_eq hash.size_eq)
    simp only [Uint256.ofSlice, hbytes, hash.size_eq, dif_pos]
  rw [parseCommitment, hlen, hslice]
  simp [commitmentScript]

theorem parsePatCommitment_witness (bytes : Bytes) :
    parsePatCommitment ([OP_RETURN, 0x24, 0xaa, 0x21, 0xa9, 0xed] ++ bytes) = none := by
  rw [parsePatCommitment, parseCommitment]
  simp

theorem patCommitments_addOutput (o : CTxOut) (tx : CTransaction) :
    patCommitments (tx.addOutput o) =
      patCommitments tx ++ (parsePatCommitment o.scriptPubKey).toList := by
  rw [patCommitments, CTransaction.addOutput, List.filterMap_append, patCommitments]
  cases h : parsePatCommitment o.scriptPubKey <;> simp [h]

theorem patCommitments_setNonce (tx : CTransaction) :
    patCommitments tx.setNonce = patCommitments tx := by
  rw [CTransaction.setNonce]
  cases tx.vin <;> rfl

@[simp] theorem isCoinBase_setNonce (tx : CTransaction) :
    tx.setNonce.isCoinBase = tx.isCoinBase := by
  obtain ⟨nVersion, vin, vout, nLockTime⟩ := tx
  match vin with
  | [] => rfl
  | [_] => rfl
  | _ :: _ :: _ => rfl

/-- The same coinbase but for commitments other than PAT ones, and its witness. -/
structure Prepared (tx tx' : CTransaction) : Prop where
  isCoinBase : tx'.isCoinBase = tx.isCoinBase
  commitments : patCommitments tx' = patCommitments tx

theorem Prepared.refl (tx : CTransaction) : Prepared tx tx := ⟨rfl, rfl⟩

theorem Prepared.trans {t u : CTransaction} (h : Prepared tx t) (h' : Prepared t u) :
    Prepared tx u :=
  ⟨h'.isCoinBase.trans h.isCoinBase, h'.commitments.trans h.commitments⟩

theorem prepared_addOutput {o : CTxOut} (h : parsePatCommitment o.scriptPubKey = none)
    (tx : CTransaction) : Prepared tx (tx.addOutput o) :=
  ⟨rfl, by rw [patCommitments_addOutput, h, Option.toList_none, List.append_nil]⟩

theorem prepared_setNonce (tx : CTransaction) : Prepared tx tx.setNonce :=
  ⟨isCoinBase_setNonce tx, patCommitments_setNonce tx⟩

theorem mapCoinbase_vtx {f : CTransaction → CTransaction} (h : block.vtx = coinbase :: txs) :
    (block.mapCoinbase f).vtx = f coinbase :: txs := by
  rw [CBlock.mapCoinbase, h]

/-- What comes before the PAT commitment changes the coinbase alone. -/
theorem beforePatCommitment_vtx (env : Env) (rules : WitnessRules)
    (h : block.vtx = coinbase :: txs) :
    ∃ prepared, (beforePatCommitment env rules block).vtx = prepared :: txs ∧
      Prepared coinbase prepared := by
  have hwitness : ∃ c, (addWitnessCommitment rules block).vtx = c :: txs ∧ Prepared coinbase c := by
    rw [addWitnessCommitment]
    split
    · refine ⟨_, mapCoinbase_vtx h, (prepared_addOutput ?_ _).trans (prepared_setNonce _)⟩
      exact parsePatCommitment_witness _
    · exact ⟨coinbase, h, .refl _⟩
  obtain ⟨c, hc, hprepared⟩ := hwitness
  rw [beforePatCommitment, addLatticeFoldCommitment]
  split
  · exact ⟨c, hc, hprepared⟩
  · split
    · exact ⟨c, hc, hprepared⟩
    · refine ⟨_, mapCoinbase_vtx hc, hprepared.trans (prepared_addOutput ?_ _)⟩
      exact parseCommitment_commitmentScript ..

/-- The coinbase that leaves the producer carries the attestation of the batch
    it has collected, and no other. -/
theorem generateCoinbaseCommitment_vtx (env : Env) (rules : WitnessRules) (view : CoinsView)
    (h : block.vtx = coinbase :: txs) (hnone : patCommitments coinbase = []) :
    ∃ prepared coinbase', (beforePatCommitment env rules block).vtx = prepared :: txs ∧
      (generateCoinbaseCommitment env rules view block).vtx = coinbase' :: txs ∧
      prepared.isCoinBase = coinbase.isCoinBase ∧ coinbase'.isCoinBase = coinbase.isCoinBase ∧
      patCommitments coinbase' = (blockAttestation env
        (collectBatch env (blockLookup env view (prepared :: txs)) (prepared :: txs))).toList := by
  obtain ⟨prepared, hvtx, hprepared⟩ := beforePatCommitment_vtx env rules h
  have hnone' := hprepared.commitments.trans hnone
  have hpat : ∃ c, (addPatCommitment env view (beforePatCommitment env rules block)).vtx =
      c :: txs ∧
      c.isCoinBase = prepared.isCoinBase ∧
      patCommitments c = (blockAttestation env
        (collectBatch env (blockLookup env view (prepared :: txs)) (prepared :: txs))).toList := by
    rw [addPatCommitment, hvtx, List.headD_cons, hnone']
    cases txs with
    | nil => exact ⟨prepared, hvtx, rfl, hnone'⟩
    | cons tx rest =>
      rw [if_neg (by simp)]
      cases blockAttestation env (collectBatch env (blockLookup env view
        (prepared :: tx :: rest)) (prepared :: tx :: rest)) with
      | none => exact ⟨prepared, hvtx, rfl, hnone'⟩
      | some attestation =>
        refine ⟨_, mapCoinbase_vtx hvtx, rfl, ?_⟩
        rw [patCommitments_addOutput, hnone', parsePatCommitment,
          parseCommitment_commitmentScript, if_pos ⟨rfl, rfl⟩]
        rfl
  obtain ⟨c, hc, hcb, hcommit⟩ := hpat
  rw [generateCoinbaseCommitment, updateUncommittedBlockStructures]
  split
  · refine ⟨prepared, _, hvtx, mapCoinbase_vtx hc, hprepared.isCoinBase, ?_, ?_⟩
    · rw [isCoinBase_setNonce, hcb, hprepared.isCoinBase]
    · rw [patCommitments_setNonce, hcommit]
  · exact ⟨prepared, c, hvtx, hc, hprepared.isCoinBase, hcb.trans hprepared.isCoinBase, hcommit⟩

/-- A commitment to the batch passes the check. -/
theorem checkPatCommitment_of_attestation {consensus : Consensus} {idx : CBlockIndex}
    {batch : List (Bytes × Bytes × Bytes)}
    (h : patCommitments (block.vtx.headD default) = (blockAttestation env batch).toList) :
    checkPatCommitment env consensus idx block batch = .ok () := by
  rw [checkPatCommitment, skipIf_eq_ok]
  intro _
  rw [patCommitments, blockAttestation] at h
  simp only [h]
  cases hatt : (if batch.isEmpty = true then none else env.computeBlockAttestation batch) with
  | none => rfl
  | some attestation => exact require_eq_ok.mpr (decide_eq_true rfl)

/-- **Producer and validator agree on the PAT attestation.**  For every view and
    every block without a PAT commitment whose inputs all resolve and spend no
    output of the block's own coinbase: the batch that the producer collects is,
    tuple for tuple and in order, the one that the validator collects, and the
    produced block passes the attestation rule at every mandatory height. -/
theorem pat_producer_validator_agree (env : Env) (rules : WitnessRules) (view : CoinsView)
    (nHeight : Int) (block : CBlock) (coinbase : CTransaction) (txs : List CTransaction)
    (hvtx : block.vtx = coinbase :: txs) (hcb : coinbase.isCoinBase = true)
    (hnone : patCommitments coinbase = []) (hids : IdsIdentify env view txs)
    (hres : Resolves env nHeight view block.vtx)
    (havoid : ∀ b ∈ [block, beforePatCommitment env rules block,
      generateCoinbaseCommitment env rules view block],
      Avoids (env.getHash (b.vtx.headD default)) txs) :
    let produced := generateCoinbaseCommitment env rules view block
    let prepared := (beforePatCommitment env rules block).vtx
    collectBatch env (blockLookup env view prepared) prepared =
        validatorBatch env nHeight view produced.vtx ∧
      (∀ consensus idx, checkPatCommitment env consensus idx produced
        (validatorBatch env nHeight view produced.vtx) = .ok ()) ∧
      ∀ params idx a fQueue s, idx.nHeight = nHeight →
        connectTxs env params idx a fQueue view produced.vtx = .ok s →
        checkPatCommitment env (params.getConsensus nHeight) idx produced s.patBatch = .ok () := by
  obtain ⟨prepared, coinbase', hprepared, hproduced, hcb₀, hcb', hcommit⟩ :=
    generateCoinbaseCommitment_vtx env rules view hvtx hnone
  simp only [List.forall_mem_cons, hvtx, hprepared, hproduced, List.headD_cons] at havoid
  obtain ⟨havoid, havoid₀, havoid', -⟩ := havoid
  rw [hvtx] at hres
  have hbatch := collectBatch_eq_validatorBatch hids (hcb'.trans hcb)
    (hres.withCoinbase hcb (hcb'.trans hcb) havoid havoid') havoid₀ havoid'
  have hpasses : ∀ consensus idx, checkPatCommitment env consensus idx
      (generateCoinbaseCommitment env rules view block)
      (validatorBatch env nHeight view (coinbase' :: txs)) = .ok () := by
    intro consensus idx
    refine checkPatCommitment_of_attestation ?_
    rw [hproduced, List.headD_cons, hcommit, hbatch]
  simp only [hprepared, hproduced]
  refine ⟨hbatch, hpasses, ?_⟩
  intro params idx a fQueue s hheight hpass
  have hpat := foldlM_connectTx_patBatch hpass
  rw [List.nil_append, hheight] at hpat
  rw [hpat]
  cases hchecks : idx.fScriptChecks with
  | true => exact hpasses _ idx
  | false =>
    rw [checkPatCommitment, hchecks]
    rfl

end Agreement

namespace Sample

/-- Ids that change with every output, and an attestation of any batch. -/
def patEnv : Env :=
  { env sameByte with
    hashTx := fun tx => Uint256.fill (UInt8.ofNat (tx.nLockTime + 100 * tx.vout.length))
    computeBlockAttestation := fun _ => some (Uint256.fill 7) }

/-- SegWit is deployed and active, and nothing is hashed. -/
def witnessRules : WitnessRules := ⟨true, true, fun _ => Uint256.null⟩

/-- A coinbase that has its witness commitment. -/
def committedCoinbase : CTransaction :=
  { coinbase 1 with
    vout := [pay OP_1 50,
      ⟨0, [OP_RETURN, 0x24, 0xaa, 0x21, 0xa9, 0xed] ++ List.replicate 32 0⟩] }

/-- A spend with a signature and a key that stand for themselves. -/
def attested (id : UInt8) : CTransaction :=
  transaction 7 [spend id [[1], [2]]] [pay OP_1 50]

/-- A block with such a spend. -/
def patBlock (id : UInt8) : CBlock := ⟨[], [committedCoinbase, attested id]⟩

end Sample

namespace Sample

/-- A spend with a signature and a prefixed key of the sizes of Dilithium. -/
def signedSpend (nLockTime : Nat) (id : UInt8) (nValue : Int) : CTransaction :=
  transaction nLockTime
    [spend id [List.replicate 2420 1 ++ [SIGHASH_ALL], 0 :: List.replicate 1312 1]]
    [pay OP_1 nValue]

/-- The first transaction spends a coin at the tip, the second the output of the first. -/
def chained : List CTransaction := [signedSpend 7 8 900, signedSpend 20 107 800]

/-- A block with both. -/
def chainedBlock : CBlock := ⟨[], committedCoinbase :: chained⟩

theorem idsIdentify_chained : IdsIdentify patEnv usdsoqCoins chained := by
  refine ⟨?_, ?_⟩
  · unfold chained
    decide +kernel
  · intro t ht n out hout
    have hblank : ∀ t ∈ chained, usdsoqCoins.record (patEnv.getHash t) = CCoins.blank := by
      unfold chained
      decide +kernel
    rw [CoinsView.output, hblank t ht] at hout
    cases hout

/-- Every input of the chained block is there at its turn. -/
theorem resolves_chainedBlock : Resolves patEnv 1 usdsoqCoins chainedBlock.vtx := by
  intro pre tx post hsplit
  rcases pre with _ | ⟨t, _ | ⟨t', _ | ⟨t'', pre⟩⟩⟩
  · obtain ⟨rfl, -⟩ := List.cons.inj hsplit
    decide +kernel
  · obtain ⟨rfl, htxs⟩ := List.cons.inj hsplit
    obtain ⟨rfl, -⟩ := List.cons.inj htxs
    decide +kernel
  · obtain ⟨rfl, htxs⟩ := List.cons.inj hsplit
    obtain ⟨rfl, hlast⟩ := List.cons.inj htxs
    obtain ⟨rfl, -⟩ := List.cons.inj hlast
    decide +kernel
  · have hlen := congrArg List.length hsplit
    simp [chainedBlock, chained] at hlen

end Sample

open Sample in
/-- A block with two attested spends, the second of an output of the first: `ConnectBlock`
    accepts it with the commitment that the producer adds. -/
theorem pat_producer_validator_agree_chain :
    let produced := generateCoinbaseCommitment patEnv witnessRules usdsoqCoins chainedBlock
    (connectBlock patEnv params (index 1) io false usdsoqAssets usdsoqCoins produced).verdict =
        .ok () ∧
      (validatorBatch patEnv 1 usdsoqCoins produced.vtx).length = 2 ∧
      patCommitments (produced.vtx.headD default) = [Uint256.fill 7] ∧
      collectBatch patEnv
          (blockLookup patEnv usdsoqCoins
            (beforePatCommitment patEnv witnessRules chainedBlock).vtx)
          (beforePatCommitment patEnv witnessRules chainedBlock).vtx =
        validatorBatch patEnv 1 usdsoqCoins produced.vtx ∧
      checkPatCommitment patEnv consensus (index 1) produced
        (validatorBatch patEnv 1 usdsoqCoins produced.vtx) = .ok () := by
  obtain ⟨hbatch, hpasses, -⟩ := pat_producer_validator_agree patEnv witnessRules usdsoqCoins 1
    chainedBlock committedCoinbase chained rfl (by decide) (by decide +kernel)
    idsIdentify_chained resolves_chainedBlock (by unfold Avoids; decide +kernel)
  exact ⟨by decide +kernel, by decide +kernel, by decide +kernel, hbatch,
    hpasses consensus (index 1)⟩

open Sample in
/-- A transaction that spends the coinbase of its own block: the producer attests
    it, and the commitment changes the id that it spends. -/
theorem pat_coinbase_spend_disagrees :
    let produced := generateCoinbaseCommitment patEnv witnessRules usdsoqCoins (patBlock 201)
    patCommitments committedCoinbase = [] ∧
      (viewAfter patEnv 1 usdsoqCoins [committedCoinbase]).haveInputs (attested 201) = true ∧
      (collectBatch patEnv (blockLookup patEnv usdsoqCoins (patBlock 201).vtx)
        (patBlock 201).vtx).length = 1 ∧
      validatorBatch patEnv 1 usdsoqCoins produced.vtx = [] ∧
      checkPatCommitment patEnv consensus (index 1) produced
        (validatorBatch patEnv 1 usdsoqCoins produced.vtx) =
          .error (.dos 100 "bad-blk-pat-commitment-empty") ∧
      (connectBlock patEnv params (index 1) io true usdsoqAssets usdsoqCoins produced).verdict ≠
        .ok () := by
  decide +kernel

end Soqucoin
