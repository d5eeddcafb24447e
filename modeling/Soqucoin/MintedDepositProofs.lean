import Soqucoin.AuthenticationProofs
import Soqucoin.ChainProofs
import Soqucoin.ConservationProofs
import Soqucoin.FreezeReorgProofs

/-! # Deposits are minted once

A MINT names a Bitcoin deposit.  The pass refuses one that an earlier MINT of the block or the
database has; the commit writes the block's deposits, and disconnection erases them.  So the
database holds the deposits of the chain and each of them has one MINT
(`deposits_minted_once`). -/

namespace Soqucoin

open CheckedLoop

variable {tx : CTransaction} {m : MintPayload}

section Deposits

variable {env : Env} {params : CChainParams} {idx : CBlockIndex} {io : NodeIO}
variable {fJustCheck : Bool} {a : Assets} {view : CoinsView} {block : CBlock} {fp : FirstPass}
  {p : Pending}
variable {c : AssetCtx} {dbMinted : Finset COutPoint}

/-! ## The MINT operations of a chain -/

/-- The MINT operation a transaction carries. -/
def mintOf (tx : CTransaction) : Option MintPayload :=
  if isAuthorityTx isBTCSOQAuthorityMarker tx then (parseBTCSOQAuthorityOp tx).bind mintOpOf
  else none

/-- The MINT operations of a block, while BTCSOQ is active. -/
def Entry.mints (params : CChainParams) (e : Entry) : List MintPayload :=
  if (blockFlags params e.idx).btcsoq then e.block.vtx.filterMap mintOf else []

/-- The deposits they name. -/
def Entry.deposits (params : CChainParams) (e : Entry) : List COutPoint :=
  (e.mints params).map MintPayload.deposit

/-- The deposits the MINT operations of a chain name, one for each of them. -/
def chainDeposits (params : CChainParams) (chain : List Entry) : List COutPoint :=
  chain.flatMap (Entry.deposits params)

section

variable {consensus : Consensus} {nHeight : Int}
  (henf : consensus.nBTCSOQAuthorityEnforcementHeight ≤ nHeight)
include henf

theorem mintOf_eq (tx : CTransaction) :
    (unlessCoinBase (btcsoqOp consensus nHeight) tx).bind mintOpOf = mintOf tx := by
  rw [unlessCoinBase, btcsoqOp, mintOf, isAuthorityTx, decide_eq_true henf, Bool.and_true]
  cases tx.isCoinBase <;> cases hasMarker isBTCSOQAuthorityMarker tx <;> rfl

theorem btcsoqMintOps_eq (vtx : List CTransaction) :
    btcsoqMintOps consensus nHeight vtx = vtx.filterMap mintOf := by
  show (btcsoqOps consensus nHeight vtx).filterMap mintOpOf = _
  rw [btcsoqOps, ← filterMap_unlessCoinBase, List.filterMap_filterMap]
  exact List.filterMap_congr fun tx _ => mintOf_eq henf tx

end

/-! ## Connecting a block -/

/-- The deposits collected so far are different from one another and from those of the database. -/
def DepositsFresh (dbMinted : Finset COutPoint) (deposits : List COutPoint) : Prop :=
  deposits.Nodup ∧ ∀ o ∈ deposits, o ∉ dbMinted

/-- A turn keeps the deposits of a block new and different. -/
theorem DepositsFresh.turn {deposits deposits' : List COutPoint} {mint : Option MintPayload}
    (h : DepositsFresh dbMinted deposits) (hturn : MintTurn dbMinted tx deposits mint deposits') :
    DepositsFresh dbMinted deposits' := by
  rw [hturn.recorded]
  cases mint with
  | none => rwa [Option.toList_none, List.map_nil, List.append_nil]
  | some m =>
    obtain ⟨hnot, hdb⟩ := hturn.fresh m rfl
    rw [Option.toList_some, List.map_cons, List.map_nil]
    refine ⟨List.nodup_append.mpr ⟨h.1, List.nodup_singleton _, ?_⟩, ?_⟩
    · intro o ho o' ho' heq
      rw [List.mem_singleton] at ho'
      exact hnot (ho' ▸ heq ▸ ho)
    · intro o ho
      rcases List.mem_append.mp ho with ho | ho
      · exact h.2 o ho
      · rw [List.mem_singleton.mp ho]
        exact hdb

/-- The deposits an accepted block writes are those of the MINT operations that
    count, all of them fresh. -/
theorem Accepted.mintedDeposits_eq (h : Accepted env params idx io fJustCheck a view block fp p) :
    p.mintedDeposits = (if (blockFlags params idx).btcsoq then
        (btcsoqMintOps (params.getConsensus idx.nHeight) idx.nHeight block.vtx).map
          MintPayload.deposit
      else []) ∧ DepositsFresh a.dbMinted p.mintedDeposits := by
  cases hactive : (blockFlags params idx).btcsoq with
  | false =>
    rw [(h.btcsoq_inactive hactive).2]
    exact ⟨rfl, List.nodup_nil, fun _ ho => (nomatch ho)⟩
  | true =>
    obtain ⟨t, _, hrun, -, -, hp⟩ := h.btcsoq_run hactive
    have hcollect := foldlM_collect (fun s : BTCSOQPass => s.mintedDeposits)
      (fun q => ((unlessCoinBase (btcsoqOp (params.getConsensus idx.nHeight) idx.nHeight)
        q.1).bind mintOpOf).map MintPayload.deposit) _ (fun s q t _ hq => by
        rw [(btcsoqTx_opTurn hq).2.recorded, Option.toList_map]
        rfl) hrun
    have hfresh := foldlM_invariant
      (fun s : BTCSOQPass => DepositsFresh a.dbMinted s.mintedDeposits) _
      (fun s q t _ hq hs => hs.turn (btcsoqTx_opTurn hq).2) hrun
      ⟨List.nodup_nil, fun _ ho => (nomatch ho)⟩
    rw [filterMap_zip_fst h.undos_length (fun tx =>
        ((unlessCoinBase (btcsoqOp (params.getConsensus idx.nHeight) idx.nHeight) tx).bind
          mintOpOf).map MintPayload.deposit),
      ← List.map_filterMap, ← List.filterMap_filterMap, filterMap_unlessCoinBase] at hcollect
    rw [hp]
    exact ⟨hcollect, hfresh⟩

/-- The deposits committed are those of the block's MINT operations. -/
theorem Accepted.mintedDeposits (h : Accepted env params idx io false a view block fp p)
    (henf : (params.getConsensus idx.nHeight).nBTCSOQAuthorityEnforcementHeight ≤ idx.nHeight)
    (blockundo : Option CBlockUndo) :
    p.mintedDeposits = Entry.deposits params ⟨block, idx, blockundo⟩ ∧
      DepositsFresh a.dbMinted p.mintedDeposits := by
  obtain ⟨hdeposits, hfresh⟩ := h.mintedDeposits_eq
  refine ⟨?_, hfresh⟩
  rw [hdeposits, btcsoqMintOps_eq henf, Entry.deposits, Entry.mints]
  split
  · rfl
  · rfl

/-! ## The database holds the deposits of the chain -/

theorem foldl_insert_eq (l : List COutPoint) :
    ∀ s : Finset COutPoint, l.foldl (fun s o => insert o s) s = s ∪ l.toFinset := by
  induction l with
  | nil => intro s; exact (Finset.union_empty s).symm
  | cons o l ih =>
    intro s
    rw [List.foldl_cons, ih, List.toFinset_cons, Finset.insert_union, Finset.union_insert]

theorem foldl_erase_eq (l : List COutPoint) :
    ∀ s : Finset COutPoint, l.foldl (fun s o => s.erase o) s = s \ l.toFinset := by
  induction l with
  | nil => intro s; exact (Finset.sdiff_empty).symm
  | cons o l ih =>
    intro s
    rw [List.foldl_cons, ih, List.toFinset_cons, Finset.sdiff_insert, Finset.erase_sdiff_comm]

/-- A block whose deposits are all recorded already has no MINT. -/
theorem Accepted.no_mints (h : Accepted env params idx io fJustCheck a view block fp p)
    (hactive : (blockFlags params idx).btcsoq)
    (hsame : p.mintedDeposits.foldl (fun s o => insert o s) a.dbMinted ⊆ a.dbMinted) :
    btcsoqMintOps (params.getConsensus idx.nHeight) idx.nHeight block.vtx = [] := by
  obtain ⟨hdeposits, -, hfresh⟩ := h.mintedDeposits_eq
  rw [if_pos hactive] at hdeposits
  refine List.eq_nil_iff_forall_not_mem.mpr fun m hm => ?_
  have hmem : m.deposit ∈ p.mintedDeposits := hdeposits ▸ List.mem_map_of_mem hm
  -- a fresh deposit would be new
  rw [foldl_insert_eq] at hsame
  exact hfresh _ hmem (hsame (Finset.mem_union_right _ (List.mem_toFinset.mpr hmem)))

/-- Every MINT of the chain has its deposit in the database, and no deposit is named twice. -/
structure DepositsRecorded (params : CChainParams) (n : Node) : Prop where
  recorded : n.assets.dbMinted = (chainDeposits params n.chain).toFinset
  distinct : (chainDeposits params n.chain).Nodup

/-- A step keeps the recorded deposits those of the chain. -/
theorem depositsRecorded_step
    (henf : ∀ h, (params.getConsensus h).nBTCSOQAuthorityEnforcementHeight ≤ 0) {n n' : Node}
    (h : Step env params n n') (hstack : CoinStack env n.chain n.view)
    (hn : DepositsRecorded params n) : DepositsRecorded params n' := by
  cases h with
  | connect idx io block height notGenesis accepted =>
    obtain ⟨fp, p, hacc⟩ := connectBlock_accepted accepted notGenesis
    obtain ⟨hp, hfresh⟩ := hacc.mintedDeposits ((henf _).trans (by omega))
      (connectBlock env params idx io false n.assets n.view block).blockundo
    rw [hp, hn.recorded] at hfresh
    constructor
    · rw [hacc.assets_eq, if_neg Bool.false_ne_true]
      show p.mintedDeposits.foldl (fun s o => insert o s) n.assets.dbMinted = _
      rw [foldl_insert_eq, hn.recorded, hp, chainDeposits, chainDeposits, List.flatMap_cons,
        List.toFinset_append, Finset.union_comm]
    · rw [chainDeposits, List.flatMap_cons]
      refine List.nodup_append.mpr ⟨hfresh.1, hn.distinct, fun o ho o' ho' heq => ?_⟩
      exact hfresh.2 o ho (List.mem_toFinset.mpr (heq ▸ ho'))
  | disconnect e rest tip clean =>
    rw [tip] at hstack
    obtain ⟨recorded, distinct⟩ := hn
    rw [tip, chainDeposits, List.flatMap_cons] at recorded distinct
    obtain ⟨-, hrest, hdisjoint⟩ := List.nodup_append.mp distinct
    have hheight := hstack.height_pos.le
    obtain ⟨v, blockundo, -, -, hd⟩ := disconnect_tip hstack clean
    -- the erased deposits are those the block has added
    have herased : (disconnectBlock env params e.idx n.assets n.view e.block
        e.blockundo).assets.dbMinted = n.assets.dbMinted \ (e.deposits params).toFinset := by
      rw [hd.dbMinted, Entry.deposits, Entry.mints]
      split
      · rw [btcsoqMintOps_eq ((henf _).trans hheight), ← foldl_erase_eq, List.foldl_map]
      · exact (Finset.sdiff_empty).symm
    refine ⟨?_, hrest⟩
    rw [herased, recorded, List.toFinset_append]
    refine Finset.union_sdiff_cancel_left ?_
    rw [List.disjoint_toFinset_iff_disjoint]
    exact fun o ho ho' => hdisjoint o ho o ho' rfl

/-! ## What a MINT creates -/

/-- The operation of an authority transaction and the holdings it creates and spends: only a MINT
    creates any, the amount it declares, and only a BURN spends any. -/
structure OperationValues (op : UInt8 × Bytes) (created spent : Int) : Prop where
  mint : 0 < created → op.1 = BTCSOQ_OP_MINT
  burn : 0 < spent → op.1 = BTCSOQ_OP_BURN
  declared : ∀ m ∈ mintOpOf op, created = m.sats
  payload : op.1 = BTCSOQ_OP_MINT → (mintOpOf op).isSome = true

theorem valueOf_singleton {kind : CTxOut → Bool} {outs : List CTxOut} {o : CTxOut}
    (h : outs.filter kind = [o]) : valueOf kind outs = o.nValue := by
  rw [valueOf, h, List.map_cons, List.map_nil, List.sum_cons, List.sum_nil, Int.add_zero]

/-- The values of an authority transaction are those its operation names. -/
theorem Accepted.operationValues (h : Accepted env params idx io false a view block fp p)
    (hactive : (blockFlags params idx).btcsoq)
    (henf : (params.getConsensus idx.nHeight).nBTCSOQAuthorityEnforcementHeight ≤ idx.nHeight)
    {pre post : List CTransaction} (hvtx : block.vtx = pre ++ tx :: post)
    (hauth : isAuthorityTx isBTCSOQAuthorityMarker tx) :
    ∃ op nIn, parseBTCSOQAuthorityOp tx = some op ∧
      HasSizedItem (tx.vin.getD nIn default).scriptWitness ∧
      OperationValues op (valueOf CTxOut.isBTCSOQ tx.vout)
        (valueOf CTxOut.isBTCSOQ (spentOutputs (blockView env idx.nHeight view pre) tx)) := by
  obtain ⟨hcb, hmark⟩ := isAuthorityTx_iff.mp hauth
  obtain ⟨undo, s, t, v, -, hturn, hup⟩ := btcsoq_turn_at h hactive henf hvtx
  have hout := (h.checkedTransaction hvtx).outputs
  have hin := (h.checkedInputs hvtx hcb).inputs
  rw [undoPair_of_not_coinbase undo hcb] at hturn
  obtain ⟨-, hstrict, -⟩ := btcsoqTx_turn hcb hturn
  obtain ⟨op, hop⟩ := hstrict hmark henf
  obtain ⟨nIn, scriptCode, hsigned⟩ := hop.signed
  have hburn := hsigned.burnBound
  have hprevs : (undoPrevouts tx (some undo)).map Prod.snd =
      spentOutputs (blockView env idx.nHeight view pre) tx := by
    rw [undoPrevouts_of_updateCoins hcb hup, List.map_map]
    rfl
  rw [hprevs, hin.sumOf_exact] at hburn
  have hmint := hsigned.mintBound
  rw [hout.sumOf_exact] at hmint
  refine ⟨op, nIn, hsigned.parsed, hsigned.sized, hmint, hburn, ?_, hop.minted⟩
  intro m hm
  obtain ⟨o, hfilter, hvalue⟩ := hop.mint.holding m hm
  rw [valueOf_singleton hfilter, hvalue]

/-- A MINT is an operation of an authority transaction. -/
theorem mintOf_eq_some (h : mintOf tx = some m) :
    isAuthorityTx isBTCSOQAuthorityMarker tx ∧
      ∃ op, parseBTCSOQAuthorityOp tx = some op ∧ mintOpOf op = some m := by
  rw [mintOf] at h
  split at h
  · rename_i hauth
    exact ⟨hauth, Option.bind_eq_some_iff.mp h⟩
  · exact nomatch h

theorem tag_of_mintOpOf {op : UInt8 × Bytes} (h : mintOpOf op = some m) :
    op.1 = BTCSOQ_OP_MINT := by
  rw [mintOpOf] at h
  split at h
  · assumption
  · cases h

/-- A mint creates what its payload says and spends nothing. -/
theorem Accepted.mint_creates (h : Accepted env params idx io false a view block fp p)
    (hactive : (blockFlags params idx).btcsoq)
    (henf : (params.getConsensus idx.nHeight).nBTCSOQAuthorityEnforcementHeight ≤ idx.nHeight)
    {pre post : List CTransaction} (hvtx : block.vtx = pre ++ tx :: post)
    (hm : mintOf tx = some m) :
    valueOf CTxOut.isBTCSOQ tx.vout = m.sats ∧
      valueOf CTxOut.isBTCSOQ (spentOutputs (blockView env idx.nHeight view pre) tx) = 0 := by
  obtain ⟨hauth, op, hparse, hop⟩ := mintOf_eq_some hm
  obtain ⟨op', _, hparse', -, hvalues⟩ := h.operationValues hactive henf hvtx hauth
  obtain rfl : op = op' := Option.some.inj (hparse.symm.trans hparse')
  refine ⟨hvalues.declared m hop, ?_⟩
  have hcb := (isAuthorityTx_iff.mp hauth).1
  have hnonneg : 0 ≤ valueOf CTxOut.isBTCSOQ
      (spentOutputs (blockView env idx.nHeight view pre) tx) :=
    (h.checkedInputs hvtx hcb).inputs.valueOf_nonneg
  -- spending a holding would make it a BURN
  rcases hnonneg.lt_or_eq with hlt | heq
  · have htags : BTCSOQ_OP_MINT = BTCSOQ_OP_BURN :=
      (tag_of_mintOpOf hop).symm.trans (hvalues.burn hlt)
    exact absurd htags (by decide)
  · exact heq.symm

/-- Every MINT of the chain has created the amount it declares, beyond what it
    spent of the coins it met. -/
def MintsExact (env : Env) (params : CChainParams) (chain : List Entry) : Prop :=
  ∀ above e below, chain = above ++ e :: below → (blockFlags params e.idx).btcsoq = true →
    ∀ pre tx post, e.block.vtx = pre ++ tx :: post → ∀ m, mintOf tx = some m →
      valueOf CTxOut.isBTCSOQ tx.vout - valueOf CTxOut.isBTCSOQ
        (spentOutputs (blockView env e.idx.nHeight (chainView env below) pre) tx) = m.sats

/-- A step keeps every mint of the chain exact. -/
theorem mintsExact_step
    (henf : ∀ h, (params.getConsensus h).nBTCSOQAuthorityEnforcementHeight ≤ 0) {n n' : Node}
    (h : Step env params n n') (hstack : CoinStack env n.chain n.view)
    (hn : MintsExact env params n.chain) : MintsExact env params n'.chain := by
  cases h with
  | connect idx io block height notGenesis accepted =>
    obtain ⟨fp, p, hacc⟩ := connectBlock_accepted accepted notGenesis
    intro above e below hchain hactive pre tx post hvtx m hm
    cases above with
    | nil =>
      obtain ⟨rfl, rfl⟩ := List.cons.inj hchain
      obtain ⟨hcreated, hspent⟩ := hacc.mint_creates hactive ((henf _).trans (by omega)) hvtx hm
      rw [← spentOutputs_chainView hstack, hcreated, hspent, Int.sub_zero]
    | cons e' above =>
      exact hn above e below (List.cons.inj hchain).2 hactive pre tx post hvtx m hm
  | disconnect e rest tip clean =>
    intro above e' below hchain
    exact hn (e :: above) e' below (tip.trans (congrArg (e :: ·) hchain))

/-! ## Every reachable node -/

/-- **No deposit is minted twice.**  On every reachable node, under enforcement from height 0, the
    database holds the deposits the MINT operations of the chain name, no two of them name the
    same one, and each has created the amount it declares. -/
theorem deposits_minted_once
    (henf : ∀ h, (params.getConsensus h).nBTCSOQAuthorityEnforcementHeight ≤ 0) {n : Node}
    (hreach : Reachable env params n) :
    n.assets.dbMinted = (chainDeposits params n.chain).toFinset ∧
      (chainDeposits params n.chain).Nodup ∧ MintsExact env params n.chain := by
  have hinv := hreach.invariant
    (P := fun n => CoinStack env n.chain n.view ∧ DepositsRecorded params n ∧
      MintsExact env params n.chain) (fun n hn => ?_)
    fun n n' hstep hn => ⟨coinStack_step hstep hn.1,
      depositsRecorded_step henf hstep hn.1 hn.2.1, mintsExact_step henf hstep hn.1 hn.2.2⟩
  · exact ⟨hinv.2.1.recorded, hinv.2.1.distinct, hinv.2.2⟩
  · obtain ⟨hash, hview⟩ := hn.view
    refine ⟨?_, ⟨?_, ?_⟩, ?_⟩
    · rw [hn.chain, hview]
      exact .nil hash
    · rw [hn.minted, hn.chain]
      rfl
    · rw [hn.chain]
      exact List.nodup_nil
    · intro above e below hchain
      rw [hn.chain] at hchain
      exact absurd hchain.symm (List.append_ne_nil_of_right_ne_nil _ (List.cons_ne_nil _ _))

end Deposits

namespace Sample

/-- An operation that mints a deposit with the first output of an id. -/
def mintOutput (id : UInt8) : CTxOut :=
  ⟨0, [OP_RETURN, 0x4c, 77, BTCSOQ_OP_MINT] ++ List.replicate 32 id ++ [0, 0, 0, 0] ++
    [100, 0, 0, 0, 0, 0, 0, 0] ++ List.replicate 32 0⟩

/-- Two blocks on the start: coins to spend, then the bootstrap transaction, which is a MINT. -/
def mintedOnce : Node :=
  (startNode.connected (env sameByte) params (index 1) io (block 1 [])).connected
    (env sameByte) params (index 2) io
    (block 2 [transaction 10 [spend 1 (authorityWitness BTCSOQ_OP_MINT [1, 2])]
      [pay OP_9 0, pay OP_8 100, mintOutput 3]])

theorem mintedOnce_reachable : Reachable (env sameByte) params mintedOnce := by
  refine ((startNode_reachable _).connected _ _ _ rfl (by decide +kernel)
    (by decide +kernel)).connected _ _ _ rfl (by decide +kernel) ?_
  decide +kernel

end Sample

/-- A chain with one mint. -/
theorem deposits_minted_once_bootstrap :
    chainDeposits Sample.params Sample.mintedOnce.chain = [⟨Uint256.fill 3, 0⟩] ∧
    Sample.mintedOnce.assets.dbMinted =
      (chainDeposits Sample.params Sample.mintedOnce.chain).toFinset ∧
    (chainDeposits Sample.params Sample.mintedOnce.chain).Nodup ∧
    MintsExact (Sample.env Sample.sameByte) Sample.params Sample.mintedOnce.chain :=
  ⟨by decide +kernel, deposits_minted_once (fun _ => le_refl _) Sample.mintedOnce_reachable⟩

end Soqucoin
