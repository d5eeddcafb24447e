import Soqucoin.ChainSelection

/-! # ChainSelectionProofs — what each part of chain selection does

One description per function of the model, for the proofs about runs: what can come of a header,
which blocks an arrival turns into candidates, which of them is the target, and where an
activation step goes. -/

namespace Soqucoin.Selection

open Branch

variable {c : Config} {s s' : State} {p q : BlockRef}

/-! ## Heights, work and forks -/

theorem nHeight_sub (p q : BlockRef) : nHeight p - nHeight q = p.length - q.length := by
  rw [nHeight, nHeight]
  omega

theorem nChainWork_le_of_suffix (h : p <:+ q) : nChainWork p ≤ nChainWork q := by
  obtain ⟨l, rfl⟩ := h
  rw [nChainWork, nChainWork, List.map_append, List.sum_append]
  omega

/-- Every block adds work, so an ancestor with as much is the block itself. -/
theorem eq_of_suffix_of_work_le (h : p <:+ q) (hw : nChainWork q ≤ nChainWork p) : p = q := by
  obtain ⟨l, rfl⟩ := h
  cases l with
  | nil => rfl
  | cons a l =>
    have hpos := a.proof_pos
    rw [nChainWork, nChainWork, List.map_append, List.sum_append, List.map_cons,
      List.sum_cons] at hw
    omega

theorem nChainWork_lt_of_suffix (h : p <:+ q) (hne : p ≠ q) : nChainWork p < nChainWork q :=
  lt_of_not_ge fun hle => hne (eq_of_suffix_of_work_le h hle)

/-- `FindFork` finds the last common block. -/
theorem findFork_eq (tip pindex : BlockRef) : findFork tip pindex = fork tip pindex := by
  rw [findFork]
  by_cases hlt : nHeight tip < nHeight pindex
  · rw [if_pos hlt]
    rw [nHeight, nHeight] at hlt
    by_cases hnull : tip = []
    · subst hnull
      have hnil : ∀ x : BlockRef, fork [] x = [] := fun x =>
        List.suffix_nil.mp (fork_suffix_left [] x)
      rw [hnil, hnil]
    · have hpos : 0 < tip.length := List.length_pos_iff.mpr hnull
      have hanc : getAncestor pindex (nHeight tip) = pindex.drop (pindex.length - tip.length) := by
        rw [getAncestor, if_neg]
        · rw [nHeight_sub, Int.toNat_sub]
        · rw [nHeight, nHeight, Bool.or_eq_true, decide_eq_true_eq, decide_eq_true_eq]
          omega
      rw [hanc]
      apply fork_of_suffix (List.drop_suffix _ _)
      apply List.suffix_of_suffix_length_le (fork_suffix_right tip pindex) (List.drop_suffix _ _)
      have hle := (fork_suffix_left tip pindex).length_le
      rw [List.length_drop]
      omega
  · rw [if_neg hlt]

theorem inChain_iff : inChain p q ↔ q ≠ [] ∧ q <:+ p := by
  rw [inChain, Bool.and_eq_true, decide_eq_true_eq, decide_eq_true_eq]

/-! ## The comparator -/

theorem nChainWork_le_of_not_worse (h : worse c s p q = false) : nChainWork q ≤ nChainWork p := by
  by_contra hlt
  rw [worse, if_neg (by omega), if_pos (by omega)] at h
  exact absurd h.symm Bool.false_ne_true

theorem not_worse_of_work_lt (h : nChainWork q < nChainWork p) : worse c s p q = false := by
  rw [worse, if_pos h]

/-! ## Headers -/

/-- What can come of a header: it is known, refused, refused because it builds on
    a failed block (whose other descendants on the way are then marked), or new. -/
inductive HeaderCase (c : Config) (s : State) (p : BlockRef) : State × Check Unit → Prop
  | known (hmem : p ∈ s.mapBlockIndex) (hok : p = [c.genesis] ∨ (s.entry p).fFailed = false) :
      HeaderCase c s p (s, .ok ())
  | refused (e : Failure) : HeaderCase c s p (s, .error e)
  | marked (failedit : BlockRef) (e : Failure) (hmem : failedit ∈ s.gFailedBlocks)
      (hne : failedit ≠ []) (hanc : failedit <:+ p.tail) (hprev : p.tail ∈ s.mapBlockIndex) :
      HeaderCase c s p (s.markFailed (chainAbove failedit p.tail), .error e)
  | added (hnew : p ∉ s.mapBlockIndex)
      (hprev : p = [c.genesis] ∨ (p.tail ∈ s.mapBlockIndex ∧ checkHorizon c s p.tail = .ok ())) :
      HeaderCase c s p (addToBlockIndex s p, .ok ())

theorem checkHorizon_of_contextual {checks : HeaderChecks}
    (h : contextualCheckBlockHeader c s p checks = .ok ()) : checkHorizon c s p = .ok () := by
  obtain ⟨_, -, h⟩ := CheckedLoop.bind_eq_ok.mp h
  obtain ⟨_, h, -⟩ := CheckedLoop.bind_eq_ok.mp h
  exact h

/-- What a header can do to the state. -/
theorem acceptBlockHeader_cases (c : Config) (s : State) (p : BlockRef) (checks : HeaderChecks) :
    HeaderCase c s p (acceptBlockHeader c s p checks) := by
  rw [acceptBlockHeader]
  by_cases hgen : p = [c.genesis]
  · rw [if_pos hgen]
    by_cases hmem : p ∈ s.mapBlockIndex
    · rw [addToBlockIndex, if_pos hmem]
      exact .known hmem (.inl hgen)
    · exact .added hmem (.inl hgen)
  rw [if_neg hgen]
  by_cases hmem : p ∈ s.mapBlockIndex
  · rw [if_pos hmem]
    cases hfailed : (s.entry p).fFailed with
    | true => exact .refused _
    | false => exact .known hmem (.inr hfailed)
  rw [if_neg hmem]
  cases checks.checkBlockHeader with
  | error e => exact .refused e
  | ok u =>
    by_cases hprev : p.tail ∈ s.mapBlockIndex
    · simp only [hprev, not_true_eq_false, if_false]
      cases hfailed : (s.entry p.tail).fFailed with
      | true => exact .refused _
      | false =>
        cases hctx : contextualCheckBlockHeader c s p.tail checks with
        | error e => exact .refused e
        | ok u =>
          cases hanc : failedAncestor s p.tail with
          | none => exact .added hmem (.inr ⟨hprev, checkHorizon_of_contextual hctx⟩)
          | some failedit =>
            rw [failedAncestor] at hanc
            by_cases hscripts : (s.entry p.tail).fValidScripts = true
            · rw [if_pos hscripts] at hanc
              cases hanc
            · rw [if_neg hscripts] at hanc
              obtain ⟨hne, hsuffix⟩ := inChain_iff.mp (List.find?_some hanc)
              exact .marked failedit _ (List.mem_of_find?_eq_some hanc) hne hsuffix hprev
    · simp only [hprev, not_false_eq_true, if_true]
      exact .refused _

@[simp] theorem addToBlockIndex_chainActive (s : State) (p : BlockRef) :
    (addToBlockIndex s p).chainActive = s.chainActive := by
  rw [addToBlockIndex]
  split <;> rfl

@[simp] theorem addToBlockIndex_candidates (s : State) (p : BlockRef) :
    (addToBlockIndex s p).setBlockIndexCandidates = s.setBlockIndexCandidates := by
  rw [addToBlockIndex]
  split <;> rfl

@[simp] theorem addToBlockIndex_unlinked (s : State) (p : BlockRef) :
    (addToBlockIndex s p).mapBlocksUnlinked = s.mapBlocksUnlinked := by
  rw [addToBlockIndex]
  split <;> rfl

@[simp] theorem addToBlockIndex_held (s : State) (p : BlockRef) :
    (addToBlockIndex s p).pindexMostWork = s.pindexMostWork := by
  rw [addToBlockIndex]
  split <;> rfl

/-- What the arrival of headers leaves alone. -/
structure SameChain (s s' : State) : Prop where
  chainActive : s'.chainActive = s.chainActive
  candidates : s'.setBlockIndexCandidates = s.setBlockIndexCandidates
  unlinked : s'.mapBlocksUnlinked = s.mapBlocksUnlinked
  held : s'.pindexMostWork = s.pindexMostWork

/-- A header moves neither the chain nor the candidates. -/
theorem acceptBlockHeader_sameChain (c : Config) (s : State) (p : BlockRef)
    (checks : HeaderChecks) : SameChain s (acceptBlockHeader c s p checks).1 := by
  have h := acceptBlockHeader_cases c s p checks
  generalize acceptBlockHeader c s p checks = r at h
  cases h with
  | known hmem hok => exact ⟨rfl, rfl, rfl, rfl⟩
  | refused e => exact ⟨rfl, rfl, rfl, rfl⟩
  | marked failedit e hmem hne hanc hprev => exact ⟨rfl, rfl, rfl, rfl⟩
  | added hnew hprev => exact ⟨by simp, by simp, by simp, by simp⟩

/-! ## Block data -/

@[simp] theorem insertCandidate_chainActive (s : State) (p : BlockRef) :
    (s.insertCandidate p).chainActive = s.chainActive := by
  rw [State.insertCandidate]
  split <;> rfl

@[simp] theorem insertCandidate_held (s : State) (p : BlockRef) :
    (s.insertCandidate p).pindexMostWork = s.pindexMostWork := by
  rw [State.insertCandidate]
  split <;> rfl

@[simp] theorem insertCandidate_unlinked (s : State) (p : BlockRef) :
    (s.insertCandidate p).mapBlocksUnlinked = s.mapBlocksUnlinked := by
  rw [State.insertCandidate]
  split <;> rfl

@[simp] theorem mem_insertCandidate :
    q ∈ (s.insertCandidate p).setBlockIndexCandidates ↔ q = p ∨ q ∈ s.setBlockIndexCandidates := by
  rw [State.insertCandidate]
  split
  · rename_i hmem
    exact ⟨.inr, fun h => h.elim (fun he => he ▸ hmem) id⟩
  · exact List.mem_cons

/-- One round of the linking loop: the block, and no other, may become a
    candidate, and only with at least the tip's work. -/
structure Linked (s : State) (p : BlockRef) (s' : State) : Prop where
  chainActive : s'.chainActive = s.chainActive
  held : s'.pindexMostWork = s.pindexMostWork
  unlinked : ∀ q ∈ s'.mapBlocksUnlinked, q ∈ s.mapBlocksUnlinked
  keeps : ∀ q ∈ s.setBlockIndexCandidates, q ∈ s'.setBlockIndexCandidates
  candidates : ∀ q ∈ s'.setBlockIndexCandidates, q ∈ s.setBlockIndexCandidates ∨
    (q = p ∧ nChainWork s.chainActive ≤ nChainWork p)

/-- What linking a block to its chain changes. -/
theorem linkBlock_linked (c : Config) (s : State) (p : BlockRef) :
    Linked s p (linkBlock c s p) := by
  rw [linkBlock]
  split
  · rename_i hbest
    refine ⟨by simp [State.setEntry], by simp [State.setEntry], ?_, ?_, ?_⟩
    · intro q hq
      rw [insertCandidate_unlinked] at hq
      exact List.mem_of_mem_filter hq
    · intro q hq
      exact mem_insertCandidate.mpr (.inr hq)
    · intro q hq
      rcases mem_insertCandidate.mp hq with rfl | hq
      · refine .inr ⟨rfl, ?_⟩
        rcases Bool.or_eq_true _ _ ▸ hbest with hnull | hnot
        · have hnull : s.chainActive = [] := of_decide_eq_true hnull
          rw [hnull]
          exact Nat.zero_le _
        · exact nChainWork_le_of_not_worse (Bool.not_eq_true' _ ▸ hnot)
      · exact .inl hq
  · exact ⟨rfl, rfl, fun q hq => List.mem_of_mem_filter hq, fun q hq => hq,
      fun q hq => .inl hq⟩

/-- The loop turns into candidates only blocks of the queue and blocks that waited
    for one of them, with at least the tip's work. -/
structure LinkedFrom (s : State) (queue : List BlockRef) (s' : State) : Prop where
  chainActive : s'.chainActive = s.chainActive
  held : s'.pindexMostWork = s.pindexMostWork
  keeps : ∀ q ∈ s.setBlockIndexCandidates, q ∈ s'.setBlockIndexCandidates
  candidates : ∀ q ∈ s'.setBlockIndexCandidates, q ∈ s.setBlockIndexCandidates ∨
    (nChainWork s.chainActive ≤ nChainWork q ∧
      (q ∈ queue ∨ (q ∈ s.mapBlocksUnlinked ∧ ∃ p ∈ queue, p <:+ q)))

theorem LinkedFrom.refl (s : State) (queue : List BlockRef) : LinkedFrom s queue s :=
  ⟨rfl, rfl, fun _ hq => hq, fun _ hq => .inl hq⟩

/-- What the loop over waiting descendants changes. -/
theorem linkLoop_candidates (c : Config) (fuel : Nat) (s : State) (queue : List BlockRef) :
    LinkedFrom s queue (linkLoop c fuel s queue) := by
  induction fuel generalizing s queue with
  | zero => exact LinkedFrom.refl s queue
  | succ fuel ih =>
    cases queue with
    | nil => exact LinkedFrom.refl s []
    | cons p queue =>
      have hone := linkBlock_linked c s p
      have hrest := ih (linkBlock c s p)
        (queue ++ s.mapBlocksUnlinked.filter (fun q => q.tail = p))
      refine ⟨hrest.chainActive.trans hone.chainActive, hrest.held.trans hone.held,
        fun q hq => hrest.keeps q (hone.keeps q hq), ?_⟩
      intro q hq
      rcases hrest.candidates q hq with hq | ⟨hwork, hfrom⟩
      · rcases hone.candidates q hq with hq | ⟨rfl, hwork⟩
        · exact .inl hq
        · exact .inr ⟨hwork, .inl List.mem_cons_self⟩
      · rw [hone.chainActive] at hwork
        refine .inr ⟨hwork, ?_⟩
        -- a child that waited for `p` descends from `p`
        have hchild : ∀ x ∈ s.mapBlocksUnlinked.filter (fun q => q.tail = p), p <:+ x := by
          intro x hx
          rw [← of_decide_eq_true (List.mem_filter.mp hx).2]
          exact List.tail_suffix x
        rcases hfrom with hq | ⟨hq, x, hx, hanc⟩
        · rcases List.mem_append.mp hq with hq | hq
          · exact .inl (List.mem_cons_of_mem _ hq)
          · exact .inr ⟨List.mem_of_mem_filter hq, p, List.mem_cons_self, hchild q hq⟩
        · refine .inr ⟨hone.unlinked q hq, ?_⟩
          rcases List.mem_append.mp hx with hx | hx
          · exact ⟨x, List.mem_cons_of_mem _ hx, hanc⟩
          · exact ⟨p, List.mem_cons_self, (hchild x hx).trans hanc⟩

/-- The blocks that the data of `p` lets `ReceivedBlockTransactions` link and that have at least
    the tip's work: `p`, where its parent is linked, and the blocks above it that wait. -/
def connectable (s : State) (p : BlockRef) : List BlockRef :=
  if s.mapBlockIndex.contains p && (s.entry p).fHaveData then []
  else if p.tail = [] ∨ (s.entry p.tail).fChainTx = true then
    (p :: s.mapBlocksUnlinked.filter (fun q => p <:+ q)).filter
      (fun q => nChainWork s.chainActive ≤ nChainWork q)
  else []

/-- What the arrival of block data does to the candidates. -/
structure Arrived (s : State) (p : BlockRef) (s' : State) : Prop where
  chainActive : s'.chainActive = s.chainActive
  held : s'.pindexMostWork = s.pindexMostWork
  keeps : ∀ q ∈ s.setBlockIndexCandidates, q ∈ s'.setBlockIndexCandidates
  candidates : ∀ q ∈ s'.setBlockIndexCandidates, q ∈ s.setBlockIndexCandidates ∨
    q ∈ connectable s p

theorem Arrived.of_sameChain (h : SameChain s s') (p : BlockRef) : Arrived s p s' :=
  ⟨h.chainActive, h.held, fun _ hq => h.candidates ▸ hq, fun _ hq => .inl (h.candidates ▸ hq)⟩

theorem setEntry_entry_of_ne (s : State) (e : IndexEntry) (h : q ≠ p) :
    (s.setEntry p e).entry q = s.entry q := by
  simp [State.setEntry, h]

@[simp] theorem setEntry_entry_self (s : State) (p : BlockRef) (e : IndexEntry) :
    (s.setEntry p e).entry p = e := by
  simp [State.setEntry]

theorem tail_ne (h : p ≠ []) : p.tail ≠ p := by
  intro he
  have hlen := congrArg List.length he
  rw [List.length_tail] at hlen
  have hpos := List.length_pos_iff.mpr h
  omega

/-- A block with its data becomes a candidate together with descendants that waited, unless it waits
    itself. -/
theorem receivedBlockTransactions_linked (c : Config) (s : State) (p : BlockRef) (nFile : Nat) :
    LinkedFrom s [p] (receivedBlockTransactions c s p nFile) ∧
      (p.tail = [] ∨ (s.entry p.tail).fChainTx ∨
        (receivedBlockTransactions c s p nFile).setBlockIndexCandidates =
          s.setBlockIndexCandidates) := by
  rw [receivedBlockTransactions]
  generalize hset : s.setEntry p _ = s₁
  have hfields : s₁.chainActive = s.chainActive ∧ s₁.pindexMostWork = s.pindexMostWork ∧
      s₁.setBlockIndexCandidates = s.setBlockIndexCandidates ∧
      s₁.mapBlocksUnlinked = s.mapBlocksUnlinked := by
    rw [← hset]
    exact ⟨rfl, rfl, rfl, rfl⟩
  obtain ⟨hactive, hheld, hcand, hunlinked⟩ := hfields
  have hrefl : LinkedFrom s [p] s₁ :=
    ⟨hactive, hheld, fun q hq => hcand ▸ hq, fun q hq => .inl (hcand ▸ hq)⟩
  split
  · rename_i hlinked
    constructor
    · have hloop := linkLoop_candidates c (s₁.mapBlocksUnlinked.length + 1) s₁ [p]
      refine ⟨hloop.chainActive.trans hactive, hloop.held.trans hheld,
        fun q hq => hloop.keeps q (hcand ▸ hq), fun q hq => ?_⟩
      have h := hloop.candidates q hq
      rwa [hcand, hactive, hunlinked] at h
    · by_cases hnull : p.tail = []
      · exact .inl hnull
      · refine .inr (.inl ?_)
        rw [Bool.or_eq_true, decide_eq_true_eq] at hlinked
        have hne : p ≠ [] := fun he => hnull (by rw [he]; rfl)
        have htail := hlinked.resolve_left hnull
        rwa [← hset, setEntry_entry_of_ne s _ (tail_ne hne)] at htail
  · split
    · exact ⟨hrefl, .inr (.inr hcand)⟩
    · exact ⟨⟨hactive, hheld, fun q hq => hcand ▸ hq, fun q hq => .inl (hcand ▸ hq)⟩,
        .inr (.inr hcand)⟩

/-- What can come of a block whose header is accepted: nothing, a failure mark, a
    place in a file that is given up again, or its data is recorded. -/
inductive StoreCase (c : Config) (s : State) (p : BlockRef) : State → Prop
  | ignored : StoreCase c s p s
  | failed (hdata : (s.entry p).fHaveData = false) : StoreCase c s p (s.markFailed [p])
  | noSpace (files : BlockFiles) : StoreCase c s p { s with files := files }
  | received (files : BlockFiles) (nFile : Nat) (hdata : (s.entry p).fHaveData = false) :
      StoreCase c s p (receivedBlockTransactions c { s with files := files } p nFile)

/-- What storing a block can do to the state. -/
theorem storeBlock_cases (c : Config) (s : State) (p : BlockRef) (a : BlockArrival) :
    StoreCase c s p (storeBlock c s p a) := by
  rw [storeBlock]
  cases hdata : (s.entry p).fHaveData with
  | true => exact .ignored
  | false =>
    simp only [Bool.false_eq_true, if_false]
    split
    · exact .ignored
    · cases a.checkBlock with
      | error e =>
        dsimp only
        split
        · exact .failed hdata
        · exact .ignored
      | ok u =>
        dsimp only
        split
        · exact .received _ _ hdata
        · exact .noSpace _

/-- The blocks that new data makes candidates. -/
theorem mem_connectable (hdata : ¬(p ∈ s.mapBlockIndex ∧ (s.entry p).fHaveData))
    (hlink : p.tail = [] ∨ (s.entry p.tail).fChainTx) :
    q ∈ connectable s p ↔ nChainWork s.chainActive ≤ nChainWork q ∧
      (q = p ∨ (q ∈ s.mapBlocksUnlinked ∧ p <:+ q)) := by
  have hknown : ¬(s.mapBlockIndex.contains p && (s.entry p).fHaveData) = true := by
    rwa [Bool.and_eq_true, List.contains_iff_mem]
  rw [connectable, if_neg hknown, if_pos hlink, List.mem_filter, List.mem_cons, List.mem_filter,
    decide_eq_true_eq, decide_eq_true_eq, and_comm]

/-- A stored block makes only itself and its descendants candidates. -/
theorem storeBlock_arrived {s₀ : State} (a : BlockArrival) (hsame : SameChain s₀ s)
    (hdata : (s.entry p).fHaveData = false →
      ¬(p ∈ s₀.mapBlockIndex ∧ (s₀.entry p).fHaveData))
    (hlink : p.tail ≠ [] → (s.entry p.tail).fChainTx = (s₀.entry p.tail).fChainTx) :
    Arrived s₀ p (storeBlock c s p a) := by
  have h := storeBlock_cases c s p a
  generalize storeBlock c s p a = s' at h
  cases h with
  | ignored => exact .of_sameChain hsame p
  | failed hno =>
    have h : SameChain s₀ (s.markFailed [p]) :=
      ⟨hsame.chainActive, hsame.candidates, hsame.unlinked, hsame.held⟩
    exact .of_sameChain h p
  | noSpace files =>
    have h : SameChain s₀ { s with files := files } :=
      ⟨hsame.chainActive, hsame.candidates, hsame.unlinked, hsame.held⟩
    exact .of_sameChain h p
  | received files nFile hno =>
    obtain ⟨hfrom, hwhere⟩ := receivedBlockTransactions_linked c { s with files := files } p nFile
    refine ⟨hfrom.chainActive.trans hsame.chainActive, hfrom.held.trans hsame.held,
      fun q hq => hfrom.keeps q (hsame.candidates ▸ hq), fun q hq => ?_⟩
    by_cases hlinked : p.tail = [] ∨ (s₀.entry p.tail).fChainTx = true
    · rcases hfrom.candidates q hq with hq | ⟨hwork, hq⟩
      · exact .inl (hsame.candidates ▸ hq)
      · rw [mem_connectable (hdata hno) hlinked]
        refine .inr ⟨hsame.chainActive ▸ hwork, ?_⟩
        rcases hq with hq | ⟨hq, x, hx, hanc⟩
        · exact .inl (List.mem_singleton.mp hq)
        · rw [List.mem_singleton.mp hx] at hanc
          exact .inr ⟨hsame.unlinked ▸ hq, hanc⟩
    · -- the parent is not linked, so nothing is
      obtain ⟨hnull, hnot⟩ := not_or.mp hlinked
      have hcand := (hwhere.resolve_left hnull).resolve_left (by rw [hlink hnull]; exact hnot)
      rw [hcand] at hq
      exact .inl (hsame.candidates ▸ hq)

/-- An arriving block makes only itself and its descendants candidates. -/
theorem acceptBlock_arrived (c : Config) (s : State) (p : BlockRef) (a : BlockArrival) :
    Arrived s p (acceptBlock c s p a) := by
  have hsame := acceptBlockHeader_sameChain c s p a.header
  have h := acceptBlockHeader_cases c s p a.header
  rw [acceptBlock]
  generalize acceptBlockHeader c s p a.header = r at h hsame
  cases h with
  | known hmem hok =>
    exact storeBlock_arrived a hsame (fun hno hyes => by rw [hyes.2] at hno; cases hno)
      (fun _ => rfl)
  | refused e => exact .of_sameChain hsame p
  | marked failedit e hmem hne hanc hprev => exact .of_sameChain hsame p
  | added hnew hprev =>
    refine storeBlock_arrived a hsame (fun _ hyes => hnew hyes.1) fun hnull => ?_
    have hne : p ≠ [] := fun he => hnull (by rw [he]; rfl)
    rw [addToBlockIndex, if_neg hnew]
    exact congrArg IndexEntry.fChainTx (setEntry_entry_of_ne s {} (tail_ne hne))

variable {l : List BlockRef} {t tip top : BlockRef}

/-! ## The active chain -/

/-- The best of some blocks is one of them. -/
theorem bestOf_mem (h : bestOf c s l = some p) : p ∈ l := by
  induction l generalizing p with
  | nil => cases h
  | cons x rest ih =>
    rw [bestOf] at h
    cases hrest : bestOf c s rest with
    | none =>
      simp only [hrest, Option.some.injEq] at h
      exact h ▸ List.mem_cons_self
    | some y =>
      simp only [hrest] at h
      split at h
      · rw [← Option.some.inj h]
        exact List.mem_cons_of_mem _ (ih hrest)
      · rw [← Option.some.inj h]
        exact List.mem_cons_self

/-- A search may drop candidates; it does not move the chain. -/
structure Searched (s s' : State) : Prop where
  chainActive : s'.chainActive = s.chainActive
  held : s'.pindexMostWork = s.pindexMostWork
  candidates : s'.setBlockIndexCandidates ⊆ s.setBlockIndexCandidates

theorem dropChain_searched (s : State) (p q : BlockRef) : Searched s (dropChain s p q) := by
  rw [dropChain]
  split
  · exact ⟨rfl, rfl, List.filter_subset_self _⟩
  · exact ⟨rfl, rfl, List.filter_subset_self _⟩

/-- The search only drops candidates and marks blocks as failed. -/
theorem findMostWorkLoop_searched (c : Config) (fuel : Nat) (s : State) :
    Searched s (findMostWorkLoop c fuel s).1 := by
  induction fuel generalizing s with
  | zero => exact ⟨rfl, rfl, List.Subset.refl _⟩
  | succ fuel ih =>
    rw [findMostWorkLoop]
    cases bestOf c s s.setBlockIndexCandidates with
    | none => exact ⟨rfl, rfl, List.Subset.refl _⟩
    | some p =>
      dsimp only
      cases firstUnusable s p with
      | none => exact ⟨rfl, rfl, List.Subset.refl _⟩
      | some q =>
        have hdrop := dropChain_searched s p q
        have hrest := ih (dropChain s p q)
        exact ⟨hrest.chainActive.trans hdrop.chainActive, hrest.held.trans hdrop.held,
          List.Subset.trans hrest.candidates hdrop.candidates⟩

/-- The block it finds is the best candidate, and its chain is usable. -/
theorem findMostWorkLoop_some {fuel : Nat} (h : (findMostWorkLoop c fuel s).2 = some p) :
    bestOf c (findMostWorkLoop c fuel s).1
        (findMostWorkLoop c fuel s).1.setBlockIndexCandidates = some p ∧
      firstUnusable (findMostWorkLoop c fuel s).1 p = none := by
  induction fuel generalizing s with
  | zero => cases h
  | succ fuel ih =>
    rw [findMostWorkLoop] at h ⊢
    cases hbest : bestOf c s s.setBlockIndexCandidates with
    | none => simp only [hbest] at h; cases h
    | some q =>
      simp only [hbest] at h ⊢
      cases husable : firstUnusable s q with
      | none =>
        simp only [husable, Option.some.injEq] at h ⊢
        subst h
        exact ⟨hbest, husable⟩
      | some x =>
        simp only [husable] at h ⊢
        exact ih h

/-! ### Disconnecting -/

/-- The disconnecting loop stays between the tip and the fork, and reaches the
    fork unless a block refuses. -/
structure Disconnecting (f tip : BlockRef) (r : BlockRef × List BlockRef × Bool) : Prop where
  above : f <:+ r.1
  below : r.1 <:+ tip
  called : ∀ q ∈ r.2.1, q <:+ tip ∧ f.length < q.length
  count : r.2.1.length ≤ tip.length - f.length
  reached : r.2.2 = true → r.1 = f

/-- Disconnecting goes down towards the fork, one block a step. -/
theorem disconnectLoop_spec (s : State) (o : Outcomes) {f : BlockRef} (h : f <:+ tip) :
    Disconnecting f tip (disconnectLoop s o f tip) := by
  induction tip with
  | nil =>
    rw [List.suffix_nil.mp h]
    exact ⟨List.suffix_rfl, List.suffix_rfl, (fun q hq => nomatch hq), Nat.zero_le _,
      fun _ => rfl⟩
  | cons a t ih =>
    by_cases hf : a :: t = f
    · rw [disconnectLoop, if_pos hf, hf]
      exact ⟨List.suffix_rfl, List.suffix_rfl, (fun q hq => nomatch hq), Nat.zero_le _,
        fun _ => rfl⟩
    · have ht : f <:+ t := (List.suffix_cons_iff.mp h).resolve_left fun he => hf he.symm
      have hlen : f.length < (a :: t).length := by
        rw [List.length_cons]
        exact Nat.lt_succ_of_le ht.length_le
      rw [disconnectLoop, if_neg hf]
      split
      · have hrest := ih ht
        refine ⟨hrest.above, hrest.below.trans (List.suffix_cons a t), ?_, ?_, hrest.reached⟩
        · intro q hq
          rcases List.mem_cons.mp hq with rfl | hq
          · exact ⟨List.suffix_rfl, hlen⟩
          · exact ⟨(hrest.called q hq).1.trans (List.suffix_cons a t), (hrest.called q hq).2⟩
        · refine le_trans (Nat.succ_le_succ hrest.count) ?_
          rw [List.length_cons] at hlen ⊢
          omega
      · refine ⟨h, List.suffix_rfl, ?_, ?_, fun hfalse => absurd hfalse Bool.false_ne_true⟩
        · intro q hq
          rw [List.mem_singleton.mp hq]
          exact ⟨List.suffix_rfl, hlen⟩
        · rw [List.length_singleton]
          omega

/-! ### Connecting -/

/-- The list goes up from one block to another, parent by parent. -/
def Climbs (tip : BlockRef) : List BlockRef → BlockRef → Prop
  | [], top => tip = top
  | p :: rest, top => p ≠ [] ∧ p.tail = tip ∧ Climbs p rest top

theorem Climbs.concat (h : Climbs tip l top) (hne : p ≠ []) (hp : p.tail = top) :
    Climbs tip (l ++ [p]) p := by
  induction l generalizing tip with
  | nil => exact ⟨hne, hp.trans h.symm, rfl⟩
  | cons x rest ih => exact ⟨h.1, h.2.1, ih h.2.2⟩

/-- The blocks above an ancestor lead up to the target. -/
theorem chainAbove_climbs {f : BlockRef} (h : f <:+ t) : Climbs f (chainAbove f t).reverse t := by
  induction t with
  | nil => exact List.suffix_nil.mp h
  | cons a t ih =>
    by_cases hf : a :: t = f
    · rw [chainAbove, if_pos hf]
      exact hf.symm
    · rw [chainAbove, if_neg hf, List.reverse_cons]
      exact (ih ((List.suffix_cons_iff.mp h).resolve_left fun he => hf he.symm)).concat
        (List.cons_ne_nil a t) rfl

theorem Climbs.suffix (h : Climbs tip l top) : tip <:+ top := by
  induction l generalizing tip with
  | nil => exact h ▸ List.suffix_rfl
  | cons x rest ih => exact h.2.1 ▸ (List.tail_suffix x).trans (ih h.2.2)

/-- The connecting loop, one block after the other: an invariant of the blocks that
    connect gives what holds at the end, however it ends. -/
theorem connectLoop_rule {I : State → Prop} {J : State → StepEnd → Prop} {o : Outcomes}
    {old : BlockRef} (hclimb : Climbs s.chainActive l top) (hs : I s)
    (connect : ∀ s p, I s → p ≠ [] → p.tail = s.chainActive → p <:+ top → o.connect p = .ok →
      I (connectTip c s p))
    (stop : ∀ s e, I s → J s e)
    (raised : ∀ s p, I s → p ≠ [] → p.tail = s.chainActive → p <:+ top →
      J (raiseValidity s p) .failed)
    (invalid : ∀ s p, I s → p ≠ [] → p.tail = s.chainActive → p <:+ top → o.connect p = .invalid →
      J (invalidBlockFound s p) .invalidFound) :
    J (connectLoop c o old l s).1 (connectLoop c o old l s).2 := by
  induction l generalizing s with
  | nil => exact stop s .done hs
  | cons p rest ih =>
    obtain ⟨hne, htail, hrest⟩ := hclimb
    have htop := hrest.suffix
    rw [connectLoop]
    cases hverdict : o.connect p with
    | error fValidated =>
      cases fValidated with
      | true => exact raised s p hs hne htail htop
      | false => exact stop s .failed hs
    | corrupt => exact stop s .invalidFound hs
    | invalid => exact invalid s p hs hne htail htop hverdict
    | ok =>
      have hnext := connect s p hs hne htail htop hverdict
      dsimp only
      split
      · exact stop _ .done hnext
      · exact ih hrest hnext

theorem worse_self (c : Config) (s : State) (p : BlockRef) : worse c s p p = false := by
  rw [worse]
  simp

@[simp] theorem raiseValidity_chainActive (s : State) (p : BlockRef) :
    (raiseValidity s p).chainActive = s.chainActive := by
  rw [raiseValidity]
  split <;> rfl

@[simp] theorem raiseValidity_candidates (s : State) (p : BlockRef) :
    (raiseValidity s p).setBlockIndexCandidates = s.setBlockIndexCandidates := by
  rw [raiseValidity]
  split <;> rfl

@[simp] theorem raiseValidity_held (s : State) (p : BlockRef) :
    (raiseValidity s p).pindexMostWork = s.pindexMostWork := by
  rw [raiseValidity]
  split <;> rfl

@[simp] theorem connectTip_held (c : Config) (s : State) (p : BlockRef) :
    (connectTip c s p).pindexMostWork = s.pindexMostWork := by
  simp [connectTip, pruneBlockIndexCandidates]

theorem mem_connectTip_candidates :
    q ∈ (connectTip c s p).setBlockIndexCandidates ↔
      q ∈ s.setBlockIndexCandidates ∧
        worse c { raiseValidity s p with chainActive := p } q p = false := by
  simp [connectTip, pruneBlockIndexCandidates]

/-- A step of the activation toward `t`. -/
structure Activated (s : State) (t : BlockRef) (s' : State) (called : List BlockRef)
    (stepEnd : StepEnd) : Prop where
  aboveFork : ∀ q ∈ called, q <:+ s.chainActive ∧ (fork s.chainActive t).length < q.length
  count : called.length ≤ s.chainActive.length - (fork s.chainActive t).length
  above : fork s.chainActive t <:+ s'.chainActive
  toward : s'.chainActive <:+ s.chainActive ∨ s'.chainActive <:+ t
  held : s'.pindexMostWork = s.pindexMostWork
  candidates : s'.setBlockIndexCandidates ⊆ s.setBlockIndexCandidates
  work : (∀ q ∈ s.setBlockIndexCandidates, nChainWork s.chainActive ≤ nChainWork q) →
    ∀ q ∈ s'.setBlockIndexCandidates, nChainWork s'.chainActive ≤ nChainWork q
  done : stepEnd = .done → s'.chainActive <:+ t ∧
    (t ∈ s.setBlockIndexCandidates → t ∈ s'.setBlockIndexCandidates)

/-- What the connecting loop keeps while it climbs from the fork to the target. -/
structure Climbing (s : State) (t : BlockRef) (s' : State) : Prop where
  above : fork s.chainActive t <:+ s'.chainActive
  toward : s'.chainActive <:+ t
  held : s'.pindexMostWork = s.pindexMostWork
  candidates : s'.setBlockIndexCandidates ⊆ s.setBlockIndexCandidates
  work : (∀ q ∈ s.setBlockIndexCandidates, nChainWork s.chainActive ≤ nChainWork q) →
    ∀ q ∈ s'.setBlockIndexCandidates, nChainWork s'.chainActive ≤ nChainWork q

theorem Climbing.connectTip {t : BlockRef} (h : Climbing s t s') (htail : p.tail = s'.chainActive)
    (htop : p <:+ t) (c : Config) : Climbing s t (connectTip c s' p) := by
  refine ⟨h.above.trans (htail ▸ List.tail_suffix p), htop, by simpa using h.held, ?_, ?_⟩
  · intro q hq
    exact h.candidates (mem_connectTip_candidates.mp hq).1
  · intro _ q hq
    exact nChainWork_le_of_not_worse (mem_connectTip_candidates.mp hq).2

theorem Climbing.raiseValidity {t : BlockRef} (h : Climbing s t s') (p : BlockRef) :
    Climbing s t (raiseValidity s' p) :=
  ⟨by simpa using h.above, by simpa using h.toward, by simpa using h.held,
    by simpa using h.candidates, by simpa using h.work⟩

theorem Climbing.invalidBlockFound {t : BlockRef} (h : Climbing s t s') (p : BlockRef) :
    Climbing s t (invalidBlockFound s' p) :=
  ⟨h.above, h.toward, h.held, List.Subset.trans (List.filter_subset_self _) h.candidates,
    fun hw q hq => h.work hw q (List.mem_of_mem_filter hq)⟩

/-- The target stays a candidate as long as the chain climbs toward it. -/
theorem target_mem_connectTip (ht : t ∈ s.setBlockIndexCandidates) (htop : p <:+ t) (c : Config) :
    t ∈ (connectTip c s p).setBlockIndexCandidates := by
  refine mem_connectTip_candidates.mpr ⟨ht, ?_⟩
  by_cases hp : p = t
  · rw [hp]
    exact worse_self c _ t
  · exact not_worse_of_work_lt (nChainWork_lt_of_suffix htop hp)

/-- A step ends on the target's chain, between the fork and the target, or below the fork. -/
theorem activateBestChainStep_activated (c : Config) (s : State) (t : BlockRef) (o : Outcomes) :
    Activated s t (activateBestChainStep c s t o).1 (activateBestChainStep c s t o).2.1
      (activateBestChainStep c s t o).2.2 := by
  have hdis := disconnectLoop_spec s o (fork_suffix_left s.chainActive t)
  rw [activateBestChainStep, findFork_eq]
  generalize disconnectLoop s o (fork s.chainActive t) s.chainActive = r at hdis
  obtain ⟨tip, called, ok⟩ := r
  -- going down leaves no candidate with less work than the tip
  have hwork : (∀ q ∈ s.setBlockIndexCandidates, nChainWork s.chainActive ≤ nChainWork q) →
      ∀ q ∈ s.setBlockIndexCandidates, nChainWork tip ≤ nChainWork q := fun h q hq =>
    (nChainWork_le_of_suffix hdis.below).trans (h q hq)
  cases ok with
  | false =>
    exact ⟨hdis.called, hdis.count, hdis.above, .inl hdis.below, rfl, List.Subset.refl _, hwork,
      (fun h => nomatch h)⟩
  | true =>
    have htip : tip = fork s.chainActive t := hdis.reached rfl
    have hstart : Climbing s t { s with chainActive := tip } :=
      ⟨hdis.above, htip ▸ fork_suffix_right _ _, rfl, List.Subset.refl _, hwork⟩
    have hclimb : Climbs tip (chainAbove (fork s.chainActive t) t).reverse t := by
      rw [htip]
      exact chainAbove_climbs (fork_suffix_right _ _)
    have hrun : Climbing s t (connectLoop c o s.chainActive
          (chainAbove (fork s.chainActive t) t).reverse { s with chainActive := tip }).1 ∧
        ((connectLoop c o s.chainActive (chainAbove (fork s.chainActive t) t).reverse
          { s with chainActive := tip }).2 = .done → t ∈ s.setBlockIndexCandidates →
          t ∈ (connectLoop c o s.chainActive (chainAbove (fork s.chainActive t) t).reverse
            { s with chainActive := tip }).1.setBlockIndexCandidates) :=
      connectLoop_rule
        (I := fun s' => Climbing s t s' ∧
          (t ∈ s.setBlockIndexCandidates → t ∈ s'.setBlockIndexCandidates))
        (J := fun s' e => Climbing s t s' ∧ (e = .done →
          t ∈ s.setBlockIndexCandidates → t ∈ s'.setBlockIndexCandidates))
        hclimb ⟨hstart, id⟩
        (fun s' p h _ htail htop _ =>
          ⟨h.1.connectTip htail htop c, fun ht => target_mem_connectTip (h.2 ht) htop c⟩)
        (fun s' e h => ⟨h.1, fun _ => h.2⟩)
        (fun s' p h _ _ _ => ⟨h.1.raiseValidity p, (fun he => nomatch he)⟩)
        (fun s' p h _ _ _ _ => ⟨h.1.invalidBlockFound p, (fun he => nomatch he)⟩)
    exact ⟨hdis.called, hdis.count, hrun.1.above, .inr hrun.1.toward, hrun.1.held,
      hrun.1.candidates, hrun.1.work, fun he => ⟨hrun.1.toward, hrun.2 he⟩⟩

/-! ### One iteration of `ActivateBestChain` -/

/-- The target of an iteration, with the state the step starts from: the one the
    call holds, or the one it finds. -/
inductive Target (c : Config) (s : State) (call : Nat) : State → BlockRef → Prop
  | held {t : BlockRef} (h : s.pindexMostWork.lookup call = some t) : Target c s call s t
  | found {t : BlockRef} (hnone : s.pindexMostWork.lookup call = none)
      (h : (findMostWorkChain c s).2 = some t) : Target c s call (findMostWorkChain c s).1 t

/-- How an iteration of the call goes: nothing to move to, already there, or a step, after which
    the call holds its target exactly when it has further to go. -/
inductive ActivateCase (c : Config) (s : State) (call : Nat) (o : Outcomes) :
    State × List BlockRef → Prop
  | noTarget (hnone : s.pindexMostWork.lookup call = none)
      (h : (findMostWorkChain c s).2 = none) :
      ActivateCase c s call o ((findMostWorkChain c s).1.release call, [])
  | reached {s₁ : State} (h : Target c s call s₁ s₁.chainActive) :
      ActivateCase c s call o (s₁.release call, [])
  | moved {s₁ s₂ : State} {t : BlockRef} {called : List BlockRef} {e : StepEnd}
      (h : Target c s call s₁ t) (hne : t ≠ s₁.chainActive)
      (hstep : activateBestChainStep c s₁ t o = (s₂, called, e)) :
      ActivateCase c s call o (s₂.release call, called)
  | climbing {s₁ s₂ : State} {t : BlockRef} {called : List BlockRef}
      (h : Target c s call s₁ t) (hne : t ≠ s₁.chainActive)
      (hstep : activateBestChainStep c s₁ t o = (s₂, called, .done))
      (hnot : s₂.chainActive ≠ t) :
      ActivateCase c s call o (s₂.hold call t, called)

/-- What a call does once it has its target. -/
theorem ActivateCase.of_target {call : Nat} {o : Outcomes} {s₁ : State} (h : Target c s call s₁ t) :
    ActivateCase c s call o
      (if t = s₁.chainActive then (s₁.release call, [])
        else
          match activateBestChainStep c s₁ t o with
          | (s, called, .done) =>
            (if o.fShutdown || s.chainActive = t then s.release call else s.hold call t, called)
          | (s, called, _) => (s.release call, called)) := by
  by_cases hthere : t = s₁.chainActive
  · rw [if_pos hthere]
    exact .reached (hthere ▸ h)
  · rw [if_neg hthere]
    rcases hstep : activateBestChainStep c s₁ t o with ⟨s₂, called, e⟩
    cases e with
    | done =>
      by_cases hstop : (o.fShutdown || decide (s₂.chainActive = t)) = true
      · simp only [hstop, if_true]
        exact .moved h hthere hstep
      · simp only [hstop, Bool.false_eq_true, if_false]
        refine .climbing h hthere hstep fun he => hstop ?_
        rw [he, decide_eq_true rfl, Bool.or_true]
    | invalidFound => exact .moved h hthere hstep
    | failed => exact .moved h hthere hstep

/-- What a call of `ActivateBestChain` can do. -/
theorem activateBestChain_cases (c : Config) (s : State) (call : Nat) (o : Outcomes) :
    ActivateCase c s call o (activateBestChain c s call o) := by
  rw [activateBestChain]
  cases hheld : s.pindexMostWork.lookup call with
  | some t => exact .of_target (.held hheld)
  | none =>
    cases hfound : (findMostWorkChain c s).2 with
    | none =>
      simp only [hfound]
      exact .noTarget hheld hfound
    | some t =>
      simp only [hfound]
      exact .of_target (.found hheld hfound)

theorem Target.searched {call : Nat} {s₁ : State} (h : Target c s call s₁ t) : Searched s s₁ := by
  cases h with
  | held h => exact ⟨rfl, rfl, List.Subset.refl _⟩
  | found hnone h => exact findMostWorkLoop_searched c _ s

theorem findMostWorkChain_some (h : (findMostWorkChain c s).2 = some t) :
    t ∈ (findMostWorkChain c s).1.setBlockIndexCandidates :=
  bestOf_mem (findMostWorkLoop_some h).1

/-! ## Compaction -/

theorem compactWitnessFiles_sameChain (c : Config) (s : State) :
    SameChain s (compactWitnessFiles c s) := by
  rw [compactWitnessFiles]
  split <;> exact ⟨rfl, rfl, rfl, rfl⟩

/-- Compaction moves neither the chain nor the candidates. -/
theorem compactOneWitnessFile_sameChain (c : Config) (s : State) (fReserved : Bool) :
    SameChain s (compactOneWitnessFile c s fReserved) := by
  rw [compactOneWitnessFile]
  split
  · split
    · exact ⟨rfl, rfl, rfl, rfl⟩
    · cases fReserved <;> exact ⟨rfl, rfl, rfl, rfl⟩
  · exact ⟨rfl, rfl, rfl, rfl⟩

theorem commitWitnessFile_sameChain (s : State) (fWritten : Bool) (nTargetSize : Nat) :
    SameChain s (commitWitnessFile s fWritten nTargetSize) := by
  rw [commitWitnessFile]
  cases s.job with
  | none => exact ⟨rfl, rfl, rfl, rfl⟩
  | some job => cases fWritten <;> exact ⟨rfl, rfl, rfl, rfl⟩

end Soqucoin.Selection
