import Soqucoin.HorizonProofs

/-! # CompactionProofs — stripped blocks and reorganisations

`DisconnectBlock` refuses a block without witnesses, and the node stops.  A compaction pass
therefore asks whether the best header forks below the horizon, and each of its files whether all
its blocks are below it.  Neither asks for the other header branches: `disconnect_of_stripped` is
a run in which the data of one of them arrives after the pass.  Safe are the runs in which no
block with at least the tip's work becomes connectable on a branch that leaves the active chain
below a stripped block (`stripped_never_disconnected`). -/

namespace Soqucoin.Selection

open Branch Stepwise

variable {c : Config} {s s' s'' : State} {b p q : BlockRef}

/-! ## Stripped blocks -/

/-- The block is stripped of its witnesses, or belongs to the file that compaction has taken up. -/
def State.isStripped (s : State) (b : BlockRef) : Bool :=
  (s.entry b).fWitnessPruned || s.job.any fun job => job.vBlocks.contains b

/-- No block has been stripped in between. -/
structure SameStripped (s s' : State) : Prop where
  pruned : ∀ b, (s'.entry b).fWitnessPruned = true → (s.entry b).fWitnessPruned = true
  job : s'.job = s.job

variable {call : Nat} {s₁ : State} {t : BlockRef}

namespace SameStripped

theorem of_entry (hentry : s'.entry = s.entry) (hjob : s'.job = s.job) : SameStripped s s' :=
  ⟨fun _ hb => hentry ▸ hb, hjob⟩

theorem refl (s : State) : SameStripped s s := .of_entry rfl rfl

theorem trans (h : SameStripped s s') (h' : SameStripped s' s'') : SameStripped s s'' :=
  ⟨fun b hb => h.pruned b (h'.pruned b hb), h'.job.trans h.job⟩

theorem isStripped (h : SameStripped s s') (hb : s'.isStripped b) :
    s.isStripped b := by
  rw [State.isStripped, Bool.or_eq_true] at hb ⊢
  rcases hb with hpruned | hjob
  · exact .inl (h.pruned b hpruned)
  · exact .inr (h.job ▸ hjob)

theorem setEntry {e : IndexEntry} (he : e.fWitnessPruned → (s.entry p).fWitnessPruned) :
    SameStripped s (s.setEntry p e) := by
  refine ⟨?_, rfl⟩
  intro b hb
  by_cases hbp : b = p
  · subst hbp
    rw [setEntry_entry_self] at hb
    exact he hb
  · rwa [setEntry_entry_of_ne s e hbp] at hb

theorem markFailed (s : State) (blocks : List BlockRef) :
    SameStripped s (s.markFailed blocks) := by
  refine ⟨?_, rfl⟩
  intro b hb
  rw [State.markFailed] at hb
  dsimp only at hb
  split at hb
  · exact hb
  · exact hb

theorem insertCandidate (s : State) (p : BlockRef) : SameStripped s (s.insertCandidate p) := by
  rw [State.insertCandidate]
  split
  · exact .refl s
  · exact .of_entry rfl rfl

/-! ### Arrivals -/

/-- A header strips no block. -/
theorem acceptBlockHeader (c : Config) (s : State) (p : BlockRef) (checks : HeaderChecks) :
    SameStripped s (acceptBlockHeader c s p checks).1 := by
  have h := acceptBlockHeader_cases c s p checks
  generalize Selection.acceptBlockHeader c s p checks = r at h
  cases h with
  | known hmem hok => exact .refl s
  | refused e => exact .refl s
  | marked failedit e hmem hne hanc hprev => exact .markFailed s _
  | added hnew hprev =>
    rw [addToBlockIndex, if_neg hnew]
    -- a new entry has its witnesses
    have hfresh : SameStripped s (s.setEntry p {}) :=
      .setEntry fun he => absurd he Bool.false_ne_true
    exact hfresh.trans (.of_entry rfl rfl)

theorem linkBlock (c : Config) (s : State) (p : BlockRef) :
    SameStripped s (linkBlock c s p) := by
  rw [Selection.linkBlock]
  have hset : SameStripped s (s.setEntry p
      { s.entry p with fChainTx := true, nSequenceId := s.nBlockSequenceId }) := .setEntry id
  split
  · refine SameStripped.trans ?_ (.insertCandidate _ p)
    exact hset.trans (.of_entry rfl rfl)
  · exact hset.trans (.of_entry rfl rfl)

/-- The linking loop strips no block. -/
theorem linkLoop (c : Config) (fuel : Nat) (s : State) (queue : List BlockRef) :
    SameStripped s (linkLoop c fuel s queue) := by
  induction fuel generalizing s queue with
  | zero => exact .refl s
  | succ fuel ih =>
    cases queue with
    | nil => exact .refl s
    | cons p queue => exact (linkBlock c s p).trans (ih _ _)

/-- The arrival of block data strips no block. -/
theorem receivedBlockTransactions (c : Config) (s : State) (p : BlockRef) (nFile : Nat) :
    SameStripped s (receivedBlockTransactions c s p nFile) := by
  rw [Selection.receivedBlockTransactions]
  have hset : SameStripped s (s.setEntry p
      { s.entry p with fHaveData := true, fChainTx := false, nFile := nFile }) := .setEntry id
  dsimp only
  split
  · exact hset.trans (.linkLoop c _ _ _)
  · split
    · exact hset
    · exact hset.trans (.of_entry rfl rfl)

/-- Storing a block strips no block. -/
theorem storeBlock (c : Config) (s : State) (p : BlockRef) (a : BlockArrival) :
    SameStripped s (storeBlock c s p a) := by
  have h := storeBlock_cases c s p a
  generalize Selection.storeBlock c s p a = s' at h
  cases h with
  | ignored => exact .refl s
  | failed hdata => exact .markFailed s _
  | noSpace files => exact .of_entry rfl rfl
  | received files nFile hdata =>
    have hfiles : SameStripped s { s with files := files } := .of_entry rfl rfl
    exact hfiles.trans (.receivedBlockTransactions c _ p nFile)

/-- Accepting a block strips no block. -/
theorem acceptBlock (c : Config) (s : State) (p : BlockRef) (a : BlockArrival) :
    SameStripped s (acceptBlock c s p a) := by
  have hheader := acceptBlockHeader c s p a.header
  rw [Selection.acceptBlock]
  generalize Selection.acceptBlockHeader c s p a.header = r at hheader
  obtain ⟨s₁, verdict⟩ := r
  cases verdict with
  | error e => exact hheader
  | ok u => exact hheader.trans (storeBlock c s₁ p a)

/-! ### The active chain -/

theorem dropChain (s : State) (p q : BlockRef) : SameStripped s (dropChain s p q) := by
  rw [Selection.dropChain]
  split
  · exact (markFailed s _).trans (.of_entry rfl rfl)
  · exact .of_entry rfl rfl

/-- Searching a chain strips no block. -/
theorem findMostWorkLoop (c : Config) (fuel : Nat) (s : State) :
    SameStripped s (findMostWorkLoop c fuel s).1 := by
  induction fuel generalizing s with
  | zero => exact .refl s
  | succ fuel ih =>
    rw [Selection.findMostWorkLoop]
    cases bestOf c s s.setBlockIndexCandidates with
    | none => exact .refl s
    | some p =>
      dsimp only
      cases firstUnusable s p with
      | none => exact .refl s
      | some q => exact (dropChain s p q).trans (ih _)

theorem raiseValidity (s : State) (p : BlockRef) : SameStripped s (raiseValidity s p) := by
  rw [Selection.raiseValidity]
  split
  · exact .refl s
  · exact .setEntry id

theorem invalidBlockFound (s : State) (p : BlockRef) :
    SameStripped s (invalidBlockFound s p) :=
  (markFailed s [p]).trans (.of_entry rfl rfl)

theorem connectTip (c : Config) (s : State) (p : BlockRef) : SameStripped s (connectTip c s p) :=
  (raiseValidity s p).trans (.of_entry rfl rfl)

/-- Activating a chain strips no block. -/
theorem activateBestChainStep (c : Config) (s : State) (t : BlockRef) (o : Outcomes) :
    SameStripped s (activateBestChainStep c s t o).1 := by
  have hdis := disconnectLoop_spec s o (fork_suffix_left s.chainActive t)
  rw [Selection.activateBestChainStep, findFork_eq]
  generalize disconnectLoop s o (fork s.chainActive t) s.chainActive = r at hdis
  obtain ⟨tip, called, ok⟩ := r
  cases ok with
  | false => exact .of_entry rfl rfl
  | true =>
    have htip : tip = fork s.chainActive t := hdis.reached rfl
    have hclimb : Climbs tip (chainAbove (fork s.chainActive t) t).reverse t := by
      rw [htip]
      exact chainAbove_climbs (fork_suffix_right _ _)
    exact connectLoop_rule (s := { s with chainActive := tip }) (I := SameStripped s)
      (J := fun s' _ => SameStripped s s') hclimb (.of_entry rfl rfl)
      (fun s' p h _ _ _ _ => h.trans (connectTip c s' p)) (fun s' e h => h)
      (fun s' p h _ _ _ => h.trans (raiseValidity s' p))
      (fun s' p h _ _ _ _ => h.trans (invalidBlockFound s' p))

theorem target (h : Target c s call s₁ t) : SameStripped s s₁ := by
  cases h with
  | held h => exact .refl s
  | found hnone h => exact findMostWorkLoop c _ s

end SameStripped

/-! ## The condition -/

/-- What an event has to meet: a block that an arrival makes connectable descends from the
    stripped blocks of the active chain; where compaction takes up a file, the candidates leave
    the active chain at most `nMaxReorgDepth` below its tip; a call of `ActivateBestChain` that
    holds no target goes on only while no other call holds one. -/
def SparesStripped (c : Config) (s : State) : Event → Prop
  | .block pindex _ => ∀ q ∈ connectable s pindex, ∀ b ∈ s.chainActive.tails,
      s.isStripped b = true → b <:+ q
  | .compactFile _ => ∀ q ∈ s.setBlockIndexCandidates,
      nHeight s.chainActive - nHeight (findFork s.chainActive q) ≤ c.nMaxReorgDepth
  | .activate call _ => s.pindexMostWork.lookup call = none → s.pindexMostWork = []
  | _ => True

instance decidableSparesStripped (c : Config) (s : State) :
    (e : Event) → Decidable (SparesStripped c s e)
  | .block pindex _ => inferInstanceAs (Decidable (∀ q ∈ connectable s pindex,
      ∀ b ∈ s.chainActive.tails, s.isStripped b = true → b <:+ q))
  | .compactFile _ => inferInstanceAs (Decidable (∀ q ∈ s.setBlockIndexCandidates,
      nHeight s.chainActive - nHeight (findFork s.chainActive q) ≤ c.nMaxReorgDepth))
  | .activate _ _ => inferInstanceAs (Decidable (_ → _))
  | .header _ _ => inferInstanceAs (Decidable True)
  | .compact => inferInstanceAs (Decidable True)
  | .commitFile _ _ => inferInstanceAs (Decidable True)

/-- The tip and the candidates descend from every stripped block, and a call that
    holds a target is on its way up to it. -/
structure KeepsStripped (s : State) : Prop where
  tip : ∀ b, s.isStripped b = true → b <:+ s.chainActive
  candidates : ∀ q ∈ s.setBlockIndexCandidates, ∀ b, s.isStripped b = true → b <:+ q
  held : s.pindexMostWork = [] ∨
    ∃ call t, s.pindexMostWork = [(call, t)] ∧ s.chainActive <:+ t

namespace KeepsStripped

section

variable (h : KeepsStripped s)
include h

theorem of_same (hchain : SameChain s s')
    (hs : ∀ b, s'.isStripped b → s.isStripped b) : KeepsStripped s' := by
  refine ⟨?_, ?_, ?_⟩
  · intro b hb
    rw [hchain.chainActive]
    exact h.tip b (hs b hb)
  · intro q hq b hb
    exact h.candidates q (hchain.candidates ▸ hq) b (hs b hb)
  · rw [hchain.held, hchain.chainActive]
    exact h.held

theorem searched (hsearch : Searched s s') (hs : SameStripped s s') : KeepsStripped s' := by
  refine ⟨?_, ?_, ?_⟩
  · intro b hb
    rw [hsearch.chainActive]
    exact h.tip b (hs.isStripped hb)
  · intro q hq b hb
    exact h.candidates q (hsearch.candidates hq) b (hs.isStripped hb)
  · rw [hsearch.held, hsearch.chainActive]
    exact h.held

/-- An arriving block keeps the stripped blocks below every candidate. -/
theorem arrived
    (hspares : ∀ q ∈ connectable s p, ∀ b ∈ s.chainActive.tails, s.isStripped b → b <:+ q)
    (harr : Arrived s p s') (hs : SameStripped s s') : KeepsStripped s' := by
  refine ⟨?_, ?_, ?_⟩
  · intro b hb
    rw [harr.chainActive]
    exact h.tip b (hs.isStripped hb)
  · intro q hq b hb
    have hold := hs.isStripped hb
    rcases harr.candidates q hq with hq | hq
    · exact h.candidates q hq b hold
    · exact hspares q hq b ((List.mem_tails _ _).mpr (h.tip b hold)) hold
  · rw [harr.held, harr.chainActive]
    exact h.held

/-! ### Activation -/

/-- The target of an iteration descends from the stripped blocks, and no other call holds one. -/
theorem target (halone : s.pindexMostWork.lookup call = none → s.pindexMostWork = [])
    (ht : Target c s call s₁ t) :
    (∀ b, s.isStripped b → b <:+ t) ∧ (s₁.release call).pindexMostWork = [] := by
  have hsearch := ht.searched
  cases ht with
  | held hlookup =>
    rcases h.held with hnone | ⟨call', t', hheld, htip⟩
    · rw [hnone] at hlookup
      cases hlookup
    · rw [hheld] at hlookup
      by_cases hcall : call = call'
      · subst hcall
        rw [List.lookup_cons_self, Option.some.injEq] at hlookup
        subst hlookup
        refine ⟨fun b hb => (h.tip b hb).trans htip, ?_⟩
        rw [State.release, hheld]
        simp
      · rw [List.lookup_cons, beq_false_of_ne hcall] at hlookup
        cases hlookup
  | found hnone hfound =>
    refine ⟨h.candidates t (hsearch.candidates (findMostWorkChain_some hfound)), ?_⟩
    exact congrArg (List.filter _) (hsearch.held.trans (halone hnone))

/-- A step toward a descendant of the stripped blocks calls `DisconnectBlock` on
    none of them, and stays above them. -/
theorem stepped {s₂ : State} (ht : ∀ b, s.isStripped b → b <:+ t) (hsearch : Searched s s₁)
    {called : List BlockRef} {e : StepEnd} (hact : Activated s₁ t s₂ called e)
    (hs : SameStripped s s₂) :
    (∀ q ∈ called, s.isStripped q = false) ∧
      (∀ b, s₂.isStripped b → b <:+ s₂.chainActive) ∧
      ∀ q ∈ s₂.setBlockIndexCandidates, ∀ b, s₂.isStripped b → b <:+ q := by
  have hfork : ∀ b, s.isStripped b = true → b <:+ fork s₁.chainActive t := by
    intro b hb
    rw [hsearch.chainActive]
    exact suffix_fork (h.tip b hb) (ht b hb)
  refine ⟨?_, ?_, ?_⟩
  · intro q hq
    -- what is disconnected is above the fork
    have habove := (hact.aboveFork q hq).2
    by_contra hstripped
    have hle := (hfork q (by simpa using hstripped)).length_le
    omega
  · intro b hb
    exact (hfork b (hs.isStripped hb)).trans hact.above
  · intro q hq b hb
    exact h.candidates q (hsearch.candidates (hact.candidates hq)) b (hs.isStripped hb)

/-- A call of `ActivateBestChain` disconnects no stripped block. -/
theorem activate {o : Outcomes}
    (halone : s.pindexMostWork.lookup call = none → s.pindexMostWork = [])
    {r : State × List BlockRef} (hr : ActivateCase c s call o r) :
    KeepsStripped r.1 ∧ ∀ q ∈ r.2, s.isStripped q = false := by
  have hnothing : ∀ q ∈ ([] : List BlockRef), s.isStripped q = false := by
    intro q hq
    cases hq
  cases hr with
  | noTarget hnone hfound =>
    have hsearch := findMostWorkLoop_searched c (s.setBlockIndexCandidates.length + 1) s
    have hnext := h.searched hsearch (.findMostWorkLoop c _ s)
    refine ⟨⟨hnext.tip, hnext.candidates, .inl ?_⟩, hnothing⟩
    exact congrArg (List.filter _) (hsearch.held.trans (halone hnone))
  | reached ht =>
    have hnext := h.searched ht.searched (.target ht)
    exact ⟨⟨hnext.tip, hnext.candidates, .inl (h.target halone ht).2⟩, hnothing⟩
  | @moved s₁ s₂ t called e ht hne hstep =>
    obtain ⟨hanc, hrelease⟩ := h.target halone ht
    have hact := activateBestChainStep_activated c s₁ t o
    have hs := (SameStripped.target ht).trans (.activateBestChainStep c s₁ t o)
    rw [hstep] at hact hs
    obtain ⟨hspared, htip, hcand⟩ := h.stepped hanc ht.searched hact hs
    refine ⟨⟨htip, hcand, .inl ?_⟩, hspared⟩
    rw [State.release, hact.held]
    exact hrelease
  | @climbing s₁ s₂ t called ht hne hstep hnot =>
    obtain ⟨hanc, hrelease⟩ := h.target halone ht
    have hact := activateBestChainStep_activated c s₁ t o
    have hs := (SameStripped.target ht).trans (.activateBestChainStep c s₁ t o)
    rw [hstep] at hact hs
    obtain ⟨hspared, htip, hcand⟩ := h.stepped hanc ht.searched hact hs
    refine ⟨⟨htip, hcand, .inr ⟨call, t, ?_, (hact.done rfl).1⟩⟩, hspared⟩
    rw [State.hold, State.release, hact.held]
    exact congrArg _ hrelease

end

/-! ### Compaction -/

/-- The blocks of an eligible file are deep in the active chain. -/
theorem buried_of_eligible {nFile : Nat} (h : witnessFileEligibleForCompaction c s nFile)
    (hb : b ∈ s.mapBlockIndex.filter (fun p => (s.entry p).nFile = nFile)) :
    b <:+ s.chainActive ∧ c.nMaxReorgDepth < nHeight s.chainActive - nHeight b := by
  obtain ⟨hmem, hfile⟩ := List.mem_filter.mp hb
  rw [witnessFileEligibleForCompaction, Bool.and_eq_true, List.all_eq_true] at h
  have hblock := h.2 b hmem
  rw [Bool.or_eq_true] at hblock
  rcases hblock with hother | hblock
  · exact absurd (of_decide_eq_true hfile) (of_decide_eq_true hother)
  · rw [Bool.and_eq_true, Bool.and_eq_true, decide_eq_true_eq, inChain_iff] at hblock
    exact ⟨hblock.1.2.2, hblock.2⟩

/-- A file taken up strips blocks deeper than any reorganisation only. -/
theorem stripped_of_takenUp {fReserved : Bool}
    (h : (compactOneWitnessFile c s fReserved).isStripped b) :
    s.isStripped b ∨
      (b <:+ s.chainActive ∧ c.nMaxReorgDepth < nHeight s.chainActive - nHeight b) := by
  rw [compactOneWitnessFile] at h
  split at h
  · next nFile rest hfiles hjob =>
      by_cases helig : witnessFileEligibleForCompaction c s nFile = true
      · rw [helig, Bool.not_true, if_neg Bool.false_ne_true] at h
        cases fReserved with
        | false => exact .inl h
        | true =>
          rw [State.isStripped, Bool.or_eq_true] at h
          rcases h with hpruned | hblock
          · left
            rw [State.isStripped, Bool.or_eq_true]
            exact .inl hpruned
          · exact .inr (buried_of_eligible helig (List.contains_iff_mem.mp hblock))
      · rw [Bool.not_eq_true] at helig
        rw [helig, Bool.not_false, if_pos rfl] at h
        exact .inl h
  · exact .inl h

/-- Taking up a file keeps the stripped blocks below every candidate. -/
theorem takenUp (h : KeepsStripped s) (fReserved : Bool)
    (hspares : ∀ q ∈ s.setBlockIndexCandidates,
      nHeight s.chainActive - nHeight (findFork s.chainActive q) ≤ c.nMaxReorgDepth) :
    KeepsStripped (compactOneWitnessFile c s fReserved) := by
  have hchain := compactOneWitnessFile_sameChain c s fReserved
  refine ⟨?_, ?_, ?_⟩
  · intro b hb
    rw [hchain.chainActive]
    rcases stripped_of_takenUp hb with hold | ⟨htip, -⟩
    · exact h.tip b hold
    · exact htip
  · intro q hq b hb
    rw [hchain.candidates] at hq
    rcases stripped_of_takenUp hb with hold | ⟨htip, hdeep⟩
    · exact h.candidates q hq b hold
    · -- the block is below the fork
      have hshallow := hspares q hq
      rw [findFork_eq, nHeight_sub] at hshallow
      rw [nHeight_sub] at hdeep
      have hbelow : b <:+ fork s.chainActive q :=
        List.suffix_of_suffix_length_le htip (fork_suffix_left _ _) (by omega)
      exact hbelow.trans (fork_suffix_right _ _)
  · rw [hchain.held, hchain.chainActive]
    exact h.held

/-- A commit strips nothing more. -/
theorem stripped_of_committed {fWritten : Bool} {nTargetSize : Nat}
    (h : (commitWitnessFile s fWritten nTargetSize).isStripped b) :
    s.isStripped b := by
  rw [commitWitnessFile] at h
  cases hjob : s.job with
  | none =>
    rw [hjob] at h
    exact h
  | some job =>
    rw [hjob] at h
    cases fWritten with
    | false =>
      rw [State.isStripped, Bool.or_eq_true] at h ⊢
      exact .inl (h.resolve_right Bool.false_ne_true)
    | true =>
      rw [State.isStripped, hjob, Bool.or_eq_true]
      dsimp only at h
      rw [if_pos rfl, State.isStripped, Bool.or_eq_true] at h
      have hpruned := h.resolve_right Bool.false_ne_true
      dsimp only at hpruned
      split at hpruned
      · next hmem => exact .inr (List.contains_iff_mem.mpr hmem)
      · exact .inl hpruned

end KeepsStripped

/-! ## Runs -/

/-- One event keeps the stripped blocks below every candidate, and disconnects none. -/
theorem KeepsStripped.step (h : KeepsStripped s) (e : Event) (he : SparesStripped c s e) :
    KeepsStripped (step c s e) ∧ ∀ q ∈ disconnectCalls c s e, s.isStripped q = false := by
  have hnothing : ∀ q ∈ ([] : List BlockRef), s.isStripped q = false := by
    intro q hq
    cases hq
  cases e with
  | header pindex checks =>
    exact ⟨h.of_same (acceptBlockHeader_sameChain c s pindex checks)
      fun _ => (SameStripped.acceptBlockHeader c s pindex checks).isStripped, hnothing⟩
  | block pindex a =>
    exact ⟨h.arrived he (acceptBlock_arrived c s pindex a) (.acceptBlock c s pindex a), hnothing⟩
  | activate call o => exact h.activate he (activateBestChain_cases c s call o)
  | compact =>
    refine ⟨h.of_same (compactWitnessFiles_sameChain c s) fun _ hb => ?_, hnothing⟩
    have hsame : SameStripped s (compactWitnessFiles c s) := by
      rw [compactWitnessFiles]
      split <;> exact .of_entry rfl rfl
    exact hsame.isStripped hb
  | compactFile fReserved => exact ⟨h.takenUp fReserved he, hnothing⟩
  | commitFile fWritten nTargetSize =>
    exact ⟨h.of_same (commitWitnessFile_sameChain s fWritten nTargetSize)
      fun _ => stripped_of_committed, hnothing⟩

/-- In a run that starts with the tip and the candidates above every stripped block, takes in
    block data and takes up files within the condition, and runs one call of `ActivateBestChain`
    at a time, `DisconnectBlock` is never called on a stripped block. -/
theorem stripped_never_disconnected (c : Config) (s : State) (hs : KeepsStripped s)
    (events : List Event) (hrun : Every (Selection.step c) (SparesStripped c) s events) :
    Every (Selection.step c)
      (fun s e => ∀ q ∈ disconnectCalls c s e, (s.entry q).fWitnessPruned = false) s events := by
  refine hrun.of_invariant (fun _ e hs he => (hs.step e he).1) ?_ hs
  intro s e hs he q hq
  have hspared := (hs.step e he).2 q hq
  rw [State.isStripped, Bool.or_eq_false_iff] at hspared
  exact hspared.1

/-! ## A stripped block is disconnected -/

namespace Scenario

def a3 : BlockRef := header 3 :: a2
def a4 : BlockRef := header 4 :: a3
def a5 : BlockRef := header 5 :: a4
def a6 : BlockRef := header 6 :: a5

def b4 : BlockRef := header 14 :: b3
def b5 : BlockRef := header 15 :: b4

def d4 : BlockRef := header 24 :: a3
def d5 : BlockRef := header 25 :: d4

/-- The genesis block and block 1 are connected, in files of their own. -/
def filed : State :=
  { start with
    entry := fun p => { start.entry p with nFile := if p = a1 then 1 else 0 }
    files :=
      { vinfoBlockFile := fun n => if n = 0 ∨ n = 1 then ⟨1, 108, 50⟩ else {}
        nFiles := 3
        nLastBlockFile := 2 } }

/-- The chain grows to block 4, and two more headers make its branch the best. -/
def growth : List Event :=
  [.block a2 requested, .block a3 requested, .block a4 requested, .header a5 {}, .header a6 {},
    .activate 0 {}, .activate 0 {}, .activate 0 {}]

/-- One file is compacted, and its commit succeeds. -/
def pass : List Event := [.compact, .compactFile true, .commitFile true 60]

/-- The headers of the branch from the genesis block come first, its data after the pass. -/
def lateBranch : List Event :=
  [.header b1 {}, .header b2 {}, .header b3 {}, .header b4 {}, .header b5 {}] ++ growth ++ pass ++
    [.block b1 requested, .block b2 requested, .block b3 requested, .block b4 requested,
      .block b5 requested, .activate 0 {}]

/-- After the pass the chain moves to a branch from block 3. -/
def shallowBranch : List Event :=
  growth ++ pass ++ [.block d4 requested, .block d5 requested, .activate 0 {}]

/-- The sample state meets the invariant. -/
theorem filed_keepsStripped : KeepsStripped filed := by
  have hnone : ∀ b, filed.isStripped b = false := by
    intro b
    rw [State.isStripped, Bool.or_eq_false_iff]
    refine ⟨?_, rfl⟩
    show (start.entry b).fWitnessPruned = false
    rw [start]
    dsimp only
    split
    · rfl
    · split <;> rfl
  refine ⟨?_, ?_, .inl rfl⟩
  · intro b hb
    rw [hnone b] at hb
    cases hb
  · intro q _ b hb
    rw [hnone b] at hb
    cases hb

end Scenario

open Scenario in
/-- A run that calls `DisconnectBlock` on a stripped block: the pass has looked at
    the best header alone. -/
theorem disconnect_of_stripped :
    KeepsStripped filed ∧
      (((lateBranch.take 16).foldl (step config) filed).entry a1).fWitnessPruned = true ∧
      disconnectCalls config ((lateBranch.take 21).foldl (step config) filed)
        (.activate 0 {}) = [a4, a3, a2, a1] ∧
      ¬ Every (step config)
        (fun s e => ∀ q ∈ disconnectCalls config s e, (s.entry q).fWitnessPruned = false)
        filed lateBranch := by
  refine ⟨filed_keepsStripped, ?_, ?_, ?_⟩
  · decide +kernel
  · decide +kernel
  · decide +kernel

open Scenario in
/-- A run within the condition that strips block 1 and then reorganises. -/
theorem stripped_never_disconnected_shallow :
    ((shallowBranch.foldl (step config) filed).entry a1).fWitnessPruned = true ∧
      (shallowBranch.foldl (step config) filed).chainActive = d5 ∧
      Every (step config)
        (fun s e => ∀ q ∈ disconnectCalls config s e, (s.entry q).fWitnessPruned = false)
        filed shallowBranch := by
  refine ⟨?_, ?_, stripped_never_disconnected config filed filed_keepsStripped shallowBranch ?_⟩
  · decide +kernel
  · decide +kernel
  · decide +kernel

end Soqucoin.Selection
