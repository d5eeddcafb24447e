import Soqucoin.ChainSelectionProofs
import Soqucoin.StepwiseProofs

/-! # HorizonProofs — how deep a reorganisation can go

The finality horizon is checked when a header is accepted, against the tip of that moment; the
chain moves when block data arrives.  A branch whose headers came while its fork was shallow can
therefore be activated after the fork has been buried: `reorg_of_late_block_data`.  The horizon
does bound the runs in which the branches that data arrives for are shallow at that moment, and
calls of `ActivateBestChain` do not overlap (`reorg_below_horizon`). -/

namespace Soqucoin.Selection

open Branch Stepwise

variable {c : Config} {s s' : State}

/-- The blocks the active chain can be moved to, with its tip. -/
def State.heads (s : State) : List BlockRef := s.chainActive :: s.setBlockIndexCandidates

/-- Wherever the chain stands on the branch of one of the heads, with no more work than one of the
    targets, it is less than `nMaxReorgDepth` above its fork with that target. -/
def ShallowHeads (c : Config) (heads targets : List BlockRef) : Prop :=
  ∀ x ∈ heads, ∀ y ∈ targets,
    Shallow c.nMaxReorgDepth.toNat (fun z => nChainWork z ≤ nChainWork y) x y

instance decidableShallowHeads (c : Config) (heads targets : List BlockRef) :
    Decidable (ShallowHeads c heads targets) :=
  inferInstanceAs (Decidable (∀ x ∈ heads, ∀ y ∈ targets, _))

/-- What an event has to meet: the blocks that an arrival makes connectable, the candidates and
    the tip are shallow against each other; a call of `ActivateBestChain` that holds no target
    goes on only while no other call holds one. -/
def StaysShallow (c : Config) (s : State) : Event → Prop
  | .block pindex _ =>
    ShallowHeads c (s.heads ++ connectable s pindex)
      (s.setBlockIndexCandidates ++ connectable s pindex)
  | .activate call _ => s.pindexMostWork.lookup call = none → s.pindexMostWork = []
  | _ => True

instance decidableStaysShallow (c : Config) (s : State) :
    (e : Event) → Decidable (StaysShallow c s e)
  | .block pindex _ => decidableShallowHeads c (s.heads ++ connectable s pindex) _
  | .activate _ _ => inferInstanceAs (Decidable (_ → _))
  | .header _ _ => inferInstanceAs (Decidable True)
  | .compact => inferInstanceAs (Decidable True)
  | .compactFile _ => inferInstanceAs (Decidable True)
  | .commitFile _ _ => inferInstanceAs (Decidable True)

/-- The tip and the candidates are shallow against the candidates, none of which has less work
    than the tip, and a call that holds a target is on its way up to it. -/
structure WithinHorizon (c : Config) (s : State) : Prop where
  shallow : ShallowHeads c s.heads s.setBlockIndexCandidates
  work : ∀ q ∈ s.setBlockIndexCandidates, nChainWork s.chainActive ≤ nChainWork q
  held : s.pindexMostWork = [] ∨ ∃ call t, s.pindexMostWork = [(call, t)] ∧
    s.chainActive <:+ t ∧ t ∈ s.setBlockIndexCandidates

theorem ShallowHeads.mono {heads heads' targets targets' : List BlockRef}
    (h : ShallowHeads c heads targets) (hheads : heads' ⊆ heads) (htargets : targets' ⊆ targets) :
    ShallowHeads c heads' targets' :=
  fun x hx y hy => h x (hheads hx) y (htargets hy)

/-- A tip moved back along a shallow head keeps the heads shallow. -/
theorem ShallowHeads.move {x tip : BlockRef} {candidates candidates' : List BlockRef}
    (h : ShallowHeads c (tip :: candidates) candidates) (hD : 0 < c.nMaxReorgDepth)
    (hx : x ∈ tip :: candidates) {z : BlockRef} (hz : z <:+ x) (hsub : candidates' ⊆ candidates) :
    ShallowHeads c (z :: candidates') candidates' := by
  intro a ha y hy
  rcases List.mem_cons.mp ha with rfl | ha
  · exact (h x hx y (hsub hy)).of_suffix (by omega) hz
  · exact h a (List.mem_cons_of_mem _ (hsub ha)) y (hsub hy)

theorem heads_searched (h : Searched s s') : s'.heads ⊆ s.heads := by
  rw [State.heads, State.heads, h.chainActive]
  exact List.cons_subset_cons _ h.candidates

/-- Only the chain and the candidates matter. -/
theorem WithinHorizon.of_same (h : WithinHorizon c s) (hsame : SameChain s s') :
    WithinHorizon c s' := by
  obtain ⟨hactive, hcand, -, hheld⟩ := hsame
  refine ⟨?_, ?_, ?_⟩
  · rw [State.heads, hactive, hcand]
    exact h.shallow
  · rw [hactive, hcand]
    exact h.work
  · rw [hheld, hactive, hcand]
    exact h.held

theorem WithinHorizon.searched (h : WithinHorizon c s) (hs : Searched s s')
    (hheld : s.pindexMostWork = []) : WithinHorizon c s' := by
  refine ⟨h.shallow.mono (heads_searched hs) hs.candidates, fun q hq => ?_,
    .inl (hs.held.trans hheld)⟩
  rw [hs.chainActive]
  exact h.work q (hs.candidates hq)

/-! ## Block data -/

/-- An arriving block keeps the horizon if it stays shallow. -/
theorem WithinHorizon.arrived (h : WithinHorizon c s) {p : BlockRef}
    (hshallow : ShallowHeads c (s.heads ++ connectable s p)
      (s.setBlockIndexCandidates ++ connectable s p)) (harr : Arrived s p s') :
    WithinHorizon c s' := by
  have hcand : s'.setBlockIndexCandidates ⊆ s.setBlockIndexCandidates ++ connectable s p :=
    fun x hx => List.mem_append.mpr (harr.candidates x hx)
  have hheads : s'.heads ⊆ s.heads ++ connectable s p := by
    intro x hx
    rw [State.heads, harr.chainActive] at hx
    rcases List.mem_cons.mp hx with rfl | hx
    · exact List.mem_append_left _ List.mem_cons_self
    · exact List.mem_cons_of_mem _ (hcand hx)
  refine ⟨hshallow.mono hheads hcand, fun q hq => ?_, ?_⟩
  · rw [harr.chainActive]
    rcases harr.candidates q hq with hq | hq
    · exact h.work q hq
    · rw [connectable] at hq
      split at hq
      · cases hq
      · split at hq
        · exact of_decide_eq_true (List.mem_filter.mp hq).2
        · cases hq
  · rw [harr.held, harr.chainActive]
    rcases h.held with hnone | ⟨call, t, hheld, htip, ht⟩
    · exact .inl hnone
    · exact .inr ⟨call, t, hheld, htip, harr.keeps t ht⟩

/-! ## Activation -/

/-- The target of a call is a candidate within the horizon. -/
theorem WithinHorizon.target (h : WithinHorizon c s) {call : Nat}
    (halone : s.pindexMostWork.lookup call = none → s.pindexMostWork = []) {s₁ : State}
    {t : BlockRef} (ht : Target c s call s₁ t) :
    WithinHorizon c s₁ ∧ t ∈ s₁.setBlockIndexCandidates ∧
      (s₁.release call).pindexMostWork = [] := by
  cases ht with
  | held hlookup =>
    rcases h.held with hnone | ⟨call', t', hheld, htip, hmem⟩
    · rw [hnone] at hlookup
      cases hlookup
    · rw [hheld] at hlookup
      by_cases hcall : call = call'
      · subst hcall
        rw [List.lookup_cons_self, Option.some.injEq] at hlookup
        subst hlookup
        refine ⟨h, hmem, ?_⟩
        rw [State.release, hheld]
        simp
      · rw [List.lookup_cons, beq_false_of_ne hcall] at hlookup
        cases hlookup
  | found hnone hfound =>
    have hheld := halone hnone
    have hs := findMostWorkLoop_searched c (s.setBlockIndexCandidates.length + 1) s
    refine ⟨h.searched hs hheld, findMostWorkChain_some hfound, ?_⟩
    exact congrArg (List.filter _) (hs.held.trans hheld)

section

variable {t : BlockRef} {called : List BlockRef} {e : StepEnd} (h : WithinHorizon c s)
  (hD : 0 < c.nMaxReorgDepth) (ht : t ∈ s.setBlockIndexCandidates)
  (hstep : Activated s t s' called e)
include h hD ht hstep

theorem WithinHorizon.count_lt : (called.length : Int) < c.nMaxReorgDepth := by
  have hshallow := h.shallow s.chainActive List.mem_cons_self t ht
  have hlt := hshallow.length_sub_fork_lt (by omega) (h.work t ht)
  have hcount := hstep.count
  omega

theorem WithinHorizon.stepped :
    ShallowHeads c s'.heads s'.setBlockIndexCandidates ∧
      ∀ q ∈ s'.setBlockIndexCandidates, nChainWork s'.chainActive ≤ nChainWork q := by
  refine ⟨?_, hstep.work h.work⟩
  rcases hstep.toward with hdown | hup
  · exact h.shallow.move hD List.mem_cons_self hdown hstep.candidates
  · exact h.shallow.move hD (List.mem_cons_of_mem _ ht) hup hstep.candidates

end

/-- A call disconnects fewer blocks than the horizon allows. -/
theorem WithinHorizon.activate (h : WithinHorizon c s) (hD : 0 < c.nMaxReorgDepth) {call : Nat}
    {o : Outcomes} (halone : s.pindexMostWork.lookup call = none → s.pindexMostWork = [])
    {r : State × List BlockRef} (hr : ActivateCase c s call o r) :
    WithinHorizon c r.1 ∧ (r.2.length : Int) < c.nMaxReorgDepth := by
  cases hr with
  | noTarget hnone hfound =>
    have hs := findMostWorkLoop_searched c (s.setBlockIndexCandidates.length + 1) s
    have hnext := h.searched hs (halone hnone)
    exact ⟨⟨hnext.shallow, hnext.work,
      .inl (congrArg (List.filter _) (hs.held.trans (halone hnone)))⟩, hD⟩
  | reached ht =>
    obtain ⟨hs₁, -, hrelease⟩ := h.target halone ht
    exact ⟨⟨hs₁.shallow, hs₁.work, .inl hrelease⟩, hD⟩
  | @moved s₁ s₂ t called e ht hne hstep =>
    obtain ⟨hs₁, hmem, hrelease⟩ := h.target halone ht
    have hact := activateBestChainStep_activated c s₁ t o
    rw [hstep] at hact
    obtain ⟨hshallow, hwork⟩ := hs₁.stepped hD hmem hact
    refine ⟨⟨hshallow, hwork, .inl ?_⟩, hs₁.count_lt hD hmem hact⟩
    rw [State.release, hact.held]
    exact hrelease
  | @climbing s₁ s₂ t called ht hne hstep hnot =>
    obtain ⟨hs₁, hmem, hrelease⟩ := h.target halone ht
    have hact := activateBestChainStep_activated c s₁ t o
    rw [hstep] at hact
    obtain ⟨hshallow, hwork⟩ := hs₁.stepped hD hmem hact
    obtain ⟨htoward, hkept⟩ := hact.done rfl
    refine ⟨⟨hshallow, hwork, .inr ⟨call, t, ?_, htoward, hkept hmem⟩⟩, hs₁.count_lt hD hmem hact⟩
    rw [State.hold, State.release, hact.held]
    exact congrArg _ hrelease

/-! ## Runs -/

/-- One event keeps the horizon and disconnects fewer blocks than it allows. -/
theorem WithinHorizon.step (h : WithinHorizon c s) (hD : 0 < c.nMaxReorgDepth) (e : Event)
    (he : StaysShallow c s e) :
    WithinHorizon c (step c s e) ∧ ((disconnectCalls c s e).length : Int) < c.nMaxReorgDepth := by
  cases e with
  | header pindex checks =>
    exact ⟨h.of_same (acceptBlockHeader_sameChain c s pindex checks), hD⟩
  | block pindex a => exact ⟨h.arrived he (acceptBlock_arrived c s pindex a), hD⟩
  | activate call o => exact h.activate hD he (activateBestChain_cases c s call o)
  | compact => exact ⟨h.of_same (compactWitnessFiles_sameChain c s), hD⟩
  | compactFile fReserved => exact ⟨h.of_same (compactOneWitnessFile_sameChain c s fReserved), hD⟩
  | commitFile fWritten nTargetSize =>
    exact ⟨h.of_same (commitWitnessFile_sameChain s fWritten nTargetSize), hD⟩

/-- In a run that starts with the tip and the candidates shallow against each other, takes in
    block data only for blocks shallow against them, and runs one call of `ActivateBestChain` at a
    time, no step disconnects `nMaxReorgDepth` or more blocks. -/
theorem reorg_below_horizon (c : Config) (hD : 0 < c.nMaxReorgDepth) (s : State)
    (hs : WithinHorizon c s) (events : List Event)
    (hrun : Every (Selection.step c) (StaysShallow c) s events) :
    Every (Selection.step c)
      (fun s e => ((disconnectCalls c s e).length : Int) < c.nMaxReorgDepth) s events :=
  hrun.of_invariant (fun _ e hs he => (hs.step hD e he).1) (fun _ e hs he => (hs.step hD e he).2)
    hs

/-! ## A deep reorganisation -/

namespace Scenario

/-- A header by its hash, of work 1. -/
def header (hash : Nat) : Header := ⟨hash, 1, Nat.one_pos⟩

/-- The genesis block. -/
def genesis : BlockRef := [header 0]

/-- The main chain. -/
def a1 : BlockRef := header 1 :: genesis
def a2 : BlockRef := header 2 :: a1

/-- A branch from the genesis block. -/
def b1 : BlockRef := header 11 :: genesis
def b2 : BlockRef := header 12 :: b1
def b3 : BlockRef := header 13 :: b2

/-- Reorganisations of at most two blocks. -/
def config : Config := { nMaxReorgDepth := 2, genesis := header 0 }

/-- The node at block 1 of the main chain. -/
def start : State where
  mapBlockIndex := [a1, genesis]
  entry p :=
    if p = genesis then { fHaveData := true, fChainTx := true, nSequenceId := 1 }
    else if p = a1 then
      { fHaveData := true, fChainTx := true, fValidScripts := true, nSequenceId := 2 }
    else {}
  nBlockSequenceId := 3
  setBlockIndexCandidates := [a1]
  chainActive := a1
  pindexBestHeader := a1

theorem start_withinHorizon : WithinHorizon config start := by
  refine ⟨?_, ?_, .inl rfl⟩
  · decide +kernel
  · decide +kernel

/-- A block that was asked for. -/
def requested : BlockArrival := { fRequested := true, nBlockSize := 100 }

/-- The headers of the branch come while its fork is one block deep.  Then block 2
    arrives and is connected, and only then the data of the branch. -/
def lateBlockData : List Event :=
  [.header b1 {}, .header b2 {}, .header b3 {}, .block a2 requested, .activate 0 {},
    .block b1 requested, .block b2 requested, .block b3 requested, .activate 0 {}]

/-- The data of the branch comes at once, while its fork is one block deep. -/
def promptBlockData : List Event :=
  [.header b1 {}, .header b2 {}, .block b1 requested, .block b2 requested, .activate 0 {}]

end Scenario

open Scenario in
/-- A run that disconnects two blocks under a horizon of two: nothing asks for the
    depth again when the data of an accepted header arrives. -/
theorem reorg_of_late_block_data :
    WithinHorizon config start ∧
      ((lateBlockData.take 8).foldl (step config) start).chainActive = a2 ∧
      disconnectCalls config ((lateBlockData.take 8).foldl (step config) start)
        (.activate 0 {}) = [a2, a1] ∧
      (lateBlockData.foldl (step config) start).chainActive = b3 ∧
      ¬ Every (step config)
        (fun s e => ((disconnectCalls config s e).length : Int) < config.nMaxReorgDepth)
        start lateBlockData := by
  refine ⟨start_withinHorizon, ?_, ?_, ?_, ?_⟩
  · decide +kernel
  · decide +kernel
  · decide +kernel
  · decide +kernel

open Scenario in
/-- A run within the condition that does reorganise, one block deep. -/
theorem reorg_below_horizon_prompt :
    (promptBlockData.foldl (step config) start).chainActive = b2 ∧
      Every (step config)
        (fun s e => ((disconnectCalls config s e).length : Int) < config.nMaxReorgDepth)
        start promptBlockData := by
  refine ⟨?_, reorg_below_horizon config ?_ start start_withinHorizon promptBlockData ?_⟩
  · decide +kernel
  · decide
  · decide +kernel

end Soqucoin.Selection
