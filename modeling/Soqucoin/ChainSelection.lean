import Soqucoin.Params
import Soqucoin.BlockFiles
import Soqucoin.BranchProofs

/-! # ChainSelection — the block index and the choice of the active chain

How a node that has left initial block download takes in headers (`AcceptBlockHeader`), block data
(`AcceptBlock`), moves its active chain (`ActivateBestChain`) and strips old blocks of their
witnesses (`CompactWitnessFiles`), all from `validation.cpp`.

`cs_main` is released between the iterations of `ActivateBestChain` and between the two locked
parts of a compaction, so each of these is an event of its own.  What an event finds outside the
index (the verdicts of the checks, of `ConnectBlock`, of the disk) is part of the event. -/

namespace Soqucoin.Selection

open Branch

/-! ## Blocks and chains -/

/-- What chain selection reads of a header. -/
structure Header where
  hash : Nat
  /-- `GetBlockProof`: positive for every target the proof-of-work check lets through. -/
  proof : Nat
  proof_pos : 0 < proof
deriving DecidableEq

/-- A `CBlockIndex*`: the block with its ancestors, itself first, so that `pprev`
    is the tail and NULL the empty list.  The hash of a block commits to the hash
    of its parent, so a block is known by this list. -/
abbrev BlockRef := List Header

/-- The height of a block: the genesis block has height 0. -/
def nHeight (pindex : BlockRef) : Int := pindex.length - 1

/-- The work of the chain that ends in the block. -/
def nChainWork (pindex : BlockRef) : Nat := (pindex.map Header.proof).sum

/-- `GetAncestor`: the ancestor at a height, null outside the chain. -/
def getAncestor (pindex : BlockRef) (height : Int) : BlockRef :=
  if height < 0 || nHeight pindex < height then []
  else pindex.drop (nHeight pindex - height).toNat

/-- `CChain::FindFork`, of the chain that ends in `tip`. -/
def findFork (tip pindex : BlockRef) : BlockRef :=
  fork tip (if nHeight tip < nHeight pindex then getAncestor pindex (nHeight tip) else pindex)

/-- `CChain::Contains`, of the chain that ends in `tip`. -/
def inChain (tip pindex : BlockRef) : Bool := pindex ≠ [] && pindex <:+ tip

/-- The blocks from the given one down to `base`, without `base`. -/
def chainAbove (base : BlockRef) : BlockRef → List BlockRef
  | [] => []
  | h :: t => if h :: t = base then [] else (h :: t) :: chainAbove base t

/-! ## The state -/

/-- What the index notes about a block. -/
structure IndexEntry where
  /-- `BLOCK_HAVE_DATA`. -/
  fHaveData : Bool := false
  /-- `BLOCK_FAILED_MASK`. -/
  fFailed : Bool := false
  /-- The validity has reached `BLOCK_VALID_SCRIPTS`. -/
  fValidScripts : Bool := false
  /-- `BLOCK_WITNESS_PRUNED`. -/
  fWitnessPruned : Bool := false
  /-- `nChainTx != 0`: the data of the block and of all its ancestors is here. -/
  fChainTx : Bool := false
  nSequenceId : Nat := 0
  nFile : Nat := 0
deriving DecidableEq

/-- A file that compaction has taken up and not yet committed. -/
structure CompactionJob where
  nFile : Nat
  nTargetFile : Nat
  nSourceUndoSize : Nat
  vBlocks : List BlockRef
deriving DecidableEq

/-- What chain selection reads and writes, under `cs_main`. -/
structure State where
  mapBlockIndex : List BlockRef
  entry : BlockRef → IndexEntry
  gFailedBlocks : List BlockRef := []
  nBlockSequenceId : Nat := 1
  setBlockIndexCandidates : List BlockRef
  /-- The children of `mapBlocksUnlinked`, each standing under its `pprev`. -/
  mapBlocksUnlinked : List BlockRef := []
  chainActive : BlockRef
  pindexBestHeader : BlockRef
  /-- The calls of `ActivateBestChain` under way that hold a `pindexMostWork`. -/
  pindexMostWork : List (Nat × BlockRef) := []
  files : BlockFiles := {}
  /-- The files the compaction pass under way has still to take up. -/
  vEligible : List Nat := []
  job : Option CompactionJob := none

/-- The chain's parameters, and the addresses of the index entries in memory. -/
structure Config where
  nMaxReorgDepth : Int
  genesis : Header
  address : BlockRef → Nat := fun _ => 0

namespace State

/-- Replace the entry of one block. -/
def setEntry (s : State) (pindex : BlockRef) (e : IndexEntry) : State :=
  { s with entry := Function.update s.entry pindex e }

/-- Mark the blocks as failed. -/
def markFailed (s : State) (blocks : List BlockRef) : State :=
  { s with
    entry := fun p => if p ∈ blocks then { s.entry p with fFailed := true } else s.entry p }

/-- `setBlockIndexCandidates.insert`. -/
def insertCandidate (s : State) (pindex : BlockRef) : State :=
  if pindex ∈ s.setBlockIndexCandidates then s
  else { s with setBlockIndexCandidates := pindex :: s.setBlockIndexCandidates }

/-- `setBlockIndexCandidates.erase`. -/
def eraseCandidates (s : State) (blocks : List BlockRef) : State :=
  { s with
    setBlockIndexCandidates := s.setBlockIndexCandidates.filter (fun p => p ∉ blocks) }

end State

/-- `CBlockIndexWorkComparator`. -/
def worse (c : Config) (s : State) (pa pb : BlockRef) : Bool :=
  if nChainWork pb < nChainWork pa then false
  else if nChainWork pa < nChainWork pb then true
  else if (s.entry pa).nSequenceId < (s.entry pb).nSequenceId then false
  else if (s.entry pb).nSequenceId < (s.entry pa).nSequenceId then true
  else decide (c.address pb < c.address pa)

/-! ## Headers -/

/-- The verdicts of the header checks other than the finality horizon. -/
structure HeaderChecks where
  checkBlockHeader : Check Unit := .ok ()
  /-- `ContextualCheckBlockHeader`, the rules ahead of the horizon. -/
  beforeHorizon : Check Unit := .ok ()
  /-- The rules behind it. -/
  afterHorizon : Check Unit := .ok ()

/-- The finality horizon of `ContextualCheckBlockHeader`, after initial block download. -/
def checkHorizon (c : Config) (s : State) (pindexPrev : BlockRef) : Check Unit :=
  let pforkPrev := findFork s.chainActive pindexPrev
  if 0 < c.nMaxReorgDepth && pindexPrev ≠ [] && s.chainActive ≠ [] && pforkPrev ≠ [] &&
      c.nMaxReorgDepth ≤ nHeight s.chainActive - nHeight pforkPrev then
    .error (.dos 0 "bad-fork-beyond-finality")
  else .ok ()

/-- `ContextualCheckBlockHeader`, with the reorganisation rule among its other checks. -/
def contextualCheckBlockHeader (c : Config) (s : State) (pindexPrev : BlockRef)
    (checks : HeaderChecks) : Check Unit := do
  checks.beforeHorizon
  checkHorizon c s pindexPrev
  checks.afterHorizon

/-- A block of `gFailedBlocks` that `pindexPrev` descends from; not looked for
    where `pindexPrev` has been connected before. -/
def failedAncestor (s : State) (pindexPrev : BlockRef) : Option BlockRef :=
  if (s.entry pindexPrev).fValidScripts then none
  else s.gFailedBlocks.find? (fun failedit => inChain pindexPrev failedit)

/-- `AddToBlockIndex`: a known block keeps its entry. -/
def addToBlockIndex (s : State) (pindex : BlockRef) : State :=
  if pindex ∈ s.mapBlockIndex then s
  else
    { s.setEntry pindex {} with
      mapBlockIndex := pindex :: s.mapBlockIndex
      pindexBestHeader :=
        if nChainWork s.pindexBestHeader < nChainWork pindex then pindex
        else s.pindexBestHeader }

/-- `AcceptBlockHeader`. -/
def acceptBlockHeader (c : Config) (s : State) (pindex : BlockRef) (checks : HeaderChecks) :
    State × Check Unit :=
  if pindex = [c.genesis] then (addToBlockIndex s pindex, .ok ())
  else if pindex ∈ s.mapBlockIndex then
    (s, if (s.entry pindex).fFailed then .error (.invalid "duplicate") else .ok ())
  else
    match checks.checkBlockHeader with
    | .error e => (s, .error e)
    | .ok () =>
      let pindexPrev := pindex.tail
      if pindexPrev ∉ s.mapBlockIndex then (s, .error (.dos 10 "bad-prevblk"))
      else if (s.entry pindexPrev).fFailed then (s, .error (.dos 100 "bad-prevblk"))
      else
        match contextualCheckBlockHeader c s pindexPrev checks with
        | .error e => (s, .error e)
        | .ok () =>
          match failedAncestor s pindexPrev with
          | some failedit =>
            (s.markFailed (chainAbove failedit pindexPrev), .error (.dos 100 "bad-prevblk"))
          | none => (addToBlockIndex s pindex, .ok ())

/-! ## Block data -/

def MIN_BLOCKS_TO_KEEP : Int := 1440

/-- A block as it is handed to `AcceptBlock`, with what the checks and the disk will say. -/
structure BlockArrival where
  header : HeaderChecks := {}
  fRequested : Bool
  /-- `CheckBlock` and `ContextualCheckBlock`. -/
  checkBlock : Check Unit := .ok ()
  fCorruptionPossible : Bool := false
  nBlockSize : Nat
  /-- `FindBlockPos` finds the disk space it allocates ahead. -/
  diskSpace : Bool := true

/-- `CValidationState::IsInvalid`, of a failed check. -/
def isInvalid : Failure → Bool
  | .dos _ _ => true
  | .invalid _ => true
  | .abort _ => false

/-- One round of the loop in `ReceivedBlockTransactions`: the block is linked to
    the genesis block and may become a candidate. -/
def linkBlock (c : Config) (s : State) (pindex : BlockRef) : State :=
  let s :=
    { s.setEntry pindex
        { s.entry pindex with fChainTx := true, nSequenceId := s.nBlockSequenceId } with
      nBlockSequenceId := s.nBlockSequenceId + 1
      mapBlocksUnlinked := s.mapBlocksUnlinked.filter (fun q => q.tail ≠ pindex) }
  if s.chainActive = [] || !worse c s pindex s.chainActive then s.insertCandidate pindex else s

/-- The loop: children that waited for the block follow it through the queue. -/
def linkLoop (c : Config) : Nat → State → List BlockRef → State
  | 0, s, _ => s
  | _ + 1, s, [] => s
  | fuel + 1, s, pindex :: queue =>
    linkLoop c fuel (linkBlock c s pindex)
      (queue ++ s.mapBlocksUnlinked.filter (fun q => q.tail = pindex))

/-- `ReceivedBlockTransactions`: the block has its data, and so may descendants that waited for it.
    -/
def receivedBlockTransactions (c : Config) (s : State) (pindexNew : BlockRef) (nFile : Nat) :
    State :=
  let s := s.setEntry pindexNew
    { s.entry pindexNew with fHaveData := true, fChainTx := false, nFile := nFile }
  if pindexNew.tail = [] || (s.entry pindexNew.tail).fChainTx then
    -- every round takes a block off the queue that was the first or waited
    linkLoop c (s.mapBlocksUnlinked.length + 1) s [pindexNew]
  else if (s.entry pindexNew.tail).fFailed then s
  else { s with mapBlocksUnlinked := pindexNew :: s.mapBlocksUnlinked }

/-- The rest of `AcceptBlock`, once the header is accepted. -/
def storeBlock (c : Config) (s : State) (pindex : BlockRef) (a : BlockArrival) : State :=
  if (s.entry pindex).fHaveData then s
  else if !a.fRequested && (nChainWork pindex ≤ nChainWork s.chainActive ||
      nHeight s.chainActive + MIN_BLOCKS_TO_KEEP < nHeight pindex) then s
  else
    match a.checkBlock with
    | .error e =>
      if isInvalid e && !a.fCorruptionPossible then s.markFailed [pindex] else s
    | .ok () =>
      let (pos, files) := s.files.findBlockPos (a.nBlockSize + 8)
      let s := { s with files := files }
      if a.diskSpace then receivedBlockTransactions c s pindex pos.nFile else s

/-- `AcceptBlock`. -/
def acceptBlock (c : Config) (s : State) (pindex : BlockRef) (a : BlockArrival) : State :=
  match acceptBlockHeader c s pindex a.header with
  | (s, .error _) => s
  | (s, .ok ()) => storeBlock c s pindex a

/-! ## The active chain -/

/-- The last element of the candidate set in the comparator's order. -/
def bestOf (c : Config) (s : State) : List BlockRef → Option BlockRef
  | [] => none
  | p :: rest =>
    match bestOf c s rest with
    | none => some p
    | some q => if worse c s p q then some q else some p

/-- The first block, from the given one down to the active chain, that is marked
    as failed or whose data is missing. -/
def firstUnusable (s : State) : BlockRef → Option BlockRef
  | [] => none
  | h :: t =>
    if inChain s.chainActive (h :: t) then none
    else if (s.entry (h :: t)).fFailed || !(s.entry (h :: t)).fHaveData then some (h :: t)
    else firstUnusable s t

/-- `FindMostWorkChain` drops a candidate whose chain is not usable, with all of that chain. -/
def dropChain (s : State) (pindexNew pindexTest : BlockRef) : State :=
  let above := chainAbove pindexTest pindexNew
  let s :=
    if (s.entry pindexTest).fFailed then s.markFailed above
    else { s with mapBlocksUnlinked := above ++ s.mapBlocksUnlinked }
  s.eraseCandidates (pindexTest :: above)

/-- The loop of `FindMostWorkChain`: the best candidate whose chain has all its data. -/
def findMostWorkLoop (c : Config) : Nat → State → State × Option BlockRef
  | 0, s => (s, none)
  | fuel + 1, s =>
    match bestOf c s s.setBlockIndexCandidates with
    | none => (s, none)
    | some pindexNew =>
      match firstUnusable s pindexNew with
      | none => (s, some pindexNew)
      | some pindexTest => findMostWorkLoop c fuel (dropChain s pindexNew pindexTest)

/-- Every round of the loop takes a candidate away. -/
def findMostWorkChain (c : Config) (s : State) : State × Option BlockRef :=
  findMostWorkLoop c (s.setBlockIndexCandidates.length + 1) s

/-- `PruneBlockIndexCandidates`: drop the candidates worse than the tip. -/
def pruneBlockIndexCandidates (c : Config) (s : State) : State :=
  { s with
    setBlockIndexCandidates :=
      s.setBlockIndexCandidates.filter (fun p => !worse c s p s.chainActive) }

/-- What `ConnectTip` says of a block. -/
inductive ConnectVerdict
  | ok
  /-- `ConnectBlock` found it invalid. -/
  | invalid
  /-- Invalid, with `CorruptionPossible`. -/
  | corrupt
  /-- A system error, before or after `ConnectBlock` raised the validity. -/
  | error (fValidated : Bool)
deriving DecidableEq

/-- How the blocks of one activation step fare. -/
structure Outcomes where
  /-- `DisconnectTip` succeeds, for a block that has its witnesses. -/
  disconnect : BlockRef → Bool := fun _ => true
  connect : BlockRef → ConnectVerdict := fun _ => .ok
  fShutdown : Bool := false

/-- The disconnecting loop of `ActivateBestChainStep`: the tip it ends with, the
    blocks `DisconnectBlock` is called on, and whether all were disconnected.
    `DisconnectBlock` refuses a block without witnesses. -/
def disconnectLoop (s : State) (o : Outcomes) (pindexFork : BlockRef) :
    BlockRef → BlockRef × List BlockRef × Bool
  | [] => ([], [], true)
  | h :: t =>
    if h :: t = pindexFork then (h :: t, [], true)
    else if o.disconnect (h :: t) && !(s.entry (h :: t)).fWitnessPruned then
      let (tip, called, ok) := disconnectLoop s o pindexFork t
      (tip, (h :: t) :: called, ok)
    else (h :: t, [h :: t], false)

/-- How a step towards the best chain ended. -/
inductive StepEnd
  | done
  | invalidFound
  | failed
deriving DecidableEq

/-- `InvalidBlockFound`, for a block that cannot be valid. -/
def invalidBlockFound (s : State) (pindex : BlockRef) : State :=
  { (s.markFailed [pindex]).eraseCandidates [pindex] with
    gFailedBlocks := pindex :: s.gFailedBlocks }

/-- `RaiseValidity(BLOCK_VALID_SCRIPTS)`. -/
def raiseValidity (s : State) (pindex : BlockRef) : State :=
  if (s.entry pindex).fFailed then s
  else s.setEntry pindex { s.entry pindex with fValidScripts := true }

/-- `ConnectTip` of a block that passes, with the pruning of the candidates that follows it. -/
def connectTip (c : Config) (s : State) (pindexNew : BlockRef) : State :=
  pruneBlockIndexCandidates c { raiseValidity s pindexNew with chainActive := pindexNew }

/-- The blocks of `ActivateBestChainStep`, connected one after another. -/
def connectLoop (c : Config) (o : Outcomes) (pindexOldTip : BlockRef) :
    List BlockRef → State → State × StepEnd
  | [], s => (s, .done)
  | pindex :: rest, s =>
    match o.connect pindex with
    | .error fValidated => (if fValidated then raiseValidity s pindex else s, .failed)
    | .corrupt => (s, .invalidFound)
    | .invalid => (invalidBlockFound s pindex, .invalidFound)
    | .ok =>
      let s := connectTip c s pindex
      if nChainWork pindexOldTip < nChainWork pindex then (s, .done)
      else connectLoop c o pindexOldTip rest s

/-- `ActivateBestChainStep`, with the blocks it calls `DisconnectBlock` on. -/
def activateBestChainStep (c : Config) (s : State) (pindexMostWork : BlockRef) (o : Outcomes) :
    State × List BlockRef × StepEnd :=
  let pindexFork := findFork s.chainActive pindexMostWork
  let (tip, called, ok) := disconnectLoop s o pindexFork s.chainActive
  let s' := { s with chainActive := tip }
  if ok then
    let (s', stepEnd) :=
      connectLoop c o s.chainActive (chainAbove pindexFork pindexMostWork).reverse s'
    (s', called, stepEnd)
  else (s', called, .failed)

/-- The call of `ActivateBestChain` holds no `pindexMostWork`, or has ended. -/
def State.release (s : State) (call : Nat) : State :=
  { s with pindexMostWork := s.pindexMostWork.filter (fun held => held.1 ≠ call) }

/-- A call remembers the block it works towards. -/
def State.hold (s : State) (call : Nat) (pindexMostWork : BlockRef) : State :=
  { s.release call with
    pindexMostWork := (call, pindexMostWork) :: (s.release call).pindexMostWork }

/-- One iteration of a call of `ActivateBestChain`, with the blocks it calls
    `DisconnectBlock` on. -/
def activateBestChain (c : Config) (s : State) (call : Nat) (o : Outcomes) :
    State × List BlockRef :=
  let (s, target) :=
    match s.pindexMostWork.lookup call with
    | some pindexMostWork => (s, some pindexMostWork)
    | none => findMostWorkChain c s
  match target with
  | none => (s.release call, [])
  | some pindexMostWork =>
    if pindexMostWork = s.chainActive then (s.release call, [])
    else
      match activateBestChainStep c s pindexMostWork o with
      | (s, called, .done) =>
        (if o.fShutdown || s.chainActive = pindexMostWork then s.release call
          else s.hold call pindexMostWork, called)
      | (s, called, _) => (s.release call, called)

/-! ## Witness compaction -/

/-- `WitnessFileEligibleForCompaction`: all blocks of the file are deeper than any reorganisation.
    -/
def witnessFileEligibleForCompaction (c : Config) (s : State) (nFile : Nat) : Bool :=
  0 ≤ nHeight s.chainActive && 0 < c.nMaxReorgDepth &&
    nFile < s.files.nFiles && nFile ≠ s.files.nLastBlockFile &&
    (s.files.vinfoBlockFile nFile).nBlocks ≠ 0 &&
    s.mapBlockIndex.all (fun pindex =>
      let e := s.entry pindex
      e.nFile ≠ nFile ||
        (!e.fWitnessPruned && e.fHaveData &&
          (nHeight pindex ≤ 0 || (e.fValidScripts && !e.fFailed)) &&
          inChain s.chainActive pindex &&
          c.nMaxReorgDepth < nHeight s.chainActive - nHeight pindex))

/-- The best header has more work than the tip and forks below the horizon. -/
def bestHeaderBeyondHorizon (c : Config) (s : State) : Bool :=
  let pfork := findFork s.chainActive s.pindexBestHeader
  s.pindexBestHeader ≠ [] && s.chainActive ≠ [] &&
    nChainWork s.chainActive < nChainWork s.pindexBestHeader &&
    (pfork = [] || (0 < c.nMaxReorgDepth &&
      c.nMaxReorgDepth < nHeight s.chainActive - nHeight pfork))

/-- `CompactWitnessFiles`, its first locked part: the files of the pass.  A pass
    starts when the one before it has ended. -/
def compactWitnessFiles (c : Config) (s : State) : State :=
  if s.vEligible ≠ [] || s.job ≠ none || bestHeaderBeyondHorizon c s then s
  else
    { s with
      vEligible := (List.range s.files.nFiles).filter (fun nFile =>
        nFile ≠ s.files.nLastBlockFile && witnessFileEligibleForCompaction c s nFile) }

/-- `CompactOneWitnessFile`, its first locked part, for the next file of the pass: the blocks are
    listed and a target reserved.  A reservation that cannot be written ends the pass. -/
def compactOneWitnessFile (c : Config) (s : State) (fReserved : Bool) : State :=
  match s.vEligible, s.job with
  | nFile :: rest, none =>
    if !witnessFileEligibleForCompaction c s nFile then { s with vEligible := rest }
    else
      let indexed := (s.mapBlockIndex.filter (fun p => (s.entry p).fHaveData)).map
        (fun p => (s.entry p).nFile)
      let (nTargetFile, files) := s.files.reserve indexed
      if !fReserved then { s with files := files, vEligible := [] }
      else
        { s with
          files := files
          vEligible := rest
          job := some
            ⟨nFile, nTargetFile, (s.files.vinfoBlockFile nFile).nUndoSize,
              s.mapBlockIndex.filter (fun p => (s.entry p).nFile = nFile)⟩ }
  | _, _ => s

/-- Its second locked part: the blocks move to the target and are marked.  A file
    operation that failed in between has ended the pass. -/
def commitWitnessFile (s : State) (fWritten : Bool) (nTargetSize : Nat) : State :=
  match s.job with
  | none => s
  | some job =>
    if fWritten then
      { s with
        entry := fun p =>
          if p ∈ job.vBlocks then
            { s.entry p with nFile := job.nTargetFile, fWitnessPruned := true }
          else s.entry p
        files := s.files.retire job.nFile job.nTargetFile
          ⟨job.vBlocks.length, nTargetSize, job.nSourceUndoSize⟩
        job := none }
    else { s with job := none, vEligible := [] }

/-! ## Runs -/

/-- What can happen to a node. -/
inductive Event
  | header (pindex : BlockRef) (checks : HeaderChecks)
  | block (pindex : BlockRef) (a : BlockArrival)
  | activate (call : Nat) (o : Outcomes)
  | compact
  | compactFile (fReserved : Bool)
  | commitFile (fWritten : Bool) (nTargetSize : Nat)

/-- The state after an event, and the blocks it disconnected. -/
def react (c : Config) (s : State) : Event → State × List BlockRef
  | .header pindex checks => ((acceptBlockHeader c s pindex checks).1, [])
  | .block pindex a => (acceptBlock c s pindex a, [])
  | .activate call o => activateBestChain c s call o
  | .compact => (compactWitnessFiles c s, [])
  | .compactFile fReserved => (compactOneWitnessFile c s fReserved, [])
  | .commitFile fWritten nTargetSize => (commitWitnessFile s fWritten nTargetSize, [])

/-- The state after an event. -/
def step (c : Config) (s : State) (e : Event) : State := (react c s e).1

/-- The blocks that an event disconnects. -/
def disconnectCalls (c : Config) (s : State) (e : Event) : List BlockRef := (react c s e).2

end Soqucoin.Selection
