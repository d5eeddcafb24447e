import Soqucoin.Bech32m
import Soqucoin.CheckedLoopProofs
import Soqucoin.OrderedDictProofs

/-! # Snapshot — the genesis-migration tool

`snapshot.py` of `contrib/genesis-migration`.  The tool walks the history of a mint page by page,
classifies every transaction of the window, adds up the eligible burns by destination, withholds
tainted destinations and keeps the largest allocations.

Python strings are `String`, ordered by code point; sets are lists; a dict is an `OrderedDict`;
`SystemExit` and any other exception end the run. -/

namespace Soqucoin.Snapshot

open CheckedLoop

/-- What a memo that names an address starts with. -/
def MEMO_PREFIX : String := "SOQMIG1:"
def ADDRESS_HRP : String := "sq"
/-- The decimals of the token. -/
def PSOQ_DECIMALS : Int := 6
/-- What a base unit is worth. -/
def BASE_UNITS_TO_SATS : Int := 100
/-- A burn below this counts nothing. -/
def DUST_FLOOR_BASE_UNITS : Int := 1000000

/-- The programs whose burns count. -/
def TOKEN_PROGRAMS : List String :=
  ["TokenkegQfeZyiNwAJbNbGKPFXCWuBvf9Ss623VQ5DA", "TokenzQdBNbLqP5VEhdkAS6EPFLC1PHnBqCXEpPxuEb"]

/-- The programs whose memos count. -/
def MEMO_PROGRAMS : List String :=
  ["MemoSq4gqABAXKb96qnH8TysNcWxMyWCqXgDLGmfcHr", "Memo1UhkJRfHyvLMcVucJwxXeuD728EqVDDwQDxFMNo"]

/-- `MAX_ALLOCATION_OUTPUTS` of `serialize.py`. -/
def MAX_ALLOCATION_OUTPUTS : Nat := 20000

/-! ## What the provider serves -/

/-- An entry of `getSignaturesForAddress`. -/
structure SignatureEntry where
  slot : Nat
  signature : String
deriving DecidableEq

/-- The fields of `tokenAmount` that the tool reads. -/
structure TokenAmount where
  decimals : Option Int := none
  amount : Option Int := none

/-- The fields of `parsed["info"]` the tool reads. -/
structure BurnInfo where
  mint : Option String := none
  tokenAmount : TokenAmount := {}
  authority : Option String := none
  multisigAuthority : Option String := none

/-- `ins["parsed"]`: a dict, a string, or anything else. -/
inductive Parsed where
  | dict (type : Option String) (info : BurnInfo)
  | text (s : String)
  | other

/-- An instruction of a transaction, as the provider parses it. -/
structure Instruction where
  programId : Option String
  parsed : Parsed

/-- The metadata of a transaction. -/
structure TxMeta where
  err : Option String := none
  innerInstructions : List (List Instruction) := []

/-- A transaction, as the provider returns it. -/
structure Tx where
  slot : Option Nat
  txMeta : Option TxMeta
  instructions : List Instruction

/-- The provider.  Signature pages move while the tool runs, so a page depends on the number of
    the call as well as on the cursor; a finalized transaction does not change. -/
structure RpcClient where
  getSignaturesForAddress : Nat → String → Option String → List SignatureEntry
  getTransaction : String → Option Tx

/-- The ways a run can stop without a result. -/
inductive SystemExit where
  | noSignatures
  | historyEnds (lowest openSlot : Nat)
  | noTransaction (sig : String)
  | noMetadata (sig : String)
  | slotMismatch (sig : String) (slot txSlot : Nat)
  /-- An exception of Python: a missing key or a number that does not parse. -/
  | raised
  /-- The walk did not end within the pages it was given. -/
  | unfinished
deriving DecidableEq

/-- The texts the tool stops with. -/
def SystemExit.message : SystemExit → String
  | noSignatures => "the provider returned no signatures for the mint; refusing to guess"
  | historyEnds lowest openSlot =>
    s!"the provider's signature history ends at slot {lowest}, above " ++
      s!"the window open slot {openSlot}; it does not serve the whole window"
  | noTransaction sig => s!"finalized signature {sig} has no transaction; refusing to guess"
  | noMetadata sig =>
    s!"finalized signature {sig} has no transaction metadata; refusing to guess"
  | slotMismatch sig slot txSlot =>
    s!"signature {sig} is at slot {slot} in the signature list and at " ++
      s!"slot {txSlot} in its transaction; refusing to guess"
  | raised => "uncaught exception"
  | unfinished => ""

/-! ## The page walk -/

/-- By slot, then by signature. -/
def SignatureEntry.le (a b : SignatureEntry) : Prop :=
  a.slot < b.slot ∨ (a.slot = b.slot ∧ a.signature ≤ b.signature)

instance SignatureEntry.decidableLe : DecidableRel SignatureEntry.le :=
  fun _ _ => inferInstanceAs (Decidable (_ ∨ _))

/-- The slot is between the opening and the cutoff. -/
def inWindow (openSlot cutoffSlot : Nat) (e : SignatureEntry) : Bool :=
  openSlot ≤ e.slot && e.slot ≤ cutoffSlot

/-- The `while` loop of `enumerate_signatures`; `fuel` bounds the number of pages asked for. -/
def walkPages (rpc : RpcClient) (mint : String) (openSlot cutoffSlot : Nat) :
    (fuel call : Nat) → (before : Option String) → (lowest : Option Nat) →
      (sigs : List SignatureEntry) → Except SystemExit (List SignatureEntry)
  | 0, _, _, _, _ => .error .unfinished
  | fuel + 1, call, before, lowest, sigs =>
    -- `if before:` leaves an empty cursor out of the request.
    let page := rpc.getSignaturesForAddress call mint (before.filter (· ≠ ""))
    match page.getLast? with
    | none =>
      match lowest with
      | none => .error .noSignatures
      | some lowest => .error (.historyEnds lowest openSlot)
    | some last =>
      let sigs := sigs ++ page.filter (inWindow openSlot cutoffSlot)
      if last.slot < openSlot then .ok sigs
      else walkPages rpc mint openSlot cutoffSlot fuel (call + 1) (some last.signature)
        (some last.slot) sigs

/-- `sorted(set(sigs))`. -/
def sortedSet (sigs : List SignatureEntry) : List SignatureEntry :=
  sigs.dedup.insertionSort SignatureEntry.le

/-- `enumerate_signatures`: the signatures of the window, sorted, each once. -/
def enumerateSignatures (rpc : RpcClient) (mint : String) (openSlot cutoffSlot fuel : Nat) :
    Except SystemExit (List SignatureEntry) := do
  let sigs ← walkPages rpc mint openSlot cutoffSlot fuel 0 none none []
  return sortedSet sigs

/-! ## One transaction -/

/-- `walk_instructions`: the outer ones, then the inner ones. -/
def walkInstructions (tx : Tx) : List Instruction :=
  tx.instructions ++ ((tx.txMeta.map TxMeta.innerInstructions).getD []).flatten

/-- The instruction is one of a token program. -/
def isTokenProgram (ins : Instruction) : Bool := ins.programId.any (TOKEN_PROGRAMS.contains ·)

/-- `a or b`, for strings that may be missing. -/
def orElseStr (a b : Option String) : Option String := if a.getD "" = "" then b else a

/-- `parse_burn`: amount and authority of a checked burn of the mint. -/
def parseBurn (ins : Instruction) (mint : String) : Except SystemExit (Option (Int × String)) :=
  if !isTokenProgram ins then .ok none
  else
    match ins.parsed with
    | .dict type info =>
      if type ≠ some "burnChecked" then .ok none
      else if info.mint ≠ some mint then .ok none
      else if info.tokenAmount.decimals.getD (-1) ≠ PSOQ_DECIMALS then .ok none
      else
        match info.tokenAmount.amount with
        | none => .error .raised
        | some baseUnits =>
          .ok (some (baseUnits, (orElseStr info.authority info.multisigAuthority).getD ""))
    | _ => .ok none

/-- A burn of the mint without its decimals. -/
def isUncheckedBurn (ins : Instruction) (mint : String) : Bool :=
  isTokenProgram ins &&
    match ins.parsed with
    | .dict type info => type = some "burn" && info.mint = some mint
    | _ => false

/-- `parse_memo`. -/
def parseMemo (ins : Instruction) : Option String :=
  if !ins.programId.any (MEMO_PROGRAMS.contains ·) then none
  else
    match ins.parsed with
    | .text s => some s
    | _ => none

/-- What the loop over the instructions collects. -/
structure TxScan where
  burns : List (Int × String) := []
  memos : List String := []
  unchecked : Bool := false

/-- What the loop over the instructions of a transaction notes. -/
def scanInstruction (mint : String) (s : TxScan) (ins : Instruction) :
    Except SystemExit TxScan := do
  let burn ← parseBurn ins mint
  return { burns := s.burns ++ burn.toList
           unchecked := s.unchecked || isUncheckedBurn ins mint
           memos := s.memos ++ (parseMemo ins).toList }

/-- Why a transaction is not credited. -/
inductive Reason where
  | txFailed | uncheckedBurn | noBurn | projectAddress | noMemo | multipleMemos
  | malformedMemo | invalidAddress | projectDestination | belowDustFloor | withheld
deriving DecidableEq

/-- Its text in the exclusion list. -/
def Reason.code : Reason → String
  | txFailed => "tx-failed"
  | uncheckedBurn => "unchecked-burn"
  | noBurn => "no-burn"
  | projectAddress => "project-address"
  | noMemo => "no-memo"
  | multipleMemos => "multiple-memos"
  | malformedMemo => "malformed-memo"
  | invalidAddress => "invalid-address"
  | projectDestination => "project-destination"
  | belowDustFloor => "below-dust-floor"
  | withheld => "withheld"

/-- Why a burn is withheld. -/
inductive Ground where
  | sdnAuthority (authority : String)
  | excludedAuthority (authority : String)
  | excludedDestination (destination : String)
  | taintedDestination (destination : String) (taintedBy : List String)
deriving DecidableEq

/-- The five published lists. -/
structure Lists where
  sdnAddresses : List String
  projectAddresses : List String
  projectDestinations : List String
  excludedAuthorities : List String
  excludedDestinations : List String

/-- What the tool makes of a transaction. -/
inductive Verdict where
  | excluded (reason : Reason)
  | withheld (address : String) (grounds : List Ground)
  | eligible (address : String) (sats : Int) (authorities : List String)
deriving DecidableEq

/-- The destination a memo names: the text after the prefix, an all-uppercase spelling lowered. -/
def memoAddress (py : StrMethods) (memo : String) : Except Reason String :=
  if !MEMO_PREFIX.toList.isPrefixOf memo.toList then .error .malformedMemo
  else
    let address := String.ofList (memo.toList.drop MEMO_PREFIX.toList.length)
    if address ≠ py.strip address then .error .invalidAddress
    else
      let address := if py.isupper address then py.lower address else address
      match decodeV1Address py ADDRESS_HRP address with
      | none => .error .invalidAddress
      | some _ => .ok address

/-- The legal screen: every ground that applies. -/
def legalGrounds (lists : Lists) (authorities : List String) (address : String) : List Ground :=
  (authorities.filter (lists.sdnAddresses.contains ·)).map .sdnAuthority ++
    (authorities.filter (lists.excludedAuthorities.contains ·)).map .excludedAuthority ++
    (if lists.excludedDestinations.contains address then [.excludedDestination address] else [])

/-- `classify_tx` after the loop over the instructions. -/
def judge (py : StrMethods) (lists : Lists) (s : TxScan) : Verdict :=
  if s.burns.isEmpty then .excluded (if s.unchecked then .uncheckedBurn else .noBurn)
  else if s.unchecked then .excluded .uncheckedBurn
  else
    let authorities := (s.burns.map Prod.snd).dedup.insertionSort (· ≤ ·)
    if authorities.any (lists.projectAddresses.contains ·) then .excluded .projectAddress
    else
      match s.memos with
      | [] => .excluded .noMemo
      | _ :: _ :: _ => .excluded .multipleMemos
      | [memo] =>
        match memoAddress py memo with
        | .error reason => .excluded reason
        | .ok address =>
          if lists.projectDestinations.contains address then .excluded .projectDestination
          else
            let grounds := legalGrounds lists authorities address
            if !grounds.isEmpty then .withheld address grounds
            else
              let baseUnits := (s.burns.map Prod.fst).sum
              if baseUnits < DUST_FLOOR_BASE_UNITS then .excluded .belowDustFloor
              else .eligible address (baseUnits * BASE_UNITS_TO_SATS) authorities

/-- `classify_tx`: the tests in the order of the source. -/
def classifyTx (py : StrMethods) (mint : String) (lists : Lists) (tx : Tx) :
    Except SystemExit Verdict :=
  if (tx.txMeta.bind TxMeta.err).isSome then .ok (.excluded .txFailed)
  else do
    let s ← (walkInstructions tx).foldlM (scanInstruction mint) {}
    return judge py lists s

/-! ## The run -/

/-- What an address is credited, and for which transactions. -/
structure Allocation where
  sats : Int := 0
  txids : List String := []
deriving DecidableEq

/-- An entry of the exclusion list. -/
structure Exclusion where
  txid : String
  slot : Nat
  reason : Reason
deriving DecidableEq

/-- An entry of the screening record. -/
structure Withheld where
  txid : String
  slot : Nat
  destination : String
  grounds : List Ground
deriving DecidableEq

/-- The variables of `run_snapshot`. -/
structure Ledger where
  allocations : OrderedDict String Allocation := .empty
  exclusions : List Exclusion := []
  withheld : List Withheld := []
  slotOf : OrderedDict String Nat := .empty

/-- The transaction of a signature, refused where the provider is not consistent. -/
def fetchTx (rpc : RpcClient) (e : SignatureEntry) : Except SystemExit Tx :=
  match rpc.getTransaction e.signature with
  | none => .error (.noTransaction e.signature)
  | some tx =>
    if tx.txMeta.isNone then .error (.noMetadata e.signature)
    else
      match tx.slot with
      | none => .ok tx
      | some slot =>
        if slot ≠ e.slot then .error (.slotMismatch e.signature e.slot slot) else .ok tx

/-- One more credit for an address. -/
def Allocation.credit (sats : Int) (txid : String) (old : Option Allocation) : Allocation :=
  { sats := (old.getD {}).sats + sats, txids := (old.getD {}).txids ++ [txid] }

/-- Note a verdict. -/
def Ledger.book (s : Ledger) (e : SignatureEntry) : Verdict → Ledger
  | .excluded reason =>
    -- Traffic of the mint that burns nothing is not a burn attempt.
    if reason = .noBurn then s
    else { s with exclusions := s.exclusions ++ [⟨e.signature, e.slot, reason⟩] }
  | .withheld address grounds =>
    { s with
      exclusions := s.exclusions ++ [⟨e.signature, e.slot, .withheld⟩]
      withheld := s.withheld ++ [⟨e.signature, e.slot, address, grounds⟩] }
  | .eligible address sats _ =>
    { s with
      allocations := s.allocations.update address (Allocation.credit sats e.signature)
      slotOf := s.slotOf.update e.signature fun _ => e.slot }

/-- One signature of the snapshot. -/
def snapshotStep (py : StrMethods) (rpc : RpcClient) (mint : String) (lists : Lists) (s : Ledger)
    (e : SignatureEntry) : Except SystemExit Ledger := do
  let tx ← fetchTx rpc e
  let verdict ← classifyTx py mint lists tx
  return s.book e verdict

/-- `slot_of[txid]`. -/
def Ledger.slot (s : Ledger) (txid : String) : Except SystemExit Nat :=
  match s.slotOf.get? txid with
  | none => .error .raised
  | some slot => .ok slot

/-- `named_by_withheld`: the withheld transactions by the destination they name. -/
def namedByWithheld (withheld : List Withheld) : OrderedDict String (List Withheld) :=
  withheld.foldl (fun d w => d.update w.destination fun old => old.getD [] ++ [w]) .empty

/-- The tainted-destination rule for one address named by withheld transactions. -/
def taintAddress (named : OrderedDict String (List Withheld)) (s : Ledger) (address : String) :
    Except SystemExit Ledger :=
  match s.allocations.get? address with
  | none => .ok s
  | some entry => do
      let slots ← entry.txids.mapM s.slot
      match slots.min? with
      | none => .error .raised
      | some firstCredited =>
        let tainting := ((((named.get? address).getD []).filter
          (·.slot < firstCredited)).map Withheld.txid).insertionSort (· ≤ ·)
        if tainting.isEmpty then return s
        else
          let moved := entry.txids.zip slots
          return { s with
            allocations := s.allocations.erase address
            exclusions := s.exclusions ++ moved.map fun (txid, slot) => ⟨txid, slot, .withheld⟩
            withheld := s.withheld ++ moved.map fun (txid, slot) =>
              ⟨txid, slot, address, [.taintedDestination address tainting]⟩ }

/-- What a run returns. -/
structure SnapshotResult where
  allocations : OrderedDict String Allocation
  exclusions : List Exclusion
  withheld : List Withheld

/-- The transactions, sorted. -/
def Allocation.sortTxids (a : Allocation) : Allocation :=
  { a with txids := a.txids.insertionSort (· ≤ ·) }

/-- `run_snapshot`: enumerate, judge and book, then sort. -/
def runSnapshot (py : StrMethods) (rpc : RpcClient) (mint : String) (openSlot cutoffSlot : Nat)
    (lists : Lists) (fuel : Nat) : Except SystemExit SnapshotResult := do
  let entries ← enumerateSignatures rpc mint openSlot cutoffSlot fuel
  let s ← entries.foldlM (snapshotStep py rpc mint lists) {}
  let named := namedByWithheld s.withheld
  let s ← (named.keys.insertionSort (· ≤ ·)).foldlM (taintAddress named) s
  return { allocations := s.allocations.mapValues Allocation.sortTxids
           exclusions := s.exclusions.insertionSort (fun a b => a.txid ≤ b.txid)
           withheld := s.withheld.insertionSort (fun a b => a.txid ≤ b.txid) }

/-! ## The allocation cap -/

/-- A credit that the cap leaves out. -/
structure OverCap where
  txid : String
  address : String
  sats : Int
deriving DecidableEq

/-- Larger amount first, then smaller address. -/
def ranksBefore (a b : String × Allocation) : Prop :=
  b.2.sats < a.2.sats ∨ (a.2.sats = b.2.sats ∧ a.1 ≤ b.1)

instance ranksBefore.decidableRel : DecidableRel ranksBefore :=
  fun _ _ => inferInstanceAs (Decidable (_ ∨ _))

/-- The allocations, largest first. -/
def ranked (allocations : OrderedDict String Allocation) : OrderedDict String Allocation :=
  allocations.reorder (allocations.items.insertionSort ranksBefore)
    (List.perm_insertionSort _ _)

/-- `apply_allocation_cap`: what is committed, and an `over-cap` entry for every
    transaction of the rest. -/
def applyAllocationCap (allocations : OrderedDict String Allocation) (cap : Option Nat) :
    OrderedDict String Allocation × List OverCap :=
  let cap := cap.getD MAX_ALLOCATION_OUTPUTS
  if allocations.items.length ≤ cap then (allocations, [])
  else
    ((ranked allocations).take cap,
      ((ranked allocations).items.drop cap).flatMap fun (address, entry) =>
        entry.txids.map fun txid => ⟨txid, address, entry.sats⟩)

end Soqucoin.Snapshot
