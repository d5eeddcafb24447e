import Soqucoin.SnapshotCommitment

/-! # SnapshotCompare — the artifacts of a run and the check of a re-run

What `main` of `snapshot.py` writes, and `compare_runs.py`, which compares two directories of
artifacts.  `json` and `hashlib` are parameters; `commitment.txt` is the list of its `key=value`
lines. -/

namespace Soqucoin.Snapshot

/-! ## Artifacts -/

def TOOL_VERSION : String := "5"

/-- The code of a withheld burn. -/
def WITHHELD : String := Reason.withheld.code

/-- An entry of `exclusions.json`; those of the cap have an address and an amount
    in place of a slot. -/
structure ExclusionRow where
  txid : String
  reason : String
  slot : Option Nat := none
  address : Option String := none
  sats : Option Int := none
deriving DecidableEq

/-- An exclusion as it is written. -/
def Exclusion.row (x : Exclusion) : ExclusionRow :=
  { txid := x.txid, reason := x.reason.code, slot := some x.slot }

/-- An entry of the cap as it is written. -/
def OverCap.row (x : OverCap) : ExclusionRow :=
  { txid := x.txid, reason := "over-cap", address := some x.address, sats := some x.sats }

/-- `json` on the two published files, and `hashlib.sha256(text).hexdigest()`. -/
structure PyLib where
  dumpsAllocations : OrderedDict String Allocation → String
  loadsAllocations : String → Option (OrderedDict String Allocation)
  dumpsExclusions : List ExclusionRow → String
  loadsExclusions : String → Option (List ExclusionRow)
  sha256 : String → String
  loads_dumps_allocations : ∀ d, loadsAllocations (dumpsAllocations d) = some d
  loads_dumps_exclusions : ∀ l, loadsExclusions (dumpsExclusions l) = some l

/-- The directory of published artifacts. -/
structure Artifacts where
  allocationsJson : String
  exclusionsJson : String
  outputsHex : List Char
  commitment : List (String × String)

/-- The arguments of a run, with the sha256 of each list file. -/
structure RunArgs where
  mint : String
  windowOpenSlot : Nat
  cutoffSlot : Nat
  freezeSlot : Option Nat
  provisional : Bool
  lists : Lists
  sdnSha : String
  projectSha : String
  destinationsSha : String
  authoritiesSha : String
  excludedDestinationsSha : String

/-- `json.dumps(…, sort_keys=True)` writes the keys in order. -/
def sortedByKey {ν : Type} (d : OrderedDict String ν) : OrderedDict String ν :=
  d.reorder (d.items.insertionSort fun a b => a.1 ≤ b.1) (List.perm_insertionSort _ _)

/-- `ser_txout_vector(outputs).hex() + "\n"`. -/
def outputsHex (outputs : List (Int × Bytes)) : Except BuildError (List Char) := do
  let data ← serTxoutVector outputs
  return hex data ++ ['\n']

/-- The ways a run can stop. -/
inductive MainError where
  | snapshot (e : SystemExit)
  | build (e : BuildError)

/-- The text for the freeze slot. -/
def freezeLine : Option Nat → String
  | none => "unknown"
  | some slot => toString slot

/-- The lines of `commitment.txt`. -/
def commitmentLines (lib : PyLib) (args : RunArgs) (hash : List Char) (total : Int)
    (count overCapCount withheldCount : Nat) (allocJson exclJson : String)
    (outHex : List Char) : List (String × String) :=
  [("hash_migration_outputs", String.ofList hash),
    ("n_migration_total", toString total),
    ("allocation_count", toString count),
    ("allocation_cap", toString MAX_ALLOCATION_OUTPUTS),
    ("over_cap_count", toString overCapCount),
    ("withheld_count", toString withheldCount),
    ("window_open_slot", toString args.windowOpenSlot),
    ("cutoff_slot", toString args.cutoffSlot),
    ("freeze_slot", freezeLine args.freezeSlot),
    ("provisional", if args.provisional then "yes" else "no"),
    ("tool_version", TOOL_VERSION),
    ("mint", args.mint),
    ("allocations_sha256", lib.sha256 allocJson),
    ("exclusions_sha256", lib.sha256 exclJson),
    ("outputs_sha256", lib.sha256 (String.ofList outHex)),
    ("sdn_file_sha256", args.sdnSha),
    ("project_file_sha256", args.projectSha),
    ("project_destinations_sha256", args.destinationsSha),
    ("excluded_authorities_sha256", args.authoritiesSha),
    ("excluded_destinations_sha256", args.excludedDestinationsSha)]

/-- `main`, from the arguments to the artifacts; the screening record, which is not
    published, is left out. -/
def writeArtifacts (py : StrMethods) (lib : PyLib) (hash : Bytes → Uint256) (rpc : RpcClient)
    (args : RunArgs) (fuel : Nat) : Except MainError Artifacts := do
  let result ← (runSnapshot py rpc args.mint args.windowOpenSlot args.cutoffSlot args.lists
    fuel).mapError .snapshot
  let capped := applyAllocationCap result.allocations none
  let exclusions := (result.exclusions.map Exclusion.row ++ capped.2.map OverCap.row).insertionSort
    fun a b => a.txid ≤ b.txid
  let built ← (buildOutputs py capped.1).mapError .build
  let commitmentHash ← (hashMigrationOutputs hash built.1).mapError .build
  let allocJson := lib.dumpsAllocations (sortedByKey capped.1)
  let exclJson := lib.dumpsExclusions exclusions
  let outHex ← (outputsHex built.1).mapError .build
  return { allocationsJson := allocJson
           exclusionsJson := exclJson
           outputsHex := outHex
           commitment := commitmentLines lib args commitmentHash built.2 built.1.length
             (capped.2.map OverCap.address).dedup.length result.withheld.length allocJson exclJson
             outHex }

/-! ## `compare_runs.py` -/

/-- What `read_run` returns. -/
structure Run where
  allocations : OrderedDict String Allocation
  exclusions : List ExclusionRow
  allocationsSha256 : String
  exclusionsSha256 : String
  outputsHex : List Char
  commitment : OrderedDict String String

/-- `read_commitment`: a later line of a key wins. -/
def readCommitment (lines : List (String × String)) : OrderedDict String String :=
  lines.foldl (fun values line => values.update line.1 fun _ => line.2) .empty

/-- `none` where a file does not parse. -/
def readRun (lib : PyLib) (dir : Artifacts) : Option Run := do
  let allocations ← lib.loadsAllocations dir.allocationsJson
  let exclusions ← lib.loadsExclusions dir.exclusionsJson
  return { allocations := allocations
           exclusions := exclusions
           allocationsSha256 := lib.sha256 dir.allocationsJson
           exclusionsSha256 := lib.sha256 dir.exclusionsJson
           outputsHex := dir.outputsHex
           commitment := readCommitment dir.commitment }

/-- What the check of a re-run can find. -/
inductive Problem where
  | refused (label : String) (e : BuildError)
  | line (label key : String) (found : Option String) (value : String)
  | outputsHex (label : String)
  | noLine (label key : String)
  | moved (key : String) (previous new : Option String)
  | provisional (label : String)
  | added (address : String)
  | changed (address : String) (previous new : Allocation)
  | removed (address : String) (missing : List String)
  | disappeared (txid reason : String)
  | exclusionChanged (txid previous new : String)
  | newExclusion (txid reason : String)
deriving DecidableEq

/-- A missing line prints as `None`. -/
def orNone (line : Option String) : String := line.getD "None"

/-- The texts, with Python's `str` of an entry. -/
def Problem.message (str : Allocation → String) : Problem → String
  | refused label e => s!"{label} run's allocations.json is refused: {e.message}"
  | line label key found value =>
    s!"{label} run's {key} is {orNone found}; its files give {value}"
  | outputsHex label =>
    s!"{label} run's outputs.hex is not the serialization of its allocations.json"
  | noLine label key => s!"{label} run's commitment.txt has no {key} line"
  | moved key previous new => s!"{key} moved: {orNone previous} -> {orNone new}"
  | provisional label => s!"{label} run is provisional; only final runs are compared"
  | added address => s!"allocation added: {address}"
  | changed address previous new =>
    s!"allocation changed: {address} {str previous} -> {str new}"
  | removed address missing =>
    "allocation removed without a withheld entry for every transaction: " ++
      s!"{address} (" ++ ", ".intercalate missing ++ ")"
  | disappeared txid reason => s!"exclusion disappeared: {txid} ({reason})"
  | exclusionChanged txid previous new => s!"exclusion changed: {txid} {previous} -> {new}"
  | newExclusion txid reason => s!"new exclusion that is not withheld: {txid} ({reason})"

/-- The addresses of the `over-cap` entries; `none` where one has no address. -/
def overCapAddresses (exclusions : List ExclusionRow) : Option (List String) :=
  (exclusions.filter fun e => e.reason = "over-cap").mapM ExclusionRow.address

/-- The row of a withheld burn. -/
def isWithheldRow (e : ExclusionRow) : Bool := e.reason = WITHHELD

/-- `self_check`; `none` is an exception other than `SystemExit`. -/
def selfCheck (py : StrMethods) (lib : PyLib) (hash : Bytes → Uint256) (label : String)
    (run : Run) : Option (List Problem) :=
  match buildOutputs py run.allocations with
  | .error .raised => none
  | .error e => some [.refused label e]
  | .ok (outputs, total) => do
      let outHex ← (outputsHex outputs).toOption
      let printed ← (hashMigrationOutputs hash outputs).toOption
      let overCap ← overCapAddresses run.exclusions
      let expected := [
        ("allocation_count", toString outputs.length),
        ("allocations_sha256", run.allocationsSha256),
        ("exclusions_sha256", run.exclusionsSha256),
        ("hash_migration_outputs", String.ofList printed),
        ("n_migration_total", toString total),
        ("outputs_sha256", lib.sha256 (String.ofList outHex)),
        ("over_cap_count", toString overCap.dedup.length),
        ("withheld_count", toString (run.exclusions.countP isWithheldRow))]
      return (expected.filter fun line => run.commitment.get? line.1 ≠ some line.2).map
          (fun line => .line label line.1 (run.commitment.get? line.1) line.2) ++
        if run.outputsHex ≠ outHex then [.outputsHex label] else []

/-- The lines that a re-run may not change. -/
def FIXED_LINES : List String :=
  ["window_open_slot", "cutoff_slot", "freeze_slot", "tool_version", "mint", "allocation_cap",
    "project_file_sha256", "project_destinations_sha256"]

/-- A line is there and the same in both runs. -/
def fixedLine (prev new : OrderedDict String String) (key : String) : List Problem :=
  (if (prev.get? key).isNone then [.noLine "previous" key] else []) ++
    (if (new.get? key).isNone then [.noLine "new" key] else []) ++
    if prev.get? key ≠ new.get? key then [.moved key (prev.get? key) (new.get? key)] else []

/-- The run is not a provisional one. -/
def finalRun (label : String) (commitment : OrderedDict String String) : List Problem :=
  if commitment.get? "provisional" ≠ some "no" then [.provisional label] else []

/-- `new_withheld`. -/
def withheldTxids (exclusions : List ExclusionRow) : List String :=
  (exclusions.filter isWithheldRow).map ExclusionRow.txid

/-- An entry that lost withheld transactions and nothing else. -/
def reduced (newWithheld : List String) (prev entry : Allocation) : Bool :=
  let dropped := prev.txids.filter fun t => !entry.txids.contains t
  let added := entry.txids.filter fun t => !prev.txids.contains t
  added.isEmpty && !dropped.isEmpty && entry.sats < prev.sats &&
    dropped.all (newWithheld.contains ·)

/-- An allocation of the second run is one of the first, unchanged or less what is withheld. -/
def compareEntry (prevAlloc : OrderedDict String Allocation) (newWithheld : List String)
    (item : String × Allocation) : List Problem :=
  match prevAlloc.get? item.1 with
  | none => [.added item.1]
  | some prev =>
    if prev ≠ item.2 ∧ reduced newWithheld prev item.2 = false then [.changed item.1 prev item.2]
    else []

/-- An allocation that is gone is withheld. -/
def compareRemoved (newAlloc : OrderedDict String Allocation) (newWithheld : List String)
    (item : String × Allocation) : List Problem :=
  if (newAlloc.get? item.1).isSome then []
  else
    let missing := item.2.txids.filter fun t => !newWithheld.contains t
    if missing.isEmpty then [] else [.removed item.1 missing]

/-- `{e["txid"]: e for e in exclusions}`. -/
def byTxid (exclusions : List ExclusionRow) : OrderedDict String ExclusionRow :=
  exclusions.foldl (fun d e => d.update e.txid fun _ => e) .empty

/-- An exclusion of the first run is there, for the same reason or withheld. -/
def comparePrevExclusion (newByTxid : OrderedDict String ExclusionRow)
    (item : String × ExclusionRow) : List Problem :=
  match newByTxid.get? item.1 with
  | none => [.disappeared item.1 item.2.reason]
  | some new =>
    if new.reason ≠ item.2.reason ∧ new.reason ≠ WITHHELD then
      [.exclusionChanged item.1 item.2.reason new.reason]
    else []

/-- A new exclusion is a withheld one. -/
def compareNewExclusion (prevByTxid : OrderedDict String ExclusionRow)
    (item : String × ExclusionRow) : List Problem :=
  if (prevByTxid.get? item.1).isNone ∧ item.2.reason ≠ WITHHELD then
    [.newExclusion item.1 item.2.reason]
  else []

/-- `compare` after the files are read. -/
def compareRuns (py : StrMethods) (lib : PyLib) (hash : Bytes → Uint256) (prev new : Run) :
    Option (List Problem) := do
  let selfPrev ← selfCheck py lib hash "previous" prev
  let selfNew ← selfCheck py lib hash "new" new
  let newWithheld := withheldTxids new.exclusions
  return selfPrev ++ selfNew ++
    FIXED_LINES.flatMap (fixedLine prev.commitment new.commitment) ++
    finalRun "previous" prev.commitment ++ finalRun "new" new.commitment ++
    (sortedByKey new.allocations).items.flatMap (compareEntry prev.allocations newWithheld) ++
    (sortedByKey prev.allocations).items.flatMap (compareRemoved new.allocations newWithheld) ++
    (sortedByKey (byTxid prev.exclusions)).items.flatMap
      (comparePrevExclusion (byTxid new.exclusions)) ++
    (sortedByKey (byTxid new.exclusions)).items.flatMap
      (compareNewExclusion (byTxid prev.exclusions))

/-- `compare`: both runs pass their own check, and the second differs only by what is withheld. -/
def compare (py : StrMethods) (lib : PyLib) (hash : Bytes → Uint256)
    (previousDir newDir : Artifacts) :
    Option (List Problem) := do
  let prev ← readRun lib previousDir
  let new ← readRun lib newDir
  compareRuns py lib hash prev new

end Soqucoin.Snapshot
