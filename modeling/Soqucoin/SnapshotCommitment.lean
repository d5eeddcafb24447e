import Soqucoin.SignatureHash
import Soqucoin.Snapshot

/-! # SnapshotCommitment — from the allocations to the chain parameters

`serialize.py` and `build_outputs` of `contrib/genesis-migration`, with what the node makes of the
constants: `uint256S`, the hash of the committed outputs and the rule on the outputs of a
coinbase. -/

namespace Soqucoin

open CheckedLoop

/-! ## Hexadecimal numbers -/

/-- `HexDigit`, of either case. -/
def hexDigit (c : Char) : Option Nat :=
  if '0' ≤ c ∧ c ≤ '9' then some (c.toNat - 48)
  else if 'a' ≤ c ∧ c ≤ 'f' then some (c.toNat - 87)
  else if 'A' ≤ c ∧ c ≤ 'F' then some (c.toNat - 55)
  else none

/-- `isspace` in the C locale. -/
def isCSpace (c : Char) : Bool := c = ' ' || (9 ≤ c.toNat && c.toNat ≤ 13)

/-- Two digits a byte, the low one first; an odd digit at the end stands alone. -/
def pairDigits : List Nat → Bytes
  | [] => []
  | [lo] => [UInt8.ofNat lo]
  | lo :: hi :: rest => UInt8.ofNat (16 * hi + lo) :: pairDigits rest

/-- A leading `0x` is skipped. -/
def skipHexMark : List Char → List Char
  | '0' :: x :: rest => if x = 'x' ∨ x = 'X' then rest else '0' :: x :: rest
  | psz => psz

/-- `base_blob::SetHex`: the digits are read from the last one back. -/
def uint256S (str : List Char) : Uint256 :=
  let psz := skipHexMark (str.dropWhile isCSpace)
  let digits := (psz.takeWhile fun c => (hexDigit c).isSome).filterMap hexDigit
  Uint256.ofSlice (pairDigits digits.reverse ++ List.replicate 32 0) 0

/-- `base_blob::GetHex` and Python's `bytes.hex` write a byte as two digits. -/
def hexByte (b : UInt8) : List Char := [Nat.digitChar (b.toNat / 16), Nat.digitChar (b.toNat % 16)]

/-- `bytes.hex`. -/
def hex (bs : Bytes) : List Char := bs.flatMap hexByte

/-! ## The node -/

/-- A node that hashes the committed outputs as it serializes them. -/
def Env.withOutputsHash (env : Env) (hash : Bytes → Uint256) : Env :=
  { env with hashOutputs := fun outs => hash (serializeVector serializeTxOut outs) }

/-- The networks of `chainparams.cpp`. -/
inductive ChainName where
  | main | test | regtest | stagenet
deriving DecidableEq

/-- `nSubsidyHalvingInterval` and `nInitialSubsidy` of a network. -/
def ChainName.subsidySchedule : ChainName → Int × Int
  | main => (250000, 100000)
  | test => (250000, 100000)
  | regtest => (150, 500000)
  | stagenet => (250000, 100000)

/-- The parameters of a height after genesis pay by height, on every network. -/
def ChainName.Pays (network : ChainName) (consensus : Consensus) : Prop :=
  consensus.fSimplifiedRewards = true ∧
    consensus.nSubsidyHalvingInterval = network.subsidySchedule.1 ∧
    consensus.nInitialSubsidy = network.subsidySchedule.2

/-- The rule of `ContextualCheckBlock` on the outputs of the coinbase. -/
def checkCoinbaseOutputType (network : ChainName) (nHeight : Int) (coinbase : CTransaction) :
    Check Unit :=
  skipIf (nHeight ≤ 0 || network = .regtest) <|
    require (coinbase.vout.all fun txout =>
        isWitnessProgram OP_1 txout.scriptPubKey || txout.scriptPubKey.head? = some OP_RETURN)
      (.dos 100 "bad-cb-output-type")

end Soqucoin

namespace Soqucoin.Snapshot

/-! ## `serialize.py` -/

def UTXO_COST_PER_BYTE : Int := 6500
def MAX_MONEY : Int := 20000000000 * 100000000
def MAX_BLOCK_SUBSIDY : Int := 500000 * 100000000
/-- The list has to fit into a block. -/
def MAX_OUTPUTS_SERIALIZED_BYTES : Nat := 900000

/-- The ways `build_outputs` can stop. -/
inductive BuildError where
  | exceedCap (count : Nat)
  | commitmentShaped (address : String)
  | belowFloor (address : String) (sats floor : Int)
  | exceedsTotal (total : Int)
  | oversize (size : Nat)
  /-- An exception of Python: a failed assertion or a number that does not pack. -/
  | raised
deriving DecidableEq

/-- Its text. -/
def BuildError.message : BuildError → String
  | exceedCap count =>
    s!"{count} allocations exceed the cap of {MAX_ALLOCATION_OUTPUTS}; apply_allocation_cap " ++
      "was not run"
  | commitmentShaped address =>
    s!"allocation {address} has a block-commitment-shaped script; " ++
      "ConnectBlock would strip it from the committed range"
  | belowFloor address sats floor =>
    s!"allocation {address} = {sats} sats is below the utxo-cost floor {floor}; " ++
      "committing it would make the migration height unmineable under an active UTXO_COST"
  | exceedsTotal total =>
    s!"aggregate allocation {total} exceeds {MAX_MONEY - MAX_BLOCK_SUBSIDY}, the per-tx " ++
      "MAX_MONEY bound less the block subsidy the same coinbase pays"
  | oversize size =>
    s!"serialized output vector is {size} bytes, over the {MAX_OUTPUTS_SERIALIZED_BYTES}-byte " ++
      "bound derived from MAX_BLOCK_BASE_SIZE; block 1 could not carry it"
  | raised => "uncaught exception"

/-- `compact_size`. -/
def compactSize (n : Nat) : Bytes :=
  if n < 253 then writeLE 1 n
  else if n ≤ 0xffff then [0xfd] ++ writeLE 2 n
  else if n ≤ 0xffffffff then [0xfe] ++ writeLE 4 n
  else [0xff] ++ writeLE 8 n

/-- `OP_1` and the program. -/
def v1Script (program : Bytes) : Bytes := [0x51, 0x20] ++ program

/-- `struct.pack("<q", value)`. -/
def packInt64 (value : Int) : Except BuildError Bytes :=
  if -2 ^ 63 ≤ value ∧ value < 2 ^ 63 then .ok (writeLE 8 (value % 2 ^ 64).toNat)
  else .error .raised

/-- `ser_txout`. -/
def serTxout (valueSats : Int) (script : Bytes) : Except BuildError Bytes := do
  let value ← packInt64 valueSats
  return value ++ compactSize script.length ++ script

/-- `ser_txout_vector`. -/
def serTxoutVector (outputs : List (Int × Bytes)) : Except BuildError Bytes :=
  outputs.foldlM (fun r output => do return r ++ (← serTxout output.1 output.2))
    (compactSize outputs.length)

/-- `hash_migration_outputs`; `hash` is `sha256d`. -/
def hashMigrationOutputs (hash : Bytes → Uint256) (outputs : List (Int × Bytes)) :
    Except BuildError (List Char) := do
  let data ← serTxoutVector outputs
  return hex (hash data).bytes.reverse

/-- `txout_serialized_size`. -/
def txoutSerializedSize (script : Bytes) : Nat :=
  8 + (compactSize script.length).length + script.length

/-- `utxo_cost_floor`. -/
def utxoCostFloor (script : Bytes) : Int := UTXO_COST_PER_BYTE * txoutSerializedSize script

/-- `is_block_commitment_shape`: the outputs that the node takes for a commitment. -/
def isBlockCommitmentShape (script : Bytes) : Bool :=
  (38 ≤ script.length && script.getD 0 0 = 0x6a && script.getD 1 0 = 0x24 &&
      (script.drop 2).take 4 = [0xaa, 0x21, 0xa9, 0xed]) ||
    (script.length = 36 && script.getD 0 0 = 0x6a && script.getD 1 0 = 0x22 &&
      [ascii "PA", ascii "LF"].contains ((script.drop 2).take 2))

/-! ## `build_outputs` -/

/-- One turn of the loop. -/
def buildOutput (py : StrMethods) (allocations : OrderedDict String Allocation)
    (outputs : List (Int × Bytes)) (address : String) : Except BuildError (List (Int × Bytes)) :=
  match allocations.get? address, decodeV1Address py ADDRESS_HRP address with
  | some entry, some program =>
    let script := v1Script (program.map UInt8.ofNat)
    if isBlockCommitmentShape script then .error (.commitmentShaped address)
    else if entry.sats < utxoCostFloor script then
      .error (.belowFloor address entry.sats (utxoCostFloor script))
    else .ok (outputs ++ [(entry.sats, script)])
  | _, _ => .error .raised

/-- `build_outputs`: the outputs in the order of their addresses, and their total. -/
def buildOutputs (py : StrMethods) (allocations : OrderedDict String Allocation) :
    Except BuildError (List (Int × Bytes) × Int) :=
  if MAX_ALLOCATION_OUTPUTS < allocations.items.length then
    .error (.exceedCap allocations.items.length)
  else do
    let outputs ← (allocations.keys.insertionSort (· ≤ ·)).foldlM (buildOutput py allocations) []
    let total := (outputs.map Prod.fst).sum
    if MAX_MONEY - MAX_BLOCK_SUBSIDY < total then .error (.exceedsTotal total)
    else
      let data ← serTxoutVector outputs
      if MAX_OUTPUTS_SERIALIZED_BYTES < data.length then .error (.oversize data.length)
      else return (outputs, total)

/-- The outputs of the coinbase that the tool's list stands for. -/
def committedOutputs (outputs : List (Int × Bytes)) : List CTxOut :=
  outputs.map fun output => ⟨output.1, output.2⟩

end Soqucoin.Snapshot
