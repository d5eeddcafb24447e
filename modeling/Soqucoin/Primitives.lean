import Mathlib.Data.List.Basic
import Mathlib.Data.Finset.Basic
import Mathlib.Tactic
import Soqucoin.SignedWordProofs

/-! # Primitives — amounts, scripts, transactions and blocks

The data the node validates, under the names of `amount.h`, `script.h`, `primitives/transaction.h`
and `primitives/block.h`.

Byte strings are lists of bytes.  An amount is an integer; every addition the source makes in a
`CAmount` is wrapped to 64 bits where it is made. -/

namespace Soqucoin

/-- A byte string. -/
abbrev Bytes := List UInt8

/-- The characters of an ASCII literal. -/
def ascii (s : String) : Bytes := s.toList.map fun c => UInt8.ofNat c.toNat

/-- 32 bytes, in memory order. -/
structure Uint256 where
  bytes : Bytes
  size_eq : bytes.length = 32
deriving DecidableEq

namespace Uint256

/-- A hash of one byte, repeated. -/
def fill (b : UInt8) : Uint256 := ⟨List.replicate 32 b, List.length_replicate ..⟩

/-- The zero hash. -/
def null : Uint256 := fill 0

/-- `IsNull`. -/
def isNull (h : Uint256) : Bool := h = null

/-- The 32 bytes of `bs` from offset `i` on, where there are that many. -/
def ofSlice (bs : Bytes) (i : Nat) : Uint256 :=
  if h : ((bs.drop i).take 32).length = 32 then ⟨(bs.drop i).take 32, h⟩ else null

end Uint256

instance : Inhabited Uint256 := ⟨Uint256.null⟩

/-- Little-endian value of a byte string (`ReadLE16`, `ReadLE32`). -/
def readLE (bs : Bytes) : Nat := bs.foldr (fun b acc => b.toNat + 256 * acc) 0

/-- The `len` bytes of `bs` from offset `i` on, read little-endian. -/
def readLEAt (bs : Bytes) (i len : Nat) : Nat := readLE ((bs.drop i).take len)

/-! ## Amounts (`amount.h`) -/

/-- What a signed 64-bit `CAmount` keeps of an integer assigned to it. -/
def wrap64 (x : Int) : Int := SignedWord.wrap 64 x

/-- `total += v` over a list of amounts, from zero. -/
def sumAmounts (l : List Int) : Int := SignedWord.accumulate 64 0 l

def COIN : Int := 100000000

/-- No amount is larger. -/
def MAX_MONEY : Int := 20000000000 * COIN

/-- `MoneyRange`. -/
def moneyRange (nValue : Int) : Bool := 0 ≤ nValue && nValue ≤ MAX_MONEY

def INT64_MAX : Int := 9223372036854775807

/-! ## Scripts (`script.h`) -/

/-- A script, as its bytes. -/
abbrev CScript := Bytes

def OP_0 : UInt8 := 0x00
def OP_PUSHDATA1 : UInt8 := 0x4c
def OP_PUSHDATA2 : UInt8 := 0x4d
def OP_PUSHDATA4 : UInt8 := 0x4e
def OP_1 : UInt8 := 0x51
def OP_2 : UInt8 := 0x52
def OP_3 : UInt8 := 0x53
def OP_4 : UInt8 := 0x54
def OP_5 : UInt8 := 0x55
def OP_6 : UInt8 := 0x56
def OP_7 : UInt8 := 0x57
def OP_8 : UInt8 := 0x58
def OP_9 : UInt8 := 0x59
def OP_10 : UInt8 := 0x5a
def OP_11 : UInt8 := 0x5b
def OP_16 : UInt8 := 0x60
def OP_RETURN : UInt8 := 0x6a

def MAX_SCRIPT_SIZE : Nat := 10000

/-- The size operand after a push opcode, and the bytes after it. -/
def pushSize (opcode : UInt8) (pc : Bytes) : Option (Nat × Bytes) :=
  if opcode < OP_PUSHDATA1 then some (opcode.toNat, pc)
  else
    let width := if opcode = OP_PUSHDATA1 then 1 else if opcode = OP_PUSHDATA2 then 2 else 4
    if pc.length < width then none else some (readLE (pc.take width), pc.drop width)

/-- `GetOp`: the opcode at the head, the data it pushes, and what follows. -/
def getOp : Bytes → Option (UInt8 × Bytes × Bytes)
  | [] => none
  | opcode :: pc =>
    if opcode ≤ OP_PUSHDATA4 then
      match pushSize opcode pc with
      | none => none
      | some (nSize, pc) =>
        if pc.length < nSize then none
        else some (opcode, pc.take nSize, pc.drop nSize)
    else some (opcode, [], pc)

/-- Reading a push never adds bytes. -/
theorem pushSize_length_le {opcode : UInt8} {pc pc' : Bytes} {nSize : Nat}
    (h : pushSize opcode pc = some (nSize, pc')) : pc'.length ≤ pc.length := by
  rw [pushSize] at h
  split at h
  · cases h
    exact le_refl _
  · obtain ⟨-, h⟩ := Option.ite_none_left_eq_some.mp h
    cases h
    rw [List.length_drop]
    exact Nat.sub_le _ _

/-- Reading an opcode makes the rest shorter. -/
theorem getOp_length_lt {pc rest data : Bytes} {opcode : UInt8}
    (h : getOp pc = some (opcode, data, rest)) : rest.length < pc.length := by
  cases pc with
  | nil => cases h
  | cons b pc =>
    rw [getOp] at h
    rw [List.length_cons, Nat.lt_succ_iff]
    split at h
    · split at h
      · cases h
      · rename_i nSize pc' hsize
        split at h
        · cases h
        · cases h
          rw [List.length_drop]
          exact (Nat.sub_le _ _).trans (pushSize_length_le hsize)
    · cases h
      exact le_refl _

/-- The low `8 * width` bits of a number, little-endian. -/
def writeLE (width n : Nat) : Bytes :=
  (List.range width).map fun i => UInt8.ofNat (n / 256 ^ i % 256)

/-- The opcode and length bytes of the shortest push of the given size. -/
def pushHeader (size : Nat) : Bytes :=
  if size < 0x4c then [UInt8.ofNat size]
  else if size ≤ 0xff then OP_PUSHDATA1 :: writeLE 1 size
  else if size ≤ 0xffff then OP_PUSHDATA2 :: writeLE 2 size
  else OP_PUSHDATA4 :: writeLE 4 size

/-- `operator<<(const std::vector<unsigned char>&)`, after what is there. -/
def pushData (data : Bytes) : CScript := pushHeader data.length ++ data

/-- `IsUnspendable`. -/
def isUnspendable (script : CScript) : Bool :=
  script.head? = some OP_RETURN || MAX_SCRIPT_SIZE < script.length

/-- The one shape of every witness version: `OP_N <32 bytes>`. -/
def isWitnessProgram (op : UInt8) (script : CScript) : Bool :=
  script.length = 34 && script.getD 0 0 = op && script.getD 1 0 = 32

theorem isWitnessProgram_eq {op op' : UInt8} {script : CScript}
    (h : isWitnessProgram op script) : isWitnessProgram op' script = decide (op = op') := by
  simp only [isWitnessProgram, Bool.and_eq_true, decide_eq_true_eq] at h
  obtain ⟨⟨hlen, hop⟩, h32⟩ := h
  rw [isWitnessProgram, hlen, hop, h32]
  simp

theorem head?_of_isWitnessProgram {op : UInt8} {script : CScript}
    (h : isWitnessProgram op script) : script.head? = some op := by
  simp only [isWitnessProgram, Bool.and_eq_true, decide_eq_true_eq] at h
  obtain ⟨⟨hlen, hhead⟩, -⟩ := h
  cases script with
  | nil => cases hlen
  | cons b rest => exact congrArg some hhead

theorem isUnspendable_of_isWitnessProgram {op : UInt8} {script : CScript} (hop : op ≠ OP_RETURN)
    (h : isWitnessProgram op script) : isUnspendable script = false := by
  rw [isUnspendable, head?_of_isWitnessProgram h]
  simp only [isWitnessProgram, Bool.and_eq_true, decide_eq_true_eq] at h
  simp only [h.1.1, Option.some.injEq, hop, decide_false, Bool.false_or, decide_eq_false_iff_not]
  decide

/-- A version opcode and a program of 32 bytes. -/
def witnessScript (op : UInt8) (program : Uint256) : CScript :=
  op :: 32 :: program.bytes

/-- A script of witness version 5. -/
def isUSDSOQAuthorityMarker (script : CScript) : Bool := isWitnessProgram OP_5 script

/-- A script of witness version 9. -/
def isBTCSOQAuthorityMarker (script : CScript) : Bool := isWitnessProgram OP_9 script

/-! ## Transactions (`primitives/transaction.h`) -/

/-- An output, by the id of its transaction and its position. -/
structure COutPoint where
  hash : Uint256
  n : Nat
deriving DecidableEq

namespace COutPoint

/-- The outpoint of a coinbase input. -/
def null : COutPoint := ⟨Uint256.null, 0xffffffff⟩

/-- `IsNull`. -/
def isNull (o : COutPoint) : Bool := o.hash.isNull && o.n = 0xffffffff

end COutPoint

instance : Inhabited COutPoint := ⟨COutPoint.null⟩

/-- An input, with its witness. -/
structure CTxIn where
  prevout : COutPoint
  scriptSig : CScript
  nSequence : Nat
  scriptWitness : List Bytes
deriving DecidableEq, Inhabited

/-- An output. -/
structure CTxOut where
  nValue : Int
  scriptPubKey : CScript
deriving DecidableEq

namespace CTxOut

/-- `SetNull`: what a spent output is replaced by. -/
def null : CTxOut := ⟨-1, []⟩

/-- `IsNull`: a spent output. -/
def isNull (o : CTxOut) : Bool := o.nValue = -1

/-- A transparent USDSOQ holding: witness version 7. -/
def isUSDSOQ (o : CTxOut) : Bool := isWitnessProgram OP_7 o.scriptPubKey

/-- A BTCSOQ holding: witness version 8. -/
def isBTCSOQ (o : CTxOut) : Bool := isWitnessProgram OP_8 o.scriptPubKey

/-- A confidential USDSOQ holding: witness version 10. -/
def isV10ConfidentialUSDSOQ (o : CTxOut) : Bool := isWitnessProgram OP_10 o.scriptPubKey

/-- A USDSOQ holding of either kind. -/
def isAnyUSDSOQ (o : CTxOut) : Bool := o.isUSDSOQ || o.isV10ConfidentialUSDSOQ

/-- An output of the native coin: whatever is no asset holding. -/
def isNativeSOQ (o : CTxOut) : Bool := !o.isAnyUSDSOQ && !o.isBTCSOQ

/-- An output whose value is hidden. -/
def isConfidential (o : CTxOut) : Bool :=
  isWitnessProgram OP_4 o.scriptPubKey || isWitnessProgram OP_10 o.scriptPubKey

/-- An output whose value can be read. -/
def isTransparent (o : CTxOut) : Bool := !o.isConfidential

end CTxOut

instance : Inhabited CTxOut := ⟨CTxOut.null⟩

/-- A transaction. -/
structure CTransaction where
  nVersion : Int
  vin : List CTxIn
  vout : List CTxOut
  nLockTime : Nat
deriving DecidableEq, Inhabited

namespace CTransaction

/-- `IsCoinBase`. -/
def isCoinBase (tx : CTransaction) : Bool :=
  match tx.vin with
  | [txin] => txin.prevout.isNull
  | _ => false

/-- The transaction as its id sees it: `GetHash` serialises no witness. -/
def stripWitness (tx : CTransaction) : CTransaction :=
  { tx with vin := tx.vin.map fun txin => { txin with scriptWitness := [] } }

/-- `HasWitness`. -/
def hasWitness (tx : CTransaction) : Bool :=
  tx.vin.any fun txin => !txin.scriptWitness.isEmpty

end CTransaction

/-- A block: the serialised header (merge-mining proof included) and the transactions. -/
structure CBlock where
  header : Bytes
  vtx : List CTransaction
deriving DecidableEq, Inhabited

/-! ## Serialised sizes -/

def WITNESS_SCALE_FACTOR : Nat := 4
def MAX_BLOCK_WEIGHT : Nat := 4000000
def MAX_BLOCK_BASE_SIZE : Nat := 1000000
def MAX_BLOCK_SIGOPS_COST : Int := 80000

/-- `GetSizeOfCompactSize`. -/
def getSizeOfCompactSize (n : Nat) : Nat :=
  if n < 253 then 1 else if n ≤ 0xffff then 3 else if n ≤ 0xffffffff then 5 else 9

/-- A byte string behind its compact size. -/
def sizeOfBytes (bs : Bytes) : Nat := getSizeOfCompactSize bs.length + bs.length

/-- The serialized size of an input. -/
def sizeOfTxIn (txin : CTxIn) : Nat := 36 + sizeOfBytes txin.scriptSig + 4

/-- The serialized size of an output. -/
def sizeOfTxOut (txout : CTxOut) : Nat := 8 + sizeOfBytes txout.scriptPubKey

/-- The serialized size of a witness. -/
def sizeOfWitness (stack : List Bytes) : Nat :=
  getSizeOfCompactSize stack.length + (stack.map sizeOfBytes).sum

/-- `GetSerializeSize(tx, … | SERIALIZE_TRANSACTION_NO_WITNESS)`. -/
def baseSize (tx : CTransaction) : Nat :=
  4 + (getSizeOfCompactSize tx.vin.length + (tx.vin.map sizeOfTxIn).sum)
    + (getSizeOfCompactSize tx.vout.length + (tx.vout.map sizeOfTxOut).sum) + 4

/-- `GetSerializeSize(tx)`: the extended format only when some input has a witness. -/
def totalSize (tx : CTransaction) : Nat :=
  if tx.hasWitness then
    baseSize tx + 2 + (tx.vin.map fun txin => sizeOfWitness txin.scriptWitness).sum
  else baseSize tx

/-- The size of a block without witnesses. -/
def blockBaseSize (block : CBlock) : Nat :=
  block.header.length + getSizeOfCompactSize block.vtx.length + (block.vtx.map baseSize).sum

/-- The size of a block with witnesses. -/
def blockTotalSize (block : CBlock) : Nat :=
  block.header.length + getSizeOfCompactSize block.vtx.length + (block.vtx.map totalSize).sum

/-- `GetBlockWeight`. -/
def getBlockWeight (block : CBlock) : Nat :=
  blockBaseSize block * (WITNESS_SCALE_FACTOR - 1) + blockTotalSize block

end Soqucoin
