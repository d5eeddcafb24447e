import Soqucoin.ByteOrderProofs
import Soqucoin.PrefixCodeProofs
import Soqucoin.SignatureHash

/-! # TxEncodingProofs — the parts of a transaction as bytes

What the digests hash are the fields of a transaction in their serialization.  The fields have the
machine types of the source; on these every part is a prefix code, so a string of parts tells the
parts. -/

namespace Soqucoin

open PrefixCode SignedWord

/-! ## Fields as the source stores them -/

/-- `CTxIn` in memory; the size of a script is a 32-bit word. -/
structure CTxIn.Stored (txin : CTxIn) : Prop where
  index_lt : txin.prevout.n < 2 ^ 32
  scriptSig_lt : txin.scriptSig.length < 2 ^ 32
  sequence_lt : txin.nSequence < 2 ^ 32

/-- An output whose fields fit their words. -/
structure CTxOut.Stored (txout : CTxOut) : Prop where
  value_fits : Fits 64 txout.nValue
  script_lt : txout.scriptPubKey.length < 2 ^ 32

/-- A transaction whose fields fit their words. -/
structure CTransaction.Stored (tx : CTransaction) : Prop where
  version_fits : Fits 32 tx.nVersion
  lockTime_lt : tx.nLockTime < 2 ^ 32
  vin_stored : ∀ txin ∈ tx.vin, txin.Stored
  vout_stored : ∀ txout ∈ tx.vout, txout.Stored

/-! ## Numbers -/

theorem isPrefixCode_writeLE (width : Nat) : IsPrefixCode (· < 256 ^ width) (writeLE width) :=
  .of_length (fun n _ => length_writeLE width n) fun _ _ => writeLE_injective

theorem emod_injective_of_fits {w : Nat} {x y : Int} (hx : Fits w x) (hy : Fits w y)
    (h : x % 2 ^ w = y % 2 ^ w) : x = y := by
  have hcast : x % ((2 ^ w : Nat) : Int) = y % ((2 ^ w : Nat) : Int) := by
    push_cast
    exact h
  rw [← wrap_of_fits hx, ← wrap_of_fits hy, wrap, wrap, Int.bmod_def, Int.bmod_def, hcast]

/-- Signed words of one width form a prefix code. -/
theorem isPrefixCode_signed {w width : Nat} (hw : 2 ^ w = 256 ^ width) :
    IsPrefixCode (Fits w) fun x => writeLE width (x % 2 ^ w).toNat := by
  have hpos : (0 : Int) < 2 ^ w := by positivity
  have hlt : ∀ x : Int, (x % 2 ^ w).toNat < 256 ^ width := by
    intro x
    have h := Int.emod_lt_of_pos x hpos
    rw [← hw]
    zify
    rw [Int.toNat_of_nonneg (Int.emod_nonneg x hpos.ne')]
    exact_mod_cast h
  refine .of_length (fun x _ => length_writeLE width _) ?_
  intro x y hx hy h
  have hnat := writeLE_injective (hlt x) (hlt y) h
  refine emod_injective_of_fits hx hy ?_
  rw [← Int.toNat_of_nonneg (Int.emod_nonneg x hpos.ne'), hnat,
    Int.toNat_of_nonneg (Int.emod_nonneg y hpos.ne')]

theorem isPrefixCode_serializeAmount : IsPrefixCode (Fits 64) serializeAmount :=
  isPrefixCode_signed (by norm_num)

theorem isPrefixCode_serializeVersion : IsPrefixCode (Fits 32) serializeVersion :=
  isPrefixCode_signed (by norm_num)

/-! ## Compact sizes -/

/-- The first byte of a compact size, and the width of what follows. -/
def compactForm (n : Nat) : UInt8 × Nat :=
  if n < 253 then (UInt8.ofNat n, 0)
  else if n ≤ 0xffff then (253, 2)
  else if n ≤ 0xffffffff then (254, 4)
  else (255, 8)

theorem writeCompactSize_eq (n : Nat) :
    writeCompactSize n = (compactForm n).1 :: writeLE (compactForm n).2 n := by
  rw [writeCompactSize, compactForm]
  split_ifs with h1 h2 h3
  · simp [writeLE, Nat.mod_eq_of_lt (show n < 256 by omega)]
  · rfl
  · rfl
  · rfl

theorem compactForm_cases {n : Nat} (h : n < 2 ^ 64) :
    ((compactForm n).1.toNat = n ∧ n < 253 ∧ (compactForm n).2 = 0) ∨
      (253 ≤ (compactForm n).1.toNat ∧ n < 256 ^ (compactForm n).2 ∧
        (compactForm n).2 = 2 ^ ((compactForm n).1.toNat - 252)) := by
  rw [compactForm]
  split_ifs with h1 h2 h3
  · exact .inl ⟨UInt8.toNat_ofNat_of_lt' (h1.trans (by decide)), h1, rfl⟩
  · exact .inr ⟨by decide, by dsimp only; omega, by decide⟩
  · exact .inr ⟨by decide, by dsimp only; omega, by decide⟩
  · exact .inr ⟨by decide, by dsimp only; omega, by decide⟩

/-- The first byte tells how many bytes follow. -/
theorem isPrefixCode_writeCompactSize : IsPrefixCode (· < 2 ^ 64) writeCompactSize := by
  intro m n hm hn r r' h
  rw [writeCompactSize_eq, writeCompactSize_eq, List.cons_append, List.cons_append,
    List.cons.injEq] at h
  obtain ⟨hmark, h⟩ := h
  have hmark := congrArg UInt8.toNat hmark
  -- a small number never has the first byte of a large one, so the mixed cases contradict
  -- the equal first bytes
  rcases compactForm_cases hm with ⟨hm1, hm2, hm3⟩ | ⟨hm1, hmlt, hm2⟩ <;>
    rcases compactForm_cases hn with ⟨hn1, hn2, hn3⟩ | ⟨hn1, hnlt, hn2⟩
  · refine ⟨by omega, ?_⟩
    rw [hm3, hn3] at h
    exact h
  · omega
  · omega
  · have hwidth : (compactForm m).2 = (compactForm n).2 := by rw [hm2, hn2, hmark]
    rw [hwidth] at h hmlt
    exact isPrefixCode_writeLE _ m n hmlt hnlt r r' h

/-! ## Strings, outpoints and outputs -/

theorem isPrefixCode_writeSized : IsPrefixCode (fun s : Bytes => s.length < 2 ^ 32) writeSized :=
  IsPrefixCode.sized (isPrefixCode_writeLE 4)

theorem isPrefixCode_serializeBytes :
    IsPrefixCode (fun s : Bytes => s.length < 2 ^ 64) serializeBytes :=
  IsPrefixCode.sized isPrefixCode_writeCompactSize

theorem isPrefixCode_bytes : IsPrefixCode (fun _ : Uint256 => True) Uint256.bytes :=
  .of_length (fun h _ => h.length_bytes) fun _ _ _ _ => Uint256.ext

theorem isPrefixCode_serializeOutPoint :
    IsPrefixCode (fun o : COutPoint => True ∧ o.n < 2 ^ 32) serializeOutPoint := by
  refine isPrefixCode_bytes.append (isPrefixCode_writeLE 4) ?_
  rintro ⟨hash, n⟩ ⟨hash', n'⟩ rfl rfl
  rfl

theorem CTxOut.ext_fields (a b : CTxOut) (hvalue : a.nValue = b.nValue)
    (hscript : a.scriptPubKey = b.scriptPubKey) : a = b := by
  cases a
  cases b
  cases hvalue
  cases hscript
  rfl

theorem isPrefixCode_serializeTxOut : IsPrefixCode CTxOut.Stored serializeTxOut :=
  (isPrefixCode_serializeAmount.append isPrefixCode_serializeBytes CTxOut.ext_fields).mono
    fun _ h => ⟨h.value_fits, h.script_lt.trans (by decide)⟩

theorem isPrefixCode_templateOutput :
    IsPrefixCode CTxOut.Stored fun txout =>
      writeLE 8 (txout.nValue % 2 ^ 64).toNat ++ writeSized txout.scriptPubKey :=
  (isPrefixCode_serializeAmount.append isPrefixCode_writeSized CTxOut.ext_fields).mono
    fun _ h => ⟨h.value_fits, h.script_lt⟩

theorem writeLE_ne_nil (width n : Nat) : writeLE (width + 1) n ≠ [] :=
  List.ne_nil_of_length_eq_add_one (length_writeLE (width + 1) n)

/-- What `hashSequence` hashes. -/
def sequencesString (tx : CTransaction) : Bytes :=
  tx.vin.flatMap fun txin => writeLE 4 txin.nSequence

theorem sequences_injective {tx tx' : CTransaction} (h : tx.Stored) (h' : tx'.Stored)
    (heq : sequencesString tx = sequencesString tx') :
    tx.vin.map CTxIn.nSequence = tx'.vin.map CTxIn.nSequence := by
  refine (isPrefixCode_writeLE 4).map_injective (fun n _ => writeLE_ne_nil 3 n) ?_ ?_ heq
  · exact fun txin htxin => (h.vin_stored txin htxin).sequence_lt
  · exact fun txin htxin => (h'.vin_stored txin htxin).sequence_lt

namespace Sample

/-- A spend of one output of a transaction. -/
def spendOf (n : Nat) : CTransaction where
  nVersion := 2
  vin := [⟨⟨Uint256.one, n⟩, [], 0, []⟩]
  vout := [⟨5, []⟩]
  nLockTime := 7

theorem spendOf_stored {n : Nat} (h : n < 2 ^ 32) : (spendOf n).Stored where
  version_fits := show Fits 32 2 from ⟨by decide, by decide⟩
  lockTime_lt := show 7 < 2 ^ 32 by decide
  vin_stored := by
    intro txin htxin
    rw [List.mem_singleton.mp htxin]
    exact ⟨h, show 0 < 2 ^ 32 by decide, show 0 < 2 ^ 32 by decide⟩
  vout_stored := by
    intro txout htxout
    rw [List.mem_singleton.mp htxout]
    exact ⟨⟨by decide, by decide⟩, by decide⟩

end Sample

end Soqucoin
