import Soqucoin.Interpreter

/-! # ByteOrderProofs — fixed-width numbers and slices of byte strings

`writeLE` and `readLE` undo each other (`readLE_writeLE`, `writeLE_readLE`), and a string is taken
apart into 32-byte hashes and put together again. -/

namespace Soqucoin

/-! ## Little-endian numbers -/

@[simp] theorem length_writeLE (width n : Nat) : (writeLE width n).length = width := by
  rw [writeLE, List.length_map, List.length_range]

theorem writeLE_succ (width n : Nat) :
    writeLE (width + 1) n = UInt8.ofNat (n % 256) :: writeLE width (n / 256) := by
  rw [writeLE, List.range_succ_eq_map, List.map_cons, List.map_map, writeLE, pow_zero, Nat.div_one]
  congr 1
  apply List.map_congr_left
  intro i _
  rw [Function.comp_apply, Nat.div_div_eq_div_mul, ← pow_succ']

theorem readLE_cons (b : UInt8) (bs : Bytes) : readLE (b :: bs) = b.toNat + 256 * readLE bs := rfl

/-- A number that fits is read back. -/
theorem readLE_writeLE {width n : Nat} (h : n < 256 ^ width) : readLE (writeLE width n) = n := by
  induction width generalizing n with
  | zero =>
    rw [pow_zero] at h
    rw [show n = 0 by omega]
    rfl
  | succ width ih =>
    rw [pow_succ] at h
    rw [writeLE_succ, readLE_cons, ih (by omega), UInt8.toNat_ofNat']
    omega

/-- Bytes are written back as they were read. -/
theorem writeLE_readLE (bs : Bytes) : writeLE bs.length (readLE bs) = bs := by
  induction bs with
  | nil => rfl
  | cons b bs ih =>
    have hb : b.toNat < 256 := b.toNat_lt
    rw [List.length_cons, writeLE_succ, readLE_cons]
    rw [show (b.toNat + 256 * readLE bs) % 256 = b.toNat by omega,
      show (b.toNat + 256 * readLE bs) / 256 = readLE bs by omega, ih, UInt8.ofNat_toNat]

theorem writeLE_injective {width m n : Nat} (hm : m < 256 ^ width) (hn : n < 256 ^ width)
    (h : writeLE width m = writeLE width n) : m = n := by
  rw [← readLE_writeLE hm, h, readLE_writeLE hn]

theorem readLE_lt (bs : Bytes) : readLE bs < 256 ^ bs.length := by
  induction bs with
  | nil => exact Nat.one_pos
  | cons b bs ih =>
    have hb := b.toNat_lt
    rw [readLE_cons, List.length_cons, Nat.pow_succ]
    omega

theorem readLEAt_lt (bs : Bytes) (i width : Nat) : readLEAt bs i width < 256 ^ width :=
  lt_of_lt_of_le (readLE_lt _) (Nat.pow_le_pow_right (by decide) (List.length_take_le _ _))

theorem readLEAt_append {width n i : Nat} (h : n < 256 ^ width) {pre : Bytes}
    (hpre : pre.length = i) (post : Bytes) :
    readLEAt (pre ++ writeLE width n ++ post) i width = n := by
  rw [readLEAt, List.append_assoc, List.drop_left' hpre, List.take_left' (length_writeLE width n),
    readLE_writeLE h]

theorem writeLE_readLEAt {bs : Bytes} {i width : Nat} (h : i + width ≤ bs.length) :
    writeLE width (readLEAt bs i width) = (bs.drop i).take width := by
  have hlen : ((bs.drop i).take width).length = width := by
    rw [List.length_take, List.length_drop]
    omega
  have hback := writeLE_readLE ((bs.drop i).take width)
  rwa [hlen] at hback

/-! ## Hashes in byte strings -/

theorem Uint256.ext {a b : Uint256} (h : a.bytes = b.bytes) : a = b := by
  cases a
  cases b
  congr

@[simp] theorem Uint256.length_bytes (h : Uint256) : h.bytes.length = 32 := h.size_eq

theorem Uint256.bytes_ofSlice {bs : Bytes} {i : Nat} (h : i + 32 ≤ bs.length) :
    (Uint256.ofSlice bs i).bytes = (bs.drop i).take 32 := by
  rw [Uint256.ofSlice, dif_pos]
  rw [List.length_take, List.length_drop]
  omega

/-- A hash is read at the place it was put. -/
theorem Uint256.ofSlice_append (pre : Bytes) (h : Uint256) (post : Bytes) :
    Uint256.ofSlice (pre ++ h.bytes ++ post) pre.length = h := by
  apply Uint256.ext
  rw [Uint256.bytes_ofSlice]
  · rw [List.append_assoc, List.drop_left, List.take_append_of_le_length (by simp),
      List.take_of_length_le (by simp)]
  · simp only [List.length_append, Uint256.length_bytes]
    omega

theorem append_inj_of_length {a b c d : Bytes} (hlen : a.length = c.length)
    (h : a ++ b = c ++ d) : a = c ∧ b = d :=
  List.append_inj h hlen

/-! ## Collisions -/

/-- The hash has no collision among the given strings. -/
def InjectiveOn (hash : Bytes → Uint256) (strings : List Bytes) : Prop :=
  ∀ x ∈ strings, ∀ y ∈ strings, hash x = hash y → x = y

instance decidableInjectiveOn (hash : Bytes → Uint256) (strings : List Bytes) :
    Decidable (InjectiveOn hash strings) :=
  inferInstanceAs (Decidable (∀ x ∈ strings, ∀ y ∈ strings, hash x = hash y → x = y))

theorem InjectiveOn.mono {hash : Bytes → Uint256} {l l' : List Bytes} (h : InjectiveOn hash l)
    (hsub : l' ⊆ l) : InjectiveOn hash l' :=
  fun x hx y hy => h x (hsub hx) y (hsub hy)

end Soqucoin
