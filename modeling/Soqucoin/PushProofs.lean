import Soqucoin.ByteOrderProofs

/-! # PushProofs — `CScript::operator<<` of data, and reading it back

The shortest of the four push forms for the length of the data.  `GetOp` reads any of them, so a
script built this way falls apart into what it was built from. -/

namespace Soqucoin

section Forms

variable {opcode : UInt8} {size : Nat} {data rest : Bytes}

theorem getOp_of_pushSize {pc : Bytes} (hop : opcode ≤ OP_PUSHDATA4)
    (hsize : pushSize opcode pc = some (data.length, data ++ rest)) :
    getOp (opcode :: pc) = some (opcode, data, rest) := by
  rw [getOp, if_pos hop, hsize]
  dsimp only
  rw [if_neg (by rw [List.length_append]; omega), List.take_left, List.drop_left]

theorem pushSize_direct (hop : opcode < OP_PUSHDATA1) (pc : Bytes) :
    pushSize opcode pc = some (opcode.toNat, pc) := by
  rw [pushSize, if_pos hop]

/-- The size field of a push is read back. -/
theorem pushSize_sized {width : Nat} (hop : ¬opcode < OP_PUSHDATA1)
    (hwidth : (if opcode = OP_PUSHDATA1 then 1 else if opcode = OP_PUSHDATA2 then 2 else 4) = width)
    (hsize : size < 256 ^ width) (pc : Bytes) :
    pushSize opcode (writeLE width size ++ pc) = some (size, pc) := by
  rw [pushSize, if_neg hop, hwidth]
  dsimp only
  rw [if_neg (by rw [List.length_append, length_writeLE]; omega),
    List.take_left' (length_writeLE width size), List.drop_left' (length_writeLE width size),
    readLE_writeLE hsize]

end Forms

theorem pushedValue_of_le {opcode : UInt8} {data : Bytes} (hop : opcode ≤ OP_PUSHDATA4)
    (hzero : opcode = OP_0 → data = []) : pushedValue opcode data = data := by
  have hsmall : ¬OP_1 ≤ opcode := by
    rw [UInt8.not_le]
    exact UInt8.lt_of_le_of_lt hop (by decide)
  rw [pushedValue]
  split_ifs with h0 h1
  · exact (hzero h0).symm
  · rw [Bool.and_eq_true, decide_eq_true_eq] at h1
    exact absurd h1.1 hsmall
  · rfl

/-- A push is read back as its data. -/
theorem getOp_pushData {data : Bytes} (hlen : data.length < 2 ^ 32) (rest : Bytes) :
    ∃ opcode, opcode ≤ OP_PUSHDATA4 ∧ pushedValue opcode data = data ∧
      getOp (pushData data ++ rest) = some (opcode, data, rest) := by
  rw [pushData, List.append_assoc, pushHeader]
  split_ifs with hdirect hone htwo
  -- the length itself is the opcode; empty data is `OP_0`, which pushes the empty string
  · have hnat : (UInt8.ofNat data.length).toNat = data.length :=
      UInt8.toNat_ofNat_of_lt' (hdirect.trans (by decide))
    have hop : UInt8.ofNat data.length < OP_PUSHDATA1 := by
      rw [UInt8.lt_iff_toNat_lt, hnat]
      exact hdirect
    have hle : UInt8.ofNat data.length ≤ OP_PUSHDATA4 :=
      UInt8.le_trans (UInt8.le_of_lt hop) (by decide)
    refine ⟨_, hle, pushedValue_of_le hle ?_, getOp_of_pushSize hle ?_⟩
    · intro hzero
      rw [hzero] at hnat
      exact List.length_eq_zero_iff.mp hnat.symm
    · rw [List.append_eq, List.nil_append, pushSize_direct hop, hnat]
  · exact ⟨OP_PUSHDATA1, by decide, pushedValue_of_le (by decide) fun h => absurd h (by decide),
      getOp_of_pushSize (by decide) (pushSize_sized (by decide) (by decide) (by omega) _)⟩
  · exact ⟨OP_PUSHDATA2, by decide, pushedValue_of_le (by decide) fun h => absurd h (by decide),
      getOp_of_pushSize (by decide) (pushSize_sized (by decide) (by decide) (by omega) _)⟩
  · exact ⟨OP_PUSHDATA4, by decide, pushedValue_of_le (by decide) fun h => absurd h (by decide),
      getOp_of_pushSize (by decide) (pushSize_sized (by decide) (by decide) (by omega) _)⟩

theorem getOp_opcode {opcode : UInt8} (hop : OP_PUSHDATA4 < opcode) (rest : Bytes) :
    getOp (opcode :: rest) = some (opcode, [], rest) := by
  rw [getOp, if_neg (UInt8.not_le.mpr hop)]

end Soqucoin
