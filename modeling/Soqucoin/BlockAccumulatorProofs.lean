import Soqucoin.BlockAccumulator
import Soqucoin.ByteOrderProofs

/-! # BlockAccumulatorProofs — what the accumulator hash binds

The seed transcript writes every entry behind its length, cast to 32 bits.  A range proof or a
commitment is a witness item of a block of at most 4 MB, so the cast loses nothing; equal
accumulator hashes then come from equal seed transcripts, and these from equal lists
(`flatMap_frame_injective`). -/

namespace Soqucoin.Accumulator

/-! ## Length-prefixed entries -/

/-- Entries whose lengths the transcript writes in full. -/
def Short (l : List Bytes) : Prop := ∀ entry ∈ l, entry.length < 2 ^ 32

/-- An entry behind its length can be told from what follows it. -/
theorem frame_append_injective {e f rest rest' : Bytes} (he : e.length < 2 ^ 32)
    (hf : f.length < 2 ^ 32) (h : frame e ++ rest = frame f ++ rest') : e = f ∧ rest = rest' := by
  rw [frame, frame, List.append_assoc, List.append_assoc] at h
  obtain ⟨hlen, htail⟩ := append_inj_of_length (by simp) h
  exact append_inj_of_length (writeLE_injective he hf hlen) htail

/-- Lists of one length are recovered from their framed entries. -/
theorem flatMap_frame_injective {l m : List Bytes} {rest rest' : Bytes}
    (hcount : l.length = m.length) (hl : Short l) (hm : Short m)
    (h : l.flatMap frame ++ rest = m.flatMap frame ++ rest') : l = m ∧ rest = rest' := by
  induction l generalizing m with
  | nil =>
    rw [List.eq_nil_of_length_eq_zero hcount.symm] at h ⊢
    exact ⟨rfl, h⟩
  | cons e l ih =>
    cases m with
    | nil => cases hcount
    | cons f m =>
      obtain ⟨he, hl'⟩ := List.forall_mem_cons.mp hl
      obtain ⟨hf, hm'⟩ := List.forall_mem_cons.mp hm
      rw [List.flatMap_cons, List.flatMap_cons, List.append_assoc, List.append_assoc] at h
      obtain ⟨rfl, htail⟩ := frame_append_injective he hf h
      obtain ⟨rfl, hrest⟩ := ih (Nat.succ.inj hcount) hl' hm' htail
      exact ⟨rfl, hrest⟩

/-! ## From the accumulator hash to the lists -/

variable {hash256 : Bytes → Uint256}

/-- The strings on the way from the lists to the accumulator hash. -/
def hashedStrings (hash256 : Bytes → Uint256) (vProofData vCommitData : List Bytes) : List Bytes :=
  [seedTranscript vProofData vCommitData, foldedState hash256 vProofData vCommitData]

variable {C C' P P' : List Bytes}

/-- An accumulator of some proofs has their number and the hash of the folded state. -/
theorem accumulate_eq_some {accum : BlockProofAccumulator} (hne : P ≠ [])
    (h : accumulateBlockRangeProofs hash256 P C = some accum) :
    P.length = C.length ∧ P.length ≤ 512 ∧ accum.nProofCount = P.length ∧
      accum.hashAccumulator = hash256 (foldedState hash256 P C) := by
  have hstate : foldedState hash256 P C ≠ [] := by
    rw [← List.length_pos_iff]
    simp [foldedState]
  rw [accumulateBlockRangeProofs, if_neg hne] at h
  by_cases hcount : P.length ≠ C.length
  · rw [if_pos hcount] at h
    cases h
  · rw [if_neg hcount] at h
    by_cases hmax : MAX_PROOFS_PER_BLOCK < P.length
    · rw [if_pos hmax] at h
      cases h
    · rw [if_neg hmax] at h
      cases h
      have hmax' : P.length ≤ 512 := Nat.le_of_not_lt hmax
      refine ⟨not_not.mp hcount, hmax', Nat.mod_eq_of_lt (lt_of_le_of_lt hmax' (by decide)), ?_⟩
      rw [computeHash, if_neg hstate]

/-- Equal states come from as many proofs and from equal seeds. -/
theorem foldedState_injective (hmax : P.length ≤ 512) (hmax' : P'.length ≤ 512)
    (h : foldedState hash256 P C = foldedState hash256 P' C') :
    P.length = P'.length ∧ hash256 (seedTranscript P C) = hash256 (seedTranscript P' C') := by
  rw [foldedState, foldedState] at h
  obtain ⟨hrest, -⟩ := append_inj_of_length (by simp) h
  obtain ⟨hrest, hseed⟩ := append_inj_of_length (by simp) hrest
  obtain ⟨-, hcount⟩ := append_inj_of_length rfl hrest
  exact ⟨writeLE_injective (lt_of_le_of_lt hmax (by decide)) (lt_of_le_of_lt hmax' (by decide))
    hcount, Uint256.ext hseed⟩

/-- Entries that fit their length fields are read off the transcript. -/
theorem seedTranscript_injective (hcount : P.length = P'.length) (hcount' : C.length = C'.length)
    (hP : Short P) (hP' : Short P') (hC : Short C) (hC' : Short C')
    (h : seedTranscript P C = seedTranscript P' C') : P = P' ∧ C = C' := by
  rw [seedTranscript, seedTranscript, hcount, List.append_assoc,
    List.append_assoc _ _ (C'.flatMap _)]
    at h
  have hframes := List.append_cancel_left h
  obtain ⟨rfl, hframes'⟩ := flatMap_frame_injective hcount hP hP' hframes
  rw [← List.append_nil (C.flatMap frame), ← List.append_nil (C'.flatMap frame)] at hframes'
  exact ⟨rfl, (flatMap_frame_injective hcount' hC hC' hframes').1⟩

/-- Where the hash is injective on the transcripts, one accumulator hash has one pair of lists. -/
theorem eq_of_hash_eq (hcount : P.length = C.length) (hcount' : P'.length = C'.length)
    (hmax : P.length ≤ 512) (hmax' : P'.length ≤ 512) (hP : Short P) (hP' : Short P')
    (hC : Short C) (hC' : Short C')
    (hinj : InjectiveOn hash256 (hashedStrings hash256 P C ++ hashedStrings hash256 P' C'))
    (h : hash256 (foldedState hash256 P C) = hash256 (foldedState hash256 P' C')) :
    P = P' ∧ C = C' := by
  have hstate := hinj _ (by simp [hashedStrings]) _ (by simp [hashedStrings]) h
  obtain ⟨hlen, hseed⟩ := foldedState_injective hmax hmax' hstate
  have htranscript := hinj _ (by simp [hashedStrings]) _ (by simp [hashedStrings]) hseed
  exact seedTranscript_injective hlen (by omega) hP hP' hC hC' htranscript

/-- A block passes where accumulating again gives the same hash. -/
theorem verify_recomputes {accum : BlockProofAccumulator} (hpos : accum.nProofCount ≠ 0)
    (h : verifyBlockAccumulator hash256 accum P C) :
    P ≠ [] ∧ ∃ recomputed, accumulateBlockRangeProofs hash256 P C = some recomputed ∧
      recomputed.hashAccumulator = accum.hashAccumulator := by
  rw [verifyBlockAccumulator] at h
  by_cases hversion : accum.nVersion ≠ 1
  · rw [if_pos hversion] at h
    cases h
  · rw [if_neg hversion] at h
    by_cases hcount : accum.nProofCount ≠ P.length % 2 ^ 32
    · rw [if_pos hcount] at h
      cases h
    · rw [if_neg hcount] at h
      refine ⟨?_, ?_⟩
      · rintro rfl
        exact hcount hpos
      · cases haccum : accumulateBlockRangeProofs hash256 P C with
        | none =>
          rw [haccum] at h
          cases h
        | some recomputed =>
          rw [haccum] at h
          exact ⟨recomputed, rfl, of_decide_eq_true h⟩

/-- An accumulator is accepted for the lists it was made of. -/
theorem verify_accumulated {accum : BlockProofAccumulator} (hne : P ≠ [])
    (h : accumulateBlockRangeProofs hash256 P C = some accum) :
    verifyBlockAccumulator hash256 accum P C = true := by
  obtain ⟨-, hmax, hproofs, -⟩ := accumulate_eq_some hne h
  have hversion : accum.nVersion = 1 := by
    rw [accumulateBlockRangeProofs, if_neg hne] at h
    obtain ⟨-, h⟩ := Option.ite_none_left_eq_some.mp h
    obtain ⟨-, h⟩ := Option.ite_none_left_eq_some.mp h
    cases h
    rfl
  have hcount : P.length % 2 ^ 32 = P.length := Nat.mod_eq_of_lt (by omega)
  rw [verifyBlockAccumulator, h, hversion, hproofs, hcount]
  simp

/-- **The accumulator is binding.**  Two pairs of lists with one accumulator hash are equal entry
    by entry and in order, and `VerifyBlockAccumulator` accepts an accumulator for the pair it was
    made of only. -/
theorem accumulator_binding (hash256 : Bytes → Uint256) (P C P' C' : List Bytes)
    (accum : BlockProofAccumulator) (hne : P ≠ [])
    (haccum : accumulateBlockRangeProofs hash256 P C = some accum)
    (hP : Short P) (hC : Short C) (hP' : Short P') (hC' : Short C')
    (hinj : InjectiveOn hash256 (hashedStrings hash256 P C ++ hashedStrings hash256 P' C')) :
    (∀ accum', P' ≠ [] → accumulateBlockRangeProofs hash256 P' C' = some accum' →
      accum.hashAccumulator = accum'.hashAccumulator → P = P' ∧ C = C') ∧
    (verifyBlockAccumulator hash256 accum P' C' = true ↔ P = P' ∧ C = C') := by
  obtain ⟨hcount, hmax, hproofs, hhash⟩ := accumulate_eq_some hne haccum
  have hbinds : ∀ accum', P' ≠ [] → accumulateBlockRangeProofs hash256 P' C' = some accum' →
      accum.hashAccumulator = accum'.hashAccumulator → P = P' ∧ C = C' := by
    intro accum' hne' haccum' heq
    obtain ⟨hcount', hmax', -, hhash'⟩ := accumulate_eq_some hne' haccum'
    rw [hhash, hhash'] at heq
    exact eq_of_hash_eq hcount hcount' hmax hmax' hP hP' hC hC' hinj heq
  refine ⟨hbinds, ?_, ?_⟩
  · -- verification accumulates the given pair again
    intro hverify
    have hpos : accum.nProofCount ≠ 0 := by
      rw [hproofs]
      exact fun h => hne (List.eq_nil_of_length_eq_zero h)
    obtain ⟨hne', recomputed, hrecomputed, heq⟩ := verify_recomputes hpos hverify
    exact hbinds recomputed hne' hrecomputed heq.symm
  · rintro ⟨rfl, rfl⟩
    exact verify_accumulated hne haccum

/-- The length of a string and its bytes, as far as they fit: a hash that tells the strings of a
    short block apart. -/
def sampleHash (bs : Bytes) : Uint256 :=
  Uint256.ofSlice (writeLE 2 bs.length ++ (bs.filter (fun b => b < 0x40)).reverse ++
    List.replicate 32 0) 0

/-- Two proofs under two commitments: their accumulator is accepted for them, and not for the
    same proofs exchanged. -/
theorem accumulator_binding_two_proofs :
    ∃ accum, accumulateBlockRangeProofs sampleHash [[1, 2], [3]] [[4], [5]] = some accum ∧
      verifyBlockAccumulator sampleHash accum [[1, 2], [3]] [[4], [5]] = true ∧
      verifyBlockAccumulator sampleHash accum [[3], [1, 2]] [[4], [5]] = false := by
  have hshort : Short [[1, 2], [3]] ∧ Short [[3], [1, 2]] ∧ Short [[4], [5]] := by
    refine ⟨?_, ?_, ?_⟩ <;> exact List.forall_mem_cons.mpr ⟨by decide, by simp⟩
  obtain ⟨hproofs, hswapped, hcommits⟩ := hshort
  refine ⟨_, rfl, ?_, ?_⟩
  · exact (accumulator_binding sampleHash _ _ [[1, 2], [3]] [[4], [5]] _ (by decide) rfl
      hproofs hcommits hproofs hcommits (by decide +kernel)).2.mpr ⟨rfl, rfl⟩
  · rw [← Bool.not_eq_true, (accumulator_binding sampleHash _ _ [[3], [1, 2]] [[4], [5]] _
      (by decide) rfl hproofs hcommits hswapped hcommits (by decide +kernel)).2]
    decide

end Soqucoin.Accumulator
