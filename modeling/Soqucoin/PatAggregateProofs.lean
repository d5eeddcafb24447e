import Soqucoin.ByteOrderProofs
import Soqucoin.PatAggregate

/-! # PatAggregateProofs — what a PAT proof says about its batch

A batch is put into its canonical order (`sorted`), and the proof is computed from that list alone
(`proofOf`).  Creation serializes it (`createProof_eq`), verification compares it with the parsed
string (`verifyProof_iff`); `parseProof_eq_some` joins the two. -/

namespace Soqucoin.Pat

open MerkleTree

/-- A signature, a key and a message. -/
abbrev Tuple := Bytes × Bytes × Bytes

/-- All three parts have 32 bytes. -/
def Tuple.Sized (t : Tuple) : Prop :=
  t.1.length = 32 ∧ t.2.1.length = 32 ∧ t.2.2.length = 32

instance Tuple.decidableSized (t : Tuple) : Decidable t.Sized :=
  inferInstanceAs (Decidable (_ ∧ _ ∧ _))

section Aggregate

variable (sha3 : Bytes → Uint256)

/-- The proof of a batch of tuples. -/
def createProof (batch : List Tuple) : Option Bytes :=
  createLogarithmicProof sha3 (batch.map (·.1)) (batch.map (·.2.1)) (batch.map (·.2.2))

/-- The verdict on a proof for a batch of tuples. -/
def verifyProof (vchProof : Bytes) (batch : List Tuple) : Bool :=
  verifyLogarithmicProof sha3 vchProof (batch.map (·.1)) (batch.map (·.2.1)) (batch.map (·.2.2))

/-! ## The canonical order -/

/-- What a tuple is sorted by. -/
def keyOf (t : Tuple) (pos : Nat) : CanonicalKey :=
  ⟨sha3 t.2.2, sha3 t.2.1, sha3 t.1, pos⟩

/-- The canonical order of a batch, by position. -/
def orderOf (batch : List Tuple) : List Nat :=
  canonicalOrder sha3 (batch.map (·.1)) (batch.map (·.2.1)) (batch.map (·.2.2))

/-- The batch in its canonical order. -/
def sorted (batch : List Tuple) : List Tuple :=
  (orderOf sha3 batch).map fun pos => batch.getD pos ([], [], [])

/-- The sort keys, in the caller's order. -/
def keysOf (batch : List Tuple) : List CanonicalKey :=
  (List.range batch.length).map fun i => keyOf sha3 (batch.getD i ([], [], [])) i

theorem getD_map_tuple (f : Tuple → Bytes) (hf : f ([], [], []) = []) (batch : List Tuple)
    (i : Nat) : (batch.map f).getD i [] = f (batch.getD i ([], [], [])) := by
  rw [List.getD_eq_getElem?_getD, List.getElem?_map, List.getD_eq_getElem?_getD]
  cases batch[i]? with
  | none => exact hf.symm
  | some t => rfl

/-- The canonical order sorts the keys. -/
theorem orderOf_eq (batch : List Tuple) :
    orderOf sha3 batch =
      ((keysOf sha3 batch).insertionSort (fun a b => b.lt a = false)).map CanonicalKey.pos := by
  rw [orderOf, canonicalOrder, keysOf, List.length_map]
  congr 2
  apply List.map_congr_left
  intro i _
  rw [getD_map_tuple (·.2.2) rfl, getD_map_tuple (·.2.1) rfl, getD_map_tuple (·.1) rfl]
  rfl

/-- The order is a permutation of the positions. -/
theorem orderOf_perm (batch : List Tuple) :
    (orderOf sha3 batch).Perm (List.range batch.length) := by
  rw [orderOf_eq]
  have hkeys : (keysOf sha3 batch).map CanonicalKey.pos = List.range batch.length := by
    rw [keysOf, List.map_map]
    exact List.map_id _
  rw [← hkeys]
  exact (List.perm_insertionSort _ _).map _

/-- The sorted batch is a permutation of the batch. -/
theorem sorted_perm (batch : List Tuple) : (sorted sha3 batch).Perm batch := by
  have hrange : (List.range batch.length).map (fun pos => batch.getD pos ([], [], [])) = batch := by
    apply List.ext_getElem
    · rw [List.length_map, List.length_range]
    · intro i hi hi'
      rw [List.getElem_map, List.getElem_range, List.getD_eq_getElem?_getD,
        List.getElem?_eq_getElem hi', Option.getD_some]
  have h := (orderOf_perm sha3 batch).map fun pos => batch.getD pos ([], [], [])
  rwa [hrange] at h

@[simp] theorem length_sorted (batch : List Tuple) : (sorted sha3 batch).length = batch.length :=
  (sorted_perm sha3 batch).length_eq

/-! ## The proof of a batch -/

/-- What the leaf of a tuple hashes. -/
def leafBytes (t : Tuple) (idx : Nat) : Bytes :=
  0x00 :: (writeLE 4 idx ++ t.1 ++ t.2.1 ++ t.2.2)

/-- The leaves of a sorted batch. -/
def leavesOf (l : List Tuple) : List Uint256 :=
  l.mapIdx fun i t => sha3 (leafBytes t i)

/-- The proof of a batch that stands in its canonical order. -/
def proofOf (l : List Tuple) : LogarithmicProof :=
  ⟨merkleRoot sha3 (leavesOf sha3 l), computePkAgg sha3 (l.map (·.2.1)),
    computeMsgRoot sha3 (l.map (·.2.2)), l.length⟩

theorem sorted_field (f : Tuple → Bytes) (hf : f ([], [], []) = []) (batch : List Tuple) :
    (orderOf sha3 batch).map (fun pos => (batch.map f).getD pos []) =
      (sorted sha3 batch).map f := by
  rw [sorted, List.map_map]
  apply List.map_congr_left
  intro i _
  exact getD_map_tuple f hf batch i

/-- The proof of a batch, by its canonical order. -/
theorem createProof_eq (batch : List Tuple) :
    createProof sha3 batch =
      if batch.length = 0 ∨ 2 ^ 20 < batch.length then none
      else some (proofOf sha3 (sorted sha3 batch)).serialize := by
  have hleaves : (orderOf sha3 batch).mapIdx (fun i pos =>
        leafHash sha3 i ((batch.map (·.1)).getD pos []) ((batch.map (·.2.1)).getD pos [])
          ((batch.map (·.2.2)).getD pos [])) = leavesOf sha3 (sorted sha3 batch) := by
    apply List.ext_getElem
    · simp [leavesOf, sorted]
    · intro i hi hi'
      rw [List.getElem_mapIdx, getD_map_tuple (·.1) rfl, getD_map_tuple (·.2.1) rfl,
        getD_map_tuple (·.2.2) rfl]
      simp [leavesOf, sorted, leafHash, leafBytes]
  rw [createProof, createLogarithmicProof]
  simp only [List.length_map]
  by_cases hsize : batch.length = 0 ∨ 2 ^ 20 < batch.length
  · rw [if_pos hsize, if_pos (by simpa using hsize)]
  · rw [if_neg hsize, if_neg (by simpa using hsize)]
    have hpks := sorted_field sha3 (·.2.1) rfl batch
    have hmsgs := sorted_field sha3 (·.2.2) rfl batch
    rw [orderOf] at hleaves hpks hmsgs
    rw [hleaves, hpks, hmsgs, proofOf, length_sorted]

theorem length_serialize (proof : LogarithmicProof) : proof.serialize.length = 100 := by
  simp [LogarithmicProof.serialize]

theorem readLEAt_serialize {proof : LogarithmicProof} (h : proof.count ≤ 2 ^ 20) :
    readLEAt proof.serialize 96 4 = proof.count := by
  rw [← List.append_nil proof.serialize]
  exact readLEAt_append (lt_of_le_of_lt h (by decide)) (by simp) []

theorem serialize_parts {bs : Bytes} (h : bs.length = 100) :
    LogarithmicProof.serialize ⟨Uint256.ofSlice bs 0, Uint256.ofSlice bs 32, Uint256.ofSlice bs 64,
      readLEAt bs 96 4⟩ = bs := by
  rw [LogarithmicProof.serialize, writeLE_readLEAt (by omega), Uint256.bytes_ofSlice (by omega),
    Uint256.bytes_ofSlice (by omega), Uint256.bytes_ofSlice (by omega)]
  rw [List.drop_zero, ← List.take_add, ← List.take_add, ← List.take_add]
  exact List.take_of_length_le (by omega)

theorem count_rejected {count : Nat} :
    (count = 0 || MAX_PAT_PROOF_COUNT < count) = true ↔ count = 0 ∨ 2 ^ 20 < count := by
  rw [Bool.or_eq_true, decide_eq_true_eq, decide_eq_true_eq]
  rfl

/-- Bytes parse to a proof exactly if they are its serialization and its count is in range. -/
theorem parseProof_eq_some {vchProof : Bytes} {proof : LogarithmicProof} :
    parseProof vchProof = some proof ↔
      proof.count ≠ 0 ∧ proof.count ≤ 2 ^ 20 ∧ vchProof = proof.serialize := by
  constructor
  · intro h
    rw [parseProof, parseLogarithmicProof] at h
    by_cases hlen : vchProof.length = 100
    · by_cases hcount : readLEAt vchProof 96 4 = 0 ∨ 2 ^ 20 < readLEAt vchProof 96 4
      · rw [if_pos hlen, if_pos (count_rejected.mpr hcount)] at h
        cases h
      · rw [if_pos hlen, if_neg (mt count_rejected.mp hcount)] at h
        cases h
        exact ⟨fun h => hcount (.inl h), Nat.le_of_not_lt fun h => hcount (.inr h),
          (serialize_parts hlen).symm⟩
    · rw [if_neg hlen] at h
      cases h
  · rintro ⟨hne, hle, rfl⟩
    have hcount := readLEAt_serialize hle
    have hroot := Uint256.ofSlice_append [] proof.merkleRoot
      (proof.pkAgg.bytes ++ proof.msgRoot.bytes ++ writeLE 4 proof.count)
    have hagg := Uint256.ofSlice_append proof.merkleRoot.bytes proof.pkAgg
      (proof.msgRoot.bytes ++ writeLE 4 proof.count)
    have hmsg := Uint256.ofSlice_append (proof.merkleRoot.bytes ++ proof.pkAgg.bytes) proof.msgRoot
      (writeLE 4 proof.count)
    simp only [List.length_nil, List.nil_append, List.length_append, Uint256.length_bytes,
      ← List.append_assoc, Nat.reduceAdd] at hroot hagg hmsg
    rw [parseProof, parseLogarithmicProof, if_pos (length_serialize proof)]
    simp only [hcount]
    rw [if_neg (mt count_rejected.mp (by omega))]
    simp only [LogarithmicProof.serialize, hroot, hagg, hmsg]

/-- The leaves that the verifier computes are those of the batch. -/
theorem leaves_by_position (l : List Tuple) :
    (List.range l.length).map (fun i =>
      leafHash sha3 i ((l.map (·.1)).getD i []) ((l.map (·.2.1)).getD i [])
        ((l.map (·.2.2)).getD i [])) = leavesOf sha3 l := by
  apply List.ext_getElem
  · simp [leavesOf]
  · intro i hi hi'
    have hlt : i < l.length := by simpa using hi
    rw [List.getElem_map, List.getElem_range, getD_map_tuple (·.1) rfl,
      getD_map_tuple (·.2.1) rfl, getD_map_tuple (·.2.2) rfl, List.getD_eq_getElem?_getD,
      List.getElem?_eq_getElem hlt]
    simp [leavesOf, leafHash, leafBytes]

theorem nextPowerOfTwo_eq {n : Nat} (hpos : n ≠ 0) (hle : n ≤ 2 ^ 20) :
    nextPowerOfTwo n = 2 ^ (n - 1).size ∧ n ≤ 2 ^ (n - 1).size := by
  have hpow : 0 < 2 ^ (n - 1).size := Nat.two_pow_pos _
  have hlt : n - 1 < 2 ^ (n - 1).size := Nat.lt_size_self (n - 1)
  rw [nextPowerOfTwo, if_neg hpos, smear_eq (by omega)]
  omega

/-- **Producer and verifier build one tree.**  The array that the verifier fills and hashes in
    place ends in the root that the producer climbs to. -/
theorem rebuiltRoot_eq {n : Nat} (hpos : n ≠ 0) (hle : n ≤ 2 ^ 20) (leaf : Nat → Uint256) :
    rebuiltRoot sha3 n leaf = merkleRoot sha3 ((List.range n).map leaf) := by
  obtain ⟨hpow, hfit⟩ := nextPowerOfTwo_eq hpos hle
  generalize (n - 1).size = k at hpow hfit
  have hlast : ((List.range n).map leaf).getLastD Uint256.null = leaf (n - 1) := by
    obtain ⟨m, rfl⟩ : ∃ m, n = m + 1 := ⟨n - 1, by omega⟩
    rw [List.range_succ, List.map_append, List.map_singleton, List.getLastD_concat]
    rfl
  rw [rebuiltRoot, merkleRoot, buildTree, List.length_map, List.length_range, hpow, hlast,
    Nat.log2_two_pow]
  rw [hashUp_root (nodeHash sha3) Uint256.null Nat.lt_two_pow_self.le]
  congr 2
  -- both layers hold the leaves and then the last one
  apply List.ext_getElem
  · simp [layerOf]
    omega
  · intro i hi hi'
    have hlt : i < 2 ^ k := by simpa [layerOf] using hi
    simp only [layerOf, List.getElem_map, List.getElem_range, fill_apply]
    by_cases hi : i < n
    · rw [if_neg (by omega), if_pos (by omega), Nat.add_sub_cancel_left,
        List.getElem_append_left (by simpa using hi)]
      simp
    · rw [if_pos (by omega), if_pos (by omega), List.getElem_append_right (by simpa using hi)]
      simp only [List.getElem_replicate]
      congr 1
      omega

/-- The verifier accepts exactly the bytes of the batch's own proof. -/
theorem verifyProof_iff {vchProof : Bytes} {batch : List Tuple} (hsized : ∀ t ∈ batch, t.Sized) :
    verifyProof sha3 vchProof batch ↔
      parseProof vchProof = some (proofOf sha3 (sorted sha3 batch)) := by
  rw [verifyProof, verifyLogarithmicProof]
  cases hparse : parseProof vchProof with
  | none => simp
  | some proof =>
    obtain ⟨hne, hle, -⟩ := parseProof_eq_some.mp hparse
    simp only [List.length_map]
    rw [if_neg (mt count_rejected.mp (by omega)), Option.some.injEq]
    by_cases hcount : batch.length = proof.count
    · have hall : ((batch.map (·.1)).all (·.length = 32) &&
          (batch.map (·.2.1)).all (·.length = 32) &&
          (batch.map (·.2.2)).all (·.length = 32)) = true := by
        simp only [List.all_map, Bool.and_eq_true, List.all_eq_true, Function.comp_apply,
          decide_eq_true_eq]
        exact ⟨⟨fun t ht => (hsized t ht).1, fun t ht => (hsized t ht).2.1⟩,
          fun t ht => (hsized t ht).2.2⟩
      have hsigs := sorted_field sha3 (·.1) rfl batch
      have hpks := sorted_field sha3 (·.2.1) rfl batch
      have hmsgs := sorted_field sha3 (·.2.2) rfl batch
      have hleaves := leaves_by_position sha3 (sorted sha3 batch)
      rw [orderOf] at hsigs hpks hmsgs
      rw [length_sorted, hcount] at hleaves
      rw [if_neg (by simp [hcount]), hall, hsigs, hpks, hmsgs,
        rebuiltRoot_eq sha3 hne hle, hleaves]
      obtain ⟨root, agg, msg, count⟩ := proof
      simp only [proofOf, length_sorted, LogarithmicProof.mk.injEq]
      grind
    · rw [if_pos (by simp [hcount])]
      constructor
      · intro h
        exact absurd h Bool.false_ne_true
      · intro h
        rw [h, proofOf, length_sorted] at hcount
        exact absurd rfl hcount

/-- **The verifier accepts what the producer makes, and nothing else.** For a batch of hashed
    tuples, the bytes that pass are the bytes that are created. -/
theorem verifyProof_iff_createProof (vchProof : Bytes) (batch : List Tuple)
    (hsized : ∀ t ∈ batch, t.Sized) :
    verifyProof sha3 vchProof batch = true ↔ createProof sha3 batch = some vchProof := by
  rw [verifyProof_iff sha3 hsized, parseProof_eq_some, createProof_eq]
  have hcount : (proofOf sha3 (sorted sha3 batch)).count = batch.length := length_sorted sha3 batch
  rw [hcount]
  by_cases hsize : batch.length = 0 ∨ 2 ^ 20 < batch.length
  · rw [if_pos hsize]
    constructor
    · rintro ⟨hne, hle, -⟩
      omega
    · intro h
      cases h
  · rw [if_neg hsize, Option.some.injEq]
    constructor
    · rintro ⟨-, -, heq⟩
      exact heq.symm
    · intro heq
      exact ⟨by omega, by omega, heq.symm⟩

/-! ## The order does not depend on the caller's -/

theorem digits_injective {a b : Uint256} (h : digits a = digits b) : a = b :=
  Uint256.ext (List.map_injective_iff.mpr (fun _ _ => UInt8.toNat_inj.mp) h)

/-- The three hashes of a key, compared one after the other. -/
def CanonicalKey.fields (k : CanonicalKey) : List ℕ ×ₗ List ℕ ×ₗ List ℕ :=
  toLex (digits k.msg, toLex (digits k.pk, digits k.sig))

/-- The comparison as a lexicographic order. -/
def CanonicalKey.rank (k : CanonicalKey) : (List ℕ ×ₗ List ℕ ×ₗ List ℕ) ×ₗ ℕ :=
  toLex (k.fields, k.pos)

/-- The comparison is a lexicographic order. -/
theorem CanonicalKey.lt_iff (a b : CanonicalKey) : a.lt b ↔ a.rank < b.rank := by
  have hdigits : ∀ {x y : Uint256}, digits x = digits y ↔ x = y := fun {x y} =>
    ⟨digits_injective, fun h => by rw [h]⟩
  rw [CanonicalKey.lt, rank, rank, fields, fields, Prod.Lex.toLex_lt_toLex,
    Prod.Lex.toLex_lt_toLex, Prod.Lex.toLex_lt_toLex]
  simp only [EmbeddingLike.apply_eq_iff_eq, Prod.mk.injEq, hdigits]
  by_cases hmsg : a.msg = b.msg
  · by_cases hpk : a.pk = b.pk
    · by_cases hsig : a.sig = b.sig
      · simp [hmsg, hpk, hsig]
      · simp [hmsg, hpk, hsig]
    · simp [hmsg, hpk]
  · simp [hmsg]

theorem CanonicalKey.not_lt_iff (a b : CanonicalKey) : b.lt a = false ↔ a.rank ≤ b.rank := by
  rw [← not_lt, ← CanonicalKey.lt_iff, Bool.not_eq_true]

theorem CanonicalKey.fields_le {a b : CanonicalKey} (h : a.rank ≤ b.rank) :
    a.fields ≤ b.fields := by
  rcases Prod.Lex.toLex_le_toLex.mp h with h | ⟨h, -⟩
  · exact le_of_lt h
  · exact le_of_eq h

/-- What a tuple is sorted by. -/
def fieldsOf (t : Tuple) : List ℕ ×ₗ List ℕ ×ₗ List ℕ := (keyOf sha3 t 0).fields

/-- The canonical order is sorted. -/
theorem sorted_pairwise (batch : List Tuple) :
    (sorted sha3 batch).Pairwise fun t u => fieldsOf sha3 t ≤ fieldsOf sha3 u := by
  have hsort : ((keysOf sha3 batch).insertionSort (fun a b => b.lt a = false)).Pairwise
      fun a b => b.lt a = false := by
    have : Std.Total fun a b : CanonicalKey => b.lt a = false :=
      ⟨fun a b => by
        rw [CanonicalKey.not_lt_iff, CanonicalKey.not_lt_iff]
        exact le_total _ _⟩
    have : IsTrans CanonicalKey fun a b => b.lt a = false :=
      ⟨fun a b c => by
        rw [CanonicalKey.not_lt_iff, CanonicalKey.not_lt_iff, CanonicalKey.not_lt_iff]
        exact le_trans⟩
    exact List.pairwise_insertionSort _ _
  -- every key in the sorted list is that of the tuple at its position
  have hkey : ∀ k ∈ (keysOf sha3 batch).insertionSort (fun a b => b.lt a = false),
      k.fields = fieldsOf sha3 (batch.getD k.pos ([], [], [])) := by
    intro k hk
    rw [List.mem_insertionSort, keysOf, List.mem_map] at hk
    obtain ⟨i, -, rfl⟩ := hk
    rfl
  rw [sorted, orderOf_eq, List.map_map, List.pairwise_map]
  apply hsort.imp_of_mem
  intro a b ha hb hab
  rw [Function.comp_apply, Function.comp_apply, ← hkey a ha, ← hkey b hb]
  exact CanonicalKey.fields_le ((CanonicalKey.not_lt_iff a b).mp hab)

/-! ## Hashed strings -/

/-- What a node hashes. -/
def nodeBytes (p : Uint256 × Uint256) : Bytes := 0x01 :: (p.1.bytes ++ p.2.bytes)

/-- The leaves of the tree, the last one repeated. -/
def paddedLeaves (l : List Tuple) : List Uint256 :=
  leavesOf sha3 l ++ List.replicate (nextPowerOfTwo l.length - l.length)
    ((leavesOf sha3 l).getLastD Uint256.null)

/-- The strings hashed for the order of a batch and for its tree. -/
def hashedStrings (batch : List Tuple) : List Bytes :=
  batch.flatMap (fun t => [t.1, t.2.1, t.2.2]) ++
    (sorted sha3 batch).mapIdx (fun i t => leafBytes t i) ++
    (climbPairs (nodeHash sha3) (Nat.log2 (nextPowerOfTwo batch.length))
      (paddedLeaves sha3 (sorted sha3 batch))).map nodeBytes

section Binding

variable {sha3}

theorem fields_subset {batch : List Tuple} {t : Tuple} (ht : t ∈ batch) :
    [t.1, t.2.1, t.2.2] ⊆ hashedStrings sha3 batch := by
  intro x hx
  apply List.mem_append_left
  apply List.mem_append_left
  exact List.mem_flatMap.mpr ⟨t, ht, hx⟩

/-- Tuples with equal digests are equal, where the hash has no collision on them. -/
theorem fieldsOf_injective {t u : Tuple}
    (hinj : InjectiveOn sha3 ([t.1, t.2.1, t.2.2] ++ [u.1, u.2.1, u.2.2]))
    (h : fieldsOf sha3 t = fieldsOf sha3 u) : t = u := by
  obtain ⟨sig, pk, msg⟩ := t
  obtain ⟨sig', pk', msg'⟩ := u
  rw [fieldsOf, fieldsOf, CanonicalKey.fields, CanonicalKey.fields] at h
  simp only [EmbeddingLike.apply_eq_iff_eq, Prod.mk.injEq, keyOf] at h
  obtain ⟨hmsg, hpk, hsig⟩ := h
  rw [hinj sig (by simp) sig' (by simp) (digits_injective hsig),
    hinj pk (by simp) pk' (by simp) (digits_injective hpk),
    hinj msg (by simp) msg' (by simp) (digits_injective hmsg)]

/-- Permuted batches have one canonical order. -/
theorem sorted_eq_of_perm {b c : List Tuple}
    (hinj : InjectiveOn sha3 (hashedStrings sha3 b ++ hashedStrings sha3 c)) (h : b.Perm c) :
    sorted sha3 b = sorted sha3 c := by
  apply List.Perm.eq_of_pairwise _ (sorted_pairwise sha3 b) (sorted_pairwise sha3 c)
  · exact (sorted_perm sha3 b).trans (h.trans (sorted_perm sha3 c).symm)
  · intro t u ht hu htu hut
    have ht' : t ∈ b := (sorted_perm sha3 b).mem_iff.mp ht
    have hu' : u ∈ c := (sorted_perm sha3 c).mem_iff.mp hu
    apply fieldsOf_injective (hinj.mono _) (le_antisymm htu hut)
    apply List.append_subset.mpr
    exact ⟨fun x hx => List.mem_append_left _ (fields_subset ht' hx),
      fun x hx => List.mem_append_right _ (fields_subset hu' hx)⟩

/-! ## From the root to the tuples -/

theorem length_leavesOf (l : List Tuple) : (leavesOf sha3 l).length = l.length := by
  rw [leavesOf, List.length_mapIdx]

theorem merkleRoot_leavesOf (l : List Tuple) :
    merkleRoot sha3 (leavesOf sha3 l) =
      (climb (nodeHash sha3) (Nat.log2 (nextPowerOfTwo l.length)) (paddedLeaves sha3 l)).headD
        Uint256.null := by
  rw [merkleRoot, length_leavesOf]
  rfl

theorem length_paddedLeaves {l : List Tuple} (hpos : l.length ≠ 0) (hle : l.length ≤ 2 ^ 20) :
    (paddedLeaves sha3 l).length = 2 ^ Nat.log2 (nextPowerOfTwo l.length) := by
  obtain ⟨hpow, hfit⟩ := nextPowerOfTwo_eq hpos hle
  rw [paddedLeaves, List.length_append, List.length_replicate, length_leavesOf, hpow,
    Nat.log2_two_pow]
  omega

theorem nodeBytes_injective {p q : Uint256 × Uint256} (h : nodeBytes p = nodeBytes q) : p = q := by
  obtain ⟨hleft, hright⟩ := append_inj_of_length (by simp) (List.cons.inj h).2
  exact Prod.ext (Uint256.ext hleft) (Uint256.ext hright)

/-- Equal roots come from equal leaves. -/
theorem paddedLeaves_eq {l m : List Tuple} (hlen : l.length = m.length) (hpos : l.length ≠ 0)
    (hle : l.length ≤ 2 ^ 20)
    (hinj : InjectiveOn sha3
      ((climbPairs (nodeHash sha3) (Nat.log2 (nextPowerOfTwo l.length)) (paddedLeaves sha3 l) ++
        climbPairs (nodeHash sha3) (Nat.log2 (nextPowerOfTwo l.length))
          (paddedLeaves sha3 m)).map nodeBytes))
    (h : merkleRoot sha3 (leavesOf sha3 l) = merkleRoot sha3 (leavesOf sha3 m)) :
    paddedLeaves sha3 l = paddedLeaves sha3 m := by
  have hl : (paddedLeaves sha3 l).length = 2 ^ Nat.log2 (nextPowerOfTwo l.length) :=
    length_paddedLeaves hpos hle
  have hm : (paddedLeaves sha3 m).length = 2 ^ Nat.log2 (nextPowerOfTwo m.length) :=
    length_paddedLeaves (hlen ▸ hpos) (hlen ▸ hle)
  rw [merkleRoot_leavesOf, merkleRoot_leavesOf, ← hlen] at h
  rw [← hlen] at hm
  apply climb_injective hl hm
  · intro x hx y hy hnode
    exact nodeBytes_injective (hinj _ (List.mem_map_of_mem hx) _ (List.mem_map_of_mem hy) hnode)
  · obtain ⟨root, hroot⟩ := List.length_eq_one_iff.mp (length_climb (nodeHash sha3) hl)
    obtain ⟨root', hroot'⟩ := List.length_eq_one_iff.mp (length_climb (nodeHash sha3) hm)
    rw [hroot, hroot'] at h ⊢
    rw [show root = root' from h]

theorem leafBytes_injective {t u : Tuple} {i : Nat} (ht : t.Sized) (hu : u.Sized)
    (h : leafBytes t i = leafBytes u i) : t = u := by
  obtain ⟨hrest, hmsg⟩ := append_inj_of_length
    (by simp [ht.1, ht.2.1, hu.1, hu.2.1]) (List.cons.inj h).2
  obtain ⟨hrest, hpk⟩ := append_inj_of_length (by simp [ht.1, hu.1]) hrest
  obtain ⟨-, hsig⟩ := append_inj_of_length rfl hrest
  exact Prod.ext hsig (Prod.ext hpk hmsg)

/-- Equal leaves come from equal tuples. -/
theorem eq_of_leavesOf {l m : List Tuple} (hlen : l.length = m.length)
    (hl : ∀ t ∈ l, t.Sized) (hm : ∀ t ∈ m, t.Sized)
    (hinj : InjectiveOn sha3 (l.mapIdx (fun i t => leafBytes t i) ++
      m.mapIdx (fun i t => leafBytes t i)))
    (h : leavesOf sha3 l = leavesOf sha3 m) : l = m := by
  apply List.ext_getElem hlen
  intro i hi hi'
  have hleaf : sha3 (leafBytes l[i] i) = sha3 (leafBytes m[i] i) := by
    have hget := congrArg (·[i]?) h
    simpa [leavesOf, hi, hi'] using hget
  apply leafBytes_injective (hl _ (List.getElem_mem hi)) (hm _ (List.getElem_mem hi'))
  apply hinj _ _ _ _ hleaf
  · apply List.mem_append_left
    exact List.mem_mapIdx.mpr ⟨i, hi, rfl⟩
  · apply List.mem_append_right
    exact List.mem_mapIdx.mpr ⟨i, hi', rfl⟩

/-- The root and the count are read off the bytes. -/
theorem serialize_injective {p q : LogarithmicProof} (hp : p.count ≤ 2 ^ 20)
    (hq : q.count ≤ 2 ^ 20) (h : p.serialize = q.serialize) :
    p.merkleRoot = q.merkleRoot ∧ p.count = q.count := by
  rw [LogarithmicProof.serialize, LogarithmicProof.serialize] at h
  obtain ⟨hrest, hcount⟩ := append_inj_of_length (by simp) h
  obtain ⟨hrest, -⟩ := append_inj_of_length (by simp) hrest
  obtain ⟨hroot, -⟩ := append_inj_of_length (by simp) hrest
  exact ⟨Uint256.ext hroot, writeLE_injective (lt_of_le_of_lt hp (by decide))
    (lt_of_le_of_lt hq (by decide)) hcount⟩

/-- Equal proofs come from equal batches. -/
theorem sorted_eq_of_proofOf {b c : List Tuple} (hb : ∀ t ∈ b, t.Sized) (hc : ∀ t ∈ c, t.Sized)
    (hpos : b.length ≠ 0) (hble : b.length ≤ 2 ^ 20) (hcle : c.length ≤ 2 ^ 20)
    (hinj : InjectiveOn sha3 (hashedStrings sha3 b ++ hashedStrings sha3 c))
    (h : (proofOf sha3 (sorted sha3 b)).serialize = (proofOf sha3 (sorted sha3 c)).serialize) :
    sorted sha3 b = sorted sha3 c := by
  have hblen := length_sorted sha3 b
  have hclen := length_sorted sha3 c
  obtain ⟨hroot, hcount⟩ := serialize_injective (by rwa [← hblen] at hble)
    (by rwa [← hclen] at hcle) h
  have hlen : (sorted sha3 b).length = (sorted sha3 c).length := hcount
  have hpadded : paddedLeaves sha3 (sorted sha3 b) = paddedLeaves sha3 (sorted sha3 c) := by
    apply paddedLeaves_eq hlen (by rwa [hblen]) (by rwa [hblen]) (hinj.mono _) hroot
    rw [List.map_append]
    apply List.append_subset.mpr
    rw [hblen, show b.length = c.length by omega]
    constructor
    · intro x hx
      apply List.mem_append_left
      apply List.mem_append_right
      rwa [show b.length = c.length by omega]
    · intro x hx
      exact List.mem_append_right _ (List.mem_append_right _ hx)
  have hleaves : leavesOf sha3 (sorted sha3 b) = leavesOf sha3 (sorted sha3 c) :=
    (List.append_inj hpadded (by rw [length_leavesOf, length_leavesOf, hlen])).1
  apply eq_of_leavesOf hlen _ _ (hinj.mono _) hleaves
  · exact fun t ht => hb t ((sorted_perm sha3 b).mem_iff.mp ht)
  · exact fun t ht => hc t ((sorted_perm sha3 c).mem_iff.mp ht)
  · apply List.append_subset.mpr
    constructor
    · intro x hx
      exact List.mem_append_left _ (List.mem_append_left _ (List.mem_append_right _ hx))
    · intro x hx
      exact List.mem_append_right _ (List.mem_append_left _ (List.mem_append_right _ hx))

end Binding

/-- **A proof binds its batch up to order.** Where the hash has no collision on what is hashed, two
    batches have one proof exactly if one is a permutation of the other. -/
theorem createProof_eq_iff_perm (b c : List Tuple) (hb : ∀ t ∈ b, t.Sized)
    (hc : ∀ t ∈ c, t.Sized) (hble : b.length ≤ 2 ^ 20) (hcle : c.length ≤ 2 ^ 20)
    (hinj : InjectiveOn sha3 (hashedStrings sha3 b ++ hashedStrings sha3 c)) :
    createProof sha3 b = createProof sha3 c ↔ b.Perm c := by
  constructor
  · intro h
    rw [createProof_eq, createProof_eq] at h
    by_cases hbpos : b.length = 0
    · by_cases hcpos : c.length = 0
      · rw [List.eq_nil_of_length_eq_zero hbpos, List.eq_nil_of_length_eq_zero hcpos]
      · rw [if_pos (.inl hbpos), if_neg (by omega)] at h
        cases h
    · by_cases hcpos : c.length = 0
      · rw [if_neg (by omega), if_pos (.inl hcpos)] at h
        cases h
      · rw [if_neg (by omega), if_neg (by omega), Option.some.injEq] at h
        have hsorted := sorted_eq_of_proofOf hb hc hbpos hble hcle hinj h
        exact (sorted_perm sha3 b).symm.trans (hsorted ▸ sorted_perm sha3 c)
  · intro h
    rw [createProof_eq, createProof_eq, sorted_eq_of_perm hinj h, h.length_eq]

end Aggregate

/-! ## A batch of two -/

namespace Sample

/-- A stand-in for the hash, without collisions on short inputs. -/
def hash (bs : Bytes) : Uint256 :=
  ⟨writeLE 32 (bs.foldl (fun acc b => (acc * 257 + b.toNat + 1) % 2 ^ 250) 1), length_writeLE _ _⟩

/-- A tuple of repeated bytes. -/
def tuple (b : UInt8) : Tuple :=
  (List.replicate 32 b, List.replicate 32 (b + 1), List.replicate 32 (b + 2))

theorem sized (t : Tuple) (ht : t ∈ [tuple 1, tuple 4]) : t.Sized := by
  revert t
  decide

/-- Two tuples. -/
theorem verifyProof_two :
    (∀ t ∈ [tuple 1, tuple 4], t.Sized) ∧
      verifyProof hash ((createProof hash [tuple 1, tuple 4]).getD []) [tuple 1, tuple 4] =
        true := by
  refine ⟨sized, ?_⟩
  rw [verifyProof_iff_createProof hash _ _ sized, createProof_eq]
  rfl

/-- The same two tuples the other way round. -/
theorem createProof_two_swapped :
    createProof hash [tuple 1, tuple 4] = createProof hash [tuple 4, tuple 1] :=
  (createProof_eq_iff_perm hash [tuple 1, tuple 4] [tuple 4, tuple 1] sized
    (fun t ht => sized t (by simpa [or_comm] using ht)) (by decide) (by decide)
    (by decide +kernel)).mpr (List.Perm.swap _ _ _)

end Sample

end Soqucoin.Pat
