import Soqucoin.AuxPow
import Soqucoin.ByteOrderProofs
import Soqucoin.MerkleTreeProofs

/-! # AuxPowProofs — work on a parent counts once

With the merged-mining header in the coinbase, the script fixes what a proof can use: the root
stands behind the only header, the size behind the root gives the height of the branch, and the
nonce behind it the slot.  Two blocks of one chain would need two nodes that climb to one root
from one slot. -/

namespace Soqucoin

/-! ## Searching -/

/-- The search finds the first occurrence. -/
theorem searchBytes_eq_some {needle : Bytes} (hne : needle ≠ []) {s : Bytes} {i : Nat} :
    searchBytes needle s = some i ↔ needle <+: s.drop i ∧ ∀ j < i, ¬ needle <+: s.drop j := by
  induction s generalizing i with
  | nil =>
    rw [searchBytes, if_neg hne]
    refine iff_of_false (Option.some_ne_none _).symm ?_
    rintro ⟨h, -⟩
    rw [List.drop_nil, List.prefix_nil] at h
    exact hne h
  | cons b s ih =>
    rw [searchBytes]
    by_cases hhere : needle <+: b :: s
    · rw [if_pos (List.isPrefixOf_iff_prefix.mpr hhere), Option.some_inj]
      constructor
      · rintro rfl
        exact ⟨hhere, fun j hj => absurd hj (Nat.not_lt_zero j)⟩
      · rintro ⟨-, hfirst⟩
        by_contra hi
        exact hfirst 0 (by omega) hhere
    · rw [if_neg (fun h => hhere (List.isPrefixOf_iff_prefix.mp h)), Option.map_eq_some_iff]
      constructor
      · rintro ⟨k, hk, rfl⟩
        obtain ⟨hat, hfirst⟩ := ih.mp hk
        refine ⟨hat, ?_⟩
        intro j hj
        cases j with
        | zero => exact hhere
        | succ j => exact hfirst j (by omega)
      · rintro ⟨hat, hfirst⟩
        cases i with
        | zero => exact absurd hat hhere
        | succ i =>
          exact ⟨i, ih.mpr ⟨hat, fun j hj => hfirst (j + 1) (by omega)⟩, rfl⟩

/-- The search finds what is there. -/
theorem searchBytes_isSome {needle : Bytes} (hne : needle ≠ []) {s : Bytes} :
    (searchBytes needle s).isSome ↔ needle <:+: s := by
  constructor
  · intro h
    obtain ⟨i, hi⟩ := Option.isSome_iff_exists.mp h
    exact (((searchBytes_eq_some hne).mp hi).1.isInfix).trans (List.drop_suffix i s).isInfix
  · rintro ⟨pre, post, rfl⟩
    by_contra hnone
    -- The first of the places where the needle stands would have been found.
    have hex : ∃ i, needle <+: (pre ++ needle ++ post).drop i := by
      refine ⟨pre.length, ?_⟩
      rw [List.append_assoc, List.drop_left]
      exact List.prefix_append _ _
    classical
    have hfound := (searchBytes_eq_some hne).mpr
      ⟨Nat.find_spec hex, fun j hj => Nat.find_min hex hj⟩
    rw [hfound] at hnone
    exact hnone rfl

theorem header_ne_nil : pchMergedMiningHeader ≠ [] := by decide

namespace CAuxPow

/-! ## The branches -/

/-- The hash of two nodes of a Merkle branch. -/
def nodeHash (hash : Bytes → Uint256) (a b : Uint256) : Uint256 := hash (a.bytes ++ b.bytes)

/-- The branch check is the walk up a Merkle tree. -/
theorem checkMerkleBranch_eq (hash : Bytes → Uint256) (x : Uint256) (branch : List Uint256)
    (i : Nat) :
    checkMerkleBranch hash x branch (i : Int) = MerkleTree.walkUp (nodeHash hash) branch i x := by
  have hloop : ∀ (branch : List Uint256) (i : Nat) (x : Uint256),
      checkMerkleBranchLoop hash x branch (i : Int) =
        MerkleTree.walkUp (nodeHash hash) branch i x := by
    intro branch
    induction branch with
    | nil => exact fun _ _ => rfl
    | cons s branch ih =>
      intro i x
      have hodd : ((i : Int) % 2 = 1) ↔ i % 2 = 1 := by omega
      have hhalf : (i : Int) / 2 = ((i / 2 : Nat) : Int) := by omega
      rw [checkMerkleBranchLoop, MerkleTree.walkUp, hhalf, ih]
      simp only [hodd]
      rfl
  rw [checkMerkleBranch, if_neg (by omega), hloop]

/-- The strings hashed on the way from a block to the root of the chains' tree. -/
def chainStrings (hash : Bytes → Uint256) (auxpow : CAuxPow) (hashAuxBlock : Uint256) :
    List Bytes :=
  (MerkleTree.walkPairs (nodeHash hash) auxpow.vChainMerkleBranch auxpow.nChainIndex.toNat
    hashAuxBlock).map fun p => p.1.bytes ++ p.2.bytes

/-- A hash without collisions on the pairs makes a tree without collisions. -/
theorem collisionFree_of_injectiveOn {hash : Bytes → Uint256} {l : List (Uint256 × Uint256)}
    (h : InjectiveOn hash (l.map fun p => p.1.bytes ++ p.2.bytes)) :
    MerkleTree.CollisionFree (nodeHash hash) l := by
  intro x hx y hy heq
  have hbytes : x.1.bytes ++ x.2.bytes = y.1.bytes ++ y.2.bytes :=
    h _ (List.mem_map_of_mem hx) _ (List.mem_map_of_mem hy) heq
  obtain ⟨hfst, hsnd⟩ := List.append_inj hbytes (by rw [x.1.size_eq, y.1.size_eq])
  exact Prod.ext (Uint256.ext hfst) (Uint256.ext hsnd)

/-! ## What a passed check says -/

/-- What a proof that passes has shown. -/
structure Passed (hash : Bytes → Uint256) (fStrictChainId : Bool) (auxpow : CAuxPow)
    (hashAuxBlock : Uint256) (nChainId : Int) (script : CScript) (pc : Nat) : Prop where
  generate : auxpow.nIndex = 0
  strict : ¬ (fStrictChainId ∧ auxpow.parentBlock.getChainId = nChainId)
  short : auxpow.vChainMerkleBranch.length ≤ 30
  coinbase : checkMerkleBranch hash (hash (serializeTransaction auxpow.tx.stripWitness))
    auxpow.vMerkleBranch auxpow.nIndex = auxpow.parentBlock.hashMerkleRoot
  input : auxpow.tx.vin.head?.map CTxIn.scriptSig = some script
  root : searchBytes (checkMerkleBranch hash hashAuxBlock auxpow.vChainMerkleBranch
    auxpow.nChainIndex).bytes.reverse script = some pc
  placed : checkPlacement script pc = .ok ()
  slot : checkSlot script (pc + 32) auxpow.vChainMerkleBranch.length auxpow.nChainIndex nChainId =
    .ok ()

/-- A proof passes exactly if it has passed every test. -/
theorem check_eq_ok {hash : Bytes → Uint256} {fStrictChainId : Bool} {auxpow : CAuxPow}
    {hashAuxBlock : Uint256} {nChainId : Int} :
    check hash fStrictChainId auxpow hashAuxBlock nChainId = .ok () ↔
      ∃ script pc, Passed hash fStrictChainId auxpow hashAuxBlock nChainId script pc := by
  have hsize : (checkMerkleBranch hash hashAuxBlock auxpow.vChainMerkleBranch
      auxpow.nChainIndex).bytes.reverse.length = 32 := by
    rw [List.length_reverse, Uint256.length_bytes]
  constructor
  · intro h
    rw [check] at h
    dsimp only at h
    split_ifs at h with hgen hstrict hshort hcoinbase
    rw [ne_eq, not_not] at hgen hcoinbase
    cases hvin : auxpow.tx.vin with
    | nil =>
      rw [hvin] at h
      cases h
    | cons txin rest =>
      rw [hvin] at h
      dsimp only at h
      cases hpc : searchBytes (checkMerkleBranch hash hashAuxBlock auxpow.vChainMerkleBranch
          auxpow.nChainIndex).bytes.reverse txin.scriptSig with
      | none =>
        rw [hpc] at h
        cases h
      | some pc =>
        rw [hpc, hsize] at h
        dsimp only at h
        cases hplaced : checkPlacement txin.scriptSig pc with
        | error e =>
          rw [hplaced] at h
          cases h
        | ok =>
          rw [hplaced] at h
          exact ⟨txin.scriptSig, pc, hgen, hstrict, not_lt.mp hshort, hcoinbase,
            by rw [hvin]; rfl, hpc, hplaced, h⟩
  · rintro ⟨script, pc, h⟩
    obtain ⟨txin, hhead, rfl⟩ := Option.map_eq_some_iff.mp h.input
    obtain ⟨rest, hvin⟩ := List.head?_eq_some_iff.mp hhead
    rw [check, if_neg (not_not.mpr h.generate), if_neg h.strict, if_neg (not_lt.mpr h.short)]
    dsimp only
    rw [if_neg (not_not.mpr h.coinbase), hvin]
    dsimp only
    rw [h.root, hsize]
    dsimp only
    rw [h.placed]
    exact h.slot

/-- With the header in the script, the root follows it directly and the header comes once. -/
theorem checkPlacement_eq_ok {script : CScript} {pc : Nat}
    (hhead : pchMergedMiningHeader <:+: script) :
    checkPlacement script pc = .ok () ↔
      ∃ pcHead, searchBytes pchMergedMiningHeader script = some pcHead ∧
        ¬ pchMergedMiningHeader <:+: script.drop (pcHead + 1) ∧ pcHead + 4 = pc := by
  obtain ⟨pcHead, hfound⟩ := Option.isSome_iff_exists.mp
    ((searchBytes_isSome header_ne_nil).mpr hhead)
  have hfour : pchMergedMiningHeader.length = 4 := by decide
  rw [checkPlacement, hfound, hfour]
  dsimp only
  constructor
  · intro h
    split_ifs at h with hsecond hplace
    exact ⟨pcHead, rfl, fun hin => hsecond ((searchBytes_isSome header_ne_nil).mpr hin),
      not_not.mp hplace⟩
  · rintro ⟨pcHead', heq, hsecond, hplace⟩
    obtain rfl := Option.some.inj heq
    rw [if_neg (fun hin => hsecond ((searchBytes_isSome header_ne_nil).mp hin)),
      if_neg (not_not.mpr hplace)]

/-- Size and nonce after the root fix the slot of the chain. -/
theorem checkSlot_eq_ok {script : CScript} {pc merkleHeight : Nat} {nChainIndex nChainId : Int} :
    checkSlot script pc merkleHeight nChainIndex nChainId = .ok () ↔
      pc + 8 ≤ script.length ∧ readLEAt script pc 4 = 2 ^ merkleHeight ∧
        nChainIndex =
          getExpectedIndex (UInt32.ofNat (readLEAt script (pc + 4) 4)) nChainId merkleHeight := by
  rw [checkSlot]
  constructor
  · intro h
    split_ifs at h with hlen hsize hindex
    exact ⟨not_lt.mp hlen, not_not.mp hsize, not_not.mp hindex⟩
  · rintro ⟨hlen, hsize, hindex⟩
    rw [if_neg (not_lt.mpr hlen), if_neg (not_not.mpr hsize), if_neg (not_not.mpr hindex)]

section

variable {hash : Bytes → Uint256} {fStrictChainId : Bool} {auxpow auxpow' : CAuxPow}
  {hashAuxBlock hashAuxBlock' : Uint256} {nChainId : Int} {script : CScript} {pc pc' : Nat}

/-- The chain root of a passed proof is the walk up from the block's hash. -/
theorem Passed.root_eq (h : Passed hash fStrictChainId auxpow hashAuxBlock nChainId script pc) :
    checkMerkleBranch hash hashAuxBlock auxpow.vChainMerkleBranch auxpow.nChainIndex =
      MerkleTree.walkUp (nodeHash hash) auxpow.vChainMerkleBranch auxpow.nChainIndex.toNat
        hashAuxBlock := by
  have hindex := (checkSlot_eq_ok.mp h.slot).2.2
  have hnonneg : ((auxpow.nChainIndex.toNat : Nat) : Int) = auxpow.nChainIndex := by
    rw [Int.toNat_of_nonneg]
    rw [hindex]
    exact Int.natCast_nonneg _
  conv_lhs => rw [← hnonneg]
  rw [checkMerkleBranch_eq]

/-- The script fixes where the root stands, and with it the root, the height and the slot. -/
theorem Passed.fixed (hhead : pchMergedMiningHeader <:+: script)
    (h : Passed hash fStrictChainId auxpow hashAuxBlock nChainId script pc)
    (h' : Passed hash fStrictChainId auxpow' hashAuxBlock' nChainId script pc') :
    checkMerkleBranch hash hashAuxBlock auxpow.vChainMerkleBranch auxpow.nChainIndex =
        checkMerkleBranch hash hashAuxBlock' auxpow'.vChainMerkleBranch auxpow'.nChainIndex ∧
      auxpow.vChainMerkleBranch.length = auxpow'.vChainMerkleBranch.length ∧
      auxpow.nChainIndex = auxpow'.nChainIndex := by
  obtain ⟨pcHead, hfound, -, hpc⟩ := (checkPlacement_eq_ok hhead).mp h.placed
  obtain ⟨pcHead', hfound', -, hpc'⟩ := (checkPlacement_eq_ok hhead).mp h'.placed
  obtain rfl : pcHead = pcHead' := Option.some.inj (hfound.symm.trans hfound')
  obtain rfl : pc = pc' := hpc.symm.trans hpc'
  have hne : ∀ x : Uint256, x.bytes.reverse ≠ [] := by
    intro x hnil
    have hlen := x.size_eq
    rw [List.reverse_eq_nil_iff.mp hnil] at hlen
    cases hlen
  have hroot := ((searchBytes_eq_some (hne _)).mp h.root).1
  have hroot' := ((searchBytes_eq_some (hne _)).mp h'.root).1
  obtain ⟨-, hsize, hindex⟩ := checkSlot_eq_ok.mp h.slot
  obtain ⟨-, hsize', hindex'⟩ := checkSlot_eq_ok.mp h'.slot
  have hheight : auxpow.vChainMerkleBranch.length = auxpow'.vChainMerkleBranch.length :=
    Nat.pow_right_injective (le_refl 2) (hsize.symm.trans hsize')
  refine ⟨?_, hheight, by rw [hindex, hindex', hheight]⟩
  apply Uint256.ext
  apply List.reverse_injective
  have hlen : ∀ x : Uint256, x.bytes.reverse.length = 32 := fun x => by
    rw [List.length_reverse, Uint256.length_bytes]
  exact (List.prefix_of_prefix_length_le hroot hroot' (by rw [hlen, hlen])).eq_of_length
    (by rw [hlen, hlen])

/-- Under one coinbase with the merged-mining header, one block of a chain passes. -/
theorem auxpow_counts_once (hash : Bytes → Uint256) (fStrictChainId : Bool) (nChainId : Int)
    (coinbase : CTransaction) (txin : CTxIn) (hvin : coinbase.vin.head? = some txin)
    (hhead : pchMergedMiningHeader <:+: txin.scriptSig)
    (auxpow auxpow' : CAuxPow) (htx : auxpow.tx = coinbase) (htx' : auxpow'.tx = coinbase)
    (hashAuxBlock hashAuxBlock' : Uint256)
    (hinj : InjectiveOn hash
      (chainStrings hash auxpow hashAuxBlock ++ chainStrings hash auxpow' hashAuxBlock'))
    (h : check hash fStrictChainId auxpow hashAuxBlock nChainId = .ok ())
    (h' : check hash fStrictChainId auxpow' hashAuxBlock' nChainId = .ok ()) :
    hashAuxBlock = hashAuxBlock' := by
  obtain ⟨script, pc, hpass⟩ := check_eq_ok.mp h
  obtain ⟨script', pc', hpass'⟩ := check_eq_ok.mp h'
  have hscript := hpass.input
  have hscript' := hpass'.input
  rw [htx, hvin] at hscript
  rw [htx', hvin] at hscript'
  obtain rfl : txin.scriptSig = script := Option.some.inj hscript
  obtain rfl : txin.scriptSig = script' := Option.some.inj hscript'
  obtain ⟨hroot, hheight, hindex⟩ := hpass.fixed hhead hpass'
  rw [hpass.root_eq, hpass'.root_eq, hindex] at hroot
  refine MerkleTree.walkUp_injective hheight (collisionFree_of_injectiveOn ?_) hroot
  rw [List.map_append]
  rwa [chainStrings, chainStrings, hindex] at hinj

end

namespace Fixture

/-- A stand-in for the hash: the first 32 bytes. -/
def headHash (bs : Bytes) : Uint256 := Uint256.ofSlice bs 0

/-- A coinbase that commits to a root of a tree of two leaves, with nonce 0. -/
def committing (root : Uint256) : CTransaction where
  nVersion := 1
  vin :=
    [⟨⟨Uint256.null, 0xffffffff⟩, [3, 1, 2, 3] ++ pchMergedMiningHeader ++ root.bytes.reverse ++
    [2, 0, 0, 0] ++ [0, 0, 0, 0], 0xffffffff, []⟩]
  vout := []
  nLockTime := 0

/-- A proof for the left leaf, under a parent header of the given time. -/
def leftProof (root sibling : Uint256) (nTime : Nat) : CAuxPow where
  tx := committing root
  hashBlock := Uint256.null
  vMerkleBranch := []
  nIndex := 0
  vChainMerkleBranch := [sibling]
  nChainIndex := 0
  parentBlock := ⟨0x20000000, Uint256.null,
    headHash (serializeTransaction (committing root).stripWitness), nTime, 0, 0⟩

end Fixture

open Fixture in
/-- Two proofs under one coinbase, both for the block 5: of these three blocks the second proof
    passes for that one alone. -/
theorem auxpow_counts_once_left :
    (∀ nTime ∈ [1, 2], check headHash true
      (leftProof (Uint256.fill 5) (Uint256.fill 6) nTime) (Uint256.fill 5) 2 = .ok ()) ∧
    ∀ hashAuxBlock ∈ [Uint256.fill 5, Uint256.fill 6, Uint256.fill 9],
      check headHash true (leftProof (Uint256.fill 5) (Uint256.fill 6) 2) hashAuxBlock 2 =
        .ok () → Uint256.fill 5 = hashAuxBlock := by
  have h : ∀ nTime ∈ [1, 2], check headHash true (leftProof (Uint256.fill 5) (Uint256.fill 6) nTime)
      (Uint256.fill 5) 2 = .ok () := by decide +kernel
  have hinj : ∀ hashAuxBlock ∈ [Uint256.fill 5, Uint256.fill 6, Uint256.fill 9],
      InjectiveOn headHash
        (chainStrings headHash (leftProof (Uint256.fill 5) (Uint256.fill 6) 1) (Uint256.fill 5) ++
          chainStrings headHash (leftProof (Uint256.fill 5) (Uint256.fill 6) 2)
            hashAuxBlock) :=
    List.forall_mem_cons.mpr ⟨by decide +kernel, List.forall_mem_cons.mpr ⟨by decide +kernel,
      List.forall_mem_singleton.mpr (by decide +kernel)⟩⟩
  exact ⟨h, fun hashAuxBlock hmem hcheck =>
    auxpow_counts_once headHash true 2 (committing (Uint256.fill 5)) _ rfl (by decide +kernel)
      _ _ rfl rfl _ _ (hinj hashAuxBlock hmem) (h 1 (by decide)) hcheck⟩

end CAuxPow

end Soqucoin
