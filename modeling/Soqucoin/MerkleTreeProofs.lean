import Mathlib.Data.Nat.Size
import Mathlib.Data.List.Basic
import Mathlib.Tactic

/-! # Merkle trees — roots over a layer of leaves

`pairUp` hashes the neighbours of a layer into the layer above, and `climb k` does so `k` times:
over `2 ^ k` nodes it ends in the root.  When the node hash has no collision among the pairs that
two climbs hash, equal roots come from equal layers (`climb_injective`).  `walkUp` goes up from
one node along a branch of siblings: at one position and height a root is reached from one node
only (`walkUp_injective`).  `hashUp` builds the same tree in place, in an array that has the
children of node `i` at `2 * i` and `2 * i + 1` (`hashUp_root`).  `smear` rounds up to a power of
two in a machine word. -/

namespace MerkleTree

variable {H : Type}

/-! ## Layers -/

/-- The layer above: every two neighbours hashed into one. -/
def pairUp (node : H → H → H) : List H → List H
  | a :: b :: rest => node a b :: pairUp node rest
  | _ => []

/-- The pairs that are hashed for the layer above. -/
def pairs : List H → List (H × H)
  | a :: b :: rest => (a, b) :: pairs rest
  | _ => []

/-- So many layers up. -/
def climb (node : H → H → H) : Nat → List H → List H
  | 0, layer => layer
  | k + 1, layer => climb node k (pairUp node layer)

/-- The pairs that are hashed on the way. -/
def climbPairs (node : H → H → H) : Nat → List H → List (H × H)
  | 0, _ => []
  | k + 1, layer => pairs layer ++ climbPairs node k (pairUp node layer)

/-- The layer above has half the nodes. -/
theorem length_pairUp (node : H → H → H) {n : Nat} {layer : List H}
    (h : layer.length = 2 * n) : (pairUp node layer).length = n := by
  induction n generalizing layer with
  | zero =>
    rw [List.eq_nil_of_length_eq_zero h]
    rfl
  | succ n ih =>
    match layer, h with
    | a :: b :: rest, h =>
      rw [pairUp, List.length_cons, ih]
      simp only [List.length_cons] at h
      omega

/-- A full tree climbs to its root. -/
theorem length_climb (node : H → H → H) {k : Nat} {layer : List H}
    (h : layer.length = 2 ^ k) : (climb node k layer).length = 1 := by
  induction k generalizing layer with
  | zero => exact h
  | succ k ih =>
    apply ih
    apply length_pairUp
    rw [h, pow_succ]
    omega

/-- The node hash has no collision among the given pairs. -/
def CollisionFree (node : H → H → H) (l : List (H × H)) : Prop :=
  ∀ x ∈ l, ∀ y ∈ l, node x.1 x.2 = node y.1 y.2 → x = y

theorem CollisionFree.mono {node : H → H → H} {l l' : List (H × H)} (h : CollisionFree node l)
    (hsub : l' ⊆ l) : CollisionFree node l' :=
  fun x hx y hy => h x (hsub hx) y (hsub hy)

/-- Without collisions, equal layers come from equal ones below. -/
theorem pairUp_injective {node : H → H → H} {n : Nat} {a b : List H} (ha : a.length = 2 * n)
    (hb : b.length = 2 * n) (hfree : CollisionFree node (pairs a ++ pairs b))
    (h : pairUp node a = pairUp node b) : a = b := by
  induction n generalizing a b with
  | zero => rw [List.eq_nil_of_length_eq_zero ha, List.eq_nil_of_length_eq_zero hb]
  | succ n ih =>
    match a, ha, b, hb with
    | x :: y :: as, ha, x' :: y' :: bs, hb =>
      rw [pairUp, pairUp, List.cons.injEq] at h
      have hpair : (x, y) = (x', y') :=
        hfree (x, y) (by simp [pairs]) (x', y') (by simp [pairs]) h.1
      have hrest : as = bs := by
        apply ih _ _ (hfree.mono _) h.2
        · simp only [List.length_cons] at ha
          omega
        · simp only [List.length_cons] at hb
          omega
        · intro z hz
          rcases List.mem_append.mp hz with hz | hz
          · exact List.mem_append_left _ (List.mem_cons_of_mem _ hz)
          · exact List.mem_append_right _ (List.mem_cons_of_mem _ hz)
      rw [Prod.mk.injEq] at hpair
      rw [hpair.1, hpair.2, hrest]

/-- Equal roots come from equal layers, where the node hash does not collide. -/
theorem climb_injective {node : H → H → H} {k : Nat} {a b : List H} (ha : a.length = 2 ^ k)
    (hb : b.length = 2 ^ k)
    (hfree : CollisionFree node (climbPairs node k a ++ climbPairs node k b))
    (h : climb node k a = climb node k b) : a = b := by
  induction k generalizing a b with
  | zero => exact h
  | succ k ih =>
    have ha' : a.length = 2 * 2 ^ k := by rw [ha, pow_succ]; omega
    have hb' : b.length = 2 * 2 ^ k := by rw [hb, pow_succ]; omega
    apply pairUp_injective ha' hb'
    · apply hfree.mono
      intro z hz
      rw [climbPairs, climbPairs]
      rcases List.mem_append.mp hz with hz | hz
      · exact List.mem_append_left _ (List.mem_append_left _ hz)
      · exact List.mem_append_right _ (List.mem_append_left _ hz)
    · apply ih (length_pairUp node ha') (length_pairUp node hb') _ h
      apply hfree.mono
      intro z hz
      rw [climbPairs, climbPairs]
      rcases List.mem_append.mp hz with hz | hz
      · exact List.mem_append_left _ (List.mem_append_right _ hz)
      · exact List.mem_append_right _ (List.mem_append_right _ hz)

/-! ## Branches -/

/-- From a node up along a branch of siblings, at a position in its layer. -/
def walkUp (node : H → H → H) : List H → Nat → H → H
  | [], _, x => x
  | s :: branch, i, x => walkUp node branch (i / 2) (if i % 2 = 1 then node s x else node x s)

/-- The pairs hashed on the way. -/
def walkPairs (node : H → H → H) : List H → Nat → H → List (H × H)
  | [], _, _ => []
  | s :: branch, i, x =>
    (if i % 2 = 1 then (s, x) else (x, s)) ::
      walkPairs node branch (i / 2) (if i % 2 = 1 then node s x else node x s)

/-- One root, one position and one height leave one node to start from. -/
theorem walkUp_injective {node : H → H → H} {branch branch' : List H} {i : Nat} {x y : H}
    (hlen : branch.length = branch'.length)
    (hfree : CollisionFree node (walkPairs node branch i x ++ walkPairs node branch' i y))
    (h : walkUp node branch i x = walkUp node branch' i y) : x = y := by
  induction branch generalizing branch' i x y with
  | nil =>
    obtain rfl := List.length_eq_zero_iff.mp hlen.symm
    exact h
  | cons s branch ih =>
    obtain ⟨s', branch', rfl⟩ := List.exists_cons_of_length_eq_add_one hlen.symm
    have hlen' : branch.length = branch'.length := by simpa using hlen
    have hnode := ih hlen' (hfree.mono fun z hz => by
      rw [walkPairs, walkPairs]
      rcases List.mem_append.mp hz with hz | hz
      · exact List.mem_append_left _ (List.mem_cons_of_mem _ hz)
      · exact List.mem_append_right _ (List.mem_cons_of_mem _ hz)) h
    have hpairs := hfree _ (List.mem_append_left _ List.mem_cons_self) _
      (List.mem_append_right _ List.mem_cons_self)
    by_cases hi : i % 2 = 1
    · simp only [if_pos hi] at hnode hpairs
      exact congrArg Prod.snd (hpairs hnode)
    · simp only [if_neg hi] at hnode hpairs
      exact congrArg Prod.fst (hpairs hnode)

/-! ## Rounding up to a power of two -/

/-- Spread every set bit of a 64-bit word to all the lower ones. -/
def smear (n : Nat) : Nat :=
  let n := n ||| n >>> 1
  let n := n ||| n >>> 2
  let n := n ||| n >>> 4
  let n := n ||| n >>> 8
  let n := n ||| n >>> 16
  n ||| n >>> 32

/-- Each bit of `x` says whether one of the `w` bits from there on is set in `n`. -/
def Spread (n w x : Nat) : Prop :=
  ∀ i, x.testBit i = true ↔ ∃ j, j < w ∧ n.testBit (i + j) = true

/-- Spreading once more doubles the width. -/
theorem Spread.double {n w x : Nat} (h : Spread n w x) : Spread n (w + w) (x ||| x >>> w) := by
  intro i
  rw [Nat.testBit_or, Nat.testBit_shiftRight, Bool.or_eq_true, h, h]
  constructor
  · rintro (⟨j, hj, hbit⟩ | ⟨j, hj, hbit⟩)
    · exact ⟨j, by omega, hbit⟩
    · exact ⟨w + j, by omega, by rwa [show i + (w + j) = w + i + j by omega]⟩
  · rintro ⟨j, hj, hbit⟩
    by_cases hlow : j < w
    · exact .inl ⟨j, hlow, hbit⟩
    · exact .inr ⟨j - w, by omega, by rwa [show w + i + (j - w) = i + j by omega]⟩

theorem spread_smear (n : Nat) : Spread n 64 (smear n) := by
  have h : Spread n 1 n := fun i =>
    ⟨fun h => ⟨0, Nat.one_pos, h⟩, fun ⟨j, hj, hbit⟩ => by
      rwa [show j = 0 by omega] at hbit⟩
  exact h.double.double.double.double.double.double

/-- Smearing sets all bits below the highest one. -/
theorem smear_eq {n : Nat} (h : n < 2 ^ 64) : smear n = 2 ^ n.size - 1 := by
  apply Nat.eq_of_testBit_eq
  intro i
  rw [Nat.testBit_two_pow_sub_one, Bool.eq_iff_iff, spread_smear n i, decide_eq_true_eq]
  constructor
  · rintro ⟨j, -, hbit⟩
    have hle : 2 ^ (i + j) ≤ n := Nat.ge_two_pow_of_testBit hbit
    exact Nat.lt_size.mpr (le_trans (Nat.pow_le_pow_right (by decide) (Nat.le_add_right i j)) hle)
  · intro hi
    -- the top bit of `n` is set and not more than 64 above
    have hpos : 0 < n := by
      rw [← Nat.size_pos]
      omega
    refine ⟨n.size - 1 - i, ?_, ?_⟩
    · have hsize : n.size ≤ 64 := Nat.size_le.mpr h
      omega
    · rw [show i + (n.size - 1 - i) = n.size - 1 by omega]
      rw [Nat.testBit_eq_decide_div_mod_eq, decide_eq_true_eq]
      have hlow : 2 ^ (n.size - 1) ≤ n := Nat.lt_size.mp (by omega)
      have hhigh : n < 2 ^ (n.size - 1) * 2 := by
        rw [← pow_succ, show n.size - 1 + 1 = n.size by omega]
        exact Nat.lt_size_self n
      rw [Nat.div_eq_of_lt_le (k := 1) (by omega) (by omega)]

/-! ## Trees in one array -/

/-- Write so many values from a place on. -/
def fill (base count : Nat) (value : Nat → H) (tree : Nat → H) : Nat → H :=
  (List.range count).foldl (fun tree i => Function.update tree (base + i) (value i)) tree

/-- Hash the nodes from `layer` up to twice that, two by two, into their parents. -/
def hashLayer (node : H → H → H) (layer : Nat) (tree : Nat → H) : Nat → H :=
  (List.range (layer / 2)).foldl (fun tree k =>
    Function.update tree ((layer + 2 * k) / 2)
      (node (tree (layer + 2 * k)) (tree (layer + 2 * k + 1)))) tree

/-- Layer by layer up to the root, at 1. -/
def hashUp (node : H → H → H) : (fuel layer : Nat) → (Nat → H) → Nat → H
  | 0, _, tree => tree
  | fuel + 1, layer, tree =>
    if 1 < layer then hashUp node fuel (layer / 2) (hashLayer node layer tree) else tree

/-- The nodes of a layer, from left to right. -/
def layerOf (tree : Nat → H) (size : Nat) : List H :=
  (List.range size).map fun i => tree (size + i)

/-- Filling changes the places from `base` on, and no others. -/
theorem fill_apply (base count : Nat) (value tree : Nat → H) (j : Nat) :
    fill base count value tree j =
      if base ≤ j ∧ j < base + count then value (j - base) else tree j := by
  induction count with
  | zero => rw [if_neg (by omega)]; rfl
  | succ count ih =>
    rw [fill] at ih ⊢
    rw [List.range_succ, List.foldl_append, List.foldl_cons, List.foldl_nil, Function.update_apply,
      ih]
    by_cases hj : j = base + count
    · rw [if_pos hj, if_pos (by omega), hj, Nat.add_sub_cancel_left]
    · rw [if_neg hj]
      exact if_congr (by omega) rfl rfl

/-- A round reads nodes that it does not write. -/
theorem hashLayer_apply (node : H → H → H) (m : Nat) (tree : Nat → H) (j : Nat) :
    hashLayer node (2 * m) tree j =
      if m ≤ j ∧ j < 2 * m then node (tree (2 * j)) (tree (2 * j + 1)) else tree j := by
  have hround : ∀ count ≤ m, ∀ j, (List.range count).foldl (fun tree k =>
      Function.update tree ((2 * m + 2 * k) / 2)
        (node (tree (2 * m + 2 * k)) (tree (2 * m + 2 * k + 1)))) tree j =
      if m ≤ j ∧ j < m + count then node (tree (2 * j)) (tree (2 * j + 1)) else tree j := by
    intro count
    induction count with
    | zero =>
      intro _ j
      rw [if_neg (by omega)]
      rfl
    | succ count ih =>
      intro hle j
      rw [List.range_succ, List.foldl_append, List.foldl_cons, List.foldl_nil,
        Function.update_apply, ih (by omega), ih (by omega), ih (by omega),
        show (2 * m + 2 * count) / 2 = m + count by omega]
      by_cases hj : j = m + count
      · rw [if_pos hj, if_neg (by omega), if_neg (by omega), if_pos (by omega), hj,
          Nat.mul_add]
      · rw [if_neg hj]
        exact if_congr (by omega) rfl rfl
  have hall := hround m (le_refl m) j
  rw [hashLayer, Nat.mul_div_cancel_left m (by decide), hall]
  exact if_congr (by omega) rfl rfl

theorem pairUp_range (node : H → H → H) (m : Nat) (f : Nat → H) :
    pairUp node ((List.range (2 * m)).map f) =
      (List.range m).map fun i => node (f (2 * i)) (f (2 * i + 1)) := by
  induction m generalizing f with
  | zero => rfl
  | succ m ih =>
    have htail := ih fun i => f (i + 2)
    rw [Nat.mul_succ, List.range_succ_eq_map, List.range_succ_eq_map, List.range_succ_eq_map]
    simp only [List.map_cons, List.map_map, pairUp]
    refine congrArg _ (htail.trans ?_)
    exact List.map_congr_left fun i _ => rfl

theorem pairUp_layerOf (node : H → H → H) (m : Nat) (tree : Nat → H) :
    pairUp node (layerOf tree (2 * m)) = layerOf (hashLayer node (2 * m) tree) m := by
  rw [layerOf, pairUp_range, layerOf]
  refine List.map_congr_left fun i hi => ?_
  have hlt : i < m := List.mem_range.mp hi
  rw [hashLayer_apply, if_pos (by omega)]
  congr 2 <;> omega

/-- The root of the tree in the array is the end of the climb from its lowest layer. -/
theorem hashUp_root (node : H → H → H) (d : H) {k fuel : Nat} (hfuel : k ≤ fuel)
    (tree : Nat → H) :
    hashUp node fuel (2 ^ k) tree 1 = (climb node k (layerOf tree (2 ^ k))).headD d := by
  induction k generalizing fuel tree with
  | zero => cases fuel <;> rfl
  | succ k ih =>
    obtain ⟨fuel, rfl⟩ : ∃ n, fuel = n + 1 := ⟨fuel - 1, by omega⟩
    have hpow : 2 ^ (k + 1) = 2 * 2 ^ k := by rw [Nat.pow_succ, Nat.mul_comm]
    have hpos : 0 < 2 ^ k := Nat.two_pow_pos k
    rw [hashUp, hpow, if_pos (by omega), Nat.mul_div_cancel_left _ (by decide),
      ih (by omega), climb, pairUp_layerOf]

end MerkleTree
