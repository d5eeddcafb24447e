import Mathlib.Data.List.Infix
import Mathlib.Tactic

/-! # Branches — the nodes of a tree as the lists of their ancestors

A node of a growing tree is written as the list of the labels on the way from it to the root, its
own label first, so `x <:+ y` reads "`x` is an ancestor of `y`".  `fork a x` is the last node two
branches share (`suffix_fork`).  A branch is SHALLOW against another one when its nodes, those
that count, lie less than `d` above the fork. -/

namespace Branch

variable {α : Type} [DecidableEq α]

/-- The first ancestor of the second node that is an ancestor of the first. -/
def fork (a : List α) : List α → List α
  | [] => []
  | h :: t => if h :: t <:+ a then h :: t else fork a t

/-- The fork is an ancestor of the one branch. -/
theorem fork_suffix_left (a x : List α) : fork a x <:+ a := by
  induction x with
  | nil => exact List.nil_suffix
  | cons h t ih =>
    by_cases hs : h :: t <:+ a
    · rw [fork, if_pos hs]
      exact hs
    · rw [fork, if_neg hs]
      exact ih

/-- It is an ancestor of the other. -/
theorem fork_suffix_right (a x : List α) : fork a x <:+ x := by
  induction x with
  | nil => exact List.nil_suffix
  | cons h t ih =>
    by_cases hs : h :: t <:+ a
    · rw [fork, if_pos hs]
    · rw [fork, if_neg hs]
      exact ih.trans (List.suffix_cons h t)

/-- The fork is the last shared node: every shared ancestor is one of its. -/
theorem suffix_fork {a x y : List α} (ha : y <:+ a) (hx : y <:+ x) : y <:+ fork a x := by
  induction x with
  | nil =>
    rw [List.suffix_nil.mp hx]
    exact List.nil_suffix
  | cons h t ih =>
    by_cases hs : h :: t <:+ a
    · rw [fork, if_pos hs]
      exact hx
    · rw [fork, if_neg hs]
      rcases List.suffix_cons_iff.mp hx with rfl | ht
      · exact absurd ha hs
      · exact ih ht

omit [DecidableEq α] in
theorem eq_of_suffix_of_suffix {x y : List α} (hxy : x <:+ y) (hyx : y <:+ x) : x = y :=
  hxy.eq_of_length (le_antisymm hxy.length_le hyx.length_le)

theorem fork_eq_left {a x : List α} (h : a <:+ x) : fork a x = a :=
  eq_of_suffix_of_suffix (fork_suffix_left a x) (suffix_fork List.suffix_rfl h)

theorem fork_comm (a x : List α) : fork a x = fork x a :=
  eq_of_suffix_of_suffix
    (suffix_fork (fork_suffix_right a x) (fork_suffix_left a x))
    (suffix_fork (fork_suffix_right x a) (fork_suffix_left x a))

theorem fork_of_suffix {a x z : List α} (hz : z <:+ x) (hf : fork a x <:+ z) :
    fork a z = fork a x :=
  eq_of_suffix_of_suffix
    (suffix_fork (fork_suffix_left a z) ((fork_suffix_right a z).trans hz))
    (suffix_fork (fork_suffix_left a x) hf)

/-! ## Shallow branches -/

/-- The nodes of the branch of `x` that satisfy `P` lie less than `d` above its
    fork with the branch of `y`. -/
def Shallow (d : Nat) (P : List α → Prop) (x y : List α) : Prop :=
  ∀ z ∈ x.tails, P z → z.length < (fork x y).length + d

instance decidableShallow (d : Nat) (P : List α → Prop) [DecidablePred P] (x y : List α) :
    Decidable (Shallow d P x y) :=
  inferInstanceAs (Decidable (∀ z ∈ x.tails, P z → _))

/-- A branch that is shallow for a chain is so for a shorter one. -/
theorem Shallow.of_suffix {d : Nat} {P : List α → Prop} {x y z : List α} (h : Shallow d P x y)
    (hd : 0 < d) (hz : z <:+ x) : Shallow d P z y := by
  intro w hw hP
  have hwz : w <:+ z := (List.mem_tails w z).mp hw
  rcases List.suffix_or_suffix_of_suffix hz (fork_suffix_left x y) with hzf | hfz
  · -- `z` is below the fork, so all of it is shared
    rw [fork_eq_left (hzf.trans (fork_suffix_right x y))]
    have hlen := hwz.length_le
    omega
  · have hfork : fork z y = fork x y := by
      rw [fork_comm, fork_comm x y]
      exact fork_of_suffix hz (by rwa [fork_comm])
    rw [hfork]
    exact h w ((List.mem_tails w x).mpr (hwz.trans hz)) hP

/-- Climbing down from `x` to the fork takes fewer than `d` steps, where `x` itself
    is one of the nodes that count. -/
theorem Shallow.length_sub_fork_lt {d : Nat} (hd : 0 < d) {P : List α → Prop} {x y : List α}
    (h : Shallow d P x y) (hx : P x) : x.length - (fork x y).length < d := by
  have hlt := h x ((List.mem_tails x x).mpr List.suffix_rfl) hx
  omega

end Branch
