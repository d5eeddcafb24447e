import Mathlib.Algebra.BigOperators.Group.List.Basic
import Mathlib.Algebra.Order.BigOperators.Group.List
import Mathlib.Tactic

/-! # Signed words — sums accumulated in two's complement

A signed machine word of width `w` holds the balanced residue of an integer modulo `2 ^ w`.  A
loop that accumulates in such a word holds the wrapped total, whatever its intermediate values did
(`accumulate_eq_wrap`); the total is exact as soon as it fits (`wrap_of_fits`), and one that does
not fall below the range is never overstated (`wrap_le`). -/

namespace SignedWord

/-- The value a signed `w`-bit word holds after being assigned `x`. -/
def wrap (w : Nat) (x : Int) : Int := x.bmod (2 ^ w)

/-- `x` is representable in a signed `w`-bit word. -/
def Fits (w : Nat) (x : Int) : Prop := -(2 ^ w : Int) ≤ 2 * x ∧ 2 * x < 2 ^ w

/-- `acc += v` for each value of the list, in a signed `w`-bit word. -/
def accumulate (w : Nat) (acc : Int) (l : List Int) : Int :=
  l.foldl (fun a v => wrap w (a + v)) acc

variable {w : Nat} {x y : Int}

theorem wrap_of_fits (h : Fits w x) : wrap w x = x :=
  Int.bmod_eq_of_le_mul_two (by push_cast; linarith [h.1]) (by push_cast; linarith [h.2])

@[simp] theorem wrap_zero : wrap w 0 = 0 := by
  simp [wrap]

theorem wrap_add_left : wrap w (wrap w x + y) = wrap w (x + y) :=
  Int.bmod_add_bmod

theorem wrap_add_right : wrap w (x + wrap w y) = wrap w (x + y) :=
  Int.add_bmod_bmod

theorem wrap_fits : Fits w (wrap w x) := by
  have hpos : (0 : Nat) < 2 ^ w := Nat.two_pow_pos w
  have hlo := Int.le_bmod (x := x) hpos
  have hhi := Int.bmod_lt (x := x) hpos
  push_cast at hlo hhi
  unfold Fits wrap
  omega

theorem wrap_le (h : -(2 ^ w : Int) ≤ 2 * x) : wrap w x ≤ x := by
  by_cases hx : 0 ≤ x
  · have hpos : (0 : Int) < ((2 ^ w : Nat) : Int) := by exact_mod_cast Nat.two_pow_pos w
    have hquot : 0 ≤ ((2 ^ w : Nat) : Int) * (x / ((2 ^ w : Nat) : Int)) :=
      Int.mul_nonneg hpos.le (Int.ediv_nonneg hx hpos.le)
    have hmod := Int.emod_add_mul_ediv x ((2 ^ w : Nat) : Int)
    rw [wrap, Int.bmod_def]
    split <;> omega
  · have hpow : (0 : Int) < 2 ^ w := by positivity
    exact le_of_eq (wrap_of_fits ⟨h, by omega⟩)

/-- Accumulating from a value that fits holds the wrapped total. -/
theorem accumulate_eq_wrap :
    ∀ (l : List Int) {acc : Int}, wrap w acc = acc → accumulate w acc l = wrap w (acc + l.sum) := by
  intro l
  induction l with
  | nil =>
    intro acc hacc
    rw [List.sum_nil, Int.add_zero, hacc]
    rfl
  | cons v l ih =>
    intro acc hacc
    have hstep : accumulate w acc (v :: l) = accumulate w (wrap w (acc + v)) l := rfl
    rw [hstep, ih (wrap_of_fits wrap_fits), wrap_add_left, List.sum_cons, Int.add_assoc]

theorem accumulate_zero (l : List Int) : accumulate w 0 l = wrap w l.sum := by
  rw [accumulate_eq_wrap l wrap_zero, Int.zero_add]

theorem accumulate_append (acc : Int) (l₁ l₂ : List Int) :
    accumulate w acc (l₁ ++ l₂) = accumulate w (accumulate w acc l₁) l₂ :=
  List.foldl_append ..

theorem foldl_accumulate {α : Type} (f : α → List Int) (l : List α) (acc : Int) :
    l.foldl (fun a x => accumulate w a (f x)) acc = accumulate w acc (l.flatMap f) := by
  rw [accumulate, List.foldl_flatMap]
  rfl

theorem wrap_sum_map_wrap {α : Type} (f : α → Int) (l : List α) :
    wrap w (l.map fun x => wrap w (f x)).sum = wrap w (l.map f).sum := by
  induction l with
  | nil => rfl
  | cons x l ih =>
    rw [List.map_cons, List.sum_cons, List.map_cons, List.sum_cons, wrap_add_left,
      ← wrap_add_right, ih, wrap_add_right]

end SignedWord
