import Mathlib.Data.List.DropRight
import Mathlib.Algebra.BigOperators.Group.List.Basic
import Mathlib.Tactic

/-! # Sparse lists — finite sequences with gaps

A list of options stands for a partial function on the naturals.  Empty entries at the end carry
no information; a TRIMMED list has none, and two trimmed lists with the same entries are the same
list (`ext_of_trimmed`). -/

namespace SparseList

variable {α : Type}

/-- The entry at a position; there is none beyond the end. -/
def entry (l : List (Option α)) (i : Nat) : Option α := l[i]?.join

/-- Without the empty entries at the end. -/
def trim (l : List (Option α)) : List (Option α) := l.rdropWhile Option.isNone

/-- No empty entry at the end. -/
def Trimmed (l : List (Option α)) : Prop := l.getLast? ≠ some none

/-- Set an entry, growing the list where needed. -/
def put (l : List (Option α)) (n : Nat) (a : α) : List (Option α) :=
  (l ++ List.replicate (n + 1 - l.length) none).set n (some a)

theorem entry_of_length_le {l : List (Option α)} {i : Nat} (h : l.length ≤ i) :
    entry l i = none := by
  rw [entry, List.getElem?_eq_none h]
  rfl

theorem entry_of_lt {l : List (Option α)} {i : Nat} (h : i < l.length) :
    entry l i = l[i] := by
  rw [entry, List.getElem?_eq_getElem h]
  rfl

/-! ## Trimming -/

theorem entry_concat_none (l : List (Option α)) (i : Nat) :
    entry (l ++ [none]) i = entry l i := by
  rcases Nat.lt_trichotomy i l.length with h | h | h
  · rw [entry, List.getElem?_append_left h]
    rfl
  · rw [entry_of_length_le (le_of_eq h.symm), entry, h, List.getElem?_concat_length]
    rfl
  · rw [entry_of_length_le (le_of_lt h), entry_of_length_le (by simpa using h)]

/-- Trimming changes no entry. -/
theorem entry_trim (l : List (Option α)) (i : Nat) : entry (trim l) i = entry l i := by
  induction l using List.reverseRecOn with
  | nil => rfl
  | append_singleton l a ih =>
    cases a with
    | none =>
      rw [trim, List.rdropWhile_concat_pos _ _ _ rfl, entry_concat_none]
      exact ih
    | some a =>
      rw [trim, List.rdropWhile_concat_neg _ _ _ (by simp)]

theorem trim_trimmed (l : List (Option α)) : Trimmed (trim l) := by
  intro h
  have hne : trim l ≠ [] := by
    intro hnil
    rw [hnil] at h
    exact nomatch h
  rw [List.getLast?_eq_some_getLast hne] at h
  refine List.rdropWhile_last_not Option.isNone l hne ?_
  show ((trim l).getLast hne).isNone = true
  rw [Option.some_inj.mp h]
  rfl

theorem trim_of_trimmed {l : List (Option α)} (h : Trimmed l) : trim l = l := by
  rw [trim, List.rdropWhile_eq_self_iff]
  intro hne hnone
  refine h ?_
  rw [List.getLast?_eq_some_getLast hne, Option.isNone_iff_eq_none.mp hnone]

/-- A trimmed list is the shortest with its entries. -/
private theorem length_le_of_entries {l m : List (Option α)} (hl : Trimmed l)
    (h : ∀ i, entry l i = entry m i) : l.length ≤ m.length := by
  by_contra hlt
  have hpos : l ≠ [] := by
    intro hnil
    rw [hnil] at hlt
    exact hlt (Nat.zero_le _)
  have hlast : l.length - 1 < l.length :=
    Nat.sub_lt (List.length_pos_of_ne_nil hpos) Nat.one_pos
  -- the last entry of `l` is not empty, but `m` is too short to have it
  have hentry := h (l.length - 1)
  rw [entry_of_length_le (l := m) (by omega), entry_of_lt hlast] at hentry
  refine hl ?_
  rw [List.getLast?_eq_getElem?, List.getElem?_eq_getElem hlast, hentry]

/-- Trimmed lists with the same entries are equal. -/
theorem ext_of_trimmed {l m : List (Option α)} (hl : Trimmed l) (hm : Trimmed m)
    (h : ∀ i, entry l i = entry m i) : l = m := by
  refine List.ext_getElem ?_ ?_
  · exact Nat.le_antisymm (length_le_of_entries hl h)
      (length_le_of_entries hm fun i => (h i).symm)
  · intro i h₁ h₂
    rw [← entry_of_lt h₁, ← entry_of_lt h₂]
    exact h i

/-- Only empty entries. -/
theorem all_isNone_iff {l : List (Option α)} :
    l.all Option.isNone ↔ ∀ i, entry l i = none := by
  rw [List.all_eq_true]
  constructor
  · intro h i
    by_cases hi : i < l.length
    · rw [entry_of_lt hi]
      exact Option.isNone_iff_eq_none.mp (h _ (List.getElem_mem hi))
    · exact entry_of_length_le (Nat.not_lt.mp hi)
  · intro h a ha
    obtain ⟨i, hi, rfl⟩ := List.getElem_of_mem ha
    rw [← entry_of_lt hi, h i]
    rfl

theorem trim_eq_nil_iff {l : List (Option α)} :
    trim l = [] ↔ ∀ i, entry l i = none := by
  constructor
  · intro h i
    rw [← entry_trim, h]
    rfl
  · intro h
    refine ext_of_trimmed (trim_trimmed l) (fun hl => nomatch hl) fun i => ?_
    rw [entry_trim, h i]
    rfl

/-! ## Setting entries -/

theorem entry_set_none (l : List (Option α)) (n i : Nat) :
    entry (l.set n none) i = if i = n then none else entry l i := by
  by_cases h : i = n
  · rw [if_pos h, h, entry, List.getElem?_set_self']
    cases l[n]? <;> rfl
  · rw [if_neg h, entry, List.getElem?_set_ne (Ne.symm h)]
    rfl

theorem entry_append_replicate (l : List (Option α)) (k i : Nat) :
    entry (l ++ List.replicate k none) i = entry l i := by
  induction k with
  | zero => rw [List.replicate_zero, List.append_nil]
  | succ k ih =>
    rw [List.replicate_succ', ← List.append_assoc, entry_concat_none]
    exact ih

/-- Putting an entry changes that entry only. -/
theorem entry_put (l : List (Option α)) (n : Nat) (a : α) (i : Nat) :
    entry (put l n a) i = if i = n then some a else entry l i := by
  have hlen : n < (l ++ List.replicate (n + 1 - l.length) none).length := by
    rw [List.length_append, List.length_replicate]
    omega
  by_cases h : i = n
  · rw [if_pos h, h, entry, put, List.getElem?_set_self hlen]
    rfl
  · rw [if_neg h, entry, put, List.getElem?_set_ne (Ne.symm h)]
    exact entry_append_replicate l _ i

/-- Emptying an entry and trimming is undone by putting the entry back. -/
theorem trim_put_trim_set {l : List (Option α)} (hl : Trimmed l) {n : Nat} {a : α}
    (hn : entry l n = some a) : trim (put (trim (l.set n none)) n a) = l := by
  refine ext_of_trimmed (trim_trimmed _) hl fun i => ?_
  rw [entry_trim, entry_put, entry_trim, entry_set_none]
  by_cases h : i = n
  · rw [if_pos h, h, hn]
  · rw [if_neg h, if_neg h]

/-! ## Totals -/

/-- Sum of a weight over the entries. -/
def total (f : α → Int) (l : List (Option α)) : Int :=
  (l.map fun x => x.elim 0 f).sum

/-- Trimming changes no total. -/
theorem total_trim (f : α → Int) (l : List (Option α)) : total f (trim l) = total f l := by
  induction l using List.reverseRecOn with
  | nil => rfl
  | append_singleton l a ih =>
    cases a with
    | none =>
      have hdrop : trim (l ++ [none]) = trim l := List.rdropWhile_concat_pos _ _ _ rfl
      rw [hdrop, ih, total, total, List.map_append, List.sum_append]
      simp
    | some a =>
      rw [trim, List.rdropWhile_concat_neg _ _ _ (by simp)]

/-- Clearing an entry takes its value off the total. -/
theorem total_set_none (f : α → Int) :
    ∀ (l : List (Option α)) {n : Nat} {a : α}, entry l n = some a →
      total f (l.set n none) = total f l - f a := by
  intro l
  induction l with
  | nil => intro n a h; exact nomatch h
  | cons x l ih =>
    intro n a h
    cases n with
    | zero =>
      have hx : x = some a := h
      simp [total, hx]
    | succ n =>
      have hrest := ih (n := n) (a := a) h
      simp only [total] at hrest
      simp only [total, List.set_cons_succ, List.map_cons, List.sum_cons, hrest]
      omega

end SparseList
