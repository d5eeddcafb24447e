import Mathlib.Data.Finset.Basic
import Mathlib.Data.List.Basic
import Mathlib.Algebra.Ring.Parity
import Mathlib.Tactic

/-! # Toggles — logs of insertions and deletions, and undoing them

A registry is a finite set changed by a log of operations, each of which adds or removes one key.
A log is EFFECTIVE when every operation changes the registry it meets; its operations on one key
(`trace`) then alternate.  Replaying the inverse operations in the order of the log (not in
reverse) restores a key exactly when the log touches it not at all or an odd number of times:
`foldl_undo_restores_iff`.  A log not yet written is held as an OVERLAY of added and removed keys,
which reads as the registry with its log applied (`current_record`). -/

namespace Toggle

variable {κ : Type} [DecidableEq κ]

/-- One operation: add the key when `adds`, remove it otherwise. -/
structure Op (κ : Type) where
  adds : Bool
  key : κ
deriving DecidableEq

/-- Add the key, or take it out. -/
def apply (s : Finset κ) (op : Op κ) : Finset κ :=
  if op.adds then insert op.key s else s.erase op.key

/-- The other way round. -/
def undo (s : Finset κ) (op : Op κ) : Finset κ :=
  if op.adds then s.erase op.key else insert op.key s

/-- The operation that undoes another one, as an operation to apply. -/
def Op.inverse (op : Op κ) : Op κ := ⟨!op.adds, op.key⟩

theorem apply_inverse (s : Finset κ) (op : Op κ) : apply s op.inverse = undo s op := by
  cases h : op.adds <;> simp [apply, undo, Op.inverse, h]

/-- The operation changes the registry: it adds an absent key or removes a present one. -/
def Effective (s : Finset κ) (op : Op κ) : Prop :=
  op.adds = !decide (op.key ∈ s)

/-- Every operation of the log is effective when its turn comes. -/
def EffectiveLog : Finset κ → List (Op κ) → Prop
  | _, [] => True
  | s, op :: ops => Effective s op ∧ EffectiveLog (apply s op) ops

/-- How often the log touches a key. -/
def touches (k : κ) (ops : List (Op κ)) : Nat :=
  ops.countP (fun op => op.key = k)

/-- The log's operations on one key, in order. -/
def trace (k : κ) (ops : List (Op κ)) : List Bool :=
  (ops.filter (fun op => op.key = k)).map Op.adds

theorem length_trace (k : κ) (ops : List (Op κ)) :
    (trace k ops).length = touches k ops := by
  rw [trace, List.length_map, touches, List.countP_eq_length_filter]

private theorem trace_cons_eq {k : κ} {op : Op κ} (h : op.key = k) (ops : List (Op κ)) :
    trace k (op :: ops) = op.adds :: trace k ops := by
  simp [trace, h]

private theorem trace_cons_ne {k : κ} {op : Op κ} (h : op.key ≠ k) (ops : List (Op κ)) :
    trace k (op :: ops) = trace k ops := by
  simp [trace, h]

theorem mem_apply {s : Finset κ} {op : Op κ} {k : κ} :
    decide (k ∈ apply s op) = if op.key = k then op.adds else decide (k ∈ s) := by
  rcases op with ⟨adds, key⟩
  by_cases hk : key = k
  · cases adds <;> simp [apply, hk]
  · have hk' : k ≠ key := fun h => hk h.symm
    cases adds <;> simp [apply, hk, hk']

theorem eq_of_notMem_apply {s : Finset κ} {op : Op κ} {k : κ} (hk : k ∈ s)
    (h : k ∉ apply s op) : op = ⟨false, k⟩ := by
  have happly : decide (k ∈ apply s op) = _ := mem_apply
  rw [decide_eq_false h, decide_eq_true hk] at happly
  rcases op with ⟨adds, key⟩
  by_cases hkey : key = k
  · rw [if_pos hkey] at happly
    rw [hkey, happly]
  · rw [if_neg hkey] at happly
    cases happly

theorem mem_undo {s : Finset κ} {op : Op κ} {k : κ} :
    decide (k ∈ undo s op) = if op.key = k then !op.adds else decide (k ∈ s) := by
  rw [← apply_inverse, mem_apply]
  rfl

/-- A key's state after a loop of operations is what the last one on it makes of it. -/
theorem mem_foldl {f : Finset κ → Op κ → Finset κ} {g : Bool → Bool} {k : κ}
    (hf : ∀ s op, decide (k ∈ f s op) = if op.key = k then g op.adds else decide (k ∈ s)) :
    ∀ (ops : List (Op κ)) (s : Finset κ),
      decide (k ∈ ops.foldl f s) = (trace k ops).foldl (fun _ b => g b) (decide (k ∈ s)) := by
  intro ops
  induction ops with
  | nil => intro s; rfl
  | cons op ops ih =>
    intro s
    rw [List.foldl_cons, ih, hf]
    by_cases hk : op.key = k
    · rw [trace_cons_eq hk, if_pos hk, List.foldl_cons]
    · rw [trace_cons_ne hk, if_neg hk]

theorem mem_foldl_undo (k : κ) (ops : List (Op κ)) (s : Finset κ) :
    decide (k ∈ ops.foldl undo s) = (trace k ops).foldl (fun _ b => !b) (decide (k ∈ s)) :=
  mem_foldl (fun _ _ => mem_undo) ops s

theorem mem_foldl_apply (k : κ) (ops : List (Op κ)) (s : Finset κ) :
    decide (k ∈ ops.foldl apply s) = (trace k ops).foldl (fun _ b => b) (decide (k ∈ s)) :=
  mem_foldl (g := id) (fun _ _ => mem_apply) ops s

theorem mem_foldl_apply_of_untouched {k : κ} (ops : List (Op κ)) (s : Finset κ)
    (h : trace k ops = []) : decide (k ∈ ops.foldl apply s) = decide (k ∈ s) := by
  rw [mem_foldl_apply, h, List.foldl_nil]

theorem trace_eq_nil {k : κ} {ops : List (Op κ)} (h : ∀ op ∈ ops, op.key ≠ k) :
    trace k ops = [] := by
  rw [trace, List.map_eq_nil_iff, List.filter_eq_nil_iff]
  intro op hop
  rw [decide_eq_true_eq]
  exact h op hop

/-- A key in the registry after a log was added by the log, or was there before
    and has not been touched. -/
theorem mem_of_mem_foldl_apply {k : κ} :
    ∀ {ops : List (Op κ)} {s : Finset κ}, k ∈ ops.foldl apply s →
      (∃ op ∈ ops, op.key = k ∧ op.adds) ∨ (k ∈ s ∧ ∀ op ∈ ops, op.key ≠ k) := by
  intro ops
  induction ops with
  | nil =>
    intro s h
    exact Or.inr ⟨h, fun op hop => by cases hop⟩
  | cons op ops ih =>
    intro s h
    rcases ih h with ⟨op', hop', hadds⟩ | ⟨hmem, hrest⟩
    · exact Or.inl ⟨op', List.mem_cons_of_mem _ hop', hadds⟩
    · have happly : decide (k ∈ apply s op) = _ := mem_apply
      rw [decide_eq_true hmem] at happly
      by_cases hk : op.key = k
      · rw [if_pos hk] at happly
        exact Or.inl ⟨op, List.mem_cons_self, hk, happly.symm⟩
      · rw [if_neg hk] at happly
        refine Or.inr ⟨of_decide_eq_true happly.symm, ?_⟩
        intro op' hop'
        rcases List.mem_cons.mp hop' with rfl | hop'
        · exact hk
        · exact hrest op' hop'

/-- The Booleans alternate, the first one differing from `b`. -/
def Alternates : Bool → List Bool → Prop
  | _, [] => True
  | b, x :: xs => x = !b ∧ Alternates x xs

/-- In an effective log the operations on a key alternate. -/
theorem EffectiveLog.alternates {k : κ} :
    ∀ {ops : List (Op κ)} {s : Finset κ}, EffectiveLog s ops →
      Alternates (decide (k ∈ s)) (trace k ops) := by
  intro ops
  induction ops with
  | nil => intro s _; trivial
  | cons op ops ih =>
    rintro s ⟨heff, hrest⟩
    have hnext := ih hrest
    rw [mem_apply] at hnext
    by_cases hk : op.key = k
    · rw [if_pos hk] at hnext
      rw [trace_cons_eq hk]
      refine ⟨?_, hnext⟩
      rw [← hk]
      exact heff
    · rw [if_neg hk] at hnext
      rw [trace_cons_ne hk]
      exact hnext

/-- The last of `n` alternating Booleans is the starting value for even `n`, and
    its negation for odd `n`. -/
theorem Alternates.foldl_last :
    ∀ {l : List Bool} {b : Bool}, Alternates b l →
      l.foldl (fun _ x => x) b = if Even l.length then b else !b := by
  intro l
  induction l with
  | nil => intro b _; rfl
  | cons x xs ih =>
    rintro b ⟨hx, hxs⟩
    have hparity : Even (x :: xs).length ↔ ¬ Even xs.length := Nat.even_add_one
    rw [List.foldl_cons, ih hxs]
    by_cases heven : Even xs.length
    · rw [if_pos heven, if_neg (fun h => hparity.mp h heven), hx]
    · rw [if_neg heven, if_pos (hparity.mpr heven), hx, Bool.not_not]

/-- Its inverse is the starting value for odd `n`, and its negation for even `n`. -/
theorem Alternates.foldl_not {l : List Bool} {b : Bool} (c : Bool) (h : Alternates b l)
    (hne : l ≠ []) : l.foldl (fun _ x => !x) c = if Odd l.length then b else !b := by
  have hlast : l.foldl (fun _ x => !x) c = !l.foldl (fun _ x => x) b := by
    rcases List.eq_nil_or_concat l with rfl | ⟨init, x, rfl⟩
    · exact absurd rfl hne
    · simp
  rw [hlast, h.foldl_last]
  by_cases hodd : Odd l.length
  · rw [if_pos hodd, if_neg (Nat.not_even_iff_odd.mpr hodd), Bool.not_not]
  · rw [if_neg hodd, if_pos (Nat.not_odd_iff_even.mp hodd)]

/-- An effective log leaves the registry as it was exactly when it touches every
    key an even number of times. -/
theorem foldl_apply_eq_iff {s : Finset κ} {ops : List (Op κ)} (h : EffectiveLog s ops) :
    ops.foldl apply s = s ↔ ∀ k, Even (touches k ops) := by
  rw [Finset.ext_iff]
  refine forall_congr' fun k => ?_
  rw [← length_trace, ← @decide_eq_decide (k ∈ _) (k ∈ s) inferInstance inferInstance,
    mem_foldl_apply, (h.alternates (k := k)).foldl_last]
  by_cases heven : Even (trace k ops).length <;> simp [heven]

/-- Replaying inverses changes nothing exactly when each key is already where
    the inverse of the last operation on it puts it. -/
theorem foldl_undo_eq_iff {s : Finset κ} {ops : List (Op κ)} :
    ops.foldl undo s = s ↔ ∀ k, ∀ b ∈ (trace k ops).getLast?, decide (k ∈ s) = !b := by
  rw [Finset.ext_iff]
  refine forall_congr' fun k => ?_
  rw [← @decide_eq_decide (k ∈ _) (k ∈ s) inferInstance inferInstance, mem_foldl_undo]
  rcases List.eq_nil_or_concat (trace k ops) with hnil | ⟨init, b, hconcat⟩
  · simp [hnil]
  · simp [hconcat, eq_comm]

/-- **Forward replay of inverses**: it restores the registry exactly when every
    key is touched not at all or an odd number of times. -/
theorem foldl_undo_restores_iff {s : Finset κ} {ops : List (Op κ)} (h : EffectiveLog s ops) :
    ops.foldl undo (ops.foldl apply s) = s ↔ ∀ k, touches k ops = 0 ∨ Odd (touches k ops) := by
  have hkey : ∀ k, (k ∈ ops.foldl undo (ops.foldl apply s) ↔ k ∈ s) ↔
      (touches k ops = 0 ∨ Odd (touches k ops)) := by
    intro k
    have hdec := mem_foldl_undo k ops (ops.foldl apply s)
    rw [← length_trace, ← @decide_eq_decide (k ∈ _) (k ∈ s) inferInstance inferInstance, hdec]
    by_cases hnil : trace k ops = []
    · simp [hnil, mem_foldl_apply_of_untouched ops s hnil]
    · rw [(h.alternates (k := k)).foldl_not _ hnil]
      by_cases hodd : Odd (trace k ops).length
      · simp [hodd]
      · simp [hodd, hnil]
  rw [Finset.ext_iff]
  exact forall_congr' hkey

theorem EffectiveLog.append_singleton {op : Op κ} :
    ∀ {ops : List (Op κ)} {s : Finset κ}, EffectiveLog s ops →
      Effective (ops.foldl apply s) op → EffectiveLog s (ops ++ [op]) := by
  intro ops
  induction ops with
  | nil => intro s _ hop; exact ⟨hop, trivial⟩
  | cons o ops ih =>
    rintro s ⟨heff, hrest⟩ hop
    exact ⟨heff, ih hrest hop⟩

theorem EffectiveLog.effective_at {op : Op κ} {post : List (Op κ)} :
    ∀ {pre : List (Op κ)} {s : Finset κ}, EffectiveLog s (pre ++ op :: post) →
      Effective (pre.foldl apply s) op := by
  intro pre
  induction pre with
  | nil =>
    rintro s ⟨heff, -⟩
    exact heff
  | cons o pre ih =>
    rintro s ⟨-, hrest⟩
    exact ih hrest

/-! ## Overlays -/

/-- Keys added and removed since the registry was last written. -/
structure Overlay (κ : Type) [DecidableEq κ] where
  added : Finset κ
  removed : Finset κ
  disjoint : Disjoint added removed

namespace Overlay

/-- No pending operation. -/
def empty : Overlay κ := ⟨∅, ∅, Finset.disjoint_empty_left _⟩

/-- The overlay after one more operation. -/
def record (ov : Overlay κ) (op : Op κ) : Overlay κ :=
  if op.adds then
    ⟨insert op.key ov.added, ov.removed.erase op.key, by
      rw [Finset.disjoint_insert_left]
      exact ⟨Finset.notMem_erase _ _, ov.disjoint.mono_right (Finset.erase_subset _ _)⟩⟩
  else
    ⟨ov.added.erase op.key, insert op.key ov.removed, by
      rw [Finset.disjoint_insert_right]
      exact ⟨Finset.notMem_erase _ _, ov.disjoint.mono_left (Finset.erase_subset _ _)⟩⟩

/-- The registry as the overlay shows it. -/
def current (base : Finset κ) (ov : Overlay κ) : Finset κ :=
  (base \ ov.removed) ∪ ov.added

theorem mem_current {base : Finset κ} {ov : Overlay κ} {k : κ} :
    k ∈ current base ov ↔ k ∈ ov.added ∨ (k ∉ ov.removed ∧ k ∈ base) := by
  rw [current, Finset.mem_union, Finset.mem_sdiff]
  tauto

@[simp] theorem current_empty (base : Finset κ) : current base empty = base := by
  simp [current, empty]

/-- Recording an operation applies it. -/
theorem current_record (base : Finset κ) (ov : Overlay κ) (op : Op κ) :
    current base (ov.record op) = apply (current base ov) op := by
  rcases op with ⟨adds, key⟩
  ext k
  cases adds with
  | true =>
    simp only [record, apply, mem_current, if_true, Finset.mem_insert, Finset.mem_erase]
    tauto
  | false =>
    simp only [record, apply, mem_current, Bool.false_eq_true, if_false,
      Finset.mem_insert, Finset.mem_erase]
    tauto

end Overlay

end Toggle
