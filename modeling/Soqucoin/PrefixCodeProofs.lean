import Mathlib.Data.List.Basic
import Mathlib.Tactic.Common

/-! # PrefixCodeProofs — codes that can be read from the front

A code whose words tell what they encode whatever follows them.  Such codes can be put one after
the other, and a list of them can be read without its length. -/

namespace PrefixCode

variable {α β γ σ : Type}

/-- From the front of a string that starts with a word of the code, the element of the
    domain and the rest of the string can be told. -/
def IsPrefixCode (P : α → Prop) (code : α → List σ) : Prop :=
  ∀ a b, P a → P b → ∀ r r', code a ++ r = code b ++ r' → a = b ∧ r = r'

variable {P : α → Prop} {code : α → List σ}

theorem IsPrefixCode.of_length {n : Nat} (hlen : ∀ a, P a → (code a).length = n)
    (hinj : ∀ a b, P a → P b → code a = code b → a = b) : IsPrefixCode P code := by
  intro a b ha hb r r' h
  obtain ⟨hcode, hrest⟩ := List.append_inj h ((hlen a ha).trans (hlen b hb).symm)
  exact ⟨hinj a b ha hb hcode, hrest⟩

theorem IsPrefixCode.mono {Q : α → Prop} (h : IsPrefixCode P code) (hQ : ∀ a, Q a → P a) :
    IsPrefixCode Q code :=
  fun a b ha hb => h a b (hQ a ha) (hQ b hb)

/-- Two parts one after the other, which together make the element. -/
theorem IsPrefixCode.append {Q : β → Prop} {R : γ → Prop} {c : β → List σ} {d : γ → List σ}
    (hc : IsPrefixCode Q c) (hd : IsPrefixCode R d) {p : α → β} {q : α → γ}
    (hpq : ∀ a b, p a = p b → q a = q b → a = b) :
    IsPrefixCode (fun a => Q (p a) ∧ R (q a)) (fun a => c (p a) ++ d (q a)) := by
  intro a b ha hb r r' h
  rw [List.append_assoc, List.append_assoc] at h
  obtain ⟨hp, h⟩ := hc _ _ ha.1 hb.1 _ _ h
  obtain ⟨hq, h⟩ := hd _ _ ha.2 hb.2 _ _ h
  exact ⟨hpq a b hp hq, h⟩

theorem IsPrefixCode.sized {n : Nat} {size : Nat → List σ} (h : IsPrefixCode (· < n) size) :
    IsPrefixCode (fun s : List σ => s.length < n) (fun s => size s.length ++ s) := by
  intro s t hs ht r r' heq
  rw [List.append_assoc, List.append_assoc] at heq
  obtain ⟨hlen, heq⟩ := h _ _ hs ht _ _ heq
  exact List.append_inj heq hlen

/-- A sequence of code words is read in one way. -/
theorem IsPrefixCode.flatMap_injective (h : IsPrefixCode P code) (hne : ∀ a, P a → code a ≠ [])
    {l l' : List α} (hl : ∀ a ∈ l, P a) (hl' : ∀ a ∈ l', P a)
    (heq : l.flatMap code = l'.flatMap code) : l = l' := by
  induction l generalizing l' with
  -- an empty word would let a list be longer and its string the same
  | nil =>
    cases l' with
    | nil => rfl
    | cons b l' =>
      rw [List.flatMap_cons] at heq
      exact absurd (List.append_eq_nil_iff.mp heq.symm).1 (hne b (hl' b List.mem_cons_self))
  | cons a l ih =>
    cases l' with
    | nil =>
      rw [List.flatMap_cons] at heq
      exact absurd (List.append_eq_nil_iff.mp heq).1 (hne a (hl a List.mem_cons_self))
    | cons b l' =>
      obtain ⟨ha, htail⟩ := List.forall_mem_cons.mp hl
      obtain ⟨hb, htail'⟩ := List.forall_mem_cons.mp hl'
      rw [List.flatMap_cons, List.flatMap_cons] at heq
      obtain ⟨hab, hrest⟩ := h a b ha hb _ _ heq
      rw [hab, ih htail htail' hrest]

theorem IsPrefixCode.map_injective (h : IsPrefixCode P code) (hne : ∀ a, P a → code a ≠ [])
    {part : β → α} {l l' : List β} (hl : ∀ b ∈ l, P (part b)) (hl' : ∀ b ∈ l', P (part b))
    (heq : (l.flatMap fun b => code (part b)) = l'.flatMap fun b => code (part b)) :
    l.map part = l'.map part := by
  rw [← List.flatMap_map part code, ← List.flatMap_map part code] at heq
  exact h.flatMap_injective hne (List.forall_mem_map.mpr hl) (List.forall_mem_map.mpr hl') heq

end PrefixCode
