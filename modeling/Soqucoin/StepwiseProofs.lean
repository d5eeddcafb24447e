import Mathlib.Data.List.Basic
import Mathlib.Tactic

/-! # Stepwise runs — what holds at every step of a run

A machine takes one event after another.  `Every step P s events` says that `P` holds of each
event together with the state that meets it; an invariant kept by the steps that meet a condition
turns the condition into any property the invariant gives (`Every.of_invariant`). -/

namespace Stepwise

variable {σ ε : Type}

/-- Every event of the run, with the state it meets, has the property. -/
def Every (step : σ → ε → σ) (P : σ → ε → Prop) : σ → List ε → Prop
  | _, [] => True
  | s, e :: events => P s e ∧ Every step P (step s e) events

instance decidableEvery (step : σ → ε → σ) (P : σ → ε → Prop) [∀ s e, Decidable (P s e)] :
    (s : σ) → (events : List ε) → Decidable (Every step P s events)
  | _, [] => inferInstanceAs (Decidable True)
  | s, e :: events =>
    haveI := decidableEvery step P (step s e) events
    inferInstanceAs (Decidable (_ ∧ _))

/-- A run whose steps meet a condition that keeps an invariant has, at every step,
    what the invariant and the condition give. -/
theorem Every.of_invariant {step : σ → ε → σ} {C P : σ → ε → Prop} {I : σ → Prop}
    (keep : ∀ s e, I s → C s e → I (step s e)) (give : ∀ s e, I s → C s e → P s e)
    {s : σ} {events : List ε} (hs : I s) (h : Every step C s events) :
    Every step P s events := by
  induction events generalizing s with
  | nil => trivial
  | cons e events ih => exact ⟨give s e hs h.1, ih (keep s e hs h.1) h.2⟩

end Stepwise
