import Mathlib.Data.List.Basic
import Mathlib.Tactic

/-! # Checked loops — sequential validation code in `Except`

A validator is a sequence of tests, each of which lets the run go on or ends it with an error,
with loops over a list in between.  `bind_eq_ok` and `require_eq_ok` peel a successful run apart,
`foldlM_invariant` carries a property through a loop, `foldlM_map_congr` compares two loops, and
`foldlM_at` stops a successful one at one of its elements. -/

namespace CheckedLoop

variable {ε α β σ : Type}

/-- Go on exactly when the test holds; otherwise end the run with `e`. -/
def require (b : Bool) (e : ε) : Except ε Unit :=
  if b then .ok () else .error e

@[simp] theorem require_eq_ok {b : Bool} {e : ε} {u : Unit} :
    require b e = .ok u ↔ b := by
  cases b <;> simp [require]

/-- Leave out a part of the run when `b` holds. -/
def skipIf (b : Bool) (c : Except ε Unit) : Except ε Unit :=
  if b then .ok () else c

@[simp] theorem skipIf_eq_ok {b : Bool} {c : Except ε Unit} {u : Unit} :
    skipIf b c = .ok u ↔ (b = false → c = .ok u) := by
  cases b <;> simp [skipIf]

/-- A sequence succeeds if both parts do. -/
theorem bind_eq_ok {x : Except ε α} {f : α → Except ε β} {r : β} :
    (x >>= f) = .ok r ↔ ∃ a, x = .ok a ∧ f a = .ok r := by
  cases x with
  | error e =>
    constructor
    · intro h
      exact nomatch h
    · rintro ⟨_, h, _⟩
      exact nomatch h
  | ok a => exact ⟨fun h => ⟨a, rfl, h⟩, fun ⟨_, h, hf⟩ => by cases h; exact hf⟩

/-- A requirement succeeds if it holds and the rest does. -/
theorem require_bind_eq_ok {b : Bool} {e : ε} {f : Unit → Except ε β} {r : β} :
    (require b e >>= f) = .ok r ↔ b ∧ f () = .ok r := by
  rw [bind_eq_ok]
  constructor
  · rintro ⟨u, hb, hf⟩
    exact ⟨require_eq_ok.mp hb, hf⟩
  · rintro ⟨hb, hf⟩
    exact ⟨(), require_eq_ok.mpr hb, hf⟩

theorem after_require {b : Bool} {e : ε} {f : Unit → Except ε β} {r : β}
    (h : (require b e >>= f) = .ok r) : f () = .ok r :=
  (require_bind_eq_ok.mp h).2

theorem bind_congr_of_ok {x : Except ε α} {f g : α → Except ε β}
    (h : ∀ a, x = .ok a → f a = g a) : (x >>= f) = (x >>= g) := by
  cases x with
  | error e => rfl
  | ok a => exact h a rfl

theorem require_bind_congr {b : Bool} {e : ε} {f g : Unit → Except ε β}
    (h : b → f () = g ()) : (require b e >>= f) = (require b e >>= g) :=
  bind_congr_of_ok fun _ hok => h (require_eq_ok.mp hok)

theorem foldlM_cons_eq_ok {f : σ → α → Except ε σ} {a : α} {l : List α} {s t : σ} :
    (a :: l).foldlM f s = .ok t ↔ ∃ m, f s a = .ok m ∧ l.foldlM f m = .ok t := by
  rw [List.foldlM_cons, bind_eq_ok]

theorem foldlM_nil_eq_ok {f : σ → α → Except ε σ} {s t : σ} :
    ([] : List α).foldlM f s = .ok t ↔ t = s :=
  ⟨fun h => by cases h; rfl, fun h => by rw [h]; rfl⟩

theorem foldlM_pair {f : σ → α → Except ε σ} {x y : α} {s : σ} (hx : f s x = .ok s) :
    [x, y].foldlM f s = f s y := by
  rw [List.foldlM_cons, hx]
  show (f s y >>= fun t => pure t) = f s y
  exact bind_pure _

theorem foldlM_append_eq_ok {f : σ → α → Except ε σ} {l₁ l₂ : List α} {s t : σ} :
    (l₁ ++ l₂).foldlM f s = .ok t ↔ ∃ m, l₁.foldlM f s = .ok m ∧ l₂.foldlM f m = .ok t := by
  rw [List.foldlM_append, bind_eq_ok]

/-- **The loop rule.**  What every successful iteration preserves, a successful loop preserves. -/
theorem foldlM_invariant {f : σ → α → Except ε σ} (P : σ → Prop) :
    ∀ (l : List α) {s t : σ},
      (∀ s a t, a ∈ l → f s a = .ok t → P s → P t) → l.foldlM f s = .ok t → P s → P t := by
  intro l
  induction l with
  | nil =>
    intro s t _ h hs
    rw [foldlM_nil_eq_ok] at h
    rw [h]
    exact hs
  | cons a l ih =>
    intro s t step h hs
    obtain ⟨m, hm, hl⟩ := foldlM_cons_eq_ok.mp h
    refine ih (fun s a t ha => step s a t (List.mem_cons_of_mem _ ha)) hl ?_
    exact step s a m (List.mem_cons_self ..) hm hs

/-- The iteration that handled a given element, with the runs around it. -/
theorem foldlM_at {f : σ → α → Except ε σ} {pre post : List α} {a : α} {s t : σ}
    (h : (pre ++ a :: post).foldlM f s = .ok t) :
    ∃ m n, pre.foldlM f s = .ok m ∧ f m a = .ok n ∧ post.foldlM f n = .ok t := by
  obtain ⟨m, hm, hrest⟩ := foldlM_append_eq_ok.mp h
  obtain ⟨n, hn, ht⟩ := foldlM_cons_eq_ok.mp hrest
  exact ⟨m, n, hm, hn, ht⟩

/-- A field that every iteration updates by a pure function is, after the loop,
    that function folded over the list. -/
theorem foldlM_track {γ : Type} {f : σ → α → Except ε σ} (π : σ → γ) (g : γ → α → γ) :
    ∀ (l : List α) {s t : σ},
      (∀ s a t, a ∈ l → f s a = .ok t → π t = g (π s) a) →
      l.foldlM f s = .ok t → π t = l.foldl g (π s) := by
  intro l
  induction l with
  | nil =>
    intro s t _ h
    rw [foldlM_nil_eq_ok] at h
    rw [h, List.foldl_nil]
  | cons a l ih =>
    intro s t step h
    obtain ⟨m, hm, hl⟩ := foldlM_cons_eq_ok.mp h
    rw [List.foldl_cons, ← step s a m (List.mem_cons_self ..) hm]
    exact ih (fun s a t ha => step s a t (List.mem_cons_of_mem _ ha)) hl

/-- A list to which every iteration appends at most one item is, after the loop,
    the list of all of them. -/
theorem foldlM_collect {γ : Type} {f : σ → α → Except ε σ} (π : σ → List γ) (g : α → Option γ)
    (l : List α) {s t : σ} (step : ∀ s a t, a ∈ l → f s a = .ok t → π t = π s ++ (g a).toList)
    (h : l.foldlM f s = .ok t) : π t = π s ++ l.filterMap g := by
  rw [foldlM_track π (fun acc a => acc ++ (g a).toList) l step h]
  clear step h
  generalize π s = acc
  induction l generalizing acc with
  | nil => rw [List.foldl_nil, List.filterMap_nil, List.append_nil]
  | cons a l ih =>
    rw [List.foldl_cons, ih]
    cases hg : g a with
    | none => rw [List.filterMap_cons_none hg, Option.toList_none, List.append_nil]
    | some c =>
      rw [List.filterMap_cons_some hg, Option.toList_some, List.append_assoc]
      rfl

/-- Two loops with the same step are the same. -/
theorem foldlM_congr {f g : σ → α → Except ε σ} :
    ∀ {l : List α} {s : σ}, (∀ a ∈ l, ∀ s, f s a = g s a) → l.foldlM f s = l.foldlM g s := by
  intro l
  induction l with
  | nil =>
    intro s _
    rfl
  | cons a l ih =>
    intro s h
    rw [List.forall_mem_cons] at h
    rw [List.foldlM_cons, List.foldlM_cons, h.1 s]
    exact bind_congr fun m => ih h.2

/-- Runs that agree up to a projection, continued in ways that agree on what it keeps. -/
theorem bind_map_congr {α' β' γ δ : Type} {x : Except ε α} {y : Except ε α'} {π : α → γ}
    {κ : α' → γ} {ρ : β → δ} {τ : β' → δ} {f : α → Except ε β} {g : α' → Except ε β'}
    (hxy : x.map π = y.map κ) (hfg : ∀ m n, π m = κ n → (f m).map ρ = (g n).map τ) :
    (x >>= f).map ρ = (y >>= g).map τ := by
  cases x with
  | error e =>
    cases y with
    | error e' => exact congrArg Except.error (Except.error.inj hxy)
    | ok n => cases hxy
  | ok m =>
    cases y with
    | error e' => cases hxy
    | ok n => exact hfg m n (Except.ok.inj hxy)

theorem map_bind_congr {β' δ : Type} {x : Except ε α} {ρ : β → δ} {τ : β' → δ}
    {f : α → Except ε β} {g : α → Except ε β'} (h : ∀ m, (f m).map ρ = (g m).map τ) :
    (x >>= f).map ρ = (x >>= g).map τ := by
  cases x with
  | error e => rfl
  | ok m => exact h m

theorem ite_map_congr {α' γ : Type} {p q : Prop} [Decidable p] [Decidable q]
    {π : α → γ} {κ : α' → γ} {x y : Except ε α} {x' y' : Except ε α'} (hpq : p ↔ q)
    (hpos : p → x.map π = x'.map κ) (hneg : ¬ p → y.map π = y'.map κ) :
    (if p then x else y).map π = (if q then x' else y').map κ := by
  by_cases h : p
  · rw [if_pos h, if_pos (hpq.mp h)]
    exact hpos h
  · rw [if_neg h, if_neg (mt hpq.mpr h)]
    exact hneg h

/-- Two loops whose steps agree on a part of the state agree on it at the end. -/
theorem foldlM_map_congr {γ : Type} {f g : σ → α → Except ε σ} (π : σ → γ) :
    ∀ {l : List α} {s t : σ},
      (∀ a ∈ l, ∀ s t, π s = π t → (f s a).map π = (g t a).map π) →
      π s = π t → (l.foldlM f s).map π = (l.foldlM g t).map π := by
  intro l
  induction l with
  | nil =>
    intro s t _ h
    exact congrArg Except.ok h
  | cons a l ih =>
    intro s t step h
    rw [List.forall_mem_cons] at step
    rw [List.foldlM_cons, List.foldlM_cons]
    exact bind_map_congr (step.1 s t h) fun m n hmn => ih step.2 hmn

/-- What holds before the first element and is carried over each of them holds of every prefix. -/
theorem prefix_induction {l : List α} {P : List α → Prop} (nil : P [])
    (step : ∀ pre a post, l = pre ++ a :: post → P pre → P (pre ++ [a])) :
    ∀ pre post, l = pre ++ post → P pre := by
  intro pre
  induction pre using List.reverseRecOn with
  | nil =>
    intro _ _
    exact nil
  | append_singleton pre a ih =>
    intro post h
    have hsplit : l = pre ++ a :: post := by
      rw [h, List.append_assoc, List.singleton_append]
    exact step pre a post hsplit (ih (a :: post) hsplit)

/-- A loop of tests passes exactly if each of them does. -/
theorem forM_eq_ok {f : α → Except ε Unit} :
    ∀ {l : List α} {u : Unit}, forM l f = .ok u ↔ ∀ a ∈ l, f a = .ok () := by
  intro l
  induction l with
  | nil =>
    intro u
    constructor
    · intro _ a ha
      exact nomatch ha
    · intro _
      rfl
  | cons a l ih =>
    intro u
    rw [List.forM_cons, bind_eq_ok, List.forall_mem_cons]
    constructor
    · rintro ⟨_, ha, hl⟩
      exact ⟨ha, ih.mp hl⟩
    · rintro ⟨ha, hl⟩
      exact ⟨(), ha, ih.mpr hl⟩

/-- The results of a successful loop, element by element. -/
theorem mapM_eq_ok {f : α → Except ε β} :
    ∀ {l : List α} {r : List β}, l.mapM f = .ok r → List.Forall₂ (fun a b => f a = .ok b) l r := by
  intro l
  induction l with
  | nil =>
    intro r h
    cases h
    exact .nil
  | cons a l ih =>
    intro r h
    rw [List.mapM_cons] at h
    obtain ⟨b, hb, h⟩ := bind_eq_ok.mp h
    obtain ⟨r', hr', h⟩ := bind_eq_ok.mp h
    cases h
    exact .cons hb (ih hr')

/-- A flag that a loop only ever raises is up at the end where some element raises it. -/
theorem foldl_or (p : α → Bool) :
    ∀ (l : List α) (b : Bool), l.foldl (fun acc x => acc || p x) b = (b || l.any p) := by
  intro l
  induction l with
  | nil => simp
  | cons x l ih =>
    intro b
    rw [List.foldl_cons, ih, List.any_cons, Bool.or_assoc]

/-- One step of a loop that collects what `f` gives, as an append. -/
theorem filterMap_cons_toList (f : α → Option β) (a : α) (l : List α) :
    (a :: l).filterMap f = (f a).toList ++ l.filterMap f := by
  rw [List.filterMap_cons]
  cases f a <;> rfl

/-- What is kept of a list stands in its order. -/
theorem filterMap_map_sublist {α β γ : Type} {f : α → Option β} {g : β → γ} {k : α → γ}
    (hfg : ∀ a b, f a = some b → g b = k a) (l : List α) :
    ((l.filterMap f).map g).Sublist (l.map k) := by
  induction l with
  | nil => exact .slnil
  | cons a l ih =>
    rw [List.filterMap_cons, List.map_cons]
    cases hf : f a with
    | none => exact ih.cons _
    | some b =>
      rw [List.map_cons, hfg a b hf]
      exact ih.cons_cons _

/-- Dropping the error keeps exactly the successful results. -/
theorem toOption_eq_some {x : Except ε α} {a : α} :
    x.toOption = some a ↔ x = .ok a := by
  cases x with
  | error e =>
    constructor
    · intro h
      cases h
    · intro h
      cases h
  | ok b =>
    constructor
    · intro h
      exact congrArg Except.ok (Option.some.inj h)
    · intro h
      exact congrArg some (Except.ok.inj h)

/-- In related lists every element on the right comes from one on the left. -/
theorem exists_of_mem_right {R : α → β → Prop} {l : List α} {l' : List β}
    (h : List.Forall₂ R l l') {b : β} (hb : b ∈ l') : ∃ a ∈ l, R a b := by
  induction h with
  | nil => cases hb
  | cons hab _ ih =>
    rcases List.mem_cons.mp hb with rfl | hb
    · exact ⟨_, List.mem_cons_self, hab⟩
    · obtain ⟨a, ha, hR⟩ := ih hb
      exact ⟨a, List.mem_cons_of_mem _ ha, hR⟩

end CheckedLoop
