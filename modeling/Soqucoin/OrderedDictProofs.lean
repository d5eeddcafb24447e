import Mathlib.Data.List.Sort
import Mathlib.Data.List.Perm.Subperm
import Mathlib.Tactic

/-! # Ordered dictionaries — one value a key, keys in order of insertion

A dictionary is its list of items with the proof that no key comes twice.  `update` sets the value
of a key from the one it had, as `setdefault` followed by a change in place does; a new key goes
to the end.  In a loop of updates every key sees the elements with that key, in order, and nothing
else (`get?_foldl_update`); `flatMap_update_perm` and `flatMap_erase_perm` follow what all values
together hold, up to order. -/

/-- A dictionary as the list of its items, in the order of insertion. -/
structure OrderedDict (κ ν : Type) where
  items : List (κ × ν)
  nodup : (items.map Prod.fst).Nodup
deriving DecidableEq

namespace OrderedDict

variable {κ ν β γ : Type}

/-- Part of a list without repetitions sums to no more than the whole. -/
theorem sum_map_le_of_subset {l l' : List β} {f : β → Int} (hnodup : l.Nodup) (hsub : l ⊆ l')
    (hpos : ∀ x ∈ l', 0 ≤ f x) : (l.map f).sum ≤ (l'.map f).sum := by
  obtain ⟨part, hpart, hsublist⟩ := List.subperm_of_subset hnodup hsub
  rw [← (hpart.map f).sum_eq]
  refine (hsublist.map f).sum_le_sum ?_
  intro y hy
  obtain ⟨x, hx, rfl⟩ := List.mem_map.mp hy
  exact hpos x hx

/-- No items. -/
def empty : OrderedDict κ ν := ⟨[], List.nodup_nil⟩

/-- The keys, in order. -/
def keys (d : OrderedDict κ ν) : List κ := d.items.map Prod.fst

theorem eq_of_mem {d : OrderedDict κ ν} {k : κ} {v w : ν} (hv : (k, v) ∈ d.items)
    (hw : (k, w) ∈ d.items) : v = w := by
  have hpair : (k, v) = (k, w) := List.inj_on_of_nodup_map d.nodup hv hw rfl
  exact (Prod.mk.inj hpair).2

variable [DecidableEq κ]

/-- The value of a key. -/
def get? (d : OrderedDict κ ν) (k : κ) : Option ν :=
  (d.items.find? fun p => decide (p.1 = k)).map Prod.snd

/-- A key has the value of its one item. -/
theorem get?_eq_some {d : OrderedDict κ ν} {k : κ} {v : ν} :
    d.get? k = some v ↔ (k, v) ∈ d.items := by
  constructor
  · intro h
    obtain ⟨⟨k', v'⟩, hfind, rfl⟩ := Option.map_eq_some_iff.mp h
    have hk : k' = k := by simpa using List.find?_some hfind
    rw [← hk]
    exact List.mem_of_find?_eq_some hfind
  · intro h
    cases hfind : d.items.find? fun p => decide (p.1 = k) with
    | none =>
      have hne := List.find?_eq_none.mp hfind _ h
      simp at hne
    | some p =>
      have hk : p.1 = k := by simpa using List.find?_some hfind
      have hp : (k, p.2) ∈ d.items := by
        rw [← hk]
        exact List.mem_of_find?_eq_some hfind
      rw [get?, hfind, Option.map_some, eq_of_mem hp h]

theorem get?_eq_none {d : OrderedDict κ ν} {k : κ} : d.get? k = none ↔ k ∉ d.keys := by
  rw [Option.eq_none_iff_forall_ne_some, keys, List.mem_map]
  constructor
  · rintro h ⟨⟨k', v⟩, hmem, rfl⟩
    exact h v (get?_eq_some.mpr hmem)
  · intro h v hv
    exact h ⟨(k, v), get?_eq_some.mp hv, rfl⟩

@[simp] theorem get?_empty (k : κ) : (empty : OrderedDict κ ν).get? k = none := rfl

theorem get?_congr {d e : OrderedDict κ ν} (h : ∀ p, p ∈ d.items ↔ p ∈ e.items) (k : κ) :
    d.get? k = e.get? k := by
  apply Option.ext
  intro v
  rw [get?_eq_some, get?_eq_some, h]

/-! ## Update -/

/-- The items with the value of a key changed, or with the key at the end. -/
def updateItems (k : κ) (f : Option ν → ν) : List (κ × ν) → List (κ × ν)
  | [] => [(k, f none)]
  | (k', v) :: rest =>
    if k' = k then (k, f (some v)) :: rest else (k', v) :: updateItems k f rest

/-- An update adds its key at the end, where it is new. -/
theorem updateItems_keys (k : κ) (f : Option ν → ν) (l : List (κ × ν)) :
    (updateItems k f l).map Prod.fst =
      if k ∈ l.map Prod.fst then l.map Prod.fst else l.map Prod.fst ++ [k] := by
  induction l with
  | nil => rfl
  | cons p rest ih =>
    obtain ⟨k', v⟩ := p
    by_cases hk : k' = k
    · simp [updateItems, hk]
    · rw [updateItems, if_neg hk, List.map_cons, ih]
      have hmem : k ∈ ((k', v) :: rest).map Prod.fst ↔ k ∈ rest.map Prod.fst := by
        simp [Ne.symm hk]
      by_cases hin : k ∈ rest.map Prod.fst
      · rw [if_pos hin, if_pos (hmem.mpr hin), List.map_cons]
      · rw [if_neg hin, if_neg (hin ∘ hmem.mp), List.map_cons, List.cons_append]

/-- Set the value of a key from the one it had. -/
def update (d : OrderedDict κ ν) (k : κ) (f : Option ν → ν) : OrderedDict κ ν where
  items := updateItems k f d.items
  nodup := by
    rw [updateItems_keys]
    by_cases h : k ∈ d.items.map Prod.fst
    · rw [if_pos h]
      exact d.nodup
    · rw [if_neg h]
      exact List.nodup_append.mpr ⟨d.nodup, List.nodup_singleton k, by
        intro a ha b hb
        rw [List.mem_singleton] at hb
        rintro rfl
        exact h (hb ▸ ha)⟩

/-- An update changes one item, or adds one. -/
theorem updateItems_split (k : κ) (f : Option ν → ν) (l : List (κ × ν)) :
    (∃ pre v post, l = pre ++ (k, v) :: post ∧ k ∉ pre.map Prod.fst ∧
        updateItems k f l = pre ++ (k, f (some v)) :: post) ∨
      (k ∉ l.map Prod.fst ∧ updateItems k f l = l ++ [(k, f none)]) := by
  induction l with
  | nil => exact Or.inr ⟨List.not_mem_nil, rfl⟩
  | cons p rest ih =>
    obtain ⟨k', v⟩ := p
    by_cases hk : k' = k
    · subst hk
      exact Or.inl ⟨[], v, rest, rfl, List.not_mem_nil, by rw [updateItems, if_pos rfl]; rfl⟩
    · rcases ih with ⟨pre, w, post, hl, hpre, hup⟩ | ⟨hnot, hup⟩
      · refine Or.inl ⟨(k', v) :: pre, w, post, by rw [hl, List.cons_append], ?_, ?_⟩
        · simp [Ne.symm hk, hpre]
        · rw [updateItems, if_neg hk, hup, List.cons_append]
      · refine Or.inr ⟨by simp [Ne.symm hk, hnot], ?_⟩
        rw [updateItems, if_neg hk, hup, List.cons_append]

theorem update_split (d : OrderedDict κ ν) (k : κ) (f : Option ν → ν) :
    (∃ pre v post, d.items = pre ++ (k, v) :: post ∧ k ∉ pre.map Prod.fst ∧
        d.get? k = some v ∧ (d.update k f).items = pre ++ (k, f (some v)) :: post) ∨
      (d.get? k = none ∧ (d.update k f).items = d.items ++ [(k, f none)]) := by
  rcases updateItems_split k f d.items with ⟨pre, v, post, hl, hpre, hup⟩ | ⟨hnot, hup⟩
  · exact Or.inl ⟨pre, v, post, hl, hpre, get?_eq_some.mpr (by rw [hl]; simp), hup⟩
  · exact Or.inr ⟨get?_eq_none.mpr hnot, hup⟩

/-- An update changes the value of its key alone. -/
theorem get?_update (d : OrderedDict κ ν) (k k' : κ) (f : Option ν → ν) :
    (d.update k f).get? k' = if k' = k then some (f (d.get? k)) else d.get? k' := by
  by_cases hk : k' = k
  · subst hk
    rw [if_pos rfl, get?_eq_some]
    rcases update_split d k' f with ⟨pre, v, post, -, -, hget, hup⟩ | ⟨hget, hup⟩
    · rw [hup, hget]
      simp
    · rw [hup, hget]
      simp
  · rw [if_neg hk]
    apply Option.ext
    intro w
    rw [get?_eq_some, get?_eq_some]
    rcases update_split d k f with ⟨pre, v, post, hl, -, -, hup⟩ | ⟨-, hup⟩
    · rw [hup, hl]
      simp [hk]
    · rw [hup]
      simp [hk]

/-- **A loop of updates.**  Every key sees the elements with that key. -/
theorem get?_foldl_update (key : β → κ) (f : β → Option ν → ν) (k : κ) :
    ∀ (l : List β) (d : OrderedDict κ ν),
      (l.foldl (fun d x => d.update (key x) (f x)) d).get? k =
        (l.filter fun x => decide (key x = k)).foldl (fun o x => some (f x o)) (d.get? k) := by
  intro l
  induction l with
  | nil =>
    intro d
    rfl
  | cons x l ih =>
    intro d
    rw [List.foldl_cons, ih, get?_update]
    by_cases hk : key x = k
    · rw [if_pos hk.symm, List.filter_cons_of_pos (by simpa using hk), List.foldl_cons, hk]
    · rw [if_neg (Ne.symm hk), List.filter_cons_of_neg (by simpa using hk)]

/-- A loop of stores under different keys. -/
theorem get?_foldl_store {key : β → κ} {value : β → ν} {l : List β} (hnodup : (l.map key).Nodup)
    {k : κ} {v : ν} :
    (l.foldl (fun d x => d.update (key x) fun _ => value x) empty).get? k = some v ↔
      ∃ x ∈ l, key x = k ∧ value x = v := by
  have hmem : ∀ x, (x ∈ l.filter fun x => decide (key x = k)) ↔ x ∈ l ∧ key x = k := by
    intro x
    rw [List.mem_filter, decide_eq_true_eq]
  have hsub : ((l.filter fun x => decide (key x = k)).map key).Nodup :=
    hnodup.sublist (List.filter_sublist.map key)
  rw [get?_foldl_update key (fun x _ => value x)]
  simp only [← and_assoc, ← hmem]
  generalize l.filter (fun x => decide (key x = k)) = same at hmem hsub
  rcases same with _ | ⟨x, _ | ⟨y, same⟩⟩
  · simp
  · simp
  · -- two elements with one key
    have hx := ((hmem x).mp List.mem_cons_self).2
    have hy := ((hmem y).mp (List.mem_cons_of_mem _ List.mem_cons_self)).2
    rw [List.map_cons, List.map_cons, hx, hy, List.nodup_cons] at hsub
    exact absurd List.mem_cons_self hsub.1

/-- What all values hold, after an update that adds to one. -/
theorem flatMap_update_perm {d : OrderedDict κ ν} {k : κ} {f : Option ν → ν} {g : ν → List γ}
    {added : List γ} (hf : (g (f (d.get? k))).Perm ((d.get? k).elim [] g ++ added)) :
    ((d.update k f).items.flatMap fun p => g p.2).Perm
      ((d.items.flatMap fun p => g p.2) ++ added) := by
  rcases update_split d k f with ⟨pre, v, post, hl, -, hget, hup⟩ | ⟨hget, hup⟩
  · rw [hget] at hf
    rw [hup, hl]
    simp only [List.flatMap_append, List.flatMap_cons, List.append_assoc]
    refine List.Perm.append_left _ ?_
    refine (hf.append_right _).trans ?_
    rw [Option.elim_some, List.append_assoc]
    exact List.Perm.append_left _ List.perm_append_comm
  · rw [hget] at hf
    rw [hup, List.flatMap_append, List.flatMap_singleton]
    exact List.Perm.append_left _ hf

/-! ## Erasure and selection -/

/-- The items that pass the test. -/
def filter (p : κ × ν → Bool) (d : OrderedDict κ ν) : OrderedDict κ ν :=
  ⟨d.items.filter p, d.nodup.sublist (List.filter_sublist.map Prod.fst)⟩

/-- The dictionary without a key. -/
def erase (d : OrderedDict κ ν) (k : κ) : OrderedDict κ ν :=
  d.filter fun p => decide (p.1 ≠ k)

theorem get?_erase (d : OrderedDict κ ν) (k k' : κ) :
    (d.erase k).get? k' = if k' = k then none else d.get? k' := by
  apply Option.ext
  intro v
  rw [get?_eq_some, erase, filter, List.mem_filter]
  by_cases hk : k' = k
  · simp [hk]
  · rw [if_neg hk, get?_eq_some]
    simp [hk]

/-- What all values hold, without one of them. -/
theorem flatMap_erase_perm {d : OrderedDict κ ν} {k : κ} {v : ν} (h : d.get? k = some v)
    (g : ν → List γ) :
    (d.items.flatMap fun p => g p.2).Perm
      (((d.erase k).items.flatMap fun p => g p.2) ++ g v) := by
  obtain ⟨pre, post, hl⟩ := List.append_of_mem (get?_eq_some.mp h)
  have hnodup := d.nodup
  rw [hl, List.map_append, List.map_cons, List.nodup_append] at hnodup
  obtain ⟨-, hpost, hdisj⟩ := hnodup
  have hkeep : ∀ q ∈ pre ++ post, decide (q.1 ≠ k) := by
    intro q hq
    rw [decide_eq_true_eq]
    rcases List.mem_append.mp hq with hq | hq
    · exact hdisj q.1 (List.mem_map_of_mem hq) k List.mem_cons_self
    · intro hk
      have hmem : q.1 ∈ post.map Prod.fst := List.mem_map_of_mem hq
      rw [hk] at hmem
      exact (List.nodup_cons.mp hpost).1 hmem
  have herase : (d.erase k).items = pre ++ post := by
    show d.items.filter _ = _
    rw [hl, List.filter_append, List.filter_cons_of_neg (by simp), ← List.filter_append]
    exact List.filter_eq_self.mpr hkeep
  rw [herase, hl, List.flatMap_append, List.flatMap_cons, List.flatMap_append, List.append_assoc]
  exact List.Perm.append_left _ List.perm_append_comm

/-- The same items in another order. -/
def reorder (d : OrderedDict κ ν) (l : List (κ × ν)) (h : l.Perm d.items) : OrderedDict κ ν :=
  ⟨l, ((h.map Prod.fst).nodup_iff).mpr d.nodup⟩

/-- The first items. -/
def take (d : OrderedDict κ ν) (n : Nat) : OrderedDict κ ν :=
  ⟨d.items.take n, d.nodup.sublist ((List.take_sublist n d.items).map Prod.fst)⟩

/-- Every value changed. -/
def mapValues (f : ν → γ) (d : OrderedDict κ ν) : OrderedDict κ γ where
  items := d.items.map fun p => (p.1, f p.2)
  nodup := by
    rw [List.map_map]
    exact d.nodup

theorem get?_mapValues (f : ν → γ) (d : OrderedDict κ ν) (k : κ) :
    (d.mapValues f).get? k = (d.get? k).map f := by
  apply Option.ext
  intro w
  rw [get?_eq_some, Option.map_eq_some_iff, mapValues, List.mem_map]
  constructor
  · rintro ⟨⟨k', v⟩, hmem, heq⟩
    obtain ⟨rfl, rfl⟩ := Prod.mk.inj heq
    exact ⟨v, get?_eq_some.mpr hmem, rfl⟩
  · rintro ⟨v, hget, rfl⟩
    exact ⟨(k, v), get?_eq_some.mp hget, rfl⟩

end OrderedDict
