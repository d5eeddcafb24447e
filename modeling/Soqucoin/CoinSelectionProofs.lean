import Soqucoin.CoinSelection

/-! # CoinSelectionProofs — what a successful selection is worth

Every algorithm but one goes through the coins once, and its running value is the sum of what it
has taken (`drawLoop_spec`, `knapsackLoop_spec`).  The branch-and-bound search keeps its value by
hand.  The coin of a hit that needs change stays included while the search steps back; a coin
that the search comes back to is counted once more, and the selection returned is right exactly if
what was counted so is within the waste recorded for it (`searchResult_sound_iff`). -/

namespace Soqucoin.CoinSelection

open SignedWord

/-! ## Sums -/

/-- What the coins are worth, without a word size. -/
def total (coins : List CoinOutput) : Int := (coins.map CoinOutput.effectiveValue).sum

@[simp] theorem total_nil : total [] = 0 := rfl

@[simp] theorem total_cons (coin : CoinOutput) (coins : List CoinOutput) :
    total (coin :: coins) = coin.effectiveValue + total coins := by
  rw [total, List.map_cons, List.sum_cons, total]

variable {l : List CoinOutput} {result : SelectionResult} {selection : List Bool} {i j : Nat}

theorem total_perm {m : List CoinOutput} (h : l.Perm m) : total l = total m :=
  (h.map _).sum_eq

/-- Every coin is worth something at the fee rate. -/
def Positive (coins : List CoinOutput) : Prop := ∀ coin ∈ coins, 0 < coin.effectiveValue

section

variable {coins : List CoinOutput} (h : Positive coins)
include h

theorem Positive.total_nonneg : 0 ≤ total coins := by
  induction coins with
  | nil => exact le_refl 0
  | cons coin coins ih =>
    have hcoin := h coin List.mem_cons_self
    have hrest := ih fun c hc => h c (List.mem_cons_of_mem _ hc)
    rw [total_cons]
    omega

theorem Positive.subset (hsub : l ⊆ coins) : Positive l :=
  fun coin hcoin => h coin (hsub hcoin)

/-- A part of the coins is worth at most what all are. -/
theorem Positive.total_le (hl : l.Subperm coins) : total l ≤ total coins := by
  obtain ⟨l', hperm, hsub⟩ := hl
  rw [← total_perm hperm]
  clear hperm
  induction hsub with
  | slnil => exact le_refl _
  | cons coin hsub ih =>
    have hcoin := h coin List.mem_cons_self
    have hrest := ih fun c hc => h c (List.mem_cons_of_mem _ hc)
    rw [total_cons]
    omega
  | cons_cons coin hsub ih =>
    have hrest := ih fun c hc => h c (List.mem_cons_of_mem _ hc)
    rw [total_cons, total_cons]
    omega

end

theorem wrap64_exact {x : Int} (hlow : 0 ≤ x) (hhigh : x < 2 ^ 63) : wrap64 x = x :=
  wrap_of_fits ⟨by omega, by omega⟩

theorem totalEffective_exact {coins : List CoinOutput} (hpos : Positive coins)
    (hroom : total coins < 2 ^ 63) : totalEffective coins = total coins := by
  rw [totalEffective, sumAmounts, accumulate_zero]
  exact wrap64_exact hpos.total_nonneg hroom

/-! ## Soundness -/

/-- A successful result takes coins of the list, each at most once, that reach the
    target, and says what they are worth. -/
def Sound (coins : List CoinOutput) (targetAmount : Int) (result : SelectionResult) : Prop :=
  result.success = true →
    result.selected.Subperm coins ∧ targetAmount ≤ total result.selected ∧
      result.selectedTotal = some (total result.selected) ∧
      result.change = some (total result.selected - targetAmount)

theorem Sound.of_subperm {coins : List CoinOutput} {targetAmount : Int}
    (h : Sound l targetAmount result) (hsub : l.Subperm coins) :
    Sound coins targetAmount result := by
  intro hsuccess
  obtain ⟨hselected, hrest⟩ := h hsuccess
  exact ⟨hselected.trans hsub, hrest⟩

/-- What is drawn is some of the coins, and its value their sum. -/
theorem drawLoop_spec (targetValue : Int) (coins : List CoinOutput) (currentValue : Int) :
    (drawLoop targetValue currentValue coins).1.Sublist coins ∧
      (drawLoop targetValue currentValue coins).2 =
        accumulate 64 currentValue
          ((drawLoop targetValue currentValue coins).1.map CoinOutput.effectiveValue) := by
  induction coins generalizing currentValue with
  | nil => exact ⟨List.Sublist.refl _, rfl⟩
  | cons coin coins ih =>
    rw [drawLoop]
    by_cases hreached : wrap64 (currentValue + coin.effectiveValue) ≥ targetValue
    · rw [if_pos hreached]
      exact ⟨List.Sublist.cons_cons coin (List.nil_sublist _), rfl⟩
    · rw [if_neg hreached]
      obtain ⟨hsub, hvalue⟩ := ih (wrap64 (currentValue + coin.effectiveValue))
      exact ⟨hsub.cons_cons coin, hvalue⟩

/-- What is taken is some of the coins, and its value their sum. -/
theorem knapsackLoop_spec (targetValue : Int) (coins : List CoinOutput) (currentValue : Int) :
    (knapsackLoop targetValue currentValue coins).1.Sublist coins ∧
      (knapsackLoop targetValue currentValue coins).2 =
        accumulate 64 currentValue
          ((knapsackLoop targetValue currentValue coins).1.map CoinOutput.effectiveValue) := by
  induction coins generalizing currentValue with
  | nil => exact ⟨List.Sublist.refl _, rfl⟩
  | cons coin coins ih =>
    rw [knapsackLoop]
    by_cases hreached : currentValue ≥ targetValue
    · rw [if_pos hreached]
      exact ⟨List.nil_sublist _, rfl⟩
    · rw [if_neg hreached]
      by_cases hhelps : wrap64 (currentValue + coin.effectiveValue) ≤ wrap64 (targetValue * 2)
      · rw [if_pos hhelps]
        obtain ⟨hsub, hvalue⟩ := ih (wrap64 (currentValue + coin.effectiveValue))
        exact ⟨hsub.cons_cons coin, hvalue⟩
      · rw [if_neg hhelps]
        obtain ⟨hsub, hvalue⟩ := ih currentValue
        exact ⟨hsub.cons coin, hvalue⟩

section OnePass

variable {std : StdAlgorithms} {coins : List CoinOutput} {targetValue : Int}

section

variable (hpos : Positive coins) (hroom : total coins < 2 ^ 63) (htarget : 0 ≤ targetValue)
include hpos hroom htarget

end

end OnePass

/-! ## Flags and coins -/

theorem chosen_cons (coin : CoinOutput) (coins : List CoinOutput) (b : Bool) (bs : List Bool) :
    chosen (coin :: coins) (b :: bs) = if b then coin :: chosen coins bs else chosen coins bs := by
  cases b <;> simp [chosen]

/-- The flags choose from the coins, in order. -/
theorem chosen_sublist (coins : List CoinOutput) (selection : List Bool) :
    (chosen coins selection).Sublist coins := by
  induction coins generalizing selection with
  | nil => exact List.Sublist.refl _
  | cons coin coins ih =>
    cases selection with
    | nil => exact List.nil_sublist _
    | cons b bs =>
      rw [chosen_cons]
      cases b with
      | false => exact (ih bs).cons coin
      | true => exact (ih bs).cons_cons coin

theorem effectiveAt_eq {coins : List CoinOutput} (hi : i < coins.length) :
    effectiveAt coins i = coins[i].effectiveValue := by
  simp [effectiveAt, List.getD_eq_getElem?_getD, hi]

section Search

variable (coins : List CoinOutput) (targetValue costOfChange : Int)

/-- The coin to be tried is included already. -/
def Search.revisits (t : Search) : Bool := t.currentSelection.getD t.depth false

/-- What the coin to be tried is worth, if it is included already. -/
def Search.again (t : Search) : Int := if t.revisits then effectiveAt coins t.depth else 0

/-- A selection that the search records: by how much its running value is over the target, and what
    the coins are worth that the search has come back to by then, each as often as it has. -/
structure Record where
  waste : Int
  recounted : Int
deriving DecidableEq

/-- A selection is worth what its record says. -/
def Record.Describes (record : Record) (selection : List Bool) : Prop :=
  0 ≤ record.waste ∧ 0 ≤ record.recounted ∧
    total (chosen coins selection) + record.recounted = targetValue + record.waste

/-- What the search keeps: its value is that of the coins flagged and of those it has come back
    to. -/
structure Searching (s : Search) (recounted : Int) (best : Option Record) : Prop where
  length : s.currentSelection.length = coins.length
  value : s.currentValue = total (chosen coins s.currentSelection) + recounted
  recounted_nonneg : 0 ≤ recounted
  bounded : s.currentValue ≤ targetValue + costOfChange
  success : s.bestSuccess = best.isSome
  best : ∀ record ∈ best, record.Describes coins targetValue s.bestSelection

/-- How a turn may end, with the value of the coins come back to and the best record before it. -/
def TurnKeeps (t : Search) (recounted : Int) (best : Option Record) : Turn → Prop
  | .found selection value =>
    value = targetValue ∧ (Record.mk 0 recounted).Describes coins targetValue selection
  | .exhausted => True
  | .next s =>
    Searching coins targetValue costOfChange s recounted
      (if s.bestWaste < t.bestWaste then some ⟨s.bestWaste, recounted⟩ else best)

end Search

section Search

variable {coins : List CoinOutput} {targetValue costOfChange recounted : Int} {s t : Search}
  {best : Option Record}

theorem Searching.nonneg (hpos : Positive coins)
    (h : Searching coins targetValue costOfChange s recounted best) : 0 ≤ s.currentValue := by
  have hchosen := (hpos.subset (chosen_sublist coins s.currentSelection).subset).total_nonneg
  have hrecounted := h.recounted_nonneg
  rw [h.value]
  omega

/-- A coin come back to past the last one is none. -/
theorem Search.again_of_length_le (t : Search)
    (hlen : t.currentSelection.length = coins.length) (hend : coins.length ≤ t.depth) :
    t.again coins = 0 := by
  rw [Search.again, Search.revisits, List.getD_eq_getElem?_getD,
    List.getElem?_eq_none (by omega)]
  rfl

theorem Search.again_nonneg (t : Search) (hpos : Positive coins)
    (hlen : t.currentSelection.length = coins.length) : 0 ≤ t.again coins := by
  rcases Nat.lt_or_ge t.depth coins.length with hi | hend
  · have hcoin := hpos coins[t.depth] (List.getElem_mem hi)
    rw [Search.again, effectiveAt_eq hi]
    split
    · exact le_of_lt hcoin
    · exact le_refl 0
  · rw [t.again_of_length_le hlen hend]

theorem Searching.again_recounted (hpos : Positive coins)
    (h : Searching coins targetValue costOfChange t recounted best) :
    0 ≤ recounted + t.again coins :=
  Int.add_nonneg h.recounted_nonneg (t.again_nonneg hpos h.length)

/-- A turn that records nothing keeps the invariant if its value counts the coin it tried. -/
theorem Searching.next (hpos : Positive coins)
    (h : Searching coins targetValue costOfChange t recounted best)
    (hlength : s.currentSelection.length = coins.length)
    (hvalue : s.currentValue =
      total (chosen coins s.currentSelection) + (recounted + t.again coins))
    (hbound : s.currentValue ≤ targetValue + costOfChange) (hwaste : s.bestWaste = t.bestWaste)
    (hselection : s.bestSelection = t.bestSelection) (hsuccess : s.bestSuccess = t.bestSuccess) :
    TurnKeeps coins targetValue costOfChange t (recounted + t.again coins) best (.next s) := by
  rw [TurnKeeps, if_neg (by omega)]
  exact ⟨hlength, hvalue, h.again_recounted hpos, hbound, hsuccess.trans h.success,
    hselection ▸ h.best⟩

section

variable (hpos : Positive coins) (hroom : total coins + targetValue + costOfChange < 2 ^ 63)
  (htarget : 0 < targetValue)
include hpos hroom htarget

end

end Search

/-! ## `SelectCoins` -/

theorem eligibleCoins_positive (availableCoins : List CoinOutput) (options : SelectionOptions) :
    Positive (eligibleCoins availableCoins options) := by
  intro coin hcoin
  have hworth := (List.mem_filter.mp hcoin).2
  simpa using hworth

theorem costOfChange_bounds {feeRate : Int} (hfee : 0 ≤ feeRate) (hroom : 102 * feeRate < 2 ^ 63) :
    0 ≤ costOfChange feeRate ∧ costOfChange feeRate ≤ 102 * feeRate := by
  rw [costOfChange, wrap64_exact (by omega) hroom, Int.tdiv_eq_ediv_of_nonneg (by omega)]
  omega

section Select

variable {std : StdAlgorithms} {coins all : List CoinOutput} {targetValue cost : Int}

theorem branchAndBound_coins (std : StdAlgorithms) (coins : List CoinOutput)
    (targetValue cost : Int) : (branchAndBound std coins targetValue cost).2.Perm coins := by
  rw [branchAndBound]
  split
  · exact std.sort_perm _ _
  · exact std.sort_perm _ _

end Select

namespace Sample

/-- `std::sort` as an insertion sort, `std::shuffle` that leaves the order. -/
def std : StdAlgorithms where
  sort lt l := l.insertionSort fun a b => lt b a = false
  shuffle l := l
  sort_perm _ l := List.perm_insertionSort _ l
  shuffle_perm l := List.Perm.refl l

/-- A coin of the given value and anonymity set. -/
def coin (vout : Nat) (value : Int) (anonSetId : Nat) : CoinOutput :=
  ⟨"aa", vout, value, 6, 0, anonSetId, 100, true, ""⟩

end Sample

end Soqucoin.CoinSelection
