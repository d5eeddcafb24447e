import Soqucoin.CoinSelectionProofs

/-! # CoinOptionsProofs — which options a selection keeps

The filter enforces the confirmations and the dust threshold, and an asset where one is named.
Nothing limits the number of inputs, keeps anonymity sets apart or, for an empty `selectAssetId`,
leaves out the coins of assets: that is kept for every target exactly when all eligible coins
together keep it (`selectCoins_honours_iff`), since a target can ask for all of them. -/

namespace Soqucoin.CoinSelection

/-- The selection keeps to the options it was made with. -/
structure Honours (options : SelectionOptions) (selected : List CoinOutput) : Prop where
  asset : ∀ coin ∈ selected, coin.assetId = options.selectAssetId
  confirmed : ∀ coin ∈ selected, options.minConfirmations ≤ coin.confirmations
  notDust : ∀ coin ∈ selected, options.dustThreshold ≤ coin.value
  inputs : selected.length ≤ options.maxInputs
  anonSets : options.avoidMixingAnonSets = true →
    ∀ coin ∈ selected, ∀ coin' ∈ selected, coin.anonSetId = coin'.anonSetId

variable {options : SelectionOptions} {algorithm : SelectionAlgorithm} {cost currentValue : Int}
  {availableCoins : List CoinOutput}

theorem Honours.of_subperm {l m : List CoinOutput} (h : Honours options m) (hsub : l.Subperm m) :
    Honours options l :=
  ⟨fun c hc => h.asset c (hsub.subset hc), fun c hc => h.confirmed c (hsub.subset hc),
    fun c hc => h.notDust c (hsub.subset hc), le_trans hsub.length_le h.inputs,
    fun havoid c hc d hd => h.anonSets havoid c (hsub.subset hc) d (hsub.subset hd)⟩

/-! ## Selected coins are eligible -/

section Subperm

variable {std : StdAlgorithms} {coins : List CoinOutput} {targetValue : Int}

theorem finish_subperm {drawn failed : List CoinOutput} (hdrawn : drawn.Subperm coins)
    (hfailed : failed.Subperm coins) :
    (finish algorithm targetValue drawn failed currentValue).selected.Subperm coins := by
  rw [finish]
  split
  · exact hdrawn
  · exact hfailed

theorem drawInOrder_subperm {ordered : List CoinOutput} (hperm : ordered.Perm coins) :
    (drawInOrder algorithm ordered targetValue).selected.Subperm coins := by
  have hsub := (drawLoop_spec targetValue ordered 0).1.subperm.trans hperm.subperm
  exact finish_subperm hsub hsub

theorem knapsack_subperm : (knapsack std coins targetValue).selected.Subperm coins := by
  have hsub := (knapsackLoop_spec targetValue (std.sort byEffectiveValueDescending coins) 0).1
  exact finish_subperm
    (hsub.subperm.trans (std.sort_perm byEffectiveValueDescending coins).subperm)
    (List.nil_sublist _).subperm

/-- The search selects from the coins, each at most once. -/
theorem searchResult_subperm {result : SelectionResult}
    (hresult : searchResult coins targetValue cost = some result) :
    result.selected.Subperm coins := by
  rw [searchResult] at hresult
  cases hloop : searchLoop coins targetValue cost 100000 (startSearch coins) with
  | inl hit =>
    rw [hloop] at hresult
    cases hresult
    exact (chosen_sublist _ _).subperm
  | inr s =>
    rw [hloop] at hresult
    dsimp only at hresult
    split at hresult
    · cases hresult
      exact (chosen_sublist _ _).subperm
    · cases hresult

theorem branchAndBound_subperm {result : SelectionResult}
    (hresult : (branchAndBound std coins targetValue cost).1 = some result) :
    result.selected.Subperm coins := by
  rw [branchAndBound] at hresult
  split at hresult
  · cases hresult
  · exact (searchResult_subperm hresult).trans (std.sort_perm _ _).subperm

theorem fallback_subperm {sorted : List CoinOutput} (hperm : sorted.Perm coins) :
    (if (knapsack std sorted targetValue).success then knapsack std sorted targetValue
      else fifo std sorted targetValue).selected.Subperm coins := by
  split
  · exact knapsack_subperm.trans hperm.subperm
  · exact (drawInOrder_subperm (std.sort_perm _ sorted)).trans hperm.subperm

/-- So does every strategy of `AUTOMATIC`. -/
theorem selectAutomatic_subperm :
    (selectAutomatic std coins targetValue options).selected.Subperm coins := by
  rw [selectAutomatic]
  split
  · exact drawInOrder_subperm (std.sort_perm _ coins)
  · split
    · exact drawInOrder_subperm (std.shuffle_perm coins)
    · have hperm := branchAndBound_coins std coins targetValue (costOfChange options.feeRate)
      dsimp only
      cases hbnb : (branchAndBound std coins targetValue (costOfChange options.feeRate)).1 with
      | none => exact fallback_subperm hperm
      | some result =>
        dsimp only
        split
        · exact branchAndBound_subperm hbnb
        · exact fallback_subperm hperm

/-- A selection is made from the eligible coins, each at most once. -/
theorem selectCoins_subperm (std : StdAlgorithms) (availableCoins : List CoinOutput)
    (targetAmount : Int) (options : SelectionOptions) :
    (selectCoins std availableCoins targetAmount options).selected.Subperm
      (eligibleCoins availableCoins options) := by
  have hnone : ∀ algorithm, (noSelection targetAmount algorithm).selected.Subperm
      (eligibleCoins availableCoins options) :=
    fun _ => (List.nil_sublist _).subperm
  rw [selectCoins]
  split
  · exact hnone _
  · split
    · exact hnone _
    · cases options.algorithm with
      | AUTOMATIC => exact selectAutomatic_subperm
      | BRANCH_AND_BOUND =>
        dsimp only
        cases hbnb : (branchAndBound std (eligibleCoins availableCoins options) targetAmount
          (costOfChange options.feeRate)).1 with
        | none => exact hnone _
        | some result => exact branchAndBound_subperm hbnb
      | SINGLE_RANDOM => exact drawInOrder_subperm (std.shuffle_perm _)
      | KNAPSACK => exact knapsack_subperm
      | FIFO => exact drawInOrder_subperm (std.sort_perm _ _)
      | LARGEST_FIRST => exact drawInOrder_subperm (std.sort_perm _ _)

end Subperm

/-! ## A target that asks for every coin -/

/-- A selection of all the coins. -/
def TakesAll (coins : List CoinOutput) (result : SelectionResult) : Prop :=
  result.success = true ∧ result.selected.Perm coins

theorem Positive.total_pos {coins : List CoinOutput} (h : Positive coins) (hne : coins ≠ []) :
    0 < total coins := by
  cases coins with
  | nil => exact absurd rfl hne
  | cons coin coins =>
    have hcoin := h coin List.mem_cons_self
    have hrest := (h.subset (List.subset_cons_self coin coins)).total_nonneg
    rw [total_cons]
    omega

/-- A target of all the coins takes them all. -/
theorem drawLoop_all {coins : List CoinOutput} {targetValue : Int} (hne : coins ≠ [])
    (hpos : Positive coins) (hcurrent : 0 ≤ currentValue)
    (htarget : targetValue = currentValue + total coins) (hroom : targetValue < 2 ^ 63) :
    drawLoop targetValue currentValue coins = (coins, targetValue) := by
  induction coins generalizing currentValue with
  | nil => exact absurd rfl hne
  | cons coin coins ih =>
    have hcoin := hpos coin List.mem_cons_self
    have hpos' : Positive coins := hpos.subset (List.subset_cons_self coin coins)
    have hrest := hpos'.total_nonneg
    rw [total_cons] at htarget
    rw [drawLoop, wrap64_exact (by omega) (by omega)]
    by_cases hlast : coins = []
    · subst hlast
      rw [total_nil] at htarget
      rw [if_pos (by omega)]
      exact Prod.ext rfl (by simp only; omega)
    · have hmore := hpos'.total_pos hlast
      rw [if_neg (by omega), ih hlast hpos' (by omega) (by omega)]

/-- A target of all the coins takes them all. -/
theorem knapsackLoop_all {coins : List CoinOutput} {targetValue : Int} (hpos : Positive coins)
    (hcurrent : 0 ≤ currentValue) (htarget : targetValue = currentValue + total coins)
    (hroom : 2 * targetValue < 2 ^ 63) :
    knapsackLoop targetValue currentValue coins = (coins, targetValue) := by
  induction coins generalizing currentValue with
  | nil =>
    rw [total_nil, Int.add_zero] at htarget
    rw [knapsackLoop, htarget]
  | cons coin coins ih =>
    have hcoin := hpos coin List.mem_cons_self
    have hpos' : Positive coins := hpos.subset (List.subset_cons_self coin coins)
    have hrest := hpos'.total_nonneg
    rw [total_cons] at htarget
    rw [knapsackLoop, if_neg (by omega), wrap64_exact (by omega) (by omega),
      wrap64_exact (by omega) (by omega), if_pos (by omega),
      ih hpos' (by omega) (by omega)]

/-- The search state with the first coins included. -/
def allIncluded (coins : List CoinOutput) (k : Nat) : Search :=
  { startSearch coins with
    currentSelection := List.replicate k true ++ List.replicate (coins.length - k) false,
    currentValue := total (coins.take k), depth := k }

theorem chosen_replicate_true (coins : List CoinOutput) :
    chosen coins (List.replicate coins.length true) = coins := by
  induction coins with
  | nil => rfl
  | cons coin coins ih =>
    rw [List.length_cons, List.replicate_succ, chosen_cons, if_pos rfl, ih]

theorem total_take_succ {coins : List CoinOutput} {k : Nat} (hk : k < coins.length) :
    total (coins.take (k + 1)) = total (coins.take k) + coins[k].effectiveValue := by
  rw [List.take_succ_eq_append_getElem hk, total, List.map_append, List.sum_append]
  simp [total]

theorem set_next (k m : Nat) :
    (List.replicate k true ++ List.replicate (m + 1) false).set k true =
      List.replicate (k + 1) true ++ List.replicate m false := by
  rw [List.set_append_right _ _ (by simp), List.length_replicate, Nat.sub_self, List.replicate_succ,
    List.set_cons_zero, List.replicate_succ', List.append_assoc, List.singleton_append]

section

variable {coins : List CoinOutput} (hpos : Positive coins) (hcost : 0 ≤ cost)
  (hroom : 2 * total coins + cost < 2 ^ 63)
include hpos hcost hroom

/-- With a target of all the coins, a turn includes the next one. -/
theorem includeTurn_all {k : Nat} (hk : k < coins.length) :
    includeTurn coins (total coins) cost (allIncluded coins k) =
      if k + 1 = coins.length then .found (List.replicate coins.length true) (total coins)
      else .next (allIncluded coins (k + 1)) := by
  have hstep := total_take_succ hk
  have hprefix := (hpos.subset (List.take_sublist k coins).subset).total_nonneg
  have hprefix' := hpos.total_le (List.take_sublist (k + 1) coins).subperm
  have hcoin := hpos coins[k] (List.getElem_mem hk)
  have hset : (allIncluded coins k).currentSelection.set k true =
      List.replicate (k + 1) true ++ List.replicate (coins.length - (k + 1)) false := by
    rw [← set_next, show coins.length - (k + 1) + 1 = coins.length - k by omega]
    rfl
  have hdepth : (allIncluded coins k).depth = k := rfl
  have hvalue : (allIncluded coins k).currentValue = total (coins.take k) := rfl
  rw [includeTurn, hdepth, hvalue, if_neg (by omega), effectiveAt_eq hk, ← hstep,
    wrap64_exact (by omega) (by omega), wrap64_exact (by omega) (by omega), if_neg (by omega)]
  dsimp only
  rw [hset]
  by_cases hlast : k + 1 = coins.length
  · have hall : total (coins.take (k + 1)) = total coins := by
      rw [List.take_of_length_le (by omega)]
    rw [if_pos hlast, hall, if_pos (le_refl _), Int.sub_self]
    rw [if_pos (wrap64_exact (le_refl _) (by decide)), hlast, Nat.sub_self, List.replicate_zero,
      List.append_nil]
  · have hmore : total (coins.take (k + 1)) < total coins := by
      have hsplit : total coins = total (coins.take (k + 1)) + total (coins.drop (k + 1)) := by
        rw [total, total, total, ← List.sum_append, ← List.map_append, List.take_append_drop]
      have hdrop := (hpos.subset (List.drop_sublist (k + 1) coins).subset).total_pos
        (by rw [ne_eq, List.drop_eq_nil_iff]; omega)
      omega
    rw [if_neg hlast, if_neg (by omega)]
    rfl

/-- So the search includes coin after coin and finds the exact sum. -/
theorem searchLoop_all (iterations k : Nat) (hk : k < coins.length)
    (hfuel : coins.length - k ≤ iterations) :
    searchLoop coins (total coins) cost iterations (allIncluded coins k) =
      .inl (List.replicate coins.length true, total coins) := by
  induction iterations generalizing k with
  | zero => omega
  | succ iterations ih =>
    have hturn : turn coins (total coins) cost (allIncluded coins k) =
        includeTurn coins (total coins) cost (allIncluded coins k) := rfl
    rw [searchLoop, hturn, includeTurn_all hpos hcost hroom hk]
    by_cases hlast : k + 1 = coins.length
    · rw [if_pos hlast]
    · rw [if_neg hlast]
      exact ih (k + 1) (by omega) (by omega)

end

/-- The search for the value of all coins takes them all. -/
theorem searchResult_all {coins : List CoinOutput} (hpos : Positive coins) (hne : coins ≠ [])
    (hcost : 0 ≤ cost) (hroom : 2 * total coins + cost < 2 ^ 63) (hfuel : coins.length ≤ 100000) :
    ∃ result, searchResult coins (total coins) cost = some result ∧ result.success ∧
      result.selected = coins := by
  have hstart : startSearch coins = allIncluded coins 0 := by
    simp [allIncluded, startSearch]
  have hloop := searchLoop_all hpos hcost hroom 100000 0 (List.length_pos_iff.mpr hne) hfuel
  rw [searchResult, hstart, hloop]
  exact ⟨_, rfl, rfl, chosen_replicate_true coins⟩

section TakesAll

variable {std : StdAlgorithms} {coins : List CoinOutput}

/-- A draw for the value of all coins takes them all. -/
theorem drawInOrder_all {ordered : List CoinOutput} (hpos : Positive coins) (hne : coins ≠ [])
    (hroom : total coins < 2 ^ 63) (hperm : ordered.Perm coins) :
    TakesAll coins (drawInOrder algorithm ordered (total coins)) := by
  have hdraw : drawLoop (total coins) 0 ordered = (ordered, total coins) := by
    apply drawLoop_all _ (hpos.subset hperm.subset) (le_refl 0) _ hroom
    · intro hnil
      rw [hnil] at hperm
      exact hne hperm.symm.eq_nil
    · rw [total_perm hperm, Int.zero_add]
  rw [drawInOrder, hdraw, finish, if_pos (le_refl _)]
  exact ⟨rfl, hperm⟩

/-- So does the knapsack. -/
theorem knapsack_all (hpos : Positive coins) (hroom : 2 * total coins < 2 ^ 63) :
    TakesAll coins (knapsack std coins (total coins)) := by
  have hperm := std.sort_perm byEffectiveValueDescending coins
  have htake : knapsackLoop (total coins) 0 (std.sort byEffectiveValueDescending coins) =
      (std.sort byEffectiveValueDescending coins, total coins) := by
    apply knapsackLoop_all (hpos.subset hperm.subset) (le_refl 0) _ hroom
    rw [total_perm hperm, Int.zero_add]
  rw [knapsack, htake, finish, if_pos (le_refl _)]
  exact ⟨rfl, hperm⟩

/-- Branch and bound takes all coins for their sum. -/
theorem branchAndBound_all (hpos : Positive coins) (hne : coins ≠ []) (hcost : 0 ≤ cost)
    (hroom : 2 * total coins + cost < 2 ^ 63) (hfuel : coins.length ≤ 100000) :
    ∃ result, (branchAndBound std coins (total coins) cost).1 = some result ∧
      TakesAll coins result := by
  have hperm := std.sort_perm byEffectiveValueDescending coins
  have hpos' : Positive (std.sort byEffectiveValueDescending coins) := hpos.subset hperm.subset
  have htotal := total_perm hperm
  have hnonneg := hpos.total_nonneg
  have hne' : std.sort byEffectiveValueDescending coins ≠ [] := by
    intro hnil
    rw [hnil] at hperm
    exact hne hperm.symm.eq_nil
  obtain ⟨result, hresult, hsuccess, hselected⟩ := searchResult_all hpos' hne' hcost
    (by rwa [htotal]) (by rwa [hperm.length_eq])
  rw [htotal] at hresult
  rw [branchAndBound, totalEffective_exact hpos' (by omega), if_neg (by omega)]
  exact ⟨result, hresult, hsuccess, hselected ▸ hperm⟩

/-- Whatever the options, a target of all eligible coins is met with all of them. -/
theorem selectCoins_all (hne : eligibleCoins availableCoins options ≠ [])
    (hfee : 0 ≤ options.feeRate)
    (hroom : 2 * total (eligibleCoins availableCoins options) + 102 * options.feeRate < 2 ^ 63)
    (hfuel : (eligibleCoins availableCoins options).length ≤ 100000) :
    TakesAll (eligibleCoins availableCoins options)
      (selectCoins std availableCoins (total (eligibleCoins availableCoins options)) options) := by
  have hpos := eligibleCoins_positive availableCoins options
  have hnonneg := hpos.total_nonneg
  obtain ⟨hcost, hcost'⟩ := costOfChange_bounds hfee (by omega)
  have hroom' : total (eligibleCoins availableCoins options) < 2 ^ 63 := by omega
  obtain ⟨result, hresult, hall⟩ : ∃ result, (branchAndBound std
      (eligibleCoins availableCoins options) (total (eligibleCoins availableCoins options))
      (costOfChange options.feeRate)).1 = some result ∧
      TakesAll (eligibleCoins availableCoins options) result :=
    branchAndBound_all hpos hne hcost (by omega) hfuel
  rw [selectCoins, if_neg hne, totalEffective_exact hpos hroom', if_neg (lt_irrefl _)]
  cases options.algorithm with
  | AUTOMATIC =>
    dsimp only
    rw [selectAutomatic]
    split
    · exact drawInOrder_all hpos hne hroom' (std.sort_perm _ _)
    · split
      · exact drawInOrder_all hpos hne hroom' (std.shuffle_perm _)
      · dsimp only
        rw [hresult]
        dsimp only
        rw [if_pos hall.1]
        exact hall
  | BRANCH_AND_BOUND =>
    dsimp only
    rw [hresult]
    exact hall
  | SINGLE_RANDOM => exact drawInOrder_all hpos hne hroom' (std.shuffle_perm _)
  | KNAPSACK => exact knapsack_all hpos (by omega)
  | FIFO => exact drawInOrder_all hpos hne hroom' (std.sort_perm _ _)
  | LARGEST_FIRST => exact drawInOrder_all hpos hne hroom' (std.sort_perm _ _)

end TakesAll

/-! ## Options kept for every target -/

/-- An eligible coin has passed the filter. -/
theorem eligibleCoins_filtered {coin : CoinOutput}
    (h : coin ∈ eligibleCoins availableCoins options) :
    options.minConfirmations ≤ coin.confirmations ∧ options.dustThreshold ≤ coin.value ∧
      (options.selectAssetId ≠ "" → coin.assetId = options.selectAssetId) := by
  obtain ⟨original, horiginal, rfl⟩ := List.mem_map.mp (List.mem_filter.mp h).1
  have hkept := (List.mem_filter.mp horiginal).2
  simp only [Bool.and_eq_true, Bool.not_eq_true', decide_eq_false_iff_not, not_lt,
    Bool.and_eq_false_iff, ne_eq, not_not] at hkept
  obtain ⟨⟨hconfirmed, hasset⟩, hdust⟩ := hkept
  exact ⟨hconfirmed, hdust, fun hnamed => hasset.resolve_left hnamed⟩

/-- What the filter leaves open, asked of all eligible coins together. -/
structure Uniform (options : SelectionOptions) (coins : List CoinOutput) : Prop where
  native : options.selectAssetId = "" → ∀ coin ∈ coins, coin.assetId = ""
  inputs : coins.length ≤ options.maxInputs
  anonSets : options.avoidMixingAnonSets = true →
    ∀ coin ∈ coins, ∀ coin' ∈ coins, coin.anonSetId = coin'.anonSetId

/-- All eligible coins together keep to the options exactly if they are uniform. -/
theorem honours_iff_uniform :
    Honours options (eligibleCoins availableCoins options) ↔
      Uniform options (eligibleCoins availableCoins options) := by
  constructor
  · intro h
    exact ⟨fun hempty coin hcoin => (h.asset coin hcoin).trans hempty, h.inputs, h.anonSets⟩
  · intro h
    refine ⟨fun coin hcoin => ?_, fun coin hcoin => (eligibleCoins_filtered hcoin).1,
      fun coin hcoin => (eligibleCoins_filtered hcoin).2.1, h.inputs, h.anonSets⟩
    by_cases hempty : options.selectAssetId = ""
    · rw [h.native hempty coin hcoin, hempty]
    · exact (eligibleCoins_filtered hcoin).2.2 hempty

/-- **The options of a selection hold where all eligible coins keep to them.** If they do, every
    selection does; and if every selection for every target does, so do they, since a target can ask
    for all of them. -/
theorem selectCoins_honours_iff (std : StdAlgorithms) (availableCoins : List CoinOutput)
    (options : SelectionOptions) :
    (Uniform options (eligibleCoins availableCoins options) → ∀ targetAmount,
      (selectCoins std availableCoins targetAmount options).success = true →
        Honours options (selectCoins std availableCoins targetAmount options).selected) ∧
    (0 ≤ options.feeRate →
      2 * total (eligibleCoins availableCoins options) + 102 * options.feeRate < 2 ^ 63 →
      (eligibleCoins availableCoins options).length ≤ 100000 →
      (∀ targetAmount, 0 < targetAmount →
        (selectCoins std availableCoins targetAmount options).success = true →
          Honours options (selectCoins std availableCoins targetAmount options).selected) →
      Uniform options (eligibleCoins availableCoins options)) := by
  constructor
  · intro huniform targetAmount _
    exact (honours_iff_uniform.mpr huniform).of_subperm
      (selectCoins_subperm std availableCoins targetAmount options)
  · intro hfee hroom hfuel hkept
    by_cases hne : eligibleCoins availableCoins options = []
    · rw [hne]
      exact ⟨fun _ _ h => absurd h List.not_mem_nil, Nat.zero_le _,
        fun _ _ h => absurd h List.not_mem_nil⟩
    · obtain ⟨hsuccess, hperm⟩ := selectCoins_all hne hfee hroom hfuel
      have hpos := (eligibleCoins_positive availableCoins options).total_pos hne
      have hall := hkept _ hpos hsuccess
      exact honours_iff_uniform.mp (hall.of_subperm hperm.symm.subperm)

namespace Sample

/-- Two coins of one anonymity set, and one of an asset that the options leave out. -/
def oneSet : List CoinOutput :=
  [coin 0 35000 1, coin 1 36000 1, { coin 2 90000 2 with assetId := "BTCSOQ" }]

/-- Two coins of different anonymity sets. -/
def twoSets : List CoinOutput := [coin 0 35000 1, coin 1 36000 2]

/-- Two inputs at most, of one anonymity set. -/
def apart : SelectionOptions :=
  { minConfirmations := 3, maxInputs := 2, avoidMixingAnonSets := true }

/-- The same options for coins of an asset. -/
def usdsoqApart : SelectionOptions := { apart with selectAssetId := "USDSOQ" }

/-- The native coins of a purse, as coins of the asset. -/
def inUsdsoq (coins : List CoinOutput) : List CoinOutput :=
  coins.map fun coin => if coin.assetId = "" then { coin with assetId := "USDSOQ" } else coin

/-- Options that hold for every payment out of the first purse, and fail for some payment out of
    the second, whose coins are of two anonymity sets. -/
theorem selectCoins_honours_iff_sets :
    (∀ targetAmount, (selectCoins std (inUsdsoq oneSet) targetAmount usdsoqApart).success = true →
      Honours usdsoqApart (selectCoins std (inUsdsoq oneSet) targetAmount usdsoqApart).selected) ∧
    (selectCoins std (inUsdsoq oneSet) 15000 usdsoqApart).success = true ∧
    ¬ ∀ targetAmount, 0 < targetAmount →
      (selectCoins std (inUsdsoq twoSets) targetAmount usdsoqApart).success = true →
      Honours usdsoqApart
        (selectCoins std (inUsdsoq twoSets) targetAmount usdsoqApart).selected := by
  refine ⟨(selectCoins_honours_iff std (inUsdsoq oneSet) usdsoqApart).1 ?_, by decide +kernel, ?_⟩
  · exact ⟨fun hnative => absurd hnative (by decide), by decide +kernel,
      fun _ => by decide +kernel⟩
  · intro hkept
    have huniform := (selectCoins_honours_iff std (inUsdsoq twoSets) usdsoqApart).2 (by decide)
      (by decide +kernel) (by decide +kernel) hkept
    exact absurd (huniform.anonSets rfl) (by decide +kernel)

/-- Two coins of different anonymity sets for a payment that needs both, two inputs
    where one is allowed, and a coin of an asset for a payment in the native one. -/
theorem options_not_kept :
    (selectPrivate std [coin 0 35000 1, coin 1 35000 2] 15000).success = true ∧
      meetsPrivacyRequirements (selectPrivate std [coin 0 35000 1, coin 1 35000 2] 15000).selected
        { avoidMixingAnonSets := true } = false ∧
    (selectCoins std [coin 0 35000 1, coin 1 35000 1] 15000 { maxInputs := 1 }).success = true ∧
      (selectCoins std [coin 0 35000 1, coin 1 35000 1] 15000
        { maxInputs := 1 }).selected.length = 2 ∧
    (selectCoins std [{ coin 0 35000 1 with assetId := "USDSOQ" }] 10000 {}).success = true ∧
      (selectCoins std [{ coin 0 35000 1 with assetId := "USDSOQ" }] 10000
        {}).selected.map CoinOutput.assetId = ["USDSOQ"] := by
  decide +kernel

end Sample

end Soqucoin.CoinSelection
