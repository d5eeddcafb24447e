import Mathlib.Data.List.Sort
import Soqucoin.Primitives

/-! # CoinSelection — which coins a wallet spends

`PQCoinSelector` of `wallet/pqwallet/pqcoinselection.cpp`: the filter, the five selection
algorithms and `SelectCoins`, which runs one of them (or, for `AUTOMATIC`, several in turn).
64-bit sums wrap; a field that a function leaves unset is `none`. -/

namespace Soqucoin.CoinSelection

/-- A coin of the wallet, with the value it is worth at the fee rate. -/
structure CoinOutput where
  txid : String
  vout : Nat
  value : Int
  confirmations : Nat
  effectiveValue : Int
  anonSetId : Nat
  blockHeight : Nat
  isPrivate : Bool
  assetId : String
deriving DecidableEq

/-- The strategies a caller can ask for. -/
inductive SelectionAlgorithm where
  | AUTOMATIC
  | BRANCH_AND_BOUND
  | SINGLE_RANDOM
  | KNAPSACK
  | FIFO
  | LARGEST_FIRST
deriving DecidableEq

/-- The purposes a caller can name. -/
inductive SelectionMode where
  | NORMAL
  | CHANNEL_FUNDING
  | PRIVACY_OPTIMAL
  | FEE_OPTIMAL
  | CONSOLIDATE
deriving DecidableEq

/-- What a selection returns; sums that overflow have no value. -/
structure SelectionResult where
  success : Bool
  selected : List CoinOutput
  selectedTotal : Option Int
  targetAmount : Int
  fee : Option Int
  change : Option Int
  algorithmUsed : SelectionAlgorithm
deriving DecidableEq

/-- The options that selection reads or promises to keep. -/
structure SelectionOptions where
  algorithm : SelectionAlgorithm := .AUTOMATIC
  mode : SelectionMode := .NORMAL
  feeRate : Int := 10000
  dustThreshold : Int := 546
  maxInputs : Nat := 500
  minConfirmations : Nat := 1
  preferPrivateOutputs : Bool := false
  avoidMixingAnonSets : Bool := true
  selectAssetId : String := ""
deriving DecidableEq

/-- `std::sort` and `std::shuffle`: of either it matters only that it rearranges. -/
structure StdAlgorithms where
  sort : (CoinOutput → CoinOutput → Bool) → List CoinOutput → List CoinOutput
  shuffle : List CoinOutput → List CoinOutput
  sort_perm : ∀ lt l, (sort lt l).Perm l
  shuffle_perm : ∀ l, (shuffle l).Perm l

/-! ## Values and filters -/

/-- `CalculateEffectiveValue`: the product is unsigned, the difference signed. -/
def calculateEffectiveValue (coin : CoinOutput) (feeRate : Int) : Int :=
  let costToSpend := 2500 * feeRate % 2 ^ 64 / 1000
  wrap64 (coin.value - costToSpend)

/-- `FilterCoins`: the coins that the options admit. -/
def filterCoins (coins : List CoinOutput) (options : SelectionOptions) : List CoinOutput :=
  coins.filter fun coin =>
    !(coin.confirmations < options.minConfirmations) &&
    !(options.selectAssetId ≠ "" && coin.assetId ≠ options.selectAssetId) &&
    !(coin.value < options.dustThreshold)

/-- `MeetsPrivacyRequirements`: all coins are of one anonymity set, where that is asked for. -/
def meetsPrivacyRequirements (selected : List CoinOutput) (options : SelectionOptions) : Bool :=
  if !options.avoidMixingAnonSets then true
  else
    match selected with
    | [] => true
    | first :: rest => rest.all fun coin => coin.anonSetId = first.anonSetId

/-- The sum of the effective values, in a 64-bit word. -/
def totalEffective (coins : List CoinOutput) : Int :=
  sumAmounts (coins.map CoinOutput.effectiveValue)

/-! ## Algorithms that go through the coins once -/

/-- Coins are taken in order until the target is reached. -/
def drawLoop (targetValue : Int) : Int → List CoinOutput → List CoinOutput × Int
  | currentValue, [] => ([], currentValue)
  | currentValue, coin :: rest =>
    let currentValue := wrap64 (currentValue + coin.effectiveValue)
    if currentValue ≥ targetValue then ([coin], currentValue)
    else
      let drawn := drawLoop targetValue currentValue rest
      (coin :: drawn.1, drawn.2)

/-- What the one-pass algorithms return. -/
def finish (algorithm : SelectionAlgorithm) (targetValue : Int) (drawn failed : List CoinOutput)
    (currentValue : Int) : SelectionResult :=
  if currentValue ≥ targetValue then
    ⟨true, drawn, some currentValue, targetValue, none, some (wrap64 (currentValue - targetValue)),
      algorithm⟩
  else ⟨false, failed, none, targetValue, none, none, algorithm⟩

/-- Take coins in order until the target is reached. -/
def drawInOrder (algorithm : SelectionAlgorithm) (ordered : List CoinOutput) (targetValue : Int) :
    SelectionResult :=
  let drawn := drawLoop targetValue 0 ordered
  finish algorithm targetValue drawn.1 drawn.1 drawn.2

section Algorithms

variable (std : StdAlgorithms)

/-- The comparison by which the coins are sorted, largest first. -/
def byEffectiveValueDescending (a b : CoinOutput) : Bool := a.effectiveValue > b.effectiveValue

/-- `SingleRandomDraw`. -/
def singleRandomDraw (coins : List CoinOutput) (targetValue : Int) : SelectionResult :=
  drawInOrder .SINGLE_RANDOM (std.shuffle coins) targetValue

/-- `FIFO`: oldest first. -/
def fifo (coins : List CoinOutput) (targetValue : Int) : SelectionResult :=
  drawInOrder .FIFO (std.sort (fun a b => a.blockHeight < b.blockHeight) coins) targetValue

/-- `LargestFirst`. -/
def largestFirst (coins : List CoinOutput) (targetValue : Int) : SelectionResult :=
  drawInOrder .LARGEST_FIRST (std.sort byEffectiveValueDescending coins) targetValue

/-- The loop over `sorted`: the coins at `selectedIndices` and their sum. -/
def knapsackLoop (targetValue : Int) : Int → List CoinOutput → List CoinOutput × Int
  | currentValue, [] => ([], currentValue)
  | currentValue, coin :: rest =>
    if currentValue ≥ targetValue then ([], currentValue)
    else if wrap64 (currentValue + coin.effectiveValue) ≤ wrap64 (targetValue * 2) then
      let taken := knapsackLoop targetValue (wrap64 (currentValue + coin.effectiveValue)) rest
      (coin :: taken.1, taken.2)
    else knapsackLoop targetValue currentValue rest

/-- `Knapsack`: one pass from the largest coin down. -/
def knapsack (coins : List CoinOutput) (targetValue : Int) : SelectionResult :=
  let taken := knapsackLoop targetValue 0 (std.sort byEffectiveValueDescending coins)
  finish .KNAPSACK targetValue taken.1 [] taken.2

end Algorithms

/-! ## Branch and bound -/

/-- The variables of the branch-and-bound loop. -/
structure Search where
  currentSelection : List Bool
  currentValue : Int
  depth : Nat
  backtrack : Bool
  bestWaste : Int
  bestSelection : List Bool
  bestSuccess : Bool
deriving DecidableEq

/-- The coins whose flag is set. -/
def chosen (coins : List CoinOutput) (selection : List Bool) : List CoinOutput :=
  ((coins.zip selection).filter (·.2)).map (·.1)

/-- `while (depth > 0 && !currentSelection[depth - 1]) depth--`. -/
def lastIncluded (currentSelection : List Bool) : Nat → Nat
  | 0 => 0
  | depth + 1 =>
    if currentSelection.getD depth false then depth + 1 else lastIncluded currentSelection depth

/-- What an iteration of the loop leads to. -/
inductive Turn where
  | found (selection : List Bool) (value : Int)
  | exhausted
  | next (s : Search)

section BranchAndBound

variable (coins : List CoinOutput) (targetValue costOfChange : Int)

/-- The value of a coin by its position. -/
def effectiveAt (i : Nat) : Int := (coins.map CoinOutput.effectiveValue).getD i 0

/-- The part of a turn that tries the coin at `depth`. -/
def includeTurn (s : Search) : Turn :=
  if s.depth ≥ coins.length then .next { s with backtrack := true }
  else
    let tentativeValue := wrap64 (s.currentValue + effectiveAt coins s.depth)
    if tentativeValue > wrap64 (targetValue + costOfChange) then
      let s := { s with currentSelection := s.currentSelection.set s.depth false }
      let remaining := totalEffective (coins.drop (s.depth + 1))
      if wrap64 (s.currentValue + remaining) < targetValue then .next { s with backtrack := true }
      else .next { s with depth := s.depth + 1 }
    else
      let s := { s with currentSelection := s.currentSelection.set s.depth true,
                        currentValue := tentativeValue }
      if s.currentValue ≥ targetValue then
        let waste := wrap64 (s.currentValue - targetValue)
        if waste = 0 then .found s.currentSelection s.currentValue
        else if waste < s.bestWaste then
          -- `depth` stays at the coin just included
          .next { s with bestWaste := waste, bestSelection := s.currentSelection,
                         bestSuccess := true, backtrack := true }
        else .next { s with backtrack := true }
      else .next { s with depth := s.depth + 1 }

/-- One iteration of the loop. -/
def turn (s : Search) : Turn :=
  if s.backtrack then
    match lastIncluded s.currentSelection s.depth with
    | 0 => .exhausted
    | depth + 1 =>
      includeTurn coins targetValue costOfChange
        { s with currentSelection := s.currentSelection.set depth false,
                 currentValue := wrap64 (s.currentValue - effectiveAt coins depth),
                 depth := depth + 1, backtrack := false }
  else includeTurn coins targetValue costOfChange s

/-- The search: an exact match, or its state after the last turn. -/
def searchLoop : Nat → Search → (List Bool × Int) ⊕ Search
  | 0, s => .inr s
  | iterations + 1, s =>
    match turn coins targetValue costOfChange s with
    | .found selection value => .inl (selection, value)
    | .exhausted => .inr s
    | .next s => searchLoop iterations s

/-- The variables before the loop. -/
def startSearch : Search :=
  ⟨List.replicate coins.length false, 0, 0, false, 2 ^ 63 - 1, List.replicate coins.length false,
    false⟩

/-- The result of a search over the sorted coins. -/
def searchResult : Option SelectionResult :=
  match searchLoop coins targetValue costOfChange 100000 (startSearch coins) with
  | .inl (selection, value) =>
    some ⟨true, chosen coins selection, some value, targetValue, some 0, some 0,
      .BRANCH_AND_BOUND⟩
  | .inr s =>
    if s.bestSuccess then
      let selected := chosen coins s.bestSelection
      let total := totalEffective selected
      some ⟨true, selected, some total, targetValue, none, some (wrap64 (total - targetValue)),
        .BRANCH_AND_BOUND⟩
    else none

end BranchAndBound

section Select

variable (std : StdAlgorithms)

/-- `BranchAndBound`; `coins` is sorted in place, so the callers keep the order. -/
def branchAndBound (coins : List CoinOutput) (targetValue costOfChange : Int) :
    Option SelectionResult × List CoinOutput :=
  let coins := std.sort byEffectiveValueDescending coins
  if totalEffective coins < targetValue then (none, coins)
  else (searchResult coins targetValue costOfChange, coins)

/-- The coins that pass the filter and are worth their fee, with their effective values. -/
def eligibleCoins (availableCoins : List CoinOutput) (options : SelectionOptions) :
    List CoinOutput :=
  ((filterCoins availableCoins options).map fun coin =>
    { coin with effectiveValue := calculateEffectiveValue coin options.feeRate }).filter
      fun coin => !(coin.effectiveValue ≤ 0)

/-- The size of a change output is taken as 102. -/
def costOfChange (feeRate : Int) : Int := (wrap64 (102 * feeRate)).tdiv 1000

/-- The result of a failed selection. -/
def noSelection (targetAmount : Int) (algorithm : SelectionAlgorithm) : SelectionResult :=
  ⟨false, [], some 0, targetAmount, some 0, some 0, algorithm⟩

/-- The strategy of `AUTOMATIC`. -/
def selectAutomatic (coins : List CoinOutput) (targetAmount : Int) (options : SelectionOptions) :
    SelectionResult :=
  if options.mode = .CHANNEL_FUNDING then largestFirst std coins targetAmount
  else if options.mode = .PRIVACY_OPTIMAL then singleRandomDraw std coins targetAmount
  else
    let bnb := branchAndBound std coins targetAmount (costOfChange options.feeRate)
    match bnb.1 with
    | some result =>
      if result.success then result
      else
        let knapsackResult := knapsack std bnb.2 targetAmount
        if knapsackResult.success then knapsackResult else fifo std bnb.2 targetAmount
    | none =>
      let knapsackResult := knapsack std bnb.2 targetAmount
      if knapsackResult.success then knapsackResult else fifo std bnb.2 targetAmount

/-- `SelectCoins`: filter, price and sort the coins, then the strategy of the options. -/
def selectCoins (availableCoins : List CoinOutput) (targetAmount : Int)
    (options : SelectionOptions) : SelectionResult :=
  let coins := eligibleCoins availableCoins options
  if coins = [] then noSelection targetAmount .AUTOMATIC
  else if totalEffective coins < targetAmount then noSelection targetAmount .AUTOMATIC
  else
    match options.algorithm with
    | .AUTOMATIC => selectAutomatic std coins targetAmount options
    | .BRANCH_AND_BOUND =>
      (branchAndBound std coins targetAmount (costOfChange options.feeRate)).1.getD
        (noSelection targetAmount .BRANCH_AND_BOUND)
    | .SINGLE_RANDOM => singleRandomDraw std coins targetAmount
    | .KNAPSACK => knapsack std coins targetAmount
    | .FIFO => fifo std coins targetAmount
    | .LARGEST_FIRST => largestFirst std coins targetAmount

/-- `SelectPrivate`: a random draw with the options that ask for privacy. -/
def selectPrivate (availableCoins : List CoinOutput) (targetAmount : Int) : SelectionResult :=
  selectCoins std availableCoins targetAmount
    { mode := .PRIVACY_OPTIMAL, preferPrivateOutputs := true, avoidMixingAnonSets := true,
      algorithm := .SINGLE_RANDOM }

end Select

end Soqucoin.CoinSelection
