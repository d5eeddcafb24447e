import Soqucoin.Primitives

/-! # Supply — the mint and burn counters of an asset

`CUSDSOQSupply` (`consensus/usdsoq.cpp`) and `CBTCSOQSupply` (`consensus/btcsoq.cpp`) are the same
pair of counters with the same guarded updates.  The counter invariant of `CheckInvariant` is
carried by the type, so the guards are all that has to be read off an operation. -/

namespace Soqucoin

/-- The two counters, within the bounds `CheckInvariant` tests. -/
structure Supply where
  totalMinted : Int
  totalBurned : Int
  burned_nonneg : 0 ≤ totalBurned
  burned_le_minted : totalBurned ≤ totalMinted
  minted_le_max : totalMinted ≤ MAX_MONEY
deriving DecidableEq

/-- The counters of USDSOQ. -/
abbrev CUSDSOQSupply := Supply
/-- The counters of BTCSOQ. -/
abbrev CBTCSOQSupply := Supply

variable {s t : Supply} {amount : Int}

namespace Supply

/-- Nothing minted yet. -/
def zero : Supply := ⟨0, 0, by decide, by decide, by decide⟩

instance : Inhabited Supply := ⟨zero⟩

@[ext] theorem ext (hm : s.totalMinted = t.totalMinted) (hb : s.totalBurned = t.totalBurned) :
    s = t := by
  cases s
  cases t
  cases hm
  cases hb
  rfl

theorem minted_nonneg (s : Supply) : 0 ≤ s.totalMinted :=
  le_trans s.burned_nonneg s.burned_le_minted

theorem moneyRange_iff {v : Int} : moneyRange v ↔ 0 ≤ v ∧ v ≤ MAX_MONEY := by
  simp [moneyRange]

/-- The guards of `Mint`, on the counters it would leave. -/
def mintOk (s : Supply) (amount : Int) : Bool :=
  0 < amount && amount ≤ INT64_MAX - s.totalMinted &&
    moneyRange (s.totalMinted + amount) && moneyRange (s.totalMinted + amount - s.totalBurned)

/-- `Mint`, as an update of counters within their bounds. -/
def mint (s : Supply) (amount : Int) : Option Supply :=
  if h : s.mintOk amount = true then
    some { s with
      totalMinted := s.totalMinted + amount
      burned_le_minted := by
        have hb := s.burned_le_minted
        simp only [mintOk, Bool.and_eq_true, decide_eq_true_eq] at h
        omega
      minted_le_max := by
        simp only [mintOk, Bool.and_eq_true, moneyRange_iff] at h
        exact h.1.2.2 }
  else none

/-- The guards of `Burn`. -/
def burnOk (s : Supply) (amount : Int) : Bool :=
  0 < amount && amount ≤ INT64_MAX - s.totalBurned &&
    s.totalBurned + amount ≤ s.totalMinted && moneyRange (s.totalBurned + amount)

/-- `Burn`. -/
def burn (s : Supply) (amount : Int) : Option Supply :=
  if h : s.burnOk amount = true then
    some { s with
      totalBurned := s.totalBurned + amount
      burned_nonneg := by
        simp only [burnOk, Bool.and_eq_true, moneyRange_iff] at h
        exact h.2.1
      burned_le_minted := by
        simp only [burnOk, Bool.and_eq_true, decide_eq_true_eq] at h
        exact h.1.2 }
  else none

/-- The guards of `UndoMint`. -/
def undoMintOk (s : Supply) (amount : Int) : Bool :=
  0 < amount && amount ≤ s.totalMinted && s.totalBurned ≤ s.totalMinted - amount &&
    moneyRange (s.totalMinted - amount)

/-- `UndoMint`. -/
def undoMint (s : Supply) (amount : Int) : Option Supply :=
  if h : s.undoMintOk amount = true then
    some { s with
      totalMinted := s.totalMinted - amount
      burned_le_minted := by
        simp only [undoMintOk, Bool.and_eq_true, decide_eq_true_eq] at h
        exact h.1.2
      minted_le_max := by
        simp only [undoMintOk, Bool.and_eq_true, moneyRange_iff] at h
        exact h.2.2 }
  else none

/-- The guards of `UndoBurn`. -/
def undoBurnOk (s : Supply) (amount : Int) : Bool :=
  0 < amount && amount ≤ s.totalBurned && moneyRange (s.totalBurned - amount) &&
    moneyRange (s.totalMinted - (s.totalBurned - amount))

/-- `UndoBurn`. -/
def undoBurn (s : Supply) (amount : Int) : Option Supply :=
  if h : s.undoBurnOk amount = true then
    some { s with
      totalBurned := s.totalBurned - amount
      burned_nonneg := by
        simp only [undoBurnOk, Bool.and_eq_true, moneyRange_iff] at h
        exact h.1.2.1
      burned_le_minted := by
        have hb := s.burned_le_minted
        simp only [undoBurnOk, Bool.and_eq_true, decide_eq_true_eq] at h
        omega }
  else none

/-! ## What each operation does -/

/-- A guarded update succeeds where its guards hold, and sets the counters. -/
theorem guarded_eq_some {ok : Bool} {update : ok → Supply} {P : Prop} {minted burned : Int}
    (hok : ok ↔ P)
    (hupdate : ∀ h, (update h).totalMinted = minted ∧ (update h).totalBurned = burned) :
    (if h : ok = true then some (update h) else none) = some t ↔
      P ∧ t.totalMinted = minted ∧ t.totalBurned = burned := by
  split
  · rename_i h
    obtain ⟨hm, hb⟩ := hupdate h
    rw [Option.some_inj]
    constructor
    · rintro rfl
      exact ⟨hok.mp h, hm, hb⟩
    · rintro ⟨_, hmt, hbt⟩
      exact Supply.ext (hm.trans hmt.symm) (hb.trans hbt.symm)
  · rename_i h
    constructor
    · intro hn
      exact nomatch hn
    · rintro ⟨hP, _⟩
      exact absurd (hok.mpr hP) h

theorem mintOk_iff : s.mintOk amount ↔ 0 < amount ∧ s.totalMinted + amount ≤ MAX_MONEY := by
  have hb := s.burned_le_minted
  have hb0 := s.burned_nonneg
  have hmax : MAX_MONEY ≤ INT64_MAX := by decide
  simp only [mintOk, Bool.and_eq_true, decide_eq_true_eq, moneyRange_iff]
  omega

/-- When `Mint` succeeds, and what it leaves. -/
theorem mint_eq_some :
    s.mint amount = some t ↔
      0 < amount ∧ s.totalMinted + amount ≤ MAX_MONEY ∧
      t.totalMinted = s.totalMinted + amount ∧ t.totalBurned = s.totalBurned := by
  rw [← and_assoc]
  refine guarded_eq_some mintOk_iff ?_
  exact fun _ => ⟨rfl, rfl⟩

theorem mint_eq_none :
    s.mint amount = none ↔ ¬ (0 < amount ∧ s.totalMinted + amount ≤ MAX_MONEY) := by
  rw [← mintOk_iff, mint, dite_eq_right_iff]
  exact forall_congr' fun _ => iff_of_false (fun h => nomatch h) id

theorem burnOk_iff :
    s.burnOk amount ↔ 0 < amount ∧ s.totalBurned + amount ≤ s.totalMinted := by
  have hb0 := s.burned_nonneg
  have hm := s.minted_le_max
  have hmax : MAX_MONEY ≤ INT64_MAX := by decide
  simp only [burnOk, Bool.and_eq_true, decide_eq_true_eq, moneyRange_iff]
  omega

/-- When `Burn` succeeds, and what it leaves. -/
theorem burn_eq_some :
    s.burn amount = some t ↔
      0 < amount ∧ s.totalBurned + amount ≤ s.totalMinted ∧
      t.totalMinted = s.totalMinted ∧ t.totalBurned = s.totalBurned + amount := by
  rw [← and_assoc]
  refine guarded_eq_some burnOk_iff ?_
  exact fun _ => ⟨rfl, rfl⟩

theorem burn_eq_none :
    s.burn amount = none ↔ ¬ (0 < amount ∧ s.totalBurned + amount ≤ s.totalMinted) := by
  rw [← burnOk_iff, burn, dite_eq_right_iff]
  exact forall_congr' fun _ => iff_of_false (fun h => nomatch h) id

/-- When `UndoMint` succeeds, and what it leaves. -/
theorem undoMint_eq_some :
    s.undoMint amount = some t ↔
      0 < amount ∧ s.totalBurned ≤ s.totalMinted - amount ∧
      t.totalMinted = s.totalMinted - amount ∧ t.totalBurned = s.totalBurned := by
  have hok : s.undoMintOk amount = true ↔
      0 < amount ∧ s.totalBurned ≤ s.totalMinted - amount := by
    have hb0 := s.burned_nonneg
    have hm := s.minted_le_max
    simp only [undoMintOk, Bool.and_eq_true, decide_eq_true_eq, moneyRange_iff]
    omega
  rw [← and_assoc]
  refine guarded_eq_some hok ?_
  exact fun _ => ⟨rfl, rfl⟩

/-- When `UndoBurn` succeeds, and what it leaves. -/
theorem undoBurn_eq_some :
    s.undoBurn amount = some t ↔
      0 < amount ∧ amount ≤ s.totalBurned ∧
      t.totalMinted = s.totalMinted ∧ t.totalBurned = s.totalBurned - amount := by
  have hok : s.undoBurnOk amount = true ↔ 0 < amount ∧ amount ≤ s.totalBurned := by
    have hb := s.burned_le_minted
    have hm := s.minted_le_max
    simp only [undoBurnOk, Bool.and_eq_true, decide_eq_true_eq, moneyRange_iff]
    omega
  rw [← and_assoc]
  refine guarded_eq_some hok ?_
  exact fun _ => ⟨rfl, rfl⟩

end Supply

/-! ## The counters as they are stored

The classes keep two plain words; a call that overflows one has no meaning (`none`). -/

/-- The value of a signed 64-bit operation, where it has one. -/
def signed64 (x : Int) : Option Int :=
  if -INT64_MAX - 1 ≤ x ∧ x ≤ INT64_MAX then some x else none

/-- The two words of the class. -/
structure SupplyCounters where
  totalMinted : Int
  totalBurned : Int
deriving DecidableEq

namespace SupplyCounters

/-- `Reset`. -/
def reset : SupplyCounters := ⟨0, 0⟩

/-- `Mint`, operation by operation. -/
def mint (c : SupplyCounters) (amount : Int) : Option (Bool × SupplyCounters) :=
  if amount ≤ 0 then some (false, c)
  else (signed64 (INT64_MAX - c.totalMinted)).bind fun room =>
    if amount > room then some (false, c)
    else (signed64 (c.totalMinted + amount)).bind fun newMinted =>
      if !moneyRange newMinted then some (false, c)
      else (signed64 (newMinted - c.totalBurned)).map fun newOutstanding =>
        if !moneyRange newOutstanding then (false, c)
        else (true, { c with totalMinted := newMinted })

/-- `Burn`, operation by operation. -/
def burn (c : SupplyCounters) (amount : Int) : Option (Bool × SupplyCounters) :=
  if amount ≤ 0 then some (false, c)
  else (signed64 (INT64_MAX - c.totalBurned)).bind fun room =>
    if amount > room then some (false, c)
    else (signed64 (c.totalBurned + amount)).map fun newBurned =>
      if newBurned > c.totalMinted then (false, c)
      else if !moneyRange newBurned then (false, c)
      else (true, { c with totalBurned := newBurned })

/-- `CheckInvariant`. -/
def checkInvariant (c : SupplyCounters) : Option Bool :=
  if c.totalMinted < 0 ∨ c.totalBurned < 0 then some false
  else if c.totalBurned > c.totalMinted then some false
  else if !moneyRange c.totalMinted then some false
  else if !moneyRange c.totalBurned then some false
  else (signed64 (c.totalMinted - c.totalBurned)).map moneyRange

/-- `UndoMint`, operation by operation. -/
def undoMint (c : SupplyCounters) (amount : Int) : Option (Bool × SupplyCounters) :=
  if amount ≤ 0 then some (false, c)
  else if amount > c.totalMinted then some (false, c)
  else (signed64 (c.totalMinted - amount)).map fun newMinted =>
    if newMinted < c.totalBurned then (false, c)
    else if !moneyRange newMinted then (false, c)
    else (true, { c with totalMinted := newMinted })

/-- `UndoBurn`, operation by operation. -/
def undoBurn (c : SupplyCounters) (amount : Int) : Option (Bool × SupplyCounters) :=
  if amount ≤ 0 then some (false, c)
  else if amount > c.totalBurned then some (false, c)
  else (signed64 (c.totalBurned - amount)).bind fun newBurned =>
    if !moneyRange newBurned then some (false, c)
    else (signed64 (c.totalMinted - newBurned)).map fun newOutstanding =>
      if !moneyRange newOutstanding then (false, c)
      else (true, { c with totalBurned := newBurned })

end SupplyCounters

/-- A call of one of the four. -/
inductive SupplyCall where
  | mint (amount : Int)
  | burn (amount : Int)
  | undoMint (amount : Int)
  | undoBurn (amount : Int)

/-- What it returns, and the counters it leaves. -/
def SupplyCall.perform : SupplyCall → SupplyCounters → Option (Bool × SupplyCounters)
  | .mint amount, c => c.mint amount
  | .burn amount, c => c.burn amount
  | .undoMint amount, c => c.undoMint amount
  | .undoBurn amount, c => c.undoBurn amount

/-- A sequence of calls, whatever they return. -/
def performAll : List SupplyCall → SupplyCounters → Option SupplyCounters
  | [], c => some c
  | call :: calls, c => (call.perform c).bind fun r => performAll calls r.2

namespace Supply

/-- The words of counters within their bounds. -/
def counters (s : Supply) : SupplyCounters := ⟨s.totalMinted, s.totalBurned⟩

/-- What the caller sees of a guarded update. -/
def reply (s : Supply) : Option Supply → Bool × SupplyCounters
  | some t => (true, t.counters)
  | none => (false, s.counters)

theorem signed64_eq {x : Int} (hlow : -INT64_MAX - 1 ≤ x) (hhigh : x ≤ INT64_MAX) :
    signed64 x = some x := if_pos ⟨hlow, hhigh⟩

theorem bounds (s : Supply) : 0 ≤ s.totalBurned ∧ s.totalBurned ≤ s.totalMinted ∧
    s.totalMinted ≤ MAX_MONEY ∧ MAX_MONEY ≤ INT64_MAX :=
  ⟨s.burned_nonneg, s.burned_le_minted, s.minted_le_max, by decide⟩

variable {s : Supply} {amount : Int} {c : SupplyCounters}

/-- The code's `Mint` is the guarded update. -/
theorem mint_counters (s : Supply) (amount : Int) :
    s.counters.mint amount = some (s.reply (s.mint amount)) := by
  have hs := s.bounds
  rw [mint]
  split
  all_goals
    simp only [SupplyCounters.mint, reply, counters]
    grind [signed64_eq, moneyRange, mintOk]

/-- The code's `Burn` is the guarded update. -/
theorem burn_counters (s : Supply) (amount : Int) :
    s.counters.burn amount = some (s.reply (s.burn amount)) := by
  have hs := s.bounds
  rw [burn]
  split
  all_goals
    simp only [SupplyCounters.burn, reply, counters]
    grind [signed64_eq, moneyRange, burnOk]

/-- `UndoMint` on the counters is that of the model. -/
theorem undoMint_counters (s : Supply) (amount : Int) :
    s.counters.undoMint amount = some (s.reply (s.undoMint amount)) := by
  have hs := s.bounds
  rw [undoMint]
  split
  all_goals
    simp only [SupplyCounters.undoMint, reply, counters]
    grind [signed64_eq, moneyRange, undoMintOk]

/-- `UndoBurn` on the counters is that of the model. -/
theorem undoBurn_counters (s : Supply) (amount : Int) :
    s.counters.undoBurn amount = some (s.reply (s.undoBurn amount)) := by
  have hs := s.bounds
  rw [undoBurn]
  split
  all_goals
    simp only [SupplyCounters.undoBurn, reply, counters]
    grind [signed64_eq, moneyRange, undoBurnOk]

theorem checkInvariant_counters (s : Supply) : s.counters.checkInvariant = some true := by
  have hs := s.bounds
  simp only [SupplyCounters.checkInvariant, counters]
  grind [signed64_eq, moneyRange]

/-- A call is an update of the counters with their invariant. -/
theorem perform_counters (s : Supply) (call : SupplyCall) :
    ∃ o : Option Supply, call.perform s.counters = some (s.reply o) := by
  cases call with
  | mint amount => exact ⟨_, s.mint_counters amount⟩
  | burn amount => exact ⟨_, s.burn_counters amount⟩
  | undoMint amount => exact ⟨_, s.undoMint_counters amount⟩
  | undoBurn amount => exact ⟨_, s.undoBurn_counters amount⟩

/-- Calls keep the counters those of a supply. -/
theorem performAll_counters (calls : List SupplyCall) :
    ∀ s : Supply, ∃ t, performAll calls s.counters = some (counters t) := by
  induction calls with
  | nil => exact fun s => ⟨s, rfl⟩
  | cons call calls ih =>
    intro s
    obtain ⟨o, ho⟩ := s.perform_counters call
    rw [performAll, ho, Option.bind_some]
    cases o with
    | none => exact ih s
    | some t => exact ih t

theorem reply_true {o : Option Supply} (h : some (s.reply o) = some (true, c)) :
    ∃ t, o = some t ∧ t.counters = c := by
  cases o with
  | none => cases h
  | some t => exact ⟨t, rfl, congrArg Prod.snd (Option.some.inj h)⟩

/-- `Mint` returns true exactly for a positive amount that keeps the minted total in range. -/
theorem mint_counters_iff : s.counters.mint amount = some (true, c) ↔
    0 < amount ∧ s.totalMinted + amount ≤ MAX_MONEY ∧
      c = ⟨s.totalMinted + amount, s.totalBurned⟩ := by
  rw [s.mint_counters]
  constructor
  · intro h
    obtain ⟨t, ht, rfl⟩ := reply_true h
    obtain ⟨hpos, hle, hm, hb⟩ := mint_eq_some.mp ht
    exact ⟨hpos, hle, by rw [counters, hm, hb]⟩
  · rintro ⟨hpos, hle, rfl⟩
    rw [mint, dif_pos (mintOk_iff.mpr ⟨hpos, hle⟩)]
    rfl

/-- `Burn` returns true exactly for a positive amount that has been minted and not burned. -/
theorem burn_counters_iff : s.counters.burn amount = some (true, c) ↔
    0 < amount ∧ s.totalBurned + amount ≤ s.totalMinted ∧
      c = ⟨s.totalMinted, s.totalBurned + amount⟩ := by
  rw [s.burn_counters]
  constructor
  · intro h
    obtain ⟨t, ht, rfl⟩ := reply_true h
    obtain ⟨hpos, hle, hm, hb⟩ := burn_eq_some.mp ht
    exact ⟨hpos, hle, by rw [counters, hm, hb]⟩
  · rintro ⟨hpos, hle, rfl⟩
    rw [burn, dif_pos (burnOk_iff.mpr ⟨hpos, hle⟩)]
    rfl

end Supply

/-- **The counters never leave their invariant.**  After any calls from the reset state, with any
    amounts, no 64-bit operation has overflowed and `CheckInvariant` holds; another call does not
    overflow either, leaves the counters alone where it returns false, and is taken back by its
    inverse where it returns true.  `Mint` returns true exactly where the amount is positive and
    the minted total stays in range, `Burn` exactly where so much is outstanding. -/
theorem supply_machine (calls : List SupplyCall) :
    ∃ c, performAll calls .reset = some c ∧ c.checkInvariant = some true ∧
      (∀ call : SupplyCall, ∃ ok c', call.perform c = some (ok, c') ∧ (ok = false → c' = c)) ∧
      ∀ amount c',
        (c.mint amount = some (true, c') ↔ 0 < amount ∧ c.totalMinted + amount ≤ MAX_MONEY ∧
          c' = { c with totalMinted := c.totalMinted + amount }) ∧
        (c.burn amount = some (true, c') ↔ 0 < amount ∧ c.totalBurned + amount ≤ c.totalMinted ∧
          c' = { c with totalBurned := c.totalBurned + amount }) ∧
        (c.mint amount = some (true, c') → c'.undoMint amount = some (true, c)) ∧
        (c.burn amount = some (true, c') → c'.undoBurn amount = some (true, c)) := by
  -- the counters of a run are always those of some abstract supply
  obtain ⟨s, hs⟩ := Supply.performAll_counters calls Supply.zero
  have hbounds := s.bounds
  refine ⟨s.counters, hs, s.checkInvariant_counters, fun call => ?_, fun amount c' =>
    ⟨Supply.mint_counters_iff, Supply.burn_counters_iff, ?_, ?_⟩⟩
  · obtain ⟨o, ho⟩ := s.perform_counters call
    refine ⟨_, _, ho, ?_⟩
    cases o with
    | none => exact fun _ => rfl
    | some t => exact fun h => by cases h
  · intro h
    rw [s.mint_counters] at h
    obtain ⟨t, ht, rfl⟩ := Supply.reply_true h
    obtain ⟨hpos, hle, hm, hb⟩ := Supply.mint_eq_some.mp ht
    rw [t.undoMint_counters, Supply.undoMint_eq_some.mpr ⟨hpos, by omega, by omega, hb.symm⟩]
    rfl
  · intro h
    rw [s.burn_counters] at h
    obtain ⟨t, ht, rfl⟩ := Supply.reply_true h
    obtain ⟨hpos, hle, hm, hb⟩ := Supply.burn_eq_some.mp ht
    rw [t.undoBurn_counters, Supply.undoBurn_eq_some.mpr ⟨hpos, by omega, hm.symm, by omega⟩]
    rfl

end Soqucoin
