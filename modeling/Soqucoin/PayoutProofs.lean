import Soqucoin.Payouts

/-! # PayoutProofs — what is sent against what is debited

Payments are stored by payout address, so the last balance that resolves to an address is what is
sent to it; debits are made balance by balance, each behind its payment record.
`payout_balanced_iff` says when the two agree. -/

namespace Soqucoin.Payouts

variable {chain : String} {resolved : List ResolvedBalance}

section

variable (config : Config) (services : Services)

/-! ## The balances of a chain -/

/-- The balances of a chain whose address resolves, in their order. -/
def resolvedFor (balances : List Balance) (chain : String) : List ResolvedBalance :=
  balances.filterMap fun balance =>
    if balance.Chain = chain then
      (findBalanceAddress config services balance).toOption.map (ResolvedBalance.mk balance)
    else none

/-- A list stored under a key, once more elements are appended to it. -/
def appended {α : Type} (old : Option (List α)) (l : List α) : Option (List α) :=
  if l = [] then old else some (old.getD [] ++ l)

theorem appended_cons {α : Type} (old : Option (List α)) (a : α) (l : List α) :
    appended (some (old.getD [] ++ [a])) l = appended old (a :: l) := by
  rw [appended, appended, if_neg (List.cons_ne_nil a l)]
  split
  · next h => rw [h]
  · rw [Option.getD_some, List.append_assoc, List.singleton_append]

/-- One turn of the loop that groups the balances. -/
def groupStep (d : OrderedDict String (List ResolvedBalance)) (balance : Balance) :
    OrderedDict String (List ResolvedBalance) :=
  match findBalanceAddress config services balance with
  | .error _ => d
  | .ok address => d.update balance.Chain fun old => old.getD [] ++ [⟨balance, address⟩]

/-- The balances of a chain are those that resolve, in order. -/
theorem get?_foldl_groupStep (chain : String) (balances : List Balance)
    (d : OrderedDict String (List ResolvedBalance)) :
    (balances.foldl (groupStep config services) d).get? chain =
      appended (d.get? chain) (resolvedFor config services balances chain) := by
  induction balances generalizing d with
  | nil => rfl
  | cons balance balances ih =>
    rw [List.foldl_cons, ih, groupStep]
    show _ = appended _ (List.filterMap _ (balance :: balances))
    rw [List.filterMap_cons]
    cases hfind : findBalanceAddress config services balance with
    | error e =>
      have hnone : (if balance.Chain = chain then
            (Except.error e : Except ResolveError String).toOption.map
              (ResolvedBalance.mk balance)
          else none) = none := by
        split <;> rfl
      rw [hnone]
      rfl
    | ok address =>
      dsimp only
      rw [OrderedDict.get?_update]
      by_cases hchain : balance.Chain = chain
      · rw [if_pos hchain.symm, if_pos hchain, hchain]
        exact appended_cons (d.get? chain) ⟨balance, address⟩ _
      · rw [if_neg (Ne.symm hchain), if_neg hchain]
        rfl

/-- The balances of a chain are those whose address resolves. -/
theorem mem_chainBalances {balances : List Balance}
    (h : (chain, resolved) ∈ (chainBalances config services balances).items) :
    resolved = resolvedFor config services balances chain := by
  have hget := OrderedDict.get?_eq_some.mpr h
  have hgroup : (chainBalances config services balances).get? chain =
      appended none (resolvedFor config services balances chain) :=
    get?_foldl_groupStep config services chain balances .empty
  rw [hgroup, appended] at hget
  split at hget
  · cases hget
  · exact (Option.some.inj hget).symm

end

/-! ## What is sent -/

/-- The balances that resolve to an address. -/
def paidTo (resolved : List ResolvedBalance) (address : String) : List ResolvedBalance :=
  resolved.filter fun r => decide (r.address = address)

/-- The sum of the balances. -/
def total (l : List ResolvedBalance) : ℚ := (l.map fun r => r.balance.Amount).sum

theorem total_append (l l' : List ResolvedBalance) : total (l ++ l') = total l + total l' := by
  rw [total, List.map_append, List.sum_append, total, total]

/-- What an address is paid. -/
theorem total_paidTo (resolved : List ResolvedBalance) (address : String) :
    total (paidTo resolved address) =
      (resolved.map fun r => if r.address = address then r.balance.Amount else 0).sum := by
  induction resolved with
  | nil => rfl
  | cons r resolved ih =>
    rw [List.map_cons, List.sum_cons, ← ih, paidTo, List.filter_cons]
    by_cases h : r.address = address
    · simp [h, total, paidTo]
    · simp [h, total, paidTo]

/-- An address is paid the last of its balances. -/
theorem get?_transactionsOf (resolved : List ResolvedBalance) (address : String) :
    (transactionsOf resolved).get? address =
      (paidTo resolved address).getLast?.map fun r => r.balance.Amount := by
  have hfold : ∀ (l : List ResolvedBalance) (o : Option ℚ),
      l.foldl (fun _ r => some r.balance.Amount) o =
        (l.getLast?.map fun r => r.balance.Amount).or o := by
    intro l
    induction l using List.reverseRecOn with
    | nil => exact fun _ => rfl
    | append_singleton l r ih =>
      intro o
      rw [List.foldl_append, List.getLast?_append]
      rfl
  rw [transactionsOf, OrderedDict.get?_foldl_update ResolvedBalance.address
    (fun r _ => r.balance.Amount), hfold, OrderedDict.get?_empty, Option.or_none, paidTo]

/-- An address is sent the total of its balances if all but the last of them cancel out. -/
theorem sent_eq_total_iff (resolved : List ResolvedBalance) (address : String) :
    ((transactionsOf resolved).get? address).getD 0 = total (paidTo resolved address) ↔
      total (paidTo resolved address).dropLast = 0 := by
  rw [get?_transactionsOf]
  generalize paidTo resolved address = l
  induction l using List.reverseRecOn with
  | nil => exact iff_of_true rfl rfl
  | append_singleton l r _ =>
    have hone : total [r] = r.balance.Amount := List.sum_singleton
    rw [List.getLast?_concat, List.dropLast_concat, total_append, hone]
    show r.balance.Amount = total l + r.balance.Amount ↔ _
    rw [eq_comm, add_eq_right]

/-- With positive amounts that means one balance for each address. -/
theorem no_collision_iff (hpos : ∀ r ∈ resolved, 0 < r.balance.Amount) :
    (∀ address, total (paidTo resolved address).dropLast = 0) ↔
      (resolved.map ResolvedBalance.address).Nodup := by
  have hzero : ∀ address, total (paidTo resolved address).dropLast = 0 ↔
      (paidTo resolved address).length ≤ 1 := by
    intro address
    have hmem : ∀ r ∈ paidTo resolved address, 0 < r.balance.Amount := fun r hr =>
      hpos r (List.mem_of_mem_filter hr)
    generalize paidTo resolved address = l at hmem
    rcases l with _ | ⟨a, _ | ⟨b, l⟩⟩
    · exact iff_of_true rfl (Nat.zero_le 1)
    · exact iff_of_true rfl (le_refl 1)
    · refine iff_of_false ?_ (by simp)
      have hsum : 0 < total (a :: b :: l).dropLast := by
        rw [List.dropLast_cons_cons, total, List.map_cons, List.sum_cons]
        refine add_pos_of_pos_of_nonneg (hmem a List.mem_cons_self) (List.sum_nonneg ?_)
        intro x hx
        obtain ⟨r, hr, rfl⟩ := List.mem_map.mp hx
        exact (hmem r (List.mem_cons_of_mem _ (List.mem_of_mem_dropLast hr))).le
      exact hsum.ne'
  simp only [hzero]
  rw [List.nodup_iff_count_le_one]
  refine forall_congr' fun address => ?_
  rw [List.count_eq_countP, List.countP_map, List.countP_eq_length_filter]
  rfl

/-! ## A payout -/

/-- What is sent to an address. -/
def ChainPayout.sentTo (p : ChainPayout) (address : String) : ℚ :=
  (p.transactions.get? address).getD 0

/-- What the balances that resolve to an address are debited. -/
def ChainPayout.debitedFor (p : ChainPayout) (address : String) : ℚ :=
  (p.settlements.map fun s => if s.resolved.address = address then s.debited else 0).sum

/-- What an account is debited by all calls of `AddAmount` together. -/
def ChainPayout.debitedFrom (p : ChainPayout) (account : Account) : ℚ :=
  (p.settlements.map fun s => s.debitedFrom account).sum

/-- What the balances of an account that are included in the send amount to. -/
def ChainPayout.included (p : ChainPayout) (account : Account) : ℚ :=
  (p.settlements.map fun s =>
    if s.resolved.balance.account = account then s.resolved.balance.Amount else 0).sum

/-- Every address is sent the total of its balances, and every balance is debited in full from
    its own account.  So what is debited for an address is what was sent to it, and of the
    balances of an account nothing is left to be paid again, nor is it debited for another's. -/
structure ChainPayout.Balanced (p : ChainPayout) : Prop where
  sent : ∀ address, p.sentTo address =
    total (paidTo (p.settlements.map Settlement.resolved) address)
  debited : ∀ s ∈ p.settlements, s.debited = s.resolved.balance.Amount
  paid : ∀ address, p.debitedFor address = p.sentTo address
  settled : ∀ account, p.debitedFrom account = p.included account

/-- All but the last of the balances of an address cancel out, and every balance that is not zero
    is one of the pool's own and neither its record nor its debit fails. -/
structure Agrees (config : Config) (services : Services) (chain : String)
    (resolved : List ResolvedBalance) : Prop where
  last_only : ∀ address, total (paidTo resolved address).dropLast = 0
  recorded : ∀ n r, resolved[n]? = some r → r.balance.Amount ≠ 0 →
    r.balance.PoolID = config.PoolName ∧ services.insertPayment chain n = true ∧
      services.addAmount chain n = true

/-- The debit of a balance is booked on the address and the chain of the balance, and on the pool
    of the configuration. -/
theorem settle_debitedFrom (config : Config) (services : Services) (chain txid : String) (n : Nat)
    (r : ResolvedBalance) (account : Account) :
    (settle config services chain txid n r).debitedFrom account =
      if services.insertPayment chain n = true ∧ services.addAmount chain n = true ∧
          ⟨config.PoolName, r.balance.Chain, r.balance.Address⟩ = account
        then r.balance.Amount else 0 := by
  rw [settle]
  cases services.insertPayment chain n <;> cases services.addAmount chain n <;>
    simp [Settlement.debitedFrom, AmountAdded.account]

theorem settle_resolved (config : Config) (services : Services) (chain txid : String) (n : Nat)
    (r : ResolvedBalance) : (settle config services chain txid n r).resolved = r := by
  rw [settle]
  split
  · rfl
  · rfl

/-- A balance is debited exactly if it is zero, or one of the pool's own whose records succeed. -/
theorem settle_debited (config : Config) (services : Services) (chain txid : String) (n : Nat)
    (r : ResolvedBalance) :
    (settle config services chain txid n r).debited = r.balance.Amount ↔
      (r.balance.Amount ≠ 0 → r.balance.PoolID = config.PoolName ∧
        services.insertPayment chain n = true ∧ services.addAmount chain n = true) := by
  have hown : (⟨config.PoolName, r.balance.Chain, r.balance.Address⟩ : Account) =
      r.balance.account ↔ r.balance.PoolID = config.PoolName := by
    simp [Balance.account, eq_comm]
  simp only [Settlement.debited, settle_resolved, settle_debitedFrom, hown]
  by_cases hamount : r.balance.Amount = 0
  · simp [hamount]
  · rw [ite_eq_left_iff]
    constructor
    · intro h _
      obtain ⟨hinsert, hadd, hpool⟩ := not_imp_comm.mp h fun h => hamount h.symm
      exact ⟨hpool, hinsert, hadd⟩
    · intro h hno
      obtain ⟨hpool, hinsert, hadd⟩ := h hamount
      exact absurd ⟨hinsert, hadd, hpool⟩ hno

/-- A balance that is debited in full takes nothing from another account. -/
theorem settle_debitedFrom_of_debited {config : Config} {services : Services}
    {chain txid : String} {n : Nat} {r : ResolvedBalance}
    (h : (settle config services chain txid n r).debited = r.balance.Amount) (account : Account) :
    (settle config services chain txid n r).debitedFrom account =
      if r.balance.account = account then r.balance.Amount else 0 := by
  rw [settle_debited] at h
  rw [settle_debitedFrom]
  by_cases hamount : r.balance.Amount = 0
  · simp [hamount]
  · obtain ⟨hpool, hinsert, hadd⟩ := h hamount
    simp [hinsert, hadd, Balance.account, hpool]

section

variable {config : Config} {services : Services} {p : ChainPayout}
  (h : payChain config services chain resolved = some p)
include h

/-- A payment that is sent pays and settles every resolved balance. -/
theorem payChain_eq_some :
    p.chain = chain ∧ p.transactions = transactionsOf resolved ∧
      p.settlements = resolved.mapIdx (settle config services chain p.txid) := by
  rw [payChain] at h
  split at h
  · cases h
  · obtain rfl := Option.some.inj h
    exact ⟨rfl, rfl, rfl⟩

theorem settlements_resolved : p.settlements.map Settlement.resolved = resolved := by
  rw [(payChain_eq_some h).2.2]
  apply List.ext_getElem?
  intro n
  rw [List.getElem?_map, List.getElem?_mapIdx, Option.map_map]
  simp only [Function.comp_def, settle_resolved, Option.map_id']

/-- Every settlement is the one of a balance of the chain. -/
theorem mem_settlements {s : Settlement} :
    s ∈ p.settlements ↔
      ∃ n r, resolved[n]? = some r ∧ s = settle config services chain p.txid n r := by
  rw [(payChain_eq_some h).2.2, List.mem_iff_getElem?]
  refine exists_congr fun n => ?_
  rw [List.getElem?_mapIdx, Option.map_eq_some_iff]
  exact exists_congr fun r => and_congr_right' eq_comm

/-- All balances are debited exactly if every record succeeds. -/
theorem debited_iff :
    (∀ s ∈ p.settlements, s.debited = s.resolved.balance.Amount) ↔
      ∀ n r, resolved[n]? = some r → r.balance.Amount ≠ 0 →
        r.balance.PoolID = config.PoolName ∧ services.insertPayment chain n = true ∧
          services.addAmount chain n = true := by
  simp only [mem_settlements h]
  constructor
  · intro hdebited n r hr
    have hfull := hdebited _ ⟨n, r, hr, rfl⟩
    rw [settle_resolved, settle_debited] at hfull
    exact hfull
  · rintro hrecorded s ⟨n, r, hr, rfl⟩
    rw [settle_resolved, settle_debited]
    exact hrecorded n r hr

theorem sent_iff :
    (∀ address, p.sentTo address = total (paidTo (p.settlements.map Settlement.resolved) address)) ↔
      ∀ address, total (paidTo resolved address).dropLast = 0 := by
  rw [settlements_resolved h]
  refine forall_congr' fun address => ?_
  rw [ChainPayout.sentTo, (payChain_eq_some h).2.1, sent_eq_total_iff]

/-- A payout is balanced exactly if services and balances agree. -/
theorem balanced_iff : p.Balanced ↔ Agrees config services chain resolved := by
  constructor
  · rintro ⟨hsent, hdebited, -, -⟩
    exact ⟨(sent_iff h).mp hsent, (debited_iff h).mp hdebited⟩
  · rintro ⟨hlast, hrecorded⟩
    have hsent := (sent_iff h).mpr hlast
    have hdebited := (debited_iff h).mpr hrecorded
    refine ⟨hsent, hdebited, ?_, ?_⟩
    · -- both sides are sums over the balances of the address
      intro address
      rw [hsent, total_paidTo, List.map_map, ChainPayout.debitedFor]
      refine congrArg List.sum (List.map_congr_left fun s hs => ?_)
      rw [hdebited s hs]
      rfl
    · -- a debit is booked on the account of its balance or nowhere
      intro account
      refine congrArg List.sum (List.map_congr_left fun s hs => ?_)
      have hfull := hdebited s hs
      obtain ⟨n, r, hr, rfl⟩ := (mem_settlements h).mp hs
      rw [settle_resolved] at hfull ⊢
      exact settle_debitedFrom_of_debited hfull account

end

/-- **When a payout balances.**  Exactly when no two balances share an address (unless amounts
    cancel out), every balance is one of the pool's own and no payment record or debit fails. -/
theorem payout_balanced_iff (config : Config) (services : Services) (balances : List Balance)
    (payouts : List ChainPayout)
    (hbalances : config.BlockChainOrder.foldlM (collectBalances config services) [] = .ok balances)
    (hpayouts : payoutBalances config services = .ok payouts) :
    ∀ p ∈ payouts,
      p.settlements.map Settlement.resolved = resolvedFor config services balances p.chain ∧
      (p.Balanced ↔
        Agrees config services p.chain (resolvedFor config services balances p.chain)) := by
  intro p hp
  rw [payoutBalances, hbalances] at hpayouts
  have hpaid : ∃ entry ∈ (chainBalances config services balances).items,
      payChain config services entry.1 entry.2 = some p := by
    change (if balances.isEmpty = true then Except.ok [] else Except.ok _) = Except.ok payouts
      at hpayouts
    split at hpayouts
    · obtain rfl := Except.ok.inj hpayouts
      cases hp
    · obtain rfl := Except.ok.inj hpayouts
      exact List.mem_filterMap.mp hp
  obtain ⟨entry, hentry, hpay⟩ := hpaid
  have hresolved := mem_chainBalances config services hentry
  have hchain := (payChain_eq_some hpay).1
  rw [hchain, ← hresolved]
  exact ⟨settlements_resolved hpay, balanced_iff hpay⟩

namespace Fixture

/-- A pool with two chains. -/
def samplePool : Config := ⟨"pool", ["litecoin", "soqucoin"], fun _ => some 1⟩

/-- Two miners; miner names are looked up without regard to case. -/
def sampleBalances (second : String) : List Balance :=
  [⟨"pool", "soqucoin", "alice", 5⟩, ⟨"pool", "soqucoin", second, 7⟩]

/-- Services for the two miners, where the record of a payment may fail. -/
def sampleServices (second : String) (insertFails : Bool) : Services where
  getPoolBalancesOverThreshold _ chain _ :=
    .ok (if chain = "soqucoin" then sampleBalances second else [])
  resolvePayoutAddress miner _ := if miner = "bob" then some "sq1b" else some "sq1a"
  soqSigner := some fun _ => .ok "txid"
  rpcManager _ := none
  insertPayment _ n := !(insertFails && n = 0)
  addAmount _ _ := true

/-- The payout that follows. -/
def samplePayout (second : String) (insertFails : Bool) : ChainPayout where
  chain := "soqucoin"
  transactions := transactionsOf
    (resolvedFor samplePool (sampleServices second insertFails) (sampleBalances second) "soqucoin")
  txid := "txid"
  settlements :=
    (resolvedFor samplePool (sampleServices second insertFails) (sampleBalances second)
      "soqucoin").mapIdx (settle samplePool (sampleServices second insertFails) "soqucoin" "txid")

end Fixture

open Fixture in
/-- Two miners that are paid to their own addresses. -/
theorem payout_balanced_own_addresses :
    Agrees samplePool (sampleServices "bob" false) "soqucoin"
        (resolvedFor samplePool (sampleServices "bob" false) (sampleBalances "bob") "soqucoin") ∧
      (samplePayout "bob" false).Balanced := by
  have hagrees : Agrees samplePool (sampleServices "bob" false) "soqucoin"
      (resolvedFor samplePool (sampleServices "bob" false) (sampleBalances "bob") "soqucoin") := by
    refine ⟨(no_collision_iff (by decide +kernel)).mpr (by decide +kernel), ?_⟩
    intro n r hr _
    have hpool : ∀ r ∈ resolvedFor samplePool (sampleServices "bob" false) (sampleBalances "bob")
        "soqucoin", r.balance.PoolID = "pool" := by decide +kernel
    exact ⟨hpool r (List.mem_of_getElem? hr), rfl, rfl⟩
  have h := payout_balanced_iff samplePool (sampleServices "bob" false) (sampleBalances "bob")
    [samplePayout "bob" false] (by decide +kernel) (by rfl) (samplePayout "bob" false)
      List.mem_cons_self
  exact ⟨hagrees, h.2.mpr hagrees⟩

open Fixture in
/-- Two balances with one payout address: the address is sent 7 and the miners are debited 12.
    A failing record: 5 is sent and not debited. -/
theorem payout_unbalanced :
    payoutBalances samplePool (sampleServices "ALICE" false) = .ok [samplePayout "ALICE" false] ∧
      (samplePayout "ALICE" false).transactions.items = [("sq1a", 7)] ∧
      (samplePayout "ALICE" false).settlements.map Settlement.debited = [5, 7] ∧
      payoutBalances samplePool (sampleServices "bob" true) = .ok [samplePayout "bob" true] ∧
      (samplePayout "bob" true).transactions.items = [("sq1a", 5), ("sq1b", 7)] ∧
      (samplePayout "bob" true).settlements.map Settlement.debited = [0, 7] := by
  refine ⟨rfl, by decide +kernel, by decide +kernel, rfl, by decide +kernel, by decide +kernel⟩

end Soqucoin.Payouts
