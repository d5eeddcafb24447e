import Mathlib.Algebra.Order.Field.Rat
import Soqucoin.OrderedDictProofs

/-! # Payouts — the pool pays its miners

`payouts/payer.go` of `pool-server-patches`: the balances over a threshold are resolved to payout
addresses, sent chain by chain in one call each, recorded and debited.  A Go map is an
`OrderedDict`, of which no result depends on the order; amounts are exact numbers. -/

namespace Soqucoin.Payouts

/-- A balance of the pool's database. -/
structure Balance where
  PoolID : String
  Chain : String
  Address : String
  Amount : ℚ
deriving DecidableEq

/-- Whose balance it is: an account of the `balances` table. -/
structure Account where
  PoolID : String
  Chain : String
  Address : String
deriving DecidableEq

/-- Whose balance it is. -/
def Balance.account (b : Balance) : Account := ⟨b.PoolID, b.Chain, b.Address⟩

/-- The fields of a payment record; the time of creation is left out. -/
structure Payment where
  PoolID : String
  Chain : String
  Address : String
  Amount : ℚ
  TransactionConfirmationData : String
deriving DecidableEq

/-- The settings of the pool. -/
structure Config where
  PoolName : String
  BlockChainOrder : List String
  /-- `Payouts.Chains`: the minimum payment of a chain. -/
  minerMinimumPayment : String → Option ℚ

/-- The amount for every address of a payment. -/
abbrev Transactions := OrderedDict String ℚ

/-- The database, the signer and the nodes.  Any pattern of inserts and debits may fail: the
    chain and the position in its payout say which go through. -/
structure Services where
  getPoolBalancesOverThreshold : String → String → ℚ → Except String (List Balance)
  resolvePayoutAddress : String → String → Option String
  soqSigner : Option (Transactions → Except String String)
  rpcManager : String → Option (Transactions → Except String String)
  insertPayment : String → Nat → Bool
  addAmount : String → Nat → Bool

/-- Why an address is not resolved; the texts go to the log only. -/
inductive ResolveError where
  | fewAddresses (address : String) (count : Nat) (chain : String) (index : Nat)
  | notInComposite (chain : String)
  | unresolved (address chain : String)
deriving DecidableEq

/-- The prefixes tried on the lower-cased address. -/
def knownPrefixes : List String := ["ssq1", "sq1", "ltc1", "L", "M", "D", "bel1", "B"]

/-- `strings.HasPrefix` of `strings.ToLower`: the lower case of no other character than an
    ASCII letter begins one of the prefixes. -/
def hasKnownPrefix (address : String) : Bool :=
  knownPrefixes.any fun pre => pre.toList.isPrefixOf (address.toList.map Char.toLower)

/-- `findBalanceAddress`: the chain's part of a composite address, the address that is known for
    a name, or the address itself. -/
def findBalanceAddress (config : Config) (services : Services) (balance : Balance) :
    Except ResolveError String :=
  let address := balance.Address
  if address.toList.contains '-' then
    let addresses := (address.toList.splitOn '-').map String.ofList
    match config.BlockChainOrder.idxOf? balance.Chain with
    | none => .error (.notInComposite balance.Chain)
    | some i =>
      match addresses[i]? with
      | none => .error (.fewAddresses address addresses.length balance.Chain i)
      | some resolved => .ok resolved
  else
    match services.resolvePayoutAddress address balance.Chain with
    | some resolved =>
      if resolved ≠ "" then .ok resolved
      else if hasKnownPrefix address then .ok address
      else .error (.unresolved address balance.Chain)
    | none =>
      if hasKnownPrefix address then .ok address
      else .error (.unresolved address balance.Chain)

/-- A balance with the address it is paid to. -/
structure ResolvedBalance where
  balance : Balance
  address : String
deriving DecidableEq

/-- A call of `AddAmount` that went through. -/
structure AmountAdded where
  PoolID : String
  Chain : String
  Address : String
  Usage : String
  Amount : ℚ
deriving DecidableEq

/-- What became of a balance that was included in a send. -/
structure Settlement where
  resolved : ResolvedBalance
  payment : Option Payment
  added : Option AmountAdded
deriving DecidableEq

/-- Whose balance it changes. -/
def AmountAdded.account (a : AmountAdded) : Account := ⟨a.PoolID, a.Chain, a.Address⟩

/-- By how much an account was debited on behalf of the balance. -/
def Settlement.debitedFrom (s : Settlement) (account : Account) : ℚ :=
  match s.added with
  | none => 0
  | some a => if a.account = account then -a.Amount else 0

/-- By how much the account of the balance itself was debited. -/
def Settlement.debited (s : Settlement) : ℚ := s.debitedFrom s.resolved.balance.account

/-- A send that succeeded, and what followed it. -/
structure ChainPayout where
  chain : String
  transactions : Transactions
  txid : String
  settlements : List Settlement

/-- `transactions[r.address] = r.balance.Amount` for each balance. -/
def transactionsOf (resolved : List ResolvedBalance) : Transactions :=
  resolved.foldl (fun d r => d.update r.address fun _ => r.balance.Amount) .empty

/-- `sendSOQPayments`: through the signer, where one is set up. -/
def sendSOQPayments (services : Services) (transactions : Transactions) : Except String String :=
  match services.soqSigner with
  | none => .error "soq-signer not configured — cannot send SOQ payments"
  | some sendMany => sendMany transactions

/-- `sendRPCPayments`: through the node's wallet. -/
def sendRPCPayments (services : Services) (chain : String) (transactions : Transactions) :
    Except String String :=
  match services.rpcManager chain with
  | none => .error ("no RPC manager for chain: " ++ chain)
  | some sendMany =>
    match sendMany transactions with
    | .error err => .error ("sendmany " ++ chain ++ ": " ++ err)
    | .ok txid => .ok txid

/-- A balance is debited only behind its payment record. -/
def settle (config : Config) (services : Services) (chain txid : String) (n : Nat)
    (r : ResolvedBalance) : Settlement :=
  if services.insertPayment chain n then
    { resolved := r
      payment := some ⟨r.balance.PoolID, r.balance.Chain, r.address, r.balance.Amount, txid⟩
      added := if services.addAmount chain n then
          some ⟨config.PoolName, r.balance.Chain, r.balance.Address, "Paid balance to miner",
            r.balance.Amount * -1⟩
        else none }
  else ⟨r, none, none⟩

/-- The payment of one chain and its bookkeeping. -/
def payChain (config : Config) (services : Services) (chain : String)
    (resolved : List ResolvedBalance) : Option ChainPayout :=
  let transactions := transactionsOf resolved
  let sent := if chain = "soqucoin" then sendSOQPayments services transactions
    else sendRPCPayments services chain transactions
  match sent with
  | .error _ => none
  | .ok txid =>
    some ⟨chain, transactions, txid, resolved.mapIdx (settle config services chain txid)⟩

/-- The balances of a chain over its threshold, added to those before. -/
def collectBalances (config : Config) (services : Services) (balances : List Balance)
    (chain : String) : Except String (List Balance) :=
  match config.minerMinimumPayment chain with
  | none => .error ("payouts.payoutBalances() - failed to find chain payout config: " ++ chain)
  | some minimum => do
      let b ← services.getPoolBalancesOverThreshold config.PoolName chain minimum
      return balances ++ b

/-- The balances of each chain, with their addresses. -/
def chainBalances (config : Config) (services : Services) (balances : List Balance) :
    OrderedDict String (List ResolvedBalance) :=
  balances.foldl (fun d balance =>
    match findBalanceAddress config services balance with
    | .error _ => d
    | .ok address => d.update balance.Chain fun old => old.getD [] ++ [⟨balance, address⟩]) .empty

/-- `PayoutBalances`: collect, then pay chain by chain. -/
def payoutBalances (config : Config) (services : Services) : Except String (List ChainPayout) := do
  let balances ← config.BlockChainOrder.foldlM (collectBalances config services) []
  if balances.isEmpty then return []
  return (chainBalances config services balances).items.filterMap fun entry =>
    payChain config services entry.1 entry.2

end Soqucoin.Payouts
