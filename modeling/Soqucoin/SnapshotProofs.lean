import Soqucoin.Snapshot

/-! # SnapshotProofs — every burn of the window is booked once

A run of the tool is taken apart into its stages: the page walk, one verdict a transaction, the
booking of the verdicts, the tainted-destination rule and the cap.  Each stage only moves
transactions between the allocations and the exclusions, so together they hold the transactions
that burn the mint, each one once. -/

namespace Soqucoin.Snapshot

open CheckedLoop

/-! ## The page walk -/

section Walk

variable {rpc : RpcClient} {mint : String} {openSlot cutoffSlot : Nat}
variable {history : List SignatureEntry}

/-- The first `n` pages of a walk that starts with the given call and cursor. -/
def replies (rpc : RpcClient) (mint : String) : Nat → Nat → Option String →
    List (List SignatureEntry)
  | 0, _, _ => []
  | n + 1, call, before =>
    let page := rpc.getSignaturesForAddress call mint (before.filter (· ≠ ""))
    match page.getLast? with
    | none => [page]
    | some last => page :: replies rpc mint n (call + 1) (some last.signature)

/-- The provider serves this history newest-first: it makes nothing up, and the
    pages up to any point hold everything newer than the entry they end at.
    Pages may have any size and repeat entries. -/
structure ServesNewestFirst (rpc : RpcClient) (mint : String) (history : List SignatureEntry) :
    Prop where
  honest : ∀ n, ∀ e ∈ (replies rpc mint n 0 none).flatten, e ∈ history
  newestFirst : ∀ n page last, (replies rpc mint n 0 none).getLast? = some page →
    page.getLast? = some last → ∀ e ∈ history, last.slot < e.slot →
      e ∈ (replies rpc mint n 0 none).flatten

/-- A walk that ends has kept the window's part of its pages, and its last page
    ends below the window. -/
theorem walkPages_eq_ok : ∀ {fuel call : Nat} {before : Option String} {lowest : Option Nat}
    {sigs out : List SignatureEntry},
    walkPages rpc mint openSlot cutoffSlot fuel call before lowest sigs = .ok out →
    ∃ n page last, (replies rpc mint n call before).getLast? = some page ∧
      page.getLast? = some last ∧ last.slot < openSlot ∧
      out = sigs ++
        (replies rpc mint n call before).flatten.filter (inWindow openSlot cutoffSlot) := by
  intro fuel
  induction fuel with
  | zero =>
    intro call before lowest sigs out h
    cases h
  | succ fuel ih =>
    intro call before lowest sigs out h
    simp only [walkPages] at h
    cases hlast : (rpc.getSignaturesForAddress call mint
        (before.filter (· ≠ ""))).getLast? with
    | none =>
      rw [hlast] at h
      cases lowest <;> cases h
    | some last =>
      rw [hlast] at h
      simp only at h
      by_cases hbelow : last.slot < openSlot
      · rw [if_pos hbelow] at h
        refine ⟨1, _, last, ?_, hlast, hbelow, ?_⟩
        · simp only [replies, hlast, List.getLast?_singleton]
        · simp only [replies, hlast, List.flatten_cons, List.flatten_nil, List.append_nil]
          exact (Except.ok.inj h).symm
      · rw [if_neg hbelow] at h
        obtain ⟨n, page, last', hpage, hlast', hopen, hout⟩ := ih h
        refine ⟨n + 1, page, last', ?_, hlast', hopen, ?_⟩
        · simp only [replies, hlast]
          rw [List.getLast?_cons, hpage]
          rfl
        · simp only [replies, hlast, List.flatten_cons, List.filter_append]
          rw [hout, List.append_assoc]

/-- **The walk finds the window.**  What it returns is the part of the history
    inside the window, each entry once. -/
theorem enumerateSignatures_eq_ok (hserve : ServesNewestFirst rpc mint history) {fuel : Nat}
    {out : List SignatureEntry}
    (h : enumerateSignatures rpc mint openSlot cutoffSlot fuel = .ok out) :
    out.Nodup ∧ ∀ e, e ∈ out ↔ e ∈ history ∧ inWindow openSlot cutoffSlot e := by
  obtain ⟨sigs, hwalk, hout⟩ := bind_eq_ok.mp h
  obtain ⟨n, page, last, hpage, hlast, hbelow, hsigs⟩ := walkPages_eq_ok hwalk
  obtain rfl : sortedSet sigs = out := Except.ok.inj hout
  have hperm := List.perm_insertionSort SignatureEntry.le sigs.dedup
  refine ⟨hperm.nodup_iff.mpr sigs.nodup_dedup, fun e => ?_⟩
  rw [sortedSet, hperm.mem_iff, List.mem_dedup, hsigs, List.nil_append, List.mem_filter]
  constructor
  · rintro ⟨hmem, hwin⟩
    exact ⟨hserve.honest n e hmem, hwin⟩
  · rintro ⟨hmem, hwin⟩
    refine ⟨hserve.newestFirst n page last hpage hlast e hmem ?_, hwin⟩
    have hopen : openSlot ≤ e.slot := by
      simp only [inWindow, Bool.and_eq_true, decide_eq_true_eq] at hwin
      exact hwin.1
    omega

end Walk

/-! ## The instructions of a transaction -/

section Scan

variable {mint : String} {tx : Tx}

/-- A checked burn of the mint, whatever its decimals. -/
def isCheckedBurn (ins : Instruction) (mint : String) : Bool :=
  isTokenProgram ins &&
    match ins.parsed with
    | .dict type info => type = some "burnChecked" && info.mint = some mint
    | _ => false

/-- The transaction holds a burn of the mint, checked or not. -/
def burnsMint (mint : String) (tx : Tx) : Bool :=
  (walkInstructions tx).any fun ins => isCheckedBurn ins mint || isUncheckedBurn ins mint

/-- The base units a checked burn of the mint takes. -/
def checkedAmount (mint : String) (ins : Instruction) : Option Int :=
  match ins.parsed with
  | .dict _ info => if isCheckedBurn ins mint then some (info.tokenAmount.amount.getD 0) else none
  | _ => none

/-- The base units of the mint the checked burns of a transaction take. -/
def burnedUnits (mint : String) (tx : Tx) : Int :=
  ((walkInstructions tx).filterMap (checkedAmount mint)).sum

/-- The memos of a transaction. -/
def memosOf (tx : Tx) : List String := (walkInstructions tx).filterMap parseMemo

/-- Checked burns of the mint carry the decimals of the mint. -/
def SixDecimals (mint : String) (tx : Tx) : Prop :=
  ∀ ins ∈ walkInstructions tx, isCheckedBurn ins mint = true →
    ∀ type info, ins.parsed = .dict type info → info.tokenAmount.decimals = some PSOQ_DECIMALS

/-- A burn of six decimals is read with its amount. -/
theorem parseBurn_eq_ok {ins : Instruction} {burn : Option (Int × String)}
    (hdec : isCheckedBurn ins mint → ∀ type info, ins.parsed = .dict type info →
      info.tokenAmount.decimals = some PSOQ_DECIMALS)
    (h : parseBurn ins mint = .ok burn) : burn.map Prod.fst = checkedAmount mint ins := by
  rw [parseBurn] at h
  rw [checkedAmount]
  rw [isCheckedBurn] at hdec ⊢
  cases hprog : isTokenProgram ins with
  | false =>
    obtain rfl : none = burn := by simpa [hprog] using h
    cases ins.parsed <;> rfl
  | true =>
    cases hparsed : ins.parsed with
    | text s =>
      obtain rfl : none = burn := by simpa [hprog, hparsed] using h
      rfl
    | other =>
      obtain rfl : none = burn := by simpa [hprog, hparsed] using h
      rfl
    | dict type info =>
      simp only [hprog, hparsed, Bool.true_and, Bool.and_eq_true, decide_eq_true_eq, Bool.not_true,
        Bool.false_eq_true, if_false, ne_eq, ite_not] at h hdec ⊢
      by_cases hburn : type = some "burnChecked" ∧ info.mint = some mint
      · have hdec := hdec hburn type info rfl
        simp only [hburn, hdec, Option.getD_some, if_true] at h
        rw [if_pos hburn]
        cases hamount : info.tokenAmount.amount with
        | none =>
          rw [hamount] at h
          cases h
        | some units =>
          rw [hamount] at h
          obtain rfl := Except.ok.inj h
          rfl
      · rw [if_neg hburn]
        rw [not_and] at hburn
        by_cases htype : type = some "burnChecked"
        · rw [if_pos htype, if_neg (hburn htype)] at h
          obtain rfl := Except.ok.inj h
          rfl
        · rw [if_neg htype] at h
          obtain rfl := Except.ok.inj h
          rfl

/-- What the loop over the instructions has found. -/
theorem scan_eq_ok {s : TxScan} (hdec : SixDecimals mint tx)
    (h : (walkInstructions tx).foldlM (scanInstruction mint) {} = .ok s) :
    s.burns.map Prod.fst = (walkInstructions tx).filterMap (checkedAmount mint) ∧
      s.memos = memosOf tx ∧ s.unchecked = (walkInstructions tx).any (isUncheckedBurn · mint) := by
  have hstep : ∀ (t : TxScan) ins u, scanInstruction mint t ins = .ok u →
      ∃ burn, parseBurn ins mint = .ok burn ∧ u.burns = t.burns ++ burn.toList ∧
        u.memos = t.memos ++ (parseMemo ins).toList ∧
        u.unchecked = (t.unchecked || isUncheckedBurn ins mint) := by
    intro t ins u hu
    obtain ⟨burn, hburn, hu⟩ := bind_eq_ok.mp hu
    obtain rfl := Except.ok.inj hu
    exact ⟨burn, hburn, rfl, rfl, rfl⟩
  refine ⟨?_, ?_, ?_⟩
  · refine foldlM_collect (fun t : TxScan => t.burns.map Prod.fst) (checkedAmount mint) _ ?_ h
    intro t ins u hins hu
    obtain ⟨burn, hburn, hburns, -⟩ := hstep t ins u hu
    rw [hburns, List.map_append, ← parseBurn_eq_ok (hdec ins hins) hburn]
    cases burn <;> rfl
  · refine foldlM_collect (fun t : TxScan => t.memos) parseMemo _ ?_ h
    intro t ins u _ hu
    obtain ⟨-, -, -, hmemos, -⟩ := hstep t ins u hu
    exact hmemos
  · have htrack := foldlM_track (fun t : TxScan => t.unchecked)
      (fun acc ins => acc || isUncheckedBurn ins mint) (walkInstructions tx) (by
        intro t ins u _ hu
        obtain ⟨-, -, -, -, hunchecked⟩ := hstep t ins u hu
        exact hunchecked) h
    rw [htrack, foldl_or, Bool.false_or]

/-- The memo names this address: the prefix, then the address, or an uppercase
    spelling that lowers to it. -/
def MemoNames (py : StrMethods) (memo address : String) : Prop :=
  ∃ written : String, memo = MEMO_PREFIX ++ written ∧
    (written = address ∨ (py.isupper written = true ∧ py.lower written = address))

variable {py : StrMethods} {lists : Lists}

/-- A memo that is taken names its address. -/
theorem memoAddress_eq_ok {memo address : String} (h : memoAddress py memo = .ok address) :
    MemoNames py memo address := by
  rw [memoAddress] at h
  cases hpre : MEMO_PREFIX.toList.isPrefixOf memo.toList with
  | false =>
    rw [hpre] at h
    cases h
  | true =>
    rw [hpre, Bool.not_true, if_neg Bool.false_ne_true] at h
    obtain ⟨rest, hrest⟩ := List.isPrefixOf_iff_prefix.mp hpre
    rw [← hrest, List.drop_left] at h
    refine ⟨String.ofList rest, ?_, ?_⟩
    · rw [← String.toList_inj, String.toList_append, String.toList_ofList, hrest]
    · simp only at h
      split at h
      · cases h
      · split at h
        · cases h
        · have haddress := Except.ok.inj h
          cases hupper : py.isupper (String.ofList rest) with
          | false =>
            rw [hupper, if_neg Bool.false_ne_true] at haddress
            exact Or.inl haddress
          | true =>
            rw [hupper, if_pos rfl] at haddress
            exact Or.inr ⟨rfl, haddress⟩

/-- A bad memo is no missing burn. -/
theorem memoAddress_ne_noBurn {memo : String} {reason : Reason}
    (h : memoAddress py memo = .error reason) : reason ≠ .noBurn := by
  rw [memoAddress] at h
  simp only at h
  split at h
  · cases h
    exact Reason.noConfusion
  · split at h
    · cases h
      exact Reason.noConfusion
    · split at h
      · cases h
        exact Reason.noConfusion
      · cases h

/-- The transaction names this address in its only memo, and all its burns are checked. -/
def Names (py : StrMethods) (s : TxScan) (address : String) : Prop :=
  s.unchecked = false ∧ ∃ memo, s.memos = [memo] ∧ memoAddress py memo = .ok address

/-- What a verdict says of the transaction: only one without any burn is passed
    over, and one that is withheld or credited names its address. -/
def Explains (py : StrMethods) (s : TxScan) : Verdict → Prop
  | .excluded reason => reason = .noBurn → s.burns = [] ∧ s.unchecked = false
  | .withheld address _ => Names py s address
  | .eligible address sats _ => Names py s address ∧
      DUST_FLOOR_BASE_UNITS ≤ (s.burns.map Prod.fst).sum ∧
      sats = (s.burns.map Prod.fst).sum * BASE_UNITS_TO_SATS

/-- Every verdict is explained by what the scan has found. -/
theorem explains_judge (py : StrMethods) (lists : Lists) (s : TxScan) :
    Explains py s (judge py lists s) := by
  have other : ∀ reason, reason ≠ .noBurn → Explains py s (.excluded reason) :=
    fun reason hne heq => absurd heq hne
  rw [judge]
  by_cases hburns : s.burns.isEmpty = true
  · rw [if_pos hburns]
    by_cases hunchecked : s.unchecked = true
    · rw [if_pos hunchecked]
      exact other _ Reason.noConfusion
    · rw [if_neg hunchecked]
      exact fun _ => ⟨List.isEmpty_iff.mp hburns, Bool.eq_false_iff.mpr hunchecked⟩
  rw [if_neg hburns]
  by_cases hunchecked : s.unchecked = true
  · rw [if_pos hunchecked]
    exact other _ Reason.noConfusion
  rw [if_neg hunchecked]
  simp only
  generalize (s.burns.map Prod.snd).dedup.insertionSort (· ≤ ·) = authorities
  split
  · exact other _ Reason.noConfusion
  rcases hmemos : s.memos with _ | ⟨memo, _ | ⟨memo', rest⟩⟩
  · exact other _ Reason.noConfusion
  · cases haddress : memoAddress py memo with
    | error reason =>
      simp only [haddress]
      exact other _ (memoAddress_ne_noBurn haddress)
    | ok address =>
      have hnames : Names py s address :=
        ⟨Bool.eq_false_iff.mpr hunchecked, memo, hmemos, haddress⟩
      simp only [haddress]
      split
      · exact other _ Reason.noConfusion
      · split
        · exact hnames
        · split
          · exact other _ Reason.noConfusion
          · next hdust => exact ⟨hnames, not_lt.mp hdust, rfl⟩
  · exact other _ Reason.noConfusion

/-- An eligible transaction burns what it is credited, and one memo names the address. -/
theorem classifyTx_eq_ok (hdec : SixDecimals mint tx) {v : Verdict}
    (h : classifyTx py mint lists tx = .ok v) :
    (v = .excluded .noBurn → burnsMint mint tx = false) ∧
      ∀ address sats authorities, v = .eligible address sats authorities →
        sats = 100 * burnedUnits mint tx ∧
        (walkInstructions tx).any (isUncheckedBurn · mint) = false ∧
        ∃ memo, memosOf tx = [memo] ∧ MemoNames py memo address := by
  rw [classifyTx] at h
  split at h
  · obtain rfl := Except.ok.inj h
    constructor
    · intro heq
      cases heq
    · intro address sats authorities heq
      cases heq
  · obtain ⟨s, hscan, hv⟩ := bind_eq_ok.mp h
    obtain rfl := Except.ok.inj hv
    obtain ⟨hburns, hmemos, hunchecked⟩ := scan_eq_ok hdec hscan
    have hexplains := explains_judge py lists s
    constructor
    · intro heq
      rw [heq] at hexplains
      obtain ⟨hnone, hnot⟩ := hexplains rfl
      rw [hnone, List.map_nil, eq_comm, List.filterMap_eq_nil_iff] at hburns
      rw [hunchecked, List.any_eq_false] at hnot
      rw [burnsMint, List.any_eq_false]
      intro ins hins hburn
      rcases Bool.or_eq_true_iff.mp hburn with hchecked | hplain
      · have hamount := hburns ins hins
        rw [checkedAmount, hchecked] at hamount
        cases hparsed : ins.parsed <;> simp [hparsed, isCheckedBurn] at hamount hchecked
      · exact hnot ins hins hplain
    · intro address sats authorities heq
      rw [heq] at hexplains
      obtain ⟨⟨hnot, memo, hmemo, haddress⟩, -, hsats⟩ := hexplains
      rw [hburns] at hsats
      exact ⟨hsats.trans (mul_comm _ _), hunchecked.symm.trans hnot, memo,
        hmemos.symm.trans hmemo, memoAddress_eq_ok haddress⟩

/-- An eligible deposit has a positive amount. -/
theorem classifyTx_eligible_pos {address : String} {sats : Int} {authorities : List String}
    (h : classifyTx py mint lists tx = .ok (.eligible address sats authorities)) : 0 < sats := by
  rw [classifyTx] at h
  split at h
  · cases h
  · obtain ⟨s, -, hv⟩ := bind_eq_ok.mp h
    have hexplains := explains_judge py lists s
    rw [Except.ok.inj hv] at hexplains
    obtain ⟨-, hdust, hsats⟩ := hexplains
    simp only [DUST_FLOOR_BASE_UNITS, BASE_UNITS_TO_SATS] at hdust hsats
    omega

end Scan

/-! ## Booking the verdicts -/

section Booking

variable {py : StrMethods} {rpc : RpcClient} {mint : String} {lists : Lists}

/-- The verdict on the transaction of a history entry. -/
def verdictOf (py : StrMethods) (rpc : RpcClient) (mint : String) (lists : Lists)
    (e : SignatureEntry) : Except SystemExit Verdict := do
  let tx ← fetchTx rpc e
  classifyTx py mint lists tx

/-- Note all the verdicts. -/
def Ledger.bookAll (s : Ledger) (judged : List (SignatureEntry × Verdict)) : Ledger :=
  judged.foldl (fun s p => s.book p.1 p.2) s

/-- The loop judges every entry and books the verdicts. -/
theorem foldlM_snapshotStep : ∀ {entries : List SignatureEntry} {s t : Ledger},
    entries.foldlM (snapshotStep py rpc mint lists) s = .ok t →
    ∃ judged : List (SignatureEntry × Verdict), judged.map Prod.fst = entries ∧
      (∀ p ∈ judged, verdictOf py rpc mint lists p.1 = .ok p.2) ∧ t = s.bookAll judged := by
  intro entries
  induction entries with
  | nil =>
    intro s t h
    exact ⟨[], rfl, fun _ hp => absurd hp List.not_mem_nil, foldlM_nil_eq_ok.mp h⟩
  | cons e entries ih =>
    intro s t h
    obtain ⟨m, hstep, hrest⟩ := foldlM_cons_eq_ok.mp h
    obtain ⟨tx, hfetch, hstep⟩ := bind_eq_ok.mp hstep
    obtain ⟨v, hclassify, hm⟩ := bind_eq_ok.mp hstep
    obtain rfl := Except.ok.inj hm
    obtain ⟨judged, hmap, hverdicts, ht⟩ := ih hrest
    refine ⟨(e, v) :: judged, by rw [List.map_cons, hmap], ?_, ht⟩
    intro p hp
    rcases List.mem_cons.mp hp with rfl | hp
    · exact bind_eq_ok.mpr ⟨tx, hfetch, hclassify⟩
    · exact hverdicts p hp

/-- A fetched transaction is the provider's. -/
theorem fetchTx_eq_ok {e : SignatureEntry} {tx : Tx} (h : fetchTx rpc e = .ok tx) :
    rpc.getTransaction e.signature = some tx := by
  rw [fetchTx] at h
  cases hget : rpc.getTransaction e.signature with
  | none =>
    rw [hget] at h
    cases h
  | some tx' =>
    rw [hget] at h
    simp only at h
    split at h
    · cases h
    · split at h
      · rw [Except.ok.inj h]
      · split at h
        · cases h
        · rw [Except.ok.inj h]

/-- Every transaction the ledger holds, credited or excluded. -/
def Ledger.txids (s : Ledger) : List String :=
  (s.allocations.items.flatMap fun p => p.2.txids) ++ s.exclusions.map Exclusion.txid

/-- A transaction that the ledger names. -/
def bookedTxid (p : SignatureEntry × Verdict) : Option String :=
  if p.2 = .excluded .noBurn then none else some p.1.signature

theorem credit_txids (old : Option Allocation) (sats : Int) (txid : String) :
    (Allocation.credit sats txid old).txids = old.elim [] Allocation.txids ++ [txid] := by
  cases old <;> rfl

/-- Booking a verdict names its transaction once. -/
theorem txids_book (s : Ledger) (e : SignatureEntry) (v : Verdict) :
    (s.book e v).txids.Perm (s.txids ++ (bookedTxid (e, v)).toList) := by
  cases v with
  | excluded reason =>
    rw [Ledger.book, bookedTxid]
    by_cases hreason : reason = .noBurn
    · simp [hreason]
    · simp [hreason, Ledger.txids]
  | withheld address grounds => simp [Ledger.book, bookedTxid, Ledger.txids]
  | eligible address sats authorities =>
    have hcredit : ((s.allocations.update address
        (Allocation.credit sats e.signature)).items.flatMap
        fun p => p.2.txids).Perm
        ((s.allocations.items.flatMap fun p => p.2.txids) ++ [e.signature]) :=
      OrderedDict.flatMap_update_perm (by rw [credit_txids])
    refine (hcredit.append_right _).trans ?_
    rw [List.append_assoc, Ledger.txids, List.append_assoc]
    exact List.Perm.append_left _ List.perm_append_comm

/-- Booking all verdicts names every transaction once. -/
theorem txids_bookAll : ∀ (judged : List (SignatureEntry × Verdict)) (s : Ledger),
    (s.bookAll judged).txids.Perm (s.txids ++ judged.filterMap bookedTxid) := by
  intro judged
  induction judged with
  | nil =>
    intro s
    simp [Ledger.bookAll]
  | cons p judged ih =>
    intro s
    refine (ih (s.book p.1 p.2)).trans ?_
    refine ((txids_book s p.1 p.2).append_right _).trans ?_
    rw [List.append_assoc, List.filterMap_cons]
    cases bookedTxid (p.1, p.2) <;> exact List.Perm.refl _

/-- A burn that counts for an address. -/
structure Credit where
  address : String
  sats : Int
  txid : String
  slot : Nat
deriving DecidableEq

/-- The credit of a verdict. -/
def creditOf (p : SignatureEntry × Verdict) : Option Credit :=
  match p.2 with
  | .eligible address sats _ => some ⟨address, sats, p.1.signature, p.1.slot⟩
  | _ => none

/-- The withheld entry of a verdict. -/
def withheldOf (p : SignatureEntry × Verdict) : Option Withheld :=
  match p.2 with
  | .withheld address grounds => some ⟨p.1.signature, p.1.slot, address, grounds⟩
  | _ => none

theorem creditOf_txid {p : SignatureEntry × Verdict} {c : Credit} (h : creditOf p = some c) :
    c.txid = p.1.signature := by
  obtain ⟨e, v⟩ := p
  cases v <;> cases h
  rfl

/-- What an address has been credited. -/
def Allocation.ofCredits (credits : List Credit) : Option Allocation :=
  if credits.isEmpty then none
  else some ⟨(credits.map Credit.sats).sum, credits.map Credit.txid⟩

/-- Credits add up. -/
theorem foldl_credit (credits : List Credit) :
    ∀ (old : Allocation),
      credits.foldl (fun o c => some (Allocation.credit c.sats c.txid o)) (some old) =
        some ⟨old.sats + (credits.map Credit.sats).sum, old.txids ++ credits.map Credit.txid⟩ := by
  induction credits with
  | nil =>
    intro old
    simp
  | cons c credits ih =>
    intro old
    rw [List.foldl_cons, ih]
    simp [Allocation.credit, add_assoc]

/-- An allocation is its credits, one after the other. -/
theorem ofCredits_eq_foldl (credits : List Credit) :
    Allocation.ofCredits credits =
      credits.foldl (fun o c => some (Allocation.credit c.sats c.txid o)) none := by
  cases credits with
  | nil => rfl
  | cons c credits =>
    rw [List.foldl_cons, foldl_credit]
    simp [Allocation.ofCredits, Allocation.credit]

/-- All credits, into the allocations. -/
def bookCredits (credits : List Credit) (d : OrderedDict String Allocation) :
    OrderedDict String Allocation :=
  credits.foldl (fun d c => d.update c.address (Allocation.credit c.sats c.txid)) d

/-- All credits, into the first slots. -/
def bookSlots (credits : List Credit) (d : OrderedDict String Nat) : OrderedDict String Nat :=
  credits.foldl (fun d c => d.update c.txid fun _ => c.slot) d

theorem book_fields (s : Ledger) (e : SignatureEntry) (v : Verdict) :
    (s.book e v).allocations = bookCredits (creditOf (e, v)).toList s.allocations ∧
      (s.book e v).slotOf = bookSlots (creditOf (e, v)).toList s.slotOf ∧
      (s.book e v).withheld = s.withheld ++ (withheldOf (e, v)).toList := by
  cases v with
  | excluded reason =>
    rw [Ledger.book]
    split <;> exact ⟨rfl, rfl, (List.append_nil _).symm⟩
  | withheld address grounds => exact ⟨rfl, rfl, rfl⟩
  | eligible address sats authorities => exact ⟨rfl, rfl, (List.append_nil _).symm⟩

/-- What booking all verdicts leaves in each field. -/
theorem bookAll_fields : ∀ (judged : List (SignatureEntry × Verdict)) (s : Ledger),
    (s.bookAll judged).allocations = bookCredits (judged.filterMap creditOf) s.allocations ∧
      (s.bookAll judged).slotOf = bookSlots (judged.filterMap creditOf) s.slotOf ∧
      (s.bookAll judged).withheld = s.withheld ++ judged.filterMap withheldOf := by
  intro judged
  induction judged with
  | nil =>
    intro s
    exact ⟨rfl, rfl, (List.append_nil _).symm⟩
  | cons p judged ih =>
    intro s
    obtain ⟨halloc, hslot, hwithheld⟩ := ih (s.book p.1 p.2)
    obtain ⟨halloc₀, hslot₀, hwithheld₀⟩ := book_fields s p.1 p.2
    simp only [filterMap_cons_toList, bookCredits, bookSlots, List.foldl_append] at *
    refine ⟨halloc.trans ?_, hslot.trans ?_, hwithheld.trans ?_⟩
    · rw [halloc₀]
    · rw [hslot₀]
    · rw [hwithheld₀, List.append_assoc]

theorem get?_allocations_bookAll (judged : List (SignatureEntry × Verdict)) (address : String) :
    (Ledger.bookAll {} judged).allocations.get? address = Allocation.ofCredits
      ((judged.filterMap creditOf).filter fun c => decide (c.address = address)) := by
  rw [(bookAll_fields judged {}).1, bookCredits, OrderedDict.get?_foldl_update, ofCredits_eq_foldl]
  rfl

/-- The slot of a credit is known. -/
theorem get?_slotOf_bookAll {judged : List (SignatureEntry × Verdict)}
    (hnodup : (judged.map fun p => p.1.signature).Nodup) {c : Credit}
    (hc : c ∈ judged.filterMap creditOf) :
    (Ledger.bookAll {} judged).slotOf.get? c.txid = some c.slot := by
  rw [(bookAll_fields judged {}).2.1, bookSlots, OrderedDict.get?_foldl_update]
  have hunique : ∀ c' ∈ judged.filterMap creditOf, c'.txid = c.txid → c' = c := by
    intro c' hc' htxid
    obtain ⟨p', hp', hcredit'⟩ := List.mem_filterMap.mp hc'
    obtain ⟨p, hp, hcredit⟩ := List.mem_filterMap.mp hc
    have hp'p : p' = p := by
      refine List.inj_on_of_nodup_map hnodup hp' hp ?_
      rw [← creditOf_txid hcredit', ← creditOf_txid hcredit]
      exact htxid
    rw [hp'p, hcredit] at hcredit'
    exact (Option.some.inj hcredit').symm
  have hlast : ∀ (l : List Credit) (o : Option Nat), (∀ c' ∈ l, c' = c) → l ≠ [] →
      l.foldl (fun _ c' => some c'.slot) o = some c.slot := by
    intro l
    induction l with
    | nil =>
      intro o _ hne
      exact absurd rfl hne
    | cons c' l ih =>
      intro o hall _
      rw [List.foldl_cons, hall c' List.mem_cons_self]
      by_cases hnil : l = []
      · rw [hnil]
        rfl
      · exact ih _ (fun x hx => hall x (List.mem_cons_of_mem _ hx)) hnil
  refine hlast _ _ ?_ ?_
  · intro c' hc'
    rw [List.mem_filter, decide_eq_true_eq] at hc'
    exact hunique c' hc'.1 hc'.2
  · exact List.ne_nil_of_mem (List.mem_filter.mpr ⟨hc, by simp⟩)

end Booking

/-! ## Tainted destinations -/

section Taint

variable {named : OrderedDict String (List Withheld)} {s t : Ledger} {address : String}

/-- The withheld entries that name an address. -/
theorem getD_namedByWithheld (withheld : List Withheld) (address : String) :
    ((namedByWithheld withheld).get? address).getD [] =
      withheld.filter fun w => decide (w.destination = address) := by
  have hfold : ∀ (l : List Withheld) (o : Option (List Withheld)),
      (l.foldl (fun o w => some (o.getD [] ++ [w])) o).getD [] = o.getD [] ++ l := by
    intro l
    induction l with
    | nil =>
      intro o
      exact (List.append_nil _).symm
    | cons w l ih =>
      intro o
      rw [List.foldl_cons, ih, Option.getD_some, List.append_assoc, List.singleton_append]
  rw [namedByWithheld, OrderedDict.get?_foldl_update, hfold]
  rfl

/-- A withheld transaction named the address before its first credited burn. -/
def Tainted (named : OrderedDict String (List Withheld)) (s : Ledger) (address : String) : Prop :=
  ∃ entry slots first w, s.allocations.get? address = some entry ∧
    entry.txids.mapM s.slot = .ok slots ∧ slots.min? = some first ∧
    w ∈ (named.get? address).getD [] ∧ w.slot < first

/-- An address is left alone, or all it has is moved to the withheld entries. -/
theorem taintAddress_cases (h : taintAddress named s address = .ok t) :
    (t = s ∧ ¬ Tainted named s address) ∨
      (Tainted named s address ∧ t.slotOf = s.slotOf ∧
        t.allocations = s.allocations.erase address ∧
        ∃ entry moved, s.allocations.get? address = some entry ∧
          t.exclusions = s.exclusions ++ moved ∧ moved.map Exclusion.txid = entry.txids ∧
          (∀ x ∈ moved, x.reason = .withheld) ∧
          t.withheld.length = s.withheld.length + moved.length) := by
  rw [taintAddress] at h
  cases hentry : s.allocations.get? address with
  | none =>
    rw [hentry] at h
    refine Or.inl ⟨(Except.ok.inj h).symm, ?_⟩
    rintro ⟨entry, -, -, -, hget, -⟩
    rw [hentry] at hget
    cases hget
  | some entry =>
    rw [hentry] at h
    obtain ⟨slots, hslots, h⟩ := bind_eq_ok.mp h
    cases hfirst : slots.min? with
    | none =>
      rw [hfirst] at h
      cases h
    | some first =>
      simp only [hfirst] at h
      split at h
      · next hempty =>
          refine Or.inl ⟨(Except.ok.inj h).symm, ?_⟩
          rintro ⟨entry', slots', first', w, hget, hmap, hmin, hw, hlt⟩
          rw [hentry] at hget
          obtain rfl := Option.some.inj hget
          rw [hslots] at hmap
          obtain rfl := Except.ok.inj hmap
          rw [hfirst] at hmin
          obtain rfl := Option.some.inj hmin
          rw [List.isEmpty_iff, ← List.length_eq_zero_iff, List.length_insertionSort,
            List.length_map, List.length_eq_zero_iff, List.filter_eq_nil_iff] at hempty
          exact hempty w hw (by simpa using hlt)
      · next hne =>
          obtain rfl := Except.ok.inj h
          refine Or.inr ⟨?_, rfl, rfl, entry, _, rfl, rfl, ?_, ?_, ?_⟩
          · obtain ⟨txid, htxid⟩ := List.exists_mem_of_ne_nil _ (hne ∘ List.isEmpty_iff.mpr)
            obtain ⟨w, hw, -⟩ := List.mem_map.mp (List.mem_insertionSort _ |>.mp htxid)
            rw [List.mem_filter, decide_eq_true_eq] at hw
            exact ⟨entry, slots, first, w, hentry, hslots, hfirst, hw.1, hw.2⟩
          · rw [List.map_map]
            exact List.map_fst_zip (le_of_eq (mapM_eq_ok hslots).length_eq)
          · intro x hx
            obtain ⟨-, -, rfl⟩ := List.mem_map.mp hx
            rfl
          · rw [List.length_append, List.length_map, List.length_map]

/-- Tainting an address moves its transactions and loses none. -/
theorem txids_taintAddress (h : taintAddress named s address = .ok t) :
    t.txids.Perm s.txids := by
  rcases taintAddress_cases h with ⟨rfl, -⟩ | ⟨-, -, halloc, entry, moved, hget, hexcl, hmoved, -⟩
  · exact .refl _
  · rw [Ledger.txids, Ledger.txids, halloc, hexcl, List.map_append, hmoved]
    have herase := OrderedDict.flatMap_erase_perm hget Allocation.txids
    refine List.Perm.trans ?_ (herase.append_right _).symm
    rw [List.append_assoc]
    exact List.Perm.append_left _ List.perm_append_comm

/-- **The rule moves transactions, it loses none.** -/
theorem txids_taint {keys : List String} (h : keys.foldlM (taintAddress named) s = .ok t) :
    t.txids.Perm s.txids :=
  foldlM_invariant (fun u : Ledger => u.txids.Perm s.txids) keys
    (fun _ _ _ _ hstep hinv => (txids_taintAddress hstep).trans hinv) h (.refl _)

/-- Tainting an address changes no other. -/
theorem get?_taintAddress (a : String) (h : taintAddress named s address = .ok t) :
    (a = address ∧ Tainted named s a ∧ t.allocations.get? a = none) ∨
      (¬ (a = address ∧ Tainted named s a) ∧ t.allocations.get? a = s.allocations.get? a ∧
        (Tainted named t a ↔ Tainted named s a)) := by
  rcases taintAddress_cases h with ⟨rfl, hnot⟩ | ⟨htaint, hslot, halloc, -⟩
  · refine Or.inr ⟨?_, rfl, Iff.rfl⟩
    rintro ⟨rfl, htaint⟩
    exact hnot htaint
  · by_cases ha : a = address
    · refine Or.inl ⟨ha, ha ▸ htaint, ?_⟩
      rw [halloc, OrderedDict.get?_erase, if_pos ha]
    · refine Or.inr ⟨fun hand => ha hand.1, ?_⟩
      have hget : t.allocations.get? a = s.allocations.get? a := by
        rw [halloc, OrderedDict.get?_erase, if_neg ha]
      refine ⟨hget, ?_⟩
      have hslots : t.slot = s.slot := by
        funext txid
        rw [Ledger.slot, Ledger.slot, hslot]
      rw [Tainted, Tainted, hget, hslots]

/-- **What the rule leaves.**  An address keeps its allocation unless it is among
    those looked at and tainted. -/
theorem get?_taint (a : String) : ∀ {keys : List String} {s t : Ledger},
    keys.foldlM (taintAddress named) s = .ok t →
      (a ∈ keys ∧ Tainted named s a ∧ t.allocations.get? a = none) ∨
        (¬ (a ∈ keys ∧ Tainted named s a) ∧ t.allocations.get? a = s.allocations.get? a) := by
  intro keys
  induction keys with
  | nil =>
    intro s t h
    rw [foldlM_nil_eq_ok.mp h]
    exact Or.inr ⟨fun hand => absurd hand.1 List.not_mem_nil, rfl⟩
  | cons address keys ih =>
    intro s t h
    obtain ⟨m, hstep, hrest⟩ := foldlM_cons_eq_ok.mp h
    rcases get?_taintAddress a hstep with ⟨rfl, htaint, hnone⟩ | ⟨hnot, hget, htaint⟩
    · refine Or.inl ⟨List.mem_cons_self, htaint, ?_⟩
      rcases ih hrest with ⟨-, htaint', -⟩ | ⟨-, hget'⟩
      · obtain ⟨entry, -, -, -, hsome, -⟩ := htaint'
        rw [hnone] at hsome
        cases hsome
      · rw [hget', hnone]
    · rcases ih hrest with ⟨hmem, htaint', hnone⟩ | ⟨hnot', hget'⟩
      · exact Or.inl ⟨List.mem_cons_of_mem _ hmem, htaint.mp htaint', hnone⟩
      · refine Or.inr ⟨?_, hget'.trans hget⟩
        rintro ⟨hmem, htainted⟩
        rcases List.mem_cons.mp hmem with ha | hmem
        · exact hnot ⟨ha, htainted⟩
        · exact hnot' ⟨hmem, htaint.mpr htainted⟩

end Taint

/-! ## The whole run -/

section Run

variable {py : StrMethods} {rpc : RpcClient} {mint : String} {lists : Lists}
variable {openSlot cutoffSlot fuel : Nat} {history : List SignatureEntry}
variable {result : SnapshotResult}

/-- The stages of a run that completes. -/
structure Stages (py : StrMethods) (rpc : RpcClient) (mint : String) (lists : Lists)
    (judged : List (SignatureEntry × Verdict)) (result : SnapshotResult) : Prop where
  verdicts : ∀ p ∈ judged, verdictOf py rpc mint lists p.1 = .ok p.2
  taint : ∃ t, (((namedByWithheld (judged.filterMap withheldOf)).keys.insertionSort
      (· ≤ ·)).foldlM (taintAddress (namedByWithheld (judged.filterMap withheldOf)))
      (Ledger.bookAll {} judged)) = .ok t ∧
    result.allocations = t.allocations.mapValues Allocation.sortTxids ∧
    result.exclusions.Perm t.exclusions

/-- The stages of a run. -/
theorem runSnapshot_eq_ok
    (h : runSnapshot py rpc mint openSlot cutoffSlot lists fuel = .ok result) :
    ∃ judged, enumerateSignatures rpc mint openSlot cutoffSlot fuel = .ok (judged.map Prod.fst) ∧
      Stages py rpc mint lists judged result := by
  obtain ⟨entries, hentries, h⟩ := bind_eq_ok.mp h
  obtain ⟨s, hloop, h⟩ := bind_eq_ok.mp h
  obtain ⟨judged, hmap, hverdicts, rfl⟩ := foldlM_snapshotStep hloop
  obtain ⟨t, htaint, h⟩ := bind_eq_ok.mp h
  obtain rfl := Except.ok.inj h
  have hwithheld : (Ledger.bookAll {} judged).withheld = judged.filterMap withheldOf :=
    (bookAll_fields judged {}).2.2
  rw [hwithheld] at htaint
  refine ⟨judged, hmap ▸ hentries, hverdicts, t, htaint, rfl, ?_⟩
  exact List.perm_insertionSort _ _

/-- Every booked transaction is allocated or excluded, once. -/
theorem Stages.txids {judged : List (SignatureEntry × Verdict)}
    (h : Stages py rpc mint lists judged result) :
    ((result.allocations.items.flatMap fun p => p.2.txids) ++
      result.exclusions.map Exclusion.txid).Perm (judged.filterMap bookedTxid) := by
  obtain ⟨t, htaint, halloc, hexcl⟩ := h.taint
  refine List.Perm.trans ?_ ((txids_taint htaint).trans (txids_bookAll judged {}))
  rw [Ledger.txids, halloc]
  refine List.Perm.append ?_ (hexcl.map _)
  rw [OrderedDict.mapValues, List.flatMap_map]
  exact List.Perm.flatMap_left _ fun p _ => List.perm_insertionSort _ _

/-- The credits of an address. -/
def creditsFor (judged : List (SignatureEntry × Verdict)) (address : String) : List Credit :=
  (judged.filterMap creditOf).filter fun c => decide (c.address = address)

/-- An address keeps all its credits, or is tainted and has none. -/
theorem Stages.get?_allocations {judged : List (SignatureEntry × Verdict)}
    (h : Stages py rpc mint lists judged result) (address : String) :
    (Tainted (namedByWithheld (judged.filterMap withheldOf)) (Ledger.bookAll {} judged) address ∧
        result.allocations.get? address = none) ∨
      (¬ Tainted (namedByWithheld (judged.filterMap withheldOf)) (Ledger.bookAll {} judged)
          address ∧
        result.allocations.get? address =
          (Allocation.ofCredits (creditsFor judged address)).map Allocation.sortTxids) := by
  obtain ⟨t, htaint, halloc, -⟩ := h.taint
  rw [halloc, OrderedDict.get?_mapValues]
  rcases get?_taint address htaint with ⟨-, htainted, hnone⟩ | ⟨hnot, hget⟩
  · exact Or.inl ⟨htainted, by rw [hnone]; rfl⟩
  · refine Or.inr ⟨?_, by rw [hget, get?_allocations_bookAll]; rfl⟩
    intro htainted
    refine hnot ⟨?_, htainted⟩
    obtain ⟨-, -, -, w, -, -, -, hw, -⟩ := htainted
    rw [List.mem_insertionSort]
    by_contra hkey
    rw [OrderedDict.get?_eq_none.mpr hkey] at hw
    exact absurd hw List.not_mem_nil

/-- An allocation is the sum of its credits. -/
theorem Stages.allocation {judged : List (SignatureEntry × Verdict)}
    (h : Stages py rpc mint lists judged result) {address : String} {entry : Allocation}
    (hentry : result.allocations.get? address = some entry) :
    creditsFor judged address ≠ [] ∧
      entry.sats = ((creditsFor judged address).map Credit.sats).sum ∧
      entry.txids.Perm ((creditsFor judged address).map Credit.txid) := by
  rcases h.get?_allocations address with ⟨-, hnone⟩ | ⟨-, hget⟩
  · rw [hnone] at hentry
    cases hentry
  · rw [hget, Option.map_eq_some_iff, Allocation.ofCredits] at hentry
    obtain ⟨booked, hbooked, rfl⟩ := hentry
    split at hbooked
    · cases hbooked
    · next hne =>
        obtain rfl := Option.some.inj hbooked
        exact ⟨hne ∘ List.isEmpty_iff.mpr, rfl, List.perm_insertionSort _ _⟩

theorem mem_creditsFor {judged : List (SignatureEntry × Verdict)} {address : String} {c : Credit} :
    c ∈ creditsFor judged address ↔ c ∈ judged.filterMap creditOf ∧ c.address = address := by
  rw [creditsFor, List.mem_filter, decide_eq_true_eq]

theorem booked_sublist (judged : List (SignatureEntry × Verdict)) :
    (judged.filterMap bookedTxid).Sublist (judged.map fun p => p.1.signature) := by
  have h := filterMap_map_sublist (f := bookedTxid) (g := id) (k := fun p => p.1.signature) (by
    intro p txid hp
    rw [bookedTxid] at hp
    split at hp
    · cases hp
    · exact (Option.some.inj hp).symm) judged
  rwa [List.map_id] at h

/-- The history of an account: the provider serves it newest-first, and a
    signature stands for one transaction. -/
structure ServedHistory (rpc : RpcClient) (mint : String) (history : List SignatureEntry) :
    Prop where
  serves : ServesNewestFirst rpc mint history
  oneSlot : ∀ a ∈ history, ∀ b ∈ history, a.signature = b.signature → a = b

/-- The history of a mint, whose checked burns carry its decimals. -/
structure MintHistory (rpc : RpcClient) (mint : String) (history : List SignatureEntry) : Prop
    extends ServedHistory rpc mint history where
  sixDecimals : ∀ e ∈ history, ∀ tx, rpc.getTransaction e.signature = some tx →
    SixDecimals mint tx

/-- A run judges exactly the entries of the window, each once. -/
theorem ServedHistory.judged (hist : ServedHistory rpc mint history)
    {judged : List (SignatureEntry × Verdict)}
    (h : enumerateSignatures rpc mint openSlot cutoffSlot fuel = .ok (judged.map Prod.fst)) :
    (judged.map fun p => p.1.signature).Nodup ∧
      ∀ e, (∃ v, (e, v) ∈ judged) ↔ e ∈ history ∧ inWindow openSlot cutoffSlot e := by
  obtain ⟨hnodup, hmem⟩ := enumerateSignatures_eq_ok hist.serves h
  constructor
  · have hsigs : ((judged.map Prod.fst).map SignatureEntry.signature).Nodup := by
      refine hnodup.map_on ?_
      intro a ha b hb hab
      exact hist.oneSlot a ((hmem a).mp ha).1 b ((hmem b).mp hb).1 hab
    rwa [List.map_map] at hsigs
  · intro e
    rw [← hmem, List.mem_map]
    constructor
    · rintro ⟨v, hv⟩
      exact ⟨(e, v), hv, rfl⟩
    · rintro ⟨⟨e', v⟩, hv, rfl⟩
      exact ⟨v, hv⟩

/-- The base units that a transaction burns. -/
def unitsOf (rpc : RpcClient) (mint txid : String) : Int :=
  match rpc.getTransaction txid with
  | none => 0
  | some tx => burnedUnits mint tx

/-- A listed transaction: it is in the window, it burns the mint by checked burns
    only, and its one memo names the address. -/
structure Credited (py : StrMethods) (rpc : RpcClient) (mint : String)
    (history : List SignatureEntry) (openSlot cutoffSlot : Nat) (address txid : String) : Prop where
  inWindow : ∃ e ∈ history, Snapshot.inWindow openSlot cutoffSlot e = true ∧ e.signature = txid
  named : ∃ tx memo, rpc.getTransaction txid = some tx ∧
    (walkInstructions tx).any (isUncheckedBurn · mint) = false ∧
    memosOf tx = [memo] ∧ MemoNames py memo address

/-- A credit is what its transaction burned. -/
theorem MintHistory.credit (hist : MintHistory rpc mint history)
    {judged : List (SignatureEntry × Verdict)}
    (henum : enumerateSignatures rpc mint openSlot cutoffSlot fuel = .ok (judged.map Prod.fst))
    (hstages : Stages py rpc mint lists judged result) {c : Credit}
    (hc : c ∈ judged.filterMap creditOf) :
    c.sats = 100 * unitsOf rpc mint c.txid ∧
      Credited py rpc mint history openSlot cutoffSlot c.address c.txid := by
  obtain ⟨⟨e, v⟩, hp, hcredit⟩ := List.mem_filterMap.mp hc
  obtain ⟨hmem, hwin⟩ := ((hist.judged henum).2 e).mp ⟨v, hp⟩
  obtain ⟨tx, hfetch, hclassify⟩ := bind_eq_ok.mp (hstages.verdicts _ hp)
  have hget := fetchTx_eq_ok hfetch
  have hverdict := (classifyTx_eq_ok (hist.sixDecimals e hmem tx hget) hclassify).2
  cases v with
  | excluded reason => cases hcredit
  | withheld address grounds => cases hcredit
  | eligible address sats authorities =>
    obtain rfl := Option.some.inj hcredit
    obtain ⟨hsats, hplain, memo, hmemo, hnames⟩ := hverdict address sats authorities rfl
    refine ⟨?_, ⟨e, hmem, hwin, rfl⟩, tx, memo, hget, hplain, hmemo, hnames⟩
    show sats = 100 * unitsOf rpc mint e.signature
    rw [unitsOf, hget]
    exact hsats

end Run

namespace Corpus

/-- The address of the program of zero bytes. -/
def addressA : String := "sq1pqqqqqqqqqqqqqqqqqqqqqqqqqqqqqqqqqqqqqqqqqqqqqqqqqqqqz3m5dc"

/-- A burn of a type, by an authority. -/
def burn (type : String) (amount : Int) (authority : String) : Instruction where
  programId := some "TokenkegQfeZyiNwAJbNbGKPFXCWuBvf9Ss623VQ5DA"
  parsed := .dict (some type)
    { mint := some "pSOQ", tokenAmount := ⟨some 6, some amount⟩, authority := some authority }

/-- A memo that names an address. -/
def memo (address : String) : Instruction where
  programId := some "MemoSq4gqABAXKb96qnH8TysNcWxMyWCqXgDLGmfcHr"
  parsed := .text ("SOQMIG1:" ++ address)

/-- A transaction of these instructions. -/
def burnTx (slot : Nat) (instructions : List Instruction) : Tx :=
  ⟨some slot, some {}, instructions⟩

/-- One authority is on the sanctions list. -/
def lists : Lists := ⟨["sanctioned"], [], [], [], []⟩

/-- Two pages, the first with a repeated entry; the second goes below a window that opens at slot
    10.  The last transaction is withheld and names an address that is credited already. -/
def rpc : RpcClient where
  getSignaturesForAddress
    | 0, _, _ => [⟨13, "s13"⟩, ⟨12, "s12"⟩, ⟨12, "s12"⟩, ⟨11, "s11"⟩]
    | 1, _, _ => [⟨11, "s11"⟩, ⟨10, "s10"⟩, ⟨7, "s7"⟩]
    | _, _, _ => []
  getTransaction
    | "s13" => some (burnTx 13 [burn "burnChecked" 1 "sanctioned", memo addressA])
    | "s12" => some (burnTx 12 [burn "burnChecked" 1500000 "holder", memo addressA])
    | "s11" => some (burnTx 11 [burn "burn" 9 "holder"])
    | "s10" => some (burnTx 10 [burn "burnChecked" 2000000 "holder",
        burn "burnChecked" 1 "other", memo addressA])
    | "s7" => some (burnTx 7 [burn "burnChecked" 2000000 "holder", memo addressA])
    | _ => none

/-- The signatures, newest first. -/
def history : List SignatureEntry :=
  [⟨13, "s13"⟩, ⟨12, "s12"⟩, ⟨11, "s11"⟩, ⟨10, "s10"⟩, ⟨7, "s7"⟩]

/-- The sample provider serves its history in pages, newest first. -/
theorem servesNewestFirst : ServesNewestFirst rpc "pSOQ" history := by
  have hreplies : ∀ n, replies rpc "pSOQ" (n + 3) 0 none =
      [rpc.getSignaturesForAddress 0 "pSOQ" none, rpc.getSignaturesForAddress 1 "pSOQ" none, []] :=
    fun _ => rfl
  constructor
  · intro n
    match n with
    | 0 => decide
    | 1 => decide
    | 2 => decide
    | n + 3 =>
      rw [hreplies]
      decide
  · intro n page last hpage hlast
    match n with
    | 0 => cases hpage
    | 1 =>
      cases hpage
      cases hlast
      decide
    | 2 =>
      cases hpage
      cases hlast
      decide
    | n + 3 =>
      rw [hreplies] at hpage
      cases hpage
      cases hlast

/-- The sample history is one of the mint. -/
theorem mintHistory : MintHistory rpc "pSOQ" history where
  serves := servesNewestFirst
  oneSlot := by decide
  sixDecimals := by
    intro e he tx hget
    simp only [history, List.mem_cons, List.not_mem_nil, or_false] at he
    rcases he with rfl | rfl | rfl | rfl | rfl <;> cases hget <;>
      intro ins hins _ type info hparsed <;>
      simp only [walkInstructions, burnTx, List.flatten_nil, List.append_nil, List.mem_cons,
        List.not_mem_nil, or_false, Option.map_some, Option.getD_some] at hins
    · rcases hins with rfl | rfl <;> cases hparsed
      rfl
    · rcases hins with rfl | rfl <;> cases hparsed
      rfl
    · rcases hins with rfl
      cases hparsed
      rfl
    · rcases hins with rfl | rfl | rfl <;> cases hparsed <;> rfl
    · rcases hins with rfl | rfl <;> cases hparsed
      rfl

/-- The run over the sample history. -/
theorem runSnapshot_lists : ∃ result, runSnapshot .ascii rpc "pSOQ" 10 20 lists 5 = .ok result ∧
    result.allocations = ⟨[(addressA, ⟨350000100, ["s10", "s12"]⟩)], by decide⟩ ∧
    result.exclusions = [⟨"s11", 11, .uncheckedBurn⟩, ⟨"s13", 13, .withheld⟩] := by
  have hsome : (runSnapshot .ascii rpc "pSOQ" 10 20 lists 5).toOption.map
      (fun r => (r.allocations, r.exclusions)) =
      some (⟨[(addressA, ⟨350000100, ["s10", "s12"]⟩)], by decide⟩,
        [⟨"s11", 11, .uncheckedBurn⟩, ⟨"s13", 13, .withheld⟩]) := by
    decide +kernel
  cases hrun : runSnapshot .ascii rpc "pSOQ" 10 20 lists 5 with
  | error e =>
    rw [hrun] at hsome
    cases hsome
  | ok result =>
    rw [hrun] at hsome
    obtain ⟨halloc, hexcl⟩ := Prod.mk.inj (Option.some.inj hsome)
    exact ⟨result, rfl, halloc, hexcl⟩

end Corpus

end Soqucoin.Snapshot
