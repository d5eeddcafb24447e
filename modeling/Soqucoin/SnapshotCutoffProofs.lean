import Soqucoin.SnapshotProofs

/-! # SnapshotCutoffProofs — what later activity can do to a published credit

Two runs over one history, with the same lists and cutoffs `c₁ ≤ c₂`.  What is new to the later
run lies in later slots, so no new withheld transaction comes before a burn that is credited
already: an address keeps its allocation.  The cap can take an address out only in favour of
addresses that rank above it. -/

namespace Soqucoin.Snapshot

open CheckedLoop

/-! ## Taint, by slots -/

section Taint

variable {judged : List (SignatureEntry × Verdict)} {address : String}

/-- The slots of an address's credits are known. -/
theorem mapM_slot_creditsFor (hnodup : (judged.map fun p => p.1.signature).Nodup) :
    ∀ {credits : List Credit}, (∀ c ∈ credits, c ∈ judged.filterMap creditOf) →
      (credits.map Credit.txid).mapM (Ledger.bookAll {} judged).slot =
        .ok (credits.map Credit.slot) := by
  intro credits
  induction credits with
  | nil =>
    intro _
    rfl
  | cons c credits ih =>
    intro hmem
    have hslot : (Ledger.bookAll {} judged).slot c.txid = .ok c.slot := by
      rw [Ledger.slot, get?_slotOf_bookAll hnodup (hmem c List.mem_cons_self)]
    rw [List.map_cons, List.mapM_cons, hslot,
      ih fun x hx => hmem x (List.mem_cons_of_mem _ hx)]
    rfl

/-- An address is tainted when a withheld transaction named it in an earlier slot
    than every burn credited to it. -/
theorem tainted_iff (hnodup : (judged.map fun p => p.1.signature).Nodup) :
    Tainted (namedByWithheld (judged.filterMap withheldOf)) (Ledger.bookAll {} judged) address ↔
      creditsFor judged address ≠ [] ∧
        ∃ w ∈ judged.filterMap withheldOf, w.destination = address ∧
          ∀ c ∈ creditsFor judged address, w.slot < c.slot := by
  have hslots := mapM_slot_creditsFor hnodup
    fun c (hc : c ∈ creditsFor judged address) => (mem_creditsFor.mp hc).1
  have hnamed : ∀ w, w ∈ ((namedByWithheld (judged.filterMap withheldOf)).get? address).getD [] ↔
      w ∈ judged.filterMap withheldOf ∧ w.destination = address := by
    intro w
    rw [getD_namedByWithheld, List.mem_filter, decide_eq_true_eq]
  constructor
  · rintro ⟨entry, slots, first, w, hget, hmap, hmin, hw, hlt⟩
    rw [get?_allocations_bookAll, Allocation.ofCredits] at hget
    split at hget
    · cases hget
    · next hne =>
        obtain rfl := Option.some.inj hget
        obtain rfl := Except.ok.inj (hmap.symm.trans hslots)
        refine ⟨hne ∘ List.isEmpty_iff.mpr, w, ((hnamed w).mp hw).1, ((hnamed w).mp hw).2, ?_⟩
        intro c hc
        have hfirst := (List.min?_eq_some_iff.mp hmin).2 c.slot (List.mem_map_of_mem hc)
        omega
  · rintro ⟨hne, w, hw, hdest, hall⟩
    have hslotsNe : (creditsFor judged address).map Credit.slot ≠ [] := by
      rw [ne_eq, List.map_eq_nil_iff]
      exact hne
    obtain ⟨first, hmin⟩ := Option.isSome_iff_exists.mp (List.isSome_min?_of_ne_nil hslotsNe)
    refine ⟨⟨((creditsFor judged address).map Credit.sats).sum,
      (creditsFor judged address).map Credit.txid⟩, _, first, w, ?_, hslots, hmin,
        (hnamed w).mpr ⟨hw, hdest⟩, ?_⟩
    · rw [get?_allocations_bookAll, Allocation.ofCredits]
      exact if_neg (hne ∘ List.isEmpty_iff.mp)
    · obtain ⟨c, hc, hslot⟩ := List.mem_map.mp (List.min?_eq_some_iff.mp hmin).1
      rw [← hslot]
      exact hall c hc

end Taint

/-! ## Two runs -/

section Cutoff

variable {py : StrMethods} {rpc₁ rpc₂ : RpcClient} {mint : String} {lists : Lists}
variable {openSlot c₁ c₂ fuel₁ fuel₂ : Nat} {history₁ history₂ : List SignatureEntry}
variable {result₁ result₂ : SnapshotResult} {judged₁ judged₂ : List (SignatureEntry × Verdict)}

theorem verdictOf_congr (htx : rpc₂.getTransaction = rpc₁.getTransaction) (e : SignatureEntry) :
    verdictOf py rpc₂ mint lists e = verdictOf py rpc₁ mint lists e := by
  rw [verdictOf, verdictOf, fetchTx, fetchTx, htx]

/-- The earlier run's verdicts are the later run's up to its cutoff. -/
theorem judged_mem_iff (hist₁ : ServedHistory rpc₁ mint history₁)
    (hist₂ : ServedHistory rpc₂ mint history₂) (htx : rpc₂.getTransaction = rpc₁.getTransaction)
    (hsame : ∀ e, e.slot ≤ c₁ → (e ∈ history₁ ↔ e ∈ history₂)) (hle : c₁ ≤ c₂)
    (henum₁ : enumerateSignatures rpc₁ mint openSlot c₁ fuel₁ = .ok (judged₁.map Prod.fst))
    (henum₂ : enumerateSignatures rpc₂ mint openSlot c₂ fuel₂ = .ok (judged₂.map Prod.fst))
    (hstages₁ : Stages py rpc₁ mint lists judged₁ result₁)
    (hstages₂ : Stages py rpc₂ mint lists judged₂ result₂) (p : SignatureEntry × Verdict) :
    p ∈ judged₁ ↔ p ∈ judged₂ ∧ p.1.slot ≤ c₁ := by
  obtain ⟨e, v⟩ := p
  have hverdict : ∀ {v₁ v₂ : Verdict}, (e, v₁) ∈ judged₁ → (e, v₂) ∈ judged₂ → v₁ = v₂ := by
    intro v₁ v₂ hv₁ hv₂
    have hok₁ := hstages₁.verdicts _ hv₁
    have hok₂ := hstages₂.verdicts _ hv₂
    rw [verdictOf_congr htx] at hok₂
    exact Except.ok.inj (hok₁.symm.trans hok₂)
  have hwindow : inWindow openSlot c₁ e = true ↔
      inWindow openSlot c₂ e = true ∧ e.slot ≤ c₁ := by
    simp only [inWindow, Bool.and_eq_true, decide_eq_true_eq]
    omega
  constructor
  · intro hp
    obtain ⟨hmem, hwin⟩ := ((hist₁.judged henum₁).2 e).mp ⟨v, hp⟩
    obtain ⟨hwin₂, hslot⟩ := hwindow.mp hwin
    obtain ⟨v₂, hp₂⟩ := ((hist₂.judged henum₂).2 e).mpr ⟨(hsame e hslot).mp hmem, hwin₂⟩
    obtain rfl := hverdict hp hp₂
    exact ⟨hp₂, hslot⟩
  · rintro ⟨hp, hslot⟩
    obtain ⟨hmem, hwin⟩ := ((hist₂.judged henum₂).2 e).mp ⟨v, hp⟩
    obtain ⟨v₁, hp₁⟩ := ((hist₁.judged henum₁).2 e).mpr
      ⟨(hsame e hslot).mpr hmem, hwindow.mpr ⟨hwin, hslot⟩⟩
    obtain rfl := hverdict hp₁ hp
    exact hp₁

theorem creditOf_slot {p : SignatureEntry × Verdict} {c : Credit} (h : creditOf p = some c) :
    c.slot = p.1.slot := by
  obtain ⟨e, v⟩ := p
  cases v <;> cases h
  rfl

theorem withheldOf_slot {p : SignatureEntry × Verdict} {w : Withheld}
    (h : withheldOf p = some w) : w.slot = p.1.slot := by
  obtain ⟨e, v⟩ := p
  cases v <;> cases h
  rfl

theorem credit_pos {rpc : RpcClient} {judged : List (SignatureEntry × Verdict)}
    {result : SnapshotResult} (hstages : Stages py rpc mint lists judged result) {c : Credit}
    (hc : c ∈ judged.filterMap creditOf) : 0 < c.sats := by
  obtain ⟨⟨e, v⟩, hp, hcredit⟩ := List.mem_filterMap.mp hc
  obtain ⟨tx, -, hclassify⟩ := bind_eq_ok.mp (hstages.verdicts _ hp)
  cases v <;> cases hcredit
  exact classifyTx_eligible_pos hclassify

theorem creditsFor_nodup {judged : List (SignatureEntry × Verdict)}
    (hnodup : (judged.map fun p => p.1.signature).Nodup) (address : String) :
    (creditsFor judged address).Nodup := by
  have hsub := filterMap_map_sublist (fun p c (hp : creditOf p = some c) => creditOf_txid hp) judged
  exact List.Nodup.filter _ (List.Nodup.of_map Credit.txid (hnodup.sublist hsub))

/-- The credits up to a cutoff are those of the later run up to it. -/
theorem mem_creditsFor_iff (hjudged : ∀ p, p ∈ judged₁ ↔ p ∈ judged₂ ∧ p.1.slot ≤ c₁)
    (address : String) (c : Credit) :
    c ∈ creditsFor judged₁ address ↔ c ∈ creditsFor judged₂ address ∧ c.slot ≤ c₁ := by
  simp only [mem_creditsFor, List.mem_filterMap, hjudged]
  constructor
  · rintro ⟨⟨p, ⟨hp, hslot⟩, hc⟩, haddr⟩
    exact ⟨⟨⟨p, hp, hc⟩, haddr⟩, creditOf_slot hc ▸ hslot⟩
  · rintro ⟨⟨⟨p, hp, hc⟩, haddr⟩, hslot⟩
    exact ⟨⟨p, ⟨hp, creditOf_slot hc ▸ hslot⟩, hc⟩, haddr⟩

/-- An address with credits before the earlier cutoff that is tainted at the later one is
    tainted at the earlier one: the taint is older than its credits. -/
theorem tainted_of_later (hjudged : ∀ p, p ∈ judged₁ ↔ p ∈ judged₂ ∧ p.1.slot ≤ c₁)
    (hnodup₁ : (judged₁.map fun p => p.1.signature).Nodup)
    (hnodup₂ : (judged₂.map fun p => p.1.signature).Nodup) {address : String}
    (hne : creditsFor judged₁ address ≠ [])
    (h : Tainted (namedByWithheld (judged₂.filterMap withheldOf)) (Ledger.bookAll {} judged₂)
      address) :
    Tainted (namedByWithheld (judged₁.filterMap withheldOf)) (Ledger.bookAll {} judged₁)
      address := by
  have hcredits := mem_creditsFor_iff hjudged address
  obtain ⟨-, w, hw, hdest, hearly⟩ := (tainted_iff hnodup₂).mp h
  obtain ⟨c₀, hc₀⟩ := List.exists_mem_of_ne_nil _ hne
  obtain ⟨p, hp, hpw⟩ := List.mem_filterMap.mp hw
  have hslot : w.slot ≤ c₁ := by
    obtain ⟨hmem, hcut⟩ := (hcredits c₀).mp hc₀
    have hlt := hearly c₀ hmem
    omega
  have hw₁ : w ∈ judged₁.filterMap withheldOf :=
    List.mem_filterMap.mpr ⟨p, (hjudged p).mpr ⟨hp, withheldOf_slot hpw ▸ hslot⟩, hpw⟩
  exact (tainted_iff hnodup₁).mpr
    ⟨hne, w, hw₁, hdest, fun c hc => hearly c ((hcredits c).mp hc).1⟩

/-- **A published credit is kept.**  An address with an allocation at the earlier
    cutoff has one at the later cutoff, with all its transactions and no less. -/
theorem allocation_kept (hist₁ : ServedHistory rpc₁ mint history₁)
    (hist₂ : ServedHistory rpc₂ mint history₂) (htx : rpc₂.getTransaction = rpc₁.getTransaction)
    (hsame : ∀ e, e.slot ≤ c₁ → (e ∈ history₁ ↔ e ∈ history₂)) (hle : c₁ ≤ c₂)
    (hrun₁ : runSnapshot py rpc₁ mint openSlot c₁ lists fuel₁ = .ok result₁)
    (hrun₂ : runSnapshot py rpc₂ mint openSlot c₂ lists fuel₂ = .ok result₂)
    {address : String} {entry₁ : Allocation}
    (hentry : result₁.allocations.get? address = some entry₁) :
    ∃ entry₂, result₂.allocations.get? address = some entry₂ ∧
      entry₁.txids ⊆ entry₂.txids ∧ entry₁.sats ≤ entry₂.sats := by
  obtain ⟨judged₁, henum₁, hstages₁⟩ := runSnapshot_eq_ok hrun₁
  obtain ⟨judged₂, henum₂, hstages₂⟩ := runSnapshot_eq_ok hrun₂
  have hnodup₁ := (hist₁.judged henum₁).1
  have hnodup₂ := (hist₂.judged henum₂).1
  have hjudged := judged_mem_iff hist₁ hist₂ htx hsame hle henum₁ henum₂ hstages₁ hstages₂
  obtain ⟨hne₁, hsats₁, htxids₁⟩ := hstages₁.allocation hentry
  have hsubset : creditsFor judged₁ address ⊆ creditsFor judged₂ address :=
    fun c hc => ((mem_creditsFor_iff hjudged address c).mp hc).1
  have hclean : ¬ Tainted (namedByWithheld (judged₁.filterMap withheldOf))
      (Ledger.bookAll {} judged₁) address := by
    rcases hstages₁.get?_allocations address with ⟨-, hnone⟩ | ⟨hnot, -⟩
    · rw [hnone] at hentry
      cases hentry
    · exact hnot
  have hne₂ : creditsFor judged₂ address ≠ [] := by
    obtain ⟨c₀, hc₀⟩ := List.exists_mem_of_ne_nil _ hne₁
    exact List.ne_nil_of_mem (hsubset hc₀)
  rcases hstages₂.get?_allocations address with ⟨htainted, -⟩ | ⟨-, hget⟩
  · exact absurd (tainted_of_later hjudged hnodup₁ hnodup₂ hne₁ htainted) hclean
  rw [Allocation.ofCredits, if_neg (hne₂ ∘ List.isEmpty_iff.mp)] at hget
  refine ⟨_, hget, ?_, ?_⟩
  · intro txid htxid
    obtain ⟨c, hc, rfl⟩ := List.mem_map.mp (htxids₁.mem_iff.mp htxid)
    exact (List.mem_insertionSort _).mpr (List.mem_map_of_mem (hsubset hc))
  · rw [hsats₁]
    refine OrderedDict.sum_map_le_of_subset (creditsFor_nodup hnodup₁ address) hsubset ?_
    intro c hc
    exact (credit_pos hstages₂ (mem_creditsFor.mp hc).1).le

end Cutoff

/-! ## The cap -/

section Cap

variable {allocations committed : OrderedDict String Allocation} {overCap : List OverCap}
variable {cap : Option Nat} {address : String} {entry : Allocation}

instance ranksBefore.total : Std.Total ranksBefore where
  total a b := by
    rcases lt_trichotomy a.2.sats b.2.sats with h | h | h
    · exact Or.inr (Or.inl h)
    · rcases le_total a.1 b.1 with hle | hle
      · exact Or.inl (Or.inr ⟨h, hle⟩)
      · exact Or.inr (Or.inr ⟨h.symm, hle⟩)
    · exact Or.inl (Or.inl h)

instance ranksBefore.isTrans : IsTrans (String × Allocation) ranksBefore where
  trans a b c := by
    rintro (hab | ⟨hab, hab'⟩) (hbc | ⟨hbc, hbc'⟩)
    · exact Or.inl (lt_trans hbc hab)
    · exact Or.inl (hbc ▸ hab)
    · exact Or.inl (hab ▸ hbc)
    · exact Or.inr ⟨hab.trans hbc, le_trans hab' hbc'⟩

/-- Strictly above in the published order. -/
def outranks (p q : String × Allocation) : Bool :=
  decide (q.2.sats < p.2.sats ∨ (p.2.sats = q.2.sats ∧ p.1 < q.1))

section

variable (h : applyAllocationCap allocations cap = (committed, overCap))
  (hentry : allocations.get? address = some entry)
include h hentry

/-- **The cap respects the order.**  An address keeps its allocation or has at
    least as many addresses above it as the cap lets in. -/
theorem applyAllocationCap_outranked :
    committed.get? address = some entry ∨
      cap.getD MAX_ALLOCATION_OUTPUTS ≤
        (allocations.items.filter (outranks · (address, entry))).length := by
  rw [applyAllocationCap] at h
  simp only at h
  generalize cap.getD MAX_ALLOCATION_OUTPUTS = n at h ⊢
  split at h
  · obtain ⟨rfl, -⟩ := Prod.mk.inj h
    exact Or.inl hentry
  · next hmany =>
      obtain ⟨rfl, -⟩ := Prod.mk.inj h
      have hperm : (ranked allocations).items.Perm allocations.items :=
        List.perm_insertionSort _ _
      have hsorted : (ranked allocations).items.Pairwise ranksBefore :=
        List.pairwise_insertionSort _ _
      have hmem := hperm.mem_iff.mpr (OrderedDict.get?_eq_some.mp hentry)
      rw [← List.take_append_drop n (ranked allocations).items] at hmem hsorted
      rcases List.mem_append.mp hmem with hkept | hdropped
      · exact Or.inl (OrderedDict.get?_eq_some.mpr hkept)
      · -- Everything kept ranks before the address, and no key comes twice.
        refine Or.inr ?_
        have habove : ∀ p ∈ (ranked allocations).items.take n,
            outranks p (address, entry) = true := by
          intro p hp
          have hranks := (List.pairwise_append.mp hsorted).2.2 p hp _ hdropped
          have hne : p.1 ≠ address := by
            have hkeys := (ranked allocations).nodup
            rw [← List.take_append_drop n (ranked allocations).items, List.map_append,
              List.nodup_append] at hkeys
            exact hkeys.2.2 p.1 (List.mem_map_of_mem hp) address
              (List.mem_map_of_mem (f := Prod.fst) hdropped)
          rw [outranks, decide_eq_true_eq]
          rcases hranks with hlt | ⟨heq, hle⟩
          · exact Or.inl hlt
          · exact Or.inr ⟨heq, lt_of_le_of_ne hle hne⟩
        calc n = ((ranked allocations).items.take n).length := by
              rw [List.length_take, hperm.length_eq]
              omega
          _ = (((ranked allocations).items.take n).filter
            (outranks · (address, entry))).length := by
              rw [List.filter_eq_self.mpr habove]
          _ ≤ ((ranked allocations).items.filter (outranks · (address, entry))).length :=
              ((List.take_sublist n _).filter _).length_le
          _ = (allocations.items.filter (outranks · (address, entry))).length :=
              (hperm.filter _).length_eq

/-- An allocation with few as large ones is kept under the cap. -/
theorem applyAllocationCap_kept
    (hfew : (allocations.items.filter fun p => decide (entry.sats ≤ p.2.sats)).length ≤
      cap.getD MAX_ALLOCATION_OUTPUTS) :
    committed.get? address = some entry := by
  rcases applyAllocationCap_outranked h hentry with hkept | hmany
  · exact hkept
  · exfalso
    have hsplit : allocations.items.filter (outranks · (address, entry)) =
        (allocations.items.filter fun p => decide (entry.sats ≤ p.2.sats)).filter
          (outranks · (address, entry)) := by
      rw [List.filter_filter]
      refine List.filter_congr fun p _ => ?_
      rw [Bool.eq_self_and, outranks, decide_eq_true_eq, decide_eq_true_eq]
      rintro (hlt | ⟨heq, -⟩)
      · exact le_of_lt hlt
      · exact le_of_eq heq.symm
    have hself : (address, entry) ∈
        allocations.items.filter fun p => decide (entry.sats ≤ p.2.sats) :=
      List.mem_filter.mpr ⟨OrderedDict.get?_eq_some.mp hentry, by simp⟩
    have hlt : ((allocations.items.filter fun p => decide (entry.sats ≤ p.2.sats)).filter
        (outranks · (address, entry))).length <
        (allocations.items.filter fun p => decide (entry.sats ≤ p.2.sats)).length :=
      List.length_filter_lt_length_iff_exists.mpr ⟨(address, entry), hself, by simp [outranks]⟩
    rw [hsplit] at hmany
    omega

end

end Cap

/-- **A published credit is never lost to later activity.**  Whatever is burned, withheld or named
    after the earlier cutoff, an address allocated there stays allocated with all its transactions
    and no less.  The cap drops an address only for at least as many addresses above it as the cap
    lets in, so addresses with smaller totals never displace it. -/
theorem published_credit_kept (py : StrMethods) (rpc₁ rpc₂ : RpcClient) (mint : String)
    (lists : Lists) (openSlot c₁ c₂ fuel₁ fuel₂ : Nat) (history₁ history₂ : List SignatureEntry)
    (hist₁ : ServedHistory rpc₁ mint history₁) (hist₂ : ServedHistory rpc₂ mint history₂)
    (htx : rpc₂.getTransaction = rpc₁.getTransaction)
    (hsame : ∀ e, e.slot ≤ c₁ → (e ∈ history₁ ↔ e ∈ history₂)) (hle : c₁ ≤ c₂)
    (result₁ result₂ : SnapshotResult)
    (hrun₁ : runSnapshot py rpc₁ mint openSlot c₁ lists fuel₁ = .ok result₁)
    (hrun₂ : runSnapshot py rpc₂ mint openSlot c₂ lists fuel₂ = .ok result₂) :
    (∀ address entry₁, result₁.allocations.get? address = some entry₁ →
      ∃ entry₂, result₂.allocations.get? address = some entry₂ ∧
        entry₁.txids ⊆ entry₂.txids ∧ entry₁.sats ≤ entry₂.sats) ∧
    ∀ (allocations committed : OrderedDict String Allocation) (overCap : List OverCap)
      (cap : Option Nat), applyAllocationCap allocations cap = (committed, overCap) →
      ∀ address entry, allocations.get? address = some entry →
        (committed.get? address = some entry ∨
          cap.getD MAX_ALLOCATION_OUTPUTS ≤
            (allocations.items.filter (outranks · (address, entry))).length) ∧
        ((allocations.items.filter fun p => decide (entry.sats ≤ p.2.sats)).length ≤
            cap.getD MAX_ALLOCATION_OUTPUTS →
          committed.get? address = some entry) := by
  constructor
  · intro address entry₁ hentry
    exact allocation_kept hist₁ hist₂ htx hsame hle hrun₁ hrun₂ hentry
  · intro allocations committed overCap cap hcap address entry hentry
    exact ⟨applyAllocationCap_outranked hcap hentry, applyAllocationCap_kept hcap hentry⟩

open Corpus in
/-- A cutoff in the middle of the history, and one at its end. -/
theorem published_credit_kept_sample :
    ∃ result₁ result₂, runSnapshot .ascii Corpus.rpc "pSOQ" 10 11 Corpus.lists 5 = .ok result₁ ∧
      runSnapshot .ascii Corpus.rpc "pSOQ" 10 20 Corpus.lists 5 = .ok result₂ ∧
      result₁.allocations.get? addressA = some ⟨200000100, ["s10"]⟩ ∧
      ∃ entry₂, result₂.allocations.get? addressA = some entry₂ ∧
        ["s10"] ⊆ entry₂.txids ∧ 200000100 ≤ entry₂.sats := by
  have hsome₁ : (runSnapshot .ascii Corpus.rpc "pSOQ" 10 11 Corpus.lists 5).toOption.map
      (·.allocations.get? addressA) = some (some ⟨200000100, ["s10"]⟩) := by
    decide +kernel
  obtain ⟨result₂, hrun₂, -⟩ := runSnapshot_lists
  cases hrun₁ : runSnapshot .ascii Corpus.rpc "pSOQ" 10 11 Corpus.lists 5 with
  | error e =>
    rw [hrun₁] at hsome₁
    cases hsome₁
  | ok result₁ =>
    rw [hrun₁] at hsome₁
    have hentry := Option.some.inj hsome₁
    refine ⟨result₁, result₂, rfl, hrun₂, hentry, ?_⟩
    exact (published_credit_kept .ascii Corpus.rpc Corpus.rpc "pSOQ" Corpus.lists 10 11 20 5 5
      history history mintHistory.toServedHistory mintHistory.toServedHistory rfl
      (fun _ _ => Iff.rfl) (by decide) result₁ result₂ hrun₁ hrun₂).1 addressA _ hentry

end Soqucoin.Snapshot
