import Soqucoin.SnapshotCompareProofs
import Soqucoin.SnapshotCutoffProofs

/-! # SnapshotRerunProofs — a re-run with longer legal lists is accepted

Two runs over one window, the second with more names on the three legal lists. A longer list turns
a burn that counts, or one below the dust floor, into a withheld one and nothing else.  A withheld
burn can only move the first credited slot of its address to a later one, so an address that is
tainted stays so: the second run has fewer and smaller allocations, and what they lost is
withheld.  `compare_rerun`, on the artifacts, then says that the check finds no problem. -/

namespace Soqucoin.Snapshot

open CheckedLoop

/-! ## The exclusions of a run -/

section Exclusions

variable {named : OrderedDict String (List Withheld)}
  {judged : List (SignatureEntry × Verdict)}

/-- The exclusion of a verdict. -/
def exclusionOf (p : SignatureEntry × Verdict) : Option Exclusion :=
  match p.2 with
  | .excluded reason =>
    if reason = .noBurn then none else some ⟨p.1.signature, p.1.slot, reason⟩
  | .withheld _ _ => some ⟨p.1.signature, p.1.slot, .withheld⟩
  | .eligible _ _ _ => none

/-- The exclusions of a run, before tainting. -/
theorem bookAll_exclusions : ∀ (judged : List (SignatureEntry × Verdict)) (s : Ledger),
    (s.bookAll judged).exclusions = s.exclusions ++ judged.filterMap exclusionOf := by
  intro judged
  induction judged with
  | nil =>
    intro s
    exact (List.append_nil _).symm
  | cons p judged ih =>
    intro s
    have hstep : (s.book p.1 p.2).exclusions = s.exclusions ++ (exclusionOf p).toList := by
      obtain ⟨e, v⟩ := p
      cases v with
      | excluded reason =>
        rw [Ledger.book, exclusionOf]
        by_cases hreason : reason = .noBurn
        · simp [hreason]
        · simp [hreason]
      | withheld address grounds => rfl
      | eligible address sats authorities => exact (List.append_nil _).symm
    rw [Ledger.bookAll, List.foldl_cons, ← Ledger.bookAll, ih, hstep, filterMap_cons_toList,
      List.append_assoc]

/-- The transaction is excluded for the reason. -/
def HasRow (exclusions : List Exclusion) (txid : String) (reason : Reason) : Prop :=
  ∃ x ∈ exclusions, x.txid = txid ∧ x.reason = reason

theorem hasRow_append {l l' : List Exclusion} {txid : String} {reason : Reason} :
    HasRow (l ++ l') txid reason ↔ HasRow l txid reason ∨ HasRow l' txid reason := by
  simp only [HasRow, List.mem_append, or_and_right, exists_or]

/-- Tainting adds the rows of what it moves. -/
theorem hasRow_taint : ∀ {keys : List String} {s t : Ledger},
    keys.foldlM (taintAddress named) s = .ok t → ∀ {txid : String} {reason : Reason},
      (HasRow t.exclusions txid reason ↔ HasRow s.exclusions txid reason ∨
        reason = .withheld ∧ ∃ a ∈ keys, Tainted named s a ∧
          ∃ entry, s.allocations.get? a = some entry ∧ txid ∈ entry.txids) := by
  intro keys
  induction keys with
  | nil =>
    intro s t h txid reason
    rw [foldlM_nil_eq_ok.mp h]
    simp
  | cons address keys ih =>
    intro s t h txid reason
    obtain ⟨m, hstep, hrest⟩ := foldlM_cons_eq_ok.mp h
    rw [ih hrest]
    rcases taintAddress_cases hstep with ⟨rfl, hclean⟩ |
      ⟨htaint, -, halloc, entry, moved, hentry, hexcl, hmoved, hreason, -⟩
    · -- nothing is moved, and the address is not tainted
      refine or_congr Iff.rfl (and_congr Iff.rfl ⟨?_, ?_⟩)
      · rintro ⟨a, ha, hrow⟩
        exact ⟨a, List.mem_cons_of_mem _ ha, hrow⟩
      · rintro ⟨a, ha, hrow⟩
        rcases List.mem_cons.mp ha with rfl | ha
        · exact absurd hrow.1 hclean
        · exact ⟨a, ha, hrow⟩
    · have hmovedRow : HasRow moved txid reason ↔ reason = .withheld ∧ txid ∈ entry.txids := by
        rw [← hmoved, List.mem_map]
        constructor
        · rintro ⟨x, hx, rfl, rfl⟩
          exact ⟨hreason x hx, x, hx, rfl⟩
        · rintro ⟨rfl, x, hx, rfl⟩
          exact ⟨x, hx, rfl, hreason x hx⟩
      rw [hexcl, hasRow_append, hmovedRow, or_assoc, ← and_or_left]
      refine or_congr Iff.rfl (and_congr Iff.rfl ⟨?_, ?_⟩)
      · rintro (htxid | ⟨a, ha, htainted, entry', hget, htxid⟩)
        · exact ⟨address, List.mem_cons_self, htaint, entry, hentry, htxid⟩
        · rcases get?_taintAddress a hstep with ⟨-, -, hnone⟩ | ⟨-, hsame, hiff⟩
          · rw [hnone] at hget
            cases hget
          · exact ⟨a, List.mem_cons_of_mem _ ha, hiff.mp htainted, entry', hsame ▸ hget, htxid⟩
      · rintro ⟨a, ha, htainted, entry', hget, htxid⟩
        by_cases haddr : a = address
        · subst haddr
          obtain rfl := Option.some.inj (hentry.symm.trans hget)
          exact .inl htxid
        · rcases get?_taintAddress a hstep with ⟨heq, -, -⟩ | ⟨-, hsame, hiff⟩
          · exact absurd heq haddr
          · have ha' := (List.mem_cons.mp ha).resolve_left haddr
            exact .inr ⟨a, ha', hiff.mpr htainted, entry', hsame.trans hget, htxid⟩

/-- Tainting keeps rows and withheld entries in step. -/
theorem withheld_length_taint : ∀ {keys : List String} {s t : Ledger},
    keys.foldlM (taintAddress named) s = .ok t →
    (s.exclusions.countP fun x => x.reason = .withheld) = s.withheld.length →
    (t.exclusions.countP fun x => x.reason = .withheld) = t.withheld.length := by
  intro keys s t h
  refine foldlM_invariant (fun u : Ledger =>
    (u.exclusions.countP fun x => x.reason = .withheld) = u.withheld.length) keys ?_ h
  intro address _ u v hstep hu
  rcases taintAddress_cases hstep with ⟨rfl, -⟩ |
    ⟨-, -, -, entry, moved, -, hexcl, -, hreason, hlen⟩
  · exact hu
  · have hmoved : (moved.countP fun x => x.reason = .withheld) = moved.length := by
      rw [List.countP_eq_length]
      intro x hx
      exact decide_eq_true (hreason x hx)
    rw [hexcl, List.countP_append, hu, hmoved, hlen]

end Exclusions

section Rows

variable {py : StrMethods} {rpc : RpcClient} {mint : String} {lists : Lists}
  {judged : List (SignatureEntry × Verdict)} {result : SnapshotResult}

/-- The tainted-destination rule drops the address. -/
def TaintedIn (judged : List (SignatureEntry × Verdict)) (address : String) : Prop :=
  Tainted (namedByWithheld (judged.filterMap withheldOf)) (Ledger.bookAll {} judged) address

/-- The reason a transaction ends up with: the one of its verdict, or the taint of
    the address it counts for. -/
def ExcludedAs (judged : List (SignatureEntry × Verdict)) (p : SignatureEntry × Verdict)
    (reason : Reason) : Prop :=
  exclusionOf p = some ⟨p.1.signature, p.1.slot, reason⟩ ∨
    reason = .withheld ∧ ∃ c, creditOf p = some c ∧ TaintedIn judged c.address

/-- An exclusion names its entry. -/
theorem exclusionOf_eq {p : SignatureEntry × Verdict} {x : Exclusion}
    (h : exclusionOf p = some x) : x = ⟨p.1.signature, p.1.slot, x.reason⟩ := by
  obtain ⟨e, v⟩ := p
  cases v with
  | excluded reason =>
    rw [exclusionOf] at h
    dsimp only at h
    split_ifs at h
    obtain rfl := Option.some.inj h
    rfl
  | withheld address grounds =>
    obtain rfl := Option.some.inj h
    rfl
  | eligible address sats authorities => cases h

/-- **The exclusions of a run, by its verdicts.** -/
theorem Stages.hasRow_iff (h : Stages py rpc mint lists judged result) {txid : String}
    {reason : Reason} :
    HasRow result.exclusions txid reason ↔
      ∃ p ∈ judged, p.1.signature = txid ∧ ExcludedAs judged p reason := by
  obtain ⟨t, htaint, -, hperm⟩ := h.taint
  have hrow : HasRow result.exclusions txid reason ↔ HasRow t.exclusions txid reason := by
    simp only [HasRow, hperm.mem_iff]
  rw [hrow, hasRow_taint htaint, bookAll_exclusions]
  constructor
  · rintro (⟨x, hx, rfl, rfl⟩ | ⟨rfl, a, -, htainted, entry, hentry, htxid⟩)
    · obtain ⟨p, hp, hexcl⟩ := List.mem_filterMap.mp hx
      have heq := exclusionOf_eq hexcl
      refine ⟨p, hp, (congrArg Exclusion.txid heq).symm, .inl ?_⟩
      rw [hexcl, heq]
    · rw [get?_allocations_bookAll, Allocation.ofCredits] at hentry
      split at hentry
      · cases hentry
      · obtain rfl := Option.some.inj hentry
        obtain ⟨c, hc, rfl⟩ := List.mem_map.mp htxid
        obtain ⟨hmem, rfl⟩ := mem_creditsFor.mp hc
        obtain ⟨p, hp, hcredit⟩ := List.mem_filterMap.mp hmem
        exact ⟨p, hp, (creditOf_txid hcredit).symm, .inr ⟨rfl, c, hcredit, htainted⟩⟩
  · rintro ⟨p, hp, rfl, hexcl | ⟨rfl, c, hcredit, htainted⟩⟩
    · exact .inl ⟨_, List.mem_filterMap.mpr ⟨p, hp, hexcl⟩, rfl, rfl⟩
    · refine .inr ⟨rfl, c.address, ?_, htainted, ?_⟩
      · obtain ⟨-, -, -, w, -, -, -, hw, -⟩ := htainted
        rw [List.mem_insertionSort]
        by_contra hkey
        rw [OrderedDict.get?_eq_none.mpr hkey] at hw
        exact absurd hw List.not_mem_nil
      · have hc : c ∈ creditsFor judged c.address :=
          mem_creditsFor.mpr ⟨List.mem_filterMap.mpr ⟨p, hp, hcredit⟩, rfl⟩
        refine ⟨⟨((creditsFor judged c.address).map Credit.sats).sum,
          (creditsFor judged c.address).map Credit.txid⟩, ?_, ?_⟩
        · rw [get?_allocations_bookAll, Allocation.ofCredits]
          exact if_neg fun hempty => List.ne_nil_of_mem hc (List.isEmpty_iff.mp hempty)
        · exact List.mem_map.mpr ⟨c, hc, creditOf_txid hcredit⟩

theorem Stages.exclusions_nodup (h : Stages py rpc mint lists judged result)
    (hnodup : (judged.map fun p => p.1.signature).Nodup) :
    (result.exclusions.map Exclusion.txid).Nodup := by
  have hall := h.txids.nodup_iff.mpr (hnodup.sublist (booked_sublist judged))
  exact (List.nodup_append.mp hall).2.1

end Rows

/-! ## Longer lists -/

/-- The second run has more names on the legal lists, and the same project lists. -/
structure Lists.Grows (lists₁ lists₂ : Lists) : Prop where
  projectAddresses : lists₂.projectAddresses = lists₁.projectAddresses
  projectDestinations : lists₂.projectDestinations = lists₁.projectDestinations
  sdn : lists₁.sdnAddresses ⊆ lists₂.sdnAddresses
  authorities : lists₁.excludedAuthorities ⊆ lists₂.excludedAuthorities
  destinations : lists₁.excludedDestinations ⊆ lists₂.excludedDestinations

/-- What a longer list can do to a verdict. -/
def Verdict.Grown (v₁ v₂ : Verdict) : Prop :=
  v₂ = v₁ ∨ ∃ address grounds, v₂ = .withheld address grounds ∧
    (v₁ = .excluded .belowDustFloor ∨
      (∃ sats authorities, v₁ = .eligible address sats authorities) ∨
      ∃ grounds₁, v₁ = .withheld address grounds₁)

section Grown

variable {py : StrMethods} {mint : String} {lists₁ lists₂ : Lists}

/-- Longer lists lose no ground. -/
theorem legalGrounds_grows (h : lists₁.Grows lists₂) {authorities : List String} {address : String}
    (hne : legalGrounds lists₁ authorities address ≠ []) :
    legalGrounds lists₂ authorities address ≠ [] := by
  have hfilter : ∀ {l l' : List String}, l ⊆ l' → (authorities.filter (l'.contains ·)) = [] →
      authorities.filter (l.contains ·) = [] := by
    intro l l' hsub hnil
    rw [List.filter_eq_nil_iff] at hnil ⊢
    intro a ha hmem
    rw [List.contains_eq_mem, decide_eq_true_eq] at hmem
    refine hnil a ha ?_
    rw [List.contains_eq_mem, decide_eq_true_eq]
    exact hsub hmem
  intro hnil
  apply hne
  simp only [legalGrounds, List.append_eq_nil_iff, List.map_eq_nil_iff] at hnil ⊢
  obtain ⟨⟨hsdn, hauth⟩, hdest⟩ := hnil
  refine ⟨⟨hfilter h.sdn hsdn, hfilter h.authorities hauth⟩, ?_⟩
  split_ifs at hdest with hmem
  rw [if_neg]
  intro hmem₁
  rw [List.contains_eq_mem, decide_eq_true_eq] at hmem₁
  rw [List.contains_eq_mem, decide_eq_true_eq] at hmem
  exact hmem (h.destinations hmem₁)

/-- **A longer list only withholds.** -/
theorem judge_grows (h : lists₁.Grows lists₂) (s : TxScan) :
    (judge py lists₁ s).Grown (judge py lists₂ s) := by
  unfold judge
  rw [h.projectAddresses, h.projectDestinations]
  dsimp only
  by_cases hburns : s.burns.isEmpty = true
  · rw [if_pos hburns, if_pos hburns]
    exact .inl rfl
  rw [if_neg hburns, if_neg hburns]
  by_cases hunchecked : s.unchecked = true
  · rw [if_pos hunchecked, if_pos hunchecked]
    exact .inl rfl
  rw [if_neg hunchecked, if_neg hunchecked]
  generalize (s.burns.map Prod.snd).dedup.insertionSort (· ≤ ·) = authorities
  by_cases hproject : authorities.any (lists₁.projectAddresses.contains ·) = true
  · rw [if_pos hproject, if_pos hproject]
    exact .inl rfl
  rw [if_neg hproject, if_neg hproject]
  rcases s.memos with _ | ⟨memo, _ | ⟨memo', rest⟩⟩
  · exact .inl rfl
  · dsimp only
    cases memoAddress py memo with
    | error reason => exact .inl rfl
    | ok address =>
      dsimp only
      by_cases hdest : lists₁.projectDestinations.contains address = true
      · rw [if_pos hdest, if_pos hdest]
        exact .inl rfl
      rw [if_neg hdest, if_neg hdest]
      -- the legal screen is the only test that reads a list that grew
      by_cases hscreen₁ : legalGrounds lists₁ authorities address = []
      · by_cases hscreen₂ : legalGrounds lists₂ authorities address = []
        · rw [hscreen₁, hscreen₂]
          exact .inl rfl
        · refine .inr ⟨address, _, if_pos (by simpa using hscreen₂), ?_⟩
          rw [if_neg (by simpa using hscreen₁)]
          by_cases hdust : (s.burns.map Prod.fst).sum < DUST_FLOOR_BASE_UNITS
          · exact .inl (if_pos hdust)
          · exact .inr (.inl ⟨_, _, if_neg hdust⟩)
      · have hscreen₂ := legalGrounds_grows h hscreen₁
        rw [if_pos (by simpa using hscreen₁), if_pos (by simpa using hscreen₂)]
        exact .inr ⟨address, _, rfl, .inr (.inr ⟨_, rfl⟩)⟩
  · exact .inl rfl

/-- Longer lists turn a verdict into a withheld one, or leave it. -/
theorem verdictOf_grows (h : lists₁.Grows lists₂) {rpc₁ rpc₂ : RpcClient}
    (htx : rpc₂.getTransaction = rpc₁.getTransaction) {e : SignatureEntry} {v₁ v₂ : Verdict}
    (h₁ : verdictOf py rpc₁ mint lists₁ e = .ok v₁)
    (h₂ : verdictOf py rpc₂ mint lists₂ e = .ok v₂) : v₁.Grown v₂ := by
  rw [verdictOf_congr htx] at h₂
  obtain ⟨tx, hfetch, h₁⟩ := bind_eq_ok.mp h₁
  obtain ⟨tx', hfetch', h₂⟩ := bind_eq_ok.mp h₂
  obtain rfl := Except.ok.inj (hfetch.symm.trans hfetch')
  rw [classifyTx] at h₁ h₂
  split at h₁
  · next herr =>
      rw [if_pos herr] at h₂
      exact .inl (Except.ok.inj (h₂.symm.trans h₁))
  · next herr =>
      rw [if_neg herr] at h₂
      obtain ⟨s, hscan, h₁⟩ := bind_eq_ok.mp h₁
      obtain ⟨s', hscan', h₂⟩ := bind_eq_ok.mp h₂
      obtain rfl := Except.ok.inj (hscan.symm.trans hscan')
      rw [← Except.ok.inj h₁, ← Except.ok.inj h₂]
      exact judge_grows h s

/-- No single verdict excludes as withheld. -/
theorem judge_ne_withheld (lists : Lists) (s : TxScan) :
    judge py lists s ≠ .excluded .withheld := by
  have hmemo : ∀ memo, memoAddress py memo ≠ .error .withheld := by
    intro memo h
    unfold memoAddress at h
    dsimp only at h
    split at h
    · cases h
    · split at h
      · cases h
      · split at h
        · cases h
        · cases h
  intro h
  unfold judge at h
  dsimp only at h
  split at h
  · split at h <;> cases h
  split at h
  · cases h
  split at h
  · cases h
  split at h
  · cases h
  · cases h
  · split at h
    · next reason hreason =>
        cases h
        exact hmemo _ hreason
    · split at h
      · cases h
      · split at h
        · cases h
        · split at h <;> cases h

end Grown

/-! ## Two runs -/

/-- The verdicts of two runs over one window. -/
structure Rerun (judged₁ judged₂ : List (SignatureEntry × Verdict)) : Prop where
  nodup₁ : (judged₁.map fun p => p.1.signature).Nodup
  nodup₂ : (judged₂.map fun p => p.1.signature).Nodup
  forward : ∀ e v₁, (e, v₁) ∈ judged₁ → ∃ v₂, (e, v₂) ∈ judged₂ ∧ v₁.Grown v₂
  backward : ∀ e v₂, (e, v₂) ∈ judged₂ → ∃ v₁, (e, v₁) ∈ judged₁ ∧ v₁.Grown v₂

variable {c : Credit} {judged : List (SignatureEntry × Verdict)}

namespace Rerun

variable {judged₁ judged₂ : List (SignatureEntry × Verdict)} {address : String}

section

variable (h : Rerun judged₁ judged₂)
include h

theorem credits_subset : creditsFor judged₂ address ⊆ creditsFor judged₁ address := by
  intro c hc
  obtain ⟨hmem, haddr⟩ := mem_creditsFor.mp hc
  obtain ⟨⟨e, v₂⟩, hp, hcredit⟩ := List.mem_filterMap.mp hmem
  obtain ⟨v₁, hp₁, rfl | ⟨_, _, rfl, -⟩⟩ := h.backward e v₂ hp
  · exact mem_creditsFor.mpr ⟨List.mem_filterMap.mpr ⟨_, hp₁, hcredit⟩, haddr⟩
  · cases hcredit

/-- What was withheld is withheld again. -/
theorem withheld_kept {w : Withheld} (hw : w ∈ judged₁.filterMap withheldOf) :
    ∃ w' ∈ judged₂.filterMap withheldOf, w'.slot = w.slot ∧ w'.destination = w.destination := by
  obtain ⟨⟨e, v₁⟩, hp, hwithheld⟩ := List.mem_filterMap.mp hw
  obtain ⟨v₂, hp₂, rfl | ⟨a, grounds, rfl, hcase⟩⟩ := h.forward e v₁ hp
  · exact ⟨w, List.mem_filterMap.mpr ⟨_, hp₂, hwithheld⟩, rfl, rfl⟩
  · rcases hcase with rfl | ⟨sats, authorities, rfl⟩ | ⟨grounds₁, rfl⟩
    · cases hwithheld
    · cases hwithheld
    · obtain rfl := Option.some.inj hwithheld
      exact ⟨_, List.mem_filterMap.mpr ⟨_, hp₂, rfl⟩, rfl, rfl⟩

/-- **Taint lasts.**  The first credited slot can only move to a later one. -/
theorem tainted_kept (htainted : TaintedIn judged₁ address)
    (hne : creditsFor judged₂ address ≠ []) : TaintedIn judged₂ address := by
  obtain ⟨-, w, hw, hdest, hearly⟩ := (tainted_iff h.nodup₁).mp htainted
  obtain ⟨w', hw', hslot, hdest'⟩ := h.withheld_kept hw
  refine (tainted_iff h.nodup₂).mpr ⟨hne, w', hw', hdest'.trans hdest, ?_⟩
  intro c hc
  rw [hslot]
  exact hearly c (h.credits_subset hc)

/-- A credit is kept, or its transaction is withheld. -/
theorem credit_fate {p : SignatureEntry × Verdict} (hp : p ∈ judged₁)
    (hcredit : creditOf p = some c) :
    c ∈ creditsFor judged₂ c.address ∨
      ∃ q ∈ judged₂, q.1.signature = c.txid ∧ ExcludedAs judged₂ q .withheld := by
  obtain ⟨e, v₁⟩ := p
  obtain ⟨v₂, hq, rfl | ⟨a, grounds, rfl, -⟩⟩ := h.forward e v₁ hp
  · exact .inl (mem_creditsFor.mpr ⟨List.mem_filterMap.mpr ⟨_, hq, hcredit⟩, rfl⟩)
  · exact .inr ⟨_, hq, (creditOf_txid hcredit).symm, .inl rfl⟩

end

end Rerun

theorem insertionSort_eq_of_perm {l l' : List String} (h : l.Perm l') :
    l.insertionSort (· ≤ ·) = l'.insertionSort (· ≤ ·) :=
  (((List.perm_insertionSort _ l).trans h).trans
    (List.perm_insertionSort _ l').symm).eq_of_pairwise'
    (List.pairwise_insertionSort _ l) (List.pairwise_insertionSort _ l')

section Results

variable {py : StrMethods} {rpc₁ rpc₂ : RpcClient} {mint : String} {lists₁ lists₂ : Lists}
  {judged₁ judged₂ : List (SignatureEntry × Verdict)} {result₁ result₂ : SnapshotResult}
  {address txid : String} {reason : Reason}

section

variable {rpc : RpcClient} {lists : Lists} {result : SnapshotResult}
  (h : Stages py rpc mint lists judged result)
include h

/-- An untainted address has the allocation of its credits. -/
theorem Stages.get?_of_clean (hclean : ¬ TaintedIn judged address)
    (hne : creditsFor judged address ≠ []) :
    result.allocations.get? address = some
      ⟨((creditsFor judged address).map Credit.sats).sum,
        ((creditsFor judged address).map Credit.txid).insertionSort (· ≤ ·)⟩ := by
  rcases h.get?_allocations address with ⟨htainted, -⟩ | ⟨-, hget⟩
  · exact absurd htainted hclean
  · rw [hget, Allocation.ofCredits,
      if_neg fun hempty => hne (List.isEmpty_iff.mp hempty), Option.map_some]
    rfl

/-- An allocation is that of the credits of an untainted address. -/
theorem Stages.get?_eq_some {entry : Allocation}
    (hentry : result.allocations.get? address = some entry) :
    ¬ TaintedIn judged address ∧ creditsFor judged address ≠ [] ∧ entry =
      ⟨((creditsFor judged address).map Credit.sats).sum,
        ((creditsFor judged address).map Credit.txid).insertionSort (· ≤ ·)⟩ := by
  have hne := (h.allocation hentry).1
  rcases h.get?_allocations address with ⟨-, hnone⟩ | ⟨hclean, -⟩
  · rw [hnone] at hentry
    cases hentry
  · refine ⟨hclean, hne, ?_⟩
    exact Option.some.inj (hentry.symm.trans (h.get?_of_clean hclean hne))

end

theorem credit_eq_of_txid (hnodup : (judged.map fun p => p.1.signature).Nodup) {c' : Credit}
    (hc : c ∈ creditsFor judged address) (hc' : c' ∈ creditsFor judged address)
    (htxid : c.txid = c'.txid) : c = c' := by
  have hsub := filterMap_map_sublist (fun p c (hp : creditOf p = some c) => creditOf_txid hp) judged
  exact List.inj_on_of_nodup_map (hnodup.sublist hsub) (mem_creditsFor.mp hc).1
    (mem_creditsFor.mp hc').1 htxid

/-- A credit that is lost has a row that withholds it. -/
theorem Rerun.hasRow_of_lost (h : Rerun judged₁ judged₂)
    (hstages : Stages py rpc₂ mint lists₂ judged₂ result₂) (hc : c ∈ creditsFor judged₁ address)
    (hlost : c ∉ creditsFor judged₂ address) : HasRow result₂.exclusions c.txid .withheld := by
  obtain ⟨hmem, rfl⟩ := mem_creditsFor.mp hc
  obtain ⟨p, hp, hcredit⟩ := List.mem_filterMap.mp hmem
  rcases h.credit_fate hp hcredit with hkept | ⟨q, hq, hsig, hexcl⟩
  · exact absurd hkept hlost
  · exact hstages.hasRow_iff.mpr ⟨q, hq, hsig, hexcl⟩

/-- An address that lost a credit has less. -/
theorem Rerun.sats_lt (h : Rerun judged₁ judged₂)
    (hstages₁ : Stages py rpc₁ mint lists₁ judged₁ result₁) {lost : Credit}
    (hlost₁ : lost ∈ creditsFor judged₁ address) (hlost₂ : lost ∉ creditsFor judged₂ address) :
    ((creditsFor judged₂ address).map Credit.sats).sum <
      ((creditsFor judged₁ address).map Credit.sats).sum := by
  have hcons : (lost :: creditsFor judged₂ address).Nodup :=
    List.nodup_cons.mpr ⟨hlost₂, creditsFor_nodup h.nodup₂ address⟩
  have hsubset : lost :: creditsFor judged₂ address ⊆ creditsFor judged₁ address :=
    List.cons_subset.mpr ⟨hlost₁, h.credits_subset⟩
  have hle : ((lost :: creditsFor judged₂ address).map Credit.sats).sum ≤
      ((creditsFor judged₁ address).map Credit.sats).sum :=
    OrderedDict.sum_map_le_of_subset hcons hsubset fun c hc =>
      (credit_pos hstages₁ (mem_creditsFor.mp hc).1).le
  rw [List.map_cons, List.sum_cons] at hle
  have hpos := credit_pos hstages₁ (mem_creditsFor.mp hlost₁).1
  omega

section

variable (h : Rerun judged₁ judged₂) (hstages₁ : Stages py rpc₁ mint lists₁ judged₁ result₁)
  (hstages₂ : Stages py rpc₂ mint lists₂ judged₂ result₂)
include h hstages₁ hstages₂

/-- **An allocation of the second run** is the one of the first, or lost withheld
    transactions only. -/
theorem Rerun.entry_kept {newWithheld : List String}
    (hwithheld : ∀ t, HasRow result₂.exclusions t .withheld → t ∈ newWithheld)
    {entry : Allocation} (hentry : result₂.allocations.get? address = some entry) :
    ∃ old, result₁.allocations.get? address = some old ∧
      (old = entry ∨ reduced newWithheld old entry) := by
  obtain ⟨hclean₂, hne₂, rfl⟩ := hstages₂.get?_eq_some hentry
  have hsub : creditsFor judged₂ address ⊆ creditsFor judged₁ address := h.credits_subset
  have hclean₁ : ¬ TaintedIn judged₁ address := fun ht => hclean₂ (h.tainted_kept ht hne₂)
  have hne₁ : creditsFor judged₁ address ≠ [] := by
    obtain ⟨c, hc⟩ := List.exists_mem_of_ne_nil _ hne₂
    exact List.ne_nil_of_mem (hsub hc)
  refine ⟨_, hstages₁.get?_of_clean hclean₁ hne₁, ?_⟩
  have hnodup₁ := creditsFor_nodup h.nodup₁ address
  have hnodup₂ := creditsFor_nodup h.nodup₂ address
  by_cases hsame : creditsFor judged₁ address ⊆ creditsFor judged₂ address
  · -- the same burns, in another order
    have hperm : (creditsFor judged₁ address).Perm (creditsFor judged₂ address) :=
      (List.perm_ext_iff_of_nodup hnodup₁ hnodup₂).mpr fun c => ⟨fun hc => hsame hc,
        fun hc => hsub hc⟩
    left
    rw [(hperm.map Credit.sats).sum_eq, insertionSort_eq_of_perm (hperm.map Credit.txid)]
  · obtain ⟨lost, hlost₁, hlost₂⟩ :
        ∃ c ∈ creditsFor judged₁ address, c ∉ creditsFor judged₂ address := by
      by_contra hnone
      push Not at hnone
      exact hsame hnone
    have hdropped : ∀ c ∈ creditsFor judged₁ address, c ∉ creditsFor judged₂ address →
        c.txid ∉ (creditsFor judged₂ address).map Credit.txid := by
      intro c hc hnot hmem
      obtain ⟨c', hc', htxid⟩ := List.mem_map.mp hmem
      exact hnot (credit_eq_of_txid h.nodup₁ (hsub hc') hc htxid ▸ hc')
    right
    rw [reduced_iff]
    simp only [List.subset_def, List.mem_insertionSort]
    refine ⟨?_, ⟨lost.txid, List.mem_map_of_mem hlost₁, hdropped lost hlost₁ hlost₂⟩, ?_, ?_⟩
    · intro t ht
      obtain ⟨c, hc, rfl⟩ := List.mem_map.mp ht
      exact List.mem_map_of_mem (hsub hc)
    · exact h.sats_lt hstages₁ hlost₁ hlost₂
    · intro t ht hnot
      obtain ⟨c, hc, rfl⟩ := List.mem_map.mp ht
      refine hwithheld _ (h.hasRow_of_lost hstages₂ hc fun hkept => hnot ?_)
      exact List.mem_map_of_mem hkept

/-- What an address that is gone had is withheld. -/
theorem Rerun.removed_withheld {old : Allocation}
    (hold : result₁.allocations.get? address = some old)
    (hnone : result₂.allocations.get? address = none) (ht : txid ∈ old.txids) :
    HasRow result₂.exclusions txid .withheld := by
  obtain ⟨-, -, rfl⟩ := hstages₁.get?_eq_some hold
  obtain ⟨c, hc, rfl⟩ := List.mem_map.mp ((List.mem_insertionSort _).mp ht)
  by_cases hkept : c ∈ creditsFor judged₂ address
  · have htainted : TaintedIn judged₂ address := by
      by_contra hclean
      rw [hstages₂.get?_of_clean hclean (List.ne_nil_of_mem hkept)] at hnone
      cases hnone
    obtain ⟨hmem, rfl⟩ := mem_creditsFor.mp hkept
    obtain ⟨p, hp, hcredit⟩ := List.mem_filterMap.mp hmem
    exact hstages₂.hasRow_iff.mpr ⟨p, hp, (creditOf_txid hcredit).symm,
      .inr ⟨rfl, c, hcredit, htainted⟩⟩
  · exact h.hasRow_of_lost hstages₂ hc hkept

/-- An exclusion stays, or becomes a withheld one. -/
theorem Rerun.row_kept (hrow : HasRow result₁.exclusions txid reason) :
    HasRow result₂.exclusions txid reason ∨ HasRow result₂.exclusions txid .withheld := by
  obtain ⟨⟨e, v₁⟩, hp, rfl, hexcl⟩ := hstages₁.hasRow_iff.mp hrow
  obtain ⟨v₂, hq, hgrown⟩ := h.forward e v₁ hp
  rcases hexcl with hexcl | ⟨rfl, c, hcredit, htainted⟩
  · rcases hgrown with rfl | ⟨a, grounds, rfl, -⟩
    · exact .inl (hstages₂.hasRow_iff.mpr ⟨_, hq, rfl, .inl hexcl⟩)
    · exact .inr (hstages₂.hasRow_iff.mpr ⟨_, hq, rfl, .inl rfl⟩)
  · rcases hgrown with rfl | ⟨a, grounds, rfl, -⟩
    · have hc : c ∈ creditsFor judged₂ c.address :=
        mem_creditsFor.mpr ⟨List.mem_filterMap.mpr ⟨_, hq, hcredit⟩, rfl⟩
      exact .inl (hstages₂.hasRow_iff.mpr ⟨_, hq, rfl, .inr ⟨rfl, c, hcredit,
        h.tainted_kept htainted (List.ne_nil_of_mem hc)⟩⟩)
    · exact .inl (hstages₂.hasRow_iff.mpr ⟨_, hq, rfl, .inl rfl⟩)

/-- Only a withheld row is new. -/
theorem Rerun.row_new (hrow : HasRow result₂.exclusions txid reason) :
    reason = .withheld ∨ HasRow result₁.exclusions txid reason := by
  obtain ⟨⟨e, v₂⟩, hq, rfl, hexcl⟩ := hstages₂.hasRow_iff.mp hrow
  rcases hexcl with hexcl | ⟨rfl, -⟩
  · obtain ⟨v₁, hp, rfl | ⟨a, grounds, rfl, -⟩⟩ := h.backward e v₂ hq
    · exact .inr (hstages₁.hasRow_iff.mpr ⟨_, hp, rfl, .inl hexcl⟩)
    · exact .inl (congrArg Exclusion.reason (Option.some.inj hexcl)).symm
  · exact .inl rfl

end

end Results

end Soqucoin.Snapshot
