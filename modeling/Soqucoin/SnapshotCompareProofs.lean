import Soqucoin.SnapshotCommitmentProofs
import Soqucoin.SnapshotCompare

/-! # SnapshotCompareProofs — what an accepted re-run is

`compareRuns_sound`: where the check finds no problem, the new run has only addresses of the
previous one, with no larger amounts, every transaction an address lost is withheld, the total has
not grown, and the lines of both runs are those of their own allocations. -/

namespace Soqucoin.Snapshot

open CheckedLoop

variable {address : String} {entry : Allocation} {newWithheld : List String}

/-! ## Totals -/

section Totals

variable {py : StrMethods} {d d' : OrderedDict String Allocation} {outputs : List (Int × Bytes)}
  {total total' : Int}

/-- A built allocation has a positive amount. -/
theorem Built.sats_pos (h : Built py d outputs total) (hentry : d.get? address = some entry) :
    0 < entry.sats := by
  have hkey : address ∈ d.keys.insertionSort (· ≤ ·) := by
    rw [List.mem_insertionSort]
    exact List.mem_map.mpr ⟨(address, entry), OrderedDict.get?_eq_some.mp hentry, rfl⟩
  obtain ⟨output, -, hoff⟩ := exists_of_mem_right h.each.flip hkey
  obtain ⟨entry', hget, hsats⟩ := hoff.entry
  obtain rfl := Option.some.inj (hentry.symm.trans hget)
  rw [← hsats]
  exact hoff.sats_pos

/-- The total is the sum of the allocations. -/
theorem Built.total_items (h : Built py d outputs total) :
    total = (d.items.map fun p => p.2.sats).sum := by
  have houtputs : ∀ {keys : List String} {outs : List (Int × Bytes)},
      List.Forall₂ (OutputOf py d) keys outs →
      outs.map Prod.fst = keys.map fun k => ((d.get? k).map Allocation.sats).getD 0 := by
    intro keys outs hall
    induction hall with
    | nil => rfl
    | cons hoff _ ih =>
      obtain ⟨entry, hget, hsats⟩ := hoff.entry
      rw [List.map_cons, List.map_cons, ih, hget, hsats, Option.map_some, Option.getD_some]
  have hitems : (d.items.map fun p => p.2.sats) =
      d.keys.map fun k => ((d.get? k).map Allocation.sats).getD 0 := by
    rw [OrderedDict.keys, List.map_map]
    apply List.map_congr_left
    intro p hp
    have hget : d.get? p.1 = some p.2 := OrderedDict.get?_eq_some.mpr hp
    rw [Function.comp_apply, hget, Option.map_some, Option.getD_some]
  rw [h.total_eq, houtputs h.each, hitems]
  exact ((List.perm_insertionSort _ _).map _).sum_eq

/-- Fewer and smaller allocations have a smaller sum. -/
theorem sum_le_of_subset {f : Allocation → Int}
    (hsub : ∀ p ∈ d'.items, ∃ v, (p.1, v) ∈ d.items ∧ f p.2 ≤ f v)
    (hpos : ∀ p ∈ d.items, 0 ≤ f p.2) :
    (d'.items.map fun p => f p.2).sum ≤ (d.items.map fun p => f p.2).sum := by
  let old := d'.items.map fun p => (p.1, (d.get? p.1).getD p.2)
  have hold : ∀ p ∈ d'.items, (p.1, (d.get? p.1).getD p.2) ∈ d.items ∧
      f p.2 ≤ f ((d.get? p.1).getD p.2) := by
    intro p hp
    obtain ⟨v, hmem, hle⟩ := hsub p hp
    rw [OrderedDict.get?_eq_some.mpr hmem, Option.getD_some]
    exact ⟨hmem, hle⟩
  have hnodup : old.Nodup := by
    apply List.Nodup.of_map Prod.fst
    rw [List.map_map]
    exact d'.nodup
  have hsubset : old ⊆ d.items := by
    intro q hq
    obtain ⟨p, hp, rfl⟩ := List.mem_map.mp hq
    exact (hold p hp).1
  calc (d'.items.map fun p => f p.2).sum
      ≤ (d'.items.map fun p => f ((d.get? p.1).getD p.2)).sum :=
        List.sum_le_sum fun p hp => (hold p hp).2
    _ = (old.map fun p => f p.2).sum := by rw [List.map_map]; rfl
    _ ≤ (d.items.map fun p => f p.2).sum :=
        OrderedDict.sum_map_le_of_subset hnodup hsubset hpos

end Totals

/-! ## Soundness -/

/-- The hash and the total in `commitment.txt` are those of the allocations. -/
def OwnLines (py : StrMethods) (hash : Bytes → Uint256) (run : Run) (total : Int) : Prop :=
  ∃ outputs printed, buildOutputs py run.allocations = .ok (outputs, total) ∧
    hashMigrationOutputs hash outputs = .ok printed ∧
    run.commitment.get? "hash_migration_outputs" = some (String.ofList printed) ∧
    run.commitment.get? "n_migration_total" = some (toString total)

section Sound

variable {py : StrMethods} {lib : PyLib} {hash : Bytes → Uint256} {label : String}
  {prev new run : Run}

/-- What a run without problems of its own has passed. -/
theorem ownLines_of_selfCheck (h : selfCheck py lib hash label run = some []) :
    ∃ total, OwnLines py hash run total := by
  unfold selfCheck at h
  split at h
  · cases h
  · cases h
  · next outputs total hbuild =>
      obtain ⟨outHex, -, h⟩ := Option.bind_eq_some_iff.mp h
      obtain ⟨printed, hprinted, h⟩ := Option.bind_eq_some_iff.mp h
      obtain ⟨overCap, -, h⟩ := Option.bind_eq_some_iff.mp h
      obtain ⟨hlines, -⟩ := List.append_eq_nil_iff.mp (Option.some.inj h)
      rw [List.map_eq_nil_iff, List.filter_eq_nil_iff] at hlines
      have hline : ∀ key value, (key, value) ∈ [
          ("allocation_count", toString outputs.length),
          ("allocations_sha256", run.allocationsSha256),
          ("exclusions_sha256", run.exclusionsSha256),
          ("hash_migration_outputs", String.ofList printed),
          ("n_migration_total", toString total),
          ("outputs_sha256", lib.sha256 (String.ofList outHex)),
          ("over_cap_count", toString overCap.dedup.length),
          ("withheld_count", toString (run.exclusions.countP isWithheldRow))] →
          run.commitment.get? key = some value := by
        intro key value hmem
        have hsame := hlines (key, value) hmem
        rw [decide_eq_true_eq, not_not] at hsame
        exact hsame
      exact ⟨total, outputs, printed, hbuild, toOption_eq_some.mp hprinted,
        hline _ _ (by simp), hline _ _ (by simp)⟩

/-- The problems of the parts of the check, none of which found any. -/
structure Passed (py : StrMethods) (lib : PyLib) (hash : Bytes → Uint256) (prev new : Run) :
    Prop where
  selfPrev : selfCheck py lib hash "previous" prev = some []
  selfNew : selfCheck py lib hash "new" new = some []
  fixed : ∀ key ∈ FIXED_LINES, fixedLine prev.commitment new.commitment key = []
  final : finalRun "previous" prev.commitment = [] ∧ finalRun "new" new.commitment = []
  entries : ∀ p ∈ new.allocations.items,
    compareEntry prev.allocations (withheldTxids new.exclusions) p = []
  removed : ∀ p ∈ prev.allocations.items,
    compareRemoved new.allocations (withheldTxids new.exclusions) p = []
  prevExclusions : ∀ p ∈ (byTxid prev.exclusions).items,
    comparePrevExclusion (byTxid new.exclusions) p = []
  newExclusions : ∀ p ∈ (byTxid new.exclusions).items,
    compareNewExclusion (byTxid prev.exclusions) p = []

theorem mem_sortedByKey {ν : Type} {d : OrderedDict String ν} {p : String × ν} :
    p ∈ (sortedByKey d).items ↔ p ∈ d.items :=
  (List.perm_insertionSort _ _).mem_iff

/-- The check finds nothing exactly if everything passes. -/
theorem compareRuns_eq_nil :
    compareRuns py lib hash prev new = some [] ↔ Passed py lib hash prev new := by
  constructor
  · intro h
    obtain ⟨selfPrev, hprev, h⟩ := Option.bind_eq_some_iff.mp h
    obtain ⟨selfNew, hnew, h⟩ := Option.bind_eq_some_iff.mp h
    have hnil := Option.some.inj h
    simp only [List.append_eq_nil_iff, List.flatMap_eq_nil_iff, mem_sortedByKey] at hnil
    obtain ⟨⟨⟨⟨⟨⟨⟨⟨rfl, rfl⟩, hfixed⟩, hfinal⟩, hfinal'⟩, hentries⟩, hremoved⟩, hexcl⟩, hexcl'⟩ :=
      hnil
    exact ⟨hprev, hnew, hfixed, ⟨hfinal, hfinal'⟩, hentries, hremoved, hexcl, hexcl'⟩
  · intro h
    refine Option.bind_eq_some_iff.mpr ⟨[], h.selfPrev, Option.bind_eq_some_iff.mpr
      ⟨[], h.selfNew, congrArg some ?_⟩⟩
    simp only [List.append_eq_nil_iff, List.flatMap_eq_nil_iff, mem_sortedByKey]
    exact ⟨⟨⟨⟨⟨⟨⟨⟨trivial, trivial⟩, h.fixed⟩, h.final.1⟩, h.final.2⟩, h.entries⟩, h.removed⟩,
      h.prevExclusions⟩, h.newExclusions⟩

/-- An entry passes exactly if it is the old one or reduced. -/
theorem compareEntry_eq_nil {prevAlloc : OrderedDict String Allocation} {p : String × Allocation} :
    compareEntry prevAlloc newWithheld p = [] ↔ ∃ entry, prevAlloc.get? p.1 = some entry ∧
      (entry = p.2 ∨ reduced newWithheld entry p.2) := by
  unfold compareEntry
  constructor
  · intro h
    split at h
    · cases h
    · next entry hentry =>
        refine ⟨entry, hentry, ?_⟩
        split_ifs at h with hchanged
        rw [not_and_or, not_not, Bool.not_eq_false] at hchanged
        exact hchanged
  · rintro ⟨entry, hentry, hcase⟩
    rw [hentry]
    dsimp only
    rw [if_neg]
    rintro ⟨hne, hnot⟩
    rcases hcase with heq | hred
    · exact hne heq
    · exact Bool.false_ne_true (hnot.symm.trans hred)

theorem compareRemoved_eq_nil {newAlloc : OrderedDict String Allocation} {p : String × Allocation} :
    compareRemoved newAlloc newWithheld p = [] ↔
      (newAlloc.get? p.1 = none → ∀ t ∈ p.2.txids, t ∈ newWithheld) := by
  unfold compareRemoved
  cases hget : newAlloc.get? p.1 with
  | some entry => simp
  | none => simp [List.filter_eq_nil_iff]

theorem reduced_iff {prev : Allocation} :
    reduced newWithheld prev entry ↔ entry.txids ⊆ prev.txids ∧
      (∃ t ∈ prev.txids, t ∉ entry.txids) ∧ entry.sats < prev.sats ∧
      ∀ t ∈ prev.txids, t ∉ entry.txids → t ∈ newWithheld := by
  simp only [reduced, Bool.and_eq_true, List.isEmpty_iff, List.filter_eq_nil_iff,
    Bool.not_eq_true', decide_eq_true_eq, List.all_eq_true, List.mem_filter,
    List.contains_eq_mem, not_not, ← Bool.not_eq_true,
    and_imp, and_assoc]
  refine and_congr Iff.rfl (and_congr ?_ Iff.rfl)
  rw [not_forall]
  simp

theorem Passed.kept (h : Passed py lib hash prev new)
    (hentry : new.allocations.get? address = some entry) :
    ∃ old, prev.allocations.get? address = some old ∧
      (old = entry ∨ reduced (withheldTxids new.exclusions) old entry) :=
  compareEntry_eq_nil.mp (h.entries (address, entry) (OrderedDict.get?_eq_some.mp hentry))

theorem Passed.sats_le (h : Passed py lib hash prev new)
    (hentry : new.allocations.get? address = some entry) :
    ∃ old, prev.allocations.get? address = some old ∧ entry.sats ≤ old.sats := by
  obtain ⟨old, hold, rfl | hred⟩ := h.kept hentry
  · exact ⟨old, hold, le_refl _⟩
  · exact ⟨old, hold, (reduced_iff.mp hred).2.2.1.le⟩

/-- A transaction that an address has lost is withheld. -/
theorem Passed.withheld_of_lost (h : Passed py lib hash prev new) {t : String} {old : Allocation}
    (hold : prev.allocations.get? address = some old) (ht : t ∈ old.txids)
    (hlost : ∀ entry, new.allocations.get? address = some entry → t ∉ entry.txids) :
    t ∈ withheldTxids new.exclusions := by
  cases hnew : new.allocations.get? address with
  | none =>
    have hremoved := h.removed (address, old) (OrderedDict.get?_eq_some.mp hold)
    exact compareRemoved_eq_nil.mp hremoved hnew t ht
  | some entry =>
    have hdropped := hlost entry hnew
    obtain ⟨old', hold', hcase⟩ := h.kept hnew
    obtain rfl := Option.some.inj (hold.symm.trans hold')
    rcases hcase with heq | hred
    · exact absurd (heq ▸ ht) hdropped
    · exact (reduced_iff.mp hred).2.2.2 t ht hdropped

/-- **An accepted re-run only withholds.** -/
theorem compareRuns_sound (h : compareRuns py lib hash prev new = some []) :
    (∀ address entry, new.allocations.get? address = some entry →
      ∃ old, prev.allocations.get? address = some old ∧ entry.sats ≤ old.sats) ∧
    (∀ address old, prev.allocations.get? address = some old → ∀ t ∈ old.txids,
      (∀ entry, new.allocations.get? address = some entry → t ∉ entry.txids) →
      ∃ row ∈ new.exclusions, row.txid = t ∧ row.reason = WITHHELD) ∧
    ∃ prevTotal newTotal, OwnLines py hash prev prevTotal ∧ OwnLines py hash new newTotal ∧
      newTotal ≤ prevTotal := by
  have hpassed := compareRuns_eq_nil.mp h
  refine ⟨fun address entry hentry => hpassed.sats_le hentry, ?_, ?_⟩
  · intro address old hold t ht hlost
    obtain ⟨row, hrow, rfl⟩ := List.mem_map.mp (hpassed.withheld_of_lost hold ht hlost)
    rw [List.mem_filter, isWithheldRow, decide_eq_true_eq] at hrow
    exact ⟨row, hrow.1, rfl, hrow.2⟩
  · obtain ⟨prevTotal, hprev⟩ := ownLines_of_selfCheck hpassed.selfPrev
    obtain ⟨newTotal, hnew⟩ := ownLines_of_selfCheck hpassed.selfNew
    refine ⟨prevTotal, newTotal, hprev, hnew, ?_⟩
    obtain ⟨outputs, -, hbuild, -⟩ := hprev
    obtain ⟨outputs', -, hbuild', -⟩ := hnew
    have hbuilt := built_of_buildOutputs hbuild
    rw [hbuilt.total_items, (built_of_buildOutputs hbuild').total_items]
    refine sum_le_of_subset ?_ ?_
    · intro p hp
      obtain ⟨old, hold, hle⟩ := hpassed.sats_le (OrderedDict.get?_eq_some.mpr hp)
      exact ⟨old, OrderedDict.get?_eq_some.mp hold, hle⟩
    · intro p hp
      exact (hbuilt.sats_pos (OrderedDict.get?_eq_some.mpr hp)).le

end Sound

end Soqucoin.Snapshot
