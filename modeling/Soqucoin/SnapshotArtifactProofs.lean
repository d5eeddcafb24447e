import Soqucoin.SnapshotRerunProofs

/-! # SnapshotArtifactProofs — the check of a re-run, on the artifacts

A directory that a run has written passes the check of its own lines, and two directories of runs
over one window, the second with longer legal lists, pass the comparison.  With
`compareRuns_sound`: `rerun_check_complete_sound`. -/

namespace Soqucoin.Snapshot

open CheckedLoop

/-! ## The screening record -/

section Screened

variable {py : StrMethods} {rpc : RpcClient} {mint : String} {lists : Lists}
  {openSlot cutoffSlot fuel : Nat} {result : SnapshotResult}

/-- No single deposit is judged withheld. -/
theorem verdictOf_ne_withheld {e : SignatureEntry} {v : Verdict}
    (h : verdictOf py rpc mint lists e = .ok v) : v ≠ .excluded .withheld := by
  obtain ⟨tx, -, h⟩ := bind_eq_ok.mp h
  rw [classifyTx] at h
  split at h
  · obtain rfl := Except.ok.inj h
    intro hv
    cases hv
  · obtain ⟨s, -, h⟩ := bind_eq_ok.mp h
    rw [← Except.ok.inj h]
    exact judge_ne_withheld lists s

/-- The withheld rows of a list are its withheld entries. -/
theorem countP_exclusionOf : ∀ {judged : List (SignatureEntry × Verdict)},
    (∀ p ∈ judged, p.2 ≠ .excluded .withheld) →
    ((judged.filterMap exclusionOf).countP fun x => x.reason = .withheld) =
      (judged.filterMap withheldOf).length := by
  intro judged
  induction judged with
  | nil =>
    intro _
    rfl
  | cons p judged ih =>
    intro h
    have hp := h p List.mem_cons_self
    have hrest := ih fun q hq => h q (List.mem_cons_of_mem _ hq)
    have hstep : ((exclusionOf p).toList.countP fun x => x.reason = .withheld) =
        (withheldOf p).toList.length := by
      obtain ⟨e, v⟩ := p
      cases v with
      | excluded reason =>
        have hreason : reason ≠ .withheld := fun heq => hp (heq ▸ rfl)
        rw [exclusionOf, withheldOf]
        by_cases hno : reason = .noBurn
        · simp [hno]
        · simp [hno, hreason]
      | withheld address grounds => rfl
      | eligible address sats authorities => rfl
    rw [filterMap_cons_toList, filterMap_cons_toList, List.countP_append, List.length_append,
      hstep, hrest]

/-- **The screening record has the withheld exclusions**, one entry for each. -/
theorem runSnapshot_screened
    (h : runSnapshot py rpc mint openSlot cutoffSlot lists fuel = .ok result) :
    (result.exclusions.countP fun x => x.reason = .withheld) = result.withheld.length := by
  obtain ⟨entries, -, h⟩ := bind_eq_ok.mp h
  obtain ⟨s, hloop, h⟩ := bind_eq_ok.mp h
  obtain ⟨judged, -, hverdicts, rfl⟩ := foldlM_snapshotStep hloop
  obtain ⟨t, htaint, h⟩ := bind_eq_ok.mp h
  obtain rfl := Except.ok.inj h
  have hbooked : ((Ledger.bookAll {} judged).exclusions.countP fun x => x.reason = .withheld) =
      (Ledger.bookAll {} judged).withheld.length := by
    rw [bookAll_exclusions, (bookAll_fields judged {}).2.2]
    exact countP_exclusionOf fun p hp => verdictOf_ne_withheld (hverdicts p hp)
  rw [(List.perm_insertionSort _ _).countP_eq, (List.perm_insertionSort _ _).length_eq]
  exact withheld_length_taint htaint hbooked

end Screened

/-! ## What a run publishes -/

section Published

variable {py : StrMethods} {lib : PyLib} {hash : Bytes → Uint256} {rpc : RpcClient}
  {args : RunArgs} {fuel : Nat} {result : SnapshotResult} {dir : Artifacts} {run : Run}

theorem get?_sortedByKey {ν : Type} (d : OrderedDict String ν) (key : String) :
    (sortedByKey d).get? key = d.get? key :=
  OrderedDict.get?_congr (fun _ => mem_sortedByKey) key

/-- The outputs do not depend on the order of the entries. -/
theorem buildOutputs_sortedByKey (d : OrderedDict String Allocation) :
    buildOutputs py (sortedByKey d) = buildOutputs py d := by
  have hperm : (sortedByKey d).items.Perm d.items := List.perm_insertionSort _ _
  have hbuild : buildOutput py (sortedByKey d) = buildOutput py d := by
    funext outputs address
    rw [buildOutput, buildOutput, get?_sortedByKey]
  rw [buildOutputs, buildOutputs, hperm.length_eq, hbuild, OrderedDict.keys, OrderedDict.keys,
    insertionSort_eq_of_perm (hperm.map Prod.fst)]

/-- The exclusions as they are written, sorted. -/
def publishedExclusions (result : SnapshotResult) : List ExclusionRow :=
  (result.exclusions.map Exclusion.row).insertionSort fun a b => a.txid ≤ b.txid

/-- What `read_run` finds where a run under the cap has written. -/
def publishedRun (lib : PyLib) (args : RunArgs) (result : SnapshotResult)
    (outputs : List (Int × Bytes)) (total : Int) (printed outHex : List Char) : Run :=
  let allocJson := lib.dumpsAllocations (sortedByKey result.allocations)
  let exclJson := lib.dumpsExclusions (publishedExclusions result)
  { allocations := sortedByKey result.allocations
    exclusions := publishedExclusions result
    allocationsSha256 := lib.sha256 allocJson
    exclusionsSha256 := lib.sha256 exclJson
    outputsHex := outHex
    commitment := readCommitment (commitmentLines lib args printed total outputs.length 0
      result.withheld.length allocJson exclJson outHex) }

/-- **What a run under the cap publishes.** -/
theorem writeArtifacts_eq_ok
    (hrun : runSnapshot py rpc args.mint args.windowOpenSlot args.cutoffSlot args.lists fuel =
      .ok result)
    (hcap : result.allocations.items.length ≤ MAX_ALLOCATION_OUTPUTS)
    (h : writeArtifacts py lib hash rpc args fuel = .ok dir) :
    ∃ outputs total printed outHex, buildOutputs py result.allocations = .ok (outputs, total) ∧
      hashMigrationOutputs hash outputs = .ok printed ∧ outputsHex outputs = .ok outHex ∧
      readRun lib dir = some (publishedRun lib args result outputs total printed outHex) := by
  have hcapped : applyAllocationCap result.allocations none = (result.allocations, []) :=
    if_pos hcap
  rw [writeArtifacts, hrun] at h
  simp only [Except.mapError, bind, Except.bind, hcapped, List.map_nil, List.append_nil] at h
  cases hbuild : buildOutputs py result.allocations with
  | error e =>
    rw [hbuild] at h
    cases h
  | ok built =>
    rw [hbuild] at h
    dsimp only at h
    cases hhash : hashMigrationOutputs hash built.1 with
    | error e =>
      rw [hhash] at h
      cases h
    | ok printed =>
      rw [hhash] at h
      dsimp only at h
      cases hhex : outputsHex built.1 with
      | error e =>
        rw [hhex] at h
        cases h
      | ok outHex =>
        rw [hhex] at h
        dsimp only at h
        obtain rfl := Except.ok.inj h
        refine ⟨built.1, built.2, printed, outHex, rfl, hhash, hhex, ?_⟩
        rw [readRun]
        simp only [lib.loads_dumps_allocations, lib.loads_dumps_exclusions]
        rfl

/-- Reading the lines back gives each key its value. -/
theorem readCommitment_get? {lines : List (String × String)} (hnodup : (lines.map Prod.fst).Nodup)
    {key value : String} :
    (readCommitment lines).get? key = some value ↔ (key, value) ∈ lines := by
  rw [readCommitment, OrderedDict.get?_foldl_store hnodup]
  constructor
  · rintro ⟨line, hline, rfl, rfl⟩
    exact hline
  · intro hline
    exact ⟨(key, value), hline, rfl, rfl⟩

variable {outputs : List (Int × Bytes)} {total : Int} {printed outHex : List Char}

/-- A line of a published run reads back. -/
theorem publishedRun_line {key value : String}
    (h : (key, value) ∈ commitmentLines lib args printed total outputs.length 0
      result.withheld.length (lib.dumpsAllocations (sortedByKey result.allocations))
      (lib.dumpsExclusions (publishedExclusions result)) outHex) :
    (publishedRun lib args result outputs total printed outHex).commitment.get? key =
      some value := by
  refine (readCommitment_get? ?_).mpr h
  show (["hash_migration_outputs", "n_migration_total", "allocation_count", "allocation_cap",
    "over_cap_count", "withheld_count", "window_open_slot", "cutoff_slot", "freeze_slot",
    "provisional", "tool_version", "mint", "allocations_sha256", "exclusions_sha256",
    "outputs_sha256", "sdn_file_sha256", "project_file_sha256", "project_destinations_sha256",
    "excluded_authorities_sha256", "excluded_destinations_sha256"] : List String).Nodup
  decide

theorem mem_publishedExclusions {row : ExclusionRow} :
    row ∈ publishedExclusions result ↔ ∃ x ∈ result.exclusions, x.row = row := by
  rw [publishedExclusions, List.mem_insertionSort, List.mem_map]

theorem code_eq_withheld {reason : Reason} : reason.code = WITHHELD ↔ reason = .withheld := by
  cases reason <;> decide

theorem mem_withheldTxids {txid : String} (h : HasRow result.exclusions txid .withheld) :
    txid ∈ withheldTxids (publishedExclusions result) := by
  obtain ⟨x, hx, rfl, hreason⟩ := h
  refine List.mem_map.mpr ⟨x.row, List.mem_filter.mpr
    ⟨mem_publishedExclusions.mpr ⟨x, hx, rfl⟩, ?_⟩, rfl⟩
  exact decide_eq_true (code_eq_withheld.mpr hreason)

/-- A published list names no address as over the cap. -/
theorem overCapAddresses_published : overCapAddresses (publishedExclusions result) = some [] := by
  have hnone : (publishedExclusions result).filter (fun e => e.reason = "over-cap") = [] := by
    rw [List.filter_eq_nil_iff]
    intro row hrow
    obtain ⟨x, -, rfl⟩ := mem_publishedExclusions.mp hrow
    have hcode : x.reason.code ≠ "over-cap" := by cases x.reason <;> decide
    exact fun h => hcode (of_decide_eq_true h)
  rw [overCapAddresses, hnone]
  rfl

theorem countP_published : (publishedExclusions result).countP isWithheldRow =
    result.exclusions.countP fun x => x.reason = .withheld := by
  rw [publishedExclusions, (List.perm_insertionSort _ _).countP_eq, List.countP_map]
  apply List.countP_congr
  intro x _
  rw [Function.comp_apply, isWithheldRow, decide_eq_true_eq, decide_eq_true_eq]
  exact code_eq_withheld

/-- **A run passes the check of its own lines.** -/
theorem selfCheck_published (label : String)
    (hbuild : buildOutputs py result.allocations = .ok (outputs, total))
    (hprinted : hashMigrationOutputs hash outputs = .ok printed)
    (hhex : outputsHex outputs = .ok outHex)
    (hscreened : (result.exclusions.countP fun x => x.reason = .withheld) =
      result.withheld.length) :
    selfCheck py lib hash label (publishedRun lib args result outputs total printed outHex) =
      some [] := by
  have hbuild' : buildOutputs py (publishedRun lib args result outputs total printed
      outHex).allocations = .ok (outputs, total) := (buildOutputs_sortedByKey _).trans hbuild
  have hover : overCapAddresses (publishedRun lib args result outputs total printed
      outHex).exclusions = some [] := overCapAddresses_published
  unfold selfCheck
  rw [hbuild', hover]
  dsimp only
  refine Option.bind_eq_some_iff.mpr ⟨outHex, toOption_eq_some.mpr hhex, ?_⟩
  refine Option.bind_eq_some_iff.mpr ⟨printed, toOption_eq_some.mpr hprinted, ?_⟩
  refine Option.bind_eq_some_iff.mpr ⟨[], rfl, congrArg some ?_⟩
  rw [List.append_eq_nil_iff, List.map_eq_nil_iff, List.filter_eq_nil_iff]
  refine ⟨?_, if_neg (not_not.mpr rfl)⟩
  intro line hline
  rw [decide_eq_true_eq, not_not]
  apply publishedRun_line
  have hcount : (publishedRun lib args result outputs total printed
      outHex).exclusions.countP isWithheldRow = result.withheld.length :=
    countP_published.trans hscreened
  rw [hcount] at hline
  simp only [List.mem_cons, List.not_mem_nil, or_false] at hline
  rcases hline with rfl | rfl | rfl | rfl | rfl | rfl | rfl | rfl <;>
    simp [commitmentLines, publishedRun]

/-- The row of a transaction is the one of its exclusion. -/
theorem get?_byTxid (hnodup : (result.exclusions.map Exclusion.txid).Nodup) {txid : String}
    {row : ExclusionRow} :
    (byTxid (publishedExclusions result)).get? txid = some row ↔
      ∃ x ∈ result.exclusions, x.txid = txid ∧ x.row = row := by
  have hrows : ((publishedExclusions result).map ExclusionRow.txid).Nodup := by
    have hperm : (publishedExclusions result).Perm (result.exclusions.map Exclusion.row) :=
      List.perm_insertionSort _ _
    refine (hperm.map ExclusionRow.txid).nodup_iff.mpr ?_
    rw [List.map_map]
    exact hnodup
  rw [byTxid, OrderedDict.get?_foldl_store hrows]
  constructor
  · rintro ⟨row, hrow, rfl, rfl⟩
    obtain ⟨x, hx, rfl⟩ := mem_publishedExclusions.mp hrow
    exact ⟨x, hx, rfl, rfl⟩
  · rintro ⟨x, hx, rfl, rfl⟩
    exact ⟨x.row, mem_publishedExclusions.mpr ⟨x, hx, rfl⟩, rfl, rfl⟩

end Published

/-! ## Two directories -/

/-- Two final runs that differ in the legal lists only, the second's being longer. -/
structure RunArgs.Rerun (args₁ args₂ : RunArgs) : Prop where
  mint : args₂.mint = args₁.mint
  windowOpenSlot : args₂.windowOpenSlot = args₁.windowOpenSlot
  cutoffSlot : args₂.cutoffSlot = args₁.cutoffSlot
  freezeSlot : args₂.freezeSlot = args₁.freezeSlot
  final₁ : args₁.provisional = false
  final₂ : args₂.provisional = false
  projectSha : args₂.projectSha = args₁.projectSha
  destinationsSha : args₂.destinationsSha = args₁.destinationsSha
  lists : args₁.lists.Grows args₂.lists

/-- The run of `main` on its arguments. -/
def RunArgs.snapshot (py : StrMethods) (rpc : RpcClient) (args : RunArgs) (fuel : Nat) :
    Except SystemExit SnapshotResult :=
  runSnapshot py rpc args.mint args.windowOpenSlot args.cutoffSlot args.lists fuel

/-- No address is left out for the cap. -/
def RunArgs.UnderCap (py : StrMethods) (rpc : RpcClient) (args : RunArgs) (fuel : Nat) : Prop :=
  ∀ result, args.snapshot py rpc fuel = .ok result →
    result.allocations.items.length ≤ MAX_ALLOCATION_OUTPUTS

section Accepted

variable {py : StrMethods} {lib : PyLib} {hash : Bytes → Uint256} {rpc₁ rpc₂ : RpcClient}
  {args₁ args₂ : RunArgs} {fuel₁ fuel₂ : Nat} {history : List SignatureEntry}
  {judged₁ judged₂ : List (SignatureEntry × Verdict)} {result₁ result₂ : SnapshotResult}
  {dir₁ dir₂ : Artifacts}

/-- The verdicts of a re-run differ by longer lists alone. -/
theorem RunArgs.Rerun.verdicts (h : args₁.Rerun args₂)
    (hist₁ : ServedHistory rpc₁ args₁.mint history) (hist₂ : ServedHistory rpc₂ args₁.mint history)
    (htx : rpc₂.getTransaction = rpc₁.getTransaction)
    (henum₁ : enumerateSignatures rpc₁ args₁.mint args₁.windowOpenSlot args₁.cutoffSlot fuel₁ =
      .ok (judged₁.map Prod.fst))
    (henum₂ : enumerateSignatures rpc₂ args₁.mint args₁.windowOpenSlot args₁.cutoffSlot fuel₂ =
      .ok (judged₂.map Prod.fst))
    (hstages₁ : Stages py rpc₁ args₁.mint args₁.lists judged₁ result₁)
    (hstages₂ : Stages py rpc₂ args₁.mint args₂.lists judged₂ result₂) :
    Snapshot.Rerun judged₁ judged₂ := by
  obtain ⟨hnodup₁, hwindow₁⟩ := hist₁.judged henum₁
  obtain ⟨hnodup₂, hwindow₂⟩ := hist₂.judged henum₂
  refine ⟨hnodup₁, hnodup₂, ?_, ?_⟩
  · intro e v₁ hv₁
    obtain ⟨v₂, hv₂⟩ := (hwindow₂ e).mpr ((hwindow₁ e).mp ⟨v₁, hv₁⟩)
    exact ⟨v₂, hv₂, verdictOf_grows h.lists htx (hstages₁.verdicts _ hv₁)
      (hstages₂.verdicts _ hv₂)⟩
  · intro e v₂ hv₂
    obtain ⟨v₁, hv₁⟩ := (hwindow₁ e).mpr ((hwindow₂ e).mp ⟨v₂, hv₂⟩)
    exact ⟨v₁, hv₁, verdictOf_grows h.lists htx (hstages₁.verdicts _ hv₁)
      (hstages₂.verdicts _ hv₂)⟩

/-- The lines that must not move, in the order of `FIXED_LINES`. -/
def RunArgs.fixedLines (args : RunArgs) : List (String × String) :=
  [("window_open_slot", toString args.windowOpenSlot),
    ("cutoff_slot", toString args.cutoffSlot),
    ("freeze_slot", freezeLine args.freezeSlot),
    ("tool_version", TOOL_VERSION),
    ("mint", args.mint),
    ("allocation_cap", toString MAX_ALLOCATION_OUTPUTS),
    ("project_file_sha256", args.projectSha),
    ("project_destinations_sha256", args.destinationsSha)]

theorem RunArgs.Rerun.fixedLines_eq (h : args₁.Rerun args₂) :
    args₂.fixedLines = args₁.fixedLines := by
  simp only [RunArgs.fixedLines, h.windowOpenSlot, h.cutoffSlot, h.freezeSlot, h.mint,
    h.projectSha, h.destinationsSha]

theorem RunArgs.fixedLines_published (args : RunArgs) {outputs : List (Int × Bytes)} {total : Int}
    {printed outHex : List Char} {line : String × String} (h : line ∈ args.fixedLines) :
    (publishedRun lib args result₁ outputs total printed outHex).commitment.get? line.1 =
      some line.2 := by
  apply publishedRun_line
  simp only [RunArgs.fixedLines, List.mem_cons, List.not_mem_nil, or_false] at h
  rcases h with rfl | rfl | rfl | rfl | rfl | rfl | rfl | rfl <;> simp [commitmentLines]

theorem fixedLine_eq_nil {prev new : OrderedDict String String} {line : String × String}
    (hprev : prev.get? line.1 = some line.2) (hnew : new.get? line.1 = some line.2) :
    fixedLine prev new line.1 = [] := by
  simp [fixedLine, hprev, hnew]

theorem finalRun_published {args : RunArgs} (hfinal : args.provisional = false) (label : String)
    {outputs : List (Int × Bytes)} {total : Int} {printed outHex : List Char} :
    finalRun label (publishedRun lib args result₁ outputs total printed outHex).commitment =
      [] := by
  have hline : (publishedRun lib args result₁ outputs total printed outHex).commitment.get?
      "provisional" = some "no" := by
    apply publishedRun_line
    simp [commitmentLines, hfinal]
  rw [finalRun, hline]
  exact if_neg (not_not.mpr rfl)

/-- The check finds nothing in the exclusions of a re-run. -/
theorem Rerun.exclusions_accepted {mint : String} {lists₁ lists₂ : Lists}
    (h : Rerun judged₁ judged₂) (hstages₁ : Stages py rpc₁ mint lists₁ judged₁ result₁)
    (hstages₂ : Stages py rpc₂ mint lists₂ judged₂ result₂) :
    (∀ p ∈ (byTxid (publishedExclusions result₁)).items,
      comparePrevExclusion (byTxid (publishedExclusions result₂)) p = []) ∧
    ∀ p ∈ (byTxid (publishedExclusions result₂)).items,
      compareNewExclusion (byTxid (publishedExclusions result₁)) p = [] := by
  have hnodup₁ := hstages₁.exclusions_nodup h.nodup₁
  have hnodup₂ := hstages₂.exclusions_nodup h.nodup₂
  constructor
  · intro p hp
    obtain ⟨x, hx, htxid, hrow⟩ := (get?_byTxid hnodup₁).mp (OrderedDict.get?_eq_some.mpr hp)
    rcases h.row_kept hstages₁ hstages₂ ⟨x, hx, htxid, rfl⟩ with ⟨y, hy, hytxid, hreason⟩ |
      ⟨y, hy, hytxid, hreason⟩
    · have hget := (get?_byTxid hnodup₂).mpr ⟨y, hy, hytxid, rfl⟩
      rw [comparePrevExclusion, hget]
      refine if_neg ?_
      rintro ⟨hne, -⟩
      exact hne (by rw [← hrow]; exact congrArg Reason.code hreason)
    · have hget := (get?_byTxid hnodup₂).mpr ⟨y, hy, hytxid, rfl⟩
      rw [comparePrevExclusion, hget]
      refine if_neg ?_
      rintro ⟨-, hne⟩
      exact hne (code_eq_withheld.mpr hreason)
  · intro p hp
    obtain ⟨x, hx, htxid, hrow⟩ := (get?_byTxid hnodup₂).mp (OrderedDict.get?_eq_some.mpr hp)
    rw [compareNewExclusion]
    refine if_neg ?_
    rintro ⟨hnone, hne⟩
    rcases h.row_new hstages₁ hstages₂ ⟨x, hx, htxid, rfl⟩ with hreason | ⟨y, hy, hytxid, -⟩
    · exact hne (by rw [← hrow]; exact code_eq_withheld.mpr hreason)
    · rw [(get?_byTxid hnodup₁).mpr ⟨y, hy, hytxid, rfl⟩] at hnone
      cases hnone

/-- Written artifacts come from a snapshot. -/
theorem exists_snapshot (h : writeArtifacts py lib hash rpc₁ args₁ fuel₁ = .ok dir₁) :
    ∃ result, args₁.snapshot py rpc₁ fuel₁ = .ok result := by
  cases hrun : args₁.snapshot py rpc₁ fuel₁ with
  | ok result => exact ⟨result, rfl⟩
  | error e =>
    rw [RunArgs.snapshot] at hrun
    rw [writeArtifacts, hrun] at h
    cases h

/-- **A re-run with longer legal lists is accepted.** -/
theorem compare_rerun (h : args₁.Rerun args₂) (hist₁ : ServedHistory rpc₁ args₁.mint history)
    (hist₂ : ServedHistory rpc₂ args₁.mint history)
    (htx : rpc₂.getTransaction = rpc₁.getTransaction)
    (hcap₁ : args₁.UnderCap py rpc₁ fuel₁) (hcap₂ : args₂.UnderCap py rpc₂ fuel₂)
    (hwrite₁ : writeArtifacts py lib hash rpc₁ args₁ fuel₁ = .ok dir₁)
    (hwrite₂ : writeArtifacts py lib hash rpc₂ args₂ fuel₂ = .ok dir₂) :
    compare py lib hash dir₁ dir₂ = some [] := by
  obtain ⟨result₁, hrun₁⟩ := exists_snapshot hwrite₁
  obtain ⟨result₂, hrun₂⟩ := exists_snapshot hwrite₂
  obtain ⟨outputs₁, total₁, printed₁, outHex₁, hbuild₁, hprinted₁, hhex₁, hread₁⟩ :=
    writeArtifacts_eq_ok hrun₁ (hcap₁ _ hrun₁) hwrite₁
  obtain ⟨outputs₂, total₂, printed₂, outHex₂, hbuild₂, hprinted₂, hhex₂, hread₂⟩ :=
    writeArtifacts_eq_ok hrun₂ (hcap₂ _ hrun₂) hwrite₂
  obtain ⟨judged₁, henum₁, hstages₁⟩ := runSnapshot_eq_ok hrun₁
  obtain ⟨judged₂, henum₂, hstages₂⟩ := runSnapshot_eq_ok hrun₂
  rw [h.mint] at hstages₂
  rw [h.mint, h.windowOpenSlot, h.cutoffSlot] at henum₂
  have hrerun := h.verdicts hist₁ hist₂ htx henum₁ henum₂ hstages₁ hstages₂
  have hwithheld : ∀ t, HasRow result₂.exclusions t .withheld →
      t ∈ withheldTxids (publishedExclusions result₂) := fun t => mem_withheldTxids
  obtain ⟨hprevExcl, hnewExcl⟩ := hrerun.exclusions_accepted hstages₁ hstages₂
  rw [compare, hread₁, hread₂]
  refine compareRuns_eq_nil.mpr
    { selfPrev := selfCheck_published _ hbuild₁ hprinted₁ hhex₁ (runSnapshot_screened hrun₁)
      selfNew := selfCheck_published _ hbuild₂ hprinted₂ hhex₂ (runSnapshot_screened hrun₂)
      fixed := ?_
      final := ⟨finalRun_published h.final₁ _, finalRun_published h.final₂ _⟩
      entries := ?_
      removed := ?_
      prevExclusions := hprevExcl
      newExclusions := hnewExcl }
  · intro key hkey
    obtain ⟨line, hline, rfl⟩ : ∃ line ∈ args₁.fixedLines, line.1 = key := List.mem_map.mp hkey
    exact fixedLine_eq_nil (args₁.fixedLines_published hline)
      (args₂.fixedLines_published (h.fixedLines_eq ▸ hline))
  · intro p hp
    have hentry := OrderedDict.get?_eq_some.mpr (mem_sortedByKey.mp hp)
    refine compareEntry_eq_nil.mpr ?_
    obtain ⟨old, hold, hcase⟩ := hrerun.entry_kept hstages₁ hstages₂ hwithheld hentry
    exact ⟨old, (get?_sortedByKey _ _).trans hold, hcase⟩
  · intro p hp
    have hold := OrderedDict.get?_eq_some.mpr (mem_sortedByKey.mp hp)
    refine compareRemoved_eq_nil.mpr ?_
    intro hnone t ht
    rw [← get?_sortedByKey] at hold
    exact hwithheld t (hrerun.removed_withheld hstages₁ hstages₂
      ((get?_sortedByKey _ _).symm.trans hold) ((get?_sortedByKey _ _).symm.trans hnone) ht)

end Accepted

/-- **The re-run check is complete and sound.**  Two final runs over one history
    and window that differ in the legal lists only, the second's being longer, pass
    it where neither leaves an address out for the cap; and two directories that
    pass it hold runs of which the second only withholds. -/
theorem rerun_check_complete_sound (py : StrMethods) (lib : PyLib) (hash : Bytes → Uint256) :
    (∀ (rpc₁ rpc₂ : RpcClient) (history : List SignatureEntry) (args₁ args₂ : RunArgs)
        (fuel₁ fuel₂ : Nat) (dir₁ dir₂ : Artifacts),
      ServedHistory rpc₁ args₁.mint history → ServedHistory rpc₂ args₁.mint history →
      rpc₂.getTransaction = rpc₁.getTransaction → args₁.Rerun args₂ →
      args₁.UnderCap py rpc₁ fuel₁ → args₂.UnderCap py rpc₂ fuel₂ →
      writeArtifacts py lib hash rpc₁ args₁ fuel₁ = .ok dir₁ →
      writeArtifacts py lib hash rpc₂ args₂ fuel₂ = .ok dir₂ →
      compare py lib hash dir₁ dir₂ = some []) ∧
    ∀ dir₁ dir₂ : Artifacts, compare py lib hash dir₁ dir₂ = some [] →
      ∃ prev new, readRun lib dir₁ = some prev ∧ readRun lib dir₂ = some new ∧
        (∀ address entry, new.allocations.get? address = some entry →
          ∃ old, prev.allocations.get? address = some old ∧ entry.sats ≤ old.sats) ∧
        (∀ address old, prev.allocations.get? address = some old → ∀ t ∈ old.txids,
          (∀ entry, new.allocations.get? address = some entry → t ∉ entry.txids) →
          ∃ row ∈ new.exclusions, row.txid = t ∧ row.reason = WITHHELD) ∧
        ∃ prevTotal newTotal, OwnLines py hash prev prevTotal ∧ OwnLines py hash new newTotal ∧
          newTotal ≤ prevTotal := by
  constructor
  · intro rpc₁ rpc₂ history args₁ args₂ fuel₁ fuel₂ dir₁ dir₂ hist₁ hist₂ htx hrerun hcap₁ hcap₂
      hwrite₁ hwrite₂
    exact compare_rerun hrerun hist₁ hist₂ htx hcap₁ hcap₂ hwrite₁ hwrite₂
  · intro dir₁ dir₂ h
    obtain ⟨prev, hprev, h⟩ := Option.bind_eq_some_iff.mp h
    obtain ⟨new, hnew, h⟩ := Option.bind_eq_some_iff.mp h
    exact ⟨prev, new, hprev, hnew, compareRuns_sound h⟩

/-! ## A sample -/

namespace Corpus

theorem exists_text_injective {α β : Type} [Countable β] (f : α → β) (hf : Function.Injective f) :
    ∃ g : α → String, Function.Injective g := by
  obtain ⟨index, hindex⟩ := exists_injective_nat β
  refine ⟨fun a => String.ofList (List.replicate (index (f a)) 'x'), ?_⟩
  intro a b hab
  have hlen := congrArg List.length (String.ofList_injective hab)
  rw [List.length_replicate, List.length_replicate] at hlen
  exact hf (hindex hlen)

instance countableString : Countable String := by
  have hchar : Countable Char := by
    refine Function.Injective.countable (f := Char.toNat) ?_
    intro a b hab
    exact Char.toNat_inj.mp hab
  exact Function.Injective.countable (f := String.toList) fun a b hab => String.toList_inj.mp hab

theorem exists_allocations_injective :
    ∃ g : OrderedDict String Allocation → String, Function.Injective g := by
  refine exists_text_injective (fun d => d.items.map fun p => (p.1, p.2.sats, p.2.txids)) ?_
  rintro ⟨l, hl⟩ ⟨l', hl'⟩ h
  have hinj : Function.Injective fun p : String × Allocation => (p.1, p.2.sats, p.2.txids) := by
    rintro ⟨a, s, t⟩ ⟨a', s', t'⟩ h
    obtain ⟨rfl, h⟩ := Prod.mk.inj h
    obtain ⟨rfl, rfl⟩ := Prod.mk.inj h
    rfl
  obtain rfl := List.map_injective_iff.mpr hinj h
  rfl

theorem exists_exclusions_injective :
    ∃ g : List ExclusionRow → String, Function.Injective g := by
  refine exists_text_injective
    (List.map fun e : ExclusionRow => (e.txid, e.reason, e.slot, e.address, e.sats))
    (List.map_injective_iff.mpr ?_)
  rintro ⟨t, r, s, a, n⟩ ⟨t', r', s', a', n'⟩ h
  obtain ⟨rfl, h⟩ := Prod.mk.inj h
  obtain ⟨rfl, h⟩ := Prod.mk.inj h
  obtain ⟨rfl, h⟩ := Prod.mk.inj h
  obtain ⟨rfl, rfl⟩ := Prod.mk.inj h
  rfl

/-- `json` as some printing of the two files that can be read back. -/
noncomputable def lib : PyLib where
  dumpsAllocations := exists_allocations_injective.choose
  loadsAllocations := Function.partialInv exists_allocations_injective.choose
  dumpsExclusions := exists_exclusions_injective.choose
  loadsExclusions := Function.partialInv exists_exclusions_injective.choose
  sha256 := id
  loads_dumps_allocations := Function.partialInv_left exists_allocations_injective.choose_spec
  loads_dumps_exclusions := Function.partialInv_left exists_exclusions_injective.choose_spec

/-- The arguments of a final run. -/
def finalArgs (lists : Lists) : RunArgs :=
  ⟨"pSOQ", 10, 20, some 20, false, lists, "", "", "", "", ""⟩

/-- The second signer of the transaction at slot 10 is listed later. -/
def longerLists : Lists := ⟨["sanctioned", "other"], [], [], [], []⟩

/-- A run whose outputs can be built writes its directory. -/
theorem exists_artifacts {args : RunArgs} {result : SnapshotResult}
    {outputs : List (Int × Bytes)} {total : Int} {printed outHex : List Char}
    (hrun : args.snapshot .ascii rpc 5 = .ok result)
    (hcap : result.allocations.items.length ≤ MAX_ALLOCATION_OUTPUTS)
    (hbuild : buildOutputs .ascii result.allocations = .ok (outputs, total))
    (hprinted : hashMigrationOutputs (fun _ => Uint256.fill 7) outputs = .ok printed)
    (hhex : outputsHex outputs = .ok outHex) :
    ∃ dir, writeArtifacts .ascii lib (fun _ => Uint256.fill 7) rpc args 5 = .ok dir := by
  have hcapped : applyAllocationCap result.allocations none = (result.allocations, []) :=
    if_pos hcap
  rw [RunArgs.snapshot] at hrun
  simp only [writeArtifacts, hrun, Except.mapError, bind, Except.bind, hcapped, hbuild, hprinted,
    hhex]
  exact ⟨_, rfl⟩

end Corpus

open Corpus in
/-- Listing one signer later withholds a burn before all others that count for the
    address, which taints it: both its burns are withheld. -/
theorem rerun_check_complete_sound_tainted :
    ∃ dir₁ dir₂,
      writeArtifacts .ascii Corpus.lib (fun _ => Uint256.fill 7) Corpus.rpc
        (finalArgs Corpus.lists) 5 = .ok dir₁ ∧
      writeArtifacts .ascii Corpus.lib (fun _ => Uint256.fill 7) Corpus.rpc
        (finalArgs longerLists) 5 = .ok dir₂ ∧
      compare .ascii Corpus.lib (fun _ => Uint256.fill 7) dir₁ dir₂ = some [] ∧
      ∃ prev new, readRun Corpus.lib dir₁ = some prev ∧ readRun Corpus.lib dir₂ = some new ∧
        ∃ prevTotal newTotal, OwnLines .ascii (fun _ => Uint256.fill 7) prev prevTotal ∧
          OwnLines .ascii (fun _ => Uint256.fill 7) new newTotal ∧ newTotal ≤ prevTotal := by
  have hsome₂ : ((finalArgs longerLists).snapshot .ascii Corpus.rpc 5).toOption.map
      (fun r => r.allocations) = some ⟨[], by decide⟩ := by
    decide +kernel
  obtain ⟨result₁, hlists, halloc₁, -⟩ := runSnapshot_lists
  have hrun₁ : (finalArgs Corpus.lists).snapshot .ascii Corpus.rpc 5 = .ok result₁ := by
    rw [RunArgs.snapshot]
    exact hlists
  obtain ⟨result₂, hrun₂, halloc₂⟩ := Option.map_eq_some_iff.mp hsome₂
  rw [toOption_eq_some] at hrun₂
  have hcap₁ : result₁.allocations.items.length ≤ MAX_ALLOCATION_OUTPUTS := by
    rw [halloc₁]
    decide
  have hcap₂ : result₂.allocations.items.length ≤ MAX_ALLOCATION_OUTPUTS := by
    rw [halloc₂]
    decide
  have hbuild₁ : buildOutputs .ascii result₁.allocations =
      .ok ([(350000100, v1Script (List.replicate 32 0))], 350000100) := by
    rw [halloc₁]
    decide +kernel
  have hbuild₂ : buildOutputs .ascii result₂.allocations = .ok ([], 0) := by
    rw [halloc₂]
    decide +kernel
  obtain ⟨dir₁, hwrite₁⟩ := exists_artifacts hrun₁ hcap₁ hbuild₁ rfl rfl
  obtain ⟨dir₂, hwrite₂⟩ := exists_artifacts hrun₂ hcap₂ hbuild₂ rfl rfl
  have hrerun : (finalArgs Corpus.lists).Rerun (finalArgs longerLists) :=
    ⟨rfl, rfl, rfl, rfl, rfl, rfl, rfl, rfl, ⟨rfl, rfl, by decide, by decide, by decide⟩⟩
  have hunder : ∀ {args : RunArgs} {result : SnapshotResult},
      args.snapshot .ascii Corpus.rpc 5 = .ok result →
      result.allocations.items.length ≤ MAX_ALLOCATION_OUTPUTS →
      args.UnderCap .ascii Corpus.rpc 5 := by
    intro args result hrun hle r hr
    rwa [← Except.ok.inj (hrun.symm.trans hr)]
  have hcheck := rerun_check_complete_sound .ascii Corpus.lib fun _ => Uint256.fill 7
  have haccepted := hcheck.1 Corpus.rpc Corpus.rpc history _ _ 5 5 dir₁ dir₂
    mintHistory.toServedHistory mintHistory.toServedHistory rfl hrerun (hunder hrun₁ hcap₁)
    (hunder hrun₂ hcap₂) hwrite₁ hwrite₂
  obtain ⟨prev, new, hprev, hnew, -, -, htotals⟩ := hcheck.2 dir₁ dir₂ haccepted
  exact ⟨dir₁, dir₂, hwrite₁, hwrite₂, haccepted, prev, new, hprev, hnew, htotals⟩

end Soqucoin.Snapshot
