import Soqucoin.ByteOrderProofs
import Soqucoin.MigrationProofs
import Soqucoin.SnapshotCommitment

/-! # SnapshotCommitmentProofs — the committed list can be mined

The tool and the node serialize, hash and measure the committed outputs on their own.  They hash
the same bytes (`serTxoutVector_eq`), the printed hash is read back (`uint256S_hex`), and the
coinbase that pays the list passes (`commitment_mineable`). -/

namespace Soqucoin

open CheckedLoop SignedWord

/-! ## The printed hash -/

theorem hexDigit_digitChar : ∀ {n : Nat}, n < 16 → hexDigit (Nat.digitChar n) = some n := by
  intro n h
  interval_cases n <;> rfl

theorem hexDigit_of_mem_hex {bs : Bytes} {c : Char} (h : c ∈ hex bs) :
    (hexDigit c).isSome := by
  obtain ⟨b, -, hc⟩ := List.mem_flatMap.mp h
  have hb : b.toNat < 256 := b.toNat_lt
  rcases List.mem_cons.mp hc with rfl | hc
  · rw [hexDigit_digitChar (by omega)]
    rfl
  · obtain rfl := List.mem_singleton.mp hc
    rw [hexDigit_digitChar (by omega)]
    rfl

/-- A hex digit is no blank and no mark. -/
theorem not_space_of_hexDigit {c : Char} (h : (hexDigit c).isSome) :
    isCSpace c = false ∧ c ≠ 'x' ∧ c ≠ 'X' := by
  refine ⟨?_, ?_, ?_⟩
  · have hge : ∀ a : Char, a ≤ c → a.toNat ≤ c.toNat := fun a ha => ha
    have hc : 48 ≤ c.toNat := by
      unfold hexDigit at h
      split_ifs at h with h₀ ha hA
      · exact hge '0' h₀.1
      · exact (by decide : 48 ≤ 'a'.toNat).trans (hge 'a' ha.1)
      · exact (by decide : 48 ≤ 'A'.toNat).trans (hge 'A' hA.1)
      · exact absurd h (by decide)
    rw [isCSpace, Bool.or_eq_false_iff]
    constructor
    · refine decide_eq_false ?_
      rintro rfl
      exact absurd hc (by decide)
    · rw [Bool.and_eq_false_iff]
      exact .inr (decide_eq_false (by omega))
  · rintro rfl
    exact absurd h (by decide)
  · rintro rfl
    exact absurd h (by decide)

theorem skipHexMark_of_digits {cs : List Char} (h : ∀ c ∈ cs, (hexDigit c).isSome) :
    skipHexMark cs = cs := by
  unfold skipHexMark
  split
  · next x rest =>
      have hx := not_space_of_hexDigit (h x (by simp))
      rw [if_neg (not_or.mpr hx.2)]
  · rfl

/-- The digits of a byte, high one first. -/
theorem filterMap_hex (bs : Bytes) :
    (hex bs).filterMap hexDigit = bs.flatMap fun b => [b.toNat / 16, b.toNat % 16] := by
  induction bs with
  | nil => rfl
  | cons b bs ih =>
    have hb : b.toNat < 256 := b.toNat_lt
    rw [hex, List.flatMap_cons, List.filterMap_append, ← hex, ih, List.flatMap_cons]
    congr 1
    rw [hexByte, List.filterMap_cons_some (hexDigit_digitChar (by omega)),
      List.filterMap_cons_some (hexDigit_digitChar (by omega)), List.filterMap_nil]

/-- Pairs of digits are bytes again. -/
theorem pairDigits_flatMap (bs : Bytes) :
    pairDigits (bs.flatMap fun b => [b.toNat % 16, b.toNat / 16]) = bs := by
  induction bs with
  | nil => rfl
  | cons b bs ih =>
    rw [List.flatMap_cons]
    show UInt8.ofNat (16 * (b.toNat / 16) + b.toNat % 16) ::
      pairDigits (bs.flatMap fun b => [b.toNat % 16, b.toNat / 16]) = b :: bs
    rw [ih, Nat.div_add_mod, UInt8.ofNat_toNat]

/-- The printed hash is read back by the node. -/
theorem uint256S_hex (h : Uint256) : uint256S (hex h.bytes.reverse) = h := by
  have hdigits : ∀ c ∈ hex h.bytes.reverse, (hexDigit c).isSome :=
    fun c hc => hexDigit_of_mem_hex hc
  have hspaces : (hex h.bytes.reverse).dropWhile isCSpace = hex h.bytes.reverse := by
    rw [List.dropWhile_eq_self_iff]
    intro hpos
    rw [(not_space_of_hexDigit (hdigits _ (List.getElem_mem hpos))).1]
    exact Bool.false_ne_true
  rw [uint256S, hspaces, skipHexMark_of_digits hdigits,
    List.takeWhile_eq_self_iff.mpr hdigits, filterMap_hex,
    List.reverse_flatMap, List.reverse_reverse]
  have hpairs : h.bytes.flatMap (List.reverse ∘ fun b => [b.toNat / 16, b.toNat % 16]) =
      h.bytes.flatMap fun b => [b.toNat % 16, b.toNat / 16] := rfl
  rw [hpairs, pairDigits_flatMap]
  exact Uint256.ofSlice_append [] h (List.replicate 32 0)

/-- No height of a network pays more than the room the tool leaves. -/
theorem ChainName.subsidy_le {network : ChainName} {consensus : Consensus}
    (h : network.Pays consensus) (env : Env) (nHeight : Int) (prevHash : Uint256) :
    0 ≤ getBlockSubsidy env nHeight consensus prevHash ∧
      getBlockSubsidy env nHeight consensus prevHash ≤ Snapshot.MAX_BLOCK_SUBSIDY := by
  obtain ⟨hsimple, -, hinitial⟩ := h
  have hrange : 0 ≤ consensus.nInitialSubsidy ∧ consensus.nInitialSubsidy ≤ 500000 := by
    rw [hinitial]
    cases network <;> decide
  have hcoin : COIN = 100000000 := rfl
  have hmax : Snapshot.MAX_BLOCK_SUBSIDY = 500000 * 100000000 := rfl
  rw [getBlockSubsidy, hsimple, if_neg (by decide), hcoin, hmax]
  split
  · have hfull : 0 ≤ consensus.nInitialSubsidy * 100000000 := by omega
    have hpow : (0 : Int) ≤ 2 ^ (nHeight / consensus.nSubsidyHalvingInterval).toNat := by positivity
    refine ⟨Int.ediv_nonneg hfull hpow, (Int.ediv_le_self _ hfull).trans ?_⟩
    omega
  · omega

end Soqucoin

namespace Soqucoin.Snapshot

open CheckedLoop

/-! ## The same bytes -/

theorem compactSize_eq (n : Nat) : compactSize n = writeCompactSize n := rfl

theorem length_compactSize (n : Nat) : (compactSize n).length = getSizeOfCompactSize n := by
  rw [compactSize, getSizeOfCompactSize]
  split_ifs <;> simp

theorem serTxout_eq {value : Int} {script : Bytes} (h₀ : 0 ≤ value) (h : value < 2 ^ 63) :
    serTxout value script = .ok (serializeTxOut ⟨value, script⟩) := by
  have hpack : packInt64 value = .ok (serializeAmount value) := if_pos ⟨by omega, h⟩
  rw [serTxout, hpack]
  show Except.ok (serializeAmount value ++ compactSize script.length ++ script) = _
  rw [compactSize_eq, List.append_assoc]
  rfl

/-- The tool serializes outputs as the node does. -/
theorem serTxoutVector_eq {outputs : List (Int × Bytes)}
    (h : ∀ output ∈ outputs, 0 ≤ output.1 ∧ output.1 < 2 ^ 63) :
    serTxoutVector outputs = .ok (serializeVector serializeTxOut (committedOutputs outputs)) := by
  have hloop : ∀ (l : List (Int × Bytes)) (r : Bytes),
      (∀ output ∈ l, 0 ≤ output.1 ∧ output.1 < 2 ^ 63) →
      l.foldlM (fun r output => do return r ++ (← serTxout output.1 output.2)) r =
        (Except.ok (r ++ (committedOutputs l).flatMap serializeTxOut) :
          Except BuildError Bytes) := by
    intro l
    induction l with
    | nil =>
      intro r _
      rw [committedOutputs, List.map_nil, List.flatMap_nil, List.append_nil]
      rfl
    | cons output l ih =>
      intro r hl
      rw [List.forall_mem_cons] at hl
      rw [List.foldlM_cons, serTxout_eq hl.1.1 hl.1.2]
      show List.foldlM _ (r ++ serializeTxOut ⟨output.1, output.2⟩) l = _
      rw [ih _ hl.2, List.append_assoc]
      rfl
  rw [serTxoutVector, hloop outputs _ h, compactSize_eq, serializeVector, committedOutputs,
    List.length_map]

theorem hashMigrationOutputs_eq (hash : Bytes → Uint256) {outputs : List (Int × Bytes)}
    (h : ∀ output ∈ outputs, 0 ≤ output.1 ∧ output.1 < 2 ^ 63) :
    hashMigrationOutputs hash outputs = .ok
      (hex (hash (serializeVector serializeTxOut (committedOutputs outputs))).bytes.reverse) := by
  rw [hashMigrationOutputs, serTxoutVector_eq h]
  rfl

/-! ## What `build_outputs` accepts -/

/-- A decoded program has 32 bytes. -/
theorem length_of_decodeV1Address {py : StrMethods} {hrp addr : String} {program : List Nat}
    (h : decodeV1Address py hrp addr = some program) : program.length = 32 := by
  unfold decodeV1Address at h
  split at h
  · cases h
  split_ifs at h
  split at h
  · cases h
  split_ifs at h
  split at h
  · cases h
  split_ifs at h with hlen
  obtain rfl := Option.some.inj h
  exact not_not.mp hlen

/-- An output of the committed list: the entry of an address, at its program, and
    worth the floor. -/
structure OutputOf (py : StrMethods) (allocations : OrderedDict String Allocation)
    (address : String) (output : Int × Bytes) : Prop where
  entry : ∃ entry, allocations.get? address = some entry ∧ output.1 = entry.sats
  script : ∃ program, decodeV1Address py ADDRESS_HRP address = some program ∧
    output.2 = v1Script (program.map UInt8.ofNat)
  not_shaped : isBlockCommitmentShape output.2 = false
  floor : utxoCostFloor output.2 ≤ output.1

/-- One output of the list. -/
theorem buildOutput_eq_ok {py : StrMethods} {allocations : OrderedDict String Allocation}
    {outputs outputs' : List (Int × Bytes)} {address : String} :
    buildOutput py allocations outputs address = .ok outputs' ↔
      ∃ output, OutputOf py allocations address output ∧ outputs' = outputs ++ [output] := by
  unfold buildOutput
  constructor
  · intro h
    split at h
    · next entry program hentry hprogram =>
        dsimp only at h
        split_ifs at h with hshape hfloor
        refine ⟨(entry.sats, v1Script (program.map UInt8.ofNat)), ?_, (Except.ok.inj h).symm⟩
        exact ⟨⟨entry, hentry, rfl⟩, ⟨program, hprogram, rfl⟩, Bool.eq_false_iff.mpr hshape,
          not_lt.mp hfloor⟩
    · cases h
  · rintro ⟨output, ⟨⟨entry, hentry, hsats⟩, ⟨program, hprogram, hscript⟩, hshape, hfloor⟩, rfl⟩
    rw [hscript] at hshape hfloor
    rw [hsats] at hfloor
    rw [hentry, hprogram]
    dsimp only
    rw [if_neg (Bool.eq_false_iff.mp hshape), if_neg (not_lt.mpr hfloor), ← hsats, ← hscript]

/-- All outputs of the list. -/
theorem foldlM_buildOutput_eq_ok {py : StrMethods} {allocations : OrderedDict String Allocation} :
    ∀ {addresses : List String} {outputs outputs' : List (Int × Bytes)},
      addresses.foldlM (buildOutput py allocations) outputs = .ok outputs' ↔
        ∃ new, List.Forall₂ (OutputOf py allocations) addresses new ∧
          outputs' = outputs ++ new := by
  intro addresses
  induction addresses with
  | nil =>
    intro outputs outputs'
    rw [foldlM_nil_eq_ok]
    constructor
    · rintro rfl
      exact ⟨[], .nil, (List.append_nil _).symm⟩
    · rintro ⟨new, hnew, rfl⟩
      cases hnew
      rw [List.append_nil]
  | cons address addresses ih =>
    intro outputs outputs'
    rw [foldlM_cons_eq_ok]
    constructor
    · rintro ⟨mid, hmid, hrest⟩
      obtain ⟨output, hoff, rfl⟩ := buildOutput_eq_ok.mp hmid
      obtain ⟨new, hnew, rfl⟩ := ih.mp hrest
      exact ⟨output :: new, .cons hoff hnew, by rw [List.append_assoc, List.singleton_append]⟩
    · rintro ⟨new, hnew, rfl⟩
      cases hnew with
      | cons hoff hnew =>
        refine ⟨_, buildOutput_eq_ok.mpr ⟨_, hoff, rfl⟩, ih.mpr ⟨_, hnew, ?_⟩⟩
        rw [List.append_assoc, List.singleton_append]

/-- An accepted list: an output for each address, in the order of addresses. -/
structure Built (py : StrMethods) (allocations : OrderedDict String Allocation)
    (outputs : List (Int × Bytes)) (total : Int) : Prop where
  count : allocations.items.length ≤ MAX_ALLOCATION_OUTPUTS
  each : List.Forall₂ (OutputOf py allocations) (allocations.keys.insertionSort (· ≤ ·)) outputs
  total_eq : total = (outputs.map Prod.fst).sum
  total_le : total ≤ MAX_MONEY - MAX_BLOCK_SUBSIDY

/-- What `build_outputs` has tested. -/
theorem built_of_buildOutputs {py : StrMethods} {allocations : OrderedDict String Allocation}
    {outputs : List (Int × Bytes)} {total : Int}
    (h : buildOutputs py allocations = .ok (outputs, total)) :
    Built py allocations outputs total := by
  unfold buildOutputs at h
  split_ifs at h with hcount
  obtain ⟨outs, hloop, h⟩ := bind_eq_ok.mp h
  obtain ⟨new, hnew, rfl⟩ := foldlM_buildOutput_eq_ok.mp hloop
  dsimp only at h
  split_ifs at h with htotal
  obtain ⟨data, -, h⟩ := bind_eq_ok.mp h
  split_ifs at h with hsize
  obtain ⟨rfl, rfl⟩ := Prod.mk.inj (Except.ok.inj h)
  exact ⟨not_lt.mp hcount, hnew, rfl, not_lt.mp htotal⟩

/-! ## Shapes and sizes -/

theorem isSome_parseCommitment (m₀ m₁ : UInt8) (script : CScript) :
    (parseCommitment m₀ m₁ script).isSome =
      (script.length = 36 && script.take 4 = [OP_RETURN, 0x22, m₀, m₁]) := by
  rw [parseCommitment]
  split
  · next h => rw [h, Option.isSome_some]
  · next h => rw [Bool.eq_false_iff.mpr h, Option.isSome_none]

/-- The tool refuses exactly the outputs that the node takes for commitments. -/
theorem isBlockCommitmentShape_eq (value : Int) (script : Bytes) :
    isBlockCommitmentShape script = isBlockCommitmentOutput ⟨value, script⟩ := by
  rw [isBlockCommitmentShape, isBlockCommitmentOutput, isWitnessCommitment, parsePatCommitment,
    parseLatticeFoldCommitment, isSome_parseCommitment, isSome_parseCommitment, Bool.eq_iff_iff]
  rcases script with _ | ⟨a, _ | ⟨b, rest⟩⟩
  · simp
  · simp
  · have hPA : ascii "PA" = [0x50, 0x41] := by decide
    have hLF : ascii "LF" = [0x4c, 0x46] := by decide
    have hret : OP_RETURN = 0x6a := rfl
    simp only [hPA, hLF, hret, Bool.or_eq_true, Bool.and_eq_true, decide_eq_true_eq,
      List.contains_cons, List.contains_nil, Bool.or_false, beq_iff_eq, List.getD_cons_zero,
      List.getD_cons_succ, List.drop_succ_cons, List.drop_zero, List.take_succ_cons,
      List.cons.injEq]
    tauto

theorem isWitnessProgram_v1Script {program : Bytes} (h : program.length = 32) :
    isWitnessProgram OP_1 (v1Script program) := by
  have hlen : (v1Script program).length = 34 := by
    rw [v1Script, List.length_append, h]
    rfl
  rw [isWitnessProgram, hlen]
  rfl

theorem utxoCostFloor_eq (value : Int) (script : Bytes) :
    utxoCostFloor script = Soqucoin.UTXO_COST_PER_BYTE * (sizeOfTxOut ⟨value, script⟩ : Int) := by
  rw [utxoCostFloor, txoutSerializedSize, length_compactSize, Nat.add_assoc]
  rfl

theorem utxoCostFloor_pos (script : Bytes) : 0 < utxoCostFloor script := by
  have hunit : UTXO_COST_PER_BYTE = 6500 := rfl
  rw [utxoCostFloor, hunit, txoutSerializedSize]
  omega

namespace OutputOf

variable {py : StrMethods} {allocations : OrderedDict String Allocation} {address : String}
  {output : Int × Bytes}

theorem sats_pos (h : OutputOf py allocations address output) : 0 < output.1 :=
  (utxoCostFloor_pos output.2).trans_le h.floor

theorem isWitnessProgram (h : OutputOf py allocations address output) :
    isWitnessProgram OP_1 output.2 := by
  obtain ⟨program, hprogram, hscript⟩ := h.script
  rw [hscript]
  apply isWitnessProgram_v1Script
  rw [List.length_map, length_of_decodeV1Address hprogram]

theorem meetsUtxoCost (h : OutputOf py allocations address output) :
    meetsUtxoCost ⟨output.1, output.2⟩ := by
  have hfloor := h.floor
  rw [utxoCostFloor_eq output.1] at hfloor
  rw [Soqucoin.meetsUtxoCost, Bool.or_eq_true]
  exact .inr (decide_eq_true hfloor)

end OutputOf

/-- A commitment starts with `OP_RETURN`. -/
theorem head_of_isBlockCommitmentOutput {o : CTxOut} (h : isBlockCommitmentOutput o) :
    o.scriptPubKey.head? = some OP_RETURN := by
  simp only [isBlockCommitmentOutput, isWitnessCommitment, parsePatCommitment,
    parseLatticeFoldCommitment, isSome_parseCommitment, Bool.or_eq_true, Bool.and_eq_true,
    decide_eq_true_eq] at h
  have htake : ∀ {n : Nat} {l : Bytes}, o.scriptPubKey.take (n + 1) = OP_RETURN :: l →
      o.scriptPubKey.head? = some OP_RETURN := by
    intro n l hl
    have hhead := congrArg List.head? hl
    rwa [List.head?_take, if_neg (Nat.succ_ne_zero n)] at hhead
  rcases h with (⟨-, h⟩ | ⟨-, h⟩) | ⟨-, h⟩
  · exact htake h
  · exact htake h
  · exact htake h

/-! ## The coinbase -/

/-- A coinbase that pays the committed outputs: a miner output of witness version 1 between the
    floor and the subsidy, the list, and commitments worth nothing. -/
def PaysCommitted (subsidy : Int) (outputs : List (Int × Bytes)) (vout : List CTxOut) : Prop :=
  ∃ miner commitments, vout = miner :: (committedOutputs outputs ++ commitments) ∧
    isWitnessProgram OP_1 miner.scriptPubKey = true ∧
    Soqucoin.UTXO_COST_PER_BYTE * (sizeOfTxOut miner : Int) ≤ miner.nValue ∧
    miner.nValue ≤ subsidy ∧
    ∀ o ∈ commitments, isBlockCommitmentOutput o = true ∧ o.nValue = 0

section Coinbase

variable {py : StrMethods} {allocations : OrderedDict String Allocation}
  {outputs : List (Int × Bytes)} {total subsidy : Int} {vout : List CTxOut}

theorem Built.outputOf (h : Built py allocations outputs total) {output : Int × Bytes}
    (ho : output ∈ outputs) : ∃ address, OutputOf py allocations address output := by
  obtain ⟨address, -, hoff⟩ := exists_of_mem_right h.each ho
  exact ⟨address, hoff⟩

theorem Built.ne_nil (h : Built py allocations outputs total) (hne : allocations.items ≠ []) :
    outputs ≠ [] := by
  rintro rfl
  have hlen := h.each.length_eq
  rw [List.length_insertionSort, OrderedDict.keys, List.length_map, List.length_nil] at hlen
  exact hne (List.length_eq_zero_iff.mp hlen)

theorem sum_committedOutputs (outputs : List (Int × Bytes)) :
    ((committedOutputs outputs).map CTxOut.nValue).sum = (outputs.map Prod.fst).sum := by
  rw [committedOutputs, List.map_map]
  rfl

/-- The amounts fit a word. -/
theorem Built.fits (h : Built py allocations outputs total) {output : Int × Bytes}
    (ho : output ∈ outputs) : 0 ≤ output.1 ∧ output.1 < 2 ^ 63 := by
  have hnonneg : ∀ x ∈ outputs.map Prod.fst, 0 ≤ x := by
    intro x hx
    obtain ⟨o, hmem, rfl⟩ := List.mem_map.mp hx
    obtain ⟨address, hoff⟩ := h.outputOf hmem
    exact hoff.sats_pos.le
  have hle := List.single_le_sum hnonneg output.1 (List.mem_map_of_mem ho)
  have htotal := h.total_le
  rw [h.total_eq, show MAX_MONEY = 20000000000 * 100000000 from rfl,
    show MAX_BLOCK_SUBSIDY = 500000 * 100000000 from rfl] at htotal
  exact ⟨hnonneg _ (List.mem_map_of_mem ho), by omega⟩

/-- The outputs of a coinbase that pays the list are in range. -/
theorem PaysCommitted.inRange (h : PaysCommitted subsidy outputs vout)
    (hbuilt : Built py allocations outputs total) (hsubsidy : subsidy ≤ MAX_BLOCK_SUBSIDY) :
    InRange vout := by
  obtain ⟨miner, commitments, rfl, -, hfloor, hminer, hcommit⟩ := h
  have hminer₀ : 0 ≤ miner.nValue := by
    have hunit : Soqucoin.UTXO_COST_PER_BYTE = 6500 := rfl
    rw [hunit] at hfloor
    omega
  constructor
  · intro o ho
    rcases List.mem_cons.mp ho with rfl | ho
    · exact hminer₀
    rcases List.mem_append.mp ho with ho | ho
    · obtain ⟨output, hmem, rfl⟩ := List.mem_map.mp ho
      exact (hbuilt.fits hmem).1
    · exact (hcommit o ho).2.ge
  · have hzero : (commitments.map CTxOut.nValue).sum = 0 := by
      refine List.sum_eq_zero ?_
      intro x hx
      obtain ⟨o, ho, rfl⟩ := List.mem_map.mp hx
      exact (hcommit o ho).2
    have htotal := hbuilt.total_le
    rw [List.map_cons, List.sum_cons, List.map_append, List.sum_append, hzero,
      sum_committedOutputs, ← hbuilt.total_eq]
    rw [show MAX_MONEY = Soqucoin.MAX_MONEY from rfl] at htotal
    omega

/-- Every output of the committed payment is a v1 program or an OP_RETURN. -/
theorem PaysCommitted.outputType (h : PaysCommitted subsidy outputs vout)
    (hbuilt : Built py allocations outputs total) {o : CTxOut} (ho : o ∈ vout) :
    isWitnessProgram OP_1 o.scriptPubKey ∨ o.scriptPubKey.head? = some OP_RETURN := by
  obtain ⟨miner, commitments, rfl, hprogram, -, -, hcommit⟩ := h
  rcases List.mem_cons.mp ho with rfl | ho
  · exact .inl hprogram
  rcases List.mem_append.mp ho with ho | ho
  · obtain ⟨output, hmem, rfl⟩ := List.mem_map.mp ho
    obtain ⟨address, hoff⟩ := hbuilt.outputOf hmem
    exact .inl hoff.isWitnessProgram
  · exact .inr (head_of_isBlockCommitmentOutput (hcommit o ho).1)

/-- They pay for their place in the UTXO set. -/
theorem PaysCommitted.meetsUtxoCost (h : PaysCommitted subsidy outputs vout)
    (hbuilt : Built py allocations outputs total) {o : CTxOut} (ho : o ∈ vout) :
    meetsUtxoCost o := by
  obtain ⟨miner, commitments, rfl, -, hfloor, -, hcommit⟩ := h
  rcases List.mem_cons.mp ho with rfl | ho
  · rw [Soqucoin.meetsUtxoCost, Bool.or_eq_true]
    exact .inr (decide_eq_true hfloor)
  rcases List.mem_append.mp ho with ho | ho
  · obtain ⟨output, hmem, rfl⟩ := List.mem_map.mp ho
    obtain ⟨address, hoff⟩ := hbuilt.outputOf hmem
    exact hoff.meetsUtxoCost
  · -- commitments are unspendable, and free
    have hret := head_of_isBlockCommitmentOutput (hcommit o ho).1
    simp [Soqucoin.meetsUtxoCost, isUnspendable, hret]

/-- The walk back over the commitments stops at the last committed output. -/
theorem Built.getLast_not_shaped (h : Built py allocations outputs total) (hne : outputs ≠ []) :
    (committedOutputs outputs).getLast?.any (fun o => !isBlockCommitmentOutput o) = true := by
  rw [committedOutputs, List.getLast?_map, List.getLast?_eq_some_getLast hne, Option.map_some,
    Option.any_some, Bool.not_eq_true', ← isBlockCommitmentShape_eq]
  obtain ⟨address, hoff⟩ := h.outputOf (List.getLast_mem hne)
  exact hoff.not_shaped

end Coinbase

/-- **The commitment can be mined.**  Let `build_outputs` accept an allocation map that is not
    empty.  The tool prints a hash; on every network whose parameters are armed with it and with
    the total, every coinbase that pays the list passes the value rules, the rule on output types,
    the utxo-cost rule, the migration rule and the rule on its amount, in a block without fees. -/
theorem commitment_mineable (py : StrMethods) (hash : Bytes → Uint256)
    (allocations : OrderedDict String Allocation) (outputs : List (Int × Bytes)) (total : Int)
    (hne : allocations.items ≠ []) (hbuild : buildOutputs py allocations = .ok (outputs, total)) :
    ∃ printed, hashMigrationOutputs hash outputs = .ok printed ∧
    ∀ (env : Env) (params : CChainParams) (idx : CBlockIndex) (network : ChainName),
      let node := env.withOutputsHash hash
      let consensus := params.getConsensus idx.nHeight
      network.Pays consensus → migrationArmed consensus idx.nHeight = true →
      consensus.hashMigrationOutputs = uint256S printed → consensus.nMigrationTotal = total →
      ∀ coinbase, PaysCommitted (subsidyAt node params idx) outputs coinbase.vout →
        (∃ nValueOut, coinbase.vout.foldlM checkOutputValue 0 = .ok nValueOut) ∧
        checkCoinbaseOutputType network idx.nHeight coinbase = .ok () ∧
        checkUtxoCost consensus idx.nHeight [coinbase] = .ok () ∧
        (∃ reward, migrationReward node consensus idx.nHeight coinbase
          (subsidyAt node params idx) = .ok reward) ∧
        checkCoinbaseAmount node params idx coinbase 0 = .ok () := by
  have hbuilt := built_of_buildOutputs hbuild
  have hnonempty := hbuilt.ne_nil hne
  refine ⟨_, hashMigrationOutputs_eq hash fun output ho => hbuilt.fits ho, ?_⟩
  intro env params idx network node consensus hpays harmed hhash htotal coinbase hcoinbase
  obtain ⟨hsubsidy₀, hsubsidy⟩ := ChainName.subsidy_le hpays node idx.nHeight idx.hashPrevBlock
  have hword : subsidyAt node params idx =
      getBlockSubsidy node idx.nHeight consensus idx.hashPrevBlock := by
    have hfits : SignedWord.Fits 64
        (getBlockSubsidy node idx.nHeight consensus idx.hashPrevBlock) := by
      rw [show MAX_BLOCK_SUBSIDY = 500000 * 100000000 from rfl] at hsubsidy
      exact ⟨by omega, by omega⟩
    exact SignedWord.wrap_of_fits hfits
  rw [← hword] at hsubsidy₀ hsubsidy
  have hrange := hcoinbase.inRange hbuilt hsubsidy
  have hamount : checkCoinbaseAmount node params idx coinbase 0 = .ok () := by
    obtain ⟨miner, commitments, hvout, -, -, hminer, hcommit⟩ := hcoinbase
    refine checkCoinbaseAmount_of_committed harmed ?_ ?_ (hbuilt.getLast_not_shaped hnonempty)
      hvout hcommit hrange (by omega) ?_
    · rw [uint256S_hex] at hhash
      exact hhash.symm
    · rw [sum_committedOutputs, ← hbuilt.total_eq]
      exact htotal.symm
    · have hle := hbuilt.total_le
      rw [show MAX_MONEY = 20000000000 * 100000000 from rfl] at hle
      rw [show (params.getConsensus idx.nHeight).nMigrationTotal = total from htotal]
      omega
  obtain ⟨reward, hreward, -⟩ := bind_eq_ok.mp hamount
  refine ⟨⟨_, checkOutputValues_of_inRange hrange⟩, ?_, ?_, ⟨reward, ?_⟩, hamount⟩
  · rw [checkCoinbaseOutputType, skipIf_eq_ok]
    intro _
    rw [require_eq_ok, List.all_eq_true]
    intro o ho
    rw [Bool.or_eq_true, decide_eq_true_eq]
    exact hcoinbase.outputType hbuilt ho
  · rw [checkUtxoCost, skipIf_eq_ok]
    intro _
    rw [require_eq_ok, List.all_cons, List.all_nil, Bool.and_true, List.all_eq_true]
    exact fun o ho => hcoinbase.meetsUtxoCost hbuilt ho
  · rw [Int.zero_add] at hreward
    exact hreward

namespace Armed

/-- The address of the program of zero bytes. -/
def zeroAddress : String := "sq1pqqqqqqqqqqqqqqqqqqqqqqqqqqqqqqqqqqqqqqqqqqqqqqqqqqqqz3m5dc"

/-- The address of the program of one bytes. -/
def oneAddress : String := "sq1pqyqszqgpqyqszqgpqyqszqgpqyqszqgpqyqszqgpqyqszqgpqyqs8rzwm6"

/-- Two allocations, the later address first. -/
def twoAllocations : OrderedDict String Allocation :=
  ⟨[(oneAddress, ⟨400000000, ["u", "v"]⟩), (zeroAddress, ⟨300000000, ["t"]⟩)], by decide⟩

/-- Their outputs, in the order of the addresses. -/
def twoOutputs : List (Int × Bytes) :=
  [(300000000, v1Script (List.replicate 32 0)), (400000000, v1Script (List.replicate 32 1))]

/-- Armed at height 1 with the hash and the total of those allocations. -/
def armedParams : CChainParams :=
  ⟨fun _ => { Soqucoin.Sample.consensus with
      fSimplifiedRewards := true
      nSubsidyHalvingInterval := 250000
      nInitialSubsidy := 100000
      nMigrationHeight := 1
      hashMigrationOutputs := Uint256.fill 7
      nMigrationTotal := 700000000 }, fun _ => rfl⟩

/-- A node whose hash of the list is that of the parameters. -/
def armedEnv : Env :=
  (Soqucoin.Sample.env Soqucoin.Sample.sameByte).withOutputsHash fun _ => Uint256.fill 7

/-- A miner output, the list, and two commitments. -/
def minerCoinbase : CTransaction :=
  { Soqucoin.Sample.coinbase 1 with
    vout := Soqucoin.Sample.pay OP_1 1000000 :: (committedOutputs twoOutputs ++
      [Soqucoin.Sample.latticeFoldOutput, Soqucoin.Sample.patOutput]) }

end Armed

open Armed in
/-- The list of two allocations, and a coinbase that pays it with all its checks. -/
theorem commitment_mineable_two :
    buildOutputs .ascii twoAllocations = .ok (twoOutputs, 700000000) ∧
    hashMigrationOutputs (fun _ => Uint256.fill 7) twoOutputs =
      .ok (hex (Uint256.fill 7).bytes.reverse) ∧
    (∃ nValueOut, minerCoinbase.vout.foldlM checkOutputValue 0 = .ok nValueOut) ∧
    checkCoinbaseOutputType .main 1 minerCoinbase = .ok () ∧
    checkUtxoCost (armedParams.getConsensus 1) 1 [minerCoinbase] = .ok () ∧
    (∃ reward, migrationReward armedEnv (armedParams.getConsensus 1) 1 minerCoinbase
      (subsidyAt armedEnv armedParams (Soqucoin.Sample.index 1)) = .ok reward) ∧
    checkCoinbaseAmount armedEnv armedParams (Soqucoin.Sample.index 1) minerCoinbase 0 =
      .ok () := by
  have hbuild : buildOutputs .ascii twoAllocations = .ok (twoOutputs, 700000000) := by
    decide +kernel
  have hprinted : hashMigrationOutputs (fun _ => Uint256.fill 7) twoOutputs =
      .ok (hex (Uint256.fill 7).bytes.reverse) := by decide +kernel
  obtain ⟨printed, heq, hmine⟩ := commitment_mineable .ascii (fun _ => Uint256.fill 7)
    twoAllocations twoOutputs 700000000 (by decide) hbuild
  obtain rfl : hex (Uint256.fill 7).bytes.reverse = printed :=
    Except.ok.inj (hprinted.symm.trans heq)
  exact ⟨hbuild, hprinted, hmine (Soqucoin.Sample.env Soqucoin.Sample.sameByte) armedParams
    (Soqucoin.Sample.index 1) .main ⟨rfl, rfl, rfl⟩ (by decide +kernel) (by decide +kernel) rfl
    minerCoinbase ⟨_, _, rfl, by decide +kernel, by decide +kernel, by decide +kernel,
      by decide +kernel⟩⟩

end Soqucoin.Snapshot
