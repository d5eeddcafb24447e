import Soqucoin.AuthorityProofs
import Soqucoin.PushProofs

/-! # OperationProofs — finding the operation of an authority transaction

`ParseUSDSOQFreezeOp` and `ParseBTCSOQAuthorityOp` scan the outputs for the one that carries an
operation.  The BTCSOQ scan answers with the only operation, whatever else is among the outputs.
The USDSOQ scan fails on a payload with an unknown operation byte behind the operation, and skips
one before it. -/

namespace Soqucoin

/-! ## Scripts that carry an operation -/

/-- `OP_RETURN` and one push of a recognised tag with a payload of its length. -/
def IsOpEnvelope (script : CScript) (op : UInt8 × Bytes) : Prop :=
  ∃ opcode pc, script = OP_RETURN :: pc ∧ getOp pc = some (opcode, op.1 :: op.2, []) ∧
    btcsoqOpPayloadLen op.1 ≠ 0 ∧ op.2.length = btcsoqOpPayloadLen op.1

/-- `OP_RETURN`, the tag and a payload of 37 bytes. -/
def IsFreezePush (script : CScript) (payload : Bytes) : Prop :=
  ∃ opcode opcode' pc rest tail, script = OP_RETURN :: pc ∧
    getOp pc = some (opcode, FREEZE_TAG, rest) ∧ getOp rest = some (opcode', payload, tail) ∧
    payload.length = FREEZE_OP_PAYLOAD_LEN

theorem isEmpty_eq_false_of_getOp {pc : Bytes} {r : UInt8 × Bytes × Bytes}
    (h : getOp pc = some r) : pc.isEmpty = false := by
  cases pc with
  | nil => cases h
  | cons => rfl

variable {script : CScript} {op : UInt8 × Bytes} {payload : Bytes} {vout : List CTxOut}
  {tx : CTransaction}

/-- The parser of an output reads exactly the envelopes. -/
theorem btcsoqOpPush_eq_some : btcsoqOpPush script = some op ↔ IsOpEnvelope script op := by
  obtain ⟨tag, payload⟩ := op
  constructor
  · intro h
    cases script with
    | nil => cases h
    | cons byte pc =>
      rw [btcsoqOpPush] at h
      split at h
      · cases h
      next hret =>
      split at h
      next opcode tag' payload' hget =>
        obtain ⟨hlen, h⟩ := Option.ite_none_left_eq_some.mp h
        cases h
        simp only [Bool.or_eq_true, decide_eq_true_eq, not_or, not_not] at hret hlen
        exact ⟨opcode, pc, by rw [hret.1], hget, hlen.1, hlen.2⟩
      · cases h
  · rintro ⟨opcode, pc, rfl, hget, htag, hlen⟩
    rw [btcsoqOpPush, isEmpty_eq_false_of_getOp hget, hget]
    simp [htag, hlen]

/-- The parser of an output reads exactly the tagged payloads. -/
theorem freezePush_eq_some : freezePush script = some payload ↔ IsFreezePush script payload := by
  constructor
  · intro h
    cases script with
    | nil => cases h
    | cons byte pc =>
      rw [freezePush] at h
      split at h
      · cases h
      next hret =>
      split at h
      · cases h
      next opcode push0 rest hget =>
      split at h
      · cases h
      next htag =>
      split at h
      · cases h
      next opcode' push1 tail hget' =>
      obtain ⟨hlen, h⟩ := Option.ite_none_left_eq_some.mp h
      cases h
      simp only [Bool.or_eq_true, decide_eq_true_eq, not_or, not_not] at hret htag hlen
      exact ⟨opcode, opcode', pc, rest, tail, by rw [hret.1], by rw [hget, htag], hget', hlen⟩
  · rintro ⟨opcode, opcode', pc, rest, tail, rfl, hget, hget', hlen⟩
    rw [freezePush, isEmpty_eq_false_of_getOp hget, hget]
    simp [hget', hlen]

/-- The script carries this freeze operation. -/
def IsFreezeOp (script : CScript) (op : FreezeOp) : Prop :=
  ∃ payload, IsFreezePush script payload ∧ parseFreezePayload payload = some op

theorem freezeOp_eq_some {op : FreezeOp} :
    (freezePush script).bind parseFreezePayload = some op ↔ IsFreezeOp script op := by
  rw [Option.bind_eq_some_iff]
  exact exists_congr fun payload => and_congr_left' freezePush_eq_some

/-! ## The only one among the outputs -/

/-- One element of the list has a value, and no other has one. -/
def OnlyOne {α β : Type} (has : α → β → Prop) (l : List α) (b : β) : Prop :=
  ∃ before x after, l = before ++ x :: after ∧ has x b ∧
    ∀ y ∈ before ++ after, ∀ b', ¬has y b'

section Only

variable {α β : Type} {f : α → Option β} {has : α → β → Prop} {l l' junk : List α}

theorem eq_none_iff_of_eq_some_iff (hf : ∀ x b, f x = some b ↔ has x b) (x : α) :
    f x = none ↔ ∀ b, ¬has x b := by
  rw [Option.eq_none_iff_forall_ne_some]
  exact forall_congr' fun b => not_congr (hf x b)

/-- Only one element has a property exactly if the filter leaves one. -/
theorem onlyOne_iff (hf : ∀ x b, f x = some b ↔ has x b) {b : β} :
    OnlyOne has l b ↔ l.filterMap f = [b] := by
  rw [List.filterMap_eq_cons_iff]
  constructor
  · rintro ⟨before, x, after, rfl, hx, hno⟩
    simp only [← eq_none_iff_of_eq_some_iff hf, List.mem_append] at hno
    exact ⟨before, x, after, rfl, fun y hy => hno y (.inl hy), (hf x b).mpr hx,
      List.filterMap_eq_nil_iff.mpr fun y hy => hno y (.inr hy)⟩
  · rintro ⟨before, x, after, rfl, hbefore, hx, hafter⟩
    refine ⟨before, x, after, rfl, (hf x b).mp hx, ?_⟩
    intro y hy
    rw [← eq_none_iff_of_eq_some_iff hf]
    rcases List.mem_append.mp hy with hy | hy
    · exact hbefore y hy
    · exact List.filterMap_eq_nil_iff.mp hafter y hy

/-- The only element with a value is the only one in any order and among elements
    without a value. -/
theorem OnlyOne.congr (hf : ∀ x b, f x = some b ↔ has x b) (hperm : l'.Perm (l ++ junk))
    (hjunk : ∀ x ∈ junk, ∀ b, ¬has x b) (b : β) : OnlyOne has l' b ↔ OnlyOne has l b := by
  have hnil : junk.filterMap f = [] :=
    List.filterMap_eq_nil_iff.mpr fun x hx => (eq_none_iff_of_eq_some_iff hf x).mpr (hjunk x hx)
  have h : (l'.filterMap f).Perm (l.filterMap f) := by
    have := hperm.filterMap f
    rwa [List.filterMap_append, hnil, List.append_nil] at this
  rw [onlyOne_iff hf, onlyOne_iff hf]
  exact ⟨fun hb => List.perm_singleton.mp (h.symm.trans (by rw [hb])),
    fun hb => List.perm_singleton.mp (h.trans (by rw [hb]))⟩

end Only

/-! ## BTCSOQ -/

/-- The output is the envelope of this operation. -/
def CarriesOp (txout : CTxOut) (op : UInt8 × Bytes) : Prop := IsOpEnvelope txout.scriptPubKey op

theorem parseBTCSOQAuthorityOpFrom_some {op' : UInt8 × Bytes} :
    parseBTCSOQAuthorityOpFrom vout (some op) = some op' ↔
      op = op' ∧ vout.filterMap (fun txout => btcsoqOpPush txout.scriptPubKey) = [] := by
  induction vout with
  | nil => simp [parseBTCSOQAuthorityOpFrom]
  | cons txout vout ih =>
    rw [parseBTCSOQAuthorityOpFrom]
    cases hpush : btcsoqOpPush txout.scriptPubKey with
    | none => simpa only [List.filterMap_cons, hpush] using ih
    | some op₁ => simp [hpush]

/-- The loop returns an operation exactly if it is the only one. -/
theorem parseBTCSOQAuthorityOpFrom_none :
    parseBTCSOQAuthorityOpFrom vout none = some op ↔
      vout.filterMap (fun txout => btcsoqOpPush txout.scriptPubKey) = [op] := by
  induction vout with
  | nil => simp [parseBTCSOQAuthorityOpFrom]
  | cons txout vout ih =>
    rw [parseBTCSOQAuthorityOpFrom]
    cases hpush : btcsoqOpPush txout.scriptPubKey with
    | none => simpa only [List.filterMap_cons, hpush] using ih
    | some op₁ =>
      simp only [List.filterMap_cons, hpush, List.cons.injEq]
      exact parseBTCSOQAuthorityOpFrom_some

theorem parseBTCSOQAuthorityOp_eq_some :
    parseBTCSOQAuthorityOp tx = some op ↔ OnlyOne CarriesOp tx.vout op := by
  rw [parseBTCSOQAuthorityOp, parseBTCSOQAuthorityOpFrom_none]
  exact (onlyOne_iff fun txout op => btcsoqOpPush_eq_some).symm

/-- What is built is an envelope exactly if the payload has its tag's length. -/
theorem isOpEnvelope_makeOpEnvelope {tag : UInt8} :
    IsOpEnvelope (makeOpEnvelope tag payload) (tag, payload) ↔
      btcsoqOpPayloadLen tag ≠ 0 ∧ payload.length = btcsoqOpPayloadLen tag := by
  constructor
  · rintro ⟨-, -, -, -, htag, hlen⟩
    exact ⟨htag, hlen⟩
  · rintro ⟨htag, hlen⟩
    have hle : btcsoqOpPayloadLen tag ≤ 76 := by
      rw [btcsoqOpPayloadLen]
      split_ifs <;> decide
    have hsize : (tag :: payload).length < 2 ^ 32 := by
      rw [List.length_cons]
      omega
    obtain ⟨opcode, -, -, hget⟩ := getOp_pushData hsize []
    rw [List.append_nil] at hget
    exact ⟨opcode, _, rfl, hget, htag, hlen⟩

/-! ### Payloads -/

/-- The amounts a payload may carry. -/
def PayableSats (sats : Int) : Prop := 0 < sats ∧ sats ≤ BTCSOQ_MAX_SATS

theorem natCast_mod_pow_64 {n : Nat} (h : n < 2 ^ 64) : ((n : Int) % 2 ^ 64).toNat = n := by
  omega

theorem PayableSats.exists_nat {sats : Int} (h : PayableSats sats) :
    ∃ n : Nat, sats = n ∧ n < 256 ^ 8 ∧ (sats % 2 ^ 64).toNat = n := by
  obtain ⟨hpos, hmax⟩ := h
  have hlt : sats < 2 ^ 64 := hmax.trans_lt (by decide)
  lift sats to Nat using hpos.le
  exact ⟨sats, rfl, by omega, by omega⟩

theorem sats_rejected {n : Nat} :
    (decide (BTCSOQ_MAX_SATS < n) || decide (n = 0)) = true ↔ ¬PayableSats n := by
  rw [Bool.or_eq_true, decide_eq_true_eq, decide_eq_true_eq, PayableSats]
  omega

/-- A mint payload parses exactly if it is one that is built. -/
theorem parseBTCSOQMintPayload_eq_some {m : MintPayload} :
    parseBTCSOQMintPayload payload = some m ↔
      payload = buildBTCSOQMintPayload m ∧ m.deposit.n < 2 ^ 32 ∧ PayableSats m.sats := by
  rw [parseBTCSOQMintPayload]
  constructor
  · intro h
    obtain ⟨hlen, h⟩ := Option.ite_none_left_eq_some.mp h
    obtain ⟨hsats, h⟩ := Option.ite_none_left_eq_some.mp h
    rw [sats_rejected, not_not] at hsats
    have hlen : payload.length = 76 := not_not.mp hlen
    cases h
    refine ⟨?_, ?_, hsats⟩
    · rw [buildBTCSOQMintPayload]
      dsimp only
      rw [natCast_mod_pow_64 (readLEAt_lt payload 36 8), writeLE_readLEAt (by omega),
        writeLE_readLEAt (by omega), Uint256.bytes_ofSlice (by omega),
        Uint256.bytes_ofSlice (by omega), List.drop_zero, ← List.take_add, ← List.take_add,
        ← List.take_add, List.take_of_length_le (by omega)]
    · exact readLEAt_lt payload 32 4
  · rintro ⟨rfl, hn, hsats⟩
    obtain ⟨s, hs, hlt, hmod⟩ := hsats.exists_nat
    obtain ⟨⟨hash, n⟩, sats, recipient⟩ := m
    dsimp only at hn hs hsats
    rw [buildBTCSOQMintPayload]
    dsimp only
    rw [hmod, hs]
    rw [hs] at hsats
    have hsatsAt : readLEAt (hash.bytes ++ writeLE 4 n ++ writeLE 8 s ++ recipient.bytes) 36 8 =
        s :=
      readLEAt_append hlt (by simp) _
    have hnAt : readLEAt (hash.bytes ++ writeLE 4 n ++ writeLE 8 s ++ recipient.bytes) 32 4 =
        n := by
      rw [List.append_assoc (_ ++ _)]
      exact readLEAt_append hn (by simp) _
    have hhash := Uint256.ofSlice_append [] hash (writeLE 4 n ++ writeLE 8 s ++ recipient.bytes)
    have hrecipient :=
      Uint256.ofSlice_append (hash.bytes ++ writeLE 4 n ++ writeLE 8 s) recipient []
    simp only [List.nil_append, List.length_nil, ← List.append_assoc] at hhash
    simp only [List.append_nil, List.length_append, Uint256.length_bytes,
      length_writeLE] at hrecipient
    rw [if_neg (by simp [BTCSOQ_MINT_PAYLOAD_LEN]), hsatsAt, hnAt, hhash, hrecipient]
    rw [if_neg (by rw [sats_rejected, not_not]; exact hsats)]

/-- A burn payload parses exactly if it is one that is built. -/
theorem parseBTCSOQBurnPayload_eq_some {hash : Uint256} {sats : Int} :
    parseBTCSOQBurnPayload payload = some (hash, sats) ↔
      payload = buildBTCSOQBurnPayload hash sats ∧ PayableSats sats := by
  rw [parseBTCSOQBurnPayload]
  constructor
  · intro h
    obtain ⟨hlen, h⟩ := Option.ite_none_left_eq_some.mp h
    obtain ⟨hsats, h⟩ := Option.ite_none_left_eq_some.mp h
    rw [sats_rejected, not_not] at hsats
    have hlen : payload.length = 40 := not_not.mp hlen
    cases h
    refine ⟨?_, hsats⟩
    rw [buildBTCSOQBurnPayload, natCast_mod_pow_64 (readLEAt_lt payload 32 8),
      writeLE_readLEAt (by omega), Uint256.bytes_ofSlice (by omega), List.drop_zero,
      ← List.take_add, List.take_of_length_le (by omega)]
  · rintro ⟨rfl, hsats⟩
    obtain ⟨s, hs, hlt, hmod⟩ := hsats.exists_nat
    rw [buildBTCSOQBurnPayload, hmod, hs]
    rw [hs] at hsats
    have hsatsAt : readLEAt (hash.bytes ++ writeLE 8 s ++ []) 32 8 = s :=
      readLEAt_append hlt (by simp) _
    have hhash := Uint256.ofSlice_append [] hash (writeLE 8 s)
    rw [List.append_nil] at hsatsAt
    rw [if_neg (by simp [BTCSOQ_BURN_PAYLOAD_LEN]), hsatsAt]
    dsimp only
    rw [if_neg (by rw [sats_rejected, not_not]; exact hsats)]
    exact congrArg (fun h => some (h, (s : Int))) hhash

/-- The operation of a transaction is that of the only output that carries one, in
    any order and among any outputs that carry none; an envelope of a recognised tag
    and a payload of its length, and no other, parses back to what it was built from;
    payload parsers and builders are inverse to each other. -/
theorem btcsoq_op_parsing :
    (∀ tx op, parseBTCSOQAuthorityOp tx = some op ↔ OnlyOne CarriesOp tx.vout op) ∧
    (∀ tx tx' : CTransaction, ∀ junk, tx'.vout.Perm (tx.vout ++ junk) →
      (∀ txout ∈ junk, ∀ op, ¬CarriesOp txout op) →
      parseBTCSOQAuthorityOp tx' = parseBTCSOQAuthorityOp tx) ∧
    (∀ (tx : CTransaction) nValue tag payload,
      tx.vout = [⟨nValue, makeOpEnvelope tag payload⟩] →
      (parseBTCSOQAuthorityOp tx = some (tag, payload) ↔
        btcsoqOpPayloadLen tag ≠ 0 ∧ payload.length = btcsoqOpPayloadLen tag)) ∧
    (∀ payload m, parseBTCSOQMintPayload payload = some m ↔
      payload = buildBTCSOQMintPayload m ∧ m.deposit.n < 2 ^ 32 ∧ PayableSats m.sats) ∧
    ∀ payload hash sats, parseBTCSOQBurnPayload payload = some (hash, sats) ↔
      payload = buildBTCSOQBurnPayload hash sats ∧ PayableSats sats := by
  refine ⟨fun tx op => parseBTCSOQAuthorityOp_eq_some, ?_, ?_,
    fun payload m => parseBTCSOQMintPayload_eq_some,
    fun payload hash sats => parseBTCSOQBurnPayload_eq_some⟩
  · intro tx tx' junk hperm hjunk
    apply Option.ext
    intro op
    rw [parseBTCSOQAuthorityOp_eq_some, parseBTCSOQAuthorityOp_eq_some]
    exact OnlyOne.congr (fun txout op => btcsoqOpPush_eq_some) hperm hjunk op
  · intro tx nValue tag payload hvout
    rw [← isOpEnvelope_makeOpEnvelope, parseBTCSOQAuthorityOp, hvout,
      parseBTCSOQAuthorityOpFrom_none, ← btcsoqOpPush_eq_some]
    cases hpush : btcsoqOpPush (makeOpEnvelope tag payload) with
    | none => simp [hpush]
    | some op => simp [hpush]

/-- The tag between BURN and FREEZE has no operation: its envelope is built, and not parsed. -/
theorem rotate_envelope_not_parsed :
    parseBTCSOQAuthorityOp ⟨1, [], [⟨0, makeOpEnvelope 0x62 []⟩], 0⟩ = none := by
  decide +kernel

/-! ## USDSOQ -/

/-- An output that carries a freeze or unfreeze operation. -/
def CarriesFreezeOp (txout : CTxOut) (op : FreezeOp) : Prop := IsFreezeOp txout.scriptPubKey op

/-- The only operation has a tagged payload behind it (whose operation byte is
    unknown, or it would be a second operation). -/
def UnknownOpBehind (vout : List CTxOut) : Prop :=
  ∃ before txout after, vout = before ++ txout :: after ∧ (∃ op, CarriesFreezeOp txout op) ∧
    (∀ x ∈ before ++ after, ∀ op, ¬CarriesFreezeOp x op) ∧
    ∃ x ∈ after, ∃ payload, IsFreezePush x.scriptPubKey payload

theorem carriesFreezeOp_iff (txout : CTxOut) (op : FreezeOp) :
    (freezePush txout.scriptPubKey).bind parseFreezePayload = some op ↔ CarriesFreezeOp txout op :=
  freezeOp_eq_some

/-- With an operation found, the loop goes on only past outputs without a tagged payload. -/
theorem parseUSDSOQFreezeOpFrom_some {op op' : FreezeOp} :
    parseUSDSOQFreezeOpFrom vout (some op) = some op' ↔
      op = op' ∧ ∀ x ∈ vout, ∀ payload, ¬IsFreezePush x.scriptPubKey payload := by
  induction vout with
  | nil => simp [parseUSDSOQFreezeOpFrom]
  | cons txout vout ih =>
    have hno := eq_none_iff_of_eq_some_iff
      (fun script payload => @freezePush_eq_some script payload)
      txout.scriptPubKey
    rw [parseUSDSOQFreezeOpFrom, List.forall_mem_cons, ← hno]
    cases hpush : freezePush txout.scriptPubKey with
    | none => simpa using ih
    | some payload => simp

/-- Outputs without an operation in front change nothing. -/
theorem parseUSDSOQFreezeOpFrom_append {before : List CTxOut}
    (h : ∀ x ∈ before, ∀ op, ¬CarriesFreezeOp x op) :
    parseUSDSOQFreezeOpFrom (before ++ vout) none = parseUSDSOQFreezeOpFrom vout none := by
  induction before with
  | nil => rfl
  | cons txout before ih =>
    obtain ⟨htxout, hbefore⟩ := List.forall_mem_cons.mp h
    rw [← eq_none_iff_of_eq_some_iff carriesFreezeOp_iff] at htxout
    rw [List.cons_append, parseUSDSOQFreezeOpFrom, ← ih hbefore]
    cases hpush : freezePush txout.scriptPubKey with
    | none => rfl
    | some payload =>
      rw [hpush, Option.bind_some] at htxout
      simp [htxout]

theorem parseUSDSOQFreezeOpFrom_found {txout : CTxOut} {op : FreezeOp}
    (h : CarriesFreezeOp txout op) :
    parseUSDSOQFreezeOpFrom (txout :: vout) none = parseUSDSOQFreezeOpFrom vout (some op) := by
  obtain ⟨payload, hpush, hop⟩ := h
  rw [parseUSDSOQFreezeOpFrom, freezePush_eq_some.mpr hpush]
  simp [hop]

/-- What the scan finds: the operation before which no output has one and behind
    which no output has a payload. -/
theorem parseUSDSOQFreezeOp_eq_some {op : FreezeOp} :
    parseUSDSOQFreezeOp tx = some op ↔
      ∃ before txout after, tx.vout = before ++ txout :: after ∧ CarriesFreezeOp txout op ∧
        (∀ x ∈ before, ∀ op, ¬CarriesFreezeOp x op) ∧
        ∀ x ∈ after, ∀ payload, ¬IsFreezePush x.scriptPubKey payload := by
  rw [parseUSDSOQFreezeOp]
  constructor
  · intro h
    -- split at the first operation: before it the scan skips, behind it any tagged payload
    -- ends the scan, an unknown operation too
    cases hops : tx.vout.filterMap fun x => (freezePush x.scriptPubKey).bind parseFreezePayload with
    | nil =>
      have hnone : ∀ x ∈ tx.vout, ∀ op, ¬CarriesFreezeOp x op := fun x hx =>
        (eq_none_iff_of_eq_some_iff carriesFreezeOp_iff x).mp
          (List.filterMap_eq_nil_iff.mp hops x hx)
      rw [← List.append_nil tx.vout, parseUSDSOQFreezeOpFrom_append hnone] at h
      cases h
    | cons op₁ ops =>
      obtain ⟨before, txout, after, hvout, hbefore, htxout, -⟩ :=
        List.filterMap_eq_cons_iff.mp hops
      simp only [eq_none_iff_of_eq_some_iff carriesFreezeOp_iff] at hbefore
      rw [carriesFreezeOp_iff] at htxout
      rw [hvout, parseUSDSOQFreezeOpFrom_append hbefore, parseUSDSOQFreezeOpFrom_found htxout,
        parseUSDSOQFreezeOpFrom_some] at h
      obtain ⟨rfl, hafter⟩ := h
      exact ⟨before, txout, after, hvout, htxout, hbefore, hafter⟩
  · rintro ⟨before, txout, after, hvout, htxout, hbefore, hafter⟩
    rw [hvout, parseUSDSOQFreezeOpFrom_append hbefore, parseUSDSOQFreezeOpFrom_found htxout,
      parseUSDSOQFreezeOpFrom_some]
    exact ⟨rfl, hafter⟩

theorem not_carriesFreezeOp_of_not_push {txout : CTxOut}
    (h : ∀ payload, ¬IsFreezePush txout.scriptPubKey payload) (op : FreezeOp) :
    ¬CarriesFreezeOp txout op := by
  rintro ⟨payload, hpush, -⟩
  exact h payload hpush

/-- Without an unknown operation behind it, an operation parses exactly if it is the only one. -/
theorem parseUSDSOQFreezeOp_only (hcond : ¬UnknownOpBehind tx.vout) (op : FreezeOp) :
    parseUSDSOQFreezeOp tx = some op ↔ OnlyOne CarriesFreezeOp tx.vout op := by
  rw [parseUSDSOQFreezeOp_eq_some]
  constructor
  · rintro ⟨before, txout, after, hvout, hop, hbefore, hafter⟩
    refine ⟨before, txout, after, hvout, hop, ?_⟩
    intro x hx
    rcases List.mem_append.mp hx with hx | hx
    · exact hbefore x hx
    · exact not_carriesFreezeOp_of_not_push (hafter x hx)
  · rintro ⟨before, txout, after, hvout, hop, hno⟩
    refine ⟨before, txout, after, hvout, hop, fun x hx => hno x (List.mem_append_left _ hx), ?_⟩
    intro x hx payload hpush
    exact hcond ⟨before, txout, after, hvout, ⟨op, hop⟩, hno, x, hx, payload, hpush⟩

/-- A tagged payload without an operation behind the operation ends the parse. -/
theorem parseUSDSOQFreezeOp_unknown_behind (h : UnknownOpBehind tx.vout) :
    parseUSDSOQFreezeOp tx = none := by
  obtain ⟨before, txout, after, hvout, ⟨op, hop⟩, hno, x, hx, payload, hpush⟩ := h
  rw [Option.eq_none_iff_forall_ne_some]
  intro op' hparse
  rw [parseUSDSOQFreezeOp, hvout,
    parseUSDSOQFreezeOpFrom_append fun y hy => hno y (List.mem_append_left _ hy),
    parseUSDSOQFreezeOpFrom_found hop, parseUSDSOQFreezeOpFrom_some] at hparse
  exact hparse.2 x hx payload hpush

/-- When and as what a freeze operation is parsed. -/
theorem parseUSDSOQFreezeOp_eq_some_iff {op : FreezeOp} :
    parseUSDSOQFreezeOp tx = some op ↔
      OnlyOne CarriesFreezeOp tx.vout op ∧ ¬UnknownOpBehind tx.vout := by
  constructor
  · intro h
    have hcond : ¬UnknownOpBehind tx.vout := fun hbehind =>
      Option.some_ne_none op (h.symm.trans (parseUSDSOQFreezeOp_unknown_behind hbehind))
    exact ⟨(parseUSDSOQFreezeOp_only hcond op).mp h, hcond⟩
  · rintro ⟨honly, hcond⟩
    exact (parseUSDSOQFreezeOp_only hcond op).mpr honly

theorem UnknownOpBehind.exists_only (h : UnknownOpBehind vout) :
    ∃ op, OnlyOne CarriesFreezeOp vout op := by
  obtain ⟨before, txout, after, hvout, ⟨op, hop⟩, hno, -⟩ := h
  exact ⟨op, before, txout, after, hvout, hop, hno⟩

/-- Between two transactions with the same operations, the result differs exactly if one of them
    has an unknown operation behind the only one and the other has not. -/
theorem parseUSDSOQFreezeOp_congr_iff {tx' : CTransaction}
    (hsame : ∀ op, OnlyOne CarriesFreezeOp tx'.vout op ↔ OnlyOne CarriesFreezeOp tx.vout op) :
    parseUSDSOQFreezeOp tx' = parseUSDSOQFreezeOp tx ↔
      (UnknownOpBehind tx.vout ↔ UnknownOpBehind tx'.vout) := by
  have hext : parseUSDSOQFreezeOp tx' = parseUSDSOQFreezeOp tx ↔
      ∀ op, parseUSDSOQFreezeOp tx' = some op ↔ parseUSDSOQFreezeOp tx = some op :=
    ⟨fun h op => by rw [h], fun h => Option.ext h⟩
  simp only [hext, parseUSDSOQFreezeOp_eq_some_iff, hsame, and_congr_right_iff, not_iff_not]
  constructor
  · intro h
    constructor
    · intro hbehind
      obtain ⟨op, honly⟩ := hbehind.exists_only
      exact (h op honly).mpr hbehind
    · intro hbehind
      obtain ⟨op, honly⟩ := hbehind.exists_only
      exact (h op ((hsame op).mp honly)).mp hbehind
  · exact fun h op _ => h.symm

/-! ### Any order -/

/-- Exactly one output is an operation, and another carries the tag and a payload of 37 bytes
    with an unknown operation byte. -/
def UnknownOpBeside (vout : List CTxOut) : Prop :=
  (∃ op, OnlyOne CarriesFreezeOp vout op) ∧
    ∃ x ∈ vout, (∃ payload, IsFreezePush x.scriptPubKey payload) ∧ ∀ op, ¬CarriesFreezeOp x op

theorem UnknownOpBehind.beside (h : UnknownOpBehind vout) : UnknownOpBeside vout := by
  refine ⟨h.exists_only, ?_⟩
  obtain ⟨before, txout, after, rfl, -, hno, x, hx, hpush⟩ := h
  exact ⟨x, by simp [hx], hpush, hno x (List.mem_append_right _ hx)⟩

theorem UnknownOpBeside.mono {vout' junk : List CTxOut} (hperm : vout'.Perm (vout ++ junk))
    (hjunk : ∀ txout ∈ junk, ∀ op, ¬CarriesFreezeOp txout op) (h : UnknownOpBeside vout) :
    UnknownOpBeside vout' := by
  obtain ⟨⟨op, honly⟩, x, hx, hunknown⟩ := h
  exact ⟨⟨op, (OnlyOne.congr carriesFreezeOp_iff hperm hjunk op).mpr honly⟩, x,
    hperm.symm.subset (List.mem_append_left _ hx), hunknown⟩

/-- In front of the operation the unknown one is skipped, behind it it ends the scan. -/
theorem UnknownOpBeside.exists_perms (h : UnknownOpBeside vout) :
    ∃ vout₁ vout₂, vout₁.Perm vout ∧ vout₂.Perm vout ∧
      (∃ op, OnlyOne CarriesFreezeOp vout₁ op ∧ ¬UnknownOpBehind vout₁) ∧
      UnknownOpBehind vout₂ := by
  obtain ⟨⟨op, before, txout, after, rfl, hop, hno⟩, x, hx, hpush, hx'⟩ := h
  have hbeside : x ∈ before ++ after := by
    rcases List.mem_append.mp hx with hx | hx
    · exact List.mem_append_left _ hx
    · rcases List.mem_cons.mp hx with rfl | hx
      · exact absurd hop (hx' op)
      · exact List.mem_append_right _ hx
  have hmiddle : (txout :: (before ++ after)).Perm (before ++ txout :: after) :=
    List.perm_middle.symm
  have hfound : parseUSDSOQFreezeOp ⟨1, [], before ++ after ++ [txout], 0⟩ = some op :=
    parseUSDSOQFreezeOp_eq_some.mpr
      ⟨before ++ after, txout, [], rfl, hop, hno, fun _ h => by cases h⟩
  exact ⟨before ++ after ++ [txout], txout :: (before ++ after),
    (List.perm_append_singleton txout _).trans hmiddle, hmiddle,
    ⟨op, parseUSDSOQFreezeOp_eq_some_iff.mp hfound⟩,
    [], txout, before ++ after, rfl, ⟨op, hop⟩, hno, x, hbeside, hpush⟩

/-- However the outputs are permuted and mixed with others that carry no operation, the result
    stays, exactly if no unknown operation is beside the only one. -/
theorem parseUSDSOQFreezeOp_perm_iff {junk : List CTxOut}
    (hjunk : ∀ txout ∈ junk, ∀ op, ¬CarriesFreezeOp txout op) :
    (∀ tx' : CTransaction, tx'.vout.Perm (tx.vout ++ junk) →
      parseUSDSOQFreezeOp tx' = parseUSDSOQFreezeOp tx) ↔ ¬UnknownOpBeside (tx.vout ++ junk) := by
  constructor
  · -- one order with the unknown operation in front, one with it behind
    intro hall hbeside
    obtain ⟨vout₁, vout₂, hperm₁, hperm₂, ⟨op, hfound⟩, hbehind⟩ := hbeside.exists_perms
    have h₁ : parseUSDSOQFreezeOp ⟨1, [], vout₁, 0⟩ = some op :=
      parseUSDSOQFreezeOp_eq_some_iff.mpr hfound
    have h₂ : parseUSDSOQFreezeOp ⟨1, [], vout₂, 0⟩ = none :=
      parseUSDSOQFreezeOp_unknown_behind hbehind
    rw [hall _ hperm₁] at h₁
    rw [hall _ hperm₂, h₁] at h₂
    cases h₂
  · -- no order has an unknown operation behind the only one
    intro hcond tx' hperm
    rw [parseUSDSOQFreezeOp_congr_iff fun op => OnlyOne.congr carriesFreezeOp_iff hperm hjunk op]
    refine iff_of_false ?_ ?_
    · exact fun hbehind => hcond (hbehind.beside.mono (List.Perm.refl _) hjunk)
    · intro hbehind
      have hback : (tx.vout ++ junk).Perm (tx'.vout ++ []) := by
        rw [List.append_nil]
        exact hperm.symm
      exact hcond (hbehind.beside.mono hback fun _ h => by cases h)

/-- **When the freeze operation is found whatever the order.**  For a transaction and outputs
    added to it that carry no operation: the scan answers with the only operation, and with the
    same after any permutation and the addition, exactly if no unknown operation is beside the
    only one.  For one order of the outputs the first half holds exactly if no unknown operation
    is behind it; and two orders give the same exactly if both have one there or neither. -/
theorem freeze_op_parsing_iff (tx : CTransaction) :
    (∀ junk : List CTxOut, (∀ txout ∈ junk, ∀ op, ¬CarriesFreezeOp txout op) →
      (((∀ op, parseUSDSOQFreezeOp tx = some op ↔ OnlyOne CarriesFreezeOp tx.vout op) ∧
        ∀ tx' : CTransaction, tx'.vout.Perm (tx.vout ++ junk) →
          parseUSDSOQFreezeOp tx' = parseUSDSOQFreezeOp tx) ↔
        ¬UnknownOpBeside (tx.vout ++ junk))) ∧
    ((∀ op, parseUSDSOQFreezeOp tx = some op ↔ OnlyOne CarriesFreezeOp tx.vout op) ↔
      ¬UnknownOpBehind tx.vout) ∧
    ∀ (tx' : CTransaction) (junk : List CTxOut), tx'.vout.Perm (tx.vout ++ junk) →
      (∀ txout ∈ junk, ∀ op, ¬CarriesFreezeOp txout op) →
      (parseUSDSOQFreezeOp tx' = parseUSDSOQFreezeOp tx ↔
        (UnknownOpBehind tx.vout ↔ UnknownOpBehind tx'.vout)) := by
  have hfirst : (∀ op, parseUSDSOQFreezeOp tx = some op ↔ OnlyOne CarriesFreezeOp tx.vout op) ↔
      ¬UnknownOpBehind tx.vout := by
    refine ⟨?_, parseUSDSOQFreezeOp_only⟩
    intro honly hbehind
    obtain ⟨op, hop⟩ := hbehind.exists_only
    have hparse := (honly op).mpr hop
    rw [parseUSDSOQFreezeOp_unknown_behind hbehind] at hparse
    cases hparse
  refine ⟨?_, hfirst, ?_⟩
  · intro junk hjunk
    rw [hfirst, parseUSDSOQFreezeOp_perm_iff hjunk]
    refine ⟨And.right, fun hcond => ⟨fun hbehind => hcond ?_, hcond⟩⟩
    exact hbehind.beside.mono (List.Perm.refl _) hjunk
  · intro tx' junk hperm hjunk
    exact parseUSDSOQFreezeOp_congr_iff fun op => OnlyOne.congr carriesFreezeOp_iff hperm hjunk op

namespace Sample

/-- A tagged payload of the right length, with its operation byte. -/
def taggedOutput (op : UInt8) : CTxOut :=
  ⟨0, OP_RETURN :: pushData FREEZE_TAG ++ pushData (op :: List.replicate 36 0)⟩

/-- A transaction by its outputs. -/
def outputsOnly (vout : List CTxOut) : CTransaction := ⟨1, [], vout, 0⟩

end Sample

/-- A freeze with an unknown operation before it is found; with the same unknown
    operation behind it, it is not, although it still is the only operation. -/
theorem freeze_op_order_matters :
    parseUSDSOQFreezeOp (Sample.outputsOnly [Sample.taggedOutput 0x77,
        Sample.taggedOutput FREEZE_OP_FREEZE]) = some ⟨true, ⟨Uint256.null, 0⟩⟩ ∧
    parseUSDSOQFreezeOp (Sample.outputsOnly [Sample.taggedOutput FREEZE_OP_FREEZE,
        Sample.taggedOutput 0x77]) = none ∧
    OnlyOne CarriesFreezeOp [Sample.taggedOutput FREEZE_OP_FREEZE, Sample.taggedOutput 0x77]
      ⟨true, ⟨Uint256.null, 0⟩⟩ := by
  rw [onlyOne_iff carriesFreezeOp_iff]
  decide +kernel

end Soqucoin
