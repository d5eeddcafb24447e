import Soqucoin.ByteOrderProofs
import Soqucoin.InterpreterProofs

/-! # ScriptNumberProofs — numbers on the script stack

`CScriptNum` reads and writes sign and magnitude.  What `serialize` writes is minimal and is read
back, in eight bytes as long as the magnitude is below `2 ^ 63`.  `OP_DIV` and `OP_MOD` stay in
that range; the guard of `OP_MUL` lets the product `-2 ^ 63` pass, which a signed word holds and
eight bytes of sign and magnitude do not. -/

namespace Soqucoin

open CheckedLoop

/-! ## Bytes -/

theorem UInt8.forall_of_range {P : UInt8 → Prop} (h : ∀ n < 256, P (UInt8.ofNat n)) (b : UInt8) :
    P b := by
  rw [← UInt8.ofNat_toNat (x := b)]
  exact h b.toNat b.toNat_lt

theorem signBit_ne_zero (b : UInt8) : b &&& 0x80 ≠ 0 ↔ 128 ≤ b.toNat :=
  UInt8.forall_of_range (P := fun b => b &&& 0x80 ≠ 0 ↔ 128 ≤ b.toNat) (by decide +kernel) b

theorem toNat_or_signBit (b : UInt8) (h : b.toNat < 128) : (b ||| 0x80).toNat = b.toNat + 128 :=
  UInt8.forall_of_range (P := fun b => b.toNat < 128 → (b ||| 0x80).toNat = b.toNat + 128)
    (by decide +kernel) b h

theorem valueBits_ne_zero (b : UInt8) : b &&& 0x7f ≠ 0 ↔ b.toNat % 128 ≠ 0 :=
  UInt8.forall_of_range (P := fun b => b &&& 0x7f ≠ 0 ↔ b.toNat % 128 ≠ 0) (by decide +kernel) b

theorem readLE_concat (bs : Bytes) (b : UInt8) :
    readLE (bs ++ [b]) = readLE bs + b.toNat * 256 ^ bs.length := by
  induction bs with
  | nil => simp [readLE]
  | cons c bs ih =>
    rw [List.cons_append, readLE_cons, readLE_cons, ih, List.length_cons, Nat.pow_succ]
    ring

variable {bs vch : Bytes} {a b n value : Int}

namespace CScriptNum

/-! ## Reading -/

/-- The last byte holds the sign and the highest bits. -/
theorem setVch_concat (bs : Bytes) (b : UInt8) :
    setVch (bs ++ [b]) =
      if 128 ≤ b.toNat then -((readLE bs + (b.toNat - 128) * 256 ^ bs.length : Nat) : Int)
      else ((readLE bs + b.toNat * 256 ^ bs.length : Nat) : Int) := by
  rw [setVch, List.getLast?_concat]
  dsimp only
  simp only [signBit_ne_zero]
  by_cases hb : 128 ≤ b.toNat
  · rw [if_pos hb, if_pos hb, readLE_concat, List.length_append, List.length_singleton,
      Nat.add_sub_cancel, Nat.add_sub_assoc (Nat.mul_le_mul_right _ hb), ← Nat.sub_mul]
  · rw [if_neg hb, if_neg hb, readLE_concat]

/-- A last byte with more than the sign is minimal. -/
theorem isMinimal_concat {b : UInt8} (h : b.toNat % 128 ≠ 0) : isMinimal (bs ++ [b]) := by
  rw [isMinimal, List.reverse_append, List.reverse_singleton, List.singleton_append]
  have hb := decide_eq_true ((valueBits_ne_zero b).mpr h)
  cases bs.reverse with
  | nil => exact hb
  | cons c cs =>
    dsimp only
    rw [hb, Bool.true_or]

theorem isMinimal_concat_concat {b c : UInt8} (h : 128 ≤ b.toNat) :
    isMinimal (bs ++ [b] ++ [c]) := by
  rw [isMinimal, List.reverse_append, List.reverse_append]
  simp only [List.reverse_singleton, List.singleton_append]
  rw [decide_eq_true ((signBit_ne_zero b).mpr h), Bool.or_true]

/-- Eight bytes hold a sign and 63 bits. -/
theorem natAbs_setVch_lt (h : vch.length ≤ 8) : (setVch vch).natAbs < 2 ^ 63 := by
  rcases List.eq_nil_or_concat vch with rfl | ⟨bs, b, rfl⟩
  · decide
  · rw [List.concat_eq_append, List.length_append, List.length_singleton] at h
    rw [List.concat_eq_append, setVch_concat]
    have hlow := readLE_lt bs
    have hb := b.toNat_lt
    have hpow : 256 ^ bs.length * 128 ≤ 256 ^ 7 * 128 :=
      Nat.mul_le_mul_right _ (Nat.pow_le_pow_right (by decide) (by omega))
    have hbound : ∀ d ≤ 127, readLE bs + d * 256 ^ bs.length < 2 ^ 63 := by
      intro d hd
      have := Nat.mul_le_mul_right (256 ^ bs.length) hd
      omega
    split_ifs with hsign
    · rw [Int.natAbs_neg, Int.natAbs_natCast]
      exact hbound _ (by omega)
    · rw [Int.natAbs_natCast]
      exact hbound _ (by omega)

theorem ofVch_eq_ok {fRequireMinimal : Bool} {nMaxNumSize : Nat} :
    ofVch vch fRequireMinimal nMaxNumSize = .ok n ↔
      vch.length ≤ nMaxNumSize ∧ (fRequireMinimal → isMinimal vch) ∧ setVch vch = n := by
  rw [ofVch, require_bind_eq_ok, require_bind_eq_ok, decide_eq_true_eq, Except.ok.injEq,
    Bool.or_eq_true, Bool.not_eq_true', ← Bool.not_eq_true, ← imp_iff_not_or]

/-! ## Writing -/

/-- The last byte of a magnitude is not zero. -/
theorem magnitude_eq_concat {width n : Nat} (hpos : 0 < n) (hlt : n < 256 ^ width) :
    ∃ bs b, magnitude width n = bs ++ [b] ∧ bs.length < width ∧ 0 < b.toNat ∧
      readLE bs + b.toNat * 256 ^ bs.length = n := by
  induction width generalizing n with
  | zero => omega
  | succ width ih =>
    have hbyte : (UInt8.ofNat (n % 256)).toNat = n % 256 :=
      UInt8.toNat_ofNat_of_lt' (Nat.mod_lt _ (by decide))
    rw [magnitude, if_neg hpos.ne']
    by_cases hsmall : n < 256
    · refine ⟨[], UInt8.ofNat (n % 256), ?_, Nat.succ_pos _, ?_, ?_⟩
      · rw [Nat.div_eq_of_lt hsmall]
        cases width with
        | zero => rfl
        | succ => rfl
      · rw [hbyte]
        omega
      · rw [hbyte]
        simp [readLE, Nat.mod_eq_of_lt hsmall]
    · obtain ⟨bs, b, hmag, hlen, hb, hval⟩ := ih (n := n / 256) (by omega)
        (by rw [Nat.pow_succ] at hlt; omega)
      refine ⟨UInt8.ofNat (n % 256) :: bs, b, by rw [hmag]; rfl, Nat.succ_lt_succ hlen, hb, ?_⟩
      rw [readLE_cons, hbyte, List.length_cons, Nat.pow_succ]
      have : n % 256 + 256 * (n / 256) = n := Nat.mod_add_div n 256
      rw [← hval] at this
      linarith

/-- What `serialize` makes of the last byte of the magnitude: the sign gets a byte of
    its own if that byte is full. -/
theorem serialize_of_magnitude {b : UInt8} (h : magnitude 8 value.natAbs = bs ++ [b]) :
    serialize value =
      if 128 ≤ b.toNat then bs ++ [b] ++ [if value < 0 then 0x80 else 0]
      else if value < 0 then bs ++ [b ||| 0x80] else bs ++ [b] := by
  rw [serialize, h, List.getLast?_concat]
  simp only [signBit_ne_zero, List.dropLast_concat]

theorem serialize_zero : serialize 0 = [] := by
  decide

/-- A number is read back from its bytes, which are minimal. -/
theorem setVch_serialize (h : value.natAbs < 256 ^ 8) :
    isMinimal (serialize value) ∧ setVch (serialize value) = value := by
  by_cases hzero : value = 0
  · rw [hzero]
    decide
  obtain ⟨bs, b, hmag, -, hpos, hval⟩ := magnitude_eq_concat (Int.natAbs_pos.mpr hzero) h
  have hlt := b.toNat_lt
  rw [serialize_of_magnitude hmag]
  by_cases hfull : 128 ≤ b.toNat
  · -- the sign in a byte of its own
    rw [if_pos hfull]
    refine ⟨isMinimal_concat_concat hfull, ?_⟩
    rw [setVch_concat, readLE_concat, hval]
    by_cases hneg : value < 0
    · rw [if_pos hneg, if_pos (by decide)]
      simp only [UInt8.reduceToNat, Nat.sub_self, Nat.zero_mul, Nat.add_zero]
      omega
    · rw [if_neg hneg, if_neg (by decide)]
      simp only [UInt8.toNat_zero, Nat.zero_mul, Nat.add_zero]
      omega
  · rw [if_neg hfull]
    by_cases hneg : value < 0
    · have hor := toNat_or_signBit b (by omega)
      rw [if_pos hneg]
      refine ⟨isMinimal_concat (by omega), ?_⟩
      rw [setVch_concat, hor, if_pos (by omega), Nat.add_sub_cancel, hval]
      omega
    · rw [if_neg hneg]
      refine ⟨isMinimal_concat (by omega), ?_⟩
      rw [setVch_concat, if_neg hfull, hval]
      omega

/-- A number of 63 bits takes at most eight bytes. -/
theorem length_serialize_le (h : value.natAbs < 2 ^ 63) : (serialize value).length ≤ 8 := by
  by_cases hzero : value = 0
  · rw [hzero, serialize_zero]
    decide
  obtain ⟨bs, b, hmag, hlen, -, hval⟩ :=
    @magnitude_eq_concat 8 _ (Int.natAbs_pos.mpr hzero) (by omega)
  rw [serialize_of_magnitude hmag]
  by_cases hfull : 128 ≤ b.toNat
  · -- a full byte at the eighth place would be a magnitude of `2 ^ 63`
    have hshort : bs.length ≠ 7 := by
      intro h7
      rw [h7] at hval
      omega
    rw [if_pos hfull, List.length_append, List.length_append, List.length_singleton,
      List.length_singleton]
    omega
  · rw [if_neg hfull]
    split_ifs <;> rw [List.length_append, List.length_singleton] <;> omega

theorem ofVch_serialize (h : value.natAbs < 2 ^ 63) (fRequireMinimal : Bool) :
    ofVch (serialize value) fRequireMinimal 8 = .ok value := by
  have hlt : value.natAbs < 256 ^ 8 := by omega
  obtain ⟨hmin, hread⟩ := setVch_serialize hlt
  exact ofVch_eq_ok.mpr ⟨length_serialize_le h, fun _ => hmin, hread⟩

end CScriptNum

/-! ## Multiplication, division, remainder -/

/-- The exact result. -/
def arithmeticResult (opcode : UInt8) (a b : Int) : Int :=
  if opcode = OP_MUL then a * b else if opcode = OP_DIV then a.tdiv b else a.tmod b

/-- The quotient the guard of the multiplication compares an operand with. -/
def mulBound (a b : Int) : Int :=
  if 0 < a then if 0 < b then INT64_MAX.tdiv b else INT64_MIN.tdiv a
  else if 0 < b then INT64_MIN.tdiv b else INT64_MAX.tdiv b

/-- The signed operations of an execution, by their exact results: reading the
    operands, the guard, the operation, and `-value` in `serialize`. -/
def signedSteps (opcode : UInt8) (a b : Int) : List Int :=
  let result := arithmeticResult opcode a b
  let store := result :: if result < 0 then [-result] else []
  [a, b] ++
    if opcode = OP_MUL then
      (if a ≠ 0 ∧ b ≠ 0 then [mulBound a b] else []) ++ if mulOverflows a b then [] else store
    else if b = 0 then [] else store

/-- What an operand of at most eight bytes can be. -/
def Operand (n : Int) : Prop := n.natAbs < 2 ^ 63

instance decidableOperand (n : Int) : Decidable (Operand n) :=
  inferInstanceAs (Decidable (n.natAbs < 2 ^ 63))

theorem Operand.fits (h : Operand n) : SignedWord.Fits 64 n := by
  rw [Operand] at h
  constructor <;> omega

theorem Operand.neg_fits (h : Operand n) : SignedWord.Fits 64 (-n) := by
  rw [Operand] at h
  constructor <;> omega

theorem operand_of_ofVch {fRequireMinimal : Bool}
    (h : CScriptNum.ofVch vch fRequireMinimal 8 = .ok n) : Operand n := by
  obtain ⟨hlen, -, rfl⟩ := CScriptNum.ofVch_eq_ok.mp h
  exact CScriptNum.natAbs_setVch_lt hlen

theorem Operand.tdiv (h : Operand a) (b : Int) : Operand (a.tdiv b) := by
  rw [Operand, Int.natAbs_tdiv]
  exact (Nat.div_le_self _ _).trans_lt h

theorem Operand.tmod (h : Operand a) (b : Int) : Operand (a.tmod b) := by
  rw [Operand, Int.natAbs_tmod]
  exact (Nat.mod_le _ _).trans_lt h

theorem le_tdiv_iff {k m : Int} (hn : 0 < n) (hk : 0 ≤ k) : m ≤ k.tdiv n ↔ m * n ≤ k := by
  rw [Int.tdiv_eq_ediv_of_nonneg hk]
  exact Int.le_ediv_iff_mul_le hn

theorem neg_tdiv_le_iff {k m : Int} (hn : 0 < n) (hk : 0 ≤ k) : (-k).tdiv n ≤ m ↔ -k ≤ m * n := by
  rw [Int.neg_tdiv, neg_le, le_tdiv_iff hn hk, neg_mul, neg_le]

/-- The guard of a product is exact. -/
theorem mulOverflows_eq_false :
    mulOverflows a b = false ↔ INT64_MIN ≤ a * b ∧ a * b ≤ INT64_MAX := by
  have hmin : INT64_MIN = -(9223372036854775808 : Int) := rfl
  have hmax : INT64_MAX = (9223372036854775807 : Int) := rfl
  have hzero : INT64_MIN ≤ 0 ∧ 0 ≤ INT64_MAX := by decide
  -- the guard divides by another factor, or another bound, in each of the four sign cases
  rcases lt_trichotomy a 0 with ha | rfl | ha
  · rcases lt_trichotomy b 0 with hb | rfl | hb
    · have hguard : mulOverflows a b = false ↔ ¬a < INT64_MAX.tdiv b := by
        simp [mulOverflows, ha.ne, hb.ne, ha, hb, ha.le, hb.le]
      rw [hguard, ← neg_neg b, Int.tdiv_neg, not_lt, neg_le, le_tdiv_iff (by omega) (by decide),
        neg_mul_neg, neg_neg]
      have := mul_pos_of_neg_of_neg ha hb
      omega
    · simpa [mulOverflows] using hzero
    · have hguard : mulOverflows a b = false ↔ ¬a < INT64_MIN.tdiv b := by
        simp [mulOverflows, ha.ne, hb.ne', ha, hb, ha.le, hb.le]
      rw [hguard, not_lt, hmin, neg_tdiv_le_iff hb (by decide)]
      have := mul_neg_of_neg_of_pos ha hb
      omega
  · simpa [mulOverflows] using hzero
  · rcases lt_trichotomy b 0 with hb | rfl | hb
    · have hguard : mulOverflows a b = false ↔ ¬b < INT64_MIN.tdiv a := by
        simp [mulOverflows, ha.ne', hb.ne, ha, hb, ha.le, hb.le]
      rw [hguard, not_lt, hmin, neg_tdiv_le_iff ha (by decide), mul_comm b]
      have := mul_neg_of_pos_of_neg ha hb
      omega
    · simpa [mulOverflows] using hzero
    · have hguard : mulOverflows a b = false ↔ ¬INT64_MAX.tdiv b < a := by
        simp [mulOverflows, ha.ne', hb.ne', ha, hb, ha.le, hb.le]
      rw [hguard, not_lt, le_tdiv_iff hb (by decide)]
      have := mul_pos ha hb
      omega

theorem min_tdiv_fits (hn : 0 < n) : SignedWord.Fits 64 (INT64_MIN.tdiv n) := by
  have hquot : (9223372036854775808 : Int).tdiv n ≤ 9223372036854775808 :=
    Int.tdiv_le_self _ (by decide)
  have hnonneg : 0 ≤ (9223372036854775808 : Int).tdiv n := Int.tdiv_nonneg (by decide) hn.le
  rw [show INT64_MIN = -9223372036854775808 from rfl, Int.neg_tdiv]
  constructor <;> omega

theorem max_tdiv_fits (n : Int) : SignedWord.Fits 64 (INT64_MAX.tdiv n) :=
  (Operand.tdiv (show Operand INT64_MAX by decide) n).fits

theorem mulBound_fits (a b : Int) : SignedWord.Fits 64 (mulBound a b) := by
  rw [mulBound]
  split_ifs with hpos hpos' hpos'
  · exact max_tdiv_fits b
  · exact min_tdiv_fits hpos
  · exact min_tdiv_fits hpos'
  · exact max_tdiv_fits b

/-- When an arithmetic opcode succeeds, and with what. -/
theorem opArithmetic_eq_ok {flags : VerifyFlags} {opcode : UInt8} {vch1 vch2 : Bytes}
    {rest out : ScriptStack} (ha : CScriptNum.ofVch vch1 flags.minimalData 8 = .ok a)
    (hb : CScriptNum.ofVch vch2 flags.minimalData 8 = .ok b) :
    opArithmetic flags opcode (vch2 :: vch1 :: rest) = .ok out ↔
      (opcode = OP_MUL ∨ b ≠ 0) ∧ (opcode = OP_MUL → mulOverflows a b = false) ∧
        CScriptNum.serialize (arithmeticResult opcode a b) :: rest = out := by
  rw [opArithmetic, ha, hb]
  simp only [bind_eq_ok, require_eq_ok, Except.ok.injEq, exists_const, exists_eq_left']
  simp [arithmeticResult, imp_iff_not_or]

section Opcode

variable {crypto : ScriptCrypto} {checker : SignatureChecker} {flags : VerifyFlags}
  {sigversion : SigVersion} {script : CScript} {opcode : UInt8}

/-- The three opcodes of this section. -/
def IsArithmetic (opcode : UInt8) : Prop := opcode = OP_MUL ∨ opcode = OP_DIV ∨ opcode = OP_MOD

theorem executeOpcode_arithmetic (hop : IsArithmetic opcode) (hflag : flags.scriptRestore)
    (stack : ScriptStack) :
    executeOpcode crypto checker flags sigversion script opcode stack =
      opArithmetic flags opcode stack := by
  rcases hop with rfl | rfl | rfl <;> simp +decide [executeOpcode, restoredOpcode, hflag]

/-- No signed operation overflows, and what is pushed is the exact result and an operand again. -/
def ExactArithmetic (crypto : ScriptCrypto) (checker : SignatureChecker) (flags : VerifyFlags)
    (sigversion : SigVersion) (script : CScript) (opcode : UInt8) (vch1 vch2 : Bytes) (a b : Int) :
    Prop :=
  (∀ n ∈ signedSteps opcode a b, SignedWord.Fits 64 n) ∧
    ∀ rest out,
      executeOpcode crypto checker flags sigversion script opcode (vch2 :: vch1 :: rest) = .ok out →
      ∃ item, out = item :: rest ∧
        ∀ fRequireMinimal, CScriptNum.ofVch item fRequireMinimal 8 =
          .ok (arithmeticResult opcode a b)

/-- A result is again an operand, the least number apart. -/
theorem operand_result (ha : Operand a) (hguard : opcode = OP_MUL → mulOverflows a b = false)
    (hne : opcode = OP_MUL → a * b ≠ INT64_MIN) : Operand (arithmeticResult opcode a b) := by
  rw [arithmeticResult]
  split_ifs with hmul hdiv
  · obtain ⟨hlow, hhigh⟩ := mulOverflows_eq_false.mp (hguard hmul)
    have hne := hne hmul
    rw [show INT64_MIN = -9223372036854775808 from rfl] at hlow hne
    rw [show INT64_MAX = 9223372036854775807 from rfl] at hhigh
    rw [Operand]
    omega
  · exact ha.tdiv b
  · exact ha.tmod b

/-- No step of an operation overflows. -/
theorem signedSteps_fit (ha : Operand a) (hb : Operand b)
    (hstored : (opcode = OP_MUL → mulOverflows a b = false) →
      Operand (arithmeticResult opcode a b)) :
    ∀ n ∈ signedSteps opcode a b, SignedWord.Fits 64 n := by
  have hstore : Operand (arithmeticResult opcode a b) →
      ∀ n ∈ arithmeticResult opcode a b ::
        (if arithmeticResult opcode a b < 0 then [-arithmeticResult opcode a b] else []),
        SignedWord.Fits 64 n := by
    intro hresult n hn
    rcases List.mem_cons.mp hn with rfl | hn
    · exact hresult.fits
    · split at hn
      · rw [List.mem_singleton.mp hn]
        exact hresult.neg_fits
      · cases hn
  intro n hn
  rw [signedSteps] at hn
  rcases List.mem_append.mp hn with hn | hn
  · rcases List.mem_pair.mp hn with rfl | rfl
    · exact ha.fits
    · exact hb.fits
  · split at hn
    · rcases List.mem_append.mp hn with hn | hn
      · split at hn
        · rw [List.mem_singleton.mp hn]
          exact mulBound_fits a b
        · cases hn
      · split at hn
        · cases hn
        · next hguard => exact hstore (hstored fun _ => by simpa using hguard) n hn
    · split at hn
      · cases hn
      · next hmul _ => exact hstore (hstored fun h => absurd h hmul) n hn

/-- The three operations are exact and closed on the operands of eight bytes but for
    the products that are `-2 ^ 63`. -/
theorem script_arithmetic_exact_iff (crypto : ScriptCrypto) (checker : SignatureChecker)
    (flags : VerifyFlags) (sigversion : SigVersion) (script : CScript) (opcode : UInt8)
    (vch1 vch2 : Bytes) (a b : Int) (hop : IsArithmetic opcode) (hflag : flags.scriptRestore = true)
    (ha : CScriptNum.ofVch vch1 flags.minimalData 8 = .ok a)
    (hb : CScriptNum.ofVch vch2 flags.minimalData 8 = .ok b) :
    ExactArithmetic crypto checker flags sigversion script opcode vch1 vch2 a b ↔
      (opcode = OP_MUL → a * b ≠ INT64_MIN) := by
  have hopa := operand_of_ofVch ha
  have hopb := operand_of_ofVch hb
  constructor
  · rintro ⟨hfit, -⟩ rfl hproduct
    have hguard : mulOverflows a b = false := by
      rw [mulOverflows_eq_false, hproduct]
      decide
    -- the product passes the guard, and its negation does not fit
    have hneg : -INT64_MIN ∈ signedSteps OP_MUL a b := by
      simp +decide [signedSteps, arithmeticResult, hguard, hproduct]
    exact absurd (hfit _ hneg).2 (by decide)
  · intro hne
    refine ⟨signedSteps_fit hopa hopb fun hguard => operand_result hopa hguard hne, ?_⟩
    intro rest out hrun
    rw [executeOpcode_arithmetic hop hflag, opArithmetic_eq_ok ha hb] at hrun
    obtain ⟨-, hguard, rfl⟩ := hrun
    exact ⟨_, rfl, CScriptNum.ofVch_serialize (operand_result hopa hguard hne)⟩

end Opcode

namespace Sample

/-- The flags with minimal pushes. -/
def restoreFlags : VerifyFlags := { genesisFlags with minimalData := true }

end Sample

/-- Seven divided by minus two. -/
theorem script_arithmetic_exact_seven_by_minus_two :
    ExactArithmetic Sample.crypto Sample.checker Sample.restoreFlags .witnessV0 [] OP_DIV [7] [0x82]
        7 (-2) ↔ (OP_DIV = OP_MUL → (7 : Int) * -2 ≠ INT64_MIN) :=
  script_arithmetic_exact_iff Sample.crypto Sample.checker Sample.restoreFlags .witnessV0 [] OP_DIV
    [7] [0x82] 7 (-2) (.inr (.inl rfl)) rfl (by decide +kernel) (by decide +kernel)

/-- Twice `-2 ^ 62`: both are operands, the product is pushed in nine bytes and is no
    operand, and its negation is no signed word. -/
theorem product_not_operand :
    CScriptNum.ofVch [0, 0, 0, 0, 0, 0, 0, 0xc0] true 8 = .ok (-2 ^ 62) ∧
    CScriptNum.ofVch [2] true 8 = .ok 2 ∧
    executeOpcode Sample.crypto Sample.checker Sample.restoreFlags .witnessV0 [] OP_MUL
      [[2], [0, 0, 0, 0, 0, 0, 0, 0xc0]] = .ok [[0, 0, 0, 0, 0, 0, 0, 0x80, 0x80]] ∧
    CScriptNum.ofVch [0, 0, 0, 0, 0, 0, 0, 0x80, 0x80] true 8 = .error .unknownError ∧
    ¬SignedWord.Fits 64 (-(-2 ^ 62 * 2)) := by
  refine ⟨by decide +kernel, by decide +kernel, by decide +kernel, by decide +kernel, ?_⟩
  rintro ⟨-, hhigh⟩
  omega

end Soqucoin
