import Mathlib.Data.Nat.Digits.Defs
import Mathlib.Data.Nat.Bitwise
import Mathlib.Data.List.Basic
import Mathlib.Tactic

/-! # NumeralProofs — digit strings, regrouping of bits and check symbols

A list of digits, most significant first, is the number it writes (`numeral`).  On it two
techniques of text encodings are studied: `regroup` writes digits of one number of bits as digits
of another with a bounded accumulator, and a register that is linear in exclusive or (`Feedback`)
computes check symbols.  Of a string with its check symbols the register makes a chosen value, and
no other check symbols of that length do so. -/

namespace Numeral

/-! ## Digit strings -/

/-- The number that a list of digits writes, most significant first. -/
def numeral (b : Nat) (l : List Nat) : Nat := Nat.ofDigits b l.reverse

@[simp] theorem numeral_nil (b : Nat) : numeral b [] = 0 := rfl

theorem numeral_concat (b : Nat) (l : List Nat) (d : Nat) :
    numeral b (l ++ [d]) = numeral b l * b + d := by
  rw [numeral, numeral, List.reverse_append, List.reverse_singleton, List.singleton_append,
    Nat.ofDigits_cons]
  ring

theorem numeral_append (b : Nat) (l m : List Nat) :
    numeral b (l ++ m) = numeral b l * b ^ m.length + numeral b m := by
  rw [numeral, numeral, numeral, List.reverse_append, Nat.ofDigits_append, List.length_reverse]
  ring

theorem numeral_cons (b d : Nat) (l : List Nat) :
    numeral b (d :: l) = d * b ^ l.length + numeral b l := by
  rw [← List.singleton_append, numeral_append, numeral, List.reverse_singleton,
    Nat.ofDigits_singleton]

theorem numeral_lt {b : Nat} (hb : 1 < b) {l : List Nat} (hl : ∀ d ∈ l, d < b) :
    numeral b l < b ^ l.length := by
  rw [← List.length_reverse]
  exact Nat.ofDigits_lt_base_pow_length hb fun d hd => hl d (List.mem_reverse.mp hd)

theorem numeral_injective {b : Nat} (hb : 1 < b) {l m : List Nat} (hlen : l.length = m.length)
    (hl : ∀ d ∈ l, d < b) (hm : ∀ d ∈ m, d < b) (h : numeral b l = numeral b m) : l = m := by
  apply List.reverse_injective
  refine Nat.ofDigits_inj_of_len_eq hb ?_ ?_ ?_ h
  · rw [List.length_reverse, List.length_reverse, hlen]
  · exact fun d hd => hl d (List.mem_reverse.mp hd)
  · exact fun d hd => hm d (List.mem_reverse.mp hd)

theorem shiftLeft_or {k d : Nat} (a : Nat) (hd : d < 2 ^ k) : a <<< k ||| d = a * 2 ^ k + d := by
  rw [← Nat.shiftLeft_add_eq_or_of_lt hd, Nat.shiftLeft_eq]

/-- Appending a digit below the bits of a number. -/
theorem shiftLeft_xor {k d : Nat} (a : Nat) (hd : d < 2 ^ k) : a <<< k ^^^ d = a * 2 ^ k + d := by
  rw [← shiftLeft_or a hd]
  apply Nat.eq_of_testBit_eq
  intro i
  rw [Nat.testBit_xor, Nat.testBit_or, Nat.testBit_shiftLeft]
  by_cases hi : k ≤ i
  · have hbit : d.testBit i = false :=
      Nat.testBit_lt_two_pow (hd.trans_le (Nat.pow_le_pow_right (by decide) hi))
    rw [hbit, Bool.xor_false, Bool.or_false]
  · simp [hi]

theorem mul_add_div {m : Nat} (hm : 0 < m) (a b : Nat) : (a * m + b) / m = a + b / m := by
  rw [Nat.mul_comm, Nat.mul_add_div hm]

/-! ## Regrouping -/

/-- The groups of `tobits` bits in the low `bits` bits of `acc`, and how many bits stay. -/
def emit (tobits acc : Nat) : Nat → Nat → List Nat × Nat
  | 0, bits => ([], bits)
  | fuel + 1, bits =>
    if tobits ≤ bits then
      let rest := emit tobits acc fuel (bits - tobits)
      (acc / 2 ^ (bits - tobits) % 2 ^ tobits :: rest.1, rest.2)
    else ([], bits)

/-- Digits of `frombits` bits read into a word of `width` bits, groups of `tobits` bits
    handed out as soon as they are complete: the groups, the word and the number of
    bits that are left in it. -/
def regroup (width frombits tobits : Nat) : List Nat → Nat → Nat → List Nat × Nat × Nat
  | [], acc, bits => ([], acc, bits)
  | value :: data, acc, bits =>
    let acc := (acc * 2 ^ frombits + value) % 2 ^ width
    let out := emit tobits acc (bits + frombits) (bits + frombits)
    let rest := regroup width frombits tobits data acc out.2
    (out.1 ++ rest.1, rest.2)

/-- The groups that `emit` hands out are the digits of the bits it was given. -/
structure Emitted (tobits acc bits : Nat) (out : List Nat × Nat) : Prop where
  left_lt : out.2 < tobits
  length_eq : tobits * out.1.length + out.2 = bits
  digits : ∀ d ∈ out.1, d < 2 ^ tobits
  value_eq : numeral (2 ^ tobits) out.1 = acc % 2 ^ bits / 2 ^ out.2

/-- The inner loop takes full groups off the top. -/
theorem emit_spec {tobits : Nat} (ht : 0 < tobits) (acc : Nat) {fuel bits : Nat}
    (hfuel : bits ≤ fuel) : Emitted tobits acc bits (emit tobits acc fuel bits) := by
  induction fuel generalizing bits with
  | zero =>
    obtain rfl : bits = 0 := Nat.le_zero.mp hfuel
    exact ⟨ht, rfl, by simp [emit], by simp [emit, Nat.mod_one]⟩
  | succ fuel ih =>
    rw [emit]
    split
    swap
    · next hlt =>
      refine ⟨Nat.not_le.mp hlt, by simp, by simp, ?_⟩
      rw [numeral_nil, Nat.div_eq_of_lt (Nat.mod_lt _ (by positivity))]
    · next hle =>
      have hrest := @ih (bits - tobits) (by omega)
      refine ⟨hrest.left_lt, ?_, ?_, ?_⟩
      · have hlen := hrest.length_eq
        dsimp only
        rw [List.length_cons, Nat.mul_add]
        omega
      · intro d hd
        rcases List.mem_cons.mp hd with rfl | hd
        · exact Nat.mod_lt _ (by positivity)
        · exact hrest.digits d hd
      · -- the first group is the top of the bits, the others are those of what is below
        have hlen := hrest.length_eq
        generalize hr : emit tobits acc fuel (bits - tobits) = r at hrest hlen ⊢
        dsimp only
        have hpow : (2 ^ tobits) ^ r.1.length * 2 ^ r.2 = 2 ^ (bits - tobits) := by
          rw [← pow_mul, ← pow_add, hlen]
        have hsplit : acc % 2 ^ bits =
            acc / 2 ^ (bits - tobits) % 2 ^ tobits * 2 ^ (bits - tobits) +
            acc % 2 ^ (bits - tobits) := by
          have hb : 2 ^ bits = 2 ^ (bits - tobits) * 2 ^ tobits := by
            rw [← pow_add, Nat.sub_add_cancel hle]
          rw [hb, Nat.mod_mul]
          ring
        rw [numeral_cons, hrest.value_eq, hsplit, ← hpow, ← Nat.mul_assoc,
          mul_add_div (by positivity)]

/-- What `regroup` hands out are the digits of the bits it was given, which are the
    ones left over from before and those of the data. -/
structure Regrouped (tobits value total : Nat) (out : List Nat × Nat × Nat) : Prop where
  left_lt : out.2.2 < tobits
  length_eq : tobits * out.1.length + out.2.2 = total
  digits : ∀ d ∈ out.1, d < 2 ^ tobits
  value_eq : numeral (2 ^ tobits) out.1 = value / 2 ^ out.2.2
  left_eq : out.2.1 % 2 ^ out.2.2 = value % 2 ^ out.2.2

/-- Regrouping keeps the number that the groups spell. -/
theorem regroup_spec {width frombits tobits : Nat} (ht : 0 < tobits)
    (hw : frombits + tobits ≤ width + 1) {data : List Nat} (hdata : ∀ d ∈ data, d < 2 ^ frombits)
    (acc : Nat) {bits : Nat} (hbits : bits < tobits) :
    Regrouped tobits
      (acc % 2 ^ bits * 2 ^ (frombits * data.length) + numeral (2 ^ frombits) data)
      (bits + frombits * data.length) (regroup width frombits tobits data acc bits) := by
  induction data generalizing acc bits with
  | nil =>
    have hlt : acc % 2 ^ bits < 2 ^ bits := Nat.mod_lt _ (by positivity)
    refine ⟨hbits, by simp [regroup], by simp [regroup], ?_, ?_⟩
    · simp [regroup, Nat.div_eq_of_lt hlt]
    · simp [regroup]
  | cons v data ih =>
    obtain ⟨hv, hdata⟩ := List.forall_mem_cons.mp hdata
    rw [regroup]
    generalize hacc : (acc * 2 ^ frombits + v) % 2 ^ width = acc'
    have hout := emit_spec ht acc' (le_refl (bits + frombits))
    generalize emit tobits acc' (bits + frombits) (bits + frombits) = out at hout ⊢
    have hrest := ih hdata acc' hout.left_lt
    generalize regroup width frombits tobits data acc' out.2 = rest at hrest ⊢
    -- the bits in the word are those left over and the new digit
    have hword : acc' % 2 ^ (bits + frombits) = acc % 2 ^ bits * 2 ^ frombits + v := by
      rw [← hacc, Nat.mod_mod_of_dvd _ (Nat.pow_dvd_pow 2 (by omega)), Nat.add_comm bits, pow_add,
        Nat.mod_mul, mul_add_div (by positivity), Nat.div_eq_of_lt hv, Nat.mul_comm acc,
        Nat.mul_add_mod, Nat.mod_eq_of_lt hv, Nat.add_zero]
      ring
    have hlow : acc' % 2 ^ out.2 = (acc % 2 ^ bits * 2 ^ frombits + v) % 2 ^ out.2 := by
      have hle : out.2 ≤ bits + frombits := by
        have := hout.length_eq
        omega
      rw [← hword, Nat.mod_mod_of_dvd _ (Nat.pow_dvd_pow 2 hle)]
    have hval := hout.value_eq
    rw [hword] at hval
    have hvalue : acc % 2 ^ bits * 2 ^ (frombits * (v :: data).length) +
        numeral (2 ^ frombits) (v :: data) =
        (acc % 2 ^ bits * 2 ^ frombits + v) * 2 ^ (frombits * data.length) +
          numeral (2 ^ frombits) data := by
      rw [numeral_cons, List.length_cons, ← pow_mul, Nat.mul_succ, pow_add]
      ring
    rw [hvalue]
    generalize acc % 2 ^ bits * 2 ^ frombits + v = top at hval hlow
    rw [hlow] at hrest
    have hlen := hrest.length_eq
    have hpow : 2 ^ out.2 * 2 ^ (frombits * data.length) =
        (2 ^ tobits) ^ rest.1.length * 2 ^ rest.2.2 := by
      rw [← pow_mul, ← pow_add, ← pow_add, hlen]
    -- what was handed out before stands above what the rest hands out
    have hsplit : top * 2 ^ (frombits * data.length) + numeral (2 ^ frombits) data =
        top / 2 ^ out.2 * (2 ^ tobits) ^ rest.1.length * 2 ^ rest.2.2 +
          (top % 2 ^ out.2 * 2 ^ (frombits * data.length) + numeral (2 ^ frombits) data) := by
      conv_lhs => rw [← Nat.div_add_mod top (2 ^ out.2)]
      rw [Nat.mul_assoc, ← hpow]
      ring
    refine ⟨hrest.left_lt, ?_, ?_, ?_, ?_⟩
    · have hfirst := hout.length_eq
      show tobits * (out.1 ++ rest.1).length + rest.2.2 = bits + frombits * (data.length + 1)
      rw [List.length_append, Nat.mul_add, Nat.mul_succ]
      omega
    · intro d hd
      rcases List.mem_append.mp hd with hd | hd
      · exact hout.digits d hd
      · exact hrest.digits d hd
    · rw [hsplit, mul_add_div (by positivity), numeral_append, hval, hrest.value_eq]
    · rw [hrest.left_eq, hsplit, Nat.mul_comm _ (2 ^ rest.2.2), Nat.mul_add_mod]

/-! ## Check symbols -/

/-- A register over words that is linear in exclusive or, and shifts a word by `k` bits
    as long as nothing reaches its top: it has `n` places of `k` bits. -/
structure Feedback (k n : Nat) (next : Nat → Nat) : Prop where
  pos : 0 < k
  xor : ∀ a b, next (a ^^^ b) = next a ^^^ next b
  shift : ∀ a, a < (2 ^ k) ^ (n - 1) → next a = a <<< k
  lt : ∀ a, a < (2 ^ k) ^ n → next a < (2 ^ k) ^ n

namespace Feedback

variable {k n : Nat} {next : Nat → Nat}

/-- The register after a list of symbols. -/
def run (next : Nat → Nat) (c : Nat) (l : List Nat) : Nat := l.foldl (fun c v => next c ^^^ v) c

theorem run_append (c : Nat) (l m : List Nat) : run next c (l ++ m) = run next (run next c l) m :=
  List.foldl_append

/-- The register stays within its width. -/
theorem run_lt (h : Feedback k n next) (hn : 0 < n) {c : Nat} (hc : c < (2 ^ k) ^ n) {l : List Nat}
    (hl : ∀ v ∈ l, v < 2 ^ k) : run next c l < (2 ^ k) ^ n := by
  induction l generalizing c with
  | nil => exact hc
  | cons v l ih =>
    obtain ⟨hv, hl⟩ := List.forall_mem_cons.mp hl
    refine ih ?_ hl
    have hvn : v < 2 ^ (k * n) := hv.trans_le (Nat.pow_le_pow_right (by decide) (by nlinarith))
    have hnext := h.lt c hc
    rw [← pow_mul] at hnext ⊢
    exact Nat.xor_lt_two_pow hnext hvn

/-- Symbols that are not shifted out are added to what the register makes of zeros. -/
theorem run_eq_xor (h : Feedback k n next) (c : Nat) {l : List Nat} (hlen : l.length ≤ n)
    (hl : ∀ v ∈ l, v < 2 ^ k) :
    run next c l = run next c (List.replicate l.length 0) ^^^ numeral (2 ^ k) l := by
  induction l using List.reverseRecOn with
  | nil => simp [run]
  | append_singleton l v ih =>
    have hv : v < 2 ^ k := hl v (by simp)
    have hl : ∀ w ∈ l, w < 2 ^ k := fun w hw => hl w (by simp [hw])
    rw [List.length_append, List.length_singleton] at hlen
    have hsmall : numeral (2 ^ k) l < (2 ^ k) ^ (n - 1) :=
      (numeral_lt (Nat.one_lt_two_pow h.pos.ne') hl).trans_le
        (Nat.pow_le_pow_right (by positivity) (by omega))
    rw [run_append, ih (by omega) hl, List.length_append, List.length_singleton,
      List.replicate_succ', run_append]
    show next (_ ^^^ _) ^^^ v = (next _ ^^^ 0) ^^^ _
    rw [h.xor, h.shift _ hsmall, Nat.xor_zero, Nat.xor_assoc, shiftLeft_xor _ hv, numeral_concat]

/-- The check symbols for a target: the digits of what is missing after as many zeros. -/
def symbols (k n x : Nat) : List Nat :=
  (List.range n).map fun i => x >>> (k * (n - 1 - i)) &&& (2 ^ k - 1)

@[simp] theorem length_symbols (k n x : Nat) : (symbols k n x).length = n := by
  rw [symbols, List.length_map, List.length_range]

theorem symbols_lt {k n x v : Nat} (hv : v ∈ symbols k n x) : v < 2 ^ k := by
  obtain ⟨i, -, rfl⟩ := List.mem_map.mp hv
  rw [Nat.and_two_pow_sub_one_eq_mod]
  exact Nat.mod_lt _ (by positivity)

/-- The symbols of a number, the last one apart. -/
theorem symbols_succ (k n x : Nat) :
    symbols k (n + 1) x = symbols k n (x >>> k) ++ [x % 2 ^ k] := by
  rw [symbols, symbols, List.range_succ, List.map_append, List.map_singleton, Nat.add_sub_cancel,
    Nat.sub_self, Nat.mul_zero, Nat.shiftRight_zero, Nat.and_two_pow_sub_one_eq_mod]
  congr 1
  apply List.map_congr_left
  intro i hi
  have hi := List.mem_range.mp hi
  rw [← Nat.shiftRight_add, show n - i = n - 1 - i + 1 by omega, Nat.mul_succ, Nat.add_comm]

/-- The digits of a number spell it. -/
theorem numeral_symbols {k n x : Nat} (hx : x < (2 ^ k) ^ n) :
    numeral (2 ^ k) (symbols k n x) = x := by
  induction n generalizing x with
  | zero =>
    rw [pow_zero] at hx
    rw [Nat.lt_one_iff.mp hx]
    rfl
  | succ n ih =>
    have hdiv : x / 2 ^ k < (2 ^ k) ^ n := by
      rw [Nat.div_lt_iff_lt_mul (by positivity), ← pow_succ]
      exact hx
    rw [symbols_succ, numeral_concat, Nat.shiftRight_eq_div_pow, ih hdiv, Nat.div_add_mod']

/-- The check symbols of a word: with them, and with no others, the register ends at the target. -/
theorem run_symbols_iff (h : Feedback k n next) (hn : 0 < n) {c target : Nat} (hc : c < (2 ^ k) ^ n)
    (ht : target < (2 ^ k) ^ n) {check : List Nat} (hlen : check.length = n)
    (hcheck : ∀ v ∈ check, v < 2 ^ k) :
    run next c check = target ↔
      check = symbols k n (run next c (List.replicate n 0) ^^^ target) := by
  have hzero : run next c (List.replicate n 0) < (2 ^ k) ^ n :=
    h.run_lt hn hc fun v hv => (List.eq_of_mem_replicate hv).symm ▸ Nat.two_pow_pos k
  rw [h.run_eq_xor c hlen.le hcheck, hlen]
  generalize run next c (List.replicate n 0) = z at hzero ⊢
  have hmiss : z ^^^ target < (2 ^ k) ^ n := by
    rw [← pow_mul] at hzero ht ⊢
    exact Nat.xor_lt_two_pow hzero ht
  constructor
  · rintro rfl
    refine numeral_injective (Nat.one_lt_two_pow h.pos.ne') (by rw [length_symbols, hlen]) hcheck
      (fun v hv => symbols_lt hv) ?_
    rw [numeral_symbols hmiss, ← Nat.xor_assoc, Nat.xor_self, Nat.zero_xor]
  · rintro rfl
    rw [numeral_symbols hmiss, ← Nat.xor_assoc, Nat.xor_self, Nat.zero_xor]

end Feedback

end Numeral
