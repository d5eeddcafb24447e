import Soqucoin.AddressProofs
import Soqucoin.NumeralProofs

/-! # Bech32Proofs — which strings `bech32::Decode` accepts

The register of `PolyMod` is linear in exclusive or, so a prefix and data have one checksum.  A
string is decoded as bech32m exactly if in lower case it is what `bech32::Encode` writes for the
prefix and the data it is decoded to (`decode_eq_bech32m`). -/

namespace Soqucoin.Address

open Numeral Feedback

/-! ## The checksum -/

/-- The register after a zero. -/
def polyModNext (c : Nat) : Nat := polyModStep c 0

/-- What bit `i` of the top of the register adds. -/
def feedbackOf (c i g : Nat) : Nat := if (c >>> 25).testBit i then g else 0

theorem feedbackOf_xor (a b i g : Nat) :
    feedbackOf (a ^^^ b) i g = feedbackOf a i g ^^^ feedbackOf b i g := by
  rw [feedbackOf, Nat.shiftRight_xor_distrib, Nat.testBit_xor, feedbackOf, feedbackOf]
  cases (a >>> 25).testBit i <;> cases (b >>> 25).testBit i <;> simp

theorem feedbackOf_lt {g : Nat} (hg : g < 2 ^ 30) (c i : Nat) : feedbackOf c i g < 2 ^ 30 := by
  rw [feedbackOf]
  split
  · exact hg
  · decide

theorem xor_feedbackOf (x c i g : Nat) :
    (if (c >>> 25).testBit i then x ^^^ g else x) = x ^^^ feedbackOf c i g := by
  rw [feedbackOf]
  split
  · rfl
  · exact (Nat.xor_zero x).symm

theorem polyModStep_eq (c v : Nat) :
    polyModStep c v = ((((((c &&& 0x1ffffff) <<< 5) ^^^ v) ^^^ feedbackOf c 0 0x3b6a57b2) ^^^
      feedbackOf c 1 0x26508e6d) ^^^ feedbackOf c 2 0x1ea119fa ^^^ feedbackOf c 3 0x3d4233dd) ^^^
      feedbackOf c 4 0x2a1462b3 := by
  rw [polyModStep]
  simp only [xor_feedbackOf]

theorem polyModStep_eq_xor (c v : Nat) : polyModStep c v = polyModNext c ^^^ v := by
  rw [polyModNext, polyModStep_eq, polyModStep_eq, Nat.xor_zero]
  ac_rfl

theorem polyMod_eq_run (l : List Nat) : polyMod l = run polyModNext 1 l := by
  rw [polyMod, run]
  congr 1
  funext c v
  exact polyModStep_eq_xor c v

/-- One step of the checksum is a feedback register. -/
theorem feedback_polyModNext : Feedback 5 6 polyModNext where
  pos := by decide
  xor a b := by
    simp only [polyModNext, polyModStep_eq, Nat.xor_zero, feedbackOf_xor, Nat.and_xor_distrib_right,
      Nat.shiftLeft_xor_distrib]
    ac_rfl
  shift a ha := by
    have ha : a < 2 ^ 25 := ha
    have htop : a >>> 25 = 0 := by
      rw [Nat.shiftRight_eq_div_pow, Nat.div_eq_of_lt ha]
    have hlow : a &&& 0x1ffffff = a := by
      rw [show 0x1ffffff = 2 ^ 25 - 1 from rfl, Nat.and_two_pow_sub_one_eq_mod, Nat.mod_eq_of_lt ha]
    simp [polyModNext, polyModStep_eq, feedbackOf, htop, hlow]
  lt a _ := by
    have hlow : (a &&& 0x1ffffff) <<< 5 < 2 ^ 30 := by
      rw [show 0x1ffffff = 2 ^ 25 - 1 from rfl, Nat.and_two_pow_sub_one_eq_mod, Nat.shiftLeft_eq]
      have := Nat.mod_lt a (show 0 < 2 ^ 25 by decide)
      omega
    rw [polyModNext, polyModStep_eq, Nat.xor_zero]
    show _ < 2 ^ 30
    exact Nat.xor_lt_two_pow (Nat.xor_lt_two_pow (Nat.xor_lt_two_pow (Nat.xor_lt_two_pow
      (Nat.xor_lt_two_pow hlow (feedbackOf_lt (by decide) ..)) (feedbackOf_lt (by decide) ..))
      (feedbackOf_lt (by decide) ..)) (feedbackOf_lt (by decide) ..)) (feedbackOf_lt (by decide) ..)

/-- The prefix expands to symbols of five bits. -/
theorem expandHRP_lt (hrp : Bytes) : ∀ v ∈ expandHRP hrp, v < 2 ^ 5 := by
  intro v hv
  rw [expandHRP, List.mem_append, List.mem_append, List.mem_map, List.mem_map,
    List.mem_singleton] at hv
  rcases hv with (⟨c, -, rfl⟩ | rfl) | ⟨c, -, rfl⟩
  · have hc := c.toNat_lt
    rw [Nat.shiftRight_eq_div_pow]
    omega
  · decide
  · rw [show 31 = 2 ^ 5 - 1 from rfl, Nat.and_two_pow_sub_one_eq_mod]
    exact Nat.mod_lt _ (by decide)

theorem createChecksum_eq (encoding : Encoding) (hrp : Bytes) (values : List Nat) :
    createChecksum encoding hrp values = symbols 5 6
      (run polyModNext (polyMod (expandHRP hrp ++ values)) (List.replicate 6 0) ^^^
        encodingConstant encoding) := by
  rw [createChecksum, polyMod_eq_run, polyMod_eq_run, run_append]
  rfl

@[simp] theorem length_createChecksum (encoding : Encoding) (hrp : Bytes) (values : List Nat) :
    (createChecksum encoding hrp values).length = 6 := by
  rw [createChecksum_eq, length_symbols]

variable {hrp str : Bytes} {data values : List Nat} {c : UInt8}

theorem createChecksum_lt {encoding : Encoding} {v : Nat}
    (hv : v ∈ createChecksum encoding hrp values) : v < 32 := by
  rw [createChecksum_eq] at hv
  exact symbols_lt hv

/-- Six symbols make the checksum right exactly if they are the ones that are created. -/
theorem verifyChecksum_append {check : List Nat} (hdata : ∀ v ∈ data, v < 32)
    (hlen : check.length = 6) (hcheck : ∀ v ∈ check, v < 32) :
    verifyChecksum hrp (data ++ check) = .BECH32M ↔ check = createChecksum .BECH32M hrp data := by
  have hc : polyMod (expandHRP hrp ++ data) < (2 ^ 5) ^ 6 := by
    rw [polyMod_eq_run]
    refine feedback_polyModNext.run_lt (by decide) (by decide) ?_
    intro v hv
    rcases List.mem_append.mp hv with hv | hv
    · exact expandHRP_lt hrp v hv
    · exact hdata v hv
  rw [createChecksum_eq,
    ← feedback_polyModNext.run_symbols_iff (by decide) hc (by decide) hlen hcheck,
    verifyChecksum, ← List.append_assoc, polyMod_eq_run, run_append, ← polyMod_eq_run]
  split_ifs with h1 h2
  · refine iff_of_false (by decide) ?_
    rw [h1]
    decide
  · exact iff_of_true rfl h2
  · exact iff_of_false (by decide) h2

/-! ## Characters -/

theorem forall_byte {P : UInt8 → Prop} (h : ∀ n < 256, P (UInt8.ofNat n)) (c : UInt8) : P c := by
  have hc := h c.toNat c.toNat_lt
  rwa [UInt8.ofNat_toNat] at hc

theorem lowerCase_eq_separator : lowerCase c = 49 ↔ c = 49 :=
  forall_byte (P := fun c => lowerCase c = 49 ↔ c = 49) (by decide +kernel) c

theorem isUpper_lowerCase (c : UInt8) : isUpper (lowerCase c) = false :=
  forall_byte (P := fun c => isUpper (lowerCase c) = false) (by decide +kernel) c

theorem lowerCase_eq_self : lowerCase c = c ↔ isUpper c = false :=
  forall_byte (P := fun c => lowerCase c = c ↔ isUpper c = false) (by decide +kernel) c

theorem map_lowerCase_eq_self : str.map lowerCase = str ↔ ∀ c ∈ str, isUpper c = false := by
  have h := List.map_inj_left (l := str) (f := lowerCase) (g := id)
  rw [List.map_id] at h
  rw [h]
  exact forall₂_congr fun c _ => lowerCase_eq_self

/-- A character stands for a symbol in either case. -/
theorem charsetRev_eq_some {v : Nat} :
    CHARSET_REV.getD c.toNat none = some v ↔ v < 32 ∧ CHARSET.getD v 0 = lowerCase c := by
  have hlt : ∀ v ∈ CHARSET_REV.getD c.toNat none, v < 32 :=
    forall_byte (P := fun c => ∀ v ∈ CHARSET_REV.getD c.toNat none, v < 32) (by decide +kernel) c
  have hall : ∀ v < 32, CHARSET_REV.getD c.toNat none = some v ↔ CHARSET.getD v 0 = lowerCase c :=
    forall_byte (P := fun c => ∀ v < 32,
      (CHARSET_REV.getD c.toNat none = some v ↔ CHARSET.getD v 0 = lowerCase c))
      (by decide +kernel) c
  constructor
  · intro h
    have hv := hlt v h
    exact ⟨hv, (hall v hv).mp h⟩
  · rintro ⟨hv, h⟩
    exact (hall v hv).mpr h

/-- A string of symbols is read back up to case. -/
theorem mapM_charsetRev {post : Bytes} :
    (post.mapM fun c => CHARSET_REV.getD c.toNat none) = some values ↔
      (∀ v ∈ values, v < 32) ∧ post.map lowerCase = values.map fun v => CHARSET.getD v 0 := by
  induction post generalizing values with
  | nil =>
    rw [List.mapM_nil]
    cases values <;> simp
  | cons c post ih =>
    rw [List.mapM_cons]
    simp only [Option.bind_eq_bind, Option.bind_eq_some_iff, charsetRev_eq_some, ih,
      Option.pure_def, Option.some.injEq]
    constructor
    · rintro ⟨v, ⟨hv, hc⟩, vs, ⟨hvs, hpost⟩, rfl⟩
      refine ⟨List.forall_mem_cons.mpr ⟨hv, hvs⟩, ?_⟩
      rw [List.map_cons, List.map_cons, hc, hpost]
    · rintro ⟨hvs, hmap⟩
      cases values with
      | nil => cases hmap
      | cons v vs =>
        obtain ⟨hv, hvs⟩ := List.forall_mem_cons.mp hvs
        rw [List.map_cons, List.map_cons, List.cons.injEq] at hmap
        exact ⟨v, ⟨hv, hmap.1.symm⟩, vs, ⟨hvs, hmap.2⟩, rfl⟩

/-- The position of the last separator. -/
theorem rfindSeparator_eq_some {pos : Nat} :
    rfindSeparator str = some pos ↔
      ∃ pre post, str = pre ++ [49] ++ post ∧ pre.length = pos ∧ ∀ c ∈ post, c ≠ 49 := by
  constructor
  · intro h
    rw [rfindSeparator, Option.map_eq_some_iff] at h
    obtain ⟨i, hi, rfl⟩ := h
    obtain ⟨hlt, hfound, hbefore⟩ := List.findIdx?_eq_some_iff_getElem.mp hi
    rw [List.length_reverse] at hlt
    rw [List.getElem_reverse, decide_eq_true_eq] at hfound
    refine ⟨str.take (str.length - 1 - i), str.drop (str.length - 1 - i + 1), ?_, ?_, ?_⟩
    · have hsplit := List.take_append_drop (str.length - 1 - i) str
      rw [List.drop_eq_getElem_cons (by omega), hfound] at hsplit
      rw [List.append_assoc]
      exact hsplit.symm
    · rw [List.length_take]
      omega
    · intro c hc heq
      obtain ⟨j, hj, rfl⟩ := List.getElem_of_mem hc
      rw [List.length_drop] at hj
      rw [List.getElem_drop] at heq
      have hnot := hbefore (i - 1 - j) (by omega)
      rw [List.getElem_reverse] at hnot
      refine hnot (decide_eq_true ?_)
      rw [← heq]
      congr 1
      omega
  · rintro ⟨pre, post, rfl, rfl, hpost⟩
    exact rfindSeparator_append hpost

/-! ## Strings -/

/-- What `Decode` asks of the characters of a string. -/
structure WellFormed (str : Bytes) : Prop where
  printable : ∀ c ∈ str, 33 ≤ c ∧ c ≤ 126
  oneCase : (∀ c ∈ str, isUpper c = false) ∨ ∀ c ∈ str, isLower c = false
  length_le : str.length ≤ 90

/-- The tests at the start of `Decode`. -/
theorem wellFormed_iff (str : Bytes) :
    WellFormed str ↔
      str.any (fun c => !isLower c && !isUpper c && (c < 33 || c > 126)) = false ∧
      (str.any isLower && str.any isUpper) = false ∧ str.length ≤ 90 := by
  have hprint : ∀ c : UInt8, (!isLower c && !isUpper c && (c < 33 || c > 126)) = false ↔
      33 ≤ c ∧ c ≤ 126 :=
    forall_byte (P := fun c => (!isLower c && !isUpper c && (c < 33 || c > 126)) = false ↔
      33 ≤ c ∧ c ≤ 126) (by decide +kernel)
  rw [List.any_eq_false, Bool.and_eq_false_iff, List.any_eq_false, List.any_eq_false]
  simp only [Bool.not_eq_true, hprint]
  constructor
  · rintro ⟨hp, hcase, hlen⟩
    exact ⟨hp, hcase.symm, hlen⟩
  · rintro ⟨hp, hcase, hlen⟩
    exact ⟨hp, hcase.symm, hlen⟩

theorem encode_eq (hlow : hrp.map lowerCase = hrp) (encoding : Encoding) (data : List Nat) :
    encode encoding hrp data =
      hrp ++ [49] ++ (data ++ createChecksum encoding hrp data).map fun c => CHARSET.getD c 0 := by
  rw [encode, hlow]
  rfl

theorem mapM_charsetRev_length {post : Bytes}
    (h : (post.mapM fun c => CHARSET_REV.getD c.toNat none) = some values) :
    values.length = post.length := by
  have hmap := congrArg List.length (mapM_charsetRev.mp h).2
  simpa using hmap.symm

/-- What `Decode` has found in a string that it takes for Bech32m. -/
theorem decode_eq_bech32m_parts :
    decode str = ⟨.BECH32M, hrp, data⟩ ↔
      WellFormed str ∧ ∃ pre post check, str = pre ++ [49] ++ post ∧ pre ≠ [] ∧
        (∀ c ∈ post, c ≠ 49) ∧ check.length = 6 ∧
        (post.mapM fun c => CHARSET_REV.getD c.toNat none) = some (data ++ check) ∧
        hrp = pre.map lowerCase ∧ verifyChecksum hrp (data ++ check) = .BECH32M := by
  have hdrop : ∀ pre post : Bytes, (pre ++ [49] ++ post).drop (pre.length + 1) = post := by
    intro pre post
    exact List.drop_left' (by rw [List.length_append]; rfl)
  have htake : ∀ pre post : Bytes, (pre ++ [49] ++ post).take pre.length = pre := by
    intro pre post
    rw [List.append_assoc, List.take_left]
  have hlen : ∀ pre post : Bytes, (pre ++ [49] ++ post).length = pre.length + 1 + post.length := by
    intro pre post
    rw [List.length_append, List.length_append, List.length_singleton]
  rw [wellFormed_iff, decode]
  constructor
  · intro h
    split at h
    · cases h
    next hprint =>
    split at h
    · cases h
    next hcase =>
    split at h
    · cases h
    next pos hpos =>
    split at h
    · cases h
    next hsize =>
    split at h
    · cases h
    next values hvalues =>
    simp only [Bool.or_eq_true, decide_eq_true_eq, not_or] at hsize
    obtain ⟨pre, post, rfl, rfl, hsep⟩ := rfindSeparator_eq_some.mp hpos
    rw [hdrop] at hvalues
    rw [htake] at h
    have hcount := mapM_charsetRev_length hvalues
    rw [hlen] at hsize
    have hsplit := List.take_append_drop (values.length - 6) values
    dsimp only at h
    split at h
    · cases h
    next =>
    obtain ⟨hres, rfl, rfl⟩ := DecodeResult.mk.inj h
    refine ⟨⟨eq_false_of_ne_true hprint, eq_false_of_ne_true hcase, by rw [hlen]; omega⟩, pre, post,
      values.drop (values.length - 6), rfl, ?_, hsep, ?_, ?_, rfl, ?_⟩
    · exact fun hnil => hsize.1.2 (by rw [hnil]; rfl)
    · rw [List.length_drop]
      omega
    · rw [hsplit]
      exact hvalues
    · rw [hsplit]
      exact hres
  · rintro ⟨⟨hprint, hcase, hle⟩, pre, post, check, rfl, hne, hsep, hcheck, hvalues, rfl, hres⟩
    have hcount := mapM_charsetRev_length hvalues
    rw [List.length_append] at hcount
    rw [hlen] at hle
    have hpos := List.length_pos_iff.mpr hne
    rw [if_neg (ne_true_of_eq_false hprint), if_neg (ne_true_of_eq_false hcase),
      rfindSeparator_append hsep]
    dsimp only
    rw [if_neg, hdrop, hvalues, htake]
    · dsimp only
      rw [hres, List.length_append, hcheck, Nat.add_sub_cancel, List.take_left]
    · rw [hlen]
      simp only [Bool.or_eq_true, decide_eq_true_eq, not_or]
      omega

/-- A string decodes to prefix and symbols exactly if, up to case, it is their encoding. -/
theorem decode_eq_bech32m :
    decode str = ⟨.BECH32M, hrp, data⟩ ↔
      WellFormed str ∧ hrp ≠ [] ∧ hrp.map lowerCase = hrp ∧ (∀ v ∈ data, v < 32) ∧
        str.map lowerCase = encode .BECH32M hrp data := by
  rw [decode_eq_bech32m_parts]
  refine and_congr_right fun _ => ?_
  constructor
  · rintro ⟨pre, post, check, rfl, hne, -, hcheck, hvalues, rfl, hres⟩
    obtain ⟨hlt, hpost⟩ := mapM_charsetRev.mp hvalues
    have hdata : ∀ v ∈ data, v < 32 := fun v hv => hlt v (List.mem_append_left _ hv)
    have hlow : (pre.map lowerCase).map lowerCase = pre.map lowerCase := by
      rw [map_lowerCase_eq_self]
      exact List.forall_mem_map.mpr fun c _ => isUpper_lowerCase c
    have hsum := (verifyChecksum_append hdata hcheck
      fun v hv => hlt v (List.mem_append_right _ hv)).mp hres
    refine ⟨fun hnil => hne (List.map_eq_nil_iff.mp hnil), hlow, hdata, ?_⟩
    rw [encode_eq hlow, List.map_append, List.map_append, hpost, ← hsum]
    rfl
  · rintro ⟨hne, hlow, hdata, hstr⟩
    rw [encode_eq hlow] at hstr
    obtain ⟨front, post, rfl, hfront, hpost⟩ := List.map_eq_append_iff.mp hstr
    obtain ⟨pre, sep, rfl, hpre, hsep⟩ := List.map_eq_append_iff.mp hfront
    obtain ⟨c, rfl, hc⟩ := List.map_eq_singleton_iff.mp hsep
    obtain rfl := lowerCase_eq_separator.mp hc
    refine ⟨pre, post, createChecksum .BECH32M hrp data, rfl, ?_, ?_, length_createChecksum .., ?_,
      hpre.symm, ?_⟩
    · rintro rfl
      exact hne hpre.symm
    · -- a separator among the data would be a symbol's character
      intro c hc h49
      have hmem : lowerCase c ∈ post.map lowerCase := List.mem_map_of_mem hc
      rw [hpost, h49, lowerCase_eq_separator.mpr rfl] at hmem
      obtain ⟨v, -, hv⟩ := List.mem_map.mp hmem
      exact charset_ne_separator v hv
    · refine mapM_charsetRev.mpr ⟨?_, hpost⟩
      intro v hv
      rcases List.mem_append.mp hv with hv | hv
      · exact hdata v hv
      · exact createChecksum_lt hv
    · exact (verifyChecksum_append hdata (length_createChecksum ..)
        fun v hv => createChecksum_lt hv).mpr rfl

end Soqucoin.Address
