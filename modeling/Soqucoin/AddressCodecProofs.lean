import Soqucoin.Bech32Proofs
import Soqucoin.ByteOrderProofs

/-! # AddressCodecProofs — destinations and the strings they are written as

`ConvertBits` between bytes and symbols of five bits, and with it the strings that
`DecodeDestination` accepts: those that in lower case are what `EncodeDestination` writes for the
program (`decodeDestination_eq_some`). -/

namespace Soqucoin.Address

open Numeral

/-! ## `ConvertBits` -/

theorem emitGroups_eq (tobits acc fuel bits : Nat) :
    emitGroups tobits acc fuel bits = emit tobits acc fuel bits := by
  induction fuel generalizing bits with
  | zero => rfl
  | succ fuel ih =>
    rw [emitGroups, emit, ih, Nat.and_two_pow_sub_one_eq_mod, Nat.shiftRight_eq_div_pow]

variable {data : List Nat} {frombits tobits : Nat} {hrp : Bytes}

theorem regroup_eq (frombits tobits : Nat) (hdata : ∀ d ∈ data, d < 2 ^ frombits) (acc bits : Nat) :
    regroup frombits tobits data acc bits = Numeral.regroup 32 frombits tobits data acc bits := by
  induction data generalizing acc bits with
  | nil => rfl
  | cons v data ih =>
    obtain ⟨hv, hdata⟩ := List.forall_mem_cons.mp hdata
    rw [regroup, Numeral.regroup, shiftLeft_or acc hv, emitGroups_eq, ih hdata]

theorem regroup_zero (ht : 0 < tobits) (hw : frombits + tobits ≤ 33)
    (hdata : ∀ d ∈ data, d < 2 ^ frombits) :
    Regrouped tobits (numeral (2 ^ frombits) data) (frombits * data.length)
      (regroup frombits tobits data 0 0) := by
  have h := regroup_spec ht hw hdata 0 ht
  rw [regroup_eq frombits tobits hdata]
  simpa using h

theorem lastGroup {bits : Nat} (h : bits ≤ tobits) (acc : Nat) :
    acc <<< (tobits - bits) &&& (2 ^ tobits - 1) = acc % 2 ^ bits * 2 ^ (tobits - bits) := by
  rw [Nat.and_two_pow_sub_one_eq_mod, Nat.shiftLeft_eq]
  conv_lhs => rw [← Nat.add_sub_cancel' h, pow_add, Nat.add_sub_cancel_left]
  rw [Nat.mul_mod_mul_right]

/-- With padding: the digits of the bits and of less than a group of zeros. -/
structure Padded (frombits tobits : Nat) (data out : List Nat) (pad : Nat) : Prop where
  pad_lt : pad < tobits
  length_eq : tobits * out.length = frombits * data.length + pad
  digits : ∀ d ∈ out, d < 2 ^ tobits
  value_eq : numeral (2 ^ tobits) out = numeral (2 ^ frombits) data * 2 ^ pad

/-- With padding, the new groups are the bits of the old ones and zeros at the end. -/
theorem padded_convertBits (ht : 0 < tobits) (hw : frombits + tobits ≤ 33)
    (hdata : ∀ d ∈ data, d < 2 ^ frombits) :
    ∃ pad, Padded frombits tobits data (convertBits data frombits tobits true) pad := by
  have hout := regroup_zero ht hw hdata
  rw [convertBits]
  generalize regroup frombits tobits data 0 0 = out at hout ⊢
  obtain ⟨hlt, hlen, hdigits, hvalue, hleft⟩ := hout
  simp only [if_true]
  split
  swap
  · next hbits =>
    rw [ne_eq, not_not] at hbits
    rw [hbits] at hlen hvalue
    exact ⟨0, ht, by omega, hdigits, by simpa using hvalue⟩
  · next hbits =>
    refine ⟨tobits - out.2.2, by omega, ?_, ?_, ?_⟩
    · rw [List.length_append, List.length_singleton, Nat.mul_add, Nat.mul_one]
      omega
    · intro d hd
      rcases List.mem_append.mp hd with hd | hd
      · exact hdigits d hd
      · rw [List.mem_singleton.mp hd, Nat.and_two_pow_sub_one_eq_mod]
        exact Nat.mod_lt _ (by positivity)
    · have hpow : 2 ^ tobits = 2 ^ out.2.2 * 2 ^ (tobits - out.2.2) := by
        rw [← pow_add, Nat.add_sub_cancel' hlt.le]
      rw [numeral_concat, lastGroup hlt.le, hleft, hvalue]
      conv_rhs => rw [← Nat.div_add_mod (numeral (2 ^ frombits) data) (2 ^ out.2.2)]
      rw [hpow]
      ring

/-- Without padding, the bits left over must be fewer than a group and zero. -/
theorem convertBits_false (ht : 0 < tobits) (hw : frombits + tobits ≤ 33)
    (hdata : ∀ d ∈ data, d < 2 ^ frombits) :
    convertBits data frombits tobits false =
      if (regroup frombits tobits data 0 0).2.2 < frombits ∧
          numeral (2 ^ frombits) data % 2 ^ (regroup frombits tobits data 0 0).2.2 = 0 then
        (regroup frombits tobits data 0 0).1
      else [] := by
  have hout := regroup_zero ht hw hdata
  rw [convertBits]
  generalize regroup frombits tobits data 0 0 = out at hout ⊢
  rw [lastGroup hout.left_lt.le, hout.left_eq]
  simp only [Bool.false_eq_true, if_false, Bool.or_eq_true, decide_eq_true_eq, ne_eq, mul_eq_zero,
    Nat.pow_eq_zero, OfNat.ofNat_ne_zero, false_and, or_false]
  split_ifs with h1 h2 h2
  · omega
  · rfl
  · rfl
  · omega

/-! ## `utiladdress.cpp` -/

/-- The bytes of a hash as numbers. -/
def byteValues (program : Uint256) : List Nat := program.bytes.map UInt8.toNat

@[simp] theorem length_byteValues (program : Uint256) : (byteValues program).length = 32 := by
  rw [byteValues, List.length_map, Uint256.length_bytes]

theorem byteValues_lt {bs : Bytes} {d : Nat} (hd : d ∈ bs.map UInt8.toNat) : d < 2 ^ 8 := by
  obtain ⟨b, -, rfl⟩ := List.mem_map.mp hd
  exact b.toNat_lt

theorem map_toNat_ofNat {l : List Nat} (hl : ∀ d ∈ l, d < 2 ^ 8) :
    (l.map UInt8.ofNat).map UInt8.toNat = l := by
  rw [List.map_map]
  conv_rhs => rw [← List.map_id l]
  apply List.map_congr_left
  intro d hd
  exact UInt8.toNat_ofNat_of_lt' (hl d hd)

theorem map_ofNat_toNat (bs : Bytes) : (bs.map UInt8.toNat).map UInt8.ofNat = bs := by
  rw [List.map_map]
  conv_rhs => rw [← List.map_id bs]
  exact List.map_congr_left fun b _ => UInt8.ofNat_toNat

/-- The symbols of a program, after its version. -/
def programSymbols (program : Uint256) : List Nat := convertBits (byteValues program) 8 5 true

/-- A program of 32 bytes takes 52 symbols, with four bits of padding. -/
theorem padded_programSymbols (program : Uint256) :
    Padded 8 5 (byteValues program) (programSymbols program) 4 ∧
      (programSymbols program).length = 52 := by
  obtain ⟨pad, h⟩ := padded_convertBits (by decide : 0 < 5) (by decide : 8 + 5 ≤ 33)
    (fun d hd => byteValues_lt hd : ∀ d ∈ byteValues program, d < 2 ^ 8)
  have hlen := h.length_eq
  have hlt := h.pad_lt
  rw [length_byteValues] at hlen
  obtain rfl : pad = 4 := by omega
  exact ⟨h, by rw [programSymbols]; omega⟩

/-- Symbols convert to a program exactly if they are the symbols of that program. -/
theorem convertBits_eq_program {symbols : List Nat} (hsym : ∀ d ∈ symbols, d < 32)
    (program : Uint256) :
    (convertBits symbols 5 8 false).map UInt8.ofNat = program.bytes ↔
      symbols = programSymbols program := by
  obtain ⟨hpad, hcount⟩ := padded_programSymbols program
  have hout := regroup_zero (by decide : 0 < 8) (by decide : 5 + 8 ≤ 33) hsym
  have hlen := hout.length_eq
  have hlt := hout.left_lt
  rw [convertBits_false (by decide) (by decide) hsym]
  constructor
  · intro h
    have hbytes := congrArg List.length h
    rw [List.length_map, Uint256.length_bytes] at hbytes
    split_ifs at h hbytes with hfit
    · have h52 : symbols.length = 52 := by omega
      have h4 : (regroup 5 8 symbols 0 0).2.2 = 4 := by omega
      have hvalues : (regroup 5 8 symbols 0 0).1 = byteValues program := by
        rw [byteValues, ← h, map_toNat_ofNat hout.digits]
      have hvalue := hout.value_eq
      rw [hvalues, h4] at hvalue
      rw [h4] at hfit
      refine numeral_injective (by decide) (h52.trans hcount.symm) hsym hpad.digits ?_
      show numeral (2 ^ 5) symbols = numeral (2 ^ 5) (programSymbols program)
      rw [hpad.value_eq, hvalue]
      exact (Nat.div_mul_cancel (Nat.dvd_of_mod_eq_zero hfit.2)).symm
  · rintro rfl
    rw [hcount] at hlen
    have h4 : (regroup 5 8 (programSymbols program) 0 0).2.2 = 4 := by omega
    have hvalue := hout.value_eq
    have hnum : numeral (2 ^ 5) (programSymbols program) =
        numeral (2 ^ 8) (byteValues program) * 2 ^ 4 := hpad.value_eq
    rw [h4, hnum, Nat.mul_div_cancel _ (by decide)] at hvalue
    rw [if_pos]
    · have hgroups : (regroup 5 8 (programSymbols program) 0 0).1 = byteValues program :=
        numeral_injective (by decide) (by rw [length_byteValues]; omega) hout.digits
          (fun d hd => byteValues_lt hd) hvalue
      rw [hgroups, byteValues, map_ofNat_toNat]
    · rw [h4, hnum]
      exact ⟨by decide, Nat.mul_mod_left _ _⟩

/-- A destination is read from the strings that are its bech32m encoding in lower case. -/
theorem decodeDestination_eq_decode {str : Bytes} {program : Uint256} :
    decodeDestination str hrp = some program ↔
      decode str = ⟨.BECH32M, hrp, 1 :: programSymbols program⟩ := by
  have hsplit : ∀ d : DecodeResult, d = ⟨d.encoding, d.hrp, d.data⟩ := fun _ => rfl
  rw [decodeDestination]
  constructor
  · intro h
    dsimp only at h
    split_ifs at h with hdec
    rw [Bool.and_eq_true, decide_eq_true_eq, decide_eq_true_eq] at hdec
    cases hdata : (decode str).data with
    | nil =>
      rw [hdata] at h
      cases h
    | cons version rest =>
      rw [hdata] at h
      dsimp only at h
      split_ifs at h with hversion hlen
      have hstr : decode str = ⟨.BECH32M, hrp, version :: rest⟩ := by
        rw [hsplit (decode str), hdec.1, hdec.2, hdata]
      have hrest : ∀ d ∈ rest, d < 32 := fun d hd =>
        (decode_eq_bech32m.mp hstr).2.2.2.1 d (List.mem_cons_of_mem _ hd)
      have hbytes := congrArg Uint256.bytes (Option.some.inj h)
      rw [hstr, hversion, (convertBits_eq_program hrest program).mp hbytes]
  · intro h
    have hsym : ∀ d ∈ programSymbols program, d < 32 := (padded_programSymbols program).1.digits
    have hbytes := (convertBits_eq_program hsym program).mpr rfl
    rw [h]
    simp only [decide_true, Bool.and_self, if_true]
    rw [dif_pos (by rw [hbytes, Uint256.length_bytes])]
    exact congrArg some (Uint256.ext hbytes)

theorem encodeDestination_eq (program : Uint256) (hrp : Bytes) :
    encodeDestination program hrp = encode .BECH32M hrp (1 :: programSymbols program) := rfl

/-- A string decodes to a program exactly if, up to case, it is the encoding of that program. -/
theorem decodeDestination_eq_some {str : Bytes} {program : Uint256} :
    decodeDestination str hrp = some program ↔
      WellFormed str ∧ hrp ≠ [] ∧ hrp.map lowerCase = hrp ∧
        str.map lowerCase = encodeDestination program hrp := by
  have hsym : ∀ d ∈ 1 :: programSymbols program, d < 32 :=
    List.forall_mem_cons.mpr ⟨by decide, (padded_programSymbols program).1.digits⟩
  rw [decodeDestination_eq_decode, decode_eq_bech32m, encodeDestination_eq]
  constructor
  · rintro ⟨hwf, hne, hlow, -, hstr⟩
    exact ⟨hwf, hne, hlow, hstr⟩
  · rintro ⟨hwf, hne, hlow, hstr⟩
    exact ⟨hwf, hne, hlow, hsym, hstr⟩

/-- A prefix that can stand in an address of 60 more characters. -/
structure AddressPrefix (hrp : Bytes) : Prop where
  ne_nil : hrp ≠ []
  printable : ∀ c ∈ hrp, 33 ≤ c ∧ c ≤ 126
  lower : ∀ c ∈ hrp, isUpper c = false
  length_le : hrp.length ≤ 30

theorem charset_printable {v : Nat} (hv : v < 32) :
    33 ≤ CHARSET.getD v 0 ∧ CHARSET.getD v 0 ≤ 126 ∧ isUpper (CHARSET.getD v 0) = false := by
  have hall : ∀ v < 32, 33 ≤ CHARSET.getD v 0 ∧ CHARSET.getD v 0 ≤ 126 ∧
      isUpper (CHARSET.getD v 0) = false := by decide +kernel
  exact hall v hv

/-- An encoding is a well-formed string in lower case. -/
theorem wellFormed_encode (hprint : ∀ c ∈ hrp, 33 ≤ c ∧ c ≤ 126)
    (hlow : ∀ c ∈ hrp, isUpper c = false) (hdata : ∀ v ∈ data, v < 32)
    (hlen : hrp.length + data.length ≤ 83) :
    WellFormed (encode .BECH32M hrp data) ∧
      (∀ c ∈ encode .BECH32M hrp data, isUpper c = false) := by
  have hsym : ∀ c ∈ (data ++ createChecksum .BECH32M hrp data).map fun c => CHARSET.getD c 0,
      33 ≤ c ∧ c ≤ 126 ∧ isUpper c = false := by
    intro c hc
    obtain ⟨v, hv, rfl⟩ := List.mem_map.mp hc
    rcases List.mem_append.mp hv with hv | hv
    · exact charset_printable (hdata v hv)
    · exact charset_printable (createChecksum_lt hv)
  have hchars : ∀ c ∈ encode .BECH32M hrp data, 33 ≤ c ∧ c ≤ 126 ∧ isUpper c = false := by
    rw [encode_eq (map_lowerCase_eq_self.mpr hlow)]
    intro c hc
    rcases List.mem_append.mp hc with hc | hc
    · rcases List.mem_append.mp hc with hc | hc
      · exact ⟨(hprint c hc).1, (hprint c hc).2, hlow c hc⟩
      · rw [List.mem_singleton.mp hc]
        decide
    · exact hsym c hc
  have hupper := fun c hc => (hchars c hc).2.2
  refine ⟨⟨fun c hc => ⟨(hchars c hc).1, (hchars c hc).2.1⟩, .inl hupper, ?_⟩, hupper⟩
  rw [encode_eq (map_lowerCase_eq_self.mpr hlow), List.length_append, List.length_append,
    List.length_map, List.length_append, length_createChecksum, List.length_singleton]
  omega

/-- The prefixes under which every program's address is read back. -/
theorem read_back_iff (hrp : Bytes) :
    (∀ program, decodeDestination (encodeDestination program hrp) hrp = some program) ↔
      AddressPrefix hrp := by
  have hlen : ∀ program, (1 :: programSymbols program).length = 53 := by
    intro program
    rw [List.length_cons, (padded_programSymbols program).2]
  constructor
  · intro h
    obtain ⟨hwf, hne, hlow, -⟩ := decodeDestination_eq_some.mp (h Uint256.null)
    rw [encodeDestination_eq, encode_eq hlow] at hwf
    have hprint := hwf.printable
    have hle := hwf.length_le
    rw [List.length_append, List.length_append, List.length_map, List.length_append,
      length_createChecksum, List.length_singleton, hlen] at hle
    refine ⟨hne, ?_, map_lowerCase_eq_self.mp hlow, by omega⟩
    intro c hc
    exact hprint c (List.mem_append_left _ (List.mem_append_left _ hc))
  · intro hpre program
    have hsym : ∀ d ∈ 1 :: programSymbols program, d < 32 :=
      List.forall_mem_cons.mpr ⟨by decide, (padded_programSymbols program).1.digits⟩
    have hroom : hrp.length + (1 :: programSymbols program).length ≤ 83 := by
      rw [hlen]
      have := hpre.length_le
      omega
    obtain ⟨hwf, hupper⟩ := wellFormed_encode hpre.printable hpre.lower hsym hroom
    exact decodeDestination_eq_some.mpr
      ⟨hwf, hpre.ne_nil, map_lowerCase_eq_self.mpr hpre.lower, map_lowerCase_eq_self.mpr hupper⟩

/-- Addresses are read back under the prefixes `bech32` admits, and every accepted string is
    in lower case the address of its program: a program has one lower-case address. -/
theorem destination_codec (hrp : Bytes) :
    ((∀ program, decodeDestination (encodeDestination program hrp) hrp = some program) ↔
      AddressPrefix hrp) ∧
    ∀ str program, decodeDestination str hrp = some program →
      encodeDestination program hrp = str.map lowerCase ∧
      ∀ str', decodeDestination str' hrp = some program → str.map lowerCase = str →
        str'.map lowerCase = str' → str = str' := by
  refine ⟨read_back_iff hrp, ?_⟩
  intro str program h
  obtain ⟨-, -, -, hstr⟩ := decodeDestination_eq_some.mp h
  refine ⟨hstr.symm, ?_⟩
  intro str' h' hlow hlow'
  obtain ⟨-, -, -, hstr'⟩ := decodeDestination_eq_some.mp h'
  rw [← hlow, ← hlow', hstr, hstr']

/-- A program under the prefix of mainnet. -/
theorem destination_codec_sq :
    AddressPrefix (ascii "sq") ∧
      decodeDestination (encodeDestination (Uint256.fill 7) (ascii "sq")) (ascii "sq") =
        some (Uint256.fill 7) ∧
      encodeDestination (Uint256.fill 7) (ascii "sq") =
        (encodeDestination (Uint256.fill 7) (ascii "sq")).map lowerCase := by
  have hpre : AddressPrefix (ascii "sq") :=
    ⟨by decide, by decide +kernel, by decide +kernel, by decide⟩
  have hread := (destination_codec (ascii "sq")).1.mpr hpre (Uint256.fill 7)
  exact ⟨hpre, hread, ((destination_codec (ascii "sq")).2 _ _ hread).1⟩

/-- Under an empty prefix, or one with a space in it, no address is read back. -/
theorem odd_prefixes_not_read :
    ((ascii "s q").map lowerCase = ascii "s q" ∧
      (encodeDestination (Uint256.fill 7) (ascii "s q")).length ≤ 90 ∧
      decodeDestination (encodeDestination (Uint256.fill 7) (ascii "s q")) (ascii "s q") = none) ∧
    ((encodeDestination (Uint256.fill 7) []).length ≤ 90 ∧
      decodeDestination (encodeDestination (Uint256.fill 7) []) [] = none) := by
  decide +kernel

end Soqucoin.Address
