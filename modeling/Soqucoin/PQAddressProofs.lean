import Soqucoin.AddressCodecProofs

/-! # PQAddressProofs — the strings the wallet library reads as addresses

`EncodeFromHash` writes 53 symbols: the version byte, the hash and one bit of padding.
`PQAddress::Decode` reads the hash behind the first byte and looks neither at that byte nor at the
bits behind the hash; of the prefix it asks only how the string starts.  `canonical_iff` says
which of the strings it accepts are addresses. -/

namespace Soqucoin.Address

open Numeral

/-! ## The symbols of a hash -/

/-- The symbols `EncodeFromHash` writes. -/
def hashSymbols (hash : Uint256) : List Nat := convertBits (1 :: byteValues hash) 8 5 true

theorem encodeFromHash_eq (hash : Uint256) (network : Network) (type : AddressType) :
    encodeFromHash hash network type =
      encode .BECH32M (getPrefix network type) (hashSymbols hash) := by
  rw [encodeFromHash, hashSymbols, convertBits, byteValues]
  simp only [Nat.pos_iff_ne_zero, if_true]
  rfl

theorem versioned_lt (hash : Uint256) : ∀ d ∈ 1 :: byteValues hash, d < 2 ^ 8 :=
  List.forall_mem_cons.mpr ⟨by decide, fun _ hd => byteValues_lt hd⟩

/-- A version and a hash take 53 symbols, with one bit of padding. -/
theorem padded_hashSymbols (hash : Uint256) :
    Padded 8 5 (1 :: byteValues hash) (hashSymbols hash) 1 ∧ (hashSymbols hash).length = 53 := by
  obtain ⟨pad, h⟩ := padded_convertBits (by decide : 0 < 5) (by decide : 8 + 5 ≤ 33)
    (versioned_lt hash)
  have hlen := h.length_eq
  have hlt := h.pad_lt
  rw [List.length_cons, length_byteValues] at hlen
  obtain rfl : pad = 1 := by omega
  exact ⟨h, by rw [hashSymbols]; omega⟩

theorem numeral_hashSymbols (hash : Uint256) :
    numeral 32 (hashSymbols hash) = 2 ^ 257 + numeral 256 (byteValues hash) * 2 := by
  have h := (padded_hashSymbols hash).1.value_eq
  rw [numeral_cons, length_byteValues] at h
  refine Eq.trans h ?_
  show (1 * (2 ^ 8) ^ 32 + numeral 256 (byteValues hash)) * 2 ^ 1 = _
  omega

theorem numeral_byteValues_lt (hash : Uint256) : numeral 256 (byteValues hash) < 2 ^ 256 := by
  have h : numeral (2 ^ 8) (byteValues hash) < (2 ^ 8) ^ (byteValues hash).length :=
    numeral_lt (by decide) fun _ hd => byteValues_lt hd
  rw [length_byteValues] at h
  exact h

variable {data : List Nat} {address hrp : Bytes}

/-- The version and the spare bit of 53 symbols. -/
theorem numeral_symbols53 (hdata : ∀ d ∈ data, d < 32) (hlen : data.length = 53) :
    numeral 32 data / 2 ^ 257 = data.getD 0 0 * 8 + data.getD 1 0 / 4 ∧
      numeral 32 data % 2 = data.getD 52 0 % 2 := by
  constructor
  · obtain ⟨a, data, rfl⟩ := List.exists_cons_of_length_eq_add_one hlen
    have h52 : data.length = 51 + 1 := by simpa using hlen
    obtain ⟨b, rest, rfl⟩ := List.exists_cons_of_length_eq_add_one h52
    have h51 : rest.length = 51 := by simpa using h52
    have hrest : numeral 32 rest < 32 ^ rest.length :=
      numeral_lt (by decide) fun d hd =>
        hdata d (List.mem_cons_of_mem _ (List.mem_cons_of_mem _ hd))
    rw [h51] at hrest
    rw [numeral_cons, numeral_cons, List.length_cons, h51, List.getD_cons_zero,
      List.getD_cons_succ, List.getD_cons_zero]
    omega
  · obtain ⟨init, last, rfl⟩ : ∃ init last, data = init ++ [last] := by
      have hne : data ≠ [] := by
        rintro rfl
        cases hlen
      exact ⟨data.dropLast, data.getLast hne, (List.dropLast_append_getLast hne).symm⟩
    have h52 : init.length = 52 := by simpa using hlen
    rw [numeral_concat, ← h52, List.getD_append_right _ _ _ _ le_rfl, Nat.sub_self,
      List.getD_cons_zero]
    omega

/-- Symbols that decode to a version and a hash, with no bits left over. -/
structure HashSymbols (data : List Nat) : Prop where
  length_eq : data.length = 53
  version : data.getD 0 0 * 8 + data.getD 1 0 / 4 = 1
  padding : data.getD 52 0 % 2 = 0

/-- The bytes of the symbols. -/
def symbolBytes (data : List Nat) : Bytes := (regroup 5 8 data 0 0).1.map UInt8.ofNat

theorem hashSymbols_hashSymbols (hash : Uint256) : HashSymbols (hashSymbols hash) := by
  obtain ⟨hpadded, hlen⟩ := padded_hashSymbols hash
  have hnum := numeral_hashSymbols hash
  have hlt := numeral_byteValues_lt hash
  obtain ⟨hversion, hpad⟩ := numeral_symbols53 hpadded.digits hlen
  exact ⟨hlen, by omega, by omega⟩

/-- Different hashes have different symbols. -/
theorem hashSymbols_injective {hash hash' : Uint256} (h : hashSymbols hash = hashSymbols hash') :
    hash = hash' := by
  have hnum := numeral_hashSymbols hash
  rw [h, numeral_hashSymbols] at hnum
  have hvalues : byteValues hash = byteValues hash' :=
    numeral_injective (by decide : 1 < 256) (by rw [length_byteValues, length_byteValues])
      (fun _ hd => byteValues_lt hd) (fun _ hd => byteValues_lt hd) (by omega)
  apply Uint256.ext
  rw [← map_ofNat_toNat hash.bytes, ← map_ofNat_toNat hash'.bytes]
  exact congrArg (List.map UInt8.ofNat) hvalues

/-- Symbols are those of a hash exactly if version and spare bit say so. -/
theorem eq_hashSymbols_iff (hdata : ∀ d ∈ data, d < 32) :
    data = hashSymbols (Uint256.ofSlice (symbolBytes data) 1) ↔ HashSymbols data := by
  constructor
  · intro h
    rw [h]
    exact hashSymbols_hashSymbols _
  · rintro ⟨hlen, hversion, hpad⟩
    obtain ⟨hv, hp⟩ := numeral_symbols53 hdata hlen
    have hout := regroup_zero (by decide : 0 < 8) (by decide : 5 + 8 ≤ 33) hdata
    have hcount := hout.length_eq
    have hleft := hout.left_lt
    rw [hlen] at hcount
    have h1 : (regroup 5 8 data 0 0).2.2 = 1 := by omega
    have h33 : (regroup 5 8 data 0 0).1.length = 33 := by omega
    have hvalue := hout.value_eq
    rw [h1] at hvalue
    obtain ⟨version, hash, hbytes⟩ := List.exists_cons_of_length_eq_add_one h33
    have h32 : hash.length = 32 := by
      rw [hbytes] at h33
      simpa using h33
    have hdig := hout.digits
    rw [hbytes] at hdig hvalue
    obtain ⟨-, hdig⟩ := List.forall_mem_cons.mp hdig
    have hread : byteValues (Uint256.ofSlice (symbolBytes data) 1) = hash := by
      have hslice : ((symbolBytes data).drop 1).take 32 = hash.map UInt8.ofNat := by
        rw [symbolBytes, hbytes, List.map_cons, List.drop_succ_cons, List.drop_zero,
          List.take_of_length_le (by rw [List.length_map, h32])]
      rw [byteValues, Uint256.ofSlice, dif_pos (by rw [hslice, List.length_map, h32])]
      show (((symbolBytes data).drop 1).take 32).map UInt8.toNat = hash
      rw [hslice, map_toNat_ofNat hdig]
    have hnum := numeral_hashSymbols (Uint256.ofSlice (symbolBytes data) 1)
    have hlt : numeral (2 ^ 8) hash < (2 ^ 8) ^ hash.length := numeral_lt (by decide) hdig
    rw [hread] at hnum
    rw [numeral_cons, h32] at hvalue
    rw [h32] at hlt
    have h32' : numeral (2 ^ 5) data = numeral 32 data := rfl
    have h256' : numeral (2 ^ 8) hash = numeral 256 hash := rfl
    rw [h32', h256'] at hvalue
    rw [h256'] at hlt
    refine numeral_injective (by decide) (hlen.trans (padded_hashSymbols _).2.symm) hdata
      (padded_hashSymbols _).1.digits ?_
    rw [hnum]
    omega

/-! ## Prefixes -/

/-- The prefixes of all kinds of address on all networks. -/
def prefixes : List Bytes :=
  [ascii "sq", ascii "sqp", ascii "sqsh", ascii "tsq", ascii "tsqp", ascii "tsqsh",
   ascii "ssq", ascii "ssqp", ascii "ssqsh"]

theorem getPrefix_mem (network : Network) (type : AddressType) :
    getPrefix network type ∈ prefixes := by
  cases network <;> cases type <;> decide

theorem addressPrefix_of_mem (h : hrp ∈ prefixes) : AddressPrefix hrp := by
  have hall : ∀ hrp ∈ prefixes, hrp ≠ [] ∧ (∀ c ∈ hrp, 33 ≤ c ∧ c ≤ 126) ∧
      (∀ c ∈ hrp, isUpper c = false) ∧ hrp.length ≤ 30 := by decide +kernel
  obtain ⟨hne, hprint, hlow, hlen⟩ := hall hrp h
  exact ⟨hne, hprint, hlow, hlen⟩

/-- The network of a prefix. -/
def networkOfHrp (hrp : Bytes) : Network := detectNetwork (hrp ++ [49])

theorem detectNetwork_append (h : hrp ∈ prefixes) (rest : Bytes) :
    detectNetwork (hrp ++ [49] ++ rest) = networkOfHrp hrp := by
  fin_cases h <;> rfl

theorem getPrefix_network_type (h : hrp ∈ prefixes) :
    getPrefix (networkOfHrp hrp) (typeOfHrp hrp) = hrp := by
  have hall : ∀ hrp ∈ prefixes, getPrefix (networkOfHrp hrp) (typeOfHrp hrp) = hrp := by
    decide +kernel
  exact hall hrp h

/-- A known prefix has a letter in lower case. -/
theorem isLower_of_detectNetwork (h : detectNetwork address ≠ .Unknown) :
    ∃ c ∈ address, isLower c := by
  cases address with
  | nil => exact absurd rfl h
  | cons c rest =>
    refine ⟨c, List.mem_cons_self, ?_⟩
    by_contra hc
    have hs : ∀ d : UInt8, isLower d = true → c ≠ d := by
      rintro d hd rfl
      exact hc hd
    have htake : ∀ n (pre : Bytes) (d : UInt8), pre.head? = some d → isLower d = true →
        (c :: rest).take (n + 1) ≠ pre := by
      intro n pre d hpre hd heq
      have hhead := congrArg List.head? heq
      rw [List.take_succ_cons, List.head?_cons, hpre] at hhead
      exact hs d hd (Option.some.inj hhead)
    apply h
    rw [detectNetwork]
    simp only [htake 2 (ascii "sq1") 115 rfl rfl, htake 3 (ascii "sqp1") 115 rfl rfl,
      htake 4 (ascii "sqsh1") 115 rfl rfl, htake 3 (ascii "tsq1") 116 rfl rfl,
      htake 4 (ascii "tsqp1") 116 rfl rfl, htake 5 (ascii "tsqsh1") 116 rfl rfl,
      htake 3 (ascii "ssq1") 115 rfl rfl, htake 4 (ascii "ssqp1") 115 rfl rfl,
      htake 5 (ascii "ssqsh1") 115 rfl rfl, decide_false, Bool.or_self, Bool.false_eq_true,
      if_false]

/-! ## `PQAddress::Decode` -/

/-- What an accepted string reads as. -/
structure Accepted (address hrp : Bytes) (data : List Nat) : Prop where
  decoded : Address.decode address = ⟨.BECH32M, hrp, data⟩
  known : detectNetwork address ≠ .Unknown
  long : 33 ≤ (symbolBytes data).length
  info : PQAddress.decode address =
    { type := typeOfHrp hrp, network := detectNetwork address,
      hash := Uint256.ofSlice (symbolBytes data) 1, valid := true }

theorem accepted_of_parts (hdec : Address.decode address = ⟨.BECH32M, hrp, data⟩)
    (hknown : detectNetwork address ≠ .Unknown) (hlong : 33 ≤ (symbolBytes data).length) :
    Accepted address hrp data := by
  refine ⟨hdec, hknown, hlong, ?_⟩
  rw [PQAddress.decode, hdec]
  dsimp only
  rw [if_neg (not_not.mpr rfl), if_neg hknown]
  exact if_neg (not_lt.mpr hlong)

theorem accepted_of_valid (h : (PQAddress.decode address).valid) :
    Accepted address (Address.decode address).hrp (Address.decode address).data := by
  rw [PQAddress.decode] at h
  dsimp only at h
  split_ifs at h with henc hknown hlong
  refine accepted_of_parts ?_ hknown (not_lt.mp hlong)
  rw [← not_not.mp henc]

/-- An accepted string is the encoding of its parts. -/
theorem Accepted.eq_encode (h : Accepted address hrp data) :
    address = encode .BECH32M hrp data := by
  obtain ⟨hwf, -, -, -, hstr⟩ := decode_eq_bech32m.mp h.decoded
  obtain ⟨c, hc, hlow⟩ := isLower_of_detectNetwork h.known
  have hupper : ∀ c ∈ address, isUpper c = false := by
    rcases hwf.oneCase with h | h
    · exact h
    · rw [h c hc] at hlow
      cases hlow
  rw [← hstr, map_lowerCase_eq_self.mpr hupper]

/-- It is the encoding of no other parts. -/
theorem Accepted.parts_eq {hrp' : Bytes} {data' : List Nat} (h : Accepted address hrp data)
    (hpre : AddressPrefix hrp') (hdata : ∀ d ∈ data', d < 32)
    (henc : encode .BECH32M hrp' data' = address.map lowerCase) : hrp = hrp' ∧ data = data' := by
  have hwf := (decode_eq_bech32m.mp h.decoded).1
  have hdec := decode_eq_bech32m.mpr
    ⟨hwf, hpre.ne_nil, map_lowerCase_eq_self.mpr hpre.lower, hdata, henc.symm⟩
  rw [h.decoded, DecodeResult.mk.injEq] at hdec
  exact hdec.2

theorem Accepted.network_eq (h : Accepted address hrp data) (hpre : hrp ∈ prefixes) :
    detectNetwork address = networkOfHrp hrp := by
  rw [h.eq_encode, encode_eq (map_lowerCase_eq_self.mpr (addressPrefix_of_mem hpre).lower),
    detectNetwork_append hpre]

/-- An accepted string is the address of what was read from it if its prefix is one of the
    nine and its symbols are a version byte 1, a hash and a zero bit. -/
theorem Accepted.canonical_iff (h : Accepted address hrp data) :
    encodeFromHash (PQAddress.decode address).hash (PQAddress.decode address).network
        (PQAddress.decode address).type = address.map lowerCase ↔
      hrp ∈ prefixes ∧ HashSymbols data := by
  obtain ⟨-, -, -, hdata, hstr⟩ := decode_eq_bech32m.mp h.decoded
  rw [h.info, ← eq_hashSymbols_iff hdata, encodeFromHash_eq]
  dsimp only
  constructor
  · intro henc
    have hmem := getPrefix_mem (detectNetwork address) (typeOfHrp hrp)
    obtain ⟨hhrp, hsym⟩ := h.parts_eq (addressPrefix_of_mem hmem)
      (padded_hashSymbols _).1.digits henc
    rw [← hhrp] at hmem
    exact ⟨hmem, hsym⟩
  · rintro ⟨hmem, hsym⟩
    rw [h.network_eq hmem, getPrefix_network_type hmem, ← hsym, hstr]

/-- What is encoded is decoded. -/
theorem decode_encode (hpre : AddressPrefix hrp) (hdata : ∀ d ∈ data, d < 32)
    (hlen : data.length ≤ 53) :
    Address.decode (encode .BECH32M hrp data) = ⟨.BECH32M, hrp, data⟩ := by
  have hroom := hpre.length_le
  obtain ⟨hwf, hupper⟩ := wellFormed_encode hpre.printable hpre.lower hdata (by omega)
  exact decode_eq_bech32m.mpr
    ⟨hwf, hpre.ne_nil, map_lowerCase_eq_self.mpr hpre.lower, hdata,
      map_lowerCase_eq_self.mpr hupper⟩

/-- What is encoded is accepted. -/
theorem accepted_encodeFromHash (hash : Uint256) (network : Network) (type : AddressType) :
    Accepted (encodeFromHash hash network type) (getPrefix network type) (hashSymbols hash) := by
  have hmem := getPrefix_mem network type
  obtain ⟨hpadded, hlen⟩ := padded_hashSymbols hash
  rw [encodeFromHash_eq]
  refine accepted_of_parts (decode_encode (addressPrefix_of_mem hmem) hpadded.digits hlen.le) ?_ ?_
  · have hknown : ∀ hrp ∈ prefixes, networkOfHrp hrp ≠ .Unknown := by decide +kernel
    rw [encode_eq (map_lowerCase_eq_self.mpr (addressPrefix_of_mem hmem).lower),
      detectNetwork_append hmem]
    exact hknown _ hmem
  · have hout := regroup_zero (by decide : 0 < 8) (by decide : 5 + 8 ≤ 33) hpadded.digits
    have hcount := hout.length_eq
    have hleft := hout.left_lt
    rw [hlen] at hcount
    rw [symbolBytes, List.length_map]
    omega

/-- What an encoded address reads as: the prefix of an unknown network is that of the main
    network, and the prefix of an unknown type that of `P2PQ`. -/
theorem decode_encodeFromHash (hash : Uint256) (network : Network) (type : AddressType) :
    PQAddress.decode (encodeFromHash hash network type) =
      { type := typeOfHrp (getPrefix network type),
        network := networkOfHrp (getPrefix network type), hash := hash, valid := true } := by
  have h := accepted_encodeFromHash hash network type
  have hhash : hash = Uint256.ofSlice (symbolBytes (hashSymbols hash)) 1 :=
    hashSymbols_injective
      ((eq_hashSymbols_iff (padded_hashSymbols hash).1.digits).mpr (hashSymbols_hashSymbols hash))
  rw [h.info, h.network_eq (getPrefix_mem network type), ← hhash]

/-- Which accepted strings are the address of what is read from them, and which encoded
    addresses read back as what they were made from. -/
theorem decode_canonical_iff (address : Bytes) (hash : Uint256) (network : Network)
    (type : AddressType) :
    ((PQAddress.decode address).valid = true →
      (encodeFromHash (PQAddress.decode address).hash (PQAddress.decode address).network
          (PQAddress.decode address).type = address.map lowerCase ↔
        (Address.decode address).hrp ∈ prefixes ∧ HashSymbols (Address.decode address).data)) ∧
    (PQAddress.decode (encodeFromHash hash network type) =
        { type := type, network := network, hash := hash, valid := true } ↔
      network ≠ .Unknown ∧ type ≠ .Unknown) := by
  refine ⟨fun h => (accepted_of_valid h).canonical_iff, ?_⟩
  rw [decode_encodeFromHash]
  simp only [AddressInfo.mk.injEq, and_true]
  cases network <;> cases type <;> decide +kernel

/-- An address of mainnet. -/
theorem decode_canonical_sq :
    (PQAddress.decode (encodeFromHash (Uint256.fill 7) .Mainnet .P2PQ)).valid = true ∧
      ((Address.decode (encodeFromHash (Uint256.fill 7) .Mainnet .P2PQ)).hrp ∈ prefixes ∧
        HashSymbols (Address.decode (encodeFromHash (Uint256.fill 7) .Mainnet .P2PQ)).data) := by
  have hread := (decode_canonical_iff [] (Uint256.fill 7) .Mainnet .P2PQ).2.mpr
    ⟨by decide, by decide⟩
  have hvalid : (PQAddress.decode (encodeFromHash (Uint256.fill 7) .Mainnet .P2PQ)).valid :=
    congrArg AddressInfo.valid hread
  refine ⟨hvalid, ((decode_canonical_iff _ (Uint256.fill 7) .Mainnet .P2PQ).1 hvalid).mp ?_⟩
  rw [hread]
  decide +kernel

/-- The string of a hash on the main network under another version byte. -/
def versionedAddress (version : Nat) (hash : Uint256) : Bytes :=
  encode .BECH32M (ascii "sq") (convertBits (version :: byteValues hash) 8 5 true)

/-- Version 2 is accepted, and the address of what is read has version 1. -/
theorem other_version_accepted :
    PQAddress.decode (versionedAddress 2 (Uint256.fill 7)) =
        { type := .P2PQ, network := .Mainnet, hash := Uint256.fill 7, valid := true } ∧
      encodeFromHash (Uint256.fill 7) .Mainnet .P2PQ ≠
        (versionedAddress 2 (Uint256.fill 7)).map lowerCase := by
  decide +kernel

end Soqucoin.Address
