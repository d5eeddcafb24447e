import Soqucoin.Primitives

/-! # Address — bech32m strings and what they pay to

`bech32.cpp`, the destinations of `utiladdress.cpp` and the addresses of the wallet library
(`PQAddress` in `wallet/pqwallet/pqwallet.cpp`).  Characters are bytes; the symbols of five bits
are numbers. -/

namespace Soqucoin.Address

/-! ## `bech32.cpp` -/

/-- The encoding a checksum belongs to. -/
inductive Encoding where
  | INVALID
  | BECH32
  | BECH32M
deriving DecidableEq

/-- The character of each five-bit symbol. -/
def CHARSET : Bytes := ascii "qpzry9x8gf2tvdw0s3jn54khce6mua7l"

/-- `none` stands for -1. -/
def CHARSET_REV : List (Option Nat) :=
  List.replicate 48 none ++
  [some 15, none, some 10, some 17, some 21, some 20, some 26, some 30, some 7, some 5,
   none, none, none, none, none, none,
   none, some 29, none, some 24, some 13, some 25, some 9, some 8, some 23, none, some 18, some 22,
   some 31, some 27, some 19, none,
   some 1, some 0, some 3, some 16, some 11, some 28, some 12, some 14, some 6, some 4, some 2,
   none, none, none, none, none,
   none, some 29, none, some 24, some 13, some 25, some 9, some 8, some 23, none, some 18, some 22,
   some 31, some 27, some 19, none,
   some 1, some 0, some 3, some 16, some 11, some 28, some 12, some 14, some 6, some 4, some 2,
   none, none, none, none, none]

/-- What the checksum polynomial leaves for a string of the encoding. -/
def encodingConstant : Encoding → Nat
  | .BECH32 => 1
  | .BECH32M => 0x2bc830a3
  | .INVALID => 0

/-- One symbol of `PolyMod`, over the generator of the code. -/
def polyModStep (c v : Nat) : Nat :=
  let c0 := c >>> 25
  let c := ((c &&& 0x1ffffff) <<< 5) ^^^ v
  let c := if c0.testBit 0 then c ^^^ 0x3b6a57b2 else c
  let c := if c0.testBit 1 then c ^^^ 0x26508e6d else c
  let c := if c0.testBit 2 then c ^^^ 0x1ea119fa else c
  let c := if c0.testBit 3 then c ^^^ 0x3d4233dd else c
  if c0.testBit 4 then c ^^^ 0x2a1462b3 else c

/-- `PolyMod`: the remainder of the symbols modulo the generator. -/
def polyMod (v : List Nat) : Nat := v.foldl polyModStep 1

/-- `LowerCase`, of an ASCII character. -/
def lowerCase (c : UInt8) : UInt8 := if 65 ≤ c && c ≤ 90 then c - 65 + 97 else c

/-- `ExpandHRP`: the high bits, a zero, and the low bits of the characters. -/
def expandHRP (hrp : Bytes) : List Nat :=
  hrp.map (fun c => c.toNat >>> 5) ++ [0] ++ hrp.map (fun c => c.toNat &&& 31)

/-- `VerifyChecksum`: the encoding for which the checksum is right. -/
def verifyChecksum (hrp : Bytes) (values : List Nat) : Encoding :=
  let res := polyMod (expandHRP hrp ++ values)
  if res = encodingConstant .BECH32 then .BECH32
  else if res = encodingConstant .BECH32M then .BECH32M
  else .INVALID

/-- `CreateChecksum`: the six symbols that make the checksum right. -/
def createChecksum (encoding : Encoding) (hrp : Bytes) (values : List Nat) : List Nat :=
  let mod := polyMod (expandHRP hrp ++ values ++ List.replicate 6 0) ^^^ encodingConstant encoding
  (List.range 6).map fun i => (mod >>> (5 * (5 - i))) &&& 31

/-- `Encode`: prefix, separator, symbols and checksum. -/
def encode (encoding : Encoding) (hrp : Bytes) (values : List Nat) : Bytes :=
  let lowerHrp := hrp.map lowerCase
  let combined := values ++ createChecksum encoding lowerHrp values
  lowerHrp ++ ascii "1" ++ combined.map fun c => CHARSET.getD c 0

/-- What `Decode` returns; an invalid string has no prefix and no symbols. -/
structure DecodeResult where
  encoding : Encoding
  hrp : Bytes
  data : List Nat
deriving DecidableEq

/-- The result for every string that is refused. -/
def DecodeResult.invalid : DecodeResult := ⟨.INVALID, [], []⟩

def isLower (c : UInt8) : Bool := 97 ≤ c && c ≤ 122

def isUpper (c : UInt8) : Bool := 65 ≤ c && c ≤ 90

/-- `str.rfind('1')`. -/
def rfindSeparator (str : Bytes) : Option Nat :=
  (str.reverse.findIdx? (· = 49)).map fun i => str.length - 1 - i

/-- `Decode`: the prefix and the symbols without their checksum. -/
def decode (str : Bytes) : DecodeResult :=
  if str.any (fun c => !isLower c && !isUpper c && (c < 33 || c > 126)) then .invalid
  else if str.any isLower && str.any isUpper then .invalid
  else
    match rfindSeparator str with
    | none => .invalid
    | some pos =>
      if str.length > 90 || pos = 0 || pos + 7 > str.length then .invalid
      else
        match (str.drop (pos + 1)).mapM fun c => CHARSET_REV.getD c.toNat none with
        | none => .invalid
        | some values =>
          let hrp := (str.take pos).map lowerCase
          match verifyChecksum hrp values with
          | .INVALID => .invalid
          | result => ⟨result, hrp, values.take (values.length - 6)⟩

/-! ## Regrouping bits -/

/-- `while (bits >= tobits)`: the groups handed out, and the bits left over. -/
def emitGroups (tobits acc : Nat) : Nat → Nat → List Nat × Nat
  | 0, bits => ([], bits)
  | fuel + 1, bits =>
    if bits ≥ tobits then
      let rest := emitGroups tobits acc fuel (bits - tobits)
      (((acc >>> (bits - tobits)) &&& (2 ^ tobits - 1)) :: rest.1, rest.2)
    else ([], bits)

/-- The groups handed out, `acc` and `bits` after all of `data`.  `acc` is a 32-bit
    word, of which only low bits are read. -/
def regroup (frombits tobits : Nat) : List Nat → Nat → Nat → List Nat × Nat × Nat
  | [], acc, bits => ([], acc, bits)
  | value :: data, acc, bits =>
    let acc := (acc <<< frombits ||| value) % 2 ^ 32
    let out := emitGroups tobits acc (bits + frombits) (bits + frombits)
    let rest := regroup frombits tobits data acc out.2
    (out.1 ++ rest.1, rest.2)

/-- `ConvertBits`: groups of one size into groups of another. -/
def convertBits (data : List Nat) (frombits tobits : Nat) (pad : Bool) : List Nat :=
  let out := regroup frombits tobits data 0 0
  let acc := out.2.1
  let bits := out.2.2
  let last := (acc <<< (tobits - bits)) &&& (2 ^ tobits - 1)
  if pad then if bits ≠ 0 then out.1 ++ [last] else out.1
  else if bits ≥ frombits || last ≠ 0 then []
  else out.1

/-! ## `utiladdress.cpp` -/

/-- `EncodeDestination`, for a witness-v1 program. -/
def encodeDestination (program : Uint256) (hrp : Bytes) : Bytes :=
  encode .BECH32M hrp (1 :: convertBits (program.bytes.map UInt8.toNat) 8 5 true)

/-- `DecodeDestination`: the witness-v1 program, or `none` for `CNoDestination`. -/
def decodeDestination (str hrp : Bytes) : Option Uint256 :=
  let dec := decode str
  if dec.encoding = .BECH32M && dec.hrp = hrp then
    match dec.data with
    | [] => none
    | version :: rest =>
      if version = 1 then
        let conv := (convertBits rest 5 8 false).map UInt8.ofNat
        if h : conv.length = 32 then some ⟨conv, h⟩ else none
      else none
  else none

/-! ## `PQAddress` -/

/-- The networks an address names by its prefix. -/
inductive Network where
  | Mainnet
  | Testnet
  | Stagenet
  | Unknown
deriving DecidableEq

/-- The kinds of post-quantum address. -/
inductive AddressType where
  | P2PQ
  | P2PQ_PAT
  | P2SH_PQ
  | Unknown
deriving DecidableEq

/-- `GetPrefix`: the prefix of a kind of address on a network. -/
def getPrefix : Network → AddressType → Bytes
  | .Mainnet, .P2PQ => ascii "sq"
  | .Mainnet, .P2PQ_PAT => ascii "sqp"
  | .Mainnet, .P2SH_PQ => ascii "sqsh"
  | .Mainnet, .Unknown => ascii "sq"
  | .Testnet, .P2PQ => ascii "tsq"
  | .Testnet, .P2PQ_PAT => ascii "tsqp"
  | .Testnet, .P2SH_PQ => ascii "tsqsh"
  | .Testnet, .Unknown => ascii "tsq"
  | .Stagenet, .P2PQ => ascii "ssq"
  | .Stagenet, .P2PQ_PAT => ascii "ssqp"
  | .Stagenet, .P2SH_PQ => ascii "ssqsh"
  | .Stagenet, .Unknown => ascii "ssq"
  | .Unknown, _ => ascii "sq"

/-- `EncodeFromHash`: the version byte and the hash are regrouped together. -/
def encodeFromHash (pubkeyHash : Uint256) (network : Network) (type : AddressType) : Bytes :=
  let data := 1 :: pubkeyHash.bytes.map UInt8.toNat
  let out := regroup 8 5 data 0 0
  let acc := out.2.1
  let bits := out.2.2
  let converted := if bits > 0 then out.1 ++ [(acc <<< (5 - bits)) &&& 0x1f] else out.1
  encode .BECH32M (getPrefix network type) converted

/-- `DetectNetwork`: by what the address starts with. -/
def detectNetwork (address : Bytes) : Network :=
  if address.take 3 = ascii "sq1" || address.take 4 = ascii "sqp1" ||
      address.take 5 = ascii "sqsh1" then .Mainnet
  else if address.take 4 = ascii "tsq1" || address.take 5 = ascii "tsqp1" ||
      address.take 6 = ascii "tsqsh1" then .Testnet
  else if address.take 4 = ascii "ssq1" || address.take 5 = ascii "ssqp1" ||
      address.take 6 = ascii "ssqsh1" then .Stagenet
  else .Unknown

/-- What decoding an address tells; all fields have the defaults of an invalid one. -/
structure AddressInfo where
  type : AddressType := .Unknown
  network : Network := .Unknown
  hash : Uint256 := Uint256.null
  valid : Bool := false
  error : Bytes := []
deriving DecidableEq

/-- The address type of a prefix; any other prefix leaves the default. -/
def typeOfHrp (hrp : Bytes) : AddressType :=
  if hrp = ascii "sq" || hrp = ascii "tsq" || hrp = ascii "ssq" then .P2PQ
  else if hrp = ascii "sqp" || hrp = ascii "tsqp" || hrp = ascii "ssqp" then .P2PQ_PAT
  else if hrp = ascii "sqsh" || hrp = ascii "tsqsh" || hrp = ascii "ssqsh" then .P2SH_PQ
  else .Unknown

/-- `PQAddress::Decode`: the version byte is skipped, and what is behind the hash is not read. -/
def PQAddress.decode (address : Bytes) : AddressInfo :=
  let decoded := Address.decode address
  if decoded.encoding ≠ .BECH32M then { error := ascii "Invalid Bech32m encoding" }
  else
    let network := detectNetwork address
    if network = .Unknown then { network := network, error := ascii "Unknown network prefix" }
    else
      let type := typeOfHrp decoded.hrp
      let data := (regroup 5 8 decoded.data 0 0).1.map UInt8.ofNat
      if data.length < 33 then
        { type := type, network := network, error := ascii "Invalid data length" }
      else { type := type, network := network, hash := Uint256.ofSlice data 1, valid := true }

end Soqucoin.Address
