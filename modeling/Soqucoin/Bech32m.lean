import Mathlib.Data.List.Basic
import Mathlib.Data.String.Basic
import Mathlib.Tactic

/-! # Bech32m — decoding witness-v1 addresses

`bech32m.py` of `contrib/genesis-migration`: an address is a prefix, a separator and data
characters of five bits each, the last six of which are a checksum.  `decode_v1_address` accepts a
32-byte program of version 1 and nothing else. -/

namespace Soqucoin.Snapshot

/-- The methods of Python's `str` the tool calls.  On ASCII they are the usual
    ones (`StrMethods.ascii`); outside it nothing is assumed of them. -/
structure StrMethods where
  strip : String → String
  isupper : String → Bool
  lower : String → String
  upper : String → String

/-- The character of each five-bit symbol. -/
def CHARSET : List Char := "qpzry9x8gf2tvdw0s3jn54khce6mua7l".toList

/-- What the polynomial leaves for a right checksum. -/
def BECH32M_CONST : Nat := 0x2BC830A3

/-- The generator of the code, for each of the five top bits. -/
def generator : List Nat := [0x3B6A57B2, 0x26508E6D, 0x1EA119FA, 0x3D4233DD, 0x2A1462B3]

/-- One symbol of `bech32_polymod`. -/
def polymodStep (chk value : Nat) : Nat :=
  let top := chk >>> 25
  (List.range 5).foldl (fun c i => c ^^^ (if (top >>> i) &&& 1 ≠ 0 then generator.getD i 0 else 0))
    (((chk &&& 0x1FFFFFF) <<< 5) ^^^ value)

/-- `bech32_polymod`: the remainder of the symbols modulo the generator. -/
def bech32Polymod (values : List Nat) : Nat := values.foldl polymodStep 1

/-- `bech32_hrp_expand`: the high bits, a zero, and the low bits of the characters. -/
def bech32HrpExpand (hrp : List Char) : List Nat :=
  hrp.map (fun x => x.toNat >>> 5) ++ [0] ++ hrp.map (fun x => x.toNat &&& 31)

/-- `bech32m_verify_checksum`. -/
def bech32mVerifyChecksum (hrp : List Char) (data : List Nat) : Bool :=
  bech32Polymod (bech32HrpExpand hrp ++ data) == BECH32M_CONST

/-- `bech.rfind("1")`. -/
def rfindSeparator (bech : List Char) : Option Nat :=
  (bech.reverse.findIdx? (· = '1')).map fun i => bech.length - 1 - i

/-- `bech32m_decode`: the prefix and the data without the checksum. -/
def bech32mDecode (py : StrMethods) (bech : String) : Option (List Char × List Nat) :=
  if bech.toList.any (fun x => x.toNat < 33 || x.toNat > 126) then none
  else if py.lower bech ≠ bech ∧ py.upper bech ≠ bech then none
  else
    let bech := (py.lower bech).toList
    match rfindSeparator bech with
    | none => none
    | some pos =>
      if pos < 1 || pos + 7 > bech.length || bech.length > 90 then none
      else if !(bech.drop (pos + 1)).all (CHARSET.contains ·) then none
      else
        let hrp := bech.take pos
        let data := (bech.drop (pos + 1)).map (CHARSET.idxOf ·)
        if bech32mVerifyChecksum hrp data then some (hrp, data.take (data.length - 6))
        else none

/-- The inner loop of `convertbits`: hand out groups of `tobits` bits while there
    are enough of them. -/
def emitBits (tobits acc : Nat) : Nat → Nat → List Nat × Nat
  | 0, bits => ([], bits)
  | fuel + 1, bits =>
    if tobits ≤ bits then
      let rest := emitBits tobits acc fuel (bits - tobits)
      (((acc >>> (bits - tobits)) &&& (1 <<< tobits - 1)) :: rest.1, rest.2)
    else ([], bits)

/-- The bits read and not handed out yet, and the groups handed out. -/
structure BitBuffer where
  acc : Nat := 0
  bits : Nat := 0
  ret : List Nat := []

/-- One value of `convertbits`: shifted in at the bottom, with full groups taken off the top. -/
def convertStep (frombits tobits : Nat) (b : BitBuffer) (value : Nat) : Option BitBuffer :=
  if value >>> frombits ≠ 0 then none
  else
    let acc := ((b.acc <<< frombits) ||| value) &&& (1 <<< (frombits + tobits - 1) - 1)
    let bits := b.bits + frombits
    let out := emitBits tobits acc bits bits
    some ⟨acc, out.2, b.ret ++ out.1⟩

/-- `convertbits`: groups of one size into groups of another, or `None`. -/
def convertbits (data : List Nat) (frombits tobits : Nat) (pad : Bool) : Option (List Nat) := do
  let b ← data.foldlM (convertStep frombits tobits) {}
  let last := (b.acc <<< (tobits - b.bits)) &&& (1 <<< tobits - 1)
  if pad then
    return if b.bits ≠ 0 then b.ret ++ [last] else b.ret
  else if frombits ≤ b.bits || last ≠ 0 then none
  else return b.ret

/-- `decode_v1_address`: the 32-byte program of a version-1 address. -/
def decodeV1Address (py : StrMethods) (hrp addr : String) : Option (List Nat) :=
  match bech32mDecode py addr with
  | none => none
  | some (hrpgot, data) =>
    if hrpgot ≠ hrp.toList then none
    else
      match data with
      | [] => none
      | version :: program =>
        if version ≠ 1 then none
        else
          match convertbits program 5 8 false with
          | none => none
          | some decoded => if decoded.length ≠ 32 then none else some decoded

/-! ## On ASCII -/

/-- The ASCII characters that `str.strip` removes. -/
def isAsciiSpace (c : Char) : Bool :=
  c = ' ' || (9 ≤ c.toNat && c.toNat ≤ 13) || (28 ≤ c.toNat && c.toNat ≤ 31)

/-- The methods on strings of ASCII characters. -/
def StrMethods.ascii : StrMethods where
  strip s := String.ofList
    ((s.toList.dropWhile isAsciiSpace).reverse.dropWhile isAsciiSpace).reverse
  isupper s := s.toList.any Char.isUpper && !s.toList.any Char.isLower
  lower s := String.ofList (s.toList.map Char.toLower)
  upper s := String.ofList (s.toList.map Char.toUpper)

end Soqucoin.Snapshot
