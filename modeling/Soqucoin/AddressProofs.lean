import Soqucoin.Address

/-! # AddressProofs — the wallet library's addresses at the node

`EncodeDestination` writes the witness version as one symbol and then regroups the program;
`EncodeFromHash` regroups the version byte along with the hash, so its first symbol holds the top
five bits of that byte.  `DecodeDestination` reads the first symbol as the version. -/

namespace Soqucoin.Address

/-! ## The symbols of an encoded string -/

theorem charset_ne_separator (c : Nat) : CHARSET.getD c 0 ≠ 49 := by
  by_cases hc : c < 32
  · have hall : ∀ i < 32, CHARSET.getD i 0 ≠ 49 := by decide
    exact hall c hc
  · have hlen : CHARSET.length = 32 := by decide
    rw [List.getD_eq_getElem?_getD, List.getElem?_eq_none (by omega)]
    decide

/-- The last separator is found where the symbols start. -/
theorem rfindSeparator_append {pre post : Bytes} (h : ∀ c ∈ post, c ≠ 49) :
    rfindSeparator (pre ++ [49] ++ post) = some pre.length := by
  have hnone : post.reverse.findIdx? (fun c : UInt8 => decide (c = 49)) = none := by
    rw [List.findIdx?_eq_none_iff]
    intro c hc
    rw [decide_eq_false_iff_not]
    exact h c (List.mem_reverse.mp hc)
  rw [rfindSeparator, List.append_assoc, List.reverse_append, List.reverse_append,
    List.append_assoc, List.findIdx?_append, hnone]
  have hfound : ([49].reverse ++ pre.reverse).findIdx? (fun c : UInt8 => decide (c = 49)) =
      some 0 := by
    simp [List.findIdx?_cons]
  rw [hfound]
  simp

/-- The first symbol of what `Decode` returns is the first one of the string. -/
theorem decode_data (pre : Bytes) {first : Nat} (rest : List Nat)
    (hfirst : CHARSET_REV.getD (CHARSET.getD first 0).toNat none = some first) :
    (decode (pre ++ ascii "1" ++ (first :: rest).map fun c => CHARSET.getD c 0)).data = [] ∨
      (decode (pre ++ ascii "1" ++ (first :: rest).map fun c => CHARSET.getD c 0)).data.head? =
        some first := by
  have hsep : rfindSeparator (pre ++ ascii "1" ++ (first :: rest).map fun c => CHARSET.getD c 0) =
      some pre.length := by
    have hone : ascii "1" = [49] := by decide
    rw [hone]
    apply rfindSeparator_append
    intro c hc
    obtain ⟨symbol, -, rfl⟩ := List.mem_map.mp hc
    exact charset_ne_separator symbol
  have hdrop : (pre ++ ascii "1" ++ (first :: rest).map fun c => CHARSET.getD c 0).drop
      (pre.length + 1) = (first :: rest).map fun c => CHARSET.getD c 0 :=
    List.drop_left' (by rw [List.length_append]; rfl)
  rw [decode, hsep]
  split
  · exact .inl rfl
  · split
    · exact .inl rfl
    · dsimp only
      split
      · exact .inl rfl
      · rw [hdrop]
        cases hrest : (rest.map fun c => CHARSET.getD c 0).mapM
            fun c => CHARSET_REV.getD c.toNat none with
        | none =>
          rw [List.map_cons, List.mapM_cons, hfirst, hrest]
          exact .inl rfl
        | some values =>
          have hvalues : ((first :: rest).map fun c => CHARSET.getD c 0).mapM
              (fun c => CHARSET_REV.getD c.toNat none) = some (first :: values) := by
            rw [List.map_cons, List.mapM_cons, hfirst, hrest]
            rfl
          rw [hvalues]
          -- the checksum may or may not fit; the data are cut off before it either way
          dsimp only
          split
          · exact .inl rfl
          · cases hcut : (first :: values).length - 6 with
            | zero => exact .inl rfl
            | succ n => exact .inr rfl

/-! ## Wallet-library addresses -/

/-- An address of the wallet has the symbol 0 first, not the version. -/
theorem encodeFromHash_symbols (pubkeyHash : Uint256) (network : Network) (type : AddressType) :
    ∃ rest, encodeFromHash pubkeyHash network type =
      (getPrefix network type).map lowerCase ++ ascii "1" ++
        (0 :: rest).map fun c => CHARSET.getD c 0 := by
  have hfirst : ∃ groups, (regroup 8 5 (1 :: pubkeyHash.bytes.map UInt8.toNat) 0 0).1 =
      0 :: groups :=
    ⟨_, rfl⟩
  obtain ⟨groups, hgroups⟩ := hfirst
  rw [encodeFromHash, hgroups]
  split
  · exact ⟨_, rfl⟩
  · exact ⟨_, rfl⟩

/-- The first symbol is 0, not the version. -/
theorem wallet_address_not_payable (pubkeyHash : Uint256) (network : Network) :
    decodeDestination (encodeFromHash pubkeyHash network .P2PQ) (getPrefix network .P2PQ) =
      none := by
  obtain ⟨rest, hstr⟩ := encodeFromHash_symbols pubkeyHash network .P2PQ
  have hdata := decode_data ((getPrefix network .P2PQ).map lowerCase) rest
    (show CHARSET_REV.getD (CHARSET.getD 0 0).toNat none = some 0 by decide)
  rw [← hstr] at hdata
  rw [decodeDestination]
  split
  · rcases hdata with hempty | hhead
    · rw [hempty]
    · cases hdec : (decode (encodeFromHash pubkeyHash network .P2PQ)).data with
      | nil => rfl
      | cons version symbols =>
        rw [hdec] at hhead
        have hversion : version = 0 := Option.some.inj hhead
        rw [hversion]
        rfl
  · rfl

/-- An address the node encodes itself, and the wallet library's for the same hash. -/
theorem wallet_address_not_payable_sample :
    decodeDestination (encodeDestination (Uint256.fill 1) (ascii "sq")) (ascii "sq") =
        some (Uint256.fill 1) ∧
      (decode (encodeFromHash (Uint256.fill 1) .Mainnet .P2PQ)).encoding = .BECH32M ∧
      (decode (encodeFromHash (Uint256.fill 1) .Mainnet .P2PQ)).hrp = ascii "sq" ∧
      decodeDestination (encodeFromHash (Uint256.fill 1) .Mainnet .P2PQ) (ascii "sq") = none := by
  decide +kernel

end Soqucoin.Address
