import Soqucoin.PatTupleProofs
import Soqucoin.TxEncodingProofs

/-! # SighashProofs — what a signature commits to

A witness digest hashes one string of a transaction, an input, a script code, an amount and a hash
type.  The string ends with the hash type; of type `SIGHASH_ALL` it tells all the parts.
ANYPREVOUT with ANYONECANPAY is not hashed at all. -/

namespace Soqucoin

open PrefixCode SignedWord

section Digest

variable (hash : Bytes → Uint256)

/-! ## The strings -/

/-- The two ANYPREVOUT types, without the ANYONECANPAY bit. -/
def IsAnyPrevout (nHashType : UInt32) : Prop :=
  nHashType &&& 0x7f = SIGHASH_ANYPREVOUT.toUInt32 ∨
    nHashType &&& 0x7f = SIGHASH_ANYPREVOUTANYSCRIPT.toUInt32

instance decidableIsAnyPrevout (nHashType : UInt32) : Decidable (IsAnyPrevout nHashType) :=
  inferInstanceAs (Decidable (_ ∨ _))

/-- The combination that has a constant for a digest. -/
def IsCombination (nHashType : UInt32) : Prop :=
  IsAnyPrevout nHashType ∧ nHashType &&& SIGHASH_ANYONECANPAY.toUInt32 ≠ 0

instance decidableIsCombination (nHashType : UInt32) : Decidable (IsCombination nHashType) :=
  inferInstanceAs (Decidable (_ ∧ _))

/-- What `hashPrevouts` hashes. -/
def prevoutsString (tx : CTransaction) : Bytes :=
  tx.vin.flatMap fun txin => serializeOutPoint txin.prevout

/-- What `hashOutputs` hashes. -/
def outputsString (tx : CTransaction) : Bytes := tx.vout.flatMap serializeTxOut

/-- What the digest hashes, up to the hash type. -/
def sighashBody (scriptCode : CScript) (tx : CTransaction) (nIn : Nat) (nHashType : UInt32)
    (amount : Int) : Bytes :=
  let anyoneCanPay := nHashType &&& SIGHASH_ANYONECANPAY.toUInt32 ≠ 0
  let single := nHashType &&& 0x1f = SIGHASH_SINGLE.toUInt32
  let noOutputs := nHashType &&& 0x1f = SIGHASH_NONE.toUInt32
  let txin := tx.vin.getD nIn default
  if IsAnyPrevout nHashType then
    serializeVersion tx.nVersion ++ Uint256.null.bytes ++ Uint256.null.bytes ++
      serializeOutPoint COutPoint.null ++
      (if nHashType &&& 0x7f = SIGHASH_ANYPREVOUT.toUInt32 then serializeBytes scriptCode
        else serializeBytes []) ++
      serializeAmount amount ++ writeLE 4 0 ++ (hash (outputsString tx)).bytes ++
      writeLE 4 tx.nLockTime
  else
    serializeVersion tx.nVersion ++
      (if anyoneCanPay then Uint256.null else hash (prevoutsString tx)).bytes ++
      (if anyoneCanPay ∨ single ∨ noOutputs then Uint256.null
        else hash (sequencesString tx)).bytes ++
      serializeOutPoint txin.prevout ++ serializeBytes scriptCode ++ serializeAmount amount ++
      writeLE 4 txin.nSequence ++
      (if ¬single ∧ ¬noOutputs then hash (outputsString tx)
        else if single ∧ nIn < tx.vout.length then hash (serializeTxOut (tx.vout.getD nIn default))
        else Uint256.null).bytes ++ writeLE 4 tx.nLockTime

/-- What the digest hashes. -/
def sighashString (scriptCode : CScript) (tx : CTransaction) (nIn : Nat) (nHashType : UInt32)
    (amount : Int) : Bytes :=
  sighashBody hash scriptCode tx nIn nHashType amount ++ writeLE 4 nHashType.toNat

/-- All the strings that a digest hashes. -/
def sighashStrings (scriptCode : CScript) (tx : CTransaction) (nIn : Nat) (nHashType : UInt32)
    (amount : Int) : List Bytes :=
  [prevoutsString tx, sequencesString tx, outputsString tx,
    sighashString hash scriptCode tx nIn nHashType amount]

variable {hash} {tx tx' : CTransaction} {nIn nIn' : Nat} {scriptCode scriptCode' : CScript}
  {amount amount' : Int} {nHashType nHashType' : UInt32}

/-- The digest is one hash, the combination apart. -/
theorem signatureHash_eq_hash (hin : nIn < tx.vin.length) (htype : ¬IsCombination nHashType) :
    signatureHash hash none scriptCode tx nIn nHashType amount .witnessV0 =
      hash (sighashString hash scriptCode tx nIn nHashType amount) := by
  rw [signatureHash, if_neg (Nat.not_le.mpr hin), sighashString, sighashBody]
  by_cases hapo : IsAnyPrevout nHashType
  · have hpay : ¬nHashType &&& SIGHASH_ANYONECANPAY.toUInt32 ≠ 0 := fun h => htype ⟨hapo, h⟩
    rw [if_pos hapo]
    rw [IsAnyPrevout] at hapo
    rw [if_pos hapo, if_neg hpay]
    rfl
  · rw [if_neg hapo]
    rw [IsAnyPrevout] at hapo
    rw [if_neg hapo]
    rfl

theorem hashType_of_sighashString
    (h : sighashString hash scriptCode tx nIn nHashType amount =
      sighashString hash scriptCode' tx' nIn' nHashType' amount') : nHashType = nHashType' := by
  have htail := (List.append_inj' h (by rw [length_writeLE, length_writeLE])).2
  exact UInt32.toNat_inj.mp (writeLE_injective nHashType.toNat_lt nHashType'.toNat_lt htail)

/-- Different prevouts are written differently. -/
theorem prevouts_injective (h : tx.Stored) (h' : tx'.Stored)
    (heq : prevoutsString tx = prevoutsString tx') :
    tx.vin.map CTxIn.prevout = tx'.vin.map CTxIn.prevout := by
  refine isPrefixCode_serializeOutPoint.map_injective ?_ ?_ ?_ heq
  · intro o _ hnil
    exact writeLE_ne_nil 3 _ (List.append_eq_nil_iff.mp hnil).2
  · exact fun txin htxin => ⟨trivial, (h.vin_stored txin htxin).index_lt⟩
  · exact fun txin htxin => ⟨trivial, (h'.vin_stored txin htxin).index_lt⟩

theorem outputs_injective (h : tx.Stored) (h' : tx'.Stored)
    (heq : outputsString tx = outputsString tx') : tx.vout = tx'.vout := by
  refine isPrefixCode_serializeTxOut.flatMap_injective ?_ h.vout_stored h'.vout_stored heq
  intro txout _ hnil
  exact writeLE_ne_nil 7 _ (List.append_eq_nil_iff.mp hnil).1

theorem stored_getD (h : tx.Stored) (hin : nIn < tx.vin.length) :
    (tx.vin.getD nIn default).Stored := by
  rw [List.getD_eq_getElem?_getD, List.getElem?_eq_getElem hin, Option.getD_some]
  exact h.vin_stored _ (List.getElem_mem hin)

/-- Under the hash type ALL, equal strings have equal parts. -/
theorem sighashString_all_parts (h : tx.Stored) (h' : tx'.Stored) (hin : nIn < tx.vin.length)
    (hin' : nIn' < tx'.vin.length) (hscript : scriptCode.length < 2 ^ 32)
    (hscript' : scriptCode'.length < 2 ^ 32) (hamount : Fits 64 amount) (hamount' : Fits 64 amount')
    (heq : sighashString hash scriptCode tx nIn SIGHASH_ALL.toUInt32 amount =
      sighashString hash scriptCode' tx' nIn' SIGHASH_ALL.toUInt32 amount') :
    tx.nVersion = tx'.nVersion ∧ hash (prevoutsString tx) = hash (prevoutsString tx') ∧
      hash (sequencesString tx) = hash (sequencesString tx') ∧
      hash (outputsString tx) = hash (outputsString tx') ∧ tx.nLockTime = tx'.nLockTime ∧
      (tx.vin.getD nIn default).prevout = (tx'.vin.getD nIn' default).prevout ∧
      (tx.vin.getD nIn default).nSequence = (tx'.vin.getD nIn' default).nSequence ∧
      scriptCode = scriptCode' ∧ amount = amount' := by
  have hs := stored_getD h hin
  have hs' := stored_getD h' hin'
  have hlen : ∀ {s : Bytes}, s.length < 2 ^ 32 → s.length < 2 ^ 64 := fun hs => hs.trans (by decide)
  have heq := (List.append_inj' heq (by rw [length_writeLE])).1
  have hapo : ¬IsAnyPrevout SIGHASH_ALL.toUInt32 := by decide
  have hpay : ¬SIGHASH_ALL.toUInt32 &&& SIGHASH_ANYONECANPAY.toUInt32 ≠ 0 := by decide
  have hsingle : ¬SIGHASH_ALL.toUInt32 &&& 0x1f = SIGHASH_SINGLE.toUInt32 := by decide
  have hnone : ¬SIGHASH_ALL.toUInt32 &&& 0x1f = SIGHASH_NONE.toUInt32 := by decide
  simp only [sighashBody, hapo, hpay, hsingle, hnone, if_false, or_self, not_false_eq_true,
    and_self, if_true, List.append_assoc] at heq
  -- peel the fields off from the left; each is told from what follows
  obtain ⟨hversion, heq⟩ := isPrefixCode_serializeVersion _ _ h.version_fits h'.version_fits _ _ heq
  obtain ⟨hprevouts, heq⟩ := isPrefixCode_bytes _ _ trivial trivial _ _ heq
  obtain ⟨hsequences, heq⟩ := isPrefixCode_bytes _ _ trivial trivial _ _ heq
  obtain ⟨hprevout, heq⟩ :=
    isPrefixCode_serializeOutPoint _ _ ⟨trivial, hs.index_lt⟩ ⟨trivial, hs'.index_lt⟩ _ _ heq
  obtain ⟨hcode, heq⟩ := isPrefixCode_serializeBytes _ _ (hlen hscript) (hlen hscript') _ _ heq
  obtain ⟨hvalue, heq⟩ := isPrefixCode_serializeAmount _ _ hamount hamount' _ _ heq
  obtain ⟨hsequence, heq⟩ :=
    isPrefixCode_writeLE 4 _ _ hs.sequence_lt hs'.sequence_lt _ _ heq
  obtain ⟨houtputs, heq⟩ := isPrefixCode_bytes _ _ trivial trivial _ _ heq
  have hlock := writeLE_injective h.lockTime_lt h'.lockTime_lt heq
  exact ⟨hversion, hprevouts, hsequences, houtputs, hlock, hprevout, hsequence, hcode, hvalue⟩

/-- What a digest of type `SIGHASH_ALL` commits to. -/
structure SameCommitment (tx tx' : CTransaction) (nIn nIn' : Nat) (scriptCode scriptCode' : CScript)
    (amount amount' : Int) : Prop where
  version_eq : tx.nVersion = tx'.nVersion
  prevouts_eq : tx.vin.map CTxIn.prevout = tx'.vin.map CTxIn.prevout
  sequences_eq : tx.vin.map CTxIn.nSequence = tx'.vin.map CTxIn.nSequence
  vout_eq : tx.vout = tx'.vout
  lockTime_eq : tx.nLockTime = tx'.nLockTime
  prevout_eq : (tx.vin.getD nIn default).prevout = (tx'.vin.getD nIn' default).prevout
  sequence_eq : (tx.vin.getD nIn default).nSequence = (tx'.vin.getD nIn' default).nSequence
  scriptCode_eq : scriptCode = scriptCode'
  amount_eq : amount = amount'

/-- Under the hash type ALL, equal strings commit to the same. -/
theorem sameCommitment_of_sighashString (h : tx.Stored) (h' : tx'.Stored)
    (hin : nIn < tx.vin.length) (hin' : nIn' < tx'.vin.length)
    (hscript : scriptCode.length < 2 ^ 32) (hscript' : scriptCode'.length < 2 ^ 32)
    (hamount : Fits 64 amount) (hamount' : Fits 64 amount')
    (hinj : InjectiveOn hash
      (sighashStrings hash scriptCode tx nIn SIGHASH_ALL.toUInt32 amount ++
        sighashStrings hash scriptCode' tx' nIn' SIGHASH_ALL.toUInt32 amount'))
    (heq : sighashString hash scriptCode tx nIn SIGHASH_ALL.toUInt32 amount =
      sighashString hash scriptCode' tx' nIn' SIGHASH_ALL.toUInt32 amount') :
    SameCommitment tx tx' nIn nIn' scriptCode scriptCode' amount amount' := by
  obtain ⟨hversion, hprevouts, hsequences, houtputs, hlock, hprevout, hsequence, hcode, hvalue⟩ :=
    sighashString_all_parts h h' hin hin' hscript hscript' hamount hamount' heq
  have hprevouts := hinj (prevoutsString tx) (by simp [sighashStrings]) (prevoutsString tx')
    (by simp [sighashStrings]) hprevouts
  have hsequences := hinj (sequencesString tx) (by simp [sighashStrings])
    (sequencesString tx') (by simp [sighashStrings]) hsequences
  have houtputs := hinj (outputsString tx) (by simp [sighashStrings]) (outputsString tx')
    (by simp [sighashStrings]) houtputs
  exact ⟨hversion, prevouts_injective h h' hprevouts,
    sequences_injective h h' hsequences, outputs_injective h h' houtputs,
    hlock, hprevout, hsequence, hcode, hvalue⟩

end Digest

/-- Two inputs with one digest: of type `SIGHASH_ALL` they agree on all that is signed; and
    they have one hash type, unless one combines ANYPREVOUT with ANYONECANPAY.  Cached
    hashes do not change a digest. -/
theorem sighash_commits (hash : Bytes → Uint256) (tx tx' : CTransaction) (nIn nIn' : Nat)
    (scriptCode scriptCode' : CScript) (amount amount' : Int) (nHashType nHashType' : UInt32)
    (htx : tx.Stored) (htx' : tx'.Stored) (hin : nIn < tx.vin.length) (hin' : nIn' < tx'.vin.length)
    (hscript : scriptCode.length < 2 ^ 32) (hscript' : scriptCode'.length < 2 ^ 32)
    (hamount : Fits 64 amount) (hamount' : Fits 64 amount')
    (hinj : InjectiveOn hash (sighashStrings hash scriptCode tx nIn nHashType amount ++
      sighashStrings hash scriptCode' tx' nIn' nHashType' amount')) :
    (nHashType = SIGHASH_ALL.toUInt32 → nHashType' = SIGHASH_ALL.toUInt32 →
      signatureHash hash none scriptCode tx nIn nHashType amount .witnessV0 =
        signatureHash hash none scriptCode' tx' nIn' nHashType' amount' .witnessV0 →
      SameCommitment tx tx' nIn nIn' scriptCode scriptCode' amount amount') ∧
    (IsAnyPrevout nHashType → nHashType ≠ nHashType' → ¬IsCombination nHashType →
      ¬IsCombination nHashType' →
      signatureHash hash none scriptCode tx nIn nHashType amount .witnessV0 ≠
        signatureHash hash none scriptCode' tx' nIn' nHashType' amount' .witnessV0) ∧
    ∀ (t : CTransaction) (i : Nat) (code : CScript) (a : Int) (type : UInt32)
      (sigversion : SigVersion),
      signatureHash hash (some (precomputedTransactionData hash t)) code t i type a sigversion =
        signatureHash hash none code t i type a sigversion := by
  have hstring : ¬IsCombination nHashType → ¬IsCombination nHashType' →
      signatureHash hash none scriptCode tx nIn nHashType amount .witnessV0 =
        signatureHash hash none scriptCode' tx' nIn' nHashType' amount' .witnessV0 →
      sighashString hash scriptCode tx nIn nHashType amount =
        sighashString hash scriptCode' tx' nIn' nHashType' amount' := by
    intro htype htype' heq
    rw [signatureHash_eq_hash hin htype, signatureHash_eq_hash hin' htype'] at heq
    exact hinj _ (by simp [sighashStrings]) _ (by simp [sighashStrings]) heq
  refine ⟨?_, ?_, fun t i code a type sigversion => signatureHash_cached hash code t i type a _⟩
  · rintro rfl rfl heq
    exact sameCommitment_of_sighashString htx htx' hin hin' hscript hscript' hamount hamount' hinj
      (hstring (by decide) (by decide) heq)
  · intro _ hne htype htype' heq
    exact hne (hashType_of_sighashString (hstring htype htype' heq))

namespace Sample

/-- Strings of different lengths or of different hash types have different hashes. -/
def typedHash (bs : Bytes) : Uint256 :=
  ⟨UInt8.ofNat bs.length :: bs.getD (bs.length - 4) 0 :: List.replicate 30 0, rfl⟩

end Sample

/-- One spend under two hash types. -/
theorem sighash_commits_anyPrevout :
    signatureHash Sample.typedHash none [] (Sample.spendOf 0) 0 SIGHASH_ANYPREVOUT.toUInt32 5
        .witnessV0 ≠
      signatureHash Sample.typedHash none [] (Sample.spendOf 0) 0 SIGHASH_ALL.toUInt32 5
        .witnessV0 :=
  (sighash_commits Sample.typedHash (Sample.spendOf 0) (Sample.spendOf 0) 0 0 [] [] 5 5
    SIGHASH_ANYPREVOUT.toUInt32 SIGHASH_ALL.toUInt32 (Sample.spendOf_stored (by decide))
    (Sample.spendOf_stored (by decide)) (by decide) (by decide) (by decide) (by decide)
    ⟨by decide, by decide⟩ ⟨by decide, by decide⟩ (by decide +kernel)).2.1
    (by decide) (by decide) (by decide) (by decide)

/-- The two ANYPREVOUT types with ANYONECANPAY have one digest, the constant. -/
theorem combination_digests_equal :
    InjectiveOn Sample.typedHash
      (sighashStrings Sample.typedHash [] (Sample.spendOf 0) 0 0xc1 5 ++
        sighashStrings Sample.typedHash [] (Sample.spendOf 0) 0 0xc2 5) ∧
    IsAnyPrevout 0xc1 ∧ (0xc1 : UInt32) ≠ 0xc2 ∧
    signatureHash Sample.typedHash none [] (Sample.spendOf 0) 0 0xc1 5 .witnessV0 =
      signatureHash Sample.typedHash none [] (Sample.spendOf 0) 0 0xc2 5 .witnessV0 := by
  decide +kernel

end Soqucoin
