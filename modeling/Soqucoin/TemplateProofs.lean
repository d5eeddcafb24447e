import Soqucoin.TxEncodingProofs

/-! # TemplateProofs — what a template hash binds

`CheckTemplateVerify` hashes a string of fixed parts, some of which are hashes of lists.  The hash
of the script signatures is left out if all of them are empty, and nothing says whether it is
there; the string is 32 bytes longer with it.  The lists are told by their strings, the counts are
not needed for that. -/

namespace Soqucoin

open PrefixCode SignedWord

section Template

variable (sha256 : Bytes → Uint256)

/-! ## The strings -/

/-- What is hashed of the signature scripts. -/
def scriptSigsString (tx : CTransaction) : Bytes :=
  tx.vin.flatMap fun txin => writeSized txin.scriptSig

/-- What is hashed of the outputs. -/
def templateOutputsString (tx : CTransaction) : Bytes :=
  tx.vout.flatMap fun txout =>
    writeLE 8 (txout.nValue % 2 ^ 64).toNat ++ writeSized txout.scriptPubKey

/-- No input has a signature script. -/
def noScriptSigs (tx : CTransaction) : Bool := tx.vin.all fun txin => txin.scriptSig.isEmpty

/-- The part that is there or not. -/
def scriptSigsPart (tx : CTransaction) : Bytes :=
  if noScriptSigs tx then [] else (sha256 (scriptSigsString tx)).bytes

/-- The string that is hashed at last. -/
def templateString (tx : CTransaction) (nIn : Nat) : Bytes :=
  serializeVersion tx.nVersion ++ writeLE 4 tx.nLockTime ++ scriptSigsPart sha256 tx ++
    writeLE 4 tx.vin.length ++ (sha256 (sequencesString tx)).bytes ++ writeLE 4 tx.vout.length ++
    (sha256 (templateOutputsString tx)).bytes ++ writeLE 4 nIn

/-- All the strings that a template hash hashes. -/
def templateStrings (tx : CTransaction) (nIn : Nat) : List Bytes :=
  (if noScriptSigs tx then [] else [scriptSigsString tx]) ++
    [sequencesString tx, templateOutputsString tx, templateString sha256 tx nIn]

theorem templateHash_eq (tx : CTransaction) (nIn : Nat) :
    templateHash sha256 tx nIn = sha256 (templateString sha256 tx nIn) := rfl

variable {sha256} {tx tx' : CTransaction} {nIn nIn' : Nat}

/-! ## Telling the parts -/

theorem length_scriptSigsPart :
    (scriptSigsPart sha256 tx).length = if noScriptSigs tx then 0 else 32 := by
  rw [scriptSigsPart]
  split_ifs
  · rfl
  · exact Uint256.length_bytes _

/-- Equal template strings have equal parts. -/
theorem templateString_parts (h : tx.Stored) (h' : tx'.Stored) (hn : nIn < 2 ^ 32)
    (hn' : nIn' < 2 ^ 32) (heq : templateString sha256 tx nIn = templateString sha256 tx' nIn') :
    tx.nVersion = tx'.nVersion ∧ tx.nLockTime = tx'.nLockTime ∧
      scriptSigsPart sha256 tx = scriptSigsPart sha256 tx' ∧
      sha256 (sequencesString tx) = sha256 (sequencesString tx') ∧
      sha256 (templateOutputsString tx) = sha256 (templateOutputsString tx') ∧ nIn = nIn' := by
  -- the rest has one length, so the optional parts have the same
  have hopt : (scriptSigsPart sha256 tx).length = (scriptSigsPart sha256 tx').length := by
    have hlen := congrArg List.length heq
    simp only [templateString, serializeVersion, List.length_append, length_writeLE,
      Uint256.length_bytes] at hlen
    omega
  simp only [templateString, List.append_assoc] at heq
  obtain ⟨hversion, heq⟩ :=
    isPrefixCode_serializeVersion _ _ h.version_fits h'.version_fits _ _ heq
  obtain ⟨hlock, heq⟩ := isPrefixCode_writeLE 4 _ _ h.lockTime_lt h'.lockTime_lt _ _ heq
  obtain ⟨hsigs, heq⟩ := List.append_inj heq hopt
  obtain ⟨-, heq⟩ := List.append_inj heq (by simp only [length_writeLE])
  obtain ⟨hseq, heq⟩ := isPrefixCode_bytes _ _ trivial trivial _ _ heq
  obtain ⟨-, heq⟩ := List.append_inj heq (by simp only [length_writeLE])
  obtain ⟨hout, heq⟩ := isPrefixCode_bytes _ _ trivial trivial _ _ heq
  exact ⟨hversion, hlock, hsigs, hseq, hout, writeLE_injective hn hn' heq⟩

theorem scriptSigs_injective (h : tx.Stored) (h' : tx'.Stored)
    (heq : scriptSigsString tx = scriptSigsString tx') :
    tx.vin.map CTxIn.scriptSig = tx'.vin.map CTxIn.scriptSig := by
  refine isPrefixCode_writeSized.map_injective ?_ ?_ ?_ heq
  · intro s _ hnil
    exact writeLE_ne_nil 3 _ (List.append_eq_nil_iff.mp hnil).1
  · exact fun txin htxin => (h.vin_stored txin htxin).scriptSig_lt
  · exact fun txin htxin => (h'.vin_stored txin htxin).scriptSig_lt

theorem templateOutputs_injective (h : tx.Stored) (h' : tx'.Stored)
    (heq : templateOutputsString tx = templateOutputsString tx') : tx.vout = tx'.vout := by
  refine isPrefixCode_templateOutput.flatMap_injective ?_ h.vout_stored h'.vout_stored heq
  intro txout _ hnil
  exact writeLE_ne_nil 7 _ (List.append_eq_nil_iff.mp hnil).1

theorem scriptSigs_of_noScriptSigs (h : noScriptSigs tx) :
    tx.vin.map CTxIn.scriptSig = List.replicate tx.vin.length [] := by
  rw [List.eq_replicate_iff, List.length_map]
  refine ⟨rfl, ?_⟩
  rw [List.forall_mem_map]
  intro txin htxin
  exact List.isEmpty_iff.mp (List.all_eq_true.mp h txin htxin)

/-- The transactions agree on everything a template commits to. -/
structure SameTemplate (tx tx' : CTransaction) : Prop where
  version_eq : tx.nVersion = tx'.nVersion
  lockTime_eq : tx.nLockTime = tx'.nLockTime
  scriptSigs_eq : tx.vin.map CTxIn.scriptSig = tx'.vin.map CTxIn.scriptSig
  sequences_eq : tx.vin.map CTxIn.nSequence = tx'.vin.map CTxIn.nSequence
  vout_eq : tx.vout = tx'.vout

theorem SameTemplate.length_vin (h : SameTemplate tx tx') : tx.vin.length = tx'.vin.length := by
  simpa using congrArg List.length h.sequences_eq

/-- The inner strings are those of the parts. -/
theorem SameTemplate.templateHash_eq (h : SameTemplate tx tx') (nIn : Nat) :
    templateHash sha256 tx nIn = templateHash sha256 tx' nIn := by
  have hsigs : scriptSigsString tx = scriptSigsString tx' := by
    rw [scriptSigsString, scriptSigsString, ← List.flatMap_map CTxIn.scriptSig writeSized,
      ← List.flatMap_map CTxIn.scriptSig writeSized, h.scriptSigs_eq]
  have hseq : sequencesString tx = sequencesString tx' := by
    rw [sequencesString, sequencesString, ← List.flatMap_map CTxIn.nSequence (writeLE 4),
      ← List.flatMap_map CTxIn.nSequence (writeLE 4), h.sequences_eq]
  have hnone : noScriptSigs tx = noScriptSigs tx' := by
    have hall : ∀ t : CTransaction,
        noScriptSigs t = (t.vin.map CTxIn.scriptSig).all List.isEmpty := by
      intro t
      rw [List.all_map]
      rfl
    rw [hall, hall, h.scriptSigs_eq]
  rw [Soqucoin.templateHash_eq, Soqucoin.templateHash_eq, templateString, templateString,
    scriptSigsPart, scriptSigsPart, hsigs, hseq, hnone, templateOutputsString,
    templateOutputsString, h.version_eq, h.lockTime_eq, h.length_vin, h.vout_eq]

/-- Without a collision among the strings, one hash has one template and one input. -/
theorem sameTemplate_of_templateHash (h : tx.Stored) (h' : tx'.Stored) (hn : nIn < 2 ^ 32)
    (hn' : nIn' < 2 ^ 32)
    (hinj : InjectiveOn sha256 (templateStrings sha256 tx nIn ++ templateStrings sha256 tx' nIn'))
    (heq : templateHash sha256 tx nIn = templateHash sha256 tx' nIn') :
    SameTemplate tx tx' ∧ nIn = nIn' := by
  have hstring := hinj (templateString sha256 tx nIn) (by simp [templateStrings])
    (templateString sha256 tx' nIn') (by simp [templateStrings]) heq
  obtain ⟨hversion, hlock, hsigs, hseq, hout, hindex⟩ := templateString_parts h h' hn hn' hstring
  have hsequences := sequences_injective h h'
    (hinj (sequencesString tx) (by simp [templateStrings]) (sequencesString tx')
      (by simp [templateStrings]) hseq)
  have hvout := templateOutputs_injective h h'
    (hinj (templateOutputsString tx) (by simp [templateStrings]) (templateOutputsString tx')
      (by simp [templateStrings]) hout)
  have hcount : tx.vin.length = tx'.vin.length := by
    simpa using congrArg List.length hsequences
  have hlen := congrArg List.length hsigs
  rw [length_scriptSigsPart, length_scriptSigsPart] at hlen
  -- the signatures' hash is written only if there are any: a string with it is longer than
  -- one without, so both have it or neither has
  have hscripts : tx.vin.map CTxIn.scriptSig = tx'.vin.map CTxIn.scriptSig := by
    cases hnone : noScriptSigs tx with
    | true =>
      cases hnone' : noScriptSigs tx' with
      | true =>
        rw [scriptSigs_of_noScriptSigs hnone, scriptSigs_of_noScriptSigs hnone', hcount]
      | false =>
        rw [hnone, hnone'] at hlen
        cases hlen
    | false =>
      cases hnone' : noScriptSigs tx' with
      | true =>
        rw [hnone, hnone'] at hlen
        cases hlen
      | false =>
        rw [scriptSigsPart, scriptSigsPart, hnone, hnone'] at hsigs
        exact scriptSigs_injective h h'
          (hinj (scriptSigsString tx) (by simp [templateStrings, hnone]) (scriptSigsString tx')
            (by simp [templateStrings, hnone']) (Uint256.ext hsigs))
  exact ⟨⟨hversion, hlock, hscripts, hsequences, hvout⟩, hindex⟩

end Template

/-- Two spends that a hash accepts agree on everything a template binds; and what it
    accepts depends on nothing else, not on the prevouts and not on the witnesses. -/
theorem template_binds (env : Env) (hash : Bytes) (tx tx' : CTransaction) (nIn nIn' : Nat)
    (amount amount' : Int) (htx : tx.Stored) (htx' : tx'.Stored) (hn : nIn < 2 ^ 32)
    (hn' : nIn' < 2 ^ 32)
    (hinj : InjectiveOn env.sha256
      (templateStrings env.sha256 tx nIn ++ templateStrings env.sha256 tx' nIn'))
    (h : (transactionSignatureChecker env tx nIn amount).checkTemplateVerify hash = true)
    (h' : (transactionSignatureChecker env tx' nIn' amount').checkTemplateVerify hash = true) :
    (tx.nVersion = tx'.nVersion ∧ tx.nLockTime = tx'.nLockTime ∧
      tx.vin.length = tx'.vin.length ∧
      tx.vin.map CTxIn.scriptSig = tx'.vin.map CTxIn.scriptSig ∧
      tx.vin.map CTxIn.nSequence = tx'.vin.map CTxIn.nSequence ∧
      tx.vout = tx'.vout ∧ nIn = nIn') ∧
    ∀ (t t' : CTransaction) (i : Nat) (a a' : Int) (b : Bytes), SameTemplate t t' →
      (transactionSignatureChecker env t i a).checkTemplateVerify b =
        (transactionSignatureChecker env t' i a').checkTemplateVerify b := by
  have haccepted : ∀ t i a, (transactionSignatureChecker env t i a).checkTemplateVerify hash =
      true →
      (templateHash env.sha256 t i).bytes = hash := by
    intro t i a ha
    rw [transactionSignatureChecker, Bool.and_eq_true, decide_eq_true_eq, decide_eq_true_eq] at ha
    exact ha.2
  have heq : templateHash env.sha256 tx nIn = templateHash env.sha256 tx' nIn' :=
    Uint256.ext ((haccepted tx nIn amount h).trans (haccepted tx' nIn' amount' h').symm)
  obtain ⟨hsame, hindex⟩ := sameTemplate_of_templateHash htx htx' hn hn' hinj heq
  refine ⟨⟨hsame.version_eq, hsame.lockTime_eq, hsame.length_vin, hsame.scriptSigs_eq,
    hsame.sequences_eq, hsame.vout_eq, hindex⟩, ?_⟩
  intro t t' i a a' b hsame
  rw [transactionSignatureChecker, transactionSignatureChecker, hsame.templateHash_eq]

namespace Sample

/-- A stand-in for the hash: the length. -/
def lengthHash (bs : Bytes) : Uint256 := Uint256.fill (UInt8.ofNat bs.length)

/-- A node with that hash. -/
def templateEnv : Env := { env fun _ _ _ => true with sha256 := lengthHash }

end Sample

open Sample in
/-- Two spends of different prevouts that one hash accepts, and what the same hash says of them
    at another input and for other amounts. -/
theorem template_binds_two_prevouts :
    (spendOf 1).vin ≠ (spendOf 2).vin ∧
      ((spendOf 1).nVersion = (spendOf 2).nVersion ∧ (spendOf 1).nLockTime = (spendOf 2).nLockTime ∧
        (spendOf 1).vin.length = (spendOf 2).vin.length ∧
        (spendOf 1).vin.map CTxIn.scriptSig = (spendOf 2).vin.map CTxIn.scriptSig ∧
        (spendOf 1).vin.map CTxIn.nSequence = (spendOf 2).vin.map CTxIn.nSequence ∧
        (spendOf 1).vout = (spendOf 2).vout) ∧
      (transactionSignatureChecker templateEnv (spendOf 1) 3 10).checkTemplateVerify
          (Uint256.fill 84).bytes =
        (transactionSignatureChecker templateEnv (spendOf 2) 3 20).checkTemplateVerify
          (Uint256.fill 84).bytes := by
  obtain ⟨⟨hversion, hlock, hcount, hsigs, hsequences, hvout, -⟩, hfree⟩ :=
    template_binds templateEnv (Uint256.fill 84).bytes (spendOf 1) (spendOf 2) 0 0 0 0
      (spendOf_stored (by decide)) (spendOf_stored (by decide)) (by decide) (by decide)
      (by decide +kernel) (by decide +kernel) (by decide +kernel)
  exact ⟨by decide, ⟨hversion, hlock, hcount, hsigs, hsequences, hvout⟩,
    hfree (spendOf 1) (spendOf 2) 3 10 20 _ ⟨rfl, rfl, rfl, rfl, rfl⟩⟩

end Soqucoin
