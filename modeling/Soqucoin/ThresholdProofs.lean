import Soqucoin.AuthorityProofs

/-! # ThresholdProofs — the count of `VerifyAuthoritySignatures` is exact

The two loops are greedy: a signature takes the first free key under which it verifies.  Where no
signature verifies under two keys there is nothing to choose, so the keys marked at the end are
the keys with a signature in the list, and the order and the repetitions of the list do not
matter. -/

namespace Soqucoin

namespace Authority

variable {verifies : Bytes → Bool} {keys : List Bytes} {used used' : List Bool}

/-! ## The inner loop -/

/-- The marks stay one a key. -/
theorem length_useKey (h : useKey verifies keys used = some used') :
    used'.length = used.length := by
  induction keys generalizing used used' with
  | nil => cases h
  | cons key keys ih =>
    cases used with
    | nil => cases h
    | cons b used =>
      rw [useKey] at h
      split at h
      · obtain rfl := Option.some.inj h
        rfl
      · obtain ⟨used₁, h₁, rfl⟩ := Option.map_eq_some_iff.mp h
        rw [List.length_cons, List.length_cons, ih h₁]

/-- Where no key is left for a signature, all its keys are used. -/
theorem mem_usedKeys_of_useKey_none (hlen : used.length = keys.length)
    (h : useKey verifies keys used = none) :
    ∀ key ∈ keys, verifies key → key ∈ usedKeys keys used := by
  induction keys generalizing used with
  | nil =>
    intro key hkey
    cases hkey
  | cons k keys ih =>
    cases used with
    | nil => cases hlen
    | cons b used =>
      rw [useKey] at h
      split at h
      · cases h
      next hfree =>
      have hrest := ih (Nat.succ.inj hlen) (Option.map_eq_none_iff.mp h)
      intro key hkey hver
      cases b with
      | true =>
        rcases List.mem_cons.mp hkey with rfl | hkey
        · exact List.mem_cons_self
        · exact List.mem_cons_of_mem _ (hrest key hkey hver)
      | false =>
        rcases List.mem_cons.mp hkey with rfl | hkey
        · rw [hver] at hfree
          exact absurd rfl hfree
        · exact hrest key hkey hver

/-- A step of the search only adds marks. -/
theorem usedKeys_subset_of_useKey (h : useKey verifies keys used = some used') :
    usedKeys keys used ⊆ usedKeys keys used' ∧ ∃ key ∈ usedKeys keys used', verifies key := by
  induction keys generalizing used used' with
  | nil => cases h
  | cons k keys ih =>
    cases used with
    | nil => cases h
    | cons b used =>
      rw [useKey] at h
      split at h
      · next htake =>
          obtain rfl := Option.some.inj h
          obtain ⟨hfree, hver⟩ := Bool.and_eq_true_iff.mp htake
          obtain rfl : b = false := by simpa using hfree
          exact ⟨List.subset_cons_self k _, k, List.mem_cons_self, hver⟩
      · obtain ⟨used₁, h₁, rfl⟩ := Option.map_eq_some_iff.mp h
        obtain ⟨hsub, key, hkey, hver⟩ := ih h₁
        cases b with
        | true =>
          exact ⟨List.cons_subset_cons k hsub, key, List.mem_cons_of_mem _ hkey, hver⟩
        | false => exact ⟨hsub, key, hkey, hver⟩

/-! ## The outer loop -/

section Loop

variable {env : Env} {msg : Bytes} {s : List Bool × Nat} {sig : Bytes}

/-- No signature of the list verifies under two of the keys. -/
def SignsOnce (env : Env) (msg : Bytes) (keys sigs : List Bytes) : Prop :=
  ∀ sig ∈ sigs, ∀ key ∈ keys, ∀ key' ∈ keys, env.verify key msg sig = true →
    env.verify key' msg sig = true → key = key'

instance decidableSignsOnce (env : Env) (msg : Bytes) (keys sigs : List Bytes) :
    Decidable (SignsOnce env msg keys sigs) :=
  inferInstanceAs (Decidable (∀ sig ∈ sigs, ∀ key ∈ keys, ∀ key' ∈ keys,
    env.verify key msg sig = true → env.verify key' msg sig = true → key = key'))

/-- After its turn, the key of a signature is used. -/
theorem matchSig_marks (hlen : s.1.length = keys.length)
    (honce : ∀ key ∈ keys, ∀ key' ∈ keys, env.verify key msg sig →
      env.verify key' msg sig → key = key') :
    (matchSig env msg keys s sig).1.length = keys.length ∧
      usedKeys keys s.1 ⊆ usedKeys keys (matchSig env msg keys s sig).1 ∧
      ∀ key ∈ keys, env.verify key msg sig →
        key ∈ usedKeys keys (matchSig env msg keys s sig).1 := by
  rw [matchSig]
  cases h : useKey (fun key => env.verify key msg sig) keys s.1 with
  | none => exact ⟨hlen, List.Subset.refl _, mem_usedKeys_of_useKey_none hlen h⟩
  | some used =>
    obtain ⟨hsub, key', hkey', hver'⟩ := usedKeys_subset_of_useKey h
    refine ⟨(length_useKey h).trans hlen, hsub, ?_⟩
    intro key hkey hver
    -- the key taken is the only one the signature verifies under
    rw [honce key hkey key' ((usedKeys_sublist _ _).subset hkey') hver hver']
    exact hkey'

/-- After all signatures, every key that has signed is used. -/
theorem foldl_matchSig_marks {sigs : List Bytes} (hlen : s.1.length = keys.length)
    (honce : SignsOnce env msg keys sigs) :
    let t := sigs.foldl (matchSig env msg keys) s
    usedKeys keys s.1 ⊆ usedKeys keys t.1 ∧
      ∀ key ∈ keys, (∃ sig ∈ sigs, env.verify key msg sig = true) →
        key ∈ usedKeys keys t.1 := by
  induction sigs generalizing s with
  | nil =>
    refine ⟨List.Subset.refl _, ?_⟩
    rintro key - ⟨sig, hsig, -⟩
    cases hsig
  | cons sig sigs ih =>
    obtain ⟨hlen', hsub, hmark⟩ := matchSig_marks hlen (honce sig List.mem_cons_self)
    obtain ⟨hrest, hmarks⟩ := ih hlen' fun x hx => honce x (List.mem_cons_of_mem _ hx)
    rw [List.foldl_cons]
    refine ⟨List.Subset.trans hsub hrest, ?_⟩
    rintro key hkey ⟨x, hx, hver⟩
    rcases List.mem_cons.mp hx with rfl | hx
    · exact hrest (hmark key hkey hver)
    · exact hmarks key hkey ⟨x, hx, hver⟩

end Loop

/-- Enough keys that have signed are enough for the verifier. -/
theorem verify_of_signedByThreshold {env : Env} {a : Authority} {msg : Bytes}
    {sigs : List Bytes} (hinit : a.isInitialized) (hlen : sigs.length ≤ a.keys.length)
    (hsize : ∀ sig ∈ sigs, sig.length = DILITHIUM_SIG_SIZE)
    (honce : SignsOnce env msg a.keys sigs) (h : SignedByThreshold env a msg sigs) :
    a.verifyAuthoritySignatures env msg sigs := by
  obtain ⟨signers, hnodup, hmem, hmany, hsigned⟩ := h
  have hpos : 0 < a.threshold := by
    rw [isInitialized, Bool.and_eq_true, decide_eq_true_eq] at hinit
    exact hinit.2
  have hnonempty : sigs ≠ [] := by
    rintro rfl
    obtain ⟨key, hkey⟩ := List.exists_mem_of_length_pos (hpos.trans_le hmany)
    obtain ⟨sig, hsig, -⟩ := hsigned key hkey
    cases hsig
  obtain ⟨hcount, -⟩ := foldl_matchSig env msg a.keys sigs sigs
    (List.replicate a.keys.length false, 0) (fun _ hx => hx)
    (by rw [usedKeys_replicate_false]; rfl)
    (fun key hkey => by rw [usedKeys_replicate_false] at hkey; cases hkey)
  obtain ⟨-, hmarks⟩ := foldl_matchSig_marks
    (s := (List.replicate a.keys.length false, 0)) (List.length_replicate ..) honce
  have hsub : signers ⊆ usedKeys a.keys (sigs.foldl (matchSig env msg a.keys)
      (List.replicate a.keys.length false, 0)).1 :=
    fun key hkey => hmarks key (hmem key hkey) (hsigned key hkey)
  have hle := (hnodup.subperm hsub).length_le
  rw [verifyAuthoritySignatures, hinit, hcount]
  simp only [Bool.true_and, Bool.and_eq_true, Bool.not_eq_true', List.isEmpty_eq_false_iff,
    decide_eq_true_eq, List.all_eq_true]
  exact ⟨⟨⟨hnonempty, hlen⟩, hsize⟩, hmany.trans hle⟩

end Authority

/-- Threshold many keys have a signature in the list, whichever way it is written down. -/
theorem SignedByThreshold.of_subset {env : Env} {a : Authority} {msg : Bytes}
    {sigs sigs' : List Bytes} (h : SignedByThreshold env a msg sigs) (hsub : sigs ⊆ sigs') :
    SignedByThreshold env a msg sigs' := by
  obtain ⟨signers, hnodup, hmem, hmany, hsigned⟩ := h
  refine ⟨signers, hnodup, hmem, hmany, ?_⟩
  intro key hkey
  obtain ⟨sig, hsig, hver⟩ := hsigned key hkey
  exact ⟨sig, hsub hsig, hver⟩

/-- The answer is yes exactly if threshold many distinct keys have a verifying
    signature in the list, and depends on the set of signatures only. -/
theorem threshold_count_exact (env : Env) (a : Authority) (msg : Bytes) (sigs : List Bytes)
    (hinit : a.isInitialized = true) (hlen : sigs.length ≤ a.keys.length)
    (hsize : ∀ sig ∈ sigs, sig.length = DILITHIUM_SIG_SIZE)
    (honce : Authority.SignsOnce env msg a.keys sigs) :
    (a.verifyAuthoritySignatures env msg sigs = true ↔ SignedByThreshold env a msg sigs) ∧
      ∀ sigs' : List Bytes, sigs'.length ≤ a.keys.length → (∀ sig, sig ∈ sigs' ↔ sig ∈ sigs) →
        a.verifyAuthoritySignatures env msg sigs' = a.verifyAuthoritySignatures env msg sigs := by
  have hiff : ∀ l : List Bytes, l.length ≤ a.keys.length → (∀ sig, sig ∈ l ↔ sig ∈ sigs) →
      (a.verifyAuthoritySignatures env msg l = true ↔ SignedByThreshold env a msg l) := by
    intro l hl hset
    refine ⟨Authority.signedByThreshold_of_verify, ?_⟩
    refine Authority.verify_of_signedByThreshold hinit hl ?_ ?_
    · intro sig hsig
      exact hsize sig ((hset sig).mp hsig)
    · intro sig hsig
      exact honce sig ((hset sig).mp hsig)
  refine ⟨hiff sigs hlen fun _ => Iff.rfl, ?_⟩
  intro sigs' hlen' hset
  rw [Bool.eq_iff_iff, hiff sigs' hlen' hset, hiff sigs hlen fun _ => Iff.rfl]
  exact ⟨fun h => h.of_subset fun sig => (hset sig).mp,
    fun h => h.of_subset fun sig => (hset sig).mpr⟩

namespace Sample

/-- Two of three keys; a signature verifies under the key of its first byte. -/
def threeKeys : List Bytes := [1, 2, 3].map (List.replicate 1312)

/-- Two signatures of three keys are asked for. -/
def twoOfThree : Authority := ⟨threeKeys, 2, .inr (by decide +kernel)⟩

/-- A signature verifies under the key with the same first byte. -/
def firstByteEnv : Env := env fun key _ sig => key.head? = sig.head?

/-- The signatures of the third and the first key, the former twice. -/
def twoSigned : List Bytes := [3, 3, 1].map (List.replicate 2420)

end Sample

/-- Two of three keys, in another order than the set's. -/
theorem threshold_count_exact_twoOfThree :
    (Sample.twoOfThree.verifyAuthoritySignatures Sample.firstByteEnv [] Sample.twoSigned = true ↔
      SignedByThreshold Sample.firstByteEnv Sample.twoOfThree [] Sample.twoSigned) ∧
    ∀ sigs' : List Bytes, sigs'.length ≤ Sample.twoOfThree.keys.length →
      (∀ sig, sig ∈ sigs' ↔ sig ∈ Sample.twoSigned) →
      Sample.twoOfThree.verifyAuthoritySignatures Sample.firstByteEnv [] sigs' =
        Sample.twoOfThree.verifyAuthoritySignatures Sample.firstByteEnv [] Sample.twoSigned :=
  threshold_count_exact Sample.firstByteEnv Sample.twoOfThree [] Sample.twoSigned
    (by decide +kernel) (by decide +kernel) (by decide +kernel) (by decide +kernel)

end Soqucoin
