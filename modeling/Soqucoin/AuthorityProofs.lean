import Soqucoin.Authority

/-! # Threshold signatures

`VerifyAuthoritySignatures` marks keys as it goes: every counted signature uses up a key of its
own.  So a positive answer names threshold many distinct keys, each with a verifying signature in
the list. -/

namespace Soqucoin

/-- At least threshold distinct authority keys have a verifying signature over
    the message in the list. -/
def SignedByThreshold (env : Env) (authority : Authority) (msg : Bytes) (sigs : List Bytes) :
    Prop :=
  ∃ keys : List Bytes, keys.Nodup ∧ (∀ key ∈ keys, key ∈ authority.keys) ∧
    authority.threshold ≤ keys.length ∧
    ∀ key ∈ keys, ∃ sig ∈ sigs, env.verify key msg sig = true

namespace Authority

/-- The keys that the search has marked as used. -/
def usedKeys : List Bytes → List Bool → List Bytes
  | key :: keys, true :: used => key :: usedKeys keys used
  | _ :: keys, false :: used => usedKeys keys used
  | _, _ => []

/-- Used keys are keys of the set, each at its own place. -/
theorem usedKeys_sublist :
    ∀ (keys : List Bytes) (used : List Bool), (usedKeys keys used).Sublist keys := by
  intro keys
  induction keys with
  | nil =>
    intro used
    exact List.Sublist.refl []
  | cons key keys ih =>
    intro used
    cases used with
    | nil => exact List.nil_sublist _
    | cons b used =>
      cases b with
      | true => exact (ih used).cons_cons key
      | false => exact (ih used).cons key

/-- No key is used at the start. -/
theorem usedKeys_replicate_false (keys : List Bytes) (n : Nat) :
    usedKeys keys (List.replicate n false) = [] := by
  induction keys generalizing n with
  | nil => rfl
  | cons key keys ih =>
    cases n with
    | zero => rfl
    | succ n => exact ih n

/-- A step of the search uses one more key, under which the signature verifies. -/
theorem usedKeys_useKey {verifies : Bytes → Bool} :
    ∀ {keys : List Bytes} {used used' : List Bool},
      useKey verifies keys used = some used' →
      (usedKeys keys used').length = (usedKeys keys used).length + 1 ∧
        ∀ key ∈ usedKeys keys used', key ∈ usedKeys keys used ∨ verifies key := by
  intro keys
  induction keys with
  | nil => intro used used' h; exact nomatch h
  | cons key keys ih =>
    intro used used' h
    cases used with
    | nil => exact nomatch h
    | cons b used =>
      rw [useKey] at h
      by_cases hb : (!b && verifies key) = true
      · rw [if_pos hb] at h
        obtain rfl := Option.some.inj h
        obtain ⟨hfree, hver⟩ := Bool.and_eq_true_iff.mp hb
        obtain rfl : b = false := by simpa using hfree
        refine ⟨rfl, fun k hk => ?_⟩
        rcases List.mem_cons.mp hk with rfl | hk
        · exact Or.inr hver
        · exact Or.inl hk
      · rw [if_neg hb] at h
        obtain ⟨used₁, h₁, rfl⟩ := Option.map_eq_some_iff.mp h
        obtain ⟨hlen, hmem⟩ := ih h₁
        cases b with
        | true =>
          refine ⟨congrArg (· + 1) hlen, fun k hk => ?_⟩
          rcases List.mem_cons.mp hk with rfl | hk
          · exact Or.inl (List.mem_cons_self ..)
          · exact (hmem k hk).imp_left (List.mem_cons_of_mem _)
        | false => exact ⟨hlen, hmem⟩

/-- The loop over the signatures: the count is the number of used keys, and each
    of them has a verifying signature. -/
theorem foldl_matchSig (env : Env) (msg : Bytes) (keys all : List Bytes) :
    ∀ (sigs : List Bytes) (s : List Bool × Nat), (∀ sig ∈ sigs, sig ∈ all) →
      s.2 = (usedKeys keys s.1).length →
      (∀ key ∈ usedKeys keys s.1, ∃ sig ∈ all, env.verify key msg sig) →
      let t := sigs.foldl (matchSig env msg keys) s
      t.2 = (usedKeys keys t.1).length ∧
        ∀ key ∈ usedKeys keys t.1, ∃ sig ∈ all, env.verify key msg sig = true := by
  intro sigs
  induction sigs with
  | nil => intro s _ hcount hused; exact ⟨hcount, hused⟩
  | cons sig sigs ih =>
    intro s hall hcount hused
    have hrest : ∀ x ∈ sigs, x ∈ all := fun x hx => hall x (List.mem_cons_of_mem _ hx)
    rw [List.foldl_cons]
    cases h : useKey (fun key => env.verify key msg sig) keys s.1 with
    | none =>
      have hstep : matchSig env msg keys s sig = s := by rw [matchSig, h]
      rw [hstep]
      exact ih s hrest hcount hused
    | some used =>
      have hstep : matchSig env msg keys s sig = (used, s.2 + 1) := by rw [matchSig, h]
      obtain ⟨hlen, hmem⟩ := usedKeys_useKey h
      rw [hstep]
      refine ih _ hrest ?_ fun key hkey => ?_
      · show s.2 + 1 = (usedKeys keys used).length
        rw [hlen, hcount]
      · rcases hmem key hkey with hold | hnew
        · exact hused key hold
        · exact ⟨sig, hall sig (List.mem_cons_self ..), hnew⟩

/-- What verifies is signed by as many keys as the threshold asks. -/
theorem signedByThreshold_of_verify {env : Env} {a : Authority} {msg : Bytes}
    {sigs : List Bytes} (h : a.verifyAuthoritySignatures env msg sigs) :
    SignedByThreshold env a msg sigs := by
  rw [verifyAuthoritySignatures, Bool.and_eq_true, decide_eq_true_eq] at h
  obtain ⟨hcount, hused⟩ := foldl_matchSig env msg a.keys sigs sigs
    (List.replicate a.keys.length false, 0) (fun _ hx => hx)
    (by rw [usedKeys_replicate_false]; rfl)
    (fun key hkey => by rw [usedKeys_replicate_false] at hkey; exact nomatch hkey)
  have hsub := usedKeys_sublist a.keys
    (sigs.foldl (matchSig env msg a.keys) (List.replicate a.keys.length false, 0)).1
  exact ⟨_, hsub.nodup a.keys_nodup, fun key hkey => hsub.subset hkey, hcount ▸ h.2, hused⟩

end Authority

/-- The signatures are items of the witness. -/
theorem mem_of_mem_extractWitnessSignatures {stack : List Bytes} {sig : Bytes}
    (h : sig ∈ extractWitnessSignatures stack) : sig ∈ stack := by
  rw [extractWitnessSignatures] at h
  by_cases hlen : stack.length < 6
  · rw [if_pos hlen] at h
    exact nomatch h
  · rw [if_neg hlen] at h
    exact List.mem_of_mem_drop (List.mem_of_mem_dropLast (List.mem_of_mem_filter h))

end Soqucoin
