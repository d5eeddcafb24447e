import Soqucoin.ByteOrderProofs

/-! # WalletKeys — keys derived from a seed

`wallet/pqwallet/pqderive.cpp` and the key generation of `pqwallet.cpp`.  What HKDF expands for a
request tells the request: the kinds differ in their domain, wallet paths and blinding indices
have a fixed width, and a channel's string can be read from its end (`info_injective`).  A key
that starts with the marker of invalid keys is derived again; one that is generated is not.
A seed gives all keys of a wallet back. -/

namespace Soqucoin.WalletKeys

/-! ## Derivation -/

/-- A derivation path, with the defaults of the source. -/
structure DerivationPath where
  purpose : UInt32 := 44
  coinType : UInt32 := 21329
  account : UInt32 := 0
  change : UInt32 := 0
  index : UInt32 := 0
deriving DecidableEq

def DOMAIN_WALLET : Bytes := ascii "soqucoin-pqwallet-v1"
def DOMAIN_BLINDING : Bytes := ascii "soqucoin-blinding-v1"
def DOMAIN_CHANNEL : Bytes := ascii "soqucoin-v1/channel"

def MIN_SEED_BYTES : Nat := 32

/-- A number in so many bytes, big-endian. -/
def writeBE (width n : Nat) : Bytes := (writeLE width n).reverse

/-- `PathToBytes`: all five numbers, the first three hardened. -/
def pathToBytes (path : DerivationPath) : Bytes :=
  writeBE 4 (path.purpose ||| 0x80000000).toNat ++ writeBE 4 (path.coinType ||| 0x80000000).toNat ++
    writeBE 4 (path.account ||| 0x80000000).toNat ++ writeBE 4 path.change.toNat ++
    writeBE 4 path.index.toNat

/-- A number as a stream writes it. -/
def decimal (n : Nat) : Bytes := (Nat.toDigits 10 n).map fun c => UInt8.ofNat c.toNat

def slash : UInt8 := 47

/-- The info string of a wallet key. -/
def keyMaterialInfo (path : DerivationPath) (domain : Bytes) (retry : UInt8) : Bytes :=
  domain ++ pathToBytes path ++ if retry > 0 then [retry] else []

/-- The info string of a channel key. -/
def channelInfo (channelId keyType : Bytes) (index : UInt32) : Bytes :=
  let domain := DOMAIN_CHANNEL ++ [slash] ++ channelId ++ [slash] ++ keyType
  if keyType = ascii "revoke" ∨ keyType = ascii "htlc" then
    domain ++ [slash] ++ decimal index.toNat
  else domain

/-- The hash and the two stages of HKDF. -/
structure Hkdf where
  sha256 : Bytes → Bytes
  extract : Bytes → Bytes → Bytes
  expand : Bytes → Bytes → Nat → Bytes

section Derivation

variable (hkdf : Hkdf) (masterSeed : Bytes)

/-- What the three derivations share: the check of the seed (`RequireSeed`) and the expansion. -/
def deriveInfo (info : Bytes) : Except String Bytes :=
  if masterSeed.length < MIN_SEED_BYTES then
    .error "pqderive: the seed is shorter than the minimum of 32 bytes; no key is derived"
  else .ok (hkdf.expand (hkdf.extract (hkdf.sha256 masterSeed) masterSeed) info 32)

/-- `DeriveKeyMaterial`. -/
def deriveKeyMaterial (path : DerivationPath) (domain : Bytes) (retry : UInt8) :
    Except String Bytes :=
  deriveInfo hkdf masterSeed (keyMaterialInfo path domain retry)

/-- `DeriveBlindingFactor`. -/
def deriveBlindingFactor (outputIndex : UInt64) : Except String Bytes :=
  deriveInfo hkdf masterSeed (DOMAIN_BLINDING ++ writeBE 8 outputIndex.toNat)

/-- `DeriveChannelKey`. -/
def deriveChannelKey (channelId keyType : Bytes) (index : UInt32) : Except String Bytes :=
  deriveInfo hkdf masterSeed (channelInfo channelId keyType index)

/-- The keys of a channel; a funding key has no index. -/
inductive ChannelKey where
  | funding
  | revoke (index : UInt32)
  | htlc (index : UInt32)

/-- Its name in the info string. -/
def ChannelKey.keyType : ChannelKey → Bytes
  | .funding => ascii "funding"
  | .revoke _ => ascii "revoke"
  | .htlc _ => ascii "htlc"

/-- Its number; a funding key has none. -/
def ChannelKey.index : ChannelKey → UInt32
  | .funding => 0
  | .revoke index => index
  | .htlc index => index

/-- The keys that can be asked for. -/
inductive Request where
  | wallet (path : DerivationPath) (retry : UInt8)
  | blinding (outputIndex : UInt64)
  | channel (channelId : Bytes) (key : ChannelKey)

/-- The key of a request. -/
def Request.derive : Request → Except String Bytes
  | .wallet path retry => deriveKeyMaterial hkdf masterSeed path DOMAIN_WALLET retry
  | .blinding outputIndex => deriveBlindingFactor hkdf masterSeed outputIndex
  | .channel channelId key => deriveChannelKey hkdf masterSeed channelId key.keyType key.index

end Derivation

/-- The hardened levels are below 2^31. -/
def DerivationPath.Hardenable (path : DerivationPath) : Prop :=
  path.purpose < 0x80000000 ∧ path.coinType < 0x80000000 ∧ path.account < 0x80000000

/-- The path leaves the top bit free. -/
def Request.Hardenable : Request → Prop
  | .wallet path _ => path.Hardenable
  | _ => True

/-! ## Info strings -/

/-- The info string of a request. -/
def Request.info : Request → Bytes
  | .wallet path retry => keyMaterialInfo path DOMAIN_WALLET retry
  | .blinding outputIndex => DOMAIN_BLINDING ++ writeBE 8 outputIndex.toNat
  | .channel channelId key => channelInfo channelId key.keyType key.index

theorem Request.derive_eq (hkdf : Hkdf) (masterSeed : Bytes) (r : Request) :
    r.derive hkdf masterSeed = deriveInfo hkdf masterSeed r.info := by
  cases r <;> rfl

theorem writeBE_injective {width m n : Nat} (hm : m < 256 ^ width) (hn : n < 256 ^ width)
    (h : writeBE width m = writeBE width n) : m = n :=
  writeLE_injective hm hn (List.reverse_injective h)

@[simp] theorem length_writeBE (width n : Nat) : (writeBE width n).length = width := by
  rw [writeBE, List.length_reverse, length_writeLE]

theorem writeBE_uint32 {m n : UInt32} (h : writeBE 4 m.toNat = writeBE 4 n.toNat) : m = n :=
  UInt32.toNat_inj.mp (writeBE_injective m.toNat_lt n.toNat_lt h)

theorem hardened_injective {m n : UInt32} (hm : m < 0x80000000) (hn : n < 0x80000000)
    (h : m ||| 0x80000000 = n ||| 0x80000000) : m = n := by
  have hadd : ∀ x : UInt32, x < 0x80000000 → (x ||| 0x80000000).toNat = 2 ^ 31 + x.toNat := by
    intro x hx
    have hlt : x.toNat < 2 ^ 31 := UInt32.lt_iff_toNat_lt.mp hx
    rw [UInt32.toNat_or, Nat.or_comm]
    exact (Nat.two_pow_add_eq_or_of_lt hlt 1).symm
  have hsum := congrArg UInt32.toNat h
  rw [hadd m hm, hadd n hn] at hsum
  exact UInt32.toNat_inj.mp (Nat.add_left_cancel hsum)

/-- Hardenable paths have different bytes. -/
theorem pathToBytes_injective {p p' : DerivationPath}
    (hp : p.Hardenable) (hp' : p'.Hardenable)
    (h : pathToBytes p = pathToBytes p') : p = p' := by
  obtain ⟨h, hindex⟩ := List.append_inj h (by simp)
  obtain ⟨h, hchange⟩ := List.append_inj h (by simp)
  obtain ⟨h, haccount⟩ := List.append_inj h (by simp)
  obtain ⟨hpurpose, hcoin⟩ := List.append_inj h (by simp)
  cases p
  cases p'
  rw [DerivationPath.mk.injEq]
  exact ⟨hardened_injective hp.1 hp'.1 (writeBE_uint32 hpurpose),
    hardened_injective hp.2.1 hp'.2.1 (writeBE_uint32 hcoin),
    hardened_injective hp.2.2 hp'.2.2 (writeBE_uint32 haccount), writeBE_uint32 hchange,
    writeBE_uint32 hindex⟩

/-- What follows the last slash, and what comes before it. -/
theorem last_part_unique {a a' b b' : Bytes} (hb : slash ∉ b) (hb' : slash ∉ b')
    (h : a ++ [slash] ++ b = a' ++ [slash] ++ b') : a = a' ∧ b = b' := by
  have hlast : ∀ {a b : Bytes}, slash ∉ b →
      ((a ++ [slash] ++ b).reverse.takeWhile (· ≠ slash)).reverse = b := by
    intro a b hb
    have hall : ∀ x ∈ b.reverse, decide (x ≠ slash) := by
      intro x hx
      exact decide_eq_true fun heq => hb (heq ▸ List.mem_reverse.mp hx)
    rw [List.append_assoc, List.reverse_append, List.reverse_append, List.append_assoc,
      List.takeWhile_append_of_pos hall]
    simp
  have hbb : b = b' := by rw [← hlast hb, h, hlast hb']
  subst hbb
  exact ⟨List.append_cancel_right (List.append_cancel_right h), rfl⟩

theorem digit_bounds {n : Nat} {c : Char} (h : c ∈ Nat.toDigits 10 n) :
    (UInt8.ofNat c.toNat).toNat = c.toNat ∧ 48 ≤ c.toNat ∧ c.toNat ≤ 57 := by
  have hdigit := Char.isDigit_iff_toNat.mp (Nat.isDigit_of_mem_toDigits (by decide) (by decide) h)
  have hlow : 48 ≤ c.toNat := hdigit.1
  have hhigh : c.toNat ≤ 57 := hdigit.2
  refine ⟨?_, hlow, hhigh⟩
  rw [UInt8.toNat_ofNat', Nat.mod_eq_of_lt (by omega)]

theorem not_mem_decimal {n : Nat} {b : UInt8} (hb : b.toNat < 48 ∨ 57 < b.toNat) :
    b ∉ decimal n := by
  intro h
  obtain ⟨c, hc, rfl⟩ := List.mem_map.mp h
  have hdigit := digit_bounds hc
  omega

theorem decimal_injective {m n : Nat} (h : decimal m = decimal n) : m = n := by
  have hback : ∀ k, (decimal k).map (fun b => Char.ofNat b.toNat) = Nat.toDigits 10 k := by
    intro k
    rw [decimal, List.map_map]
    conv_rhs => rw [← List.map_id (Nat.toDigits 10 k)]
    apply List.map_congr_left
    intro c hc
    rw [Function.comp_apply, (digit_bounds hc).1, Char.ofNat_toNat]
    rfl
  rw [← Nat.ofDigitChars_toDigits (b := 10) (n := m) (by decide) (by decide), ← hback, h, hback,
    Nat.ofDigitChars_toDigits (by decide) (by decide)]

section

variable {channelId channelId' keyType keyType' : Bytes} {index index' : UInt32}

/-- The info strings of numbered channel keys are different. -/
theorem channelInfo_indexed (ht : keyType = ascii "revoke" ∨ keyType = ascii "htlc")
    (ht' : keyType' = ascii "revoke" ∨ keyType' = ascii "htlc")
    (h : channelInfo channelId keyType index = channelInfo channelId' keyType' index') :
    channelId = channelId' ∧ keyType = keyType' ∧ index = index' := by
  have hslash : ∀ k : Bytes, k = ascii "revoke" ∨ k = ascii "htlc" → slash ∉ k := by
    rintro k (rfl | rfl)
    all_goals decide +kernel
  rw [channelInfo, channelInfo, if_pos ht, if_pos ht'] at h
  obtain ⟨h, hindex⟩ := last_part_unique (not_mem_decimal (by decide))
    (not_mem_decimal (by decide)) h
  obtain ⟨h, htype⟩ := last_part_unique (hslash _ ht) (hslash _ ht') h
  exact ⟨List.append_cancel_left h, htype, UInt32.toNat_inj.mp (decimal_injective hindex)⟩

theorem channelInfo_funding :
    channelInfo channelId (ascii "funding") index =
      DOMAIN_CHANNEL ++ [slash] ++ channelId ++ [slash] ++ ascii "funding" := by
  rw [channelInfo, if_neg (by decide +kernel)]

/-- No number ends like a funding key. -/
theorem channelInfo_funding_ne (ht : keyType = ascii "revoke" ∨ keyType = ascii "htlc") :
    channelInfo channelId (ascii "funding") index ≠ channelInfo channelId' keyType index' := by
  intro h
  rw [channelInfo_funding, channelInfo, if_pos ht] at h
  obtain ⟨-, hlast⟩ := last_part_unique (by decide +kernel) (not_mem_decimal (by decide)) h
  have hmem : (102 : UInt8) ∈ decimal index'.toNat := hlast ▸ by decide +kernel
  exact not_mem_decimal (by decide) hmem

end

theorem ChannelKey.eq_of_parts {key key' : ChannelKey} (htype : key.keyType = key'.keyType)
    (hindex : key.index = key'.index) : key = key' := by
  have hrevoke : ascii "revoke" ∉ [ascii "funding", ascii "htlc"] := by decide +kernel
  have hhtlc : ascii "htlc" ≠ ascii "funding" := by decide +kernel
  cases key <;> cases key' <;> simp_all [keyType, index]

/-- The info strings of channel keys are different. -/
theorem channelInfo_injective {channelId channelId' : Bytes} {key key' : ChannelKey}
    (h : channelInfo channelId key.keyType key.index =
      channelInfo channelId' key'.keyType key'.index) : channelId = channelId' ∧ key = key' := by
  have hindexed : ∀ key : ChannelKey, key = .funding ∨
      (key.keyType = ascii "revoke" ∨ key.keyType = ascii "htlc") := by
    rintro (_ | _ | _)
    exacts [.inl rfl, .inr (.inl rfl), .inr (.inr rfl)]
  rcases hindexed key with rfl | ht
  · rcases hindexed key' with rfl | ht'
    · have heq := channelInfo_funding.symm.trans (h.trans channelInfo_funding)
      exact ⟨List.append_cancel_left (List.append_cancel_right (List.append_cancel_right heq)), rfl⟩
    · exact absurd h (channelInfo_funding_ne ht')
  · rcases hindexed key' with rfl | ht'
    · exact absurd h.symm (channelInfo_funding_ne ht)
    · obtain ⟨hid, htype, hindex⟩ := channelInfo_indexed ht ht' h
      exact ⟨hid, ChannelKey.eq_of_parts htype hindex⟩

theorem keyMaterialInfo_injective {p p' : DerivationPath} {domain : Bytes} {retry retry' : UInt8}
    (hp : p.Hardenable) (hp' : p'.Hardenable)
    (h : keyMaterialInfo p domain retry = keyMaterialInfo p' domain retry') :
    p = p' ∧ retry = retry' := by
  rw [keyMaterialInfo, keyMaterialInfo, List.append_assoc, List.append_assoc] at h
  obtain ⟨hpath, htail⟩ := List.append_inj (List.append_cancel_left h) (by simp [pathToBytes])
  refine ⟨pathToBytes_injective hp hp' hpath, ?_⟩
  grind

/-- The byte in which the domains differ. -/
def Request.kind : Request → UInt8
  | .wallet _ _ => 112
  | .blinding _ => 98
  | .channel _ _ => 118

/-- The tenth byte tells the kinds of request apart. -/
theorem Request.info_kind (r : Request) : r.info[9]? = some r.kind := by
  have htenth : ∀ {domain : Bytes} {b : UInt8} (rest : Bytes), domain[9]? = some b →
      (domain ++ rest)[9]? = some b := by
    intro domain b rest h
    rw [List.getElem?_append_left (List.getElem?_eq_some_iff.mp h).1, h]
  cases r with
  | wallet path retry =>
    rw [info, keyMaterialInfo, List.append_assoc]
    exact htenth _ (by rw [kind]; decide +kernel)
  | blinding outputIndex => exact htenth _ (by rw [kind]; decide +kernel)
  | channel channelId key =>
    simp only [info, channelInfo, List.append_assoc]
    split
    all_goals exact htenth _ (by rw [kind]; decide +kernel)

/-- Requests have different info strings. -/
theorem Request.info_injective {r r' : Request} (hr : r.Hardenable) (hr' : r'.Hardenable)
    (h : r.info = r'.info) : r = r' := by
  have hkind : r.kind = r'.kind := Option.some.inj (by rw [← info_kind, ← info_kind, h])
  cases r with
  | wallet path retry =>
    cases r' with
    | wallet path' retry' =>
      obtain ⟨rfl, rfl⟩ := keyMaterialInfo_injective hr hr' h
      rfl
    | _ => simp [kind] at hkind
  | blinding outputIndex =>
    cases r' with
    | blinding outputIndex' =>
      have hindex := writeBE_injective outputIndex.toNat_lt outputIndex'.toNat_lt
        (List.append_cancel_left h)
      rw [UInt64.toNat_inj.mp hindex]
    | _ => simp [kind] at hkind
  | channel channelId key =>
    cases r' with
    | channel channelId' key' =>
      obtain ⟨rfl, rfl⟩ := channelInfo_injective h
      rfl
    | _ => simp [kind] at hkind

/-- **Derived keys are separated.**  If HKDF expands the info strings of two requests to one key
    only where they are equal, two requests that derive one key from a seed are one request. -/
theorem derivation_separates {hkdf : Hkdf} {masterSeed key : Bytes} {r r' : Request}
    (hr : r.Hardenable) (hr' : r'.Hardenable)
    (hinj : hkdf.expand (hkdf.extract (hkdf.sha256 masterSeed) masterSeed) r.info 32 =
      hkdf.expand (hkdf.extract (hkdf.sha256 masterSeed) masterSeed) r'.info 32 → r.info = r'.info)
    (h : r.derive hkdf masterSeed = .ok key) (h' : r'.derive hkdf masterSeed = .ok key) :
    r = r' := by
  rw [Request.derive_eq, deriveInfo] at h h'
  split at h
  · cases h
  · rename_i hlong
    rw [if_neg hlong] at h'
    exact Request.info_injective hr hr' (hinj (Except.ok.inj (h.trans h'.symm)))

/-- A stand-in for HKDF that returns what it is asked to expand. -/
def Sample.hkdf : Hkdf := ⟨id, fun _ seed => seed, fun _ info _ => info⟩

/-- The key of the fifth revocation is derived for no other revocation of the channel. -/
theorem derivation_separates_revoke :
    let r := fun n => Request.channel [1, slash] (.revoke n)
    (r 5).derive Sample.hkdf (List.replicate 32 7) = .ok (r 5).info ∧
      ∀ n, (r n).derive Sample.hkdf (List.replicate 32 7) = .ok (r 5).info → r n = r 5 :=
  ⟨rfl, fun _ h => derivation_separates trivial trivial id h rfl⟩

/-! ## Key pairs -/

/-- A key pair. -/
structure PQKeyPair where
  publicKey : Bytes
  secretKey : Bytes
deriving DecidableEq

/-- The reference implementation: what its calls return and write. -/
structure Dilithium where
  keypair : Int × PQKeyPair
  seedKeypair : Bytes → Int × PQKeyPair

/-- The byte in front of a key that consensus takes as no key at all. -/
def INVALID_MARKER : UInt8 := 0xFF

/-- The key carries the mark of an invalid one. -/
def PQKeyPair.marked (key : PQKeyPair) : Bool := key.publicKey.getD 0 0 = INVALID_MARKER

def MAX_DERIVE_RETRIES : Nat := 8

/-- The fields of the wallet that making keys reads and writes. -/
structure PQWallet where
  isWatchOnly : Bool
  seed : Bytes
  nextIndex : UInt32
  keys : List PQKeyPair

section KeyPairs

variable (hkdf : Hkdf) (dilithium : Dilithium)

/-- A key pair, where the reference implementation returns zero. -/
def keyOf (r : Int × PQKeyPair) : Option PQKeyPair := if r.1 ≠ 0 then none else some r.2

/-- `Generate`. -/
def generate : Option PQKeyPair := keyOf dilithium.keypair

/-- `Generate(entropy)`. -/
def generateFrom (entropy : Bytes) : Option PQKeyPair :=
  if entropy.length < 32 then none else keyOf (dilithium.seedKeypair entropy)

/-- The tries of `DeriveFromSeed`. -/
def deriveLoop (seed : Bytes) (path : DerivationPath) : List Nat → Option PQKeyPair
  | [] => none
  | retry :: retries =>
    match deriveKeyMaterial hkdf seed path DOMAIN_WALLET (UInt8.ofNat retry) with
    | .error _ => none
    | .ok keyMaterial =>
      (keyOf (dilithium.seedKeypair keyMaterial)).bind fun key =>
        if key.marked then deriveLoop seed path retries else some key

/-- `DeriveFromSeed`. -/
def deriveFromSeed (seed : Bytes) (path : DerivationPath) : Option PQKeyPair :=
  if seed.length < MIN_SEED_BYTES then none
  else deriveLoop hkdf dilithium seed path (List.range (MAX_DERIVE_RETRIES + 1))

/-- The key of the next address, which a wallet without a seed generates. -/
def nextKey (w : PQWallet) : Option PQKeyPair :=
  if w.isWatchOnly then none
  else if w.seed ≠ [] then deriveFromSeed hkdf dilithium w.seed { index := w.nextIndex }
  else generate dilithium

/-- `GetNewAddress`. -/
def getNewAddress (encode : Bytes → String) (w : PQWallet) : String × PQWallet :=
  match nextKey hkdf dilithium w with
  | none => ("", w)
  | some key =>
    (encode key.publicKey, { w with keys := w.keys ++ [key], nextIndex := w.nextIndex + 1 })

/-- The calls that make keys. -/
inductive KeyCall where
  | generate
  | generateFrom (entropy : Bytes)
  | deriveFromSeed (seed : Bytes) (path : DerivationPath)
  | getNewAddress (w : PQWallet)

/-- The key that a call makes. -/
def KeyCall.key : KeyCall → Option PQKeyPair
  | .generate => WalletKeys.generate dilithium
  | .generateFrom entropy => WalletKeys.generateFrom dilithium entropy
  | .deriveFromSeed seed path => WalletKeys.deriveFromSeed hkdf dilithium seed path
  | .getNewAddress w => nextKey hkdf dilithium w

/-- What the generator would return for a call that does not look at the key. -/
def KeyCall.unchecked : KeyCall → Option (Int × PQKeyPair)
  | .generate => some dilithium.keypair
  | .generateFrom entropy =>
    if entropy.length < 32 then none else some (dilithium.seedKeypair entropy)
  | .deriveFromSeed _ _ => none
  | .getNewAddress w => if w.isWatchOnly ∨ w.seed ≠ [] then none else some dilithium.keypair

end KeyPairs

variable {hkdf : Hkdf} {dilithium : Dilithium}

/-- A derived key does not carry the mark. -/
theorem deriveLoop_not_marked {seed : Bytes} {path : DerivationPath} {key : PQKeyPair}
    {retries : List Nat} (h : deriveLoop hkdf dilithium seed path retries = some key) :
    key.marked = false := by
  induction retries with
  | nil => cases h
  | cons retry retries ih =>
    rw [deriveLoop] at h
    split at h
    · cases h
    · obtain ⟨key', -, h⟩ := Option.bind_eq_some_iff.mp h
      split at h
      · exact ih h
      · rename_i hgood
        obtain rfl := Option.some.inj h
        exact Bool.eq_false_iff.mpr hgood

theorem deriveFromSeed_not_marked {seed : Bytes} {path : DerivationPath} {key : PQKeyPair}
    (h : deriveFromSeed hkdf dilithium seed path = some key) : key.marked = false := by
  rw [deriveFromSeed] at h
  split at h
  · cases h
  · exact deriveLoop_not_marked h

/-- **Which keys can spend.**  A call returns no key with the marker exactly where the generator
    gives none to a call that does not look: derived keys are always good, generated ones as good
    as the generator's. -/
theorem keys_unmarked_iff (hkdf : Hkdf) (dilithium : Dilithium) (call : KeyCall) :
    (∀ key, call.key hkdf dilithium = some key → key.marked = false) ↔
      ∀ r, call.unchecked dilithium = some r → r.1 = 0 → r.2.marked = false := by
  have hkey : ∀ r : Int × PQKeyPair, (∀ key, keyOf r = some key → key.marked = false) ↔
      (r.1 = 0 → r.2.marked = false) := by
    intro r
    rw [keyOf]
    split <;> simp_all
  cases call with
  | generate => simpa [KeyCall.key, KeyCall.unchecked, generate] using hkey dilithium.keypair
  | generateFrom entropy =>
    rw [KeyCall.key, KeyCall.unchecked, generateFrom]
    split
    · simp
    · simpa using hkey (dilithium.seedKeypair entropy)
  | deriveFromSeed seed path =>
    -- only this path looks at the marker
    exact iff_of_true (fun _ h => deriveFromSeed_not_marked h) (fun r hr => by cases hr)
  | getNewAddress w =>
    rw [KeyCall.key, KeyCall.unchecked, nextKey]
    cases w.isWatchOnly with
    | true => simp
    | false =>
      by_cases hseed : w.seed ≠ []
      · simpa [hseed] using fun key h => deriveFromSeed_not_marked h
      -- without a seed the wallet generates, unchecked
      · simpa [hseed, generate] using hkey dilithium.keypair

/-- The generator gives a key with the marker; it is returned, and is the key of an address. -/
def Sample.marked : Dilithium :=
  ⟨(0, ⟨INVALID_MARKER :: List.replicate 1311 0, List.replicate 2560 0⟩), fun _ => (1, ⟨[], []⟩)⟩

/-- A key that carries the mark of an invalid one is returned, and handed out as an address. -/
theorem marked_key_returned :
    generate Sample.marked = some Sample.marked.keypair.2 ∧
      (getNewAddress Sample.hkdf Sample.marked (fun _ => "sq1") ⟨false, [], 0, []⟩).2.keys =
        [Sample.marked.keypair.2] ∧
      Sample.marked.keypair.2.marked = true := by
  decide +kernel

/-! ## Recovery -/

/-- **A seed recovers the wallet.**  After any number of calls, a wallet that started with a seed
    has the keys of the first indexes, in order.  It has fewer than calls only where the next
    index gives no key. -/
theorem seed_recovers_wallet (hkdf : Hkdf) (dilithium : Dilithium) (encode : Bytes → String)
    (seed : { seed : Bytes // seed ≠ [] }) (n : Nat) :
    ∃ k keys, k ≤ n ∧
      (fun w => (getNewAddress hkdf dilithium encode w).2)^[n] ⟨false, seed, 0, []⟩ =
        ⟨false, seed, .ofNat k, keys⟩ ∧
      keys.map some = (List.range k).map
        (fun i => deriveFromSeed hkdf dilithium seed { index := .ofNat i }) ∧
      (k < n → deriveFromSeed hkdf dilithium seed { index := .ofNat k } = none) := by
  induction n with
  | zero => exact ⟨0, [], le_refl 0, rfl, rfl, fun h => absurd h (Nat.lt_irrefl 0)⟩
  | succ n ih =>
    obtain ⟨k, keys, hk, hrun, hkeys, hstuck⟩ := ih
    rw [Function.iterate_succ_apply', hrun]
    simp only [getNewAddress, nextKey, Bool.false_eq_true, if_false, if_pos seed.2]
    cases hnext : deriveFromSeed hkdf dilithium seed { index := .ofNat k } with
    | none => exact ⟨k, keys, by omega, rfl, hkeys, fun _ => hnext⟩
    | some key =>
      -- there is a key at the next index, so no call has failed so far
      have hall : k = n := by
        by_contra hne
        rw [hstuck (by omega)] at hnext
        cases hnext
      refine ⟨k + 1, keys ++ [key], by omega, ?_, ?_, fun h => absurd h (by omega)⟩
      · rw [UInt32.ofNat_add]
        rfl
      · simp [hkeys, List.range_succ, hnext]

end Soqucoin.WalletKeys
