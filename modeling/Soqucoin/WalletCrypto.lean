import Soqucoin.WalletFile
import Soqucoin.WalletKeys

/-! # WalletCrypto — the encrypted wallet container

`DeriveKey`, `EncryptedData`, `Encrypt` and `Decrypt` of `wallet/pqwallet/pqcrypto.cpp`, over
arbitrary primitives.  A container is read back wherever the KDF it names is still there; one in
which a field has changed is refused, because the tag covers all fields but itself.  The layers
that calls on a file leave can be opened one by one (`Opens`). -/

namespace Soqucoin.WalletCrypto

open WalletKeys

/-- A salt, an IV or a tag. -/
abbrev Block := { b : Bytes // b.length = 16 }

def KDF_ID_PBKDF2 : UInt8 := 1
def KDF_ID_SCRYPT : UInt8 := 2
def KDF_ID_ARGON2ID : UInt8 := 3

/-- In the order in which encryption tries them. -/
def kdfIds : List UInt8 := [KDF_ID_ARGON2ID, KDF_ID_SCRYPT, KDF_ID_PBKDF2]

/-- The primitives; AES-CBC decryption undoes encryption on whole blocks. -/
structure Primitives where
  kdf : UInt8 → Bytes → Block → Bytes
  encrypt : Bytes → Block → Bytes → Bytes
  decrypt : Bytes → Block → Bytes → Bytes
  hmac : Bytes → Bytes → Bytes
  encrypt_size : ∀ key iv text, (encrypt key iv text).length = text.length
  decrypt_encrypt : ∀ key iv text, 16 ∣ text.length → decrypt key iv (encrypt key iv text) = text
  hmac_size : ∀ key text, (hmac key text).length = 32

/-- The parts of a container. -/
structure EncryptedData where
  kdf_id : UInt8
  salt : Block
  iv : Block
  tag : Block
  ciphertext : Bytes
deriving DecidableEq

/-- What a container starts with. -/
def WALLET_MAGIC : Bytes := ascii "SQW2"
def WALLET_VERSION : UInt32 := 2
def INT_MAX : Nat := 2 ^ 31 - 1

/-- A number, big-endian. -/
def readBE (b : Bytes) : Nat := readLE b.reverse

namespace EncryptedData

/-- `Serialize` for any version. -/
def serializeAs (version : UInt32) (e : EncryptedData) : Bytes :=
  WALLET_MAGIC ++ writeBE 4 version.toNat ++ [e.kdf_id] ++ e.salt.1 ++ e.iv.1 ++ e.tag.1 ++
    writeBE 4 (e.ciphertext.length % 2 ^ 32) ++ e.ciphertext

/-- `Serialize`. -/
def serialize (e : EncryptedData) : Bytes := e.serializeAs WALLET_VERSION

/-- Sixteen bytes from a position on. -/
def blockAt (data : Bytes) (pos : Nat) (h : pos + 16 ≤ data.length) : Block :=
  ⟨(data.drop pos).take 16, by rw [List.length_take, List.length_drop]; omega⟩

/-- `Deserialize`. -/
def deserialize (data : Bytes) : Option EncryptedData :=
  if h : data.length < 61 then none
  else if data.take 4 ≠ WALLET_MAGIC then none
  else if readBE ((data.drop 4).take 4) ≠ WALLET_VERSION.toNat then none
  else
    let kdf_id := (data.drop 8).headD 0
    if kdf_id ≠ KDF_ID_PBKDF2 ∧ kdf_id ≠ KDF_ID_SCRYPT ∧ kdf_id ≠ KDF_ID_ARGON2ID then none
    else
      let ctLen := readBE ((data.drop 57).take 4)
      if ctLen > data.length - 61 then none
      else
        some ⟨kdf_id, blockAt data 9 (by omega), blockAt data 25 (by omega),
          blockAt data 41 (by omega), (data.drop 61).take ctLen⟩

/-- What the tag is computed from. -/
def macInput (e : EncryptedData) : Bytes :=
  writeBE 4 WALLET_VERSION.toNat ++ [e.kdf_id] ++ e.salt.1 ++ e.iv.1 ++ e.ciphertext

end EncryptedData

section Crypto

variable (p : Primitives) (available : UInt8 → Bool) (passphrase : Bytes)

/-- `DeriveArgon2id`, `DeriveScrypt` and `DerivePbkdf2`; only the last one looks at the key. -/
def deriveOne (kdf_id : UInt8) (salt : Block) : Option Bytes :=
  if !available kdf_id then none
  else
    let derivedKey := p.kdf kdf_id passphrase salt
    if kdf_id = KDF_ID_PBKDF2 ∧ derivedKey.all (· = 0) then none else some derivedKey

/-- `DeriveKey` of encryption: the first KDF that works. -/
def deriveKey (salt : Block) : Option (Bytes × UInt8) :=
  kdfIds.findSome? fun kdf_id => (deriveOne p available passphrase kdf_id salt).map (·, kdf_id)

/-- `DeriveKey` of decryption. -/
def deriveKeyWith (salt : Block) (required_kdf_id : UInt8) : Option (Bytes × UInt8) :=
  if required_kdf_id ∈ kdfIds then
    (deriveOne p available passphrase required_kdf_id salt).map (·, required_kdf_id)
  else none

/-- HMAC-SHA256, cut to the size of a tag. -/
def mac (key text : Bytes) : Block :=
  ⟨(p.hmac key text).take 16, by rw [List.length_take, p.hmac_size]; rfl⟩

/-- PKCS7. -/
def pad (plaintext : Bytes) : Bytes :=
  let padLen := 16 - plaintext.length % 16
  plaintext ++ List.replicate padLen (UInt8.ofNat padLen)

/-- The text without its padding, if that is well formed. -/
def unpad (decrypted : Bytes) : Option Bytes :=
  match decrypted.getLast? with
  | none => none
  | some padLen =>
    let newSize := decrypted.length - padLen.toNat
    if padLen = 0 ∨ padLen.toNat > 16 ∨ padLen.toNat > decrypted.length then none
    else if (decrypted.drop newSize).all (· = padLen) then some (decrypted.take newSize)
    else none

/-- `Encrypt` with the random salt and IV. -/
def encrypt (salt iv : Block) (plaintext : Bytes) : Option EncryptedData :=
  (deriveKey p available passphrase salt).bind fun r =>
    let padded := pad plaintext
    if padded.length > INT_MAX then none
    else
      let e : EncryptedData :=
        ⟨r.2, salt, iv, ⟨List.replicate 16 0, rfl⟩, p.encrypt r.1 iv padded⟩
      some { e with tag := mac p r.1 e.macInput }

/-- `Decrypt`: the key of the container's own KDF, the tag, then the text. -/
def decrypt (e : EncryptedData) : Option Bytes :=
  (deriveKeyWith p available passphrase e.salt e.kdf_id).bind fun r =>
    if r.2 ≠ e.kdf_id then none
    -- compared byte by byte in constant time
    else if e.tag ≠ mac p r.1 e.macInput then none
    else if e.ciphertext.length > INT_MAX then none
    else unpad (p.decrypt r.1 e.iv e.ciphertext)

end Crypto

/-! ## The container -/

theorem readBE_writeBE {width n : Nat} (h : n < 256 ^ width) : readBE (writeBE width n) = n := by
  rw [readBE, writeBE, List.reverse_reverse, readLE_writeLE h]

namespace EncryptedData

/-- A container is read back under its own version alone. -/
theorem deserialize_serializeAs (version : UInt32) (e : EncryptedData)
    (hsize : e.ciphertext.length < 2 ^ 32) :
    deserialize (e.serializeAs version) =
      if version = WALLET_VERSION ∧ e.kdf_id ∈ kdfIds then some e else none := by
  obtain ⟨kdf_id, ⟨salt, hsalt⟩, ⟨iv, hiv⟩, ⟨tag, htag⟩, ciphertext⟩ := e
  have hsize : ciphertext.length < 4294967296 := hsize
  have hmagic : WALLET_MAGIC.length = 4 := by decide +kernel
  have hversion : readBE (writeBE 4 version.toNat) = version.toNat :=
    readBE_writeBE version.toNat_lt
  have hlen : readBE (writeBE 4 ciphertext.length) = ciphertext.length := readBE_writeBE hsize
  have hdata : serializeAs version ⟨kdf_id, ⟨salt, hsalt⟩, ⟨iv, hiv⟩, ⟨tag, htag⟩, ciphertext⟩ =
      WALLET_MAGIC ++ (writeBE 4 version.toNat ++ (kdf_id :: (salt ++ (iv ++ (tag ++
        (writeBE 4 ciphertext.length ++ ciphertext)))))) := by
    simp [serializeAs, Nat.mod_eq_of_lt hsize]
  rw [hdata, deserialize, dif_neg (by simp [hmagic, hsalt, hiv, htag]; omega)]
  simp [hmagic, hsalt, hiv, htag, hversion, hlen, blockAt, List.drop_append,
    List.drop_of_length_le, UInt32.toNat_inj, kdfIds]
  grind

theorem macInput_fields {e e' : EncryptedData} (h : e.macInput = e'.macInput) :
    e.kdf_id = e'.kdf_id ∧ e.salt = e'.salt ∧ e.iv = e'.iv ∧ e.ciphertext = e'.ciphertext := by
  obtain ⟨h, hciphertext⟩ := List.append_inj h (by simp [e.salt.2, e.iv.2, e'.salt.2, e'.iv.2])
  obtain ⟨h, hiv⟩ := List.append_inj h (by simp [e.salt.2, e'.salt.2])
  obtain ⟨h, hsalt⟩ := List.append_inj h (by simp)
  have hkdf := List.append_cancel_left h
  exact ⟨List.head_eq_of_cons_eq hkdf, Subtype.ext hsalt, Subtype.ext hiv, hciphertext⟩

theorem eq_of_macInput {e e' : EncryptedData} (h : e.macInput = e'.macInput)
    (htag : e.tag = e'.tag) : e = e' := by
  obtain ⟨hkdf, hsalt, hiv, hciphertext⟩ := macInput_fields h
  rw [EncryptedData.mk.injEq]
  exact ⟨hkdf, hsalt, hiv, htag, hciphertext⟩

end EncryptedData

open EncryptedData

/-! ## Encryption -/

/-- Padding is taken off again. -/
theorem unpad_pad (plaintext : Bytes) : unpad (pad plaintext) = some plaintext := by
  have hlt := Nat.mod_lt plaintext.length (show 0 < 16 by decide)
  generalize hlen : 16 - plaintext.length % 16 = padLen
  have hbyte : (UInt8.ofNat padLen).toNat = padLen := by
    rw [UInt8.toNat_ofNat', Nat.mod_eq_of_lt (by omega)]
  have hpos : UInt8.ofNat padLen ≠ 0 := fun h0 => by
    rw [h0, UInt8.toNat_zero] at hbyte
    omega
  have hlast : (plaintext ++ List.replicate padLen (UInt8.ofNat padLen)).getLast? =
      some (UInt8.ofNat padLen) := by
    rw [List.getLast?_append, List.getLast?_replicate, if_neg (by omega)]
    rfl
  rw [pad, unpad, hlen, hlast]
  simp [hbyte, hpos]
  omega

theorem length_pad (plaintext : Bytes) : 16 ∣ (pad plaintext).length := by
  rw [pad, List.length_append, List.length_replicate]
  omega

variable {p : Primitives} {available available' : UInt8 → Bool} {passphrase plaintext key : Bytes}
  {salt iv : Block} {kdf_id : UInt8} {e e' : EncryptedData}

theorem deriveOne_eq (h : deriveOne p available passphrase kdf_id salt = some key) :
    key = p.kdf kdf_id passphrase salt := by
  grind [deriveOne]

/-- What encryption makes. -/
theorem encrypt_eq_some (h : encrypt p available passphrase salt iv plaintext = some e) :
    ∃ key, deriveOne p available passphrase e.kdf_id e.salt = some key ∧ e.kdf_id ∈ kdfIds ∧
      e.tag = mac p key e.macInput ∧ e.ciphertext = p.encrypt key e.iv (pad plaintext) ∧
      e.ciphertext.length ≤ INT_MAX := by
  obtain ⟨r, hkey, h⟩ := Option.bind_eq_some_iff.mp h
  obtain ⟨kdf_id, hmem, hkey⟩ := List.exists_of_findSome?_eq_some hkey
  obtain ⟨key, hone, rfl⟩ := Option.map_eq_some_iff.mp hkey
  dsimp only at h
  split at h
  · cases h
  · rename_i hsize
    obtain rfl := Option.some.inj h
    refine ⟨key, hone, hmem, rfl, rfl, ?_⟩
    rw [p.encrypt_size]
    omega

theorem encrypt_eq_none : encrypt p available passphrase salt iv plaintext = none ↔
    (pad plaintext).length > INT_MAX ∨ deriveKey p available passphrase salt = none := by
  rw [encrypt]
  cases deriveKey p available passphrase salt with
  | none => simp
  | some r => simp

/-- What decryption has tested. -/
theorem decrypt_eq_some {text : Bytes} (h : decrypt p available passphrase e = some text) :
    ∃ key, deriveOne p available passphrase e.kdf_id e.salt = some key ∧
      e.tag = mac p key e.macInput := by
  obtain ⟨r, hkey, h⟩ := Option.bind_eq_some_iff.mp h
  rw [deriveKeyWith] at hkey
  split at hkey
  · obtain ⟨key, hone, rfl⟩ := Option.map_eq_some_iff.mp hkey
    refine ⟨key, hone, ?_⟩
    rw [if_neg (not_not_intro rfl)] at h
    split at h
    · cases h
    · rename_i htag
      exact not_not.mp htag
  · cases hkey

theorem decrypt_encrypted (h : encrypt p available passphrase salt iv plaintext = some e)
    (havailable : available' e.kdf_id) : decrypt p available' passphrase e = some plaintext := by
  obtain ⟨key, hone, hmem, htag, htext, hsize⟩ := encrypt_eq_some h
  have hone' : deriveOne p available' passphrase e.kdf_id e.salt = some key := by
    grind [deriveOne]
  rw [decrypt, deriveKeyWith, if_pos hmem, hone', Option.map_some, Option.bind_some,
    if_neg (not_not_intro rfl), if_neg (not_not_intro htag), if_neg (by omega), htext,
    p.decrypt_encrypt _ _ _ (length_pad plaintext), unpad_pad]

/-- A container is refused if its tag alone, or anything but its tag, has changed. -/
theorem decrypt_changed (h : encrypt p available passphrase salt iv plaintext = some e)
    (hne : e' ≠ e) (hpart : e'.tag = e.tag ∨ e'.macInput = e.macInput)
    (hmac : mac p (p.kdf e.kdf_id passphrase e.salt) e.macInput =
      mac p (p.kdf e'.kdf_id passphrase e'.salt) e'.macInput → e.macInput = e'.macInput) :
    decrypt p available' passphrase e' = none := by
  obtain ⟨key, hone, -, htag, -, -⟩ := encrypt_eq_some h
  rw [Option.eq_none_iff_forall_ne_some]
  intro text htext
  obtain ⟨key', hone', htag'⟩ := decrypt_eq_some htext
  rcases hpart with hsame | hsame
  · have hinput := hmac (by
      rw [← deriveOne_eq hone, ← deriveOne_eq hone', ← htag, ← htag', hsame])
    exact hne (eq_of_macInput hinput.symm hsame)
  · -- the key is the one that made the tag
    obtain ⟨hid, hsalt, -, -⟩ := macInput_fields hsame
    have hkey : key' = key := by rw [deriveOne_eq hone', deriveOne_eq hone, hid, hsalt]
    exact hne (eq_of_macInput hsame (by rw [htag', htag, hkey, hsame]))

/-- **The wallet container.**  Encryption fails only on a plaintext that is too long, or where no
    KDF works.  What it makes is serialised, read and decrypted to the plaintext wherever the KDF
    it was made with is there.  If the tags of two containers, each under the key that its own KDF
    and salt give, agree only where what they cover does, one with another version, another tag,
    or other contents under the tag is refused. -/
theorem wallet_container (p : Primitives) (available available' : UInt8 → Bool)
    (passphrase plaintext : Bytes) (salt iv : Block) :
    (encrypt p available passphrase salt iv plaintext = none ↔
      (pad plaintext).length > INT_MAX ∨ deriveKey p available passphrase salt = none) ∧
    ∀ e, encrypt p available passphrase salt iv plaintext = some e →
      (available' e.kdf_id →
        (deserialize e.serialize).bind (decrypt p available' passphrase) = some plaintext) ∧
      ∀ (version : UInt32) (e' : EncryptedData), version ≠ WALLET_VERSION ∨ e' ≠ e →
        e'.ciphertext.length = e.ciphertext.length →
        e'.tag = e.tag ∨ e'.macInput = e.macInput →
        (mac p (p.kdf e.kdf_id passphrase e.salt) e.macInput =
          mac p (p.kdf e'.kdf_id passphrase e'.salt) e'.macInput → e.macInput = e'.macInput) →
        (deserialize (e'.serializeAs version)).bind (decrypt p available' passphrase) = none := by
  refine ⟨encrypt_eq_none, fun e h => ?_⟩
  obtain ⟨key, -, hmem, -, -, hsize⟩ := encrypt_eq_some h
  have hfits : e.ciphertext.length < 2 ^ 32 := lt_of_le_of_lt hsize (by decide)
  constructor
  · intro havailable
    rw [serialize, deserialize_serializeAs _ _ hfits, if_pos ⟨rfl, hmem⟩]
    exact decrypt_encrypted h havailable
  · intro version e' hne hlen hpart hmac
    rw [deserialize_serializeAs _ _ (hlen ▸ hfits)]
    split
    · rename_i hread
      exact decrypt_changed h (hne.resolve_left (not_not_intro hread.1)) hpart hmac
    · rfl

namespace Sample

/-- Stand-ins: a key tells the KDF, the salt and the passphrase apart, the text is its own
    encryption, and a MAC is the beginning of the key with the text. -/
def primitives : Primitives where
  kdf kdf_id passphrase salt := kdf_id :: salt.1.headD 0 :: passphrase
  encrypt _ _ text := text
  decrypt _ _ text := text
  hmac key text := (key ++ text ++ List.replicate 32 0).take 32
  encrypt_size _ _ _ := rfl
  decrypt_encrypt _ _ _ _ := rfl
  hmac_size key text := by simp [← Nat.add_assoc]

/-- A block of one byte, repeated. -/
def block (n : UInt8) : Block := ⟨List.replicate 16 n, rfl⟩

/-- What encryption makes of the text. -/
def container : EncryptedData :=
  ⟨2, block 5, block 6, ⟨[2, 5, 7, 0, 0, 0, 2, 2, 5, 5, 5, 5, 5, 5, 5, 5], rfl⟩, pad [8]⟩

end Sample

open WalletCrypto.Sample in
/-- A container made with scrypt, and the same with another salt. -/
theorem wallet_container_scrypt :
    (deserialize container.serialize).bind (decrypt primitives (fun _ => true) [7]) =
        some [8] ∧
      (deserialize (serialize { container with salt := block 9 })).bind
        (decrypt primitives (fun _ => true) [7]) = none := by
  obtain ⟨hread, hchanged⟩ := (wallet_container primitives (· ≠ KDF_ID_ARGON2ID) (fun _ => true)
    [7] [8] (block 5) (block 6)).2 container (by decide +kernel)
  refine ⟨hread rfl, ?_⟩
  refine hchanged WALLET_VERSION _ (.inr (by decide +kernel)) rfl (.inl rfl) ?_
  decide +kernel

/-! ## The wallet file -/

open WalletFile

/-- A call of `EncryptFile`, with the salt and the IV it draws, or of `DecryptFile`, in which no
    late error goes unnoticed. -/
structure FileCall where
  drawn : Option (Block × Block)
  available : UInt8 → Bool
  ops : FileOps
  stored : Nat
  noticed : ¬ ops.Unnoticed

/-- `DecryptFile` where every KDF is there and nothing fails. -/
def decryptCall : FileCall := ⟨none, fun _ => true, {}, 0, fun h => h.2.2.2.2 ⟨rfl, rfl⟩⟩

section File

variable (p : Primitives) (passphrase : Bytes)

/-- The files after a call. -/
def FileCall.run (files : Files) (call : FileCall) : Files :=
  match call.drawn with
  | some (salt, iv) =>
    (encryptFile (fun passphrase text =>
      (encrypt p call.available passphrase salt iv text).map serialize)
      passphrase call.ops call.stored files).2
  | none =>
    (decryptFile (fun passphrase data =>
      (deserialize data).bind (decrypt p call.available passphrase))
      passphrase call.ops call.stored files).2

/-- Decryption, as often as needed, gives the wallet. -/
inductive Opens (wallet : Bytes) : Bytes → Prop
  | plain : Opens wallet wallet
  | layer {content inner : Bytes} {e : EncryptedData} (read : deserialize content = some e)
      (opened : decrypt p (fun _ => true) passphrase e = some inner)
      (inside : Opens wallet inner) : Opens wallet content

variable {p passphrase} {wallet : Bytes} {files : Files}

theorem decrypt_available {available : UInt8 → Bool} {e : EncryptedData} {text : Bytes}
    (h : decrypt p available passphrase e = some text) :
    decrypt p (fun _ => true) passphrase e = some text := by
  obtain ⟨key, hone, -⟩ := decrypt_eq_some h
  have hall : deriveOne p (fun _ => true) passphrase e.kdf_id e.salt = some key := by
    grind [deriveOne]
  rw [← h, decrypt, decrypt, deriveKeyWith, deriveKeyWith, hone, hall]

/-- A call leaves a file that still opens to the wallet. -/
theorem Opens.run (hwallet : deserialize wallet = none) (h : Opens p passphrase wallet files.path)
    (call : FileCall) : Opens p passphrase wallet (call.run p passphrase files).path := by
  rw [FileCall.run]
  split
  · refine rewriteFile_path call.noticed h fun content hnew => ?_
    obtain ⟨e, made, rfl⟩ := Option.map_eq_some_iff.mp hnew
    obtain ⟨key, -, hmem, -, -, hsize⟩ := encrypt_eq_some made
    have hread : deserialize e.serialize = some e := by
      rw [serialize, deserialize_serializeAs _ _ (lt_of_le_of_lt hsize (by decide)),
        if_pos ⟨rfl, hmem⟩]
    exact .layer hread (decrypt_encrypted made rfl) h
  · refine rewriteFile_path call.noticed h fun content hnew => ?_
    obtain ⟨e, hread, hopened⟩ := Option.bind_eq_some_iff.mp hnew
    generalize files.path = path at h hread
    cases h with
    | plain => simp [hwallet] at hread
    | layer read opened inside =>
      obtain rfl := Option.some.inj (read.symm.trans hread)
      exact Option.some.inj (opened.symm.trans (decrypt_available hopened)) ▸ inside

theorem Opens.recovered {content : Bytes} (h : Opens p passphrase wallet content) :
    ∃ n, ∀ files, files.path = content →
      ((List.replicate n decryptCall).foldl (FileCall.run p passphrase) files).path = wallet := by
  induction h with
  | plain => exact ⟨0, fun _ h => h⟩
  | layer read opened inside ih =>
    obtain ⟨n, hn⟩ := ih
    refine ⟨n + 1, fun files hpath => hn _ ?_⟩
    simp [FileCall.run, decryptCall, decryptFile, rewriteFile, hpath, read, opened, FileOps.output]

end File

/-- **The wallet stays in its file.**  After any calls of `EncryptFile` and `DecryptFile` with one
    passphrase, whatever KDFs they find and whatever fails in them, if no late error goes
    unnoticed, some calls of `DecryptFile` bring the wallet back. -/
theorem wallet_file_recovered (p : Primitives) (passphrase : Bytes)
    (wallet : { wallet : Bytes // deserialize wallet = none }) (calls : List FileCall) :
    ∃ n, ((calls ++ List.replicate n decryptCall).foldl (FileCall.run p passphrase)
      ⟨wallet, none⟩).path = wallet := by
  have hrun : ∀ files : Files, Opens p passphrase wallet files.path →
      Opens p passphrase wallet (calls.foldl (FileCall.run p passphrase) files).path := by
    induction calls with
    | nil => exact fun _ h => h
    | cons call calls ih => exact fun files h => ih _ (h.run wallet.2 call)
  obtain ⟨n, hn⟩ := (hrun ⟨wallet, none⟩ .plain).recovered
  exact ⟨n, List.foldl_append ▸ hn _ rfl⟩

end Soqucoin.WalletCrypto
