import Soqucoin.Primitives

/-! # WalletFile — encrypting a wallet file in place

`EncryptFile` and `DecryptFile` of `wallet/pqwallet/pqcrypto.cpp` write the new content to a
temporary file and rename it over the old one.  They look at the stream after the buffered write,
and not after the flush or the close. -/

namespace Soqucoin.WalletFile

/-- Which of the file operations of a call succeed. -/
structure FileOps where
  openInput : Bool := true
  openOutput : Bool := true
  write : Bool := true
  flush : Bool := true
  close : Bool := true
  rename : Bool := true

/-- The wallet file and the temporary file beside it. -/
structure Files where
  path : Bytes
  tmpPath : Option Bytes
deriving DecidableEq

/-- What the output file holds once it is closed; `stored` bytes have reached it if the write, the
    flush or the close fails. -/
def FileOps.output (ops : FileOps) (stored : Nat) (content : Bytes) : Bytes :=
  if ops.write && ops.flush && ops.close then content else content.take stored

/-- The two functions, for what they make of the content. -/
def rewriteFile (transform : Bytes → Option Bytes) (ops : FileOps) (stored : Nat)
    (files : Files) : Bool × Files :=
  if !ops.openInput then (false, files)
  else
    match transform files.path with
    | none => (false, files)
    | some content =>
      if !ops.openOutput then (false, files)
      -- the temporary file is removed
      else if !ops.write then (false, { files with tmpPath := none })
      else if !ops.rename then (false, { files with tmpPath := none })
      else (true, ⟨ops.output stored content, none⟩)

/-- `EncryptFile`, with the serialised result of `Encrypt`. -/
def encryptFile (encrypt : Bytes → Bytes → Option Bytes) (passphrase : Bytes) (ops : FileOps)
    (stored : Nat) (files : Files) : Bool × Files :=
  rewriteFile (encrypt passphrase) ops stored files

/-- `DecryptFile`; `Deserialize` and `Decrypt` may both refuse the content. -/
def decryptFile (decrypt : Bytes → Bytes → Option Bytes) (passphrase : Bytes) (ops : FileOps)
    (stored : Nat) (files : Files) : Bool × Files :=
  rewriteFile (decrypt passphrase) ops stored files

/-- The file holds its old or its whole new content, and the new one where the call succeeds. -/
def Kept (transform : Bytes → Option Bytes) (files : Files) (r : Bool × Files) : Prop :=
  (r.2.path = files.path ∨ transform files.path = some r.2.path) ∧
    (r.1 = true → transform files.path = some r.2.path)

/-- The buffered write succeeds, and what is not looked at after it fails. -/
def FileOps.Unnoticed (ops : FileOps) : Prop :=
  ops.openInput ∧ ops.openOutput ∧ ops.write ∧ ops.rename ∧ ¬ (ops.flush ∧ ops.close)

variable {transform : Bytes → Option Bytes} {ops : FileOps} {stored : Nat} {files : Files}

theorem rewriteFile_unnoticed (h : ops.Unnoticed) {content : Bytes}
    (htransform : transform files.path = some content) :
    rewriteFile transform ops stored files = (true, ⟨content.take stored, none⟩) := by
  obtain ⟨hin, hout, hwrite, hrename, hlost⟩ := h
  have hcut : (ops.flush && ops.close) = false := by grind
  simp [rewriteFile, FileOps.output, htransform, hin, hout, hwrite, hrename, hcut]

theorem rewriteFile_kept (h : ¬ ops.Unnoticed) :
    Kept transform files (rewriteFile transform ops stored files) := by
  rw [FileOps.Unnoticed] at h
  simp only [rewriteFile, Kept, FileOps.output]
  grind

/-- What holds of the old content and of the new one holds of the file after a call. -/
theorem rewriteFile_path {P : Bytes → Prop} (h : ¬ ops.Unnoticed) (hold : P files.path)
    (hnew : ∀ content, transform files.path = some content → P content) :
    P (rewriteFile transform ops stored files).2.path := by
  have hkept : Kept transform files (rewriteFile transform ops stored files) := rewriteFile_kept h
  obtain heq | heq := hkept.1
  · exact heq.symm ▸ hold
  · exact hnew _ heq

/-- A rewrite keeps the content exactly if no late error goes unnoticed. -/
theorem rewriteFile_kept_iff (transform : Bytes → Option Bytes) (ops : FileOps) (files : Files) :
    (∀ stored, Kept transform files (rewriteFile transform ops stored files)) ↔
      (ops.Unnoticed → ∀ content, transform files.path = some content → content = []) := by
  constructor
  · intro h hun content htransform
    -- nothing has been stored, and the call returns true
    have hnone := (h 0).2
    rw [rewriteFile_unnoticed hun htransform, htransform] at hnone
    exact Option.some.inj (hnone rfl)
  · intro h stored
    by_cases hun : ops.Unnoticed
    · cases htransform : transform files.path with
      | none =>
        simp only [rewriteFile, Kept, htransform]
        grind
      | some content =>
        obtain rfl := h hun content htransform
        rw [Kept, rewriteFile_unnoticed hun htransform, htransform, List.take_nil]
        exact ⟨.inr rfl, fun _ => rfl⟩
    · exact rewriteFile_kept hun

/-- **A wallet file is kept exactly when no late error goes unnoticed.**  However much of the
    output has been stored, the file holds its old content or the whole new one, and the new one
    where the call returns true, if and only if the flush and the close succeed whenever all that
    is looked at does (an empty output apart, which cannot be cut). -/
theorem wallet_file_kept_iff (encrypt decrypt : Bytes → Bytes → Option Bytes) (passphrase : Bytes)
    (ops : FileOps) (files : Files) :
    ((∀ stored, Kept (encrypt passphrase) files
        (encryptFile encrypt passphrase ops stored files)) ↔
      (ops.Unnoticed → ∀ content, encrypt passphrase files.path = some content → content = [])) ∧
    ((∀ stored, Kept (decrypt passphrase) files
        (decryptFile decrypt passphrase ops stored files)) ↔
      (ops.Unnoticed → ∀ content, decrypt passphrase files.path = some content → content = [])) :=
  ⟨rewriteFile_kept_iff (encrypt passphrase) ops files,
    rewriteFile_kept_iff (decrypt passphrase) ops files⟩

/-- The disk is full when the buffer is flushed: both calls return true, and the wallet is gone. -/
theorem wallet_lost_on_full_disk :
    encryptFile (fun _ content => some (83 :: content)) [] { flush := false } 0 ⟨[1, 2, 3], none⟩ =
        (true, ⟨[], none⟩) ∧
      decryptFile (fun _ content => some content.tail) [] { flush := false } 0 ⟨[83, 1, 2], none⟩ =
        (true, ⟨[], none⟩) := by
  decide

end Soqucoin.WalletFile
