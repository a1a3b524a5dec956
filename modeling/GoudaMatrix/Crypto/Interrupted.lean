/-
  `encrypt_to_file` step by step. `tokio::fs::write` creates or truncates the file and then
  writes the bytes in any number of steps, so the process can stop, or a write can fail, in
  between.

  `interrupted_state_readable_iff`: the file decrypts to the old plaintext or to the new one
  unless it has been truncated and bytes are still missing. A run that ends well leaves the files
  of the atomic `encryptToFile` (`encryptToFile_of_done`), and no other file is ever touched
  (`read_other_of_run`).
-/
import GoudaMatrix.Crypto
import GoudaMatrix.Lib.Run

namespace GoudaMatrix.Crypto

open GoudaMatrix.Lib

/-! ## Steps -/

/-- Where `encrypt_to_file` stands. `encrypted` carries the bytes to write, `writing` and
    `writeFailed` the written ones and the missing ones. -/
inductive Stage where
  | start
  | encrypted (bytes : List UInt8)
  | failed (error : CryptoError)
  | writing (written rest : List UInt8)
  | writeFailed (written rest : List UInt8)
  | done

inductive EncryptAction where
  /-- Derive a key and encrypt. -/
  | encrypt
  /-- Open the file. `false` is an error of the file system. -/
  | create (ok : Bool)
  /-- Write the next `n` bytes. -/
  | write (n : Nat)
  | writeFails
  | close

structure EncryptState where
  fs : FileSystem (List UInt8)
  stage : Stage

/-- The result of `encrypt_to_file`, once it has returned. -/
def Stage.result : Stage → Option (Result Unit)
  | failed e => some (.error e)
  | writeFailed _ _ => some (.error .io)
  | done => some (.ok ())
  | _ => none

/-- The file has been truncated and has not got all of its bytes. -/
def Stage.Incomplete : Stage → Prop
  | writing _ rest | writeFailed _ rest => rest ≠ []
  | _ => False

/-- What `encrypt_to_file` is called with, and the random bytes that it draws. -/
structure EncryptCall where
  salt : Bytes 16
  nonce : Bytes 12
  file : Path
  passphrase : String
  decrypted : List UInt8

section Steps

variable (crypto : Primitives) (call : EncryptCall)

/-- The bytes that are written: the salt, the nonce and the sealed text. -/
def encryptedFile : Result (List UInt8) := do
  let (salt, key) ← deriveNewKey crypto call.salt call.passphrase
  let encrypted ← encrypt crypto call.nonce call.decrypted key
  return salt.1 ++ encrypted

def encryptStep (s : EncryptState) : EncryptAction → Option EncryptState
  | .encrypt =>
    match s.stage with
    | .start =>
      match encryptedFile crypto call with
      | .ok bytes => some { s with stage := .encrypted bytes }
      | .error e => some { s with stage := .failed e }
    | _ => none
  | .create ok =>
    match s.stage with
    | .encrypted bytes =>
      if ok then (s.fs.write call.file []).map fun fs => { fs := fs, stage := .writing [] bytes }
      else some { s with stage := .failed .io }
    | _ => none
  | .write n =>
    match s.stage with
    | .writing written rest =>
      if 0 < n ∧ n ≤ rest.length then
        (s.fs.write call.file (written ++ rest.take n)).map fun fs =>
          { fs := fs, stage := .writing (written ++ rest.take n) (rest.drop n) }
      else none
    | _ => none
  | .writeFails =>
    match s.stage with
    | .writing written rest =>
      if rest = [] then none else some { s with stage := .writeFailed written rest }
    | _ => none
  | .close =>
    match s.stage with
    | .writing _ rest => if rest = [] then some { s with stage := .done } else none
    | _ => none

def encryptSystem : System EncryptState EncryptAction := ⟨encryptStep crypto call⟩

/-! ## The reachable states -/

/-- What has happened to the files at a stage. -/
def StageInv (fs : FileSystem (List UInt8)) (s : EncryptState) : Prop :=
  match s.stage with
  | .start | .failed _ => s.fs = fs
  | .encrypted bytes => s.fs = fs ∧ encryptedFile crypto call = .ok bytes
  | .writing written rest | .writeFailed written rest =>
    encryptedFile crypto call = .ok (written ++ rest) ∧ fs.write call.file written = some s.fs
  | .done => ∃ bytes, encryptedFile crypto call = .ok bytes ∧ fs.write call.file bytes = some s.fs

theorem write_write {B : Type} {fs fs' : FileSystem B} {p : Path} {old : B}
    (h : fs.write p old = some fs') (new : B) : fs'.write p new = fs.write p new := by
  unfold FileSystem.write at h ⊢
  split at h
  · next hp =>
    obtain rfl := Option.some.inj h
    simp only [hp, and_self, if_true, not_false_eq_true, AList.insert_insert]
  · cases h

theorem stageInv_step {fs : FileSystem (List UInt8)} (s : EncryptState) (a : EncryptAction)
    (t : EncryptState) (h : StageInv crypto call fs s)
    (hstep : encryptStep crypto call s a = some t) :
    StageInv crypto call fs t := by
  obtain ⟨files, stage⟩ := s
  cases a with
  | encrypt =>
    cases stage with
    | start =>
      cases hbytes : encryptedFile crypto call with
      | error e =>
        simp only [encryptStep, hbytes, Option.some.injEq] at hstep
        subst hstep
        exact h
      | ok bytes =>
        simp only [encryptStep, hbytes, Option.some.injEq] at hstep
        subst hstep
        exact ⟨h, hbytes⟩
    | _ => cases hstep
  | create ok =>
    cases stage with
    | encrypted bytes =>
      obtain ⟨hfs, hbytes⟩ := h
      cases ok with
      | false =>
        simp only [encryptStep, Bool.false_eq_true, if_false, Option.some.injEq] at hstep
        subst hstep
        exact hfs
      | true =>
        simp only [encryptStep, if_true, Option.map_eq_some_iff] at hstep
        obtain ⟨files', hwrite, rfl⟩ := hstep
        exact ⟨hbytes, hfs ▸ hwrite⟩
    | _ => cases hstep
  | write n =>
    cases stage with
    | writing written rest =>
      obtain ⟨hbytes, hwritten⟩ := h
      simp only [encryptStep] at hstep
      split at hstep
      · rw [Option.map_eq_some_iff] at hstep
        obtain ⟨files', hwrite, rfl⟩ := hstep
        refine ⟨?_, (write_write hwritten _).symm.trans hwrite⟩
        rw [List.append_assoc, List.take_append_drop]
        exact hbytes
      · cases hstep
    | _ => cases hstep
  | writeFails =>
    cases stage with
    | writing written rest =>
      simp only [encryptStep] at hstep
      split at hstep
      · cases hstep
      · rw [Option.some.injEq] at hstep
        subst hstep
        exact h
    | _ => cases hstep
  | close =>
    cases stage with
    | writing written rest =>
      simp only [encryptStep] at hstep
      split at hstep
      · next hrest =>
        rw [Option.some.injEq] at hstep
        subst hstep
        obtain ⟨hbytes, hwritten⟩ := h
        rw [hrest, List.append_nil] at hbytes
        exact ⟨written, hbytes, hwritten⟩
      · cases hstep
    | _ => cases hstep

theorem stageInv_of_run {fs : FileSystem (List UInt8)} {as : List EncryptAction} {s : EncryptState}
    (h : (encryptSystem crypto call).run ⟨fs, .start⟩ as = some s) : StageInv crypto call fs s := by
  have hstart : StageInv crypto call fs ⟨fs, .start⟩ := rfl
  exact (encryptSystem crypto call).inv_of_any_run (stageInv_step crypto call) hstart h

/-- No other file is touched. -/
theorem read_other_of_run {fs : FileSystem (List UInt8)} {as : List EncryptAction}
    {s : EncryptState} (h : (encryptSystem crypto call).run ⟨fs, .start⟩ as = some s) {q : Path}
    (hq : q ≠ call.file) : s.fs.read q = fs.read q := by
  have hinv := stageInv_of_run crypto call h
  have hother : ∀ {bytes}, fs.write call.file bytes = some s.fs → s.fs.read q = fs.read q :=
    fun hwrite => ((FileSystem.write_eq_some hwrite).2 q).trans (if_neg hq)
  obtain ⟨files, stage⟩ := s
  cases stage with
  | start | failed => exact congrArg (fun fs => FileSystem.read fs q) hinv
  | encrypted => exact congrArg (fun fs => FileSystem.read fs q) hinv.1
  | writing | writeFailed => exact hother hinv.2
  | done =>
    obtain ⟨bytes, -, hwrite⟩ := hinv
    exact hother hwrite

/-! ## The atomic function -/

/-- The file is written at once. -/
def writeEncrypted (fs : FileSystem (List UInt8)) (file : Path) :
    Result (List UInt8) → Result Unit × FileSystem (List UInt8)
  | .error e => (.error e, fs)
  | .ok bytes =>
    match fs.write file bytes with
    | none => (.error .io, fs)
    | some fs => (.ok (), fs)

theorem encryptToFile_eq (fs : FileSystem (List UInt8)) :
    encryptToFile crypto call.salt call.nonce fs call.file call.passphrase call.decrypted
      = writeEncrypted fs call.file (encryptedFile crypto call) := by
  unfold encryptToFile encryptedFile
  cases hkey : deriveNewKey crypto call.salt call.passphrase with
  | error e => rfl
  | ok saltKey =>
    obtain ⟨salt, key⟩ := saltKey
    cases hseal : encrypt crypto call.nonce call.decrypted key with
    | error e => simp [hseal, bind, Except.bind, writeEncrypted]
    | ok encrypted =>
      cases hwrite : fs.write call.file (salt.1 ++ encrypted) <;>
        simp [hseal, hwrite, bind, Except.bind, pure, Except.pure, writeEncrypted]

theorem encryptToFile_of_done {fs : FileSystem (List UInt8)} {as : List EncryptAction}
    {s : EncryptState} (h : (encryptSystem crypto call).run ⟨fs, .start⟩ as = some s)
    (hdone : s.stage = .done) :
    encryptToFile crypto call.salt call.nonce fs call.file call.passphrase call.decrypted
      = (.ok (), s.fs) := by
  have hinv := stageInv_of_run crypto call h
  rw [StageInv, hdone] at hinv
  obtain ⟨bytes, hbytes, hwrite⟩ := hinv
  rw [encryptToFile_eq, hbytes, writeEncrypted, hwrite]

/-! ## What can be read after an interruption -/

theorem encryptedFile_eq_ok {bytes : List UInt8} (h : encryptedFile crypto call = .ok bytes) :
    ∃ key ciphertext, crypto.hashPasswordInto (asBytes call.passphrase) call.salt = some key ∧
      crypto.encrypt key call.nonce call.decrypted = some ciphertext ∧
      bytes = call.salt.1 ++ (call.nonce.1 ++ ciphertext) := by
  unfold encryptedFile deriveNewKey encrypt at h
  cases hkey : crypto.hashPasswordInto (asBytes call.passphrase) call.salt with
  | none => simp [hkey, bind, Except.bind] at h
  | some key =>
    cases hseal : crypto.encrypt key call.nonce call.decrypted with
    | none => simp [hkey, hseal, bind, Except.bind] at h
    | some ciphertext =>
      simp only [hkey, hseal, bind, Except.bind, pure, Except.pure, Except.ok.injEq] at h
      exact ⟨key, ciphertext, rfl, hseal, h.symm⟩

theorem decryptFile_of_write {fs fs' : FileSystem (List UInt8)} {file : Path} {bytes : List UInt8}
    (h : fs.write file bytes = some fs') (passphrase : String) :
    decryptFile crypto fs' file passphrase = decryptReader crypto bytes passphrase := by
  rw [decryptFile, (FileSystem.write_eq_some h).2, if_pos rfl]

theorem decryptReader_encryptedFile {bytes : List UInt8}
    (h : encryptedFile crypto call = .ok bytes) :
    decryptReader crypto bytes call.passphrase = .ok call.decrypted := by
  obtain ⟨key, ciphertext, hkey, hseal, rfl⟩ := encryptedFile_eq_ok crypto call h
  exact (decryptReader_eq_ok crypto).mpr
    ⟨call.salt, call.nonce, ciphertext, key, rfl, hkey, crypto.decrypt_encrypt hseal⟩

/-- The authentication: no part of the encrypted text that has been cut off is accepted. -/
def RejectsParts : Prop :=
  ∀ key ciphertext, crypto.hashPasswordInto (asBytes call.passphrase) call.salt = some key →
    crypto.encrypt key call.nonce call.decrypted = some ciphertext →
    ∀ n < ciphertext.length, crypto.decrypt key call.nonce (ciphertext.take n) = none

theorem decryptReader_part {written rest : List UInt8} (hparts : RejectsParts crypto call)
    (h : encryptedFile crypto call = .ok (written ++ rest)) (hrest : rest ≠ []) (p : List UInt8) :
    decryptReader crypto written call.passphrase ≠ .ok p := by
  intro hread
  obtain ⟨key, ciphertext, hkey, hseal, hbytes⟩ := encryptedFile_eq_ok crypto call h
  obtain ⟨salt, nonce, part, key', hwritten, hkey', hopen⟩ := (decryptReader_eq_ok crypto).mp hread
  rw [hwritten, List.append_assoc, List.append_assoc] at hbytes
  obtain ⟨hsalt, hbytes⟩ := List.append_inj hbytes (salt.2.trans call.salt.2.symm)
  obtain ⟨hnonce, hcipher⟩ := List.append_inj hbytes (nonce.2.trans call.nonce.2.symm)
  obtain rfl := Subtype.ext hsalt
  obtain rfl := Subtype.ext hnonce
  obtain rfl := Option.some.inj (hkey.symm.trans hkey')
  have hlength : part.length < ciphertext.length := by
    have hpos := List.length_pos_iff.mpr hrest
    rw [← hcipher, List.length_append]
    omega
  have hreject := hparts key ciphertext hkey hseal part.length hlength
  rw [← hcipher, List.take_left, hopen] at hreject
  cases hreject

/-- Wherever `encrypt_to_file` stops, the file holds the old plaintext or the new one, exactly
    if it is not truncated with bytes still missing. -/
theorem interrupted_state_readable_iff (fs : FileSystem (List UInt8)) (old : List UInt8)
    (hold : decryptFile crypto fs call.file call.passphrase = .ok old)
    (hparts : RejectsParts crypto call) (as : List EncryptAction) (s : EncryptState)
    (hrun : (encryptSystem crypto call).run ⟨fs, .start⟩ as = some s) :
    (decryptFile crypto s.fs call.file call.passphrase = .ok old ∨
      decryptFile crypto s.fs call.file call.passphrase = .ok call.decrypted)
      ↔ ¬ s.stage.Incomplete := by
  have hinv := stageInv_of_run crypto call hrun
  have hwriting : ∀ {written rest : List UInt8},
      encryptedFile crypto call = .ok (written ++ rest) →
      fs.write call.file written = some s.fs →
      ((decryptFile crypto s.fs call.file call.passphrase = .ok old ∨
        decryptFile crypto s.fs call.file call.passphrase = .ok call.decrypted) ↔ ¬ rest ≠ []) := by
    intro written rest hbytes hwrite
    rw [decryptFile_of_write crypto hwrite]
    by_cases hrest : rest = []
    · rw [hrest, List.append_nil] at hbytes
      have hnew := decryptReader_encryptedFile crypto call hbytes
      exact ⟨fun _ hne => hne hrest, fun _ => .inr hnew⟩
    · have hpart := decryptReader_part crypto call hparts hbytes hrest
      refine ⟨fun h => ?_, fun h => absurd hrest h⟩
      rcases h with h | h
      · exact absurd h (hpart old)
      · exact absurd h (hpart call.decrypted)
  obtain ⟨files, stage⟩ := s
  cases stage with
  | start | failed =>
    obtain rfl : files = fs := hinv
    exact ⟨fun _ h => h, fun _ => .inl hold⟩
  | encrypted =>
    obtain rfl : files = fs := hinv.1
    exact ⟨fun _ h => h, fun _ => .inl hold⟩
  | writing | writeFailed => exact hwriting hinv.1 hinv.2
  | done =>
    obtain ⟨bytes, hbytes, hwrite⟩ := hinv
    refine ⟨fun _ h => h, fun _ => .inr ?_⟩
    rw [decryptFile_of_write crypto hwrite]
    exact decryptReader_encryptedFile crypto call hbytes

end Steps

/-! ## A save that stops behind the truncation -/

/-- A call that encrypts one byte. -/
def callOf (plaintext : UInt8) : EncryptCall :=
  ⟨⟨List.replicate 16 0, rfl⟩, ⟨List.replicate 12 0, rfl⟩, ["session"], "secret", [plaintext]⟩

/-- The files after a first save of the byte `1`. -/
def savedFiles : FileSystem (List UInt8) :=
  (encryptToFile tagCipher (callOf 1).salt (callOf 1).nonce ⟨[[]], ∅⟩ (callOf 1).file
    (callOf 1).passphrase (callOf 1).decrypted).2

/-- The second save stops when the file has been truncated: neither plaintext can be read. -/
theorem interrupted_save_loses_both :
    decryptFile tagCipher savedFiles ["session"] "secret" = .ok [1] ∧
    ∃ s, (encryptSystem tagCipher (callOf 2)).run ⟨savedFiles, .start⟩ [.encrypt, .create true]
        = some s ∧
      decryptFile tagCipher s.fs ["session"] "secret" = .error .io := by
  refine ⟨by decide +kernel, _, rfl, ?_⟩
  decide +kernel

theorem rejectsParts_callOf : RejectsParts tagCipher (callOf 2) := by
  intro key ciphertext hkey hseal
  obtain rfl := Option.some.inj hseal
  decide +kernel +revert

/-- Of a save of 45 bytes, neither plaintext can be read after the first 20, and the new one after
    the last. -/
theorem interrupted_state_readable_in_write :
    ∃ s t, (encryptSystem tagCipher (callOf 2)).run ⟨savedFiles, .start⟩
        [.encrypt, .create true, .write 20] = some s ∧
      ¬ (decryptFile tagCipher s.fs ["session"] "secret" = .ok [1] ∨
        decryptFile tagCipher s.fs ["session"] "secret" = .ok [2]) ∧
      (encryptSystem tagCipher (callOf 2)).run s [.write 25, .close] = some t ∧
      (decryptFile tagCipher t.fs ["session"] "secret" = .ok [1] ∨
        decryptFile tagCipher t.fs ["session"] "secret" = .ok [2]) := by
  have hiff := interrupted_state_readable_iff tagCipher (callOf 2) savedFiles [1]
    (by decide +kernel)
    rejectsParts_callOf
  refine ⟨_, _, rfl, fun h => ?_, rfl, ?_⟩
  · refine (hiff [.encrypt, .create true, .write 20] _ rfl).mp h ?_
    show (_ : List UInt8) ≠ []
    decide +kernel
  · exact (hiff [.encrypt, .create true, .write 20, .write 25, .close] _ rfl).mpr (fun h => h)

end GoudaMatrix.Crypto
