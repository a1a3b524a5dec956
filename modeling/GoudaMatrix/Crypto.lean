/-
  Encrypted files (`crypto.rs`): `encrypt_to_file` and `decrypt_file`.

  Argon2 and the AEAD are parameters, as are the random salt and nonce. A reader is the bytes
  that it has not read yet. `decrypt_file_correct`: a file is written exactly if the two give a
  value and the file system takes it, it is read back then, and a file is accepted exactly if the
  AEAD opens what is behind its salt and its nonce.
-/
import GoudaMatrix.Lib.FileSystem

namespace GoudaMatrix.Crypto

open GoudaMatrix.Lib

inductive CryptoError where
  | hash
  | cipher
  | io
deriving DecidableEq, Repr

abbrev Result (α : Type) := Except CryptoError α

/-- `[u8; n]`. -/
abbrev Bytes (n : Nat) := { bytes : List UInt8 // bytes.length = n }

/-- Argon2 and AES 256 GCM; `none` is an error. -/
structure Primitives where
  hashPasswordInto : (password : List UInt8) → (salt : Bytes 16) → Option (Bytes 32)
  encrypt : (key : Bytes 32) → (nonce : Bytes 12) → List UInt8 → Option (List UInt8)
  decrypt : (key : Bytes 32) → (nonce : Bytes 12) → List UInt8 → Option (List UInt8)
  decrypt_encrypt : ∀ {key nonce plaintext ciphertext},
    encrypt key nonce plaintext = some ciphertext → decrypt key nonce ciphertext = some plaintext

/-! ## Readers -/

/-- `read_exact` into an array of `n` bytes. -/
def readExact (n : Nat) (reader : List UInt8) : Result (Bytes n × List UInt8) :=
  if h : n ≤ reader.length then
    .ok (⟨reader.take n, by rw [List.length_take, Nat.min_eq_left h]⟩, reader.drop n)
  else .error .io

theorem readExact_append {n : Nat} (bytes : Bytes n) (rest : List UInt8) :
    readExact n (bytes.1 ++ rest) = .ok (bytes, rest) := by
  obtain ⟨bytes, hlen⟩ := bytes
  have hle : n ≤ (bytes ++ rest).length := by
    rw [List.length_append]
    omega
  unfold readExact
  rw [dif_pos hle]
  simp [List.take_left' hlen, List.drop_left' hlen]

theorem readExact_cases (n : Nat) (reader : List UInt8) :
    (reader.length < n ∧ readExact n reader = .error .io) ∨
      ∃ (bytes : Bytes n) (rest : List UInt8), reader = bytes.1 ++ rest ∧
        readExact n reader = .ok (bytes, rest) := by
  by_cases h : n ≤ reader.length
  · refine .inr ⟨⟨reader.take n, by rw [List.length_take, Nat.min_eq_left h]⟩, reader.drop n,
      (List.take_append_drop n reader).symm, ?_⟩
    rw [readExact, dif_pos h]
  · exact .inl ⟨Nat.lt_of_not_le h, by rw [readExact, dif_neg h]⟩

section Files

variable (crypto : Primitives)

/-! ## Keys -/

def asBytes (passphrase : String) : List UInt8 := passphrase.toUTF8.data.toList

def deriveKey (passphrase : String) (salt : Bytes 16) : Result (Bytes 32) :=
  match crypto.hashPasswordInto (asBytes passphrase) salt with
  | some key => .ok key
  | none => .error .hash

/-- `salt` is what the random number generator fills in. -/
def deriveNewKey (salt : Bytes 16) (passphrase : String) : Result (Bytes 16 × Bytes 32) :=
  match crypto.hashPasswordInto (asBytes passphrase) salt with
  | some key => .ok (salt, key)
  | none => .error .hash

/-! ## Encryption -/

/-- `nonce` is the generated nonce. -/
def encrypt (nonce : Bytes 12) (data : List UInt8) (key : Bytes 32) : Result (List UInt8) :=
  match crypto.encrypt key nonce data with
  | some ciphertext => .ok (nonce.1 ++ ciphertext)
  | none => .error .cipher

def decrypt (reader : List UInt8) (key : Bytes 32) : Result (List UInt8) := do
  let (nonce, data) ← readExact 12 reader
  match crypto.decrypt key nonce data with
  | some decrypted => .ok decrypted
  | none => .error .cipher

def encryptToFile (salt : Bytes 16) (nonce : Bytes 12) (fs : FileSystem (List UInt8)) (file : Path)
    (passphrase : String) (decrypted : List UInt8) : Result Unit × FileSystem (List UInt8) :=
  match deriveNewKey crypto salt passphrase with
  | .error e => (.error e, fs)
  | .ok (salt, key) =>
    match encrypt crypto nonce decrypted key with
    | .error e => (.error e, fs)
    | .ok encrypted =>
      match fs.write file (salt.1 ++ encrypted) with
      | none => (.error .io, fs)
      | some fs => (.ok (), fs)

/-- `decrypt_file` behind the opened file. -/
def decryptReader (reader : List UInt8) (passphrase : String) : Result (List UInt8) := do
  let (salt, reader) ← readExact 16 reader
  let key ← deriveKey crypto passphrase salt
  decrypt crypto reader key

def decryptFile (fs : FileSystem (List UInt8)) (file : Path) (passphrase : String) :
    Result (List UInt8) :=
  match fs.read file with
  | none => .error .io
  | some reader => decryptReader crypto reader passphrase

/-! ## What is accepted -/

theorem deriveKey_eq_ok {passphrase : String} {salt : Bytes 16} {key : Bytes 32} :
    deriveKey crypto passphrase salt = .ok key
      ↔ crypto.hashPasswordInto (asBytes passphrase) salt = some key := by
  unfold deriveKey
  cases crypto.hashPasswordInto (asBytes passphrase) salt <;> simp

theorem decrypt_eq_ok {reader : List UInt8} {key : Bytes 32} {p : List UInt8} :
    decrypt crypto reader key = .ok p ↔ ∃ (nonce : Bytes 12) (ciphertext : List UInt8),
      reader = nonce.1 ++ ciphertext ∧ crypto.decrypt key nonce ciphertext = some p := by
  have hopen : ∀ (nonce : Bytes 12) (ciphertext : List UInt8),
      decrypt crypto (nonce.1 ++ ciphertext) key = .ok p
        ↔ crypto.decrypt key nonce ciphertext = some p := by
    intro nonce ciphertext
    cases hopen : crypto.decrypt key nonce ciphertext <;>
      simp [decrypt, readExact_append, bind, Except.bind, hopen]
  constructor
  · intro h
    rcases readExact_cases 12 reader with ⟨-, herror⟩ | ⟨nonce, ciphertext, rfl, -⟩
    · rw [decrypt, herror] at h
      cases h
    · exact ⟨nonce, ciphertext, rfl, (hopen nonce ciphertext).mp h⟩
  · rintro ⟨nonce, ciphertext, rfl, h⟩
    exact (hopen nonce ciphertext).mpr h

theorem decryptReader_eq_ok {reader : List UInt8} {passphrase : String} {p : List UInt8} :
    decryptReader crypto reader passphrase = .ok p ↔
      ∃ (salt : Bytes 16) (nonce : Bytes 12) (ciphertext : List UInt8) (key : Bytes 32),
        reader = salt.1 ++ (nonce.1 ++ ciphertext) ∧
        crypto.hashPasswordInto (asBytes passphrase) salt = some key ∧
        crypto.decrypt key nonce ciphertext = some p := by
  have hsalt : ∀ (salt : Bytes 16) (rest : List UInt8),
      decryptReader crypto (salt.1 ++ rest) passphrase
        = (deriveKey crypto passphrase salt).bind (decrypt crypto rest) := by
    intro salt rest
    unfold decryptReader
    rw [readExact_append]
    rfl
  constructor
  · intro h
    rcases readExact_cases 16 reader with ⟨-, herror⟩ | ⟨salt, rest, rfl, -⟩
    · rw [decryptReader, herror] at h
      cases h
    · rw [hsalt] at h
      cases hkey : deriveKey crypto passphrase salt with
      | error e =>
        rw [hkey] at h
        cases h
      | ok key =>
        rw [hkey] at h
        obtain ⟨nonce, ciphertext, rfl, hopen⟩ := (decrypt_eq_ok crypto).mp h
        exact ⟨salt, nonce, ciphertext, key, rfl, (deriveKey_eq_ok crypto).mp hkey, hopen⟩
  · rintro ⟨salt, nonce, ciphertext, key, rfl, hkey, hopen⟩
    rw [hsalt, (deriveKey_eq_ok crypto).mpr hkey]
    exact (decrypt_eq_ok crypto).mpr ⟨nonce, ciphertext, rfl, hopen⟩

/-- Nothing but Argon2, the AEAD and the file system can fail. What is written is the salt, the
    nonce and the sealed text. -/
theorem encryptToFile_eq_ok {salt : Bytes 16} {nonce : Bytes 12} {fs fs' : FileSystem (List UInt8)}
    {file : Path} {passphrase : String} {decrypted : List UInt8} :
    encryptToFile crypto salt nonce fs file passphrase decrypted = (.ok (), fs') ↔
      ∃ key ciphertext, crypto.hashPasswordInto (asBytes passphrase) salt = some key ∧
        crypto.encrypt key nonce decrypted = some ciphertext ∧
        fs.write file (salt.1 ++ (nonce.1 ++ ciphertext)) = some fs' := by
  unfold encryptToFile deriveNewKey encrypt
  cases hkey : crypto.hashPasswordInto (asBytes passphrase) salt with
  | none => simp
  | some key =>
    cases hseal : crypto.encrypt key nonce decrypted with
    | none => simp [hseal]
    | some ciphertext =>
      cases hwrite : fs.write file (salt.1 ++ (nonce.1 ++ ciphertext)) with
      | none => simp [hseal, hwrite]
      | some fs₁ => simp [hseal, hwrite]

/-- What has been written is read back; the other files are as they were. -/
theorem decryptFile_encryptToFile {salt : Bytes 16} {nonce : Bytes 12}
    {fs fs' : FileSystem (List UInt8)} {file : Path} {passphrase : String} {decrypted : List UInt8}
    (h : encryptToFile crypto salt nonce fs file passphrase decrypted = (.ok (), fs')) :
    decryptFile crypto fs' file passphrase = .ok decrypted ∧
      ∀ other ≠ file, fs'.read other = fs.read other := by
  obtain ⟨key, ciphertext, hkey, hseal, hwrite⟩ := (encryptToFile_eq_ok crypto).mp h
  have hread := (FileSystem.write_eq_some hwrite).2
  constructor
  · rw [decryptFile, hread, if_pos rfl]
    exact (decryptReader_eq_ok crypto).mpr
      ⟨salt, nonce, ciphertext, key, rfl, hkey, crypto.decrypt_encrypt hseal⟩
  · intro other hother
    rw [hread, if_neg hother]

/-- `encrypt_to_file` succeeds whenever Argon2, the AEAD and the write do, and `decrypt_file`
    returns then what it has written. `decrypt_file` accepts exactly the files that the AEAD opens
    behind a salt and a nonce, and answers every shorter file with an error. -/
theorem decrypt_file_correct :
    (∀ salt nonce fs file passphrase plaintext fs',
      (encryptToFile crypto salt nonce fs file passphrase plaintext = (.ok (), fs') ↔
        ∃ key ciphertext, crypto.hashPasswordInto (asBytes passphrase) salt = some key ∧
          crypto.encrypt key nonce plaintext = some ciphertext ∧
          fs.write file (salt.1 ++ (nonce.1 ++ ciphertext)) = some fs') ∧
      (encryptToFile crypto salt nonce fs file passphrase plaintext = (.ok (), fs') →
        decryptFile crypto fs' file passphrase = .ok plaintext)) ∧
    (∀ fs file passphrase p, decryptFile crypto fs file passphrase = .ok p ↔
      ∃ (salt : Bytes 16) (nonce : Bytes 12) (ciphertext : List UInt8) (key : Bytes 32),
        fs.read file = some (salt.1 ++ (nonce.1 ++ ciphertext)) ∧
        crypto.hashPasswordInto (asBytes passphrase) salt = some key ∧
        crypto.decrypt key nonce ciphertext = some p) ∧
    ∀ reader passphrase,
      28 ≤ reader.length ∨ ∃ e, decryptReader crypto reader passphrase = .error e := by
  have hfile : ∀ fs file passphrase p, decryptFile crypto fs file passphrase = .ok p ↔
      ∃ (salt : Bytes 16) (nonce : Bytes 12) (ciphertext : List UInt8) (key : Bytes 32),
        fs.read file = some (salt.1 ++ (nonce.1 ++ ciphertext)) ∧
        crypto.hashPasswordInto (asBytes passphrase) salt = some key ∧
        crypto.decrypt key nonce ciphertext = some p := by
    intro fs file passphrase p
    unfold decryptFile
    cases fs.read file with
    | none => simp
    | some reader =>
      rw [decryptReader_eq_ok]
      simp
  refine ⟨fun salt nonce fs file passphrase plaintext fs' => ⟨encryptToFile_eq_ok crypto, ?_⟩,
      hfile,
    fun reader passphrase => ?_⟩
  · exact fun hwritten => (decryptFile_encryptToFile crypto hwritten).1
  · cases hresult : decryptReader crypto reader passphrase with
    | error e => exact .inr ⟨e, rfl⟩
    | ok p =>
      obtain ⟨salt, nonce, ciphertext, key, rfl, -⟩ := (decryptReader_eq_ok crypto).mp hresult
      refine .inl ?_
      rw [List.length_append, List.length_append, salt.2, nonce.2]
      omega

end Files

/-- A cipher that appends a tag of 16 bytes. -/
def tagCipher : Primitives where
  hashPasswordInto _ _ := some ⟨List.replicate 32 0, rfl⟩
  encrypt _ _ plaintext := some (plaintext ++ List.replicate 16 0)
  decrypt _ _ ciphertext :=
    if ciphertext.drop (ciphertext.length - 16) = List.replicate 16 0 then
      some (ciphertext.take (ciphertext.length - 16))
    else none
  decrypt_encrypt := by
    intro _ _ plaintext ciphertext h
    obtain rfl := Option.some.inj h
    simp

/-- A file of one byte is written and read back, and is an error when its last byte is missing. -/
theorem decrypt_file_correct_tag :
    ∃ fs', encryptToFile tagCipher ⟨List.replicate 16 1, rfl⟩ ⟨List.replicate 12 2, rfl⟩ ⟨[[]], ∅⟩
        ["session"] "secret" [7] = (.ok (), fs') ∧
      fs'.read ["session"] = some (List.replicate 16 1 ++ (List.replicate 12 2
        ++ (7 :: List.replicate 16 0))) ∧
      decryptFile tagCipher fs' ["session"] "secret" = .ok [7] ∧
      ∃ e, decryptReader tagCipher (List.replicate 16 1 ++ List.replicate 11 2) "secret"
        = .error e := by
  obtain ⟨hwritten, -, hshort⟩ := decrypt_file_correct tagCipher
  have hok := (hwritten ⟨List.replicate 16 1, rfl⟩ ⟨List.replicate 12 2, rfl⟩ ⟨[[]], ∅⟩ ["session"]
    "secret" [7] _).1.mpr ⟨_, _, rfl, rfl, rfl⟩
  refine ⟨_, hok, rfl, (hwritten _ _ _ _ _ _ _).2 hok, ?_⟩
  exact (hshort (List.replicate 16 1 ++ List.replicate 11 2) "secret").resolve_left (by decide)

end GoudaMatrix.Crypto
