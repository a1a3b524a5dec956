/-
  `ProtoCacheInner` with the bytes of its two files (`proto_cache.rs`): what is written with
  `encode_proto_messages`, `serde_json` and `encrypt_to_file` is read again by `from_directory`.

  The cache is for a finite map from user ids to users, a token and a status (`CacheMap`).
  `cache_refines_map`: in every run of its operations and of restarts, a restart being a complete
  `save` and a `from_directory`, the cache gives the answers of the map, which knows no restart.

  A state is kept over a restart as it is (`fromDirectory_save`); the one case that is not in the
  files is a cache that has never had a user, for which no users file is written.
-/
import Mathlib.Data.Finmap
import GoudaMatrix.Crypto.Interrupted
import GoudaMatrix.ProtoCache.Frames
import GoudaMatrix.ProtoCache.Save
import GoudaMatrix.Users

namespace GoudaMatrix.ProtoCache

open GoudaMatrix.Lib GoudaMatrix.Crypto GoudaMatrix.Users

/-! ## Codecs -/

/-- `prost` for the users and `serde_json` for the info; `none` is an error. -/
structure CacheCodecs where
  encodeToVec : User → List UInt8
  decode : List UInt8 → Option User
  toVec : Info → Option (List UInt8)
  fromSlice : List UInt8 → Option Info
  decode_encodeToVec : ∀ user, (encodeToVec user).length < UInt64.size →
    decode (encodeToVec user) = some user
  fromSlice_toVec : ∀ {info serialized}, toVec info = some serialized →
    fromSlice serialized = some info

namespace CacheCodecs

variable (codecs : CacheCodecs)

/-- A user with an encoding of 64 bit length, as every `Vec` has it. -/
abbrev Encodable : Type := { user : User // (codecs.encodeToVec user).length < UInt64.size }

def encodable (user : User) : Option codecs.Encodable :=
  if h : (codecs.encodeToVec user).length < UInt64.size then some ⟨user, h⟩ else none

theorem encodable_self (user : codecs.Encodable) : codecs.encodable user.1 = some user :=
  dif_pos user.2

/-- `impl prost::Message for User`. -/
def prost : ProstMessage codecs.Encodable where
  encodeToVec user := codecs.encodeToVec user.1
  decode encoded := (codecs.decode encoded).bind codecs.encodable
  decode_encodeToVec user := by
    rw [codecs.decode_encodeToVec user.1 user.2, Option.bind_some, codecs.encodable_self]
  length_encodeToVec user := user.2

end CacheCodecs

/-! ## The cache and its files -/

inductive CacheError where
  | crypto (e : CryptoError)
  | serialization
  | decode (e : ProtoCacheError)
deriving DecidableEq, Repr

/-- `ProtoCacheInner` with its passphrase and its paths. -/
structure DiskCache where
  passphrase : String
  infoFile : Path
  usersFile : Path
  inner : ProtoCacheInner
deriving DecidableEq

/-- What the random number generators give to one `encrypt_to_file`. -/
structure Seal where
  salt : Bytes 16
  nonce : Bytes 12
deriving DecidableEq

namespace DiskCache

variable (crypto : Primitives) (codecs : CacheCodecs)

/-- The value of `from_directory` before anything is read. -/
def new (cacheDirectory : Path) (cachePassphrase : String) : DiskCache where
  passphrase := cachePassphrase
  infoFile := cacheDirectory.join "info"
  usersFile := cacheDirectory.join "users"
  inner := ⟨Info.default, none⟩

def setInfo (cache : DiskCache) (info : Info) : DiskCache :=
  { cache with inner := { cache.inner with info } }

def setUsers (cache : DiskCache) (cachedUsers : Option (List User)) : DiskCache :=
  { cache with inner := { cache.inner with cachedUsers } }

def readInfo (fs : FileSystem (List UInt8)) (cache : DiskCache) : Except CacheError DiskCache :=
  match decryptFile crypto fs cache.infoFile cache.passphrase with
  | .error e => .error (.crypto e)
  | .ok decrypted =>
    match codecs.fromSlice decrypted with
    | none => .error .serialization
    | some storage => .ok (cache.setInfo storage)

/-- `none` is a panic. -/
def readUsers (fs : FileSystem (List UInt8)) (cache : DiskCache) :
    Option (Except CacheError DiskCache) :=
  match decryptFile crypto fs cache.usersFile cache.passphrase with
  | .error e => some (.error (.crypto e))
  | .ok encoded =>
    match decodeProtoMessages codecs.prost encoded with
    | none => none
    | some (.error e) => some (.error (.decode e))
    | some (.ok decoded) => some (.ok (cache.setUsers (some (decoded.map Subtype.val))))

/-- Errors are logged, and what cannot be read stays as it is. -/
def readFromFileSystem (fs : FileSystem (List UInt8)) (cache : DiskCache) : Option DiskCache :=
  let cache := (cache.readInfo crypto codecs fs).toOption.getD cache
  (cache.readUsers crypto codecs fs).map fun result => result.toOption.getD cache

/-- The directory has been initialized. -/
def fromDirectory (fs : FileSystem (List UInt8)) (cacheDirectory : Path)
    (cachePassphrase : String) : Option DiskCache :=
  (new cacheDirectory cachePassphrase).readFromFileSystem crypto codecs fs

def encrypt (file : Path) (passphrase : String) (bytes : List UInt8) (random : Seal)
    (fs : FileSystem (List UInt8)) : Except CacheError Unit × FileSystem (List UInt8) :=
  match encryptToFile crypto random.salt random.nonce fs file passphrase bytes with
  | (.error e, fs) => (.error (.crypto e), fs)
  | (.ok _, fs) => (.ok (), fs)

/-- `none` is the panic of an encoding that is too long for a `Vec`. -/
def writeUsers (cache : DiskCache) (random : Seal) (fs : FileSystem (List UInt8)) :
    Option (Except CacheError Unit × FileSystem (List UInt8)) :=
  match cache.inner.cachedUsers with
  -- no users to cache, nothing to do
  | none => some (.ok (), fs)
  | some users => do
    let users ← users.mapM codecs.encodable
    let encoded := encodeProtoMessages codecs.prost users
    some (encrypt crypto cache.usersFile cache.passphrase encoded random fs)

def writeInfo (cache : DiskCache) (random : Seal) (fs : FileSystem (List UInt8)) :
    Except CacheError Unit × FileSystem (List UInt8) :=
  match codecs.toVec cache.inner.info with
  | none => (.error .serialization, fs)
  | some serialized => encrypt crypto cache.infoFile cache.passphrase serialized random fs

/-- The result is the error that `save` logs. -/
def save (cache : DiskCache) (users info : Seal) (fs : FileSystem (List UInt8)) :
    Option (Except CacheError Unit × FileSystem (List UInt8)) := do
  match ← cache.writeUsers crypto codecs users fs with
  | (.error e, fs) => some (.error e, fs)
  | (.ok _, fs) => some (cache.writeInfo crypto codecs info fs)

end DiskCache

/-! ## Runs -/

structure DiskState where
  cache : DiskCache
  fs : FileSystem (List UInt8)

inductive CacheOp where
  | changeUser (change : UserChange)
  | setSyncToken (token : String)
  | setUserStatus (status : UserStatus)
  | restart (users info : Seal)
deriving DecidableEq

section System

variable (crypto : Primitives) (codecs : CacheCodecs)
  (updateIntoUser : UserChangeEvent → User → User) (dir : Path) (passphrase : String)

/-- `from_directory` with its `initialize_directory`. -/
def DiskState.load (fs : FileSystem (List UInt8)) : Option DiskState :=
  (DiskCache.fromDirectory crypto codecs (fs.createDirAll dir) dir passphrase).map fun cache =>
    ⟨cache, fs.createDirAll dir⟩

def DiskState.step (s : DiskState) : CacheOp → Option DiskState
  | .changeUser change => some { s with
      cache := s.cache.setUsers (applyChange updateIntoUser s.cache.inner.cachedUsers change) }
  | .setSyncToken token => some { s with
      cache := s.cache.setInfo { s.cache.inner.info with syncToken := some token } }
  | .setUserStatus status => some { s with
      cache := s.cache.setInfo { s.cache.inner.info with userStatus := some status } }
  | .restart users info =>
    (s.cache.save crypto codecs users info s.fs).bind fun saved =>
      DiskState.load crypto codecs dir passphrase saved.2

/-- The cache of one directory. A step is `none` if it panics. -/
def diskSystem : System DiskState CacheOp where
  step s op := s.step crypto codecs updateIntoUser dir passphrase op

/-- The save of a restart is complete. -/
def Saves (s : DiskState) : CacheOp → Prop
  | .restart users info =>
    (s.cache.save crypto codecs users info s.fs).any fun saved => saved.1.toBool
  | _ => True

instance (s : DiskState) : DecidablePred (Saves crypto codecs s)
  | .restart users info => inferInstanceAs (Decidable
      ((s.cache.save crypto codecs users info s.fs).any fun saved => saved.1.toBool))
  | .changeUser _ | .setSyncToken _ | .setUserStatus _ => isTrue trivial

end System

/-! ## The map -/

/-- What the cache is for. -/
structure CacheMap where
  users : Finmap fun _ : String => User
  syncToken : Option String
  userStatus : Option UserStatus

namespace CacheMap

def empty : CacheMap := ⟨∅, none, none⟩

variable (updateIntoUser : UserChangeEvent → User → User)

def apply (m : CacheMap) : CacheOp → CacheMap
  | .changeUser (.cacheUser user) => { m with users := m.users.insert user.userId user }
  | .changeUser (.updateUser event) =>
    match m.users.lookup event.userId with
    | some user => { m with users := m.users.insert event.userId (updateIntoUser event user) }
    | none => m
  | .setSyncToken token => { m with syncToken := some token }
  | .setUserStatus status => { m with userStatus := some status }
  | .restart _ _ => m

def applyAll (m : CacheMap) (ops : List CacheOp) : CacheMap := ops.foldl (apply updateIntoUser) m

end CacheMap

/-- The answers of the cache are those of the map, and a user is stored once. -/
structure Refines (cache : ProtoCacheInner) (m : CacheMap) : Prop where
  nodup : ((cache.cachedUsers.getD []).map User.userId).Nodup
  getUser : ∀ userId, getUser cache.cachedUsers userId = m.users.lookup userId
  syncToken : cache.info.syncToken = m.syncToken
  userStatus : cache.info.userStatus = m.userStatus

/-! ## A restart -/

section Restart

variable {crypto : Primitives} {codecs : CacheCodecs} {dir : Path} {passphrase : String}

theorem encrypt_ok {file : Path} {bytes : List UInt8} {random : Seal}
    {fs fs' : FileSystem (List UInt8)}
    (h : DiskCache.encrypt crypto file passphrase bytes random fs = (.ok (), fs')) :
    decryptFile crypto fs' file passphrase = .ok bytes ∧
      ∀ other ≠ file, fs'.read other = fs.read other := by
  unfold DiskCache.encrypt at h
  split at h
  · cases h
  · next fs₁ hwritten =>
    obtain ⟨-, rfl⟩ := Prod.mk.inj h
    exact decryptFile_encryptToFile crypto hwritten

theorem map_val_of_mapM {users : List User} {encodables : List codecs.Encodable}
    (h : users.mapM codecs.encodable = some encodables) : encodables.map Subtype.val = users := by
  induction users generalizing encodables with
  | nil =>
    obtain rfl := Option.some.inj h
    rfl
  | cons user users ih =>
    rw [List.mapM_cons] at h
    simp only [Option.bind_eq_bind, Option.bind_eq_some_iff] at h
    obtain ⟨encodable, huser, rest, hrest, heq⟩ := h
    obtain rfl := Option.some.inj heq
    unfold CacheCodecs.encodable at huser
    split at huser
    · obtain rfl := Option.some.inj huser
      rw [List.map_cons, ih hrest]
    · cases huser

/-- What `write_users` leaves in the users file is what is cached. -/
theorem writeUsers_ok {cache : DiskCache} {random : Seal} {fs fs' : FileSystem (List UInt8)}
    (h : cache.writeUsers crypto codecs random fs = some (.ok (), fs')) :
    (cache.inner.cachedUsers = none ∧ fs' = fs) ∨
      ∃ encodables, cache.inner.cachedUsers = some (encodables.map Subtype.val) ∧
        decryptFile crypto fs' cache.usersFile cache.passphrase
          = .ok (encodeProtoMessages codecs.prost encodables) ∧
        ∀ other ≠ cache.usersFile, fs'.read other = fs.read other := by
  unfold DiskCache.writeUsers at h
  split at h
  · next hnone =>
    obtain ⟨-, rfl⟩ := Prod.mk.inj (Option.some.inj h)
    exact .inl ⟨hnone, rfl⟩
  · next users husers =>
    simp only [Option.bind_eq_bind, Option.bind_eq_some_iff] at h
    obtain ⟨encodables, hencodables, h⟩ := h
    obtain ⟨hdecrypt, hother⟩ := encrypt_ok (Option.some.inj h)
    refine .inr ⟨encodables, ?_, hdecrypt, hother⟩
    rw [husers, map_val_of_mapM hencodables]

theorem writeInfo_ok {cache : DiskCache} {random : Seal} {fs fs' : FileSystem (List UInt8)}
    (h : cache.writeInfo crypto codecs random fs = (.ok (), fs')) :
    (∃ serialized, codecs.toVec cache.inner.info = some serialized ∧
      decryptFile crypto fs' cache.infoFile cache.passphrase = .ok serialized) ∧
      ∀ other ≠ cache.infoFile, fs'.read other = fs.read other := by
  unfold DiskCache.writeInfo at h
  split at h
  · cases h
  · next serialized hserialized =>
    obtain ⟨hdecrypt, hother⟩ := encrypt_ok h
    exact ⟨⟨serialized, hserialized, hdecrypt⟩, hother⟩

/-- The cache of a directory with these contents. -/
def DiskCache.holding (dir : Path) (passphrase : String) (inner : ProtoCacheInner) : DiskCache :=
  { DiskCache.new dir passphrase with inner }

theorem infoFile_ne_usersFile (dir : Path) : dir.join "info" ≠ dir.join "users" := by
  unfold Path.join
  rw [Ne, List.append_cancel_left_eq]
  decide

theorem readInfo_eq {fs : FileSystem (List UInt8)} {cache : DiskCache} {info : Info}
    {serialized : List UInt8} (hserialized : codecs.toVec info = some serialized)
    (hread : decryptFile crypto fs cache.infoFile cache.passphrase = .ok serialized) :
    cache.readInfo crypto codecs fs = .ok (cache.setInfo info) := by
  unfold DiskCache.readInfo
  simp only [hread, codecs.fromSlice_toVec hserialized]

theorem readUsers_eq {fs : FileSystem (List UInt8)} {cache : DiskCache}
    {encodables : List codecs.Encodable}
    (hread : decryptFile crypto fs cache.usersFile cache.passphrase
      = .ok (encodeProtoMessages codecs.prost encodables)) :
    cache.readUsers crypto codecs fs
      = some (.ok (cache.setUsers (some (encodables.map Subtype.val)))) := by
  have hdecode := (decodeProtoMessages_eq_ok codecs.prost _ _).mpr
    (framesOf_encode codecs.prost encodables)
  unfold DiskCache.readUsers
  simp only [hread, hdecode]

theorem readUsers_of_no_file {fs : FileSystem (List UInt8)} {cache : DiskCache}
    (hread : fs.read cache.usersFile = none) :
    cache.readUsers crypto codecs fs = some (.error (.crypto .io)) := by
  unfold DiskCache.readUsers decryptFile
  rw [hread]

/-- A complete save is read back as it was saved. -/
theorem load_save {inner : ProtoCacheInner} {users info : Seal} {fs fs' : FileSystem (List UInt8)}
    (hfile : inner.cachedUsers = none → fs.read (dir.join "users") = none)
    (hsave : (DiskCache.holding dir passphrase inner).save crypto codecs users info fs
      = some (.ok (), fs')) :
    DiskState.load crypto codecs dir passphrase fs'
        = some ⟨DiskCache.holding dir passphrase inner, fs'.createDirAll dir⟩ ∧
      (inner.cachedUsers = none → fs'.read (dir.join "users") = none) := by
  unfold DiskCache.save at hsave
  simp only [Option.bind_eq_bind, Option.bind_eq_some_iff] at hsave
  obtain ⟨⟨result, fs₁⟩, husers, hsave⟩ := hsave
  cases result with
  | error e => cases hsave
  | ok _ =>
    obtain ⟨⟨serialized, hserialized, hinfo⟩, hother⟩ := writeInfo_ok (Option.some.inj hsave)
    have hread : fs'.read (dir.join "users") = fs₁.read (dir.join "users") :=
      hother _ (infoFile_ne_usersFile dir).symm
    have hreadInfo : (DiskCache.new dir passphrase).readInfo crypto codecs (fs'.createDirAll dir)
        = .ok (DiskCache.holding dir passphrase ⟨inner.info, none⟩) :=
      readInfo_eq hserialized hinfo
    unfold DiskState.load DiskCache.fromDirectory DiskCache.readFromFileSystem
    rw [hreadInfo]
    dsimp only [Except.toOption, Option.getD_some]
    rcases writeUsers_ok husers with ⟨hnone, rfl⟩ | ⟨encodables, hsome, hdecrypt, -⟩
    · have hmissing : fs'.read (dir.join "users") = none := hread.trans (hfile hnone)
      rw [readUsers_of_no_file hmissing]
      refine ⟨?_, fun _ => hmissing⟩
      obtain ⟨infos, _⟩ := inner
      obtain rfl : _ = none := hnone
      rfl
    · have hreadUsers :
        (DiskCache.holding dir passphrase ⟨inner.info, none⟩).readUsers crypto codecs
          (fs'.createDirAll dir) = some (.ok (DiskCache.holding dir passphrase inner)) := by
        obtain ⟨_, _⟩ := inner
        obtain rfl : _ = some _ := hsome
        refine readUsers_eq ?_
        rw [← hdecrypt]
        show decryptFile crypto fs' (dir.join "users") passphrase
          = decryptFile crypto fs₁ (dir.join "users") passphrase
        rw [decryptFile, decryptFile, hread]
      rw [hreadUsers]
      refine ⟨rfl, fun hnone => ?_⟩
      exact absurd (hsome.symm.trans hnone) (by simp)

end Restart

/-! ## The simulation -/

section Simulation

variable {updateIntoUser : UserChangeEvent → User → User}

/-- A user is stored once, whatever is cached or updated. -/
theorem nodup_applyChange (hid : ∀ event user, (updateIntoUser event user).userId = user.userId)
    {users : Option (List User)} (h : ((users.getD []).map User.userId).Nodup)
    (change : UserChange) :
    (((applyChange updateIntoUser users change).getD []).map User.userId).Nodup := by
  cases change with
  | cacheUser user =>
    have hsome := isSome_modifyFirst (users.getD []) user.userId fun _ => user
    simp only [applyChange, cacheUser]
    split
    · next replaced hreplaced =>
      rw [Option.getD_some, map_modifyFirst (fun old hold => ?_) hreplaced]
      · exact h
      · exact (by simpa using hold : old.userId = user.userId).symm
    · next hnone =>
      have hfresh : ∀ old ∈ users.getD [], old.userId ≠ user.userId := by
        rw [hnone] at hsome
        have hnone : (users.getD []).find? (fun old => old.userId == user.userId) = none := by
          simpa [getUser] using hsome.symm
        simpa using hnone
      rw [Option.getD_some, List.map_append, List.map_singleton]
      refine h.append (List.nodup_singleton _) (List.disjoint_singleton.mpr fun hmem => ?_)
      obtain ⟨old, hold, heq⟩ := List.mem_map.mp hmem
      exact hfresh old hold heq
  | updateUser event =>
    cases users with
    | none => exact h
    | some users =>
      simp only [applyChange, updateUser]
      split
      · next updated hupdated =>
        rw [Option.getD_some, map_modifyFirst (fun user _ => hid event user) hupdated]
        exact h
      · exact h

theorem updateUser_of_unknown {users : Option (List User)} {event : UserChangeEvent}
    (h : getUser users event.userId = none) :
    applyChange updateIntoUser users (.updateUser event) = users := by
  cases users with
  | none => rfl
  | some users =>
    have hnone := isSome_modifyFirst users event.userId (updateIntoUser event)
    rw [h, Option.isSome_none, Option.isSome_eq_false_iff, Option.isNone_iff_eq_none] at hnone
    simp only [applyChange, updateUser, hnone]

/-- What a change makes of the user with the id. -/
def changed (updateIntoUser : UserChangeEvent → User → User) (userId : String)
    (user : Option User) : UserChange → Option User
  | .cacheUser new => if new.userId = userId then some new else user
  | .updateUser event => if event.userId = userId then user.map (updateIntoUser event) else user

theorem getUser_applyChange (hid : ∀ event user, (updateIntoUser event user).userId = user.userId)
    (users : Option (List User)) (change : UserChange) (userId : String) :
    getUser (applyChange updateIntoUser users change) userId
      = changed updateIntoUser userId (getUser users userId) change := by
  cases change with
  | cacheUser user => exact getUser_cacheUser users user userId
  | updateUser event => exact getUser_updateUser hid users event userId

theorem CacheMap.lookup_changeUser (m : CacheMap) (change : UserChange) (userId : String) :
    (m.apply updateIntoUser (.changeUser change)).users.lookup userId
      = changed updateIntoUser userId (m.users.lookup userId) change := by
  cases change with
  | cacheUser user =>
    dsimp only [CacheMap.apply, changed]
    split
    · next hsame => rw [← hsame, Finmap.lookup_insert]
    · next hne => rw [Finmap.lookup_insert_of_ne _ (Ne.symm hne)]
  | updateUser event =>
    dsimp only [CacheMap.apply, changed]
    cases hlookup : m.users.lookup event.userId with
    | none =>
      dsimp only
      split
      · next hsame => rw [← hsame, hlookup, Option.map_none]
      · rfl
    | some user =>
      dsimp only
      split
      · next hsame => rw [← hsame, hlookup, Finmap.lookup_insert, Option.map_some]
      · next hne => rw [Finmap.lookup_insert_of_ne _ (Ne.symm hne)]

/-- A change of the users changes nothing else. -/
theorem CacheMap.info_changeUser (m : CacheMap) (change : UserChange) :
    (m.apply updateIntoUser (.changeUser change)).syncToken = m.syncToken ∧
      (m.apply updateIntoUser (.changeUser change)).userStatus = m.userStatus := by
  cases change with
  | cacheUser user => exact ⟨rfl, rfl⟩
  | updateUser event =>
    dsimp only [CacheMap.apply]
    split <;> exact ⟨rfl, rfl⟩

theorem refines_changeUser (hid : ∀ event user, (updateIntoUser event user).userId = user.userId)
    {inner : ProtoCacheInner} {m : CacheMap} (h : Refines inner m) (change : UserChange) :
    Refines { inner with cachedUsers := applyChange updateIntoUser inner.cachedUsers change }
      (m.apply updateIntoUser (.changeUser change)) where
  nodup := nodup_applyChange hid h.nodup change
  getUser userId := by rw [getUser_applyChange hid, m.lookup_changeUser, h.getUser]
  syncToken := h.syncToken.trans (m.info_changeUser change).1.symm
  userStatus := h.userStatus.trans (m.info_changeUser change).2.symm

/-- The state of a directory: what the cache holds is what the map says, and there is no users file
    before there is a user. -/
def DiskState.Inv (dir : Path) (passphrase : String) (s : DiskState) (m : CacheMap) : Prop :=
  ∃ inner, s.cache = DiskCache.holding dir passphrase inner ∧ Refines inner m ∧
    (inner.cachedUsers = none → s.fs.read (dir.join "users") = none)

variable {crypto : Primitives} {codecs : CacheCodecs} {dir : Path} {passphrase : String}

theorem save_of_saves {s : DiskState} {users info : Seal}
    (h : Saves crypto codecs s (.restart users info)) :
    ∃ fs, s.cache.save crypto codecs users info s.fs = some (.ok (), fs) := by
  obtain ⟨⟨result, fs⟩, hsave, hok⟩ := (Option.any_eq_true _ _).mp h
  cases result with
  | error e => cases hok
  | ok _ => exact ⟨fs, hsave⟩

variable (updateIntoUser) in
theorem step_restart {s : DiskState} {m : CacheMap} (h : s.Inv dir passphrase m) {users info : Seal}
    (hsave : Saves crypto codecs s (.restart users info)) :
    ∃ t, s.step crypto codecs updateIntoUser dir passphrase (.restart users info) = some t ∧
      t.cache = s.cache ∧ t.Inv dir passphrase m := by
  obtain ⟨inner, hcache, hrefines, hfile⟩ := h
  obtain ⟨fs, hsave⟩ := save_of_saves hsave
  rw [hcache] at hsave
  obtain ⟨hload, hfile'⟩ := load_save hfile hsave
  refine ⟨⟨_, fs.createDirAll dir⟩, ?_, hcache.symm, inner, rfl, hrefines, hfile'⟩
  show (s.cache.save crypto codecs users info s.fs).bind _ = _
  rw [hcache, hsave]
  exact hload

theorem step_simulates (hid : ∀ event user, (updateIntoUser event user).userId = user.userId)
    (s : DiskState) (m : CacheMap) (op : CacheOp) (h : s.Inv dir passphrase m)
    (hsave : Saves crypto codecs s op) :
    ∃ t, (diskSystem crypto codecs updateIntoUser dir passphrase).step s op = some t ∧
      t.Inv dir passphrase (m.apply updateIntoUser op) := by
  cases op with
  | restart users info =>
    obtain ⟨t, hstep, -, ht⟩ := step_restart updateIntoUser h hsave
    exact ⟨t, hstep, ht⟩
  | changeUser change =>
    obtain ⟨inner, hcache, hrefines, hfile⟩ := h
    refine ⟨_, rfl,
      { inner with cachedUsers := applyChange updateIntoUser inner.cachedUsers change },
      ?_, refines_changeUser hid hrefines change, fun hnone => hfile ?_⟩
    · rw [hcache]
      rfl
    · cases husers : inner.cachedUsers with
      | none => rfl
      | some users =>
        obtain ⟨users', husers'⟩ := applyChange_some updateIntoUser users change
        rw [husers, husers'] at hnone
        cases hnone
  | setSyncToken token =>
    obtain ⟨inner, hcache, hrefines, hfile⟩ := h
    refine ⟨_, rfl, { inner with info := { inner.info with syncToken := some token } }, ?_,
      ⟨hrefines.nodup, hrefines.getUser, rfl, hrefines.userStatus⟩, hfile⟩
    rw [hcache]
    rfl
  | setUserStatus status =>
    obtain ⟨inner, hcache, hrefines, hfile⟩ := h
    refine ⟨_, rfl, { inner with info := { inner.info with userStatus := some status } }, ?_,
      ⟨hrefines.nodup, hrefines.getUser, hrefines.syncToken, rfl⟩, hfile⟩
    rw [hcache]
    rfl

/-- The cache of an empty directory. -/
theorem load_empty {fs : FileSystem (List UInt8)} (h : ∀ name, fs.read (dir.join name) = none) :
    ∃ s, DiskState.load crypto codecs dir passphrase fs = some s ∧
      s.Inv dir passphrase CacheMap.empty := by
  have husers : (DiskCache.new dir passphrase).readUsers crypto codecs (fs.createDirAll dir)
      = some (.error (.crypto .io)) := readUsers_of_no_file (h "users")
  have hinfo : (DiskCache.new dir passphrase).readInfo crypto codecs (fs.createDirAll dir)
      = .error (.crypto .io) := by
    have hread : (fs.createDirAll dir).read (DiskCache.new dir passphrase).infoFile = none :=
      h "info"
    unfold DiskCache.readInfo decryptFile
    rw [hread]
  refine ⟨⟨DiskCache.new dir passphrase, fs.createDirAll dir⟩, ?_, ⟨Info.default, none⟩, rfl,
    ⟨List.nodup_nil, fun _ => rfl, rfl, rfl⟩, fun _ => h "users"⟩
  unfold DiskState.load DiskCache.fromDirectory DiskCache.readFromFileSystem
  rw [hinfo]
  dsimp only [Except.toOption, Option.getD_none]
  rw [husers]
  rfl

/-! ## The last cached value -/

/-- The operation caches the user. -/
def CacheOp.Caches (userId : String) : CacheOp → Prop
  | .changeUser (.cacheUser user) => user.userId = userId
  | _ => False

/-- The updates of the user, in order. -/
def updatesOf (userId : String) (ops : List CacheOp) : List UserChangeEvent :=
  ops.filterMap fun
    | .changeUser (.updateUser event) => if event.userId = userId then some event else none
    | _ => none

/-- The value that was cached last, with all later updates. -/
def LastCached (updateIntoUser : UserChangeEvent → User → User) (userId : String)
    (ops : List CacheOp) (user : User) : Prop :=
  ∃ before cached after, ops = before ++ .changeUser (.cacheUser cached) :: after ∧
    cached.userId = userId ∧ (∀ op ∈ after, ¬ op.Caches userId) ∧
    user = (updatesOf userId after).foldl (fun user event => updateIntoUser event user) cached

theorem updatesOf_append (userId : String) (ops ops' : List CacheOp) :
    updatesOf userId (ops ++ ops') = updatesOf userId ops ++ updatesOf userId ops' :=
  List.filterMap_append

/-- An operation that caches another user updates the last cached value. -/
theorem LastCached.concat {userId : String} {ops : List CacheOp} {user : User}
    (h : LastCached updateIntoUser userId ops user) {op : CacheOp} (hop : ¬ op.Caches userId) :
    LastCached updateIntoUser userId (ops ++ [op])
      ((updatesOf userId [op]).foldl (fun user event => updateIntoUser event user) user) := by
  obtain ⟨before, cached, after, rfl, hcached, hafter, rfl⟩ := h
  refine ⟨before, cached, after ++ [op], by simp, hcached, fun op' hop' => ?_, ?_⟩
  · rcases List.mem_append.mp hop' with hop' | hop'
    · exact hafter op' hop'
    · rw [List.mem_singleton.mp hop']
      exact hop
  · rw [updatesOf_append, List.foldl_append]

theorem lastCached_of_caches (ops : List CacheOp) {op : CacheOp} {userId : String}
    (hop : op.Caches userId) : ∃ user, LastCached updateIntoUser userId (ops ++ [op]) user := by
  match op with
  | .changeUser (.cacheUser user) =>
    exact ⟨user, ops, user, [], rfl, hop, List.forall_mem_nil _, rfl⟩

variable (updateIntoUser) in
theorem lastCached_or (userId : String) (ops : List CacheOp) :
    (∀ op ∈ ops, ¬ op.Caches userId) ∨ ∃ user, LastCached updateIntoUser userId ops user := by
  induction ops using List.reverseRecOn with
  | nil => exact .inl (List.forall_mem_nil _)
  | append_singleton ops op ih =>
    by_cases hop : op.Caches userId
    · exact .inr (lastCached_of_caches ops hop)
    · rcases ih with hnone | ⟨user, huser⟩
      · refine .inl fun op' hop' => ?_
        rcases List.mem_append.mp hop' with hop' | hop'
        · exact hnone op' hop'
        · rw [List.mem_singleton.mp hop']
          exact hop
      · exact .inr ⟨_, huser.concat hop⟩

theorem lookup_apply_of_not_caches (m : CacheMap) {op : CacheOp} {userId : String}
    (hop : ¬ op.Caches userId) :
    (m.apply updateIntoUser op).users.lookup userId
      = (m.users.lookup userId).map fun user =>
        (updatesOf userId [op]).foldl (fun user event => updateIntoUser event user) user := by
  have hkeep : ∀ user : Option User, user = user.map fun user => user := fun user => by simp
  cases op with
  | changeUser change =>
    rw [m.lookup_changeUser]
    cases change with
    | cacheUser user =>
      rw [changed, if_neg (show ¬ user.userId = userId from hop)]
      exact hkeep _
    | updateUser event =>
      by_cases hsame : event.userId = userId
      · simp [changed, updatesOf, hsame]
      · simp [changed, updatesOf, hsame]
  | setSyncToken | setUserStatus | restart => exact hkeep _

theorem lookup_applyAll_of_not_caches (m : CacheMap) {ops : List CacheOp} {userId : String}
    (hops : ∀ op ∈ ops, ¬ op.Caches userId) :
    (m.applyAll updateIntoUser ops).users.lookup userId
      = (m.users.lookup userId).map fun user =>
        (updatesOf userId ops).foldl (fun user event => updateIntoUser event user) user := by
  induction ops generalizing m with
  | nil =>
    show m.users.lookup userId = (m.users.lookup userId).map fun user => user
    simp
  | cons op ops ih =>
    rw [List.forall_mem_cons] at hops
    have hcons := updatesOf_append userId [op] ops
    rw [List.singleton_append] at hcons
    show ((m.apply updateIntoUser op).applyAll updateIntoUser ops).users.lookup userId = _
    rw [ih _ hops.2, lookup_apply_of_not_caches m hops.1, Option.map_map, hcons]
    simp only [List.foldl_append, Function.comp_def]

theorem lookup_of_lastCached {ops : List CacheOp} {userId : String} {user : User}
    (h : LastCached updateIntoUser userId ops user) (m : CacheMap) :
    (m.applyAll updateIntoUser ops).users.lookup userId = some user := by
  obtain ⟨before, cached, after, rfl, hcached, hafter, rfl⟩ := h
  have hsplit : m.applyAll updateIntoUser (before ++ .changeUser (.cacheUser cached) :: after)
      = ((m.applyAll updateIntoUser before).apply updateIntoUser
          (.changeUser (.cacheUser cached))).applyAll updateIntoUser after := by
    simp only [CacheMap.applyAll, List.foldl_append, List.foldl_cons]
  rw [hsplit, lookup_applyAll_of_not_caches _ hafter, CacheMap.lookup_changeUser, changed,
    if_pos hcached, Option.map_some]

/-- The map holds the last cached values. -/
theorem lookup_eq_some_iff (ops : List CacheOp) (userId : String) (user : User) :
    (CacheMap.empty.applyAll updateIntoUser ops).users.lookup userId = some user ↔
      LastCached updateIntoUser userId ops user := by
  refine ⟨fun h => ?_, fun h => lookup_of_lastCached h _⟩
  rcases lastCached_or updateIntoUser userId ops with hnone | ⟨user', huser'⟩
  · rw [lookup_applyAll_of_not_caches _ hnone] at h
    cases h
  · rw [lookup_of_lastCached huser'] at h
    exact Option.some.inj h ▸ huser'

end Simulation

/-! ## Refinement -/

/-- The cache of an empty directory, after any operations and restarts: it refines the map, and a
    user is the last cached value with all later updates. Updates of unknown users and restarts
    change nothing. -/
theorem cache_refines_map (crypto : Primitives) (codecs : CacheCodecs)
    (updateIntoUser : UserChangeEvent → User → User) (dir : Path) (passphrase : String)
    (fs : FileSystem (List UInt8)) (ops : List CacheOp)
    (hid : ∀ event user, (updateIntoUser event user).userId = user.userId)
    (hempty : ∀ name, fs.read (dir.join name) = none) :
    let system := diskSystem crypto codecs updateIntoUser dir passphrase
    ∃ s, DiskState.load crypto codecs dir passphrase fs = some s ∧
      (system.Meets (Saves crypto codecs) s ops → ∃ t, system.run s ops = some t ∧
        Refines t.cache.inner (CacheMap.empty.applyAll updateIntoUser ops) ∧
        (∀ userId user, getUser t.cache.inner.cachedUsers userId = some user ↔
          LastCached updateIntoUser userId ops user) ∧
        (∀ event, getUser t.cache.inner.cachedUsers event.userId = none →
          system.step t (.changeUser (.updateUser event)) = some t) ∧
        ∀ users info, Saves crypto codecs t (.restart users info) →
          ∃ u, system.step t (.restart users info) = some u ∧ u.cache = t.cache) := by
  intro system
  obtain ⟨s, hload, hinv⟩ : ∃ s, DiskState.load crypto codecs dir passphrase fs = some s ∧
      s.Inv dir passphrase CacheMap.empty := load_empty hempty
  refine ⟨s, hload, fun hmeets => ?_⟩
  obtain ⟨t, hrun, ht⟩ := system.run_simulates (step_simulates hid) hinv hmeets
  obtain ⟨inner, hcache, hrefines, hfile⟩ := ht
  have hinner : t.cache.inner = inner := by
    rw [hcache]
    rfl
  refine ⟨t, hrun, hinner.symm ▸ hrefines, fun userId user => ?_, fun event hunknown => ?_,
    fun users info hsave => ?_⟩
  · rw [hinner, hrefines.getUser]
    exact lookup_eq_some_iff ops userId user
  · show some ({ t with cache := t.cache.setUsers _ } : DiskState) = some t
    rw [updateUser_of_unknown hunknown]
    rfl
  · obtain ⟨u, hstep, hsame, -⟩ :=
      step_restart updateIntoUser ⟨inner, hcache, hrefines, hfile⟩ hsave
    exact ⟨u, hstep, hsame⟩

/-! ## A run with a restart -/

def aliceBytes : List UInt8 :=
  10 :: 18 :: asBytes "@alice:example.org" ++ 18 :: 5 :: asBytes "Alice"

def infoBytes : List UInt8 := asBytes "\x7b\"sync_token\":\"s1\",\"user_status\":null\x7d"

/-- The bytes of Alice and of the token `s1`; no other value can be written. -/
def aliceCodecs : CacheCodecs where
  encodeToVec user := if user = alice then aliceBytes else List.replicate UInt64.size 0
  decode encoded := if encoded = aliceBytes then some alice else none
  toVec info := if info = ⟨some "s1", none⟩ then some infoBytes else none
  fromSlice serialized := if serialized = infoBytes then some ⟨some "s1", none⟩ else none
  decode_encodeToVec user h := by
    by_cases halice : user = alice
    · rw [if_pos halice, if_pos rfl, halice]
    · rw [if_neg halice, List.length_replicate] at h
      exact absurd h (Nat.lt_irrefl _)
  fromSlice_toVec {info serialized} h := by
    split at h
    · next hinfo =>
      obtain rfl := Option.some.inj h
      rw [if_pos rfl, hinfo]
    · cases h

def zeroSeal : Seal := ⟨(callOf 0).salt, (callOf 0).nonce⟩

/-- Alice is cached, and changes her name after a restart. -/
def restartedOps : List CacheOp :=
  [.changeUser (.cacheUser alice), .setSyncToken "s1", .restart zeroSeal zeroSeal,
    .changeUser (.updateUser ⟨"@alice:example.org", some "Ally", none, none⟩)]

def ally : User := ⟨"@alice:example.org", some "Ally", none, none⟩

/-- The cache of the empty directory. -/
def emptyCache : DiskState where
  cache := DiskCache.new ["cache"] "secret"
  fs := FileSystem.createDirAll ⟨[[]], ∅⟩ ["cache"]

theorem cache_refines_map_ally :
    ∃ t, (diskSystem tagCipher aliceCodecs plainProtos.updateIntoUser ["cache"] "secret").run
        emptyCache restartedOps = some t ∧
      Refines t.cache.inner
        (CacheMap.empty.applyAll plainProtos.updateIntoUser restartedOps) ∧
      getUser t.cache.inner.cachedUsers "@alice:example.org" = some ally := by
  obtain ⟨s, hload, hruns⟩ := cache_refines_map tagCipher aliceCodecs plainProtos.updateIntoUser
    ["cache"] "secret" ⟨[[]], ∅⟩ restartedOps (fun _ _ => rfl) (fun _ => rfl)
  have hs : s = emptyCache := (Option.some.inj hload).symm
  subst hs
  obtain ⟨t, hrun, hrefines, hlast, -⟩ := hruns (by decide +kernel)
  refine ⟨t, hrun, hrefines, (hlast _ _).mpr ?_⟩
  refine ⟨[], alice, _, rfl, rfl, fun op hop => ?_, rfl⟩
  simp only [List.mem_cons, List.not_mem_nil, or_false] at hop
  rcases hop with rfl | rfl | rfl <;> exact id

end GoudaMatrix.ProtoCache
