/-
  The persistent cache (`proto_cache.rs`): the state of `ProtoCacheInner`, its operations, and
  the endless task that saves it.

  Every operation takes one lock, so it is one step. `save` takes two locks and awaits two file
  writes; it is the four steps `beginSave` (users lock), `endUsersWrite`, `beginInfoWrite` (info
  lock) and `endInfoWrite`, and any other operation can happen between them. A file write is
  one step that happens completely (`ok`) or not at all. A stop of the process leaves `files`
  as they are at that moment, so what holds of `files` in every reachable state holds after
  every crash.

  `files` hold the values written, not the bytes: the framing of `encode_proto_messages` and
  the encryption are not part of this module. A file that cannot be read back is modelled as a
  missing one, which is how `read_info` and `read_users` treat it.

  `update_into_user` belongs to `gouda_proto`; it is the parameter `updateIntoUser`.
-/
import GoudaMatrix.Chat
import GoudaMatrix.Lib.FirstMatch
import GoudaMatrix.Lib.Run

namespace GoudaMatrix.ProtoCache

open GoudaMatrix.Lib

/-! ## State -/

structure Info where
  syncToken : Option String
  userStatus : Option UserStatus
deriving DecidableEq, Repr

/-- `Info::default()`. -/
def Info.default : Info := ⟨none, none⟩

structure ProtoCacheInner where
  info : Info
  cachedUsers : Option (List User)
deriving DecidableEq, Repr

/-- The files `users` and `info` of the cache directory. -/
structure CacheFiles where
  users : Option (List User)
  info : Option Info
deriving DecidableEq, Repr

/-- `ProtoCacheInner::from_directory`, which calls `read_from_file_system`. -/
def ProtoCacheInner.fromDirectory (files : CacheFiles) : ProtoCacheInner where
  info := files.info.getD Info.default
  cachedUsers := files.users

/-! ## Operations -/

/-- A change of the cached users, as `cache_response_content` applies it. -/
inductive UserChange where
  | cacheUser (user : User)
  | updateUser (event : UserChangeEvent)
deriving DecidableEq, Repr

/-- `cache_user` on the list behind the users lock. -/
def cacheUser (users : Option (List User)) (user : User) : Option (List User) :=
  let users := users.getD []
  match modifyFirst (fun p => p.userId == user.userId) (fun _ => user) users with
  | some replaced => some replaced
  | none => some (users ++ [user])

section
variable (updateIntoUser : UserChangeEvent → User → User)

/-- `update_user` on the list behind the users lock. -/
def updateUser (users : Option (List User)) (event : UserChangeEvent) : Option (List User) :=
  match users with
  | none => none
  | some list =>
    match modifyFirst (fun p => p.userId == event.userId) (updateIntoUser event) list with
    | some updated => some updated
    | none => some list

def applyChange (users : Option (List User)) : UserChange → Option (List User)
  | .cacheUser user => cacheUser users user
  | .updateUser event => updateUser updateIntoUser users event

/-- The users after the changes, oldest first. -/
def replay (users : Option (List User)) (changes : List UserChange) : Option (List User) :=
  changes.foldl (applyChange updateIntoUser) users

theorem replay_concat (users : Option (List User)) (changes : List UserChange) (c : UserChange) :
    replay updateIntoUser users (changes ++ [c]) =
      applyChange updateIntoUser (replay updateIntoUser users changes) c := by
  rw [replay, List.foldl_append]
  rfl

end

/-! ## The save task -/

/-- Where the save task of a cache stands. `usersWrite` and `infoWrite` carry the snapshot that
    is being written. -/
inductive SaveStage where
  | sleeping
  | usersWrite (snapshot : List User)
  | infoNext
  | infoWrite (snapshot : Info)
deriving DecidableEq, Repr

/-- A cache together with its save task. -/
structure CacheTask where
  cache : ProtoCacheInner
  save : SaveStage
deriving DecidableEq, Repr

inductive CacheAction where
  | setSyncToken (token : String)
  | setUserStatus (status : UserStatus)
  | changeUser (change : UserChange)
  | beginSave
  | endUsersWrite (ok : Bool)
  | beginInfoWrite
  | endInfoWrite (ok : Bool)
deriving DecidableEq, Repr

namespace CacheTask

def setInfo (task : CacheTask) (info : Info) : CacheTask :=
  { task with cache := { task.cache with info := info } }

def setUsers (task : CacheTask) (users : Option (List User)) : CacheTask :=
  { task with cache := { task.cache with cachedUsers := users } }

/-- One step of a cache or of its save task on the cache files. -/
def step (updateIntoUser : UserChangeEvent → User → User) (task : CacheTask) (files : CacheFiles) :
    CacheAction → Option (CacheTask × CacheFiles)
  | .setSyncToken token =>
    some (task.setInfo { task.cache.info with syncToken := some token }, files)
  | .setUserStatus status =>
    some (task.setInfo { task.cache.info with userStatus := some status }, files)
  | .changeUser change =>
    some (task.setUsers (applyChange updateIntoUser task.cache.cachedUsers change), files)
  | .beginSave =>
    match task.save, task.cache.cachedUsers with
    | .sleeping, some users => some ({ task with save := .usersWrite users }, files)
    -- no users to cache: write_users returns Ok without writing
    | .sleeping, none => some ({ task with save := .infoNext }, files)
    | _, _ => none
  | .endUsersWrite ok =>
    match task.save with
    | .usersWrite users =>
      if ok then some ({ task with save := .infoNext }, { files with users := some users })
      -- save returns without writing the info
      else some ({ task with save := .sleeping }, files)
    | _ => none
  | .beginInfoWrite =>
    match task.save with
    | .infoNext => some ({ task with save := .infoWrite task.cache.info }, files)
    | _ => none
  | .endInfoWrite ok =>
    match task.save with
    | .infoWrite info =>
      some ({ task with save := .sleeping }, if ok then { files with info := some info } else files)
    | _ => none

/-- What a step can do, one constructor for each way. -/
inductive Step (updateIntoUser : UserChangeEvent → User → User) (task : CacheTask)
    (files : CacheFiles) : CacheAction → CacheTask → CacheFiles → Prop where
  | setSyncToken (token : String) : Step updateIntoUser task files (.setSyncToken token)
      (task.setInfo { task.cache.info with syncToken := some token }) files
  | setUserStatus (status : UserStatus) : Step updateIntoUser task files (.setUserStatus status)
      (task.setInfo { task.cache.info with userStatus := some status }) files
  | changeUser (c : UserChange) : Step updateIntoUser task files (.changeUser c)
      (task.setUsers (applyChange updateIntoUser task.cache.cachedUsers c)) files
  | beginSave (users : List User) (hs : task.save = .sleeping)
      (hu : task.cache.cachedUsers = some users) :
      Step updateIntoUser task files .beginSave { task with save := .usersWrite users } files
  | skipUsers (hs : task.save = .sleeping) (hu : task.cache.cachedUsers = none) :
      Step updateIntoUser task files .beginSave { task with save := .infoNext } files
  | usersWritten (users : List User) (hs : task.save = .usersWrite users) :
      Step updateIntoUser task files (.endUsersWrite true) { task with save := .infoNext }
        { files with users := some users }
  | usersFailed (users : List User) (hs : task.save = .usersWrite users) :
      Step updateIntoUser task files (.endUsersWrite false) { task with save := .sleeping } files
  | beginInfoWrite (hs : task.save = .infoNext) : Step updateIntoUser task files .beginInfoWrite
      { task with save := .infoWrite task.cache.info } files
  | infoWritten (info : Info) (hs : task.save = .infoWrite info) :
      Step updateIntoUser task files (.endInfoWrite true) { task with save := .sleeping }
        { files with info := some info }
  | infoFailed (info : Info) (hs : task.save = .infoWrite info) :
      Step updateIntoUser task files (.endInfoWrite false) { task with save := .sleeping } files

theorem step_inv {updateIntoUser : UserChangeEvent → User → User} {task : CacheTask}
    {files : CacheFiles} {a : CacheAction} {r : CacheTask × CacheFiles}
    (h : task.step updateIntoUser files a = some r) :
    Step updateIntoUser task files a r.1 r.2 := by
  cases a with
  | setSyncToken token => cases h; exact .setSyncToken token
  | setUserStatus status => cases h; exact .setUserStatus status
  | changeUser c => cases h; exact .changeUser c
  | beginSave =>
    simp only [step] at h
    split at h
    · next hs hu => cases h; exact .beginSave _ hs hu
    · next hs hu => cases h; exact .skipUsers hs hu
    · cases h
  | endUsersWrite ok =>
    simp only [step] at h
    split at h
    · next users hs =>
      cases ok with
      | true => cases h; exact .usersWritten users hs
      | false => cases h; exact .usersFailed users hs
    · cases h
  | beginInfoWrite =>
    simp only [step] at h
    split at h
    · next hs => cases h; exact .beginInfoWrite hs
    · cases h
  | endInfoWrite ok =>
    simp only [step] at h
    split at h
    · next info hs =>
      cases ok with
      | true => cases h; exact .infoWritten info hs
      | false => cases h; exact .infoFailed info hs
    · cases h

end CacheTask

/-- One `ProtoCacheInner` with its save task and its files. -/
def cacheSystem (updateIntoUser : UserChangeEvent → User → User) :
    System (CacheTask × CacheFiles) CacheAction where
  step s a := s.1.step updateIntoUser s.2 a

/-- The cache that `ProtoCache::new` builds from the files, with its save task waiting. -/
def CacheTask.start (files : CacheFiles) : CacheTask :=
  ⟨ProtoCacheInner.fromDirectory files, .sleeping⟩

/-! ## Users of the example runs -/

def alice : User := ⟨"@alice:example.org", some "Alice", none, none⟩
def bob : User := ⟨"@bob:example.org", some "Bob", none, none⟩

end GoudaMatrix.ProtoCache
