/-
  The loop that retries the decryption of all cached rooms every 15 seconds, and the reports of the
  redecryptor (`session.rs`, `memory_cache.rs`). Each spawns runs of `retry_decryption`, which
  interleave with each other and with the fetches of their room.

  `step_actionIn`: in each room, the loop does what the runs of the room do.
-/
import GoudaMatrix.MemoryCache.RetryRuns

namespace GoudaMatrix.MemoryCache

open GoudaMatrix.Lib GoudaMatrix.Ruma

/-! ## The loop -/

/-- `RedecryptorReport` of the SDK. -/
inductive RedecryptorReport where
  | resolvedUtds (roomId : String) (events : List String)
  | lagging
  | backupAvailable
deriving DecidableEq, Repr

/-- The cached rooms, each with the runs that have been spawned for it. -/
abbrev RetryRooms (M : Type) := HashMap (RetryRuns M)

def CachedRoom.hasEventsToDecrypt {M : Type} (room : CachedRoom M) : Bool :=
  !room.encryptedEvents.entries.isEmpty

/-- `tokio::spawn`. -/
def RetryRuns.spawn {M : Type} (s : RetryRuns M) (events : Option (List String)) : RetryRuns M :=
  { s with runs := s.runs ++ [.spawned events] }

inductive RetryLoopStep where
  /-- The loop has slept. -/
  | timeout
  | report (report : RedecryptorReport)
  /-- A fetch of the room or one of its runs goes on. -/
  | room (roomId : String) (action : RetryAction)

namespace RetryRooms

variable {M : Type} (env : String → RoomEnv M) (media : M) (rooms : RetryRooms M)

def retryEncryptedEvents (roomId : String) (events : Option (List String)) : RetryRooms M :=
  match rooms.lookup roomId with
  | none => rooms
  | some room => rooms.insert roomId (room.spawn events)

def retryAllEncryptedEvents : RetryRooms M :=
  rooms.mapValues fun room => if room.room.hasEventsToDecrypt then room.spawn none else room

def handleRedecryptorReport : RedecryptorReport → RetryRooms M
  | .resolvedUtds roomId events => retryEncryptedEvents rooms roomId (some events)
  | .lagging => retryAllEncryptedEvents rooms
  | .backupAvailable => retryAllEncryptedEvents rooms

/-- The room, which is created if it is missing. -/
def roomAt (roomId : String) : RetryRuns M := (rooms.lookup roomId).getD (.start media)

def step : RetryLoopStep → Option (RetryRooms M)
  | .timeout => some (retryAllEncryptedEvents rooms)
  | .report report => some (handleRedecryptorReport rooms report)
  -- a run is spawned by the loop and by the reports only
  | .room _ (.spawn _) => none
  | .room roomId action =>
    ((retryRuns (env roomId)).step (roomAt media rooms roomId) action).map fun room =>
      rooms.insert roomId room

end RetryRooms

/-- `begin_decryption_retry_loop` and `subscribe_to_redecryptor_reports`. -/
def retryLoop {M : Type} (env : String → RoomEnv M) (media : M) :
    System (RetryRooms M) RetryLoopStep where
  step rooms a := RetryRooms.step env media rooms a

namespace RetryLoopStep

/-- All rooms with events to decrypt are retried. -/
def retriesAll : RetryLoopStep → Bool
  | .timeout | .report .lagging | .report .backupAvailable => true
  | .report (.resolvedUtds _ _) | .room _ _ => false

/-- What a step does to one of the rooms. -/
def actionIn {M : Type} (rooms : RetryRooms M) (roomId : String) :
    RetryLoopStep → Option RetryAction
  | .timeout | .report .lagging | .report .backupAvailable =>
    if (rooms.lookup roomId).any fun room => room.room.hasEventsToDecrypt then some (.spawn none)
    else none
  | .report (.resolvedUtds id events) =>
    if id = roomId ∧ roomId ∈ rooms then some (.spawn (some events)) else none
  | .room id action => if id = roomId then some action else none

theorem actionIn_room {M : Type} (rooms : RetryRooms M) (id roomId : String)
    (action : RetryAction) :
    (RetryLoopStep.room id action).actionIn rooms roomId
      = if id = roomId then some action else none := rfl

theorem actionIn_resolvedUtds {M : Type} (rooms : RetryRooms M) (id roomId : String)
    (events : List String) :
    (RetryLoopStep.report (.resolvedUtds id events)).actionIn rooms roomId
      = if id = roomId ∧ roomId ∈ rooms then some (.spawn (some events)) else none := rfl

theorem actionIn_of_retriesAll {M : Type} (rooms : RetryRooms M) (roomId : String)
    {a : RetryLoopStep} (h : a.retriesAll = true) :
    a.actionIn rooms roomId
      = if (rooms.lookup roomId).any fun room => room.room.hasEventsToDecrypt then
          some (.spawn none)
        else none := by
  cases a with
  | timeout => rfl
  | report report =>
    cases report with
    | resolvedUtds id events => cases h
    | lagging | backupAvailable => rfl
  | room id action => cases h

end RetryLoopStep

namespace RetryRooms

variable {M : Type} {env : String → RoomEnv M} {media : M} {rooms rooms' : RetryRooms M}

theorem roomAt_insert (roomId id : String) (room : RetryRuns M) :
    roomAt media (rooms.insert roomId room) id
      = if id = roomId then room else roomAt media rooms id := by
  unfold roomAt
  rw [HashMap.lookup_insert_cases]
  split <;> rfl

theorem roomAt_retryAll (roomId : String) :
    roomAt media (retryAllEncryptedEvents rooms) roomId
      = if (rooms.lookup roomId).any fun room => room.room.hasEventsToDecrypt then
          (roomAt media rooms roomId).spawn none
        else roomAt media rooms roomId := by
  unfold roomAt retryAllEncryptedEvents
  rw [HashMap.lookup_mapValues]
  cases rooms.lookup roomId with
  | none => rfl
  | some room =>
    show (if room.room.hasEventsToDecrypt then room.spawn none else room) = _
    simp only [Option.any_some, Option.getD_some]

theorem roomAt_retryEncryptedEvents (id roomId : String) (events : Option (List String)) :
    roomAt media (retryEncryptedEvents rooms id events) roomId
      = if id = roomId ∧ roomId ∈ rooms then (roomAt media rooms roomId).spawn events
        else roomAt media rooms roomId := by
  unfold retryEncryptedEvents
  cases hlookup : rooms.lookup id with
  | none =>
    have hmissing : ¬ (id = roomId ∧ roomId ∈ rooms) := by
      rintro ⟨rfl, hmem⟩
      exact AList.lookup_eq_none.mp hlookup hmem
    rw [if_neg hmissing]
  | some room =>
    have hmem : id ∈ rooms := AList.lookup_isSome.mp (by rw [hlookup]; rfl)
    dsimp only
    rw [roomAt_insert]
    by_cases hid : roomId = id
    · subst hid
      rw [if_pos rfl, if_pos ⟨rfl, hmem⟩, roomAt, hlookup]
      rfl
    · rw [if_neg hid, if_neg fun h => hid h.1.symm]

/-- A step of the loop is one of each room, or nothing to it. -/
theorem step_actionIn {a : RetryLoopStep} (hstep : (retryLoop env media).step rooms a = some rooms')
    (roomId : String) :
    (retryRuns (env roomId)).run (roomAt media rooms roomId) (a.actionIn rooms roomId).toList
      = some (roomAt media rooms' roomId) := by
  have hstep : step env media rooms a = some rooms' := hstep
  have hall (h : a.retriesAll = true) :
      (retryRuns (env roomId)).run (roomAt media rooms roomId) (a.actionIn rooms roomId).toList
        = some (roomAt media (retryAllEncryptedEvents rooms) roomId) := by
    rw [RetryLoopStep.actionIn_of_retriesAll rooms roomId h, roomAt_retryAll]
    split <;> rfl
  cases a with
  | timeout =>
    obtain rfl := Option.some.inj hstep
    exact hall rfl
  | report report =>
    obtain rfl := Option.some.inj hstep
    cases report with
    | lagging | backupAvailable => exact hall rfl
    | resolvedUtds id events =>
      show _ = some (roomAt media (retryEncryptedEvents rooms id (some events)) roomId)
      rw [roomAt_retryEncryptedEvents, RetryLoopStep.actionIn_resolvedUtds]
      split <;> rfl
  | room id action =>
    have hmoved : ∃ room, (retryRuns (env id)).step (roomAt media rooms id) action = some room ∧
        rooms.insert id room = rooms' := by
      cases action with
      | spawn events => cases hstep
      | fetch _ | decrypted _ _ | advance _ => exact Option.map_eq_some_iff.mp hstep
    obtain ⟨room, hroom, rfl⟩ := hmoved
    rw [roomAt_insert, RetryLoopStep.actionIn_room]
    by_cases hid : id = roomId
    · subst hid
      rw [if_pos rfl, if_pos rfl]
      show (retryRuns (env id)).run _ [action] = _
      rw [System.run_cons, hroom]
      rfl
    · rw [if_neg hid, if_neg (Ne.symm hid)]
      rfl

end RetryRooms

end GoudaMatrix.MemoryCache
