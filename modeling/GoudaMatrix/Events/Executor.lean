/-
  The `EventExecutor` (`events.rs`) for one room: the actions that change the unread count, the
  typing list or the read markers of the room, next to `mark_as_read` (`client.rs`), whose
  response also reaches the application.

  The executor takes one action after another. An action is a list of jobs, the parts of
  `exec_action` between two awaits; a job may put changes into the outbox, which are sent
  before the next job runs. Between any two steps another task can take one. `view` is what
  the application has been told; `dropped` is a history variable with every change that
  `is_new_room_change` kept back and the view at that moment.

  A room that is not found and a room that is not joined are actions without effect.
-/
import GoudaMatrix.Lib.Run
import GoudaMatrix.MemoryCache.ReadMarkers

namespace GoudaMatrix.Events

open GoudaMatrix.Lib GoudaMatrix.MemoryCache

/-! ## Changes and the view of the application -/

/-- A `RoomChangeEvent`, with the fields that the de-duplicated changes set. -/
structure RoomChangeEvent where
  unreadCount : Option Nat
  typingUserIdList : Option (List String)
  readMarker : Option ReadMarkers
deriving DecidableEq

/-- The room as the application has it. -/
structure RoomView where
  unreadCount : Option Nat
  typingUserIdList : Option (List String)
  readMarkers : ReadMarkers
deriving DecidableEq

/-- The application applies a change field by field, the read markers user by user. -/
def RoomView.apply (view : RoomView) (change : RoomChangeEvent) : RoomView where
  unreadCount := change.unreadCount <|> view.unreadCount
  typingUserIdList := change.typingUserIdList <|> view.typingUserIdList
  readMarkers := change.readMarker.getD ∅ ∪ view.readMarkers

/-- The view has the values of the change. -/
structure RoomView.Has (view : RoomView) (change : RoomChangeEvent) : Prop where
  unreadCount : ∀ n ∈ change.unreadCount, view.unreadCount = some n
  typingUserIdList : ∀ users ∈ change.typingUserIdList, view.typingUserIdList = some users
  readMarker : ∀ markers ∈ change.readMarker, markers ∪ view.readMarkers = view.readMarkers

theorem RoomView.has_iff (view : RoomView) (change : RoomChangeEvent) :
    view.Has change ↔ (∀ n ∈ change.unreadCount, view.unreadCount = some n) ∧
      (∀ users ∈ change.typingUserIdList, view.typingUserIdList = some users) ∧
      ∀ markers ∈ change.readMarker, markers ∪ view.readMarkers = view.readMarkers :=
  ⟨fun h => ⟨h.1, h.2, h.3⟩, fun h => ⟨h.1, h.2.1, h.2.2⟩⟩

instance (view : RoomView) (change : RoomChangeEvent) : Decidable (view.Has change) :=
  decidable_of_iff _ (view.has_iff change).symm

/-! ## State -/

/-- The parts of an action between two awaits. -/
inductive Job where
  | queuedRoomChanges
  | anyMessageLikeEvent (sender : String) (ts : Nat)
  | maybeMarkRoomAsUnread (eventTs : Nat)
  | markRoomAsUnread
  | updateRoomUnreadCount
  | joinedRoomUpdate (ephemeral : List EphemeralEvent)
deriving DecidableEq, Repr

structure RoomState where
  /-- `room_changes`, the queue of the room. -/
  queue : List RoomChangeEvent
  /-- `read_markers` of the cached room. -/
  readMarkers : ReadMarkers
  markedAsReadTs : Option Nat
  jobs : List Job
  outbox : List RoomChangeEvent
  /-- The `mark_as_read` requests that have cached their timestamp and not returned yet. -/
  marking : Nat
  view : RoomView
  dropped : List (RoomChangeEvent × RoomView)
deriving DecidableEq

def RoomState.start : RoomState := ⟨[], ∅, none, [], [], 0, ⟨none, none, ∅⟩, []⟩

/-- The actions of the executor, as far as they concern these fields. -/
inductive Action where
  | roomDiscovered
  | anyMessageLikeEvent (sender : String) (ts : Nat)
  /-- A new message, not a replacement. -/
  | roomMessageEvent (ts : Nat)
  | fullyReadEvent
  | joinedRoomUpdate (ephemeral : List EphemeralEvent)
  | eventCacheGenericUpdate
deriving DecidableEq, Repr

def Action.jobs : Action → List Job
  | .roomDiscovered => [.queuedRoomChanges]
  | .anyMessageLikeEvent sender ts => [.anyMessageLikeEvent sender ts]
  | .roomMessageEvent ts => [.maybeMarkRoomAsUnread ts]
  | .fullyReadEvent | .eventCacheGenericUpdate => [.updateRoomUnreadCount]
  | .joinedRoomUpdate ephemeral => [.updateRoomUnreadCount, .joinedRoomUpdate ephemeral]

/-! ## Jobs -/

def maxQueuedRoomChanges : Nat := 15

def roomMarkAsReadUnreadCountTimeout : Nat := 3000

def trackRoomChange (queue : List RoomChangeEvent) (change : RoomChangeEvent) :
    List RoomChangeEvent :=
  (if queue.length ≥ maxQueuedRoomChanges then queue.tail else queue) ++ [change]

def isNewRoomChange (queue : List RoomChangeEvent) (change : RoomChangeEvent) : Bool :=
  match queue.getLast? with
  | none => true
  | some old => old ≠ change

/-- The end of `update_room_unread_count` and of `exec_joined_room_update`. -/
def RoomState.sendIfNew (s : RoomState) (proto : RoomChangeEvent) : RoomState :=
  if isNewRoomChange s.queue proto then
    { s with queue := trackRoomChange s.queue proto, outbox := [proto] }
  else { s with dropped := s.dropped ++ [(proto, s.view)] }

/-- `numUnreadMessages` is what the SDK counts for the room. -/
def updateRoomUnreadCount (s : RoomState) (now numUnreadMessages : Nat) : RoomState :=
  let new := min numUnreadMessages (2 ^ 32 - 1)
  if s.markedAsReadTs.any fun ts => now < ts + roomMarkAsReadUnreadCountTimeout then s
  else s.sendIfNew ⟨some new, none, none⟩

def execJoinedRoomUpdate (s : RoomState) (ephemeral : List EphemeralEvent) : RoomState :=
  let typingList := getUserTypingList ephemeral
  let (readMarker, readMarkers) := getReadMarker s.readMarkers ephemeral
  let s := { s with readMarkers }
  if typingList.isNone && readMarker.isNone then s
  else s.sendIfNew ⟨none, typingList, readMarker⟩

def execAnyMessageLikeEvent (s : RoomState) (sender : String) (ts : Nat) : RoomState :=
  let (changed, readMarkers) := cacheReadMarker s.readMarkers sender ts
  let s := { s with readMarkers }
  if changed then { s with outbox := [⟨none, none, some (Finmap.singleton sender ts)⟩] } else s

/-- The first half of `maybe_mark_room_as_unread`, which reads the timestamp. -/
def maybeMarkRoomAsUnread (s : RoomState) (eventTs : Nat) : RoomState :=
  match s.markedAsReadTs with
  | none => s
  | some ts => if eventTs ≤ ts then s else { s with jobs := .markRoomAsUnread :: s.jobs }

def runJob (s : RoomState) (now numUnreadMessages : Nat) : Job → RoomState
  | .queuedRoomChanges => { s with outbox := s.queue, queue := [] }
  | .anyMessageLikeEvent sender ts => execAnyMessageLikeEvent s sender ts
  | .maybeMarkRoomAsUnread eventTs => maybeMarkRoomAsUnread s eventTs
  | .markRoomAsUnread => { s with markedAsReadTs := none }
  | .updateRoomUnreadCount => updateRoomUnreadCount s now numUnreadMessages
  | .joinedRoomUpdate ephemeral => execJoinedRoomUpdate s ephemeral

/-! What a job can do. A read marker is sent only if it has been raised. -/

/-- The room after a job. -/
inductive JobOutcome (s : RoomState) : Job → RoomState → Prop
  | queuedRoomChanges :
      JobOutcome s .queuedRoomChanges { s with outbox := s.queue, queue := [] }
  /-- Markers may be cached, and nothing is sent. -/
  | quiet (job : Job) (readMarkers : ReadMarkers) (below : Below s.readMarkers readMarkers) :
      JobOutcome s job { s with readMarkers }
  | messageMarker (sender : String) (ts : Nat) (m readMarkers : ReadMarkers)
      (raised : Raised s.readMarkers m readMarkers) :
      JobOutcome s (.anyMessageLikeEvent sender ts)
        { s with readMarkers, outbox := [⟨none, none, some m⟩] }
  | olderMark (eventTs : Nat) :
      JobOutcome s (.maybeMarkRoomAsUnread eventTs) { s with jobs := .markRoomAsUnread :: s.jobs }
  | cleared : JobOutcome s .markRoomAsUnread { s with markedAsReadTs := none }
  | sendIfNew (job : Job) (proto : RoomChangeEvent) (readMarkers : ReadMarkers)
      (raised : Raised s.readMarkers (proto.readMarker.getD ∅) readMarkers)
      (nonempty : ∀ m ∈ proto.readMarker, m ≠ ∅) :
      JobOutcome s job (RoomState.sendIfNew { s with readMarkers } proto)

theorem jobOutcome_runJob (s : RoomState) (now numUnreadMessages : Nat) (job : Job) :
    JobOutcome s job (runJob s now numUnreadMessages job) := by
  have hquiet : JobOutcome s job s := .quiet job s.readMarkers (Below.refl _)
  cases job with
  | queuedRoomChanges => exact .queuedRoomChanges
  | anyMessageLikeEvent sender ts =>
    simp only [runJob, execAnyMessageLikeEvent]
    by_cases hnew : ∀ old, s.readMarkers.lookup sender = some old → old < ts
    · rw [cacheReadMarker_of_newer hnew]
      exact .messageMarker sender ts _ _ ((Raised.refl s.readMarkers).insert hnew)
    · push Not at hnew
      obtain ⟨old, hold, hle⟩ := hnew
      rw [cacheReadMarker_of_older hold hle]
      exact hquiet
  | maybeMarkRoomAsUnread eventTs =>
    simp only [runJob, maybeMarkRoomAsUnread]
    split
    · exact hquiet
    · split
      · exact hquiet
      · exact .olderMark eventTs
  | markRoomAsUnread => exact .cleared
  | updateRoomUnreadCount =>
    simp only [runJob, updateRoomUnreadCount]
    split
    · exact hquiet
    · exact .sendIfNew _ _ s.readMarkers (Raised.refl _) nofun
  | joinedRoomUpdate ephemeral =>
    have hraised := raised_getReadMarker s.readMarkers ephemeral
    simp only [runJob, execJoinedRoomUpdate]
    split
    · exact .quiet _ _ hraised.below
    · exact .sendIfNew _ _ _ hraised fun m hm => getReadMarker_ne_empty hm

/-! ## Steps -/

inductive Step where
  /-- The executor receives its next action. -/
  | exec (a : Action)
  /-- The next job, with the clock and the number of unread messages it reads. -/
  | proceed (now numUnreadMessages : Nat)
  /-- The application receives the first change of the outbox. -/
  | send
  /-- A `mark_as_read` request has sent its receipts and caches the timestamp. -/
  | markAsRead (now : Nat)
  /-- The application receives the response of a `mark_as_read` request. -/
  | returnMarkAsRead
  /-- A history fetch or a redecryption caches read markers. -/
  | cacheReadMarkers (markers : List (String × Nat))
  /-- A change that another path sends; these set neither unread count nor typing list. -/
  | sendElsewhere (readMarker : Option ReadMarkers)
deriving DecidableEq

def step (s : RoomState) : Step → Option RoomState
  | .exec a => if s.jobs = [] ∧ s.outbox = [] then some { s with jobs := a.jobs } else none
  | .proceed now numUnreadMessages =>
    match s.jobs, s.outbox with
    | job :: jobs, [] => some (runJob { s with jobs } now numUnreadMessages job)
    | _, _ => none
  | .send =>
    match s.outbox with
    | change :: outbox => some { s with outbox, view := s.view.apply change }
    | [] => none
  | .markAsRead now => some { s with markedAsReadTs := some now, marking := s.marking + 1 }
  | .returnMarkAsRead =>
    if s.marking = 0 then none
    else some { s with marking := s.marking - 1, view := s.view.apply ⟨some 0, none, none⟩ }
  | .cacheReadMarkers markers =>
    some { s with
      readMarkers := markers.foldl (fun m e => (cacheReadMarker m e.1 e.2).2) s.readMarkers }
  | .sendElsewhere readMarker => some { s with view := s.view.apply ⟨none, none, readMarker⟩ }

def executorSystem : System RoomState Step where
  step := step

/-! What the steps with a guard do, and when they can be taken. -/

section Inversion

variable {room room' : RoomState}

theorem step_exec_eq_some {action : Action} (h : step room (.exec action) = some room') :
    room.jobs = [] ∧ room.outbox = [] ∧ room' = { room with jobs := action.jobs } := by
  simp only [step, Option.ite_none_right_eq_some, Option.some.injEq] at h
  exact ⟨h.1.1, h.1.2, h.2.symm⟩

theorem step_proceed_eq_some {now numUnreadMessages : Nat}
    (h : step room (.proceed now numUnreadMessages) = some room') :
    ∃ job jobs, room.jobs = job :: jobs ∧ room.outbox = [] ∧
      room' = runJob { room with jobs } now numUnreadMessages job := by
  simp only [step] at h
  split at h
  · next job jobs hjobs hout =>
    exact ⟨job, jobs, hjobs, hout, (Option.some.inj h).symm⟩
  · cases h

theorem step_send_eq_some (h : step room .send = some room') :
    ∃ change outbox, room.outbox = change :: outbox ∧
      room' = { room with outbox, view := room.view.apply change } := by
  simp only [step] at h
  split at h
  · next change outbox hout =>
    exact ⟨change, outbox, hout, (Option.some.inj h).symm⟩
  · cases h

theorem step_returnMarkAsRead_eq_some (h : step room .returnMarkAsRead = some room') :
    room.marking ≠ 0 ∧ room' = { room with
      marking := room.marking - 1
      view := room.view.apply ⟨some 0, none, none⟩ } := by
  simp only [step, Option.ite_none_left_eq_some, Option.some.injEq] at h
  exact ⟨h.1, h.2.symm⟩

end Inversion

end GoudaMatrix.Events
