/-
  The properties of a room that the application shows: the display name, the join rule, the pinned
  messages, the favourite mark and the permissions of our user (`rooms.rs`, `bridge.rs`).

  The application is told of them by the handlers of the state events (`events.rs`) and by the
  responses of `change_room`, `pin_unpin_message` (`client.rs`) and `assemble_chat_room`
  (`rooms.rs`). The responses are put together by calls of the SDK, each of which may fail.
-/
import Mathlib.Data.List.Basic
import Mathlib.Logic.Function.Basic

namespace GoudaMatrix.Rooms

/-! ## Join rules and permissions -/

/-- `matrix_sdk::ruma::room::JoinRule`; `other` are the rules that the chat does not have. -/
inductive MatrixJoinRule where
  | invite
  | knock
  | «public»
  | other (rule : String)
deriving DecidableEq, Repr

/-- `chat::RoomJoinRule`. -/
inductive RoomJoinRule where
  | invite
  | knock
  | «public»
deriving DecidableEq, Repr

def MatrixJoinRule.intoChat : MatrixJoinRule → RoomJoinRule
  | .invite => .invite
  | .knock => .knock
  | .public => .public
  | .other _ => .invite

def RoomJoinRule.intoMatrix : RoomJoinRule → MatrixJoinRule
  | .invite => .invite
  | .knock => .knock
  | .public => .public

inductive StateEventType where
  | roomName
  | roomJoinRules
  | roomPinnedEvents
  | conferenceState
deriving DecidableEq, Repr

/-- What the power levels of the room let our user do. -/
structure RoomPowerLevels where
  userCanSendState : StateEventType → Bool
  userCanInvite : Bool
  userCanKick : Bool
  userCanBan : Bool
  userCanTriggerRoomNotification : Bool

structure RoomPermissions where
  canEdit : Bool
  canInvite : Bool
  canKick : Bool
  canBan : Bool
  canMentionRoom : Bool
  canPinMessages : Bool
  canEditConferenceUrl : Bool
deriving DecidableEq, Repr

def getRoomPermissions (roomPowerLevels : RoomPowerLevels) : RoomPermissions where
  canEdit := roomPowerLevels.userCanSendState .roomName
    && roomPowerLevels.userCanSendState .roomJoinRules
  canInvite := roomPowerLevels.userCanInvite
  canKick := roomPowerLevels.userCanKick
  canBan := roomPowerLevels.userCanBan
  canMentionRoom := roomPowerLevels.userCanTriggerRoomNotification
  canPinMessages := roomPowerLevels.userCanSendState .roomPinnedEvents
  canEditConferenceUrl := roomPowerLevels.userCanSendState .conferenceState

/-! ## The room -/

/-- `TagName::Favorite`. -/
def favorite : String := "m.favourite"

/-- The state of a room on the homeserver, or as the SDK has it. -/
structure MatrixRoom where
  name : Option String
  joinRule : Option MatrixJoinRule
  pinnedEventIds : Option (List String)
  tags : List String
  powerLevels : RoomPowerLevels

namespace MatrixRoom

def isFavourite (room : MatrixRoom) : Bool := decide (favorite ∈ room.tags)

def chatJoinRule (room : MatrixRoom) : RoomJoinRule := (room.joinRule.getD .invite).intoChat

def pinnedMessages (room : MatrixRoom) : List String := room.pinnedEventIds.getD []

def permissions (room : MatrixRoom) : RoomPermissions := getRoomPermissions room.powerLevels

end MatrixRoom

/-- The room as the application shows it. -/
structure Room where
  displayName : Option String
  joinRule : RoomJoinRule
  pinnedMessages : List String
  isFavorite : Bool
  permissions : RoomPermissions
deriving DecidableEq, Repr

/-- A `RoomChangeEvent`, or as much of a `Room` as has been put together: a property that is `none`
    stays as it is. -/
structure RoomChange where
  displayName : Option (Option String)
  joinRule : Option RoomJoinRule
  pinnedMessages : Option (List String)
  isFavorite : Option Bool
  permissions : Option RoomPermissions
deriving DecidableEq, Repr

/-- `RoomChangeEventBuilder::new`. -/
def RoomChange.new : RoomChange where
  displayName := none
  joinRule := none
  pinnedMessages := none
  isFavorite := none
  permissions := none

def Room.apply (room : Room) (change : RoomChange) : Room where
  displayName := change.displayName.getD room.displayName
  joinRule := change.joinRule.getD room.joinRule
  pinnedMessages := change.pinnedMessages.getD room.pinnedMessages
  isFavorite := change.isFavorite.getD room.isFavorite
  permissions := change.permissions.getD room.permissions

/-! ## State events -/

inductive RoomEventContent where
  | roomName (name : String)
  | roomJoinRules (joinRule : MatrixJoinRule)
  | roomPinnedEvents (pinned : List String)
  | roomPowerLevels (powerLevels : RoomPowerLevels)
  | tag (tags : List String)

structure RoomEvent where
  content : RoomEventContent
  /-- In milliseconds. -/
  originServerTs : Nat

/-- The homeserver and the SDK keep the content of the last event. -/
def MatrixRoom.receive (room : MatrixRoom) (event : RoomEvent) : MatrixRoom :=
  match event.content with
  | .roomName name => { room with name := some name }
  | .roomJoinRules joinRule => { room with joinRule := some joinRule }
  | .roomPinnedEvents pinned => { room with pinnedEventIds := some pinned }
  | .roomPowerLevels powerLevels => { room with powerLevels := powerLevels }
  | .tag tags => { room with tags := tags }

/-- `HISTORICAL_EVENT_TIMEOUT`, in seconds. -/
def historicalEventTimeout : Nat := 5

/-- `now` is in seconds; the subtraction saturates. -/
def isHistoricalEvent (now originServerTs : Nat) : Bool :=
  decide (now - originServerTs / 1000 > historicalEventTimeout)

def skipHistoricalEvent (now : Nat) (event : RoomEvent) : Option RoomEvent :=
  if isHistoricalEvent now event.originServerTs then none else some event

/-- The action that is sent for an event, if any: the `process_*` methods of the event manager. -/
def processRoomEvent (now : Nat) (event : RoomEvent) : Option RoomEvent :=
  match event.content with
  | .roomName _ => skipHistoricalEvent now event
  | .roomJoinRules _ => skipHistoricalEvent now event
  | .roomPinnedEvents _ => some event
  | .roomPowerLevels _ => some event
  | .tag _ => some event

def execRoomNameEvent (name : String) : RoomChange :=
  { RoomChange.new with displayName := some (some name) }

def execRoomJoinRulesEvent (joinRule : MatrixJoinRule) : RoomChange :=
  { RoomChange.new with joinRule := some joinRule.intoChat }

def execRoomPinnedEventsEvent (pinned : List String) : RoomChange :=
  { RoomChange.new with pinnedMessages := some pinned }

/-- The content of the event is not looked at. -/
def execRoomPowerLevelsEvent (room : MatrixRoom) (_powerLevels : RoomPowerLevels) : RoomChange :=
  { RoomChange.new with permissions := some room.permissions }

def execTagEvent (tags : List String) : RoomChange :=
  { RoomChange.new with isFavorite := some (decide (favorite ∈ tags)) }

/-- The `RoomChangeEvent` of an action. -/
def execRoomEvent (room : MatrixRoom) (event : RoomEvent) : RoomChange :=
  match event.content with
  | .roomName name => execRoomNameEvent name
  | .roomJoinRules joinRule => execRoomJoinRulesEvent joinRule
  | .roomPinnedEvents pinned => execRoomPinnedEventsEvent pinned
  | .roomPowerLevels powerLevels => execRoomPowerLevelsEvent room powerLevels
  | .tag tags => execTagEvent tags

/-! ## Requests -/

/-- A call of the SDK. -/
inductive RoomCall where
  | setName (name : String)
  /-- Not a call: `RoomJoinRule::try_from` has failed. -/
  | invalidJoinRule
  | updateJoinRule (joinRule : RoomJoinRule)
  | updateRoomVisibility (joinRule : RoomJoinRule)
  | setIsFavourite (isFavourite : Bool)
  | pinEvent (eventId : String)
  | unpinEvent (eventId : String)
  | pinnedEventIds
  | displayName
  | joinRule
  | powerLevels
  | isFavourite
deriving DecidableEq, Repr

structure RoomChangeRequest where
  displayName : Option String
  /-- `some none` is a number of no join rule. -/
  joinRule : Option (Option RoomJoinRule)
  isFavorite : Option Bool
deriving DecidableEq, Repr

/-- `update_room_join_rule`. -/
def updateRoomJoinRule (joinRule : RoomJoinRule) : List RoomCall :=
  [.updateJoinRule joinRule, .updateRoomVisibility joinRule]

def changeRoom (request : RoomChangeRequest) : List RoomCall :=
  (match request.displayName with
    | some displayName => [.setName displayName]
    | none => []) ++
  (match request.joinRule with
    | some (some joinRule) => updateRoomJoinRule joinRule
    | some none => [.invalidJoinRule]
    | none => []) ++
  (match request.isFavorite with
    | some isFavourite => [.setIsFavourite isFavourite]
    | none => [])

def pinUnpinMessage (eventId : String) (pinned : Bool) : List RoomCall :=
  [if pinned then .pinEvent eventId else .unpinEvent eventId, .pinnedEventIds]

def assembleChatRoom : List RoomCall :=
  [.displayName, .joinRule, .pinnedEventIds, .powerLevels, .isFavourite]

inductive RoomRequest where
  | changeRoom (request : RoomChangeRequest)
  | pinUnpinMessage (eventId : String) (pinned : Bool)
  /-- One room of `get_rooms`, or the response to a request that creates or joins it. -/
  | assembleChatRoom
deriving DecidableEq, Repr

def RoomRequest.calls : RoomRequest → List RoomCall
  | .changeRoom request => Rooms.changeRoom request
  | .pinUnpinMessage eventId pinned => Rooms.pinUnpinMessage eventId pinned
  | .assembleChatRoom => Rooms.assembleChatRoom

/-- `RoomDisplayName`; `other` has the text of all the other variants. -/
inductive RoomDisplayName where
  | empty
  | other (text : String)
deriving DecidableEq, Repr

/-- What a call that succeeds depends on besides the room. -/
structure SdkAnswer where
  /-- When the homeserver has received the event that the call sends. -/
  originServerTs : Nat
  /-- The name that the SDK has computed; `Empty` if it could not. -/
  displayName : RoomDisplayName

/-- How the SDK changes the pinned messages, from what it has of them and from what the homeserver
    has; `none` if there is nothing to change. -/
structure PinnedEvents where
  pinEvent : Option (List String) → Option (List String) → String → Option (List String)
  unpinEvent : Option (List String) → Option (List String) → String → Option (List String)

/-- The event that a call sends. -/
def RoomCall.sends (sdk : PinnedEvents) (server room : MatrixRoom) :
    RoomCall → Option RoomEventContent
  | .setName name => some (.roomName name)
  | .updateJoinRule rule => some (.roomJoinRules rule.intoMatrix)
  | .setIsFavourite mark =>
    if mark then
      some (.tag (if favorite ∈ server.tags then server.tags else server.tags ++ [favorite]))
    else
      some (.tag (server.tags.filter (· ≠ favorite)))
  | .pinEvent eventId =>
    (sdk.pinEvent room.pinnedEventIds server.pinnedEventIds eventId).map .roomPinnedEvents
  | .unpinEvent eventId =>
    (sdk.unpinEvent room.pinnedEventIds server.pinnedEventIds eventId).map .roomPinnedEvents
  | _ => none

/-- The response after a call that has succeeded. -/
def RoomCall.responds (room : MatrixRoom) (computed : RoomDisplayName) (response : RoomChange) :
    RoomCall → RoomChange
  | .setName name => { response with displayName := some (some name) }
  | .updateRoomVisibility rule => { response with joinRule := some rule }
  | .setIsFavourite mark => { response with isFavorite := some mark }
  | .pinnedEventIds => { response with pinnedMessages := some room.pinnedMessages }
  | .displayName =>
    { response with displayName := some (match computed with
        | .empty => none
        | .other text => some text) }
  | .joinRule => { response with joinRule := some room.chatJoinRule }
  | .powerLevels => { response with permissions := some room.permissions }
  | .isFavourite => { response with isFavorite := some room.isFavourite }
  | .invalidJoinRule | .updateJoinRule _ | .pinEvent _ | .unpinEvent _ => response

/-- A request that is being executed: the calls that are left, and the response so far. -/
structure RoomTask where
  calls : List RoomCall
  response : RoomChange
deriving DecidableEq, Repr

end GoudaMatrix.Rooms
