/-
  Room messages on the live path (`events.rs`: `exec_room_message_event`). A replacement sends a
  change of its target, whoever has sent it; every other message is sent as it is received.
-/
import GoudaMatrix.MemoryCache.Edits

namespace GoudaMatrix.Events

open GoudaMatrix.Lib GoudaMatrix.Ruma GoudaMatrix.Media GoudaMatrix.MemoryCache

/-! ## The live path -/

/-- The state of a room that its messages use, with `marked_as_read_ts`. -/
structure LiveRoom (M : Type) where
  media : M
  markedAsReadTs : Option Nat
deriving DecidableEq

abbrev LiveMessage := OriginalEvent RoomMessageEventContent

section Exec

variable {M : Type} (mediaManager : MediaManager M) (roomId : String)

/-- `maybe_mark_room_as_unread` in one step, as nothing here comes between its halves. -/
def LiveRoom.maybeMarkRoomAsUnread (room : LiveRoom M) (eventTs : Nat) : LiveRoom M :=
  match room.markedAsReadTs with
  | none => room
  | some ts => if eventTs ≤ ts then room else { room with markedAsReadTs := none }

def processNewMessage (event : LiveMessage) (room : LiveRoom M) : List MessageEvent × LiveRoom M :=
  let (message, media) :=
    Messages.messageFromEvent mediaManager roomId { event with roomId } room.media
  ([.received message], { room with media }.maybeMarkRoomAsUnread message.timestamp)

/-- The change of an edited message. -/
def editChange (messageId : String) (newContent : NewContent) (content : Content) :
    MessageChangeEvent :=
  { MessageChangeEvent.new roomId messageId with
    content := some content
    mentionedUserIds := some (Messages.matrixMentionsToProtoMentions newContent.mentions)
    edited := some true }

def processReplacementMessage (messageId : String) (newContent : NewContent) (room : LiveRoom M) :
    List MessageEvent × LiveRoom M :=
  let (content, media) := Messages.generateMessageContent mediaManager roomId messageId
    newContent.msgtype room.media
  (match content with
    | none => []
    | some content => [.changed (editChange roomId messageId newContent content)],
   { room with media })

/-- `joined` is the state of the room. -/
def execRoomMessageEvent (joined : Bool) (event : LiveMessage) (room : LiveRoom M) :
    List MessageEvent × LiveRoom M :=
  if joined then
    match event.content.relatesTo with
    | some (.replacement messageId newContent) =>
      processReplacementMessage mediaManager roomId messageId newContent room
    | _ => processNewMessage mediaManager roomId event room
  else ([], room)

/-- Events one after another, each with the state of the room. -/
def execRoomMessageEvents : List (Bool × LiveMessage) → LiveRoom M → List MessageEvent × LiveRoom M
  | [], room => ([], room)
  | (joined, event) :: events, room =>
    let (sent, room) := execRoomMessageEvent mediaManager roomId joined event room
    let (sent', room) := execRoomMessageEvents events room
    (sent ++ sent', room)

end Exec

theorem media_maybeMarkRoomAsUnread {M : Type} (room : LiveRoom M) (ts : Nat) :
    (room.maybeMarkRoomAsUnread ts).media = room.media := by
  unfold LiveRoom.maybeMarkRoomAsUnread
  split
  · rfl
  · split <;> rfl

end GoudaMatrix.Events
