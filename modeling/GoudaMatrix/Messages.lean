/-
  `messages.rs`: the content and the message that are made of a room message event. A file is
  downloaded by the media manager, which is a parameter with a state of its own.
-/
import GoudaMatrix.Chat
import GoudaMatrix.Ruma.Event

namespace GoudaMatrix

open GoudaMatrix.Ruma

/-- `download_from_media_event_content`, on the state `M` of the media directory. `none` is an
    error, which the callers only log. -/
structure MediaManager (M : Type) where
  downloadFromMediaEventContent :
    (roomId eventId : String) → MediaContent → (fileName : Option String) → M → Option String × M

namespace Messages

variable {M : Type}

/-- `download_file!`. -/
def downloadFile (mediaManager : MediaManager M) (roomId eventId : String) (file : MediaContent)
    (media : M) : Option Content × M :=
  let fileName := file.filename.getD file.body
  let (result, media) :=
    mediaManager.downloadFromMediaEventContent roomId eventId file (some fileName) media
  (result.map fun path => .file path (some fileName), media)

/-- `convert_location!`. -/
def convertLocation (uri : Option String) (geoUri : String) : Content := .text (uri.getD geoUri)

/-- `generate_message_content!`. -/
def generateMessageContent (mediaManager : MediaManager M) (roomId eventId : String) :
    MessageType → M → Option Content × M
  | .audio file, media | .file file, media | .image file, media | .video file, media =>
    downloadFile mediaManager roomId eventId file media
  | .emote body, media | .notice body, media | .serverNotice body, media | .text body, media =>
    (some (.text body), media)
  | .location uri geoUri, media => (some (convertLocation uri geoUri), media)
  | .other, media => (none, media)

def matrixMentionsToProtoMentions : Option Mentions → List String
  | none => []
  | some mentions => mentions.userIds

def getRelatedMessageId (event : OriginalEvent RoomMessageEventContent) : Option String :=
  match event.content.relatesTo with
  | some (.reply inReplyTo) => some inReplyTo
  | _ => none

def getThreadId (event : OriginalEvent RoomMessageEventContent) : Option String :=
  match event.content.relatesTo with
  | some (.thread eventId) => some eventId
  | _ => none

def messageFromEvent (mediaManager : MediaManager M) (roomId : String)
    (event : OriginalEvent RoomMessageEventContent) (media : M) : Message × M :=
  let (content, media) :=
    generateMessageContent mediaManager roomId event.eventId event.content.msgtype media
  ({ messageId := event.eventId
     roomId := event.roomId
     senderId := event.sender
     timestamp := event.originServerTs
     content := content
     relatedMessageId := getRelatedMessageId event
     isEncrypted := false
     reactions := []
     mentionedUserIds := matrixMentionsToProtoMentions event.content.mentions
     roomMentioned := (event.content.mentions.map Mentions.room).getD false
     threadId := getThreadId event
     edited := false }, media)

end Messages

end GoudaMatrix
