/-
  The room events of ruma and the timeline events of the SDK, with the fields that the adapter
  reads. An event id, a user id, a room id is its string; a timestamp is in milliseconds.

  `Raw` is JSON that deserializes to a value or does not. Event types and message types that
  the adapter ignores are the constructor `other`.
-/
import Mathlib.Data.Option.Basic

namespace GoudaMatrix.Ruma

inductive Raw (α : Type) where
  | ok (value : α)
  /-- The JSON may still have an event id. -/
  | malformed (eventId : Option String)
deriving DecidableEq, Repr

/-- `Raw::deserialize`. -/
def Raw.deserialize {α : Type} : Raw α → Option α
  | .ok value => some value
  | .malformed _ => none

/-! ## Message-like events -/

/-- `OriginalMessageLikeEvent<C>`. -/
structure OriginalEvent (C : Type) where
  eventId : String
  sender : String
  originServerTs : Nat
  roomId : String
  content : C
deriving DecidableEq, Repr

/-- `RedactedMessageLikeEvent<C>`. -/
structure RedactedEvent where
  eventId : String
  sender : String
  originServerTs : Nat
  roomId : String
deriving DecidableEq, Repr

inductive MessageLikeEvent (C : Type) where
  | original (event : OriginalEvent C)
  | redacted (event : RedactedEvent)
deriving DecidableEq, Repr

inductive MediaSource where
  | plain (url : String)
  /-- An `EncryptedFile`, with the key of its data. -/
  | encrypted (url key : String)
deriving DecidableEq, Repr

def MediaSource.url : MediaSource → String
  | .plain url | .encrypted url _ => url

/-- `AudioMessageEventContent` and its like for files, images and videos. -/
structure MediaContent where
  filename : Option String
  body : String
  source : MediaSource
deriving DecidableEq, Repr

inductive MessageType where
  | audio (content : MediaContent)
  | emote (body : String)
  | file (content : MediaContent)
  | image (content : MediaContent)
  /-- The `uri` of the location block, if there is one, and the `geo_uri`. -/
  | location (uri : Option String) (geoUri : String)
  | notice (body : String)
  | serverNotice (body : String)
  | text (body : String)
  | video (content : MediaContent)
  | other
deriving DecidableEq, Repr

structure Mentions where
  userIds : List String
  room : Bool
deriving DecidableEq, Repr

/-- `RoomMessageEventContentWithoutRelation`. -/
structure NewContent where
  msgtype : MessageType
  mentions : Option Mentions
deriving DecidableEq, Repr

/-- The relation of a room message. -/
inductive Relation where
  | reply (inReplyTo : String)
  | thread (eventId : String)
  | replacement (eventId : String) (newContent : NewContent)
  | other
deriving DecidableEq, Repr

structure RoomMessageEventContent where
  msgtype : MessageType
  relatesTo : Option Relation
  mentions : Option Mentions
deriving DecidableEq, Repr

/-- The content of a redaction, with the `redacts` field of the event itself, which older room
    versions use. -/
structure RoomRedactionEventContent where
  eventRedacts : Option String
  redacts : Option String
  reason : Option String
deriving DecidableEq, Repr

/-- The content of an `m.reaction` event. -/
structure ReactionEventContent where
  eventId : String
  key : String
deriving DecidableEq, Repr

/-! ## Polls -/

/-- `PollKind`; other kinds than the two of the specification deserialize too. -/
inductive PollKind where
  | disclosed
  | undisclosed
  | custom (name : String)
deriving DecidableEq, Repr

structure UnstablePollAnswer where
  id : String
  text : String
deriving DecidableEq, Repr

structure UnstablePollStartContentBlock where
  question : String
  kind : PollKind
  maxSelections : Nat
  answers : List UnstablePollAnswer
deriving DecidableEq, Repr

inductive UnstablePollStartEventContent where
  | new (pollStart : UnstablePollStartContentBlock)
  | replacement (eventId : String) (pollStart : UnstablePollStartContentBlock)
deriving DecidableEq, Repr

/-- `UnstablePollStartEventContent::poll_start`. -/
def UnstablePollStartEventContent.pollStart :
    UnstablePollStartEventContent → UnstablePollStartContentBlock
  | .new pollStart => pollStart
  | .replacement _ pollStart => pollStart

structure UnstablePollResponseEventContent where
  relatesTo : String
  answers : List String
deriving DecidableEq, Repr

structure UnstablePollEndEventContent where
  relatesTo : String
deriving DecidableEq, Repr

/-! ## Any event -/

inductive AnyMessageLikeEvent where
  | roomMessage (event : MessageLikeEvent RoomMessageEventContent)
  | roomRedaction (event : MessageLikeEvent RoomRedactionEventContent)
  | roomEncrypted (event : MessageLikeEvent Unit)
  | unstablePollStart (event : MessageLikeEvent UnstablePollStartEventContent)
  | unstablePollResponse (event : MessageLikeEvent UnstablePollResponseEventContent)
  | unstablePollEnd (event : MessageLikeEvent UnstablePollEndEventContent)
  | reaction (event : MessageLikeEvent ReactionEventContent)
  | other (event : RedactedEvent)
deriving DecidableEq, Repr

/-- The `MembershipChange` of a member event. -/
inductive MemberChange where
  | none
  | error
  | joined
  | left
  | banned
  | unbanned
  | kicked
  | invited
  | kickedAndBanned
  | invitationAccepted
  | invitationRejected
  | invitationRevoked
  | knocked
  | knockAccepted
  | knockRetracted
  | knockDenied
  | profileChanged
  | notImplemented
deriving DecidableEq, Repr

structure RoomMemberEventContent where
  stateKey : String
  membershipChange : MemberChange
deriving DecidableEq, Repr

inductive AnyStateEvent where
  | roomMember (event : MessageLikeEvent RoomMemberEventContent)
  | other (event : RedactedEvent)
deriving DecidableEq, Repr

inductive AnyTimelineEvent where
  | messageLike (event : AnyMessageLikeEvent)
  | state (event : AnyStateEvent)
deriving DecidableEq, Repr

/-- The fields that every event has. -/
def MessageLikeEvent.header {C : Type} : MessageLikeEvent C → RedactedEvent
  | .original e => ⟨e.eventId, e.sender, e.originServerTs, e.roomId⟩
  | .redacted e => e

def AnyTimelineEvent.header : AnyTimelineEvent → RedactedEvent
  | .messageLike (.roomMessage e) => e.header
  | .messageLike (.roomRedaction e) => e.header
  | .messageLike (.roomEncrypted e) => e.header
  | .messageLike (.unstablePollStart e) => e.header
  | .messageLike (.unstablePollResponse e) => e.header
  | .messageLike (.unstablePollEnd e) => e.header
  | .messageLike (.reaction e) => e.header
  | .messageLike (.other e) => e
  | .state (.roomMember e) => e.header
  | .state (.other e) => e

/-! ## Timeline events -/

/-- `OriginalSyncRoomEncryptedEvent`. -/
structure EncryptedEvent where
  eventId : String
  sender : String
  originServerTs : Nat
  ciphertext : String
deriving DecidableEq, Repr

/-- `TimelineEventKind`. The room id of a plain text event, which a sync leaves out, is in the
    event. -/
inductive TimelineEventKind where
  | decrypted (event : Raw AnyTimelineEvent)
  | unableToDecrypt (event : Raw EncryptedEvent) (sessionId : Option String)
  | plainText (event : Raw AnyTimelineEvent)
deriving DecidableEq, Repr

structure TimelineEvent where
  kind : TimelineEventKind
  /-- The origin timestamp as the SDK has extracted it. -/
  timestamp : Option Nat
deriving DecidableEq, Repr

/-- `TimelineEvent::event_id`. -/
def TimelineEvent.eventId (event : TimelineEvent) : Option String :=
  match event.kind with
  | .decrypted (.ok e) | .plainText (.ok e) => some e.header.eventId
  | .unableToDecrypt (.ok e) _ => some e.eventId
  | .decrypted (.malformed id) | .plainText (.malformed id)
  | .unableToDecrypt (.malformed id) _ => id

/-- `TimelineEvent::sender`, of an event that deserializes. -/
def TimelineEvent.sender (event : TimelineEvent) : Option String :=
  match event.kind with
  | .decrypted e | .plainText e => e.deserialize.map fun e => e.header.sender
  | .unableToDecrypt e _ => e.deserialize.map EncryptedEvent.sender

end GoudaMatrix.Ruma
