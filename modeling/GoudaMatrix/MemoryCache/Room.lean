/-
  `CachedRoom` (`memory_cache.rs`): the handlers that `process_timeline_event` calls. A handler
  returns its result and the room afterwards. Locks are never poisoned here, so that the only
  error that is left is the one of `process_new_unstable_poll_start`.

  `RoomEnv` is what the room uses but does not change: the iteration order of its hash maps,
  the media manager, the receipts in the store and the decryption of the SDK.
-/
import GoudaMatrix.MemoryCache.Message
import GoudaMatrix.MemoryCache.ReadMarkers
import GoudaMatrix.Messages

namespace GoudaMatrix.MemoryCache

open GoudaMatrix.Lib GoudaMatrix.Ruma

inductive MemoryCacheError where
  | messageReceiverDropped
  | unableToAssembleMessage
deriving DecidableEq, Repr

structure ReactionMetadata where
  reactionId : String
  userId : String
  emoji : String
  messageId : String
  roomId : String
deriving DecidableEq, Repr

inductive CachedRoomAction where
  | message (message : Message)
  | reaction (metadata : ReactionMetadata)
deriving DecidableEq, Repr

structure CachedEncryptedEvent where
  event : EncryptedEvent
  sessionId : Option String
deriving DecidableEq, Repr

structure CachedRoom (M : Type) where
  /-- The state of the media manager. -/
  media : M
  messages : HashMap CachedMessage
  encryptedEvents : HashMap CachedEncryptedEvent
  reactionIdToMessage : HashMap String
  readMarkers : ReadMarkers
deriving DecidableEq

def CachedRoom.new {M : Type} (media : M) : CachedRoom M := ⟨media, ∅, ∅, ∅, ∅⟩

structure RoomEnv (M : Type) where
  roomId : String
  order : IterationOrder
  mediaManager : MediaManager M
  /-- The users with a read receipt on the event, of the main thread and without a thread. -/
  mainReceipts : (eventId : String) → List String
  unthreadedReceipts : (eventId : String) → List String
  /-- `Room::decrypt_event`, `none` for an error. -/
  decryptEvent : EncryptedEvent → Option TimelineEvent

/-- A room without media, receipts and keys. -/
def RoomEnv.bare (roomId : String) : RoomEnv Unit where
  roomId := roomId
  order := .entries
  mediaManager := ⟨fun _ _ _ _ media => (none, media)⟩
  mainReceipts := fun _ => []
  unthreadedReceipts := fun _ => []
  decryptEvent := fun _ => none

/-- `MembershipChange::try_into_chat`. -/
def tryIntoChat : MemberChange → Option MembershipChange
  | .joined | .invitationAccepted | .knockAccepted => some .joined
  | .left => some .left
  | .banned | .kickedAndBanned => some .banned
  | .kicked => some .kicked
  | .invited => some .invited
  | .knocked => some .knocked
  | _ => none

abbrev Result (α : Type) := Except MemoryCacheError α

namespace CachedRoom

variable {M : Type} (env : RoomEnv M) (room : CachedRoom M)

/-! ## The caches -/

/-- A change of the cached message, which is created if it is missing. -/
def modifyMessage (messageId : String) (f : CachedMessage → CachedMessage) : CachedRoom M :=
  { room with messages := room.messages.modifyEntry messageId CachedMessage.default f }

def cacheReplacement (originalMessageId replacementId : String)
    (replacement : CachedReplacement) : CachedRoom M :=
  room.modifyMessage originalMessageId fun m =>
    { m with replacements := m.replacements.insert replacementId replacement }

def cacheRedaction (redaction : OriginalEvent RoomRedactionEventContent)
    (redactedMessageId : String) : CachedRoom M :=
  room.modifyMessage redactedMessageId fun m => { m with redaction := some redaction }

def cacheReaction (messageId reactionId : String) (reaction : CachedReaction) : CachedRoom M :=
  let room := room.modifyMessage messageId fun m =>
    { m with reactions := m.reactions.insert reactionId reaction }
  { room with reactionIdToMessage := room.reactionIdToMessage.insert reactionId messageId }

def cachePollReplacementEvent (messageId : String)
    (event : OriginalEvent UnstablePollStartEventContent) : CachedRoom M :=
  room.modifyMessage messageId fun m =>
    { m with pollReplacementEvents := m.pollReplacementEvents.insert event.eventId event }

def cachePollResponseEvent (messageId : String)
    (event : OriginalEvent UnstablePollResponseEventContent) : CachedRoom M :=
  room.modifyMessage messageId fun m =>
    { m with pollResponseEvents := m.pollResponseEvents.insert event.eventId event }

def cachePollEndEvent (messageId : String) (event : OriginalEvent UnstablePollEndEventContent) :
    CachedRoom M :=
  room.modifyMessage messageId fun m =>
    { m with pollEndEvents := m.pollEndEvents.insert event.eventId event }

def cacheEncryptedEvent (eventId : String) (event : CachedEncryptedEvent) : CachedRoom M :=
  { room with encryptedEvents := room.encryptedEvents.insert eventId event }

def removeEncryptedEvent (eventId : String) : CachedRoom M :=
  { room with encryptedEvents := room.encryptedEvents.erase eventId }

/-- `cache_and_build_message`, which is all of `assemble_message`. -/
def assembleMessage (original : Message) : Message × CachedRoom M :=
  let cached := (room.messages.lookup original.messageId).getD CachedMessage.default
  let (message, cached) := cached.buildFromOriginal env.order original
  (message, { room with messages := room.messages.insert original.messageId cached })

/-! ## Read markers -/

/-- Every user of the list with the timestamp of the event. -/
def receiptMarkers (userIds : List String) (ts : Nat) : ReadMarkers :=
  userIds.foldl (fun markers userId => markers.insert userId ts) ∅

def loadEventReadMarkers (event : RedactedEvent) : ReadMarkers :=
  let ts := event.originServerTs
  let main := receiptMarkers (env.mainReceipts event.eventId) ts
  let unthreaded := receiptMarkers (env.unthreadedReceipts event.eventId) ts
  mergeHashMapMax (Finmap.singleton event.sender ts) (mergeHashMapMax main unthreaded)

def loadAndCacheEventReadMarkers (event : RedactedEvent) : CachedRoom M :=
  { room with readMarkers := cacheReadMarkers room.readMarkers (loadEventReadMarkers env event) }

/-! ## Message-like events -/

def processOriginalRoomMessage (original : OriginalEvent RoomMessageEventContent) :
    Result (Option CachedRoomAction) × CachedRoom M :=
  match original.content.relatesTo with
  | some (.replacement eventId newContent) =>
    let (content, media) := Messages.generateMessageContent env.mediaManager env.roomId eventId
      newContent.msgtype room.media
    let room := { room with media }
    match content with
    | none => (.ok none, room)
    | some newContent =>
      (.ok none, room.cacheReplacement eventId original.eventId
        ⟨original.originServerTs, newContent⟩)
  | _ =>
    let (original, media) :=
      Messages.messageFromEvent env.mediaManager env.roomId original room.media
    let (message, room) := { room with media }.assembleMessage env original
    (.ok (some (.message message)), room)

/-- A redacted room message or a redacted encrypted event. -/
def processRedactedRoomMessage (redacted : RedactedEvent) :
    Result (Option CachedRoomAction) × CachedRoom M :=
  let original :=
    { Message.new redacted.roomId redacted.eventId redacted.sender redacted.originServerTs with
      content := some (.removed none) }
  let (message, room) := room.assembleMessage env original
  (.ok (some (.message message)), room)

def processRoomMessage : MessageLikeEvent RoomMessageEventContent →
    Result (Option CachedRoomAction) × CachedRoom M
  | .original original => room.processOriginalRoomMessage env original
  | .redacted redacted => room.processRedactedRoomMessage env redacted

def processRoomRedaction : MessageLikeEvent RoomRedactionEventContent →
    Result (Option CachedRoomAction) × CachedRoom M
  | .redacted _ => (.ok none, room)
  | .original original =>
    match original.content.redacts with
    | none => (.ok none, room)
    | some redactedEventId => (.ok none, room.cacheRedaction original redactedEventId)

def processRoomEncrypted : MessageLikeEvent Unit → Result (Option CachedRoomAction) × CachedRoom M
  | .original _ => (.ok none, room)
  | .redacted redacted => room.processRedactedRoomMessage env redacted

def processNewUnstablePollStart (event : OriginalEvent UnstablePollStartEventContent) :
    Result (Option CachedRoomAction) × CachedRoom M :=
  match Polls.assemblePollStart event.content.pollStart with
  | .error _ => (.error .unableToAssembleMessage, room)
  | .ok original =>
    let original := { Message.new event.roomId event.eventId event.sender event.originServerTs with
      content := some (.poll original) }
    let (message, room) := room.assembleMessage env original
    (.ok (some (.message message)), room)

def processUnstablePollStart : MessageLikeEvent UnstablePollStartEventContent →
    Result (Option CachedRoomAction) × CachedRoom M
  | .redacted _ => (.ok none, room)
  | .original original =>
    match original.content with
    | .new _ => room.processNewUnstablePollStart env original
    | .replacement messageId _ => (.ok none, room.cachePollReplacementEvent messageId original)

def processUnstablePollResponse : MessageLikeEvent UnstablePollResponseEventContent →
    Result (Option CachedRoomAction) × CachedRoom M
  | .redacted _ => (.ok none, room)
  | .original original =>
    (.ok none, room.cachePollResponseEvent original.content.relatesTo original)

def processUnstablePollEnd : MessageLikeEvent UnstablePollEndEventContent →
    Result (Option CachedRoomAction) × CachedRoom M
  | .redacted _ => (.ok none, room)
  | .original original => (.ok none, room.cachePollEndEvent original.content.relatesTo original)

def processReactionEvent : MessageLikeEvent ReactionEventContent →
    Result (Option CachedRoomAction) × CachedRoom M
  | .redacted _ => (.ok none, room)
  | .original original =>
    let reaction : CachedReaction := ⟨original.sender, original.content.key⟩
    let messageId := original.content.eventId
    let metadata : ReactionMetadata :=
      ⟨original.eventId, reaction.userId, reaction.emoji, messageId, env.roomId⟩
    (.ok (some (.reaction metadata)), room.cacheReaction messageId original.eventId reaction)

def processAnyMessageLikeEvent : AnyMessageLikeEvent →
    Result (Option CachedRoomAction) × CachedRoom M
  | .roomMessage event => room.processRoomMessage env event
  | .roomRedaction event => room.processRoomRedaction event
  | .roomEncrypted event => room.processRoomEncrypted env event
  | .unstablePollStart event => room.processUnstablePollStart env event
  | .unstablePollResponse event => room.processUnstablePollResponse event
  | .unstablePollEnd event => room.processUnstablePollEnd event
  | .reaction event => room.processReactionEvent env event
  | .other _ => (.ok none, room)

/-! ## State events -/

def processRoomMemberEvent : MessageLikeEvent RoomMemberEventContent →
    Result (Option CachedRoomAction) × CachedRoom M
  | .redacted _ => (.ok none, room)
  | .original original =>
    match tryIntoChat original.content.membershipChange with
    | none => (.ok none, room)
    | some change =>
      let original :=
        { Message.new env.roomId original.eventId original.sender original.originServerTs with
          content := some (.membershipChange change original.content.stateKey) }
      let (message, room) := room.assembleMessage env original
      (.ok (some (.message message)), room)

def processAnyStateEvent : AnyStateEvent → Result (Option CachedRoomAction) × CachedRoom M
  | .roomMember event => room.processRoomMemberEvent env event
  | .other _ => (.ok none, room)

/-! ## Timeline events -/

def processAnyTimelineEvent (event : AnyTimelineEvent) :
    Result (Option CachedRoomAction) × CachedRoom M :=
  let room := room.loadAndCacheEventReadMarkers env event.header
  match event with
  | .messageLike event => room.processAnyMessageLikeEvent env event
  | .state event => room.processAnyStateEvent env event

def processDecryptedEvent (event : Raw AnyTimelineEvent) :
    Result (Option CachedRoomAction) × CachedRoom M :=
  match event.deserialize with
  | none => (.ok none, room)
  | some event => (room.removeEncryptedEvent event.header.eventId).processAnyTimelineEvent env event

/-- The placeholder of an event that cannot be decrypted. -/
def placeholder (event : EncryptedEvent) : Message :=
  { Message.new env.roomId event.eventId event.sender event.originServerTs with isEncrypted :=
      true }

/-- The raw event always parses as a raw encrypted event. -/
def processUnableToDecryptEvent (event : Raw EncryptedEvent) (sessionId : Option String) :
    Result (Option CachedRoomAction) × CachedRoom M :=
  match event.deserialize with
  | none => (.ok none, room)
  | some event =>
    (.ok (some (.message (placeholder env event))),
      room.cacheEncryptedEvent event.eventId ⟨event, sessionId⟩)

def processPlainTextEvent (event : Raw AnyTimelineEvent) :
    Result (Option CachedRoomAction) × CachedRoom M :=
  match event.deserialize with
  | none => (.ok none, room)
  | some event => room.processAnyTimelineEvent env event

def processTimelineEvent (event : TimelineEvent) :
    Result (Option CachedRoomAction) × CachedRoom M :=
  match event.kind with
  | .decrypted event => room.processDecryptedEvent env event
  | .unableToDecrypt event sessionId => room.processUnableToDecryptEvent env event sessionId
  | .plainText event => room.processPlainTextEvent env event

end CachedRoom

end GoudaMatrix.MemoryCache
