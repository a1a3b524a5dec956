/-
  What a timeline event does to a room, said once for all handlers.

  `processTimelineEvent_eq`: an event has one effect, which depends on the room only through its
  media, and processing the event is to perform the effect on the prepared room. What a run of
  events leaves of a cached message or of the media is derived from the effects.
-/
import GoudaMatrix.MemoryCache.Room

namespace GoudaMatrix.MemoryCache

open GoudaMatrix.Lib GoudaMatrix.Ruma

/-! ## Effects -/

inductive Effect where
  | ignored
  /-- The poll cannot be assembled. -/
  | failed
  | assembled (original : Message)
  | replaced (messageId replacementId : String) (replacement : CachedReplacement)
  | redacted (messageId : String) (redaction : OriginalEvent RoomRedactionEventContent)
  | reacted (messageId reactionId : String) (reaction : CachedReaction)
  | pollReplaced (messageId : String) (event : OriginalEvent UnstablePollStartEventContent)
  | pollAnswered (messageId : String) (event : OriginalEvent UnstablePollResponseEventContent)
  | pollEnded (messageId : String) (event : OriginalEvent UnstablePollEndEventContent)
  | undecryptable (event : EncryptedEvent) (sessionId : Option String)

/-- A redacted message as it is assembled. -/
def removedMessage (redacted : RedactedEvent) : Message :=
  { Message.new redacted.roomId redacted.eventId redacted.sender redacted.originServerTs with
    content := some (.removed none) }

/-- A replacement with the given content, which is ignored without one. -/
def effectOfReplacement (messageId : String) (original : OriginalEvent RoomMessageEventContent) :
    Option Content → Effect
  | none => .ignored
  | some newContent => .replaced messageId original.eventId ⟨original.originServerTs, newContent⟩

section Effects

variable {M : Type} (env : RoomEnv M)

def effectOfRoomMessage : MessageLikeEvent RoomMessageEventContent → M → Effect × M
  | .redacted redacted, media => (.assembled (removedMessage redacted), media)
  | .original original, media =>
    match original.content.relatesTo with
    | some (.replacement eventId newContent) =>
      let (content, media) := Messages.generateMessageContent env.mediaManager env.roomId eventId
        newContent.msgtype media
      (effectOfReplacement eventId original content, media)
    | _ =>
      let (message, media) :=
        Messages.messageFromEvent env.mediaManager env.roomId original media
      (.assembled message, media)

/-- The effect of a poll start. -/
def effectOfPollStart (event : OriginalEvent UnstablePollStartEventContent) : Effect :=
  match event.content with
  | .replacement messageId _ => .pollReplaced messageId event
  | .new pollStart =>
    match Polls.assemblePollStart pollStart with
    | .error _ => .failed
    | .ok poll =>
      .assembled { Message.new event.roomId event.eventId event.sender event.originServerTs with
        content := some (.poll poll) }

def effectOfMessageLike : AnyMessageLikeEvent → M → Effect × M
  | .roomMessage event, media => effectOfRoomMessage env event media
  | .roomRedaction (.original event), media =>
    (match event.content.redacts with
      | none => .ignored
      | some redactedEventId => .redacted redactedEventId event,
     media)
  | .roomEncrypted (.redacted redacted), media => (.assembled (removedMessage redacted), media)
  | .unstablePollStart (.original event), media => (effectOfPollStart event, media)
  | .unstablePollResponse (.original event), media =>
    (.pollAnswered event.content.relatesTo event, media)
  | .unstablePollEnd (.original event), media => (.pollEnded event.content.relatesTo event, media)
  | .reaction (.original event), media =>
    (.reacted event.content.eventId event.eventId ⟨event.sender, event.content.key⟩, media)
  | _, media => (.ignored, media)

def effectOfState : AnyStateEvent → Effect
  | .roomMember (.original event) =>
    match tryIntoChat event.content.membershipChange with
    | none => .ignored
    | some change =>
      .assembled { Message.new env.roomId event.eventId event.sender event.originServerTs with
        content := some (.membershipChange change event.content.stateKey) }
  | _ => .ignored

/-- The event as it is processed, if it can be read. -/
def readable (event : TimelineEvent) : Option AnyTimelineEvent :=
  match event.kind with
  | .decrypted event | .plainText event => event.deserialize
  | .unableToDecrypt _ _ => none

def effectOf (event : TimelineEvent) (media : M) : Effect × M :=
  match event.kind with
  | .unableToDecrypt (.ok event) sessionId => (.undecryptable event sessionId, media)
  | .decrypted (.ok (.messageLike event)) | .plainText (.ok (.messageLike event)) =>
    effectOfMessageLike env event media
  | .decrypted (.ok (.state event)) | .plainText (.ok (.state event)) =>
    (effectOfState env event, media)
  | _ => (.ignored, media)

/-- The event replaces the message with new content. -/
def Replaces (event : TimelineEvent) (messageId : String) (newContent : NewContent)
    (original : OriginalEvent RoomMessageEventContent) : Prop :=
  readable event = some (.messageLike (.roomMessage (.original original))) ∧
    original.content.relatesTo = some (.replacement messageId newContent)

theorem effectOf_of_readable {event : TimelineEvent} {e : AnyMessageLikeEvent}
    (h : readable event = some (.messageLike e)) (media : M) :
    effectOf env event media = effectOfMessageLike env e media := by
  obtain ⟨kind, timestamp⟩ := event
  cases kind with
  | unableToDecrypt event sessionId => cases h
  | decrypted event | plainText event =>
    cases event with
    | malformed id => cases h
    | ok event =>
      obtain rfl := Option.some.inj h
      rfl

theorem eventId_of_readable {event : TimelineEvent} {e : AnyTimelineEvent}
    (h : readable event = some e) : event.eventId = some e.header.eventId := by
  obtain ⟨kind, timestamp⟩ := event
  cases kind with
  | unableToDecrypt event sessionId => cases h
  | decrypted event | plainText event =>
    cases event with
    | malformed id => cases h
    | ok event =>
      obtain rfl := Option.some.inj h
      rfl

theorem effectOf_of_replaces {event : TimelineEvent} {messageId : String} {newContent : NewContent}
    {original : OriginalEvent RoomMessageEventContent}
    (h : Replaces event messageId newContent original) (media : M) :
    effectOf env event media
      = (effectOfReplacement messageId original (Messages.generateMessageContent env.mediaManager
          env.roomId messageId newContent.msgtype media).1,
        (Messages.generateMessageContent env.mediaManager env.roomId messageId
          newContent.msgtype media).2) := by
  obtain ⟨hread, hrelation⟩ := h
  rw [effectOf_of_readable env hread]
  simp only [effectOfMessageLike, effectOfRoomMessage, hrelation]

/-- A room message that replaces nothing is assembled. -/
theorem effectOf_of_message {event : TimelineEvent}
    {original : OriginalEvent RoomMessageEventContent}
    (hread : readable event = some (.messageLike (.roomMessage (.original original))))
    (hrelation : ∀ messageId newContent,
      original.content.relatesTo ≠ some (.replacement messageId newContent)) (media : M) :
    effectOf env event media
      = (.assembled (Messages.messageFromEvent env.mediaManager env.roomId original media).1,
        (Messages.messageFromEvent env.mediaManager env.roomId original media).2) := by
  rw [effectOf_of_readable env hread]
  obtain ⟨eventId, sender, ts, roomId, msgtype, relatesTo, mentions⟩ := original
  match relatesTo with
  | none | some (.reply _) | some (.thread _) | some .other => rfl
  | some (.replacement messageId newContent) => exact absurd rfl (hrelation messageId newContent)

/-- The events that have the effect, for the effects that are traced back to their events. -/
def Effect.Source (event : TimelineEvent) (media : M) : Effect → Prop
  | .assembled original =>
    (∃ message, readable event = some (.messageLike (.roomMessage (.original message))) ∧
      original = (Messages.messageFromEvent env.mediaManager env.roomId message media).1) ∨
    ∃ e roomId content, readable event = some e ∧
      (roomId = e.header.roomId ∨ roomId = env.roomId) ∧
      original = { Message.new roomId e.header.eventId e.header.sender e.header.originServerTs with
        content := some content }
  | .replaced messageId replacementId replacement =>
    ∃ newContent original, Replaces event messageId newContent original ∧
      replacementId = original.eventId ∧ replacement.timestamp = original.originServerTs
  | .reacted messageId reactionId reaction =>
    ∃ original, readable event = some (.messageLike (.reaction (.original original))) ∧
      messageId = original.content.eventId ∧ reactionId = original.eventId ∧
      reaction = ⟨original.sender, original.content.key⟩
  | .undecryptable encrypted sessionId => event.kind = .unableToDecrypt (.ok encrypted) sessionId
  | .ignored | .failed | .redacted _ _ | .pollReplaced _ _ | .pollAnswered _ _ | .pollEnded _ _ =>
    True

theorem source_of_messageLike {event : TimelineEvent} {e : AnyMessageLikeEvent}
    (hread : readable event = some (.messageLike e)) (media : M) :
    Effect.Source env event media (effectOfMessageLike env e media).1 := by
  cases e with
  | roomMessage e =>
    cases e with
    | redacted redacted => exact .inr ⟨_, _, _, hread, .inl rfl, rfl⟩
    | original original =>
      obtain ⟨eventId, sender, ts, roomId, msgtype, relatesTo, mentions⟩ := original
      match relatesTo with
      | none | some (.reply _) | some (.thread _) | some .other => exact .inl ⟨_, hread, rfl⟩
      | some (.replacement id newContent) =>
        simp only [effectOfMessageLike, effectOfRoomMessage, effectOfReplacement]
        split
        · trivial
        · exact ⟨newContent, _, ⟨hread, rfl⟩, rfl, rfl⟩
  | roomRedaction e =>
    cases e with
    | redacted redacted => trivial
    | original original =>
      simp only [effectOfMessageLike]
      split <;> trivial
  | roomEncrypted e =>
    cases e with
    | redacted redacted => exact .inr ⟨_, _, _, hread, .inl rfl, rfl⟩
    | original original => trivial
  | unstablePollStart e =>
    cases e with
    | redacted redacted => trivial
    | original original =>
      simp only [effectOfMessageLike, effectOfPollStart]
      split
      · trivial
      · split
        · trivial
        · exact .inr ⟨_, _, _, hread, .inl rfl, rfl⟩
  | unstablePollResponse e | unstablePollEnd e => cases e <;> trivial
  | reaction e =>
    cases e with
    | redacted redacted => trivial
    | original original => exact ⟨original, hread, rfl, rfl, rfl⟩
  | other e => trivial

theorem effectOf_source (event : TimelineEvent) (media : M) :
    Effect.Source env event media (effectOf env event media).1 := by
  obtain ⟨kind, timestamp⟩ := event
  cases kind with
  | unableToDecrypt event sessionId =>
    cases event with
    | malformed id => trivial
    | ok event => exact rfl
  | decrypted event | plainText event =>
    cases event with
    | malformed id => trivial
    | ok event =>
      cases event with
      | messageLike e => exact source_of_messageLike env rfl media
      | state event =>
        cases event with
        | other event => trivial
        | roomMember event =>
          cases event with
          | redacted event => trivial
          | original original =>
            simp only [effectOf, effectOfState]
            split
            · trivial
            · exact .inr ⟨_, _, _, rfl, .inr rfl, rfl⟩

/-- Only a replacement replaces. -/
theorem replaces_of_effectOf {event : TimelineEvent} {media : M} {messageId replacementId : String}
    {replacement : CachedReplacement}
    (h : (effectOf env event media).1 = .replaced messageId replacementId replacement) :
    ∃ newContent original, Replaces event messageId newContent original ∧
      replacementId = original.eventId ∧ replacement.timestamp = original.originServerTs := by
  have hsource := effectOf_source env event media
  rwa [h] at hsource

/-- The effect of an event that is not a room message does not depend on the media. -/
theorem effectOf_static {event : TimelineEvent}
    (h : ∀ original, readable event ≠ some (.messageLike (.roomMessage (.original original))))
    (media media' : M) :
    (effectOf env event media).1 = (effectOf env event media').1 ∧
      (effectOf env event media).2 = media := by
  have hmessage : ∀ e : AnyMessageLikeEvent, (∀ original, e ≠ .roomMessage (.original original)) →
      (effectOfMessageLike env e media).1 = (effectOfMessageLike env e media').1 ∧
        (effectOfMessageLike env e media).2 = media := by
    intro e hne
    cases e with
    | roomMessage e =>
      cases e with
      | redacted redacted => exact ⟨rfl, rfl⟩
      | original original => exact absurd rfl (hne original)
    | roomRedaction e | roomEncrypted e | unstablePollStart e | unstablePollResponse e
    | unstablePollEnd e | reaction e => cases e <;> exact ⟨rfl, rfl⟩
    | other e => exact ⟨rfl, rfl⟩
  obtain ⟨kind, timestamp⟩ := event
  cases kind with
  | unableToDecrypt event sessionId => cases event <;> exact ⟨rfl, rfl⟩
  | decrypted event | plainText event =>
    cases event with
    | malformed id => exact ⟨rfl, rfl⟩
    | ok event =>
      cases event with
      | state event => exact ⟨rfl, rfl⟩
      | messageLike e =>
        refine hmessage e fun original he => h original ?_
        subst he
        rfl

theorem source_of_assembled {event : TimelineEvent} {media : M} {original : Message}
    (h : (effectOf env event media).1 = .assembled original) :
    Effect.Source env event media (.assembled original) := h ▸ effectOf_source env event media

/-- An assembled message has the id of its event. -/
theorem eventId_of_assembled {event : TimelineEvent} {media : M} {original : Message}
    (h : (effectOf env event media).1 = .assembled original) :
    event.eventId = some original.messageId := by
  rcases source_of_assembled env h with ⟨message, hread, rfl⟩ | ⟨e, roomId, content, hread, -, rfl⟩
  · exact eventId_of_readable hread
  · exact eventId_of_readable hread

/-- An assembled message has no reactions and is not edited before its relations are applied. -/
theorem fresh_of_assembled {event : TimelineEvent} {media : M} {original : Message}
    (h : (effectOf env event media).1 = .assembled original) :
    original.reactions = [] ∧ original.edited = false := by
  rcases source_of_assembled env h with ⟨message, -, rfl⟩ | ⟨e, roomId, content, -, -, rfl⟩
  · exact ⟨rfl, rfl⟩
  · exact ⟨rfl, rfl⟩

/-- The event that is cached for redecryption. -/
theorem kind_of_undecryptable {event : TimelineEvent} {media : M} {encrypted : EncryptedEvent}
    {sessionId : Option String}
    (h : (effectOf env event media).1 = .undecryptable encrypted sessionId) :
    event.kind = .unableToDecrypt (.ok encrypted) sessionId := by
  have hsource := effectOf_source env event media
  rwa [h] at hsource

theorem eventId_of_undecryptable {event : TimelineEvent} {media : M} {encrypted : EncryptedEvent}
    {sessionId : Option String}
    (h : (effectOf env event media).1 = .undecryptable encrypted sessionId) :
    event.eventId = some encrypted.eventId := by
  unfold TimelineEvent.eventId
  rw [kind_of_undecryptable env h]

/-- An event that assembles a message does so whatever the media are, which only give the
    content. -/
theorem effectOf_assembled {event : TimelineEvent} {media : M} {original : Message}
    (h : (effectOf env event media).1 = .assembled original) (media' : M) :
    ∃ original', (effectOf env event media').1 = .assembled original' ∧
      { original with content := none } = { original' with content := none } := by
  by_cases hroom : ∃ message, readable event
    = some (.messageLike (.roomMessage (.original message)))
  · obtain ⟨message, hread⟩ := hroom
    rw [effectOf_of_readable env hread] at h ⊢
    simp only [effectOfMessageLike, effectOfRoomMessage] at h ⊢
    split at h
    · simp only [effectOfReplacement] at h
      split at h <;> cases h
    · cases h
      exact ⟨_, rfl, rfl⟩
  · rw [not_exists] at hroom
    rw [(effectOf_static env hroom media media').1] at h
    exact ⟨original, h, rfl⟩

/-- The reaction of a reaction event, as it is sent to the application. -/
def reactionOf (event : TimelineEvent) : Option Reaction :=
  match readable event with
  | some (.messageLike (.reaction (.original event))) =>
    some
      { roomId := env.roomId
        messageId := event.content.eventId
        reaction := event.content.key
        userId := some event.sender }
  | _ => none

theorem eventId_of_reacted {event : TimelineEvent} {media : M} {messageId reactionId : String}
    {reaction : CachedReaction}
    (h : (effectOf env event media).1 = .reacted messageId reactionId reaction) :
    event.eventId = some reactionId := by
  have hsource := effectOf_source env event media
  rw [h] at hsource
  obtain ⟨original, hread, -, rfl, -⟩ := hsource
  exact eventId_of_readable hread

theorem reactionOf_eq (event : TimelineEvent) (media : M) :
    reactionOf env event
      = match (effectOf env event media).1 with
        | .reacted messageId _ reaction =>
          some ⟨env.roomId, messageId, reaction.emoji, some reaction.userId⟩
        | _ => none := by
  by_cases hread : ∃ original, readable event = some (.messageLike (.reaction (.original original)))
  · obtain ⟨original, hread⟩ := hread
    rw [effectOf_of_readable env hread]
    simp only [reactionOf, hread, effectOfMessageLike]
  · have hnone : reactionOf env event = none := by
      unfold reactionOf
      split
      · next original h => exact absurd ⟨original, h⟩ hread
      · rfl
    have hsource := effectOf_source env event media
    rw [hnone]
    cases heffect : (effectOf env event media).1 with
    | reacted messageId reactionId reaction =>
      rw [heffect] at hsource
      obtain ⟨original, h, -⟩ := hsource
      exact absurd ⟨original, h⟩ hread
    | ignored | failed | assembled | replaced | redacted | pollReplaced | pollAnswered | pollEnded
    | undecryptable => rfl

end Effects

/-! ## Processing -/

namespace CachedRoom

variable {M : Type} (env : RoomEnv M) (room : CachedRoom M)

/-- The read markers of the event, and the cached encrypted event that has been decrypted. -/
def prepare (event : TimelineEvent) : CachedRoom M :=
  match event.kind with
  | .decrypted (.ok event) =>
    (room.removeEncryptedEvent event.header.eventId).loadAndCacheEventReadMarkers env event.header
  | .plainText (.ok event) => room.loadAndCacheEventReadMarkers env event.header
  | _ => room

def perform : Effect → Result (Option CachedRoomAction) × CachedRoom M
  | .ignored => (.ok none, room)
  | .failed => (.error .unableToAssembleMessage, room)
  | .assembled original =>
    (.ok (some (.message (room.assembleMessage env original).1)),
      (room.assembleMessage env original).2)
  | .replaced messageId replacementId replacement =>
    (.ok none, room.cacheReplacement messageId replacementId replacement)
  | .redacted messageId redaction => (.ok none, room.cacheRedaction redaction messageId)
  | .reacted messageId reactionId reaction =>
    (.ok (some (.reaction ⟨reactionId, reaction.userId, reaction.emoji, messageId, env.roomId⟩)),
      room.cacheReaction messageId reactionId reaction)
  | .pollReplaced messageId event => (.ok none, room.cachePollReplacementEvent messageId event)
  | .pollAnswered messageId event => (.ok none, room.cachePollResponseEvent messageId event)
  | .pollEnded messageId event => (.ok none, room.cachePollEndEvent messageId event)
  | .undecryptable event sessionId =>
    (.ok (some (.message (placeholder env event))),
      room.cacheEncryptedEvent event.eventId ⟨event, sessionId⟩)

theorem processRoomMessage_eq (event : MessageLikeEvent RoomMessageEventContent) :
    room.processRoomMessage env event
      = { room with media := (effectOfRoomMessage env event room.media).2 }.perform env
          (effectOfRoomMessage env event room.media).1 := by
  cases event with
  | redacted redacted => rfl
  | original original =>
    obtain ⟨eventId, sender, ts, roomId, msgtype, relatesTo, mentions⟩ := original
    match relatesTo with
    | none | some (.reply _) | some (.thread _) | some .other => rfl
    | some (.replacement messageId newContent) =>
      simp only [processRoomMessage, processOriginalRoomMessage, effectOfRoomMessage]
      cases (Messages.generateMessageContent env.mediaManager env.roomId messageId
        newContent.msgtype room.media).1 <;> rfl

theorem processUnstablePollStart_eq (event : OriginalEvent UnstablePollStartEventContent) :
    room.processUnstablePollStart env (.original event)
      = room.perform env (effectOfPollStart event) := by
  obtain ⟨eventId, sender, ts, roomId, content⟩ := event
  cases content with
  | replacement messageId pollStart => rfl
  | new pollStart =>
    simp only [processUnstablePollStart, processNewUnstablePollStart, effectOfPollStart,
      UnstablePollStartEventContent.pollStart]
    cases Polls.assemblePollStart pollStart <;> rfl

theorem processAnyMessageLikeEvent_eq (event : AnyMessageLikeEvent) :
    room.processAnyMessageLikeEvent env event
      = { room with media := (effectOfMessageLike env event room.media).2 }.perform env
          (effectOfMessageLike env event room.media).1 := by
  cases event with
  | roomMessage event => exact processRoomMessage_eq env room event
  | roomRedaction event =>
    cases event with
    | redacted redacted => rfl
    | original original =>
      simp only [processAnyMessageLikeEvent, processRoomRedaction, effectOfMessageLike]
      cases original.content.redacts <;> rfl
  | unstablePollStart event =>
    cases event with
    | redacted redacted => rfl
    | original original => exact processUnstablePollStart_eq env room original
  | roomEncrypted event | unstablePollResponse event | unstablePollEnd event | reaction event =>
    cases event <;> rfl
  | other event => rfl

theorem processAnyStateEvent_eq (event : AnyStateEvent) :
    room.processAnyStateEvent env event = room.perform env (effectOfState env event) := by
  cases event with
  | other event => rfl
  | roomMember event =>
    cases event with
    | redacted redacted => rfl
    | original original =>
      simp only [processAnyStateEvent, processRoomMemberEvent, effectOfState]
      cases tryIntoChat original.content.membershipChange <;> rfl

/-- An event is processed by performing its effect. -/
theorem processTimelineEvent_eq (event : TimelineEvent) :
    room.processTimelineEvent env event
      = { room.prepare env event with media := (effectOf env event room.media).2 }.perform env
          (effectOf env event room.media).1 := by
  obtain ⟨kind, timestamp⟩ := event
  cases kind with
  | unableToDecrypt event sessionId => cases event <;> rfl
  | decrypted event | plainText event =>
    cases event with
    | malformed id => rfl
    | ok event =>
      cases event with
      | messageLike event => exact processAnyMessageLikeEvent_eq env _ event
      | state event => exact processAnyStateEvent_eq env _ event

/-! ## Cached messages -/

/-- What is cached about a message. -/
def cachedAt (messageId : String) : CachedMessage :=
  (room.messages.lookup messageId).getD CachedMessage.default

theorem cachedAt_modifyMessage (id messageId : String) (f : CachedMessage → CachedMessage) :
    (room.modifyMessage messageId f).cachedAt id
      = if id = messageId then f (room.cachedAt id) else room.cachedAt id := by
  unfold cachedAt modifyMessage
  rw [HashMap.lookup_modifyEntry]
  split
  · next h =>
    subst h
    rfl
  · rfl

theorem assembleMessage_message (original : Message) :
    (room.assembleMessage env original).1
      = ((room.cachedAt original.messageId).buildFromOriginal env.order original).1 := rfl

theorem cachedAt_assembleMessage (id : String) (original : Message) :
    (room.assembleMessage env original).2.cachedAt id
      = if id = original.messageId then { room.cachedAt id with original := some original }
        else room.cachedAt id := by
  have hlookup := HashMap.lookup_insert_cases room.messages original.messageId id
    ((room.cachedAt original.messageId).buildFromOriginal env.order original).2
  unfold cachedAt
  simp only [assembleMessage]
  rw [show (room.messages.lookup original.messageId).getD CachedMessage.default
    = room.cachedAt original.messageId from rfl, hlookup]
  split
  · next h =>
    subst h
    rfl
  · rfl

end CachedRoom

/-- What an effect leaves of the message with the given id. -/
def Effect.on (id : String) (cached : CachedMessage) : Effect → CachedMessage
  | .assembled original =>
    if id = original.messageId then { cached with original := some original } else cached
  | .replaced messageId replacementId replacement =>
    if id = messageId then
      { cached with replacements := cached.replacements.insert replacementId replacement }
    else cached
  | .redacted messageId redaction =>
    if id = messageId then { cached with redaction := some redaction } else cached
  | .reacted messageId reactionId reaction =>
    if id = messageId then { cached with reactions := cached.reactions.insert reactionId reaction }
    else cached
  | .pollReplaced messageId event =>
    if id = messageId then
      { cached with pollReplacementEvents :=
        cached.pollReplacementEvents.insert event.eventId event }
    else cached
  | .pollAnswered messageId event =>
    if id = messageId then
      { cached with pollResponseEvents := cached.pollResponseEvents.insert event.eventId event }
    else cached
  | .pollEnded messageId event =>
    if id = messageId then
      { cached with pollEndEvents := cached.pollEndEvents.insert event.eventId event }
    else cached
  | .ignored | .failed | .undecryptable _ _ => cached

namespace CachedRoom

variable {M : Type} (env : RoomEnv M) (room : CachedRoom M)

theorem cachedAt_perform (id : String) (effect : Effect) :
    (room.perform env effect).2.cachedAt id = effect.on id (room.cachedAt id) := by
  cases effect with
  | assembled original => exact cachedAt_assembleMessage env room id original
  | ignored | failed | undecryptable event sessionId => rfl
  | replaced messageId | redacted messageId | reacted messageId | pollReplaced messageId
  | pollAnswered messageId | pollEnded messageId =>
    exact cachedAt_modifyMessage room id messageId _

@[simp] theorem media_perform (effect : Effect) :
    (room.perform env effect).2.media = room.media := by
  cases effect <;> rfl

@[simp] theorem cachedAt_prepare (event : TimelineEvent) (id : String) :
    (room.prepare env event).cachedAt id = room.cachedAt id := by
  unfold prepare
  split <;> rfl

theorem cachedAt_processTimelineEvent (event : TimelineEvent) (id : String) :
    (room.processTimelineEvent env event).2.cachedAt id
      = (effectOf env event room.media).1.on id (room.cachedAt id) := by
  rw [processTimelineEvent_eq, cachedAt_perform]
  exact congrArg (fun cached => Effect.on id cached _) (cachedAt_prepare env room event id)

theorem encryptedEvents_perform (effect : Effect)
    (h : ∀ event sessionId, effect ≠ .undecryptable event sessionId) :
    (room.perform env effect).2.encryptedEvents = room.encryptedEvents := by
  cases effect with
  | undecryptable event sessionId => exact absurd rfl (h event sessionId)
  | ignored | failed | assembled | replaced | redacted | reacted | pollReplaced | pollAnswered
  | pollEnded => rfl

theorem media_processTimelineEvent (event : TimelineEvent) :
    (room.processTimelineEvent env event).2.media = (effectOf env event room.media).2 := by
  rw [processTimelineEvent_eq, media_perform]

end CachedRoom

end GoudaMatrix.MemoryCache
