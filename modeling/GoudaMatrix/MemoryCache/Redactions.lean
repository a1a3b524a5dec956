/-
  Redactions and what is cached about the redacted event. A redaction is handled live
  (`events.rs`: `exec_room_redaction_event`), or as an event of a fetched timeline
  (`memory_cache.rs`: `process_room_redaction`).

  The live path removes a reaction from the cache, and nothing else; the other one removes
  nothing: a cached edit or reaction is shown after it has been redacted
  (`redacted_edit_is_shown`). `redacted_not_shown` is what is needed for it not to be (`Cleaned`):
  the redacted event is not cached, or it is a cached reaction and redacted live.
-/
import GoudaMatrix.Lib.Run
import GoudaMatrix.MemoryCache.Reactions

namespace GoudaMatrix.MemoryCache

open GoudaMatrix.Lib GoudaMatrix.Ruma

/-! ## Live redactions -/

abbrev RedactionEvent := OriginalEvent RoomRedactionEventContent

/-- What the application is told about a redaction. -/
inductive RedactionOutput where
  | messageChange (event : MessageChangeEvent)
  | reactionRemoved (reaction : Reaction)
deriving DecidableEq

section Live

variable {M : Type} (env : RoomEnv M) (room : CachedRoom M)

def redactRoomMessage (event : RedactionEvent) (messageId : String) : RedactionOutput :=
  .messageChange { MessageChangeEvent.new env.roomId messageId with
    content := some (.removed event.content.reason) }

def redactReaction (reactionId : String) : Option RedactionOutput × CachedRoom M :=
  match room.removeReactionById env reactionId with
  | (none, room) => (none, room)
  | (some reaction, room) =>
    (some (.reactionRemoved
      { roomId := reaction.roomId
        messageId := reaction.messageId
        reaction := reaction.emoji
        userId := some reaction.userId }), room)

def redactAnyMessageLikeEvent (event : RedactionEvent) :
    AnyMessageLikeEvent → Option RedactionOutput × CachedRoom M
  | .reaction redacted => redactReaction env room redacted.header.eventId
  | .roomEncrypted redacted => (some (redactRoomMessage env event redacted.header.eventId), room)
  | .roomMessage redacted => (some (redactRoomMessage env event redacted.header.eventId), room)
  | _ => (none, room)

/-- `redact_any_timeline_event`, and `redact_any_sync_timeline_event`, whose event gets the id of
    the room. -/
def redactAnyTimelineEvent (event : RedactionEvent) :
    Raw AnyTimelineEvent → Option RedactionOutput × CachedRoom M
  | .malformed _ => (none, room)
  | .ok (.messageLike redacted) => redactAnyMessageLikeEvent env room event redacted
  | .ok (.state _) => (none, room)

/-- `loaded` is the event that `Room::event` returns, `none` for an error. -/
def execRoomRedactionEvent (event : RedactionEvent) (loaded : Option TimelineEvent) :
    Option RedactionOutput × CachedRoom M :=
  match event.content.eventRedacts with
  | none => (none, room)
  | some _ =>
    match loaded with
    | none => (none, room)
    | some loaded =>
      match loaded.kind with
      | .decrypted redacted => redactAnyTimelineEvent env room event redacted
      | .plainText redacted => redactAnyTimelineEvent env room event redacted
      | .unableToDecrypt _ _ => (none, room)

end Live

/-! ## Runs -/

/-- The events that a redaction names: the field is the one of the event, or the one of its
    content, and both if a server gives both. -/
def redacts (event : RedactionEvent) : List String :=
  event.content.eventRedacts.toList ++ event.content.redacts.toList

/-- The events that the timeline event redacts. -/
def redactedBy (event : TimelineEvent) : List String :=
  match readable event with
  | some (.messageLike (.roomRedaction (.original redaction))) => redacts redaction
  | _ => []

/-- The reaction that the timeline event is. -/
def reactionIn (event : TimelineEvent) : Option (String × PlacedReaction) :=
  match readable event with
  | some (.messageLike (.reaction (.original reaction))) =>
    some (reaction.eventId, ⟨reaction.content.eventId, ⟨reaction.sender, reaction.content.key⟩⟩)
  | _ => none

deriving instance DecidableEq for PlacedReaction

structure Redactions (M : Type) where
  room : CachedRoom M
  /-- The events whose redaction has been handled (history variable). -/
  redacted : List String

inductive RedactionStep where
  /-- An event of a fetched timeline, or one that has been decrypted late, is processed. -/
  | timeline (event : TimelineEvent)
  /-- `exec_reaction_event`. -/
  | reactionEvent (reactionId : String)
  | redactionEvent (event : RedactionEvent) (loaded : Option TimelineEvent)

section Runs

variable {M : Type} (env : RoomEnv M) (reactions : ReactionTable)

/-- The room while events are processed. A reaction event is always the same one for its id. -/
def redactions : System (Redactions M) RedactionStep where
  step s
    | .timeline event =>
      if ∀ reaction ∈ reactionIn event, reactions reaction.1 = reaction.2 then
        some ⟨(s.room.processTimelineEvent env event).2, redactedBy event ++ s.redacted⟩
      else none
    | .reactionEvent reactionId =>
      let placed := reactions reactionId
      some ⟨s.room.cacheReaction placed.messageId reactionId placed.reaction, s.redacted⟩
    | .redactionEvent event loaded =>
      some ⟨(execRoomRedactionEvent env s.room event loaded).2, redacts event ++ s.redacted⟩

def Redactions.start (media : M) : Redactions M := ⟨.new media, []⟩

end Runs

/-! ## What a message shows -/

namespace CachedMessage

/-- The event that a message built from the original shows as its edit. -/
def shownEdit (o : IterationOrder) (cached : CachedMessage) (original : Message) : Option String :=
  match original.content with
  | some (.removed _) => none
  | some (.poll _) => cached.pollReplacementEvents.latestKey o OriginalEvent.originServerTs
  | _ => cached.replacements.latestKey o CachedReplacement.timestamp

/-- The reactions that it lists. -/
def listedReactions (o : IterationOrder) (cached : CachedMessage) (original : Message) :
    List String :=
  match original.content with
  | some (.removed _) => []
  | _ => (o.order cached.reactions.entries).map Sigma.fst

variable (o : IterationOrder) (cached : CachedMessage)

/-- A cached reaction, as a message lists it. -/
def reactionOn (message : Message) (reaction : CachedReaction) : Reaction where
  messageId := message.messageId
  roomId := message.roomId
  reaction := reaction.emoji
  userId := some reaction.userId

theorem applyReactions_eq (message : Message) :
    cached.applyReactions o message
      = { message with reactions := message.reactions
            ++ (cached.reactions.values o).map (reactionOn message) } := rfl

/-- The message lists the reactions with these ids. -/
theorem reactions_buildFromOriginal (original : Message) :
    (cached.buildFromOriginal o original).1.reactions
      = original.reactions ++ ((cached.listedReactions o original).filterMap
          cached.reactions.lookup).map (reactionOn original) := by
  have hvalues := (HashMap.values_eq_filterMap o cached.reactions).symm
  unfold buildFromOriginal listedReactions
  cases original.content with
  | none =>
    dsimp only
    rw [hvalues, buildOther, applyReactions_eq, applyReplacements]
    split <;> rfl
  | some content =>
    cases content with
    | removed reason =>
      dsimp only [buildRemoved]
      split <;> simp
    | poll poll =>
      dsimp only
      rw [hvalues]
      rfl
    | text | file | membershipChange =>
      dsimp only
      rw [hvalues, buildOther, applyReactions_eq, applyReplacements]
      split <;> rfl

/-- The content is the one of the edit, if a message that is neither a poll nor removed shows
    one. -/
theorem content_buildFromOriginal {original : Message}
    (hpoll : ∀ poll, original.content ≠ some (.poll poll))
    (hremoved : ∀ reason, original.content ≠ some (.removed reason)) :
    (cached.buildFromOriginal o original).1.content
      = (((cached.shownEdit o original).bind cached.replacements.lookup).map
          fun replacement => some replacement.newContent).getD original.content := by
  have hother : cached.shownEdit o original
      = cached.replacements.latestKey o CachedReplacement.timestamp := by
    unfold shownEdit
    split
    · next reason h => exact absurd h (hremoved reason)
    · next poll h => exact absurd h (hpoll poll)
    · rfl
  rw [hother, ← HashMap.getLast?_values]
  unfold buildFromOriginal
  dsimp only
  split
  · next reason h => exact absurd h (hremoved reason)
  · next poll h => exact absurd h (hpoll poll)
  · rw [buildOther, applyReactions_eq, applyReplacements]
    split
    · next replacement h => rw [h]; rfl
    · next h => rw [h]; rfl

/-- The edit of a poll gives its question and its options. -/
theorem applyPollReplacements_eq {original : Message} {poll : MessageContentPoll}
    (h : original.content = some (.poll poll)) :
    cached.applyPollReplacements o poll
      = (((cached.shownEdit o original).bind cached.pollReplacementEvents.lookup).map
          fun event => (Polls.replaceContent poll event.content.pollStart).2).getD poll := by
  have hedit : cached.shownEdit o original
      = cached.pollReplacementEvents.latestKey o OriginalEvent.originServerTs := by
    unfold shownEdit
    rw [h]
  rw [hedit, ← HashMap.getLast?_values]
  unfold applyPollReplacements
  dsimp only
  split
  · next replacement h => rw [h]; rfl
  · next h => rw [h]; rfl

/-- What the message that is built of the original shows of what is cached about it. -/
structure ShowsRelations (original built : Message) : Prop where
  reactions : built.reactions
    = original.reactions ++ ((cached.listedReactions o original).filterMap
        cached.reactions.lookup).map (reactionOn original)
  content : (∀ poll, original.content ≠ some (.poll poll)) →
    (∀ reason, original.content ≠ some (.removed reason)) →
    built.content = (((cached.shownEdit o original).bind cached.replacements.lookup).map
      fun replacement => some replacement.newContent).getD original.content
  poll : ∀ poll, original.content = some (.poll poll) →
    cached.applyPollReplacements o poll
      = (((cached.shownEdit o original).bind cached.pollReplacementEvents.lookup).map
          fun event => (Polls.replaceContent poll event.content.pollStart).2).getD poll

theorem showsRelations_buildFromOriginal (original : Message) :
    cached.ShowsRelations o original (cached.buildFromOriginal o original).1 where
  reactions := cached.reactions_buildFromOriginal o original
  content := cached.content_buildFromOriginal o
  poll := fun _ => cached.applyPollReplacements_eq o

end CachedMessage

/-! ## What the cache holds of an event -/

namespace CachedMessage

def HasEdit (cached : CachedMessage) (eventId : String) : Prop :=
  eventId ∈ cached.replacements ∨ eventId ∈ cached.pollReplacementEvents

instance (cached : CachedMessage) (eventId : String) : Decidable (cached.HasEdit eventId) :=
  inferInstanceAs (Decidable (_ ∨ _))

theorem hasEdit_of_shownEdit {o : IterationOrder} {cached : CachedMessage} {original : Message}
    {eventId : String} (h : cached.shownEdit o original = some eventId) :
    cached.HasEdit eventId := by
  unfold shownEdit at h
  split at h
  · cases h
  · exact .inr (HashMap.mem_of_latestKey h)
  · exact .inl (HashMap.mem_of_latestKey h)

theorem mem_reactions_of_listed {o : IterationOrder} {cached : CachedMessage} {original : Message}
    {eventId : String} (h : eventId ∈ cached.listedReactions o original) :
    eventId ∈ cached.reactions := by
  unfold listedReactions at h
  split at h
  · cases h
  · exact HashMap.mem_keys_order.mp h

end CachedMessage

/-- The event under whose id the effect caches a reaction or an edit. -/
def Effect.caches : Effect → Option String
  | .reacted _ reactionId _ => some reactionId
  | .replaced _ replacementId _ => some replacementId
  | .pollReplaced _ event => some event.eventId
  | .ignored | .failed | .assembled _ | .redacted _ _ | .pollAnswered _ _ | .pollEnded _ _
  | .undecryptable _ _ => none

theorem hasEdit_on {effect : Effect} {messageId eventId : String} {cached : CachedMessage}
    (h : (effect.on messageId cached).HasEdit eventId) :
    cached.HasEdit eventId ∨ effect.caches = some eventId := by
  cases effect with
  | ignored | failed | undecryptable => exact .inl h
  | assembled | redacted | reacted | pollAnswered | pollEnded =>
    simp only [Effect.on] at h
    split at h <;> exact .inl h
  | replaced id replacementId replacement =>
    simp only [Effect.on] at h
    split at h
    · rcases h with h | h
      · rcases (AList.mem_insert _).mp h with rfl | h
        · exact .inr rfl
        · exact .inl (.inl h)
      · exact .inl (.inr h)
    · exact .inl h
  | pollReplaced id event =>
    simp only [Effect.on] at h
    split at h
    · rcases h with h | h
      · exact .inl (.inl h)
      · rcases (AList.mem_insert _).mp h with rfl | h
        · exact .inr rfl
        · exact .inl (.inr h)
    · exact .inl h

theorem mem_reactions_on {effect : Effect} {messageId eventId : String} {cached : CachedMessage}
    (h : eventId ∈ (effect.on messageId cached).reactions) :
    eventId ∈ cached.reactions ∨ effect.caches = some eventId := by
  cases effect with
  | ignored | failed | undecryptable => exact .inl h
  | assembled | redacted | replaced | pollReplaced | pollAnswered | pollEnded =>
    simp only [Effect.on] at h
    split at h <;> exact .inl h
  | reacted id reactionId reaction =>
    simp only [Effect.on] at h
    split at h
    · rcases (AList.mem_insert _).mp h with rfl | h
      · exact .inr rfl
      · exact .inl h
    · exact .inl h

namespace CachedRoom

variable {M : Type} (room : CachedRoom M)

def holdsEdit (eventId : String) : Bool :=
  room.messages.entries.any fun entry => entry.2.HasEdit eventId

def holdsReaction (eventId : String) : Bool :=
  room.messages.entries.any fun entry => eventId ∈ entry.2.reactions

theorem cachedAt_cases (messageId : String) :
    room.cachedAt messageId = CachedMessage.default ∨
      ⟨messageId, room.cachedAt messageId⟩ ∈ room.messages.entries := by
  unfold cachedAt
  cases hlookup : room.messages.lookup messageId with
  | none => exact .inl rfl
  | some message => exact .inr (List.of_mem_dlookup hlookup)

theorem not_hasEdit (h : room.holdsEdit eventId = false) (messageId : String) :
    ¬ (room.cachedAt messageId).HasEdit eventId := by
  intro hedit
  rcases room.cachedAt_cases messageId with heq | hmem
  · rw [heq] at hedit
    rcases hedit with hedit | hedit <;> exact absurd hedit (AList.notMem_empty _)
  · have hall := List.any_eq_false.mp h _ hmem
    exact hall (decide_eq_true hedit)

theorem notMem_reactions (h : room.holdsReaction eventId = false) (messageId : String) :
    eventId ∉ (room.cachedAt messageId).reactions := by
  intro hreaction
  rcases room.cachedAt_cases messageId with heq | hmem
  · rw [heq] at hreaction
    exact absurd hreaction (AList.notMem_empty _)
  · have hall := List.any_eq_false.mp h _ hmem
    exact hall (decide_eq_true hreaction)

end CachedRoom

/-! ## What the steps do -/

/-- The id of the reaction event that is loaded for a redaction. -/
def loadedReaction (loaded : Option TimelineEvent) : Option String :=
  match loaded.bind readable with
  | some (.messageLike (.reaction event)) => some event.header.eventId
  | _ => none

section Steps

variable {M : Type} {env : RoomEnv M} {reactions : ReactionTable} {room room' : CachedRoom M}

theorem room_redactReaction (reactionId : String) :
    (redactReaction env room reactionId).2 = (room.removeReactionById env reactionId).2 := by
  unfold redactReaction
  cases room.removeReactionById env reactionId with
  | mk removed room' => cases removed <;> rfl

/-- A redaction that names an event, of an event that is loaded and can be read. -/
theorem execRoomRedactionEvent_eq (event : RedactionEvent) (loaded : Option TimelineEvent) :
    execRoomRedactionEvent env room event loaded
      = (event.content.eventRedacts.bind fun _ => loaded.bind readable).elim (none, room)
          fun redacted => redactAnyTimelineEvent env room event (.ok redacted) := by
  unfold execRoomRedactionEvent
  cases event.content.eventRedacts with
  | none => rfl
  | some redacted =>
    cases loaded with
    | none => rfl
    | some loaded =>
      obtain ⟨kind, timestamp⟩ := loaded
      cases kind with
      | unableToDecrypt e sessionId => rfl
      | decrypted e | plainText e => cases e <;> rfl

/-- A live redaction changes the cache only if it is one of a reaction. -/
theorem room_execRoomRedactionEvent (event : RedactionEvent) (loaded : Option TimelineEvent) :
    (execRoomRedactionEvent env room event loaded).2
      = (event.content.eventRedacts.bind fun _ => loadedReaction loaded).elim room fun reactionId =>
          (room.removeReactionById env reactionId).2 := by
  rw [execRoomRedactionEvent_eq]
  unfold loadedReaction
  cases event.content.eventRedacts with
  | none => rfl
  | some id =>
    rw [Option.bind_some, Option.bind_some]
    cases loaded.bind readable with
    | none => rfl
    | some redacted =>
      cases redacted with
      | state e => rfl
      | messageLike e =>
        cases e with
        | reaction e => exact room_redactReaction e.header.eventId
        | roomMessage e | roomRedaction e | roomEncrypted e | unstablePollStart e
        | unstablePollResponse e | unstablePollEnd e | other e => rfl

theorem Placed.congr (h : Placed reactions room)
    (hreactions : ∀ id, (room'.cachedAt id).reactions = (room.cachedAt id).reactions) :
    Placed reactions room' := by
  intro messageId reactionId reaction hlookup
  rw [hreactions] at hlookup
  exact h _ _ _ hlookup

theorem agree_congr (h : room.Agree) (hindex : room'.reactionIdToMessage = room.reactionIdToMessage)
    (hreactions : ∀ id, (room'.cachedAt id).reactions = (room.cachedAt id).reactions) :
    room'.Agree := by
  intro reactionId messageId
  rw [hindex, hreactions]
  exact h reactionId messageId

/-- A removal by id removes the reaction from every message, and nothing else. -/
structure RemovesById (room room' : CachedRoom M) (reactionId : String) : Prop where
  gone : ∀ messageId, reactionId ∉ (room'.cachedAt messageId).reactions
  others : ∀ messageId id, id ∈ (room'.cachedAt messageId).reactions →
    id ∈ (room.cachedAt messageId).reactions
  edits : ∀ messageId id, (room'.cachedAt messageId).HasEdit id →
    (room.cachedAt messageId).HasEdit id

theorem hasEdit_takeReaction {messageId reactionId : String} {id eventId : String}
    (h : ((room.takeReaction messageId reactionId).2.cachedAt id).HasEdit eventId) :
    (room.cachedAt id).HasEdit eventId := by
  unfold CachedRoom.takeReaction at h
  cases hmessage : room.messages.lookup messageId with
  | none =>
    rw [hmessage] at h
    exact h
  | some message =>
    have hcached : room.cachedAt messageId = message := by simp [CachedRoom.cachedAt, hmessage]
    rw [hmessage] at h
    dsimp only at h
    cases hreaction : message.reactions.lookup reactionId with
    | none =>
      rw [hreaction] at h
      exact h
    | some reaction =>
      rw [hreaction] at h
      dsimp only at h
      rw [CachedRoom.cachedAt_setMessage] at h
      split at h
      · next heq =>
        rw [heq, hcached]
        exact h
      · exact h

variable (env) in
theorem removeReactionById_spec (hplaced : Placed reactions room) (hagree : room.Agree)
    (reactionId : String) :
    RemovesById room (room.removeReactionById env reactionId).2 reactionId ∧
      Placed reactions (room.removeReactionById env reactionId).2 ∧
      (room.removeReactionById env reactionId).2.Agree := by
  cases hindex : room.reactionIdToMessage.lookup reactionId with
  | none =>
    have hroom : (room.removeReactionById env reactionId).2 = room := by
      simp only [CachedRoom.removeReactionById, CachedRoom.reactionIdToMessageId, hindex]
    rw [hroom]
    refine ⟨⟨fun messageId hmem => ?_, fun _ _ h => h, fun _ _ h => h⟩, hplaced, hagree⟩
    rw [← hagree, hindex] at hmem
    cases hmem
  | some messageId =>
    have hmem := (hagree reactionId messageId).mp hindex
    cases htaken : room.takeReaction messageId reactionId with
    | mk removed taken =>
      cases removed with
      | none =>
        have hnone := (CachedRoom.takeReaction_eq_none room htaken).1
        rw [← AList.lookup_isSome, hnone] at hmem
        cases hmem
      | some removed =>
        have hroom : (room.removeReactionById env reactionId).2
          = taken.cleanupReaction reactionId := by
          simp only [CachedRoom.removeReactionById, CachedRoom.reactionIdToMessageId, hindex,
            htaken]
        have hremoves := removes_takeReaction htaken
        have hcached : ∀ id, (taken.cleanupReaction reactionId).cachedAt id = taken.cachedAt id :=
          CachedRoom.cachedAt_of_messages rfl
        rw [hroom]
        refine ⟨⟨fun id h => ?_, fun id other h => ?_, fun id other h => ?_⟩, ?_, ?_⟩
        · rw [hcached, hremoves.mem_iff] at h
          have hsame : id = messageId := by
            rw [← hplaced.messageId h.1, hplaced.messageId hmem]
          exact h.2 hsame (List.mem_singleton_self _)
        · rw [hcached, hremoves.mem_iff] at h
          exact h.1
        · rw [hcached] at h
          have hbefore :
              ((room.takeReaction messageId reactionId).2.cachedAt id).HasEdit other := by
            rw [htaken]
            exact h
          exact hasEdit_takeReaction hbefore
        · exact (hremoves.placed hplaced).congr fun id => by rw [hcached]
        · exact hremoves.agree hplaced hagree

variable (env) in
theorem perform_of_not_reacted {effect : Effect} (room : CachedRoom M)
    (h : ∀ messageId reactionId reaction, effect ≠ .reacted messageId reactionId reaction) :
    (room.perform env effect).2.reactionIdToMessage = room.reactionIdToMessage ∧
      ∀ id, ((room.perform env effect).2.cachedAt id).reactions = (room.cachedAt id).reactions := by
  refine ⟨?_, fun id => ?_⟩
  · cases effect with
    | reacted messageId reactionId reaction => exact absurd rfl (h messageId reactionId reaction)
    | ignored | failed | undecryptable | assembled | redacted | replaced | pollReplaced
    | pollAnswered | pollEnded => rfl
  · rw [CachedRoom.cachedAt_perform]
    cases effect with
    | reacted messageId reactionId reaction => exact absurd rfl (h messageId reactionId reaction)
    | ignored | failed | undecryptable => rfl
    | assembled | redacted | replaced | pollReplaced | pollAnswered | pollEnded =>
      simp only [Effect.on]
      split <;> rfl

/-- A reaction event is the one of its id. -/
theorem reaction_of_effectOf {event : TimelineEvent} {media : M} {messageId reactionId : String}
    {reaction : CachedReaction}
    (hevent : ∀ reaction ∈ reactionIn event, reactions reaction.1 = reaction.2)
    (heffect : (effectOf env event media).1 = .reacted messageId reactionId reaction) :
    reactions reactionId = ⟨messageId, reaction⟩ := by
  have hsource := effectOf_source env event media
  rw [heffect] at hsource
  obtain ⟨original, hread, rfl, rfl, rfl⟩ := hsource
  refine hevent (original.eventId,
      ⟨original.content.eventId, original.sender, original.content.key⟩) ?_
  simp [reactionIn, hread]

variable (env) in
/-- An event of the timeline keeps the index of the reactions. -/
theorem agree_processTimelineEvent {event : TimelineEvent} (hplaced : Placed reactions room)
    (hagree : room.Agree)
    (hevent : ∀ reaction ∈ reactionIn event, reactions reaction.1 = reaction.2) :
    Placed reactions (room.processTimelineEvent env event).2 ∧
      (room.processTimelineEvent env event).2.Agree := by
  rw [CachedRoom.processTimelineEvent_eq]
  have hprepared : ∀ id, (CachedRoom.cachedAt { room.prepare env event with
      media := (effectOf env event room.media).2 } id).reactions = (room.cachedAt id).reactions :=
    fun id => congrArg CachedMessage.reactions (CachedRoom.cachedAt_prepare env room event id)
  have hindex : (room.prepare env event).reactionIdToMessage = room.reactionIdToMessage := by
    unfold CachedRoom.prepare
    split <;> rfl
  have hplaced' := hplaced.congr hprepared
  have hagree' := agree_congr hagree hindex hprepared
  by_cases hreacted : ∃ messageId reactionId reaction,
      (effectOf env event room.media).1 = .reacted messageId reactionId reaction
  · obtain ⟨messageId, reactionId, reaction, heffect⟩ := hreacted
    have hreaction := reaction_of_effectOf hevent heffect
    have hinsert := hplaced'.insertReaction reactionId
    have hcache := agree_cacheReaction hplaced' hagree' reactionId
    rw [hreaction] at hinsert hcache
    rw [heffect]
    exact ⟨hinsert.congr fun id => rfl, hcache⟩
  · obtain ⟨hindex, hreactions⟩ := perform_of_not_reacted env
      { room.prepare env event with media := (effectOf env event room.media).2 }
      fun messageId reactionId reaction h => hreacted ⟨messageId, reactionId, reaction, h⟩
    exact ⟨hplaced'.congr hreactions, agree_congr hagree' hindex hreactions⟩

/-- A redaction caches neither a reaction nor an edit. -/
theorem caches_of_redactedBy {event : TimelineEvent} {eventId : String}
    (h : eventId ∈ redactedBy event) (media : M) :
    (effectOf env event media).1.caches = none := by
  unfold redactedBy at h
  split at h
  · next redaction hread =>
    rw [effectOf_of_readable env hread]
    simp only [effectOfMessageLike]
    cases redaction.content.redacts <;> rfl
  · cases h

end Steps

/-! ## The invariant -/

section Invariant

variable {M : Type} {env : RoomEnv M} {reactions : ReactionTable}

/-- A redaction is handled while nothing is cached under the id of the redacted event, or live, for
    a reaction that can be loaded; and nothing is cached under the id afterwards. -/
def Cleaned (env : RoomEnv M) (s : Redactions M) : RedactionStep → Prop
  | .timeline event =>
    (∀ eventId ∈ (effectOf env event s.room.media).1.caches, eventId ∉ s.redacted) ∧
      ∀ eventId ∈ redactedBy event,
        s.room.holdsEdit eventId = false ∧ s.room.holdsReaction eventId = false
  | .reactionEvent reactionId => reactionId ∉ s.redacted
  | .redactionEvent event loaded =>
    ∀ eventId ∈ redacts event, s.room.holdsEdit eventId = false ∧
      (s.room.holdsReaction eventId = false ∨
        event.content.eventRedacts.isSome = true ∧ loadedReaction loaded = some eventId)

instance (s : Redactions M) (step : RedactionStep) : Decidable (Cleaned env s step) :=
  match step with
  | .timeline _ => inferInstanceAs (Decidable (_ ∧ _))
  | .reactionEvent _ => inferInstanceAs (Decidable (_ ∉ _))
  | .redactionEvent _ _ => inferInstanceAs (Decidable (∀ _ ∈ _, _))

structure Redactions.Inv (reactions : ReactionTable) (s : Redactions M) : Prop where
  placed : Placed reactions s.room
  agree : s.room.Agree
  edits : ∀ eventId ∈ s.redacted, ∀ messageId, ¬ (s.room.cachedAt messageId).HasEdit eventId
  reactions : ∀ eventId ∈ s.redacted, ∀ messageId,
    eventId ∉ (s.room.cachedAt messageId).reactions

namespace Redactions

variable {s t : Redactions M}

theorem inv_start (media : M) : (start media).Inv reactions where
  placed messageId reactionId reaction h := by cases h
  agree reactionId messageId := by
    refine ⟨nofun, fun h => absurd h ?_⟩
    exact AList.notMem_empty _
  edits eventId h := absurd h List.not_mem_nil
  reactions eventId h := absurd h List.not_mem_nil

/-- What is cached after a step was cached before, or it is not of an event that was redacted. -/
theorem Inv.timeline (h : s.Inv reactions) {event : TimelineEvent}
    (hevent : ∀ reaction ∈ reactionIn event, reactions reaction.1 = reaction.2)
    (hcleaned : Cleaned env s (.timeline event)) :
    Inv reactions ⟨(s.room.processTimelineEvent env event).2, redactedBy event ++ s.redacted⟩ := by
  obtain ⟨hplaced, hagree⟩ := agree_processTimelineEvent env h.placed h.agree hevent
  obtain ⟨hfresh, hclean⟩ := hcleaned
  -- an event that has been redacted, by this event or before, is not cached by it
  have hcaches : ∀ eventId ∈ redactedBy event ++ s.redacted,
      (effectOf env event s.room.media).1.caches ≠ some eventId := by
    intro eventId hmem hcached
    rcases List.mem_append.mp hmem with hmem | hmem
    · rw [caches_of_redactedBy hmem] at hcached
      cases hcached
    · exact hfresh eventId hcached hmem
  refine ⟨hplaced, hagree, fun eventId hmem messageId hedit => ?_,
    fun eventId hmem messageId hreaction => ?_⟩
  · rw [CachedRoom.cachedAt_processTimelineEvent] at hedit
    have hbefore := (hasEdit_on hedit).resolve_right (hcaches eventId hmem)
    rcases List.mem_append.mp hmem with hmem | hmem
    · exact s.room.not_hasEdit (hclean eventId hmem).1 messageId hbefore
    · exact h.edits eventId hmem messageId hbefore
  · rw [CachedRoom.cachedAt_processTimelineEvent] at hreaction
    have hbefore := (mem_reactions_on hreaction).resolve_right (hcaches eventId hmem)
    rcases List.mem_append.mp hmem with hmem | hmem
    · exact s.room.notMem_reactions (hclean eventId hmem).2 messageId hbefore
    · exact h.reactions eventId hmem messageId hbefore

theorem Inv.reactionEvent (h : s.Inv reactions) {reactionId : String}
    (hfresh : reactionId ∉ s.redacted) :
    Inv reactions ⟨s.room.cacheReaction (reactions reactionId).messageId reactionId
      (reactions reactionId).reaction, s.redacted⟩ where
  placed := (h.placed.insertReaction reactionId).congr fun _ => rfl
  agree := agree_cacheReaction h.placed h.agree reactionId
  edits eventId hmem messageId hedit := by
    refine h.edits eventId hmem messageId ?_
    simp only [CachedRoom.cacheReaction_eq] at hedit
    change ((s.room.insertReaction _ _ _).cachedAt messageId).HasEdit eventId at hedit
    rw [CachedRoom.insertReaction, CachedRoom.cachedAt_modifyMessage] at hedit
    split at hedit <;> exact hedit
  reactions eventId hmem messageId hreaction := by
    simp only [CachedRoom.cacheReaction_eq] at hreaction
    change eventId ∈ ((s.room.insertReaction _ _ _).cachedAt messageId).reactions at hreaction
    rw [reactions_insertReaction] at hreaction
    split at hreaction
    · rcases (AList.mem_insert _).mp hreaction with rfl | hbefore
      · exact hfresh hmem
      · exact h.reactions eventId hmem messageId hbefore
    · exact h.reactions eventId hmem messageId hreaction

/-- A live redaction that removes no reaction is one of an event of which nothing is cached. -/
theorem Inv.redactionEvent (h : s.Inv reactions) {event : RedactionEvent}
    {loaded : Option TimelineEvent} (hcleaned : Cleaned env s (.redactionEvent event loaded)) :
    Inv reactions ⟨(execRoomRedactionEvent env s.room event loaded).2,
      redacts event ++ s.redacted⟩ := by
  rw [room_execRoomRedactionEvent]
  cases hremoved : event.content.eventRedacts.bind fun _ => loadedReaction loaded with
  | none =>
    have hnone : ∀ eventId ∈ redacts event, s.room.holdsReaction eventId = false := by
      refine fun eventId hmem => (hcleaned eventId hmem).2.resolve_right fun ⟨hsome, hloaded⟩ => ?_
      obtain ⟨redacted, hredacted⟩ := Option.isSome_iff_exists.mp hsome
      rw [hredacted, Option.bind_some, hloaded] at hremoved
      cases hremoved
    refine ⟨h.placed, h.agree, fun eventId hmem messageId => ?_, fun eventId hmem messageId => ?_⟩
    · rcases List.mem_append.mp hmem with hmem | hmem
      · exact s.room.not_hasEdit (hcleaned eventId hmem).1 messageId
      · exact h.edits eventId hmem messageId
    · rcases List.mem_append.mp hmem with hmem | hmem
      · exact s.room.notMem_reactions (hnone eventId hmem) messageId
      · exact h.reactions eventId hmem messageId
  | some reactionId =>
    obtain ⟨hremoves, hplaced, hagree⟩ :=
      removeReactionById_spec env h.placed h.agree reactionId
    obtain ⟨-, -, hloaded⟩ := Option.bind_eq_some_iff.mp hremoved
    refine ⟨hplaced, hagree, fun eventId hmem messageId hafter => ?_,
      fun eventId hmem messageId hafter => ?_⟩
    · have hbefore := hremoves.edits messageId eventId hafter
      rcases List.mem_append.mp hmem with hmem | hmem
      · exact s.room.not_hasEdit (hcleaned eventId hmem).1 messageId hbefore
      · exact h.edits eventId hmem messageId hbefore
    · have hbefore := hremoves.others messageId eventId hafter
      rcases List.mem_append.mp hmem with hmem | hmem
      · rcases (hcleaned eventId hmem).2 with hnone | ⟨-, heq⟩
        · exact s.room.notMem_reactions hnone messageId hbefore
        · obtain rfl := Option.some.inj (hloaded.symm.trans heq)
          exact hremoves.gone messageId hafter
      · exact h.reactions eventId hmem messageId hbefore

theorem inv_step {step : RedactionStep} (h : s.Inv reactions) (hcleaned : Cleaned env s step)
    (hstep : (redactions env reactions).step s step = some t) : t.Inv reactions := by
  cases step with
  | timeline event =>
    simp only [redactions] at hstep
    split at hstep
    · next hevent =>
      obtain rfl := Option.some.inj hstep
      exact h.timeline hevent hcleaned
    · cases hstep
  | reactionEvent reactionId =>
    obtain rfl := Option.some.inj hstep
    exact h.reactionEvent hcleaned
  | redactionEvent event loaded =>
    obtain rfl := Option.some.inj hstep
    exact h.redactionEvent hcleaned

end Redactions

/-- Once the redaction of an event has been handled, no message that is assembled lists the event
    among its reactions or shows it as its edit: the listed reactions and the shown edit are what
    the message has. -/
theorem redacted_not_shown {media : M} {steps : List RedactionStep} {s : Redactions M}
    (hcleaned : (redactions env reactions).Meets (Cleaned env) (.start media) steps)
    (hrun : (redactions env reactions).run (.start media) steps = some s)
    {eventId : String} (hredacted : eventId ∈ s.redacted) (original : Message) :
    eventId ∉ (s.room.cachedAt original.messageId).listedReactions env.order original ∧
      (s.room.cachedAt original.messageId).shownEdit env.order original ≠ some eventId ∧
      (s.room.cachedAt original.messageId).ShowsRelations env.order original
        (s.room.assembleMessage env original).1 := by
  have hinv : s.Inv reactions := (redactions env reactions).inv_of_run
    (fun _ _ _ => Redactions.inv_step) (Redactions.inv_start media) hcleaned hrun
  refine ⟨fun hlisted => ?_, fun hshown => ?_, ?_⟩
  · exact hinv.reactions eventId hredacted _ (CachedMessage.mem_reactions_of_listed hlisted)
  · exact hinv.edits eventId hredacted _ (CachedMessage.hasEdit_of_shownEdit hshown)
  · rw [CachedRoom.assembleMessage_message]
    exact CachedMessage.showsRelations_buildFromOriginal _ _ _

end Invariant

/-! ## Redacted relations of a message -/

def plainMessageLike (event : AnyMessageLikeEvent) : TimelineEvent :=
  ⟨.plainText (.ok (.messageLike event)), none⟩

def aliceHello : TimelineEvent :=
  plainMessageLike (.roomMessage
      (.original ⟨"$hello", "@alice:hs", 10, "!r", ⟨.text "Hello", none, none⟩⟩))

def aliceEdit : TimelineEvent :=
  plainMessageLike (.roomMessage (.original ⟨"$edit", "@alice:hs", 20, "!r",
    ⟨.text "* Goodbye", some (.replacement "$hello" ⟨.text "Goodbye", none⟩), none⟩⟩))

def bobsHeart : TimelineEvent :=
  plainMessageLike (.reaction (.original ⟨"$heart", "@bob:hs", 30, "!r", ⟨"$hello", "♥"⟩⟩))

def redactionOf (eventId : String) : RedactionEvent :=
  ⟨"$redaction", "@bob:hs", 40, "!r", ⟨some eventId, some eventId, none⟩⟩

def hearts : ReactionTable := fun _ => ⟨"$hello", ⟨"@bob:hs", "♥"⟩⟩

/-- Content and reactions of `$hello`, when it is fetched after the steps. -/
def helloAfter (steps : List RedactionStep) : Option (Option Content × List Reaction) :=
  ((redactions (RoomEnv.bare "!r") hearts).run (.start ()) steps).bind fun s =>
    match (s.room.processTimelineEvent (RoomEnv.bare "!r") aliceHello).1 with
    | .ok (some (.message message)) => some (message.content, message.reactions)
    | _ => none

/-- An edit that is redacted live, and a reaction whose redaction is fetched, are still shown. -/
theorem redacted_edit_is_shown :
    helloAfter [.timeline aliceEdit, .redactionEvent (redactionOf "$edit") (some aliceEdit)]
      = some (some (.text "Goodbye"), []) ∧
    helloAfter [.timeline bobsHeart,
        .timeline (plainMessageLike (.roomRedaction (.original (redactionOf "$heart"))))]
      = some (some (.text "Hello"), [⟨"!r", "$hello", "♥", some "@bob:hs"⟩]) := by
  decide +kernel

/-- The heart is redacted live. -/
def heartRemoved : List RedactionStep :=
  [.timeline bobsHeart, .redactionEvent (redactionOf "$heart") (some bobsHeart)]

theorem isSome_heartRemoved :
    ((redactions (RoomEnv.bare "!r") hearts).run (.start ()) heartRemoved).isSome := by
  decide +kernel

theorem redacted_not_shown_heart :
    ∃ s, (redactions (RoomEnv.bare "!r") hearts).run (.start ()) heartRemoved = some s ∧
      "$heart" ∈ s.redacted ∧ ∀ original : Message,
        "$heart" ∉ (s.room.cachedAt original.messageId).listedReactions .entries original := by
  have hrun := (Option.some_get isSome_heartRemoved).symm
  have hredacted : "$heart" ∈ (Option.get _ isSome_heartRemoved).redacted := by decide +kernel
  have hcleaned : (redactions (RoomEnv.bare "!r") hearts).Meets (Cleaned (RoomEnv.bare "!r"))
      (.start ()) heartRemoved := by decide +kernel
  exact ⟨_, hrun, hredacted, fun original =>
    (redacted_not_shown hcleaned hrun hredacted original).1⟩

end GoudaMatrix.MemoryCache
