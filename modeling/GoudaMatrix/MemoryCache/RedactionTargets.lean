/-
  The target and the reason of a redaction, live (`events.rs`: `exec_room_redaction_event`) and in a
  fetched timeline (`memory_cache.rs`: `process_room_redaction`, then `build_removed` for the
  message). The live path reads the `redacts` field of the event, which older room versions use, and
  the other one the field of its content, which newer ones use.

  `same_removal_iff`: both remove the same message and show the reason exactly if the two fields are
  equal. `old_redaction_differs` is a redaction of an older room version.
-/
import GoudaMatrix.MemoryCache.Redactions

namespace GoudaMatrix.MemoryCache

open GoudaMatrix.Lib GoudaMatrix.Ruma

section Targets

variable {M : Type} (env : RoomEnv M) (room : CachedRoom M)
  (load : String → Option TimelineEvent) (event : RedactionEvent)

/-- A message, or an encrypted one. -/
def IsMessage : AnyMessageLikeEvent → Prop
  | .roomMessage _ | .roomEncrypted _ => True
  | _ => False

/-- What the redaction names is loaded as a message. -/
def LoadsMessages : Prop :=
  ∀ id ∈ redacts event, ∃ loaded message, load id = some loaded ∧
    readable loaded = some (.messageLike message) ∧ IsMessage message ∧
    (AnyTimelineEvent.messageLike message).header.eventId = id

/-- What the live path sends. -/
def liveOutput : Option RedactionOutput :=
  (execRoomRedactionEvent env room event (event.content.eventRedacts.bind load)).1

/-- The live path changes the message. -/
def RemovesLive (messageId : String) : Prop :=
  ∃ change, liveOutput env room load event = some (.messageChange change) ∧
    change.messageId = messageId

/-- The redaction is cached with the message. -/
def RemovesFetched (messageId : String) : Prop :=
  ((room.processRoomRedaction (.original event)).2.cachedAt messageId).redaction = some event

/-- Both paths remove the message, or neither, and what they show is the reason. -/
structure SameRemoval (redacted : RedactedEvent) : Prop where
  target : RemovesLive env room load event redacted.eventId ↔
    RemovesFetched room event redacted.eventId
  live : RemovesLive env room load event redacted.eventId →
    liveOutput env room load event = some (.messageChange
      { MessageChangeEvent.new env.roomId redacted.eventId with
        content := some (.removed event.content.reason) })
  fetched : RemovesFetched room event redacted.eventId →
    ∃ message, ((room.processRoomRedaction (.original event)).2.processRedactedRoomMessage env
        redacted).1 = .ok (some (.message message)) ∧
      message.messageId = redacted.eventId ∧
      message.content = some (.removed event.content.reason)

/-! ## The targets -/

variable {env room load event}

theorem redact_of_isMessage {message : AnyMessageLikeEvent} (h : IsMessage message) :
    (redactAnyTimelineEvent env room event (.ok (.messageLike message))).1
      = some (redactRoomMessage env event
        (AnyTimelineEvent.messageLike message).header.eventId) := by
  cases message with
  | roomMessage e | roomEncrypted e => rfl
  | roomRedaction e | unstablePollStart e | unstablePollResponse e | unstablePollEnd e | reaction e
  | other e => exact h.elim

/-- The live path removes what the field of the event names. -/
theorem liveOutput_eq (hload : LoadsMessages load event) :
    liveOutput env room load event
      = event.content.eventRedacts.map fun id => redactRoomMessage env event id := by
  unfold liveOutput
  rw [execRoomRedactionEvent_eq]
  cases hid : event.content.eventRedacts with
  | none => rfl
  | some id =>
    have hmem : id ∈ redacts event := by
      unfold redacts
      rw [hid]
      exact List.mem_append_left _ (List.mem_singleton_self id)
    obtain ⟨loaded, message, hloaded, hread, hmessage, rfl⟩ := hload id hmem
    rw [Option.bind_some, Option.bind_some, hloaded, Option.bind_some, hread, Option.elim_some,
      redact_of_isMessage hmessage, Option.map_some]

theorem removesLive_iff (hload : LoadsMessages load event) (messageId : String) :
    RemovesLive env room load event messageId ↔ event.content.eventRedacts = some messageId := by
  unfold RemovesLive
  rw [liveOutput_eq hload]
  cases event.content.eventRedacts with
  | none => simp
  | some id =>
    constructor
    · rintro ⟨change, hchange, rfl⟩
      cases hchange
      rfl
    · intro hid
      obtain rfl := Option.some.inj hid
      exact ⟨_, rfl, rfl⟩

/-- The other path caches the redaction with what the field of the content names. -/
theorem removesFetched_iff (hnew : ∀ id, (room.cachedAt id).redaction ≠ some event)
    (messageId : String) :
    RemovesFetched room event messageId ↔ event.content.redacts = some messageId := by
  unfold RemovesFetched CachedRoom.processRoomRedaction
  dsimp only
  cases event.content.redacts with
  | none => exact iff_of_false (hnew messageId) (fun h => by cases h)
  | some id =>
    dsimp only
    unfold CachedRoom.cacheRedaction
    rw [CachedRoom.cachedAt_modifyMessage, Option.some.injEq]
    by_cases hid : messageId = id
    · rw [if_pos hid]
      exact iff_of_true rfl hid.symm
    · rw [if_neg hid]
      exact iff_of_false (hnew messageId) (Ne.symm hid)

/-! ## The reasons -/

theorem live_reason (hload : LoadsMessages load event) {messageId : String}
    (h : RemovesLive env room load event messageId) :
    liveOutput env room load event = some (.messageChange
      { MessageChangeEvent.new env.roomId messageId with
        content := some (.removed event.content.reason) }) := by
  rw [liveOutput_eq hload, (removesLive_iff hload messageId).mp h]
  rfl

theorem buildRemoved_of_redaction {cached : CachedMessage} {redaction : RedactionEvent}
    (h : cached.redaction = some redaction) (original : Message) (reason : Option String) :
    cached.buildRemoved original reason
      = { original with content := some (.removed redaction.content.reason) } := by
  unfold CachedMessage.buildRemoved
  rw [h]

/-- A message that is assembled after its redaction has been cached shows the reason. -/
theorem fetched_reason (env : RoomEnv M) {redacted : RedactedEvent}
    (h : RemovesFetched room event redacted.eventId) :
    ∃ message, ((room.processRoomRedaction (.original event)).2.processRedactedRoomMessage env
        redacted).1 = .ok (some (.message message)) ∧
      message.messageId = redacted.eventId ∧
      message.content = some (.removed event.content.reason) := by
  have hbuilt := buildRemoved_of_redaction h
    { Message.new redacted.roomId redacted.eventId redacted.sender redacted.originServerTs with
      content := some (.removed none) } none
  exact ⟨_, rfl, congrArg Message.messageId hbuilt, congrArg Message.content hbuilt⟩

end Targets

/-! ## Equal fields -/

section Equal

variable {M : Type} (env : RoomEnv M)

/-- The redacted message, as it is loaded. -/
def redactedMessage (id : String) : TimelineEvent :=
  ⟨.plainText (.ok (.messageLike (.roomMessage (.redacted ⟨id, "@alice:hs", 10, "!r"⟩)))), none⟩

theorem loadsMessages_redactedMessage (event : RedactionEvent) :
    LoadsMessages (fun id => some (redactedMessage id)) event :=
  fun _ _ => ⟨_, _, rfl, rfl, trivial, rfl⟩

/-- When a redaction of messages removes the same message on both paths, with the reason: in every
    room that has not seen it yet. -/
theorem same_removal_iff (media : M) (event : RedactionEvent) :
    (∀ (room : CachedRoom M) (load : String → Option TimelineEvent),
      (∀ id, (room.cachedAt id).redaction ≠ some event) → LoadsMessages load event →
        ∀ redacted, SameRemoval env room load event redacted) ↔
      event.content.eventRedacts = event.content.redacts := by
  constructor
  · intro h
    have hnew : ∀ id, ((CachedRoom.new media).cachedAt id).redaction ≠ some event :=
      fun id heq => by cases heq
    have hload := loadsMessages_redactedMessage event
    refine Option.ext fun id => ?_
    have htarget := (h (.new media) _ hnew hload ⟨id, "@alice:hs", 10, "!r"⟩).target
    rwa [removesLive_iff hload, removesFetched_iff hnew] at htarget
  · intro heq room load hnew hload redacted
    refine ⟨?_, live_reason hload, fetched_reason env⟩
    rw [removesLive_iff hload, removesFetched_iff hnew, heq]

/-! ## An older room version -/

/-- The target is in the event only. -/
def oldRedaction : RedactionEvent :=
  ⟨"$redaction", "@mod:hs", 40, "!r", ⟨some "$hello", none, some "spam"⟩⟩

def redactedHello : RedactedEvent := ⟨"$hello", "@alice:hs", 10, "!r"⟩

/-- Live, the message is removed as spam; fetched, it is removed without a reason. -/
theorem old_redaction_differs :
    let room : CachedRoom Unit := .new ()
    let env := RoomEnv.bare "!r"
    let load := fun id => some (redactedMessage id)
    ¬ SameRemoval env room load oldRedaction redactedHello ∧
      liveOutput env room load oldRedaction = some (.messageChange
        { MessageChangeEvent.new "!r" "$hello" with content := some (.removed (some "spam")) }) ∧
      ((room.processRoomRedaction (.original oldRedaction)).2.processRedactedRoomMessage env
        redactedHello).1 = .ok (some (.message { Message.new "!r" "$hello" "@alice:hs" 10 with
          content := some (.removed none) })) := by
  intro room env load
  refine ⟨fun h => ?_, by rfl, by rfl⟩
  have hload := loadsMessages_redactedMessage oldRedaction
  have hlive : RemovesLive env room load oldRedaction "$hello" :=
    (removesLive_iff hload "$hello").mpr rfl
  have hfetched := (removesFetched_iff (fun id heq => by cases heq) "$hello").mp (h.target.mp hlive)
  cases hfetched

end Equal

end GoudaMatrix.MemoryCache
