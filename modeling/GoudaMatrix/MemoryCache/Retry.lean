/-
  The redecryption of cached events (`memory_cache.rs`: `retry_decryption`) and the loop that
  processes a fetched chunk (`process_event_chunk`). Both run `process_timeline_event` for one
  event after another and stop at its first error.
-/
import GoudaMatrix.MemoryCache.Room

namespace GoudaMatrix.MemoryCache

open GoudaMatrix.Lib GoudaMatrix.Ruma

variable {M : Type} (env : RoomEnv M)

/-! ## Redecryption -/

/-- `redact_encrypted_message`. -/
def redactEncryptedMessage (messageId : String) : MessageEvent := .removed ⟨env.roomId, messageId⟩

def processSuccessfulRedecryptedMessage (message : Message) : List MessageEvent :=
  match message.content with
  | none => [redactEncryptedMessage env message.messageId]
  | some content =>
    [.changed { MessageChangeEvent.new message.roomId message.messageId with
      content := some content
      isEncrypted := some false }]

def processSuccessfulRedecryptedReaction (reaction : ReactionMetadata) : List MessageEvent :=
  [redactEncryptedMessage env reaction.reactionId,
    .reactionCreated
      { roomId := reaction.roomId
        messageId := reaction.messageId
        reaction := reaction.emoji
        userId := some reaction.userId }]

def processSuccessfulRedecryption : CachedRoomAction → List MessageEvent
  | .message message => processSuccessfulRedecryptedMessage env message
  | .reaction reaction => processSuccessfulRedecryptedReaction env reaction

/-- `TimelineEventKind::UnableToDecrypt`. -/
def isUnableToDecrypt (event : TimelineEvent) : Bool :=
  match event.kind with
  | .unableToDecrypt _ _ => true
  | _ => false

namespace CachedRoom

variable (room : CachedRoom M)

def getEventsForRedecryption (events : Option (List String)) : List CachedEncryptedEvent :=
  let entries := env.order.order room.encryptedEvents.entries
  match events with
  | some ids => (entries.filter fun entry => entry.1 ∈ ids).map Sigma.snd
  | none => entries.map Sigma.snd

/-- The result, the room and what has been sent to the application. -/
def retryCachedEncryptedEvent (event : CachedEncryptedEvent) :
    Result Unit × CachedRoom M × List MessageEvent :=
  match env.decryptEvent event.event with
  | none => (.ok (), room, [])
  | some event =>
    if isUnableToDecrypt event then (.ok (), room, [])
    else
      match event.eventId with
      | none => (.ok (), room, [])
      | some eventId =>
        match room.processTimelineEvent env event with
        | (.error e, room) => (.error e, room, [])
        | (.ok (some action), room) => (.ok (), room, processSuccessfulRedecryption env action)
        | (.ok none, room) => (.ok (), room, [redactEncryptedMessage env eventId])

/-- The loop of `retry_decryption`. -/
def retryEvents : CachedRoom M → List CachedEncryptedEvent →
    Result Unit × CachedRoom M × List MessageEvent
  | room, [] => (.ok (), room, [])
  | room, event :: events =>
    match room.retryCachedEncryptedEvent env event with
    | (.error e, room, sent) => (.error e, room, sent)
    | (.ok (), room, sent) =>
      let (result, room, sent') := retryEvents room events
      (result, room, sent ++ sent')

def retryDecryption (events : Option (List String)) :
    Result Unit × CachedRoom M × List MessageEvent :=
  retryEvents env room (room.getEventsForRedecryption env events)

end CachedRoom

/-- The id is in the selection, if there is one. -/
def IsSelected (events : Option (List String)) (id : String) : Prop := ∀ ids ∈ events, id ∈ ids

theorem mem_getEventsForRedecryption {env : RoomEnv M} {room : CachedRoom M}
    {events : Option (List String)} {event : CachedEncryptedEvent} :
    event ∈ room.getEventsForRedecryption env events ↔
      ∃ id, room.encryptedEvents.lookup id = some event ∧ IsSelected events id := by
  have hentry (id : String) (e : CachedEncryptedEvent) :
      (⟨id, e⟩ : Sigma fun _ : String => CachedEncryptedEvent)
        ∈ env.order.order room.encryptedEvents.entries
          ↔ room.encryptedEvents.lookup id = some e := HashMap.mem_order
  unfold CachedRoom.getEventsForRedecryption IsSelected
  cases events with
  | none => simp [hentry]
  | some ids => simp [hentry]

/-- What `retry_cached_encrypted_event` does with the result of the event. -/
def sendResult (eventId : String) : Result (Option CachedRoomAction) × CachedRoom M →
    Result Unit × CachedRoom M × List MessageEvent
  | (.error e, room) => (.error e, room, [])
  | (.ok (some action), room) => (.ok (), room, processSuccessfulRedecryption env action)
  | (.ok none, room) => (.ok (), room, [redactEncryptedMessage env eventId])

theorem retryCachedEncryptedEvent_eq {event : CachedEncryptedEvent} {decrypted : TimelineEvent}
    {eventId : String} (hdecrypt : env.decryptEvent event.event = some decrypted)
    (hdecrypted : isUnableToDecrypt decrypted = false) (hid : decrypted.eventId = some eventId)
    (room : CachedRoom M) :
    room.retryCachedEncryptedEvent env event
      = sendResult env eventId (room.processTimelineEvent env decrypted) := by
  unfold CachedRoom.retryCachedEncryptedEvent
  simp only [hdecrypt, hdecrypted, hid, Bool.false_eq_true, if_false]
  rcases room.processTimelineEvent env decrypted with ⟨_ | _ | _, _⟩ <;> rfl

/-! ## Fetching -/

/-- Events that are processed one after another up to the first error, and the actions. -/
def CachedRoom.processEvents : CachedRoom M → List TimelineEvent →
    Result Unit × CachedRoom M × List CachedRoomAction
  | room, [] => (.ok (), room, [])
  | room, event :: events =>
    match room.processTimelineEvent env event with
    | (.error e, room) => (.error e, room, [])
    | (.ok action, room) =>
      let (result, room, actions) := processEvents room events
      (result, room, action.toList ++ actions)

/-- The room after events that are processed without an error. -/
def afterEvents {M : Type} (env : RoomEnv M) (room : CachedRoom M) (events : List TimelineEvent) :
    CachedRoom M :=
  events.foldl (fun room event => (room.processTimelineEvent env event).2) room

theorem processEvents_ok {M : Type} {env : RoomEnv M} {room : CachedRoom M}
    {events : List TimelineEvent} (h : (room.processEvents env events).1 = .ok ()) :
    (room.processEvents env events).2.1 = afterEvents env room events := by
  induction events generalizing room with
  | nil => rfl
  | cons event events ih =>
    have hstep : afterEvents env room (event :: events)
        = afterEvents env (room.processTimelineEvent env event).2 events := rfl
    rw [hstep]
    unfold CachedRoom.processEvents at h ⊢
    generalize room.processTimelineEvent env event = r at h ⊢
    obtain ⟨result, room₁⟩ := r
    cases result with
    | error e => simp at h
    | ok action => exact ih h

theorem afterEvents_append {M : Type} (env : RoomEnv M) (room : CachedRoom M)
    (events events' : List TimelineEvent) :
    afterEvents env room (events ++ events')
      = afterEvents env (afterEvents env room events) events' := by
  simp [afterEvents]

/-- `MessageFetcher::run`, for a loaded event and its relations. -/
def CachedRoom.fetchMessage (room : CachedRoom M) (event : TimelineEvent)
    (relations : List TimelineEvent) : Result Message × CachedRoom M :=
  match room.processEvents env relations with
  | (.error e, room, _) => (.error e, room)
  | (.ok (), room, _) =>
    match room.processTimelineEvent env event with
    | (.error e, room) => (.error e, room)
    | (.ok (some (.message message)), room) => (.ok message, room)
    | (.ok _, room) => (.error .unableToAssembleMessage, room)

/-- `MessagesFetcher`, without its loader. -/
structure MessagesFetcher where
  messageLimit : Nat
  retrievedMessages : Nat
  sendReadMarkers : Bool
  currentReadMarkers : ReadMarkers
  /-- The messages sent to the receiver. -/
  messages : List Message
  /-- The read markers sent to the application. -/
  readMarkers : List ReadMarkers
deriving DecidableEq

namespace MessagesFetcher

/-- `send_finished_message`, for the actions that are messages. `received n` says that the
    receiver has not been dropped when the message with number `n` is sent. -/
def sendAction (received : Nat → Bool) (f : MessagesFetcher) :
    Option CachedRoomAction → Result MessagesFetcher
  | some (.message message) =>
    if received f.retrievedMessages then
      .ok { f with
        messages := f.messages ++ [message]
        retrievedMessages := f.retrievedMessages + 1 }
    else .error .messageReceiverDropped
  | _ => .ok f

/-- `update_read_markers`, if they are to be sent. -/
def updateReadMarkers (f : MessagesFetcher) (markers : ReadMarkers) : MessagesFetcher :=
  if f.sendReadMarkers && markers ≠ f.currentReadMarkers then
    { f with currentReadMarkers := markers, readMarkers := f.readMarkers ++ [markers] }
  else f

def processEventChunk (received : Nat → Bool) : CachedRoom M → MessagesFetcher →
    List TimelineEvent → Result Unit × CachedRoom M × MessagesFetcher
  | room, f, [] => (.ok (), room, f)
  | room, f, event :: chunk =>
    match room.processTimelineEvent env event with
    | (.error e, room) => (.error e, room, f)
    | (.ok action, room) =>
      match f.sendAction received action with
      | .error e => (.error e, room, f)
      | .ok f =>
        let f := f.updateReadMarkers room.readMarkers
        if f.retrievedMessages = f.messageLimit then (.ok (), room, f)
        else processEventChunk received room f chunk

end MessagesFetcher

end GoudaMatrix.MemoryCache
