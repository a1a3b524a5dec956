/-
  Runs of `retry_decryption` that interleave at their await points (`memory_cache.rs`), started by
  the loop and by reports of the redecryptor (`session.rs`), while events of the history are
  processed too.

  A run takes the events to decrypt at its start and removes each from `encrypted_events` only once
  it has been decrypted, so that two runs resolve the same placeholder
  (`placeholder_resolved_twice`); an event that is decrypted but cannot be read stays there and is
  resolved by every run. `resolved_at_most_once`: a placeholder is resolved at most once if whenever
  a run goes on with a decrypted event, it is still among the events to decrypt, and can be read
  (`StillListed`). `reaches_retryDecryption`: a run that is alone does what `retryDecryption` does.
-/
import GoudaMatrix.Lib.Run
import GoudaMatrix.MemoryCache.View

namespace GoudaMatrix.MemoryCache

open GoudaMatrix.Lib GoudaMatrix.Ruma

/-! ## Runs -/

/-- Where a run is: what it awaits. -/
inductive RetryStage where
  /-- The task has been spawned. -/
  | spawned (events : Option (List String))
  | decrypting (event : CachedEncryptedEvent) (rest : List CachedEncryptedEvent)
  /-- The receipts of the decrypted event are loaded. -/
  | loading (eventId : String) (event : TimelineEvent) (rest : List CachedEncryptedEvent)
  /-- The media of the decrypted event are downloaded, if it has any. -/
  | downloading (eventId : String) (event : TimelineEvent) (rest : List CachedEncryptedEvent)
  /-- The first of the events is sent. -/
  | sending (eventId : String) (pending : List MessageEvent) (rest : List CachedEncryptedEvent)
  | finished

/-- The loop of `retry_decryption`. -/
def RetryStage.loop : List CachedEncryptedEvent → RetryStage
  | [] => .finished
  | event :: rest => .decrypting event rest

/-- An event sent to the application, and the event whose decryption it is about. -/
structure Sent where
  eventId : String
  event : MessageEvent
deriving DecidableEq

structure RetryRuns (M : Type) where
  room : CachedRoom M
  runs : List RetryStage
  sent : List Sent
  /-- The ids of the placeholders that have been sent (history variable). -/
  placeholders : List String

inductive RetryAction where
  /-- `retry_encrypted_events`, or `retry_all_encrypted_events`, which skips a room without events
      to decrypt: there a run does nothing. -/
  | spawn (events : Option (List String))
  /-- An event of the history is processed. -/
  | fetch (event : TimelineEvent)
  /-- `decrypt_event` returns to a run. -/
  | decrypted (i : Nat) (result : Option TimelineEvent)
  /-- A run gets what it awaits. -/
  | advance (i : Nat)

/-- The placeholder that an event gets. -/
def placeholderOf (event : TimelineEvent) : List String :=
  match event.kind with
  | .unableToDecrypt (.ok event) _ => [event.eventId]
  | _ => []

section Runs

variable {M : Type} (env : RoomEnv M)

/-- A run goes on with a decrypted event, up to the next await. -/
def CachedRoom.beginProcessing (room : CachedRoom M) (eventId : String) (event : TimelineEvent)
    (rest : List CachedEncryptedEvent) : CachedRoom M × RetryStage :=
  match event.kind with
  | .decrypted (.ok e) =>
    (room.removeEncryptedEvent e.header.eventId, .loading eventId event rest)
  | .plainText (.ok _) => (room, .loading eventId event rest)
  | _ => (room, .sending eventId [redactEncryptedMessage env eventId] rest)

/-- `retry_cached_encrypted_event` once `decrypt_event` has returned. -/
def CachedRoom.onDecrypted (room : CachedRoom M) (rest : List CachedEncryptedEvent) :
    Option TimelineEvent → CachedRoom M × RetryStage
  | none => (room, .loop rest)
  | some event =>
    if isUnableToDecrypt event then (room, .loop rest)
    else
      match event.eventId with
      | none => (room, .loop rest)
      | some eventId => room.beginProcessing env eventId event rest

/-- The rest of `process_timeline_event`, and what is sent for its result. -/
def CachedRoom.finishProcessing (room : CachedRoom M) (eventId : String) (event : TimelineEvent)
    (rest : List CachedEncryptedEvent) : CachedRoom M × RetryStage :=
  match { room with media := (effectOf env event room.media).2 }.perform env
    (effectOf env event room.media).1 with
  | (.error _, room) => (room, .finished)
  | (.ok (some action), room) =>
    (room, .sending eventId (processSuccessfulRedecryption env action) rest)
  | (.ok none, room) => (room, .sending eventId [redactEncryptedMessage env eventId] rest)

/-- What a run does up to the next await, and what it has sent by then. -/
def RetryStage.advance (room : CachedRoom M) :
    RetryStage → Option (CachedRoom M × RetryStage × List Sent)
  | .spawned events => some (room, .loop (room.getEventsForRedecryption env events), [])
  | .decrypting _ _ | .finished => none
  | .loading eventId event rest =>
    match readable event with
    | none => none
    | some e =>
      some (room.loadAndCacheEventReadMarkers env e.header, .downloading eventId event rest, [])
  | .downloading eventId event rest =>
    match room.finishProcessing env eventId event rest with
    | (room, stage) => some (room, stage, [])
  | .sending _ [] rest => some (room, .loop rest, [])
  | .sending eventId (event :: pending) rest =>
    some (room, .sending eventId pending rest, [⟨eventId, event⟩])

def retryRuns : System (RetryRuns M) RetryAction where
  step s
    | .spawn events => some { s with runs := s.runs ++ [.spawned events] }
    | .fetch event =>
      some { s with
        room := (s.room.processTimelineEvent env event).2
        placeholders := placeholderOf event ++ s.placeholders }
    | .decrypted i result =>
      match s.runs[i]? with
      | some (.decrypting _ rest) =>
        match s.room.onDecrypted env rest result with
        | (room, stage) => some { s with room, runs := s.runs.set i stage }
      | _ => none
    | .advance i =>
      match s.runs[i]? with
      | none => none
      | some stage =>
        match stage.advance env s.room with
        | none => none
        | some (room, stage, sent) =>
          some { s with room, runs := s.runs.set i stage, sent := s.sent ++ sent }

def RetryRuns.start (media : M) : RetryRuns M := ⟨.new media, [], [], []⟩

/-! ## What a run sends -/

/-- The event resolves a placeholder. -/
def isResolution : MessageEvent → Bool
  | .changed _ | .removed _ => true
  | _ => false

def isRemove : MessageEvent → Bool
  | .removed _ => true
  | _ => false

def isReaction : MessageEvent → Bool
  | .reactionCreated _ => true
  | _ => false

/-- A change or a remove event is one of the message with the id. -/
def NamesMessage (eventId : String) : MessageEvent → Prop
  | .changed change => change.messageId = eventId
  | .removed remove => remove.messageId = eventId
  | _ => True

def Sent.resolves (eventId : String) (sent : Sent) : Bool :=
  sent.eventId = eventId && isResolution sent.event

def Sent.removes (eventId : String) (sent : Sent) : Bool :=
  sent.eventId = eventId && isRemove sent.event

def Sent.reacts (eventId : String) (sent : Sent) : Bool :=
  sent.eventId = eventId && isReaction sent.event

/-- What is left to be sent for an event: one change, or one remove and at most one reaction. -/
inductive Pending (eventId : String) : List MessageEvent → Prop
  | nothing : Pending eventId []
  | change {change : MessageChangeEvent} (h : change.messageId = eventId) :
    Pending eventId [.changed change]
  | remove {remove : MessageRemoveEvent} (h : remove.messageId = eventId) :
    Pending eventId [.removed remove]
  | removeAndReaction {remove : MessageRemoveEvent} (h : remove.messageId = eventId)
      (reaction : Reaction) : Pending eventId [.removed remove, .reactionCreated reaction]
  | reaction (reaction : Reaction) : Pending eventId [.reactionCreated reaction]

namespace RetryStage

/-- The run is going to resolve the placeholder. -/
def holds (eventId : String) : RetryStage → Bool
  | .loading id _ _ | .downloading id _ _ => id = eventId
  | .sending id (event :: _) _ => id = eventId && isResolution event
  | _ => false

/-- The run is going to send the reaction, and has sent the remove before. -/
def owes (eventId : String) : RetryStage → Bool
  | .sending id (event :: _) _ => id = eventId && isReaction event
  | _ => false

/-- What holds of a run at its stage. -/
def Ok : RetryStage → Prop
  | .loading eventId event _ | .downloading eventId event _ =>
    event.eventId = some eventId ∧ isUnableToDecrypt event = false
  | .sending eventId pending _ => Pending eventId pending
  | _ => True

theorem ok_loop (rest : List CachedEncryptedEvent) : (loop rest).Ok := by
  cases rest <;> trivial

theorem holds_loop (rest : List CachedEncryptedEvent) (eventId : String) :
    (loop rest).holds eventId = false := by
  cases rest <;> rfl

theorem owes_loop (rest : List CachedEncryptedEvent) (eventId : String) :
    (loop rest).owes eventId = false := by
  cases rest <;> rfl

end RetryStage

/-- The event that a result is about. -/
def CachedRoomAction.eventId : CachedRoomAction → String
  | .message m => m.messageId
  | .reaction metadata => metadata.reactionId

theorem holds_sending {eventId id : String} {pending : List MessageEvent}
    {rest : List CachedEncryptedEvent}
    (h : (RetryStage.sending eventId pending rest).holds id = true) : id = eventId := by
  cases pending with
  | nil => cases h
  | cons first pending =>
    simp only [RetryStage.holds, Bool.and_eq_true, decide_eq_true_eq] at h
    exact h.1.symm

/-- A run that is going to send one remove event. -/
theorem sending_remove (eventId : String) (rest : List CachedEncryptedEvent) :
    let stage := RetryStage.sending eventId [redactEncryptedMessage env eventId] rest
    stage.Ok ∧ ∀ id, stage.owes id = false :=
  ⟨.remove rfl, fun id => by simp [RetryStage.owes, redactEncryptedMessage, isReaction]⟩

/-- What is sent for a result resolves the placeholder first. -/
theorem sending_action (action : CachedRoomAction) (rest : List CachedEncryptedEvent) :
    let stage := RetryStage.sending action.eventId (processSuccessfulRedecryption env action) rest
    stage.Ok ∧ ∀ id, stage.owes id = false := by
  cases action with
  | reaction metadata =>
    have hid : (⟨env.roomId, metadata.reactionId⟩ : MessageRemoveEvent).messageId
        = metadata.reactionId := rfl
    refine ⟨.removeAndReaction hid _, fun id => ?_⟩
    simp [processSuccessfulRedecryption, processSuccessfulRedecryptedReaction,
      RetryStage.owes, redactEncryptedMessage, isReaction]
  | message message =>
    simp only [processSuccessfulRedecryption, processSuccessfulRedecryptedMessage]
    cases message.content with
    | none => exact sending_remove env message.messageId rest
    | some content => exact ⟨.change rfl, fun id => by simp [RetryStage.owes, isReaction]⟩

/-- The result of an event has its id. -/
theorem id_of_perform {event : TimelineEvent} {eventId : String}
    (hid : event.eventId = some eventId) (hdecrypted : isUnableToDecrypt event = false)
    {room room' : CachedRoom M} {media : M} {action : CachedRoomAction}
    (h : room.perform env (effectOf env event media).1 = (.ok (some action), room')) :
    action.eventId = eventId := by
  cases heffect : (effectOf env event media).1 with
  | assembled original =>
    rw [heffect] at h
    obtain rfl := Option.some.inj (Except.ok.inj (Prod.mk.inj h).1)
    rw [eventId_of_assembled env heffect] at hid
    show (room.assembleMessage env original).1.messageId = eventId
    rw [CachedRoom.assembleMessage_message, CachedMessage.buildFromOriginal_eq]
    exact Option.some.inj hid
  | reacted messageId reactionId reaction =>
    rw [heffect] at h
    obtain rfl := Option.some.inj (Except.ok.inj (Prod.mk.inj h).1)
    rw [eventId_of_reacted env heffect] at hid
    exact Option.some.inj hid
  | undecryptable encrypted sessionId =>
    exact absurd heffect (effectOf_ne_undecryptable env hdecrypted _ encrypted sessionId)
  | ignored | failed | replaced | redacted | pollReplaced | pollAnswered | pollEnded =>
    rw [heffect] at h
    cases (Prod.mk.inj h).1

theorem finishProcessing_spec {event : TimelineEvent} {eventId : String}
    (hid : event.eventId = some eventId) (hdecrypted : isUnableToDecrypt event = false)
    {room room' : CachedRoom M} {rest : List CachedEncryptedEvent} {stage : RetryStage}
    (h : room.finishProcessing env eventId event rest = (room', stage)) :
    room'.encryptedEvents = room.encryptedEvents ∧ stage.Ok ∧
      ∀ id, stage.owes id = false ∧ (stage.holds id = true → id = eventId) := by
  unfold CachedRoom.finishProcessing at h
  have hencrypted : (CachedRoom.perform env { room with media := (effectOf env event room.media).2 }
      (effectOf env event room.media).1).2.encryptedEvents = room.encryptedEvents := by
    refine CachedRoom.encryptedEvents_perform env _ _ fun encrypted sessionId heffect => ?_
    exact effectOf_ne_undecryptable env hdecrypted _ encrypted sessionId heffect
  cases hperform : CachedRoom.perform env { room with media := (effectOf env event room.media).2 }
      (effectOf env event room.media).1 with
  | mk result performed =>
    rw [hperform] at h hencrypted
    match result, hperform with
    | .error e, _ =>
      obtain ⟨rfl, rfl⟩ := Prod.mk.inj h
      exact ⟨hencrypted, trivial, fun id => ⟨rfl, nofun⟩⟩
    | .ok none, _ =>
      obtain ⟨rfl, rfl⟩ := Prod.mk.inj h
      obtain ⟨hok, howes⟩ := sending_remove env eventId rest
      exact ⟨hencrypted, hok, fun id => ⟨howes id, holds_sending⟩⟩
    | .ok (some action), hperform =>
      obtain ⟨rfl, rfl⟩ := Prod.mk.inj h
      obtain ⟨hok, howes⟩ := sending_action env action rest
      rw [id_of_perform env hid hdecrypted hperform] at hok howes
      exact ⟨hencrypted, hok, fun id => ⟨howes id, holds_sending⟩⟩

/-! ## Steps -/

/-- How many placeholders of the event wait for a run. -/
def CachedRoom.listed (room : CachedRoom M) (eventId : String) : Nat :=
  if eventId ∈ room.encryptedEvents then 1 else 0

/-- A run that goes on with a decrypted event finds it among the events to decrypt, and it can be
    read. -/
def CachedRoom.StillListed (room : CachedRoom M) (event : TimelineEvent) : Prop :=
  match event.kind with
  | .unableToDecrypt _ _ => True
  | .decrypted (.ok e) => e.header.eventId ∈ room.encryptedEvents
  | _ => event.eventId = none

instance (room : CachedRoom M) (event : TimelineEvent) : Decidable (room.StillListed event) :=
  match event with
  | ⟨.unableToDecrypt _ _, _⟩ => isTrue trivial
  | ⟨.decrypted (.ok e), _⟩ => inferInstanceAs (Decidable (e.header.eventId ∈ room.encryptedEvents))
  | ⟨.decrypted (.malformed _), _⟩ | ⟨.plainText _, _⟩ =>
    inferInstanceAs (Decidable (TimelineEvent.eventId _ = none))

theorem listed_of_mem {room : CachedRoom M} {eventId : String}
    (h : eventId ∈ room.encryptedEvents) :
    room.listed eventId = 1 := if_pos h

theorem listed_le_one (room : CachedRoom M) (eventId : String) : room.listed eventId ≤ 1 := by
  unfold CachedRoom.listed
  split <;> omega

theorem listed_congr {room room' : CachedRoom M} (h : room'.encryptedEvents = room.encryptedEvents)
    (eventId : String) : room'.listed eventId = room.listed eventId := by
  unfold CachedRoom.listed
  rw [h]

theorem listed_le {room room' : CachedRoom M} {eventId : String}
    (h : eventId ∈ room'.encryptedEvents → eventId ∈ room.encryptedEvents) :
    room'.listed eventId ≤ room.listed eventId := by
  unfold CachedRoom.listed
  split
  · next hmem => rw [if_pos (h hmem)]
  · exact Nat.zero_le _

theorem listed_removeEncryptedEvent (room : CachedRoom M) (removed eventId : String) :
    (room.removeEncryptedEvent removed).listed eventId
      = if eventId = removed then 0 else room.listed eventId := by
  have hmem : eventId ∈ (room.removeEncryptedEvent removed).encryptedEvents ↔
      eventId ≠ removed ∧ eventId ∈ room.encryptedEvents := AList.mem_erase
  unfold CachedRoom.listed
  by_cases heq : eventId = removed
  · rw [if_pos heq, if_neg fun h => (hmem.mp h).1 heq]
  · simp only [hmem, heq, ne_eq, not_false_iff, true_and, if_false]

/-- An event of the history adds at most the event of its placeholder. -/
theorem listed_fetch (room : CachedRoom M) (event : TimelineEvent) (eventId : String) :
    (room.processTimelineEvent env event).2.listed eventId
      ≤ room.listed eventId + (placeholderOf event).count eventId := by
  have hprepare : (room.prepare env event).listed eventId ≤ room.listed eventId := by
    refine listed_le fun h => ?_
    unfold CachedRoom.prepare at h
    split at h
    · exact (AList.mem_erase.mp h).2
    · exact h
    · exact h
  rw [CachedRoom.processTimelineEvent_eq]
  cases heffect : (effectOf env event room.media).1 with
  | undecryptable encrypted sessionId =>
    have hkind := kind_of_undecryptable env heffect
    by_cases heq : eventId = encrypted.eventId
    · subst heq
      have hone : (placeholderOf event).count encrypted.eventId = 1 :=
        by simp [placeholderOf, hkind]
      have hle := listed_le_one (CachedRoom.perform env
        { room.prepare env event with media := (effectOf env event room.media).2 }
        (.undecryptable encrypted sessionId)).2 encrypted.eventId
      omega
    · refine Nat.le_trans (listed_le fun h => ?_)
        (Nat.le_trans hprepare (Nat.le_add_right _ _))
      exact ((AList.mem_insert _).mp h).resolve_left heq
  | ignored | failed | assembled | replaced | redacted | reacted | pollReplaced | pollAnswered
  | pollEnded => exact Nat.le_trans hprepare (Nat.le_add_right _ _)

/-! ## The invariant -/

structure RetryRuns.Inv (s : RetryRuns M) : Prop where
  stages : ∀ stage ∈ s.runs, stage.Ok
  names : ∀ sent ∈ s.sent, NamesMessage sent.eventId sent.event
  /-- A placeholder that is not resolved waits for a run, or for one event of one run. -/
  resolved : ∀ id, s.runs.countP (RetryStage.holds id) + s.sent.countP (Sent.resolves id)
    + s.room.listed id ≤ s.placeholders.count id
  reacted : ∀ id, s.sent.countP (Sent.reacts id) + s.runs.countP (RetryStage.owes id)
    ≤ s.sent.countP (Sent.removes id)

theorem RetryRuns.inv_start (media : M) : (RetryRuns.start media).Inv where
  stages stage h := absurd h List.not_mem_nil
  names sent h := absurd h List.not_mem_nil
  resolved id := by
    have hlisted : (CachedRoom.new media).listed id = 0 := if_neg (AList.notMem_empty id)
    simp [start, hlisted]
  reacted id := by simp [start]

theorem RetryRuns.inv_spawn {s : RetryRuns M} (h : s.Inv) (events : Option (List String)) :
    RetryRuns.Inv ⟨s.room, s.runs ++ [.spawned events], s.sent, s.placeholders⟩ where
  stages stage hmem := by
    rcases List.mem_append.mp hmem with hmem | hmem
    · exact h.stages stage hmem
    · rw [List.mem_singleton.mp hmem]
      trivial
  names := h.names
  resolved id := by simpa [RetryStage.holds] using h.resolved id
  reacted id := by simpa [RetryStage.owes] using h.reacted id

theorem RetryRuns.inv_fetch {s : RetryRuns M} (h : s.Inv) (event : TimelineEvent) :
    RetryRuns.Inv ⟨(s.room.processTimelineEvent env event).2, s.runs, s.sent,
      placeholderOf event ++ s.placeholders⟩ where
  stages := h.stages
  names := h.names
  resolved id := by
    have hlisted := listed_fetch env s.room event id
    have hresolved := h.resolved id
    simp only [List.count_append]
    omega
  reacted := h.reacted

/-! ## Steps of a run -/

/-- A run that has been given up to the stage holds only what has been taken off the list. -/
def RetryStage.Takes (stage : RetryStage) (room room' : CachedRoom M) : Prop :=
  stage.Ok ∧ ∀ id, stage.owes id = false ∧
    (if stage.holds id then 1 else 0) + room'.listed id ≤ room.listed id

theorem takes_loop (room : CachedRoom M) (rest : List CachedEncryptedEvent) :
    (RetryStage.loop rest).Takes room room :=
  ⟨RetryStage.ok_loop rest, fun id => ⟨RetryStage.owes_loop rest id, by
    simp [RetryStage.holds_loop]⟩⟩

theorem takes_loading {room : CachedRoom M} {e : AnyTimelineEvent}
    (h : e.header.eventId ∈ room.encryptedEvents) (timestamp : Option Nat)
    (rest : List CachedEncryptedEvent) :
    (RetryStage.loading e.header.eventId ⟨.decrypted (.ok e), timestamp⟩ rest).Takes room
      (room.removeEncryptedEvent e.header.eventId) := by
  refine ⟨⟨rfl, rfl⟩, fun id => ⟨rfl, ?_⟩⟩
  rw [listed_removeEncryptedEvent]
  by_cases heq : id = e.header.eventId
  · subst heq
    rw [listed_of_mem h, if_pos rfl]
    split <;> omega
  · have hother : (RetryStage.loading e.header.eventId
      ⟨.decrypted (.ok e), timestamp⟩ rest).holds id
        = false := decide_eq_false (Ne.symm heq)
    rw [if_neg heq, hother]
    simp

/-- A run that goes on with a decrypted event that is still listed takes it over. -/
theorem takes_onDecrypted {room room' : CachedRoom M} {rest : List CachedEncryptedEvent}
    {result : Option TimelineEvent} {stage : RetryStage}
    (hlisted : ∀ event ∈ result, room.StillListed event)
    (h : room.onDecrypted env rest result = (room', stage)) : stage.Takes room room' := by
  have hloop : (room, RetryStage.loop rest) = (room', stage) → stage.Takes room room' := by
    intro h
    obtain ⟨rfl, rfl⟩ := Prod.mk.inj h
    exact takes_loop room rest
  match result with
  | none => exact hloop h
  | some event =>
    have hstill := hlisted event rfl
    obtain ⟨kind, timestamp⟩ := event
    have hnone : TimelineEvent.eventId ⟨kind, timestamp⟩ = none →
        isUnableToDecrypt ⟨kind, timestamp⟩ = false → stage.Takes room room' := by
      intro hid hdecrypted
      simp only [CachedRoom.onDecrypted, hdecrypted, hid, Bool.false_eq_true, if_false] at h
      exact hloop h
    cases kind with
    | unableToDecrypt e sessionId => exact hloop h
    | plainText e => exact hnone hstill rfl
    | decrypted e =>
      cases e with
      | malformed id => exact hnone hstill rfl
      | ok e =>
        simp only [CachedRoom.onDecrypted, isUnableToDecrypt, Bool.false_eq_true, if_false,
          TimelineEvent.eventId, CachedRoom.beginProcessing] at h
        obtain ⟨rfl, rfl⟩ := Prod.mk.inj h
        exact takes_loading hstill timestamp rest

/-- What a run does up to its next await is paid for by what it held and owed. -/
structure Paid (stage stage' : RetryStage) (room room' : CachedRoom M) (sent : List Sent) :
    Prop where
  ok : stage'.Ok
  names : ∀ sent' ∈ sent, NamesMessage sent'.eventId sent'.event
  resolved : ∀ id, (if stage'.holds id then 1 else 0) + sent.countP (Sent.resolves id)
    + room'.listed id ≤ (if stage.holds id then 1 else 0) + room.listed id
  reacted : ∀ id, sent.countP (Sent.reacts id) + (if stage'.owes id then 1 else 0)
    ≤ sent.countP (Sent.removes id) + (if stage.owes id then 1 else 0)

theorem paid_of_takes {stage stage' : RetryStage} {room room' : CachedRoom M}
    (h : stage'.Takes room room') : Paid stage stage' room room' [] where
  ok := h.1
  names sent hmem := absurd hmem List.not_mem_nil
  resolved id := by
    have hle := (h.2 id).2
    simp only [List.countP_nil]
    omega
  reacted id := by simp [(h.2 id).1]

/-- The first of the events that are left is sent. -/
theorem paid_sending {eventId : String} {event : MessageEvent} {pending : List MessageEvent}
    (h : Pending eventId (event :: pending)) (room : CachedRoom M)
    (rest : List CachedEncryptedEvent) :
    Paid (.sending eventId (event :: pending) rest) (.sending eventId pending rest) room room
      [⟨eventId, event⟩] := by
  cases h with
  | change hid | remove hid =>
    refine ⟨.nothing, by simpa [NamesMessage] using hid, fun id => ?_, fun id => ?_⟩
    · simp [RetryStage.holds, Sent.resolves, isResolution, List.countP_singleton]
    · simp [RetryStage.owes, Sent.reacts, isReaction]
  | removeAndReaction hid reaction =>
    refine ⟨.reaction reaction, by simpa [NamesMessage] using hid, fun id => ?_, fun id => ?_⟩
    · simp [RetryStage.holds, Sent.resolves, isResolution, List.countP_singleton]
    · simp [RetryStage.owes, Sent.reacts, Sent.removes, isReaction, isRemove, List.countP_singleton]
  | reaction reaction =>
    refine ⟨.nothing, by simp [NamesMessage], fun id => ?_, fun id => ?_⟩
    · simp [RetryStage.holds, Sent.resolves, isResolution]
    · simp [RetryStage.owes, Sent.reacts, isReaction, List.countP_singleton]

theorem paid_advance {room room' : CachedRoom M} {stage stage' : RetryStage} {sent : List Sent}
    (hok : stage.Ok) (h : stage.advance env room = some (room', stage', sent)) :
    Paid stage stage' room room' sent := by
  cases stage with
  | spawned events =>
    obtain ⟨rfl, rfl, rfl⟩ := h
    exact paid_of_takes (takes_loop room _)
  | decrypting event rest | finished => cases h
  | loading eventId event rest =>
    simp only [RetryStage.advance] at h
    cases hread : readable event with
    | none =>
      rw [hread] at h
      cases h
    | some e =>
      rw [hread] at h
      obtain ⟨rfl, rfl, rfl⟩ := h
      exact ⟨hok, fun sent hmem => absurd hmem List.not_mem_nil, fun id => Nat.le_refl _,
        fun id => Nat.le_refl _⟩
  | downloading eventId event rest =>
    cases hfinish : room.finishProcessing env eventId event rest with
    | mk finished stage =>
      simp only [RetryStage.advance, hfinish] at h
      obtain ⟨rfl, rfl, rfl⟩ := h
      obtain ⟨hencrypted, hok', hstage⟩ := finishProcessing_spec env hok.1 hok.2 hfinish
      refine ⟨hok', fun sent hmem => absurd hmem List.not_mem_nil, fun id => ?_, fun id => ?_⟩
      · rw [listed_congr hencrypted]
        have hheld : (if stage'.holds id then 1 else 0)
            ≤ if (RetryStage.downloading eventId event rest).holds id then 1 else 0 := by
          split
          · next hholds => simp [RetryStage.holds, (hstage id).2 hholds]
          · exact Nat.zero_le _
        simp only [List.countP_nil]
        omega
      · simp [(hstage id).1]
  | sending eventId pending rest =>
    cases pending with
    | nil =>
      obtain ⟨rfl, rfl, rfl⟩ := h
      exact paid_of_takes (takes_loop room rest)
    | cons event pending =>
      obtain ⟨rfl, rfl, rfl⟩ := h
      exact paid_sending hok room rest

/-- A run moves on. -/
theorem RetryRuns.Inv.move {s : RetryRuns M} (h : s.Inv) {i : Nat} {stage stage' : RetryStage}
    (hget : s.runs[i]? = some stage) {room : CachedRoom M} {sent : List Sent}
    (hpaid : Paid stage stage' s.room room sent) :
    RetryRuns.Inv ⟨room, s.runs.set i stage', s.sent ++ sent, s.placeholders⟩ where
  stages run hmem := by
    rcases List.mem_or_eq_of_mem_set hmem with hmem | rfl
    · exact h.stages run hmem
    · exact hpaid.ok
  names sent' hmem := by
    rcases List.mem_append.mp hmem with hmem | hmem
    · exact h.names sent' hmem
    · exact hpaid.names sent' hmem
  resolved id := by
    have hcount := countP_set_add hget stage' (RetryStage.holds id)
    have hold := h.resolved id
    have hnew := hpaid.resolved id
    simp only [List.countP_append]
    omega
  reacted id := by
    have hcount := countP_set_add hget stage' (RetryStage.owes id)
    have hold := h.reacted id
    have hnew := hpaid.reacted id
    simp only [List.countP_append]
    omega

/-! ## Whole runs -/

/-- Whenever a run goes on with a decrypted event, it is still listed and can be read. -/
def RetryRuns.StillListed (s : RetryRuns M) : RetryAction → Prop
  | .decrypted _ (some event) => s.room.StillListed event
  | _ => True

instance (s : RetryRuns M) (action : RetryAction) : Decidable (s.StillListed action) :=
  match action with
  | .decrypted _ (some event) => inferInstanceAs (Decidable (s.room.StillListed event))
  | .decrypted _ none | .spawn _ | .fetch _ | .advance _ => isTrue trivial

theorem RetryRuns.inv_step {s t : RetryRuns M} {action : RetryAction} (h : s.Inv)
    (hlisted : s.StillListed action) (hstep : (retryRuns env).step s action = some t) : t.Inv := by
  cases action with
  | spawn events =>
    obtain rfl := Option.some.inj hstep
    exact inv_spawn h events
  | fetch event =>
    obtain rfl := Option.some.inj hstep
    exact inv_fetch env h event
  | decrypted i result =>
    simp only [retryRuns] at hstep
    split at hstep
    · next event rest hget =>
      cases hdecrypted : s.room.onDecrypted env rest result with
      | mk room stage =>
        rw [hdecrypted] at hstep
        obtain rfl := Option.some.inj hstep
        have htakes := takes_onDecrypted env (fun event hmem => by
          obtain rfl := Option.mem_def.mp hmem
          exact hlisted) hdecrypted
        have hmove := h.move hget (paid_of_takes htakes)
        rwa [List.append_nil] at hmove
    · cases hstep
  | advance i =>
    simp only [retryRuns] at hstep
    split at hstep
    · cases hstep
    · next stage hget =>
      split at hstep
      · cases hstep
      · next room stage' sent hadvance =>
        obtain rfl := Option.some.inj hstep
        have hok := h.stages stage (List.mem_of_getElem? hget)
        exact h.move hget (paid_advance env hok hadvance)

/-- At most one resolution is sent for each placeholder, which is a change or a remove event of
    the message, and at most one reaction after each remove event. -/
theorem resolved_at_most_once {media : M} {actions : List RetryAction} {t : RetryRuns M}
    (hlisted : (retryRuns env).Meets RetryRuns.StillListed (.start media) actions)
    (hrun : (retryRuns env).run (.start media) actions = some t) :
    (∀ eventId, t.sent.countP (Sent.resolves eventId) ≤ t.placeholders.count eventId ∧
      t.sent.countP (Sent.reacts eventId) ≤ t.sent.countP (Sent.removes eventId)) ∧
    ∀ sent ∈ t.sent, NamesMessage sent.eventId sent.event := by
  have hinv : t.Inv := (retryRuns env).inv_of_run (fun s action t => RetryRuns.inv_step env)
    (RetryRuns.inv_start media) hlisted hrun
  refine ⟨fun eventId => ⟨?_, ?_⟩, hinv.names⟩
  · have hresolved := hinv.resolved eventId
    omega
  · have hreacted := hinv.reacted eventId
    omega

/-! ## A run alone -/

theorem step_advance {s : RetryRuns M} {i : Nat} {stage stage' : RetryStage} {room : CachedRoom M}
    {sent : List Sent} (hget : s.runs[i]? = some stage)
    (h : stage.advance env s.room = some (room, stage', sent)) :
    (retryRuns env).step s (.advance i)
      = some ⟨room, s.runs.set i stage', s.sent ++ sent, s.placeholders⟩ := by
  simp only [retryRuns, hget, h]

theorem getElem?_set_of_some {runs : List RetryStage} {i : Nat} {stage : RetryStage}
    (hget : runs[i]? = some stage) (stage' : RetryStage) :
    (runs.set i stage')[i]? = some stage' :=
  List.getElem?_set_self (List.getElem?_eq_some_iff.mp hget).1

/-- A run sends what is left of an event, and goes on with the next one. -/
theorem run_sending {i : Nat} {eventId : String} {rest : List CachedEncryptedEvent}
    (pending : List MessageEvent) {s : RetryRuns M}
    (hget : s.runs[i]? = some (.sending eventId pending rest)) :
    (retryRuns env).run s (List.replicate (pending.length + 1) (.advance i))
      = some ⟨s.room, s.runs.set i (.loop rest), s.sent ++ pending.map (⟨eventId, ·⟩),
          s.placeholders⟩ := by
  induction pending generalizing s with
  | nil =>
    rw [List.replicate_succ, System.run_cons, step_advance env hget rfl]
    rfl
  | cons event pending ih =>
    rw [List.length_cons, List.replicate_succ, System.run_cons, step_advance env hget rfl]
    refine (ih (getElem?_set_of_some hget _)).trans ?_
    simp

/-- The run `i` gets from the one state to the other by its own actions, with the result. -/
def RetryRuns.Reaches (s : RetryRuns M) (i : Nat) (stage : RetryStage)
    (r : Result Unit × CachedRoom M × List MessageEvent) : Prop :=
  ∃ actions t, (retryRuns env).run s actions = some t ∧ t.room = r.2.1 ∧
    t.placeholders = s.placeholders ∧ t.sent.map Sent.event = s.sent.map Sent.event ++ r.2.2 ∧
    t.runs = s.runs.set i stage

/-- A run that fails stops. -/
def RetryStage.next (rest : List CachedEncryptedEvent) : Result Unit → RetryStage
  | .error _ => .finished
  | .ok () => .loop rest

theorem reaches_self {s : RetryRuns M} {i : Nat} {stage : RetryStage}
    (hget : s.runs[i]? = some stage) (result : Result Unit) :
    s.Reaches env i stage (result, s.room, []) := by
  refine ⟨[], s, rfl, rfl, rfl, (List.append_nil _).symm, ?_⟩
  obtain ⟨hlt, rfl⟩ := List.getElem?_eq_some_iff.mp hget
  exact (List.set_getElem_self hlt).symm

theorem reaches_of_step {s t : RetryRuns M} {action : RetryAction} {i : Nat}
    {stage stage' : RetryStage} {r : Result Unit × CachedRoom M × List MessageEvent}
    (hstep : (retryRuns env).step s action = some t) (hruns : t.runs = s.runs.set i stage)
    (hsent : t.sent = s.sent) (hplaceholders : t.placeholders = s.placeholders)
    (h : t.Reaches env i stage' r) : s.Reaches env i stage' r := by
  obtain ⟨actions, u, hrun, hroom, huplaceholders, husent, huruns⟩ := h
  refine ⟨action :: actions, u, ?_, hroom, huplaceholders.trans hplaceholders, ?_, ?_⟩
  · rw [System.run_cons, hstep]
    exact hrun
  · rw [husent, hsent]
  · rw [huruns, hruns, List.set_set]

theorem reaches_sending {s : RetryRuns M} {i : Nat} {eventId : String} {pending : List MessageEvent}
    {rest : List CachedEncryptedEvent}
    (hget : s.runs[i]? = some (.sending eventId pending rest)) :
    s.Reaches env i (.loop rest) (.ok (), s.room, pending) := by
  refine ⟨_, _, run_sending env pending hget, rfl, rfl, ?_, rfl⟩
  simp [Function.comp_def]

theorem reaches_downloading {s : RetryRuns M} {i : Nat} {eventId : String} {event : TimelineEvent}
    {rest : List CachedEncryptedEvent} {r : Result (Option CachedRoomAction) × CachedRoom M}
    (hget : s.runs[i]? = some (.downloading eventId event rest))
    (hperform : { s.room with media := (effectOf env event s.room.media).2 }.perform env
      (effectOf env event s.room.media).1 = r) :
    s.Reaches env i (.next rest (sendResult env eventId r).1) (sendResult env eventId r) := by
  have hadvance : RetryStage.advance env s.room (.downloading eventId event rest)
      = some ((s.room.finishProcessing env eventId event rest).1,
          (s.room.finishProcessing env eventId event rest).2, []) := rfl
  unfold CachedRoom.finishProcessing at hadvance
  rw [hperform] at hadvance
  have hstep := step_advance env hget hadvance
  match r with
  | (.error e, room) =>
    exact reaches_of_step env hstep rfl (by simp) rfl
      (reaches_self env (getElem?_set_of_some hget _) _)
  | (.ok (some action), room) =>
    exact reaches_of_step env hstep rfl (by simp) rfl
      (reaches_sending env (getElem?_set_of_some hget _))
  | (.ok none, room) =>
    exact reaches_of_step env hstep rfl (by simp) rfl
      (reaches_sending env (getElem?_set_of_some hget _))

/-- The receipts and the media of an event that can be read. -/
theorem reaches_loading {s : RetryRuns M} {i : Nat} {eventId : String} {event : TimelineEvent}
    {e : AnyTimelineEvent} {rest : List CachedEncryptedEvent}
    {r : Result (Option CachedRoomAction) × CachedRoom M} (hread : readable event = some e)
    (hget : s.runs[i]? = some (.loading eventId event rest))
    (hperform : { s.room.loadAndCacheEventReadMarkers env e.header with
      media := (effectOf env event s.room.media).2 }.perform env
        (effectOf env event s.room.media).1 = r) :
    s.Reaches env i (.next rest (sendResult env eventId r).1) (sendResult env eventId r) := by
  have hadvance : RetryStage.advance env s.room (.loading eventId event rest)
      = some (s.room.loadAndCacheEventReadMarkers env e.header, .downloading eventId event rest,
        []) := by
    simp only [RetryStage.advance, hread]
  exact reaches_of_step env (step_advance env hget hadvance) rfl (List.append_nil _) rfl
    (reaches_downloading env (getElem?_set_of_some hget _) hperform)

/-- A run that is alone with an event does what `retry_cached_encrypted_event` does. -/
theorem reaches_decrypting {s : RetryRuns M} {i : Nat} {event : CachedEncryptedEvent}
    {rest : List CachedEncryptedEvent} (hget : s.runs[i]? = some (.decrypting event rest)) :
    s.Reaches env i (.next rest (s.room.retryCachedEncryptedEvent env event).1)
      (s.room.retryCachedEncryptedEvent env event) := by
  have hstep : ∀ {room stage}, s.room.onDecrypted env rest (env.decryptEvent event.event)
      = (room, stage) → (retryRuns env).step s (.decrypted i (env.decryptEvent event.event))
        = some ⟨room, s.runs.set i stage, s.sent, s.placeholders⟩ := by
    intro room stage h
    simp only [retryRuns, hget, h]
  -- A run that has nothing to process goes on with the next event.
  have hloop : s.room.onDecrypted env rest (env.decryptEvent event.event) = (s.room, .loop rest) →
      s.room.retryCachedEncryptedEvent env event = (.ok (), s.room, []) →
      s.Reaches env i (.next rest (s.room.retryCachedEncryptedEvent env event).1)
        (s.room.retryCachedEncryptedEvent env event) := by
    intro hcalled hretried
    rw [hretried]
    exact reaches_of_step env (hstep hcalled) rfl rfl rfl
      (reaches_self env (getElem?_set_of_some hget _) _)
  cases hdecrypt : env.decryptEvent event.event with
  | none =>
    refine hloop (by rw [hdecrypt]; rfl) ?_
    simp only [CachedRoom.retryCachedEncryptedEvent, hdecrypt]
  | some decrypted =>
    cases hdecrypted : isUnableToDecrypt decrypted with
    | true =>
      refine hloop ?_ ?_
      · simp only [CachedRoom.onDecrypted, hdecrypt, hdecrypted, if_true]
      · simp only [CachedRoom.retryCachedEncryptedEvent, hdecrypt, hdecrypted, if_true]
    | false =>
      cases hid : decrypted.eventId with
      | none =>
        refine hloop ?_ ?_
        · simp only [CachedRoom.onDecrypted, hdecrypt, hdecrypted, hid, Bool.false_eq_true,
            if_false]
        · simp only [CachedRoom.retryCachedEncryptedEvent, hdecrypt, hdecrypted, hid,
            Bool.false_eq_true, if_false]
      | some eventId =>
        rw [retryCachedEncryptedEvent_eq env hdecrypt hdecrypted hid,
          CachedRoom.processTimelineEvent_eq]
        have hbegin : s.room.onDecrypted env rest (env.decryptEvent event.event)
            = s.room.beginProcessing env eventId decrypted rest := by
          simp only [CachedRoom.onDecrypted, hdecrypt, hdecrypted, hid, Bool.false_eq_true,
            if_false]
        obtain ⟨kind, timestamp⟩ := decrypted
        cases kind with
        | unableToDecrypt event sessionId => cases hdecrypted
        | decrypted event | plainText event =>
          cases event with
          | malformed id =>
            exact reaches_of_step env (hstep hbegin) rfl rfl rfl
              (reaches_sending env (getElem?_set_of_some hget _))
          | ok e =>
            exact reaches_of_step env (hstep hbegin) rfl rfl rfl
              (reaches_loading env rfl (getElem?_set_of_some hget _) rfl)

theorem reaches_trans {s : RetryRuns M} {i : Nat} {stage stage' : RetryStage}
    {r r' : Result Unit × CachedRoom M × List MessageEvent} (hlt : i < s.runs.length)
    (h : s.Reaches env i stage r)
    (hnext : ∀ t : RetryRuns M, t.room = r.2.1 → t.runs[i]? = some stage →
      t.Reaches env i stage' r') :
    s.Reaches env i stage' (r'.1, r'.2.1, r.2.2 ++ r'.2.2) := by
  obtain ⟨actions, t, hrun, hroom, hplaceholders, hsent, hruns⟩ := h
  obtain ⟨actions', u, hrun', huroom, huplaceholders, husent, huruns⟩ :=
    hnext t hroom (by rw [hruns, List.getElem?_set_self hlt])
  refine ⟨actions ++ actions', u, ?_, huroom, huplaceholders.trans hplaceholders, ?_, ?_⟩
  · rw [System.run_append, hrun]
    exact hrun'
  · rw [husent, hsent, List.append_assoc]
  · rw [huruns, hruns, List.set_set]

theorem reaches_loop (events : List CachedEncryptedEvent) {s : RetryRuns M} {i : Nat}
    (hget : s.runs[i]? = some (.loop events)) :
    s.Reaches env i .finished (s.room.retryEvents env events) := by
  induction events generalizing s with
  | nil => exact reaches_self env hget (.ok ())
  | cons event events ih =>
    have hevent := reaches_decrypting env hget
    unfold CachedRoom.retryEvents
    rcases hretried : s.room.retryCachedEncryptedEvent env event with ⟨_ | _, room, sent⟩
    · rw [hretried] at hevent
      exact hevent
    · rw [hretried] at hevent
      refine reaches_trans env (List.getElem?_eq_some_iff.mp hget).1 hevent fun t hroom ht => ?_
      rw [← (show t.room = room from hroom)]
      exact ih ht

/-- A run that is alone from its start on does what `retry_decryption` does. -/
theorem reaches_retryDecryption {s : RetryRuns M} {i : Nat} {events : Option (List String)}
    (hget : s.runs[i]? = some (.spawned events)) :
    s.Reaches env i .finished (s.room.retryDecryption env events) :=
  reaches_of_step env (step_advance env hget rfl) rfl (List.append_nil _) rfl
    (reaches_loop env _ (getElem?_set_of_some hget _))

end Runs

/-! ## A run of runs -/

def encryptedHello : EncryptedEvent := ⟨"$hello", "@alice:hs", 10, "…"⟩

/-- The event as it is fetched, and as it is decrypted later. -/
def hiddenHello : TimelineEvent := ⟨.unableToDecrypt (.ok encryptedHello) none, none⟩

def decryptedHello : TimelineEvent :=
  ⟨.decrypted (.ok (.messageLike (.roomMessage (.original
    ⟨"$hello", "@alice:hs", 10, "!r", ⟨.text "Hello", none, none⟩⟩)))), none⟩

/-- The loop and a report start a run each, which take the event before one of them decrypts it. -/
def overlappingRuns : List RetryAction :=
  [.fetch hiddenHello, .spawn none, .spawn (some ["$hello"]), .advance 0, .advance 1,
    .decrypted 0 (some decryptedHello), .decrypted 1 (some decryptedHello),
    .advance 0, .advance 1, .advance 0, .advance 1, .advance 0, .advance 1]

/-- Both runs send a change of the one placeholder. -/
theorem placeholder_resolved_twice :
    ((retryRuns (RoomEnv.bare "!r")).run (.start ()) overlappingRuns).map
        (fun s => (s.placeholders.count "$hello", s.sent.map (·.event)))
      = some (1, List.replicate 2 (.changed { MessageChangeEvent.new "!r" "$hello" with
          content := some (.text "Hello")
          isEncrypted := some false })) := by
  decide +kernel

/-- The second run starts when the first has decrypted the event. -/
def successiveRuns : List RetryAction :=
  [.fetch hiddenHello, .spawn none, .advance 0, .decrypted 0 (some decryptedHello),
    .spawn (some ["$hello"]), .advance 1, .advance 0, .advance 0, .advance 0]

theorem isSome_successiveRuns :
    ((retryRuns (RoomEnv.bare "!r")).run (.start ()) successiveRuns).isSome := by
  decide +kernel

theorem resolved_at_most_once_successive :
    ∃ s, (retryRuns (RoomEnv.bare "!r")).run (.start ()) successiveRuns = some s ∧
      s.sent.length = 1 ∧ s.sent.countP (Sent.resolves "$hello") ≤ 1 := by
  have hrun := (Option.some_get isSome_successiveRuns).symm
  have hsent : (Option.get _ isSome_successiveRuns).sent.length = 1 := by decide +kernel
  have hplaceholder : (Option.get _ isSome_successiveRuns).placeholders.count "$hello" = 1 := by
    decide +kernel
  have honce := ((resolved_at_most_once (RoomEnv.bare "!r") (by decide +kernel) hrun).1 "$hello").1
  exact ⟨_, hrun, hsent, hplaceholder ▸ honce⟩

end GoudaMatrix.MemoryCache
