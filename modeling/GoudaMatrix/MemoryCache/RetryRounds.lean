/-
  What the loop of `RetryLoop` comes to, whatever its runs interleave with.

  A run ends at the first event that is decrypted to a poll of an unknown kind, but takes this poll
  off the list before, so that there are only so many runs that fail. `retries_resolve`: an event
  whose key has come is resolved after more rounds of the loop than there are such polls, cached at
  first or fetched in the meantime. `polls_unresolved`: the placeholders of these polls stay.
-/
import Mathlib.Data.Finset.Card
import GoudaMatrix.Lib.Trace
import GoudaMatrix.MemoryCache.Delivery
import GoudaMatrix.MemoryCache.RetryLoop
import GoudaMatrix.MemoryCache.RetryView

namespace GoudaMatrix.MemoryCache

open GoudaMatrix.Lib GoudaMatrix.Ruma

/-! ## What is decrypted -/

/-- The event is decrypted to a poll of an unknown kind. -/
def failsAs (plain : String → Raw AnyTimelineEvent) (eventId : String) : Bool :=
  startsUnknownPoll ⟨.decrypted (plain eventId), none⟩

/-- What `decrypt_event` may return for an event: what the event is decrypted to, if it can be. -/
def MayReturn (plain : String → Raw AnyTimelineEvent) (eventId : String)
    (result : Option TimelineEvent) : Prop :=
  ∀ event ∈ result, isUnableToDecrypt event = false → event.kind = .decrypted (plain eventId)

instance (plain : String → Raw AnyTimelineEvent) (eventId : String)
    (result : Option TimelineEvent) : Decidable (MayReturn plain eventId result) :=
  inferInstanceAs (Decidable (∀ _ ∈ _, _ → _))

/-- Every decrypted event keeps its id. -/
def KeepsIds (plain : String → Raw AnyTimelineEvent) : Prop :=
  ∀ eventId id, TimelineEvent.eventId ⟨.decrypted (plain eventId), none⟩ = some id → id = eventId

section Plain

variable {M : Type} {env : RoomEnv M} {plain : String → Raw AnyTimelineEvent}

theorem startsUnknownPoll_of_kind {event : TimelineEvent} {eventId : String}
    (h : event.kind = .decrypted (plain eventId)) :
    startsUnknownPoll event = failsAs plain eventId := by
  unfold failsAs startsUnknownPoll
  rw [h]

theorem KeepsIds.ok (h : KeepsIds plain) {eventId : String} {e : AnyTimelineEvent}
    (hplain : plain eventId = .ok e) : e.header.eventId = eventId :=
  h eventId _ (by rw [hplain]; rfl)

theorem KeepsIds.malformed (h : KeepsIds plain) {eventId id : String}
    (hplain : plain eventId = .malformed (some id)) : id = eventId :=
  h eventId id (by rw [hplain]; rfl)

/-- What a run goes on with once `decrypt_event` has returned. -/
inductive DecryptedTo (env : RoomEnv M) (plain : String → Raw AnyTimelineEvent)
    (room : CachedRoom M) (eventId : String) (rest : List CachedEncryptedEvent) :
    CachedRoom M × RetryStage → Prop
  | next : DecryptedTo env plain room eventId rest (room, .loop rest)
  | unreadable (hplain : plain eventId = .malformed (some eventId)) :
    DecryptedTo env plain room eventId rest
      (room, .sending eventId [redactEncryptedMessage env eventId] rest)
  | read {e : AnyTimelineEvent} (hplain : plain eventId = .ok e) (timestamp : Option Nat) :
    DecryptedTo env plain room eventId rest
      (room.removeEncryptedEvent eventId,
        .loading eventId ⟨.decrypted (plain eventId), timestamp⟩ rest)

theorem decryptedTo_onDecrypted (hids : KeepsIds plain) (room : CachedRoom M) {eventId : String}
    (rest : List CachedEncryptedEvent) {result : Option TimelineEvent}
    (hresult : MayReturn plain eventId result) :
    DecryptedTo env plain room eventId rest (room.onDecrypted env rest result) := by
  cases result with
  | none => exact .next
  | some event =>
    obtain ⟨kind, timestamp⟩ := event
    cases kind with
    | unableToDecrypt e sessionId => exact .next
    | plainText e => cases hresult _ rfl rfl
    | decrypted raw =>
      obtain rfl := TimelineEventKind.decrypted.inj (hresult _ rfl rfl)
      cases hplain : plain eventId with
      | malformed id =>
        cases id with
        | none => exact .next
        | some id =>
          obtain rfl := hids.malformed hplain
          exact .unreadable hplain
      | ok e =>
        have hread : DecryptedTo env plain room eventId rest (room.removeEncryptedEvent eventId,
            .loading eventId ⟨.decrypted (plain eventId), timestamp⟩ rest) := .read hplain timestamp
        show DecryptedTo env plain room eventId rest (room.removeEncryptedEvent e.header.eventId,
          .loading e.header.eventId ⟨.decrypted (.ok e), timestamp⟩ rest)
        rw [hids.ok hplain, ← hplain]
        exact hread

/-- An event whose key has come, and that can be read, is taken over. -/
theorem onDecrypted_of_key (hids : KeepsIds plain) (room : CachedRoom M) {eventId : String}
    (rest : List CachedEncryptedEvent) {decrypted : TimelineEvent}
    (hresult : MayReturn plain eventId (some decrypted))
    (hdecrypted : isUnableToDecrypt decrypted = false) {e : AnyTimelineEvent}
    (hplain : plain eventId = .ok e) :
    (room.onDecrypted env rest (some decrypted)).1 = room.removeEncryptedEvent eventId := by
  have hkind := hresult decrypted rfl hdecrypted
  rw [hplain] at hkind
  obtain ⟨kind, timestamp⟩ := decrypted
  obtain rfl : kind = .decrypted (.ok e) := hkind
  rw [← hids.ok hplain]
  rfl

/-! ## Stages of a run -/

/-- The event that a run is processing is one that may have been returned, and what it sends is
    about one that does not fail. -/
def RetryStage.IsPlain (plain : String → Raw AnyTimelineEvent) : RetryStage → Prop
  | .loading eventId event _ | .downloading eventId event _ =>
    event.kind = .decrypted (plain eventId)
  | .sending eventId _ _ => failsAs plain eventId = false
  | .spawned _ | .decrypting _ _ | .finished => True

theorem isPlain_loop (rest : List CachedEncryptedEvent) : (RetryStage.loop rest).IsPlain plain := by
  cases rest <;> trivial

theorem holds_sending_remove (eventId : String) (rest : List CachedEncryptedEvent) :
    (RetryStage.sending eventId [redactEncryptedMessage env eventId] rest).holds eventId
      = true := by
  simp [RetryStage.holds, redactEncryptedMessage, isResolution]

/-- What is sent for a result begins with a resolution. -/
theorem holds_sending_action (action : CachedRoomAction) (rest : List CachedEncryptedEvent) :
    (RetryStage.sending action.eventId (processSuccessfulRedecryption env action) rest).holds
      action.eventId = true := by
  cases action with
  | reaction metadata =>
    simp [RetryStage.holds, CachedRoomAction.eventId, processSuccessfulRedecryption,
      processSuccessfulRedecryptedReaction, redactEncryptedMessage, isResolution]
  | message message =>
    simp only [processSuccessfulRedecryption, processSuccessfulRedecryptedMessage]
    cases message.content with
    | none => exact holds_sending_remove message.messageId rest
    | some content => simp [RetryStage.holds, CachedRoomAction.eventId, isResolution]

/-- An event that does not fail is resolved. -/
theorem finishProcessing_of_known {room : CachedRoom M} {eventId : String} {event : TimelineEvent}
    {rest : List CachedEncryptedEvent} (hid : event.eventId = some eventId)
    (hdecrypted : isUnableToDecrypt event = false) (hknown : startsUnknownPoll event = false) :
    ∃ pending, (room.finishProcessing env eventId event rest).2 = .sending eventId pending rest ∧
      (RetryStage.sending eventId pending rest).holds eventId = true := by
  have hfailed : (effectOf env event room.media).1 ≠ .failed := by
    rw [Ne, effectOf_failed_iff, hknown]
    exact Bool.false_ne_true
  unfold CachedRoom.finishProcessing
  cases hperform : CachedRoom.perform env { room with media := (effectOf env event room.media).2 }
      (effectOf env event room.media).1 with
  | mk result performed =>
    match result, hperform with
    | .error e, hperform =>
      generalize (effectOf env event room.media).1 = effect at hfailed hperform
      cases effect with
      | failed => exact absurd rfl hfailed
      | ignored | assembled | replaced | redacted | reacted | pollReplaced | pollAnswered
      | pollEnded | undecryptable => cases hperform
    | .ok none, _ => exact ⟨_, rfl, holds_sending_remove eventId rest⟩
    | .ok (some action), hperform =>
      have haction : (RetryStage.sending action.eventId (processSuccessfulRedecryption env action)
          rest).holds action.eventId = true := holds_sending_action action rest
      rw [id_of_perform env hid hdecrypted hperform] at haction
      exact ⟨_, rfl, haction⟩

/-- An event that fails ends the run. -/
theorem finishProcessing_of_unknown {room : CachedRoom M} {eventId : String} {event : TimelineEvent}
    {rest : List CachedEncryptedEvent} (hunknown : startsUnknownPoll event = true) :
    (room.finishProcessing env eventId event rest).2 = .finished := by
  unfold CachedRoom.finishProcessing
  rw [(effectOf_failed_iff room).mpr hunknown]
  rfl

/-- A stage that a run can be in. -/
structure RetryStage.Sound (plain : String → Raw AnyTimelineEvent) (stage : RetryStage) : Prop where
  ok : stage.Ok
  plain : stage.IsPlain plain

theorem sound_loop (rest : List CachedEncryptedEvent) : (RetryStage.loop rest).Sound plain :=
  ⟨RetryStage.ok_loop rest, isPlain_loop rest⟩

def RetryStage.isFinished : RetryStage → Bool
  | .finished => true
  | _ => false

/-- How many resolutions a run is going to send next. -/
def RetryStage.held (eventId : String) (stage : RetryStage) : Nat :=
  if stage.holds eventId then 1 else 0

theorem held_of_holds {stage : RetryStage} {eventId : String} (h : stage.holds eventId = true) :
    stage.held eventId = 1 := if_pos h

theorem held_le_one (stage : RetryStage) (eventId : String) : stage.held eventId ≤ 1 := by
  unfold RetryStage.held
  split <;> omega

/-- What has been sent is about an event that does not fail, and names its message. -/
structure Sent.IsKnown (plain : String → Raw AnyTimelineEvent) (sent : Sent) : Prop where
  known : failsAs plain sent.eventId = false
  names : NamesMessage sent.eventId sent.event

/-- What a run does between two awaits: it takes no event off the list, and what it is going to
    resolve, it resolves. -/
structure Advances (plain : String → Raw AnyTimelineEvent) (stage stage' : RetryStage)
    (room room' : CachedRoom M) (sent : List Sent) : Prop where
  encrypted : room'.encryptedEvents = room.encryptedEvents
  sound : stage'.Sound plain
  known : ∀ x ∈ sent, x.IsKnown plain
  resolved : ∀ id, failsAs plain id = false →
    stage.held id ≤ stage'.held id + sent.countP (Sent.resolves id)

theorem advances_finish {room room' : CachedRoom M} {eventId : String} {event : TimelineEvent}
    {rest : List CachedEncryptedEvent} {stage : RetryStage}
    (h : (RetryStage.downloading eventId event rest).Sound plain)
    (hfinish : room.finishProcessing env eventId event rest = (room', stage)) :
    Advances plain (.downloading eventId event rest) stage room room' [] := by
  obtain ⟨hid, hdecrypted⟩ := h.ok
  obtain ⟨hencrypted, hok, -⟩ := finishProcessing_spec env hid hdecrypted hfinish
  have hfails := startsUnknownPoll_of_kind h.plain
  cases hunknown : startsUnknownPoll event with
  | true =>
    have hstage : (room.finishProcessing env eventId event rest).2 = .finished :=
      finishProcessing_of_unknown hunknown
    rw [hfinish] at hstage
    obtain rfl : stage = .finished := hstage
    refine ⟨hencrypted, ⟨hok, trivial⟩, List.forall_mem_nil _, fun id hknown => ?_⟩
    have hne : eventId ≠ id := by
      rintro rfl
      rw [← hfails, hunknown] at hknown
      cases hknown
    simp [RetryStage.held, RetryStage.holds, hne]
  | false =>
    obtain ⟨pending, hstage, hholds⟩ : ∃ pending,
        (room.finishProcessing env eventId event rest).2 = .sending eventId pending rest ∧
          (RetryStage.sending eventId pending rest).holds eventId = true :=
      finishProcessing_of_known hid hdecrypted hunknown
    rw [hfinish] at hstage
    obtain rfl : stage = .sending eventId pending rest := hstage
    refine ⟨hencrypted, ⟨hok, hfails.symm.trans hunknown⟩, List.forall_mem_nil _, fun id _ => ?_⟩
    by_cases heq : eventId = id
    · subst heq
      rw [held_of_holds hholds]
      exact Nat.le_trans (held_le_one _ _) (Nat.le_add_right _ _)
    · simp [RetryStage.held, RetryStage.holds, heq]

theorem advances_sending {eventId : String} {event : MessageEvent} {pending : List MessageEvent}
    {rest : List CachedEncryptedEvent}
    (h : (RetryStage.sending eventId (event :: pending) rest).Sound plain) (room : CachedRoom M) :
    Advances plain (.sending eventId (event :: pending) rest) (.sending eventId pending rest)
      room room [⟨eventId, event⟩] := by
  refine ⟨rfl, ⟨?_, h.plain⟩, List.forall_mem_singleton.mpr ⟨h.plain, ?_⟩, fun id _ => ?_⟩
  · cases h.ok with
    | change _ | remove _ => exact .nothing
    | removeAndReaction _ reaction => exact .reaction reaction
    | reaction _ => exact .nothing
  · exact Delivery.names_of_pending h.ok event List.mem_cons_self
  · have hsent : (RetryStage.sending eventId (event :: pending) rest).held id
        = [(⟨eventId, event⟩ : Sent)].countP (Sent.resolves id) := by
      rw [List.countP_singleton]
      rfl
    rw [hsent]
    exact Nat.le_add_left _ _

theorem advances_of_advance {room room' : CachedRoom M} {stage stage' : RetryStage}
    {sent : List Sent} (h : stage.Sound plain)
    (hadvance : stage.advance env room = some (room', stage', sent)) :
    Advances plain stage stage' room room' sent := by
  cases stage with
  | spawned events =>
    obtain ⟨rfl, rfl, rfl⟩ := hadvance
    exact ⟨rfl, sound_loop _, List.forall_mem_nil _, fun id _ => Nat.zero_le _⟩
  | decrypting event rest | finished => cases hadvance
  | loading eventId event rest =>
    simp only [RetryStage.advance] at hadvance
    cases hread : readable event with
    | none =>
      rw [hread] at hadvance
      cases hadvance
    | some e =>
      rw [hread] at hadvance
      obtain ⟨rfl, rfl, rfl⟩ := hadvance
      exact ⟨rfl, ⟨h.ok, h.plain⟩, List.forall_mem_nil _, fun id _ => Nat.le_refl _⟩
  | downloading eventId event rest =>
    cases hfinish : room.finishProcessing env eventId event rest with
    | mk finished stage =>
      simp only [RetryStage.advance, hfinish] at hadvance
      obtain ⟨rfl, rfl, rfl⟩ := hadvance
      exact advances_finish h hfinish
  | sending eventId pending rest =>
    cases pending with
    | nil =>
      obtain ⟨rfl, rfl, rfl⟩ := hadvance
      exact ⟨rfl, sound_loop rest, List.forall_mem_nil _, fun id _ => Nat.zero_le _⟩
    | cons event pending =>
      obtain ⟨rfl, rfl, rfl⟩ := hadvance
      exact advances_sending h room

end Plain

/-! ## Steps of a room -/

namespace RetryRuns

variable {M : Type} {env : RoomEnv M} {plain : String → Raw AnyTimelineEvent}
  {s t : RetryRuns M} {a : RetryAction} {eventId : String}

/-- The event that a run waits to be decrypted. -/
def awaited (s : RetryRuns M) (i : Nat) : Option CachedEncryptedEvent :=
  match s.runs[i]? with
  | some (.decrypting event _) => some event
  | _ => none

theorem awaited_of_get {i : Nat} {event : CachedEncryptedEvent} {rest : List CachedEncryptedEvent}
    (h : s.runs[i]? = some (.decrypting event rest)) : s.awaited i = some event := by
  unfold awaited
  rw [h]

/-- `decrypt_event` returns what it may. -/
def Decrypts (plain : String → Raw AnyTimelineEvent) (s : RetryRuns M) : RetryAction → Prop
  | .decrypted i result => ∀ event ∈ s.awaited i, MayReturn plain event.event.eventId result
  | .spawn _ | .fetch _ | .advance _ => True

/-- The key of the event has come, and the event is not fetched again. -/
def HasKey (eventId : String) (s : RetryRuns M) : RetryAction → Prop
  | .decrypted i result =>
    ∀ event ∈ s.awaited i, event.event.eventId = eventId →
      result.map isUnableToDecrypt = some false
  | .fetch event => event.eventId ≠ some eventId
  | .spawn _ | .advance _ => True

instance (s : RetryRuns M) (a : RetryAction) : Decidable (s.Decrypts plain a) :=
  match a with
  | .decrypted _ _ => inferInstanceAs (Decidable (∀ _ ∈ _, MayReturn _ _ _))
  | .spawn _ | .fetch _ | .advance _ => isTrue trivial

instance (s : RetryRuns M) (a : RetryAction) : Decidable (s.HasKey eventId a) :=
  match a with
  | .decrypted _ _ => inferInstanceAs (Decidable (∀ _ ∈ _, _ → _))
  | .fetch _ => inferInstanceAs (Decidable (_ ≠ _))
  | .spawn _ | .advance _ => isTrue trivial

structure Sound (plain : String → Raw AnyTimelineEvent) (s : RetryRuns M) : Prop where
  /-- An event is cached under its own id. -/
  keys : ∀ id e, s.room.encryptedEvents.lookup id = some e → e.event.eventId = id
  stages : ∀ stage ∈ s.runs, stage.Sound plain
  sent : ∀ x ∈ s.sent, x.IsKnown plain

theorem sound_start (media : M) : (start media).Sound plain where
  keys := fun id e h => by cases h
  stages := List.forall_mem_nil _
  sent := List.forall_mem_nil _

/-- What a step of a room can do. -/
inductive Steps (env : RoomEnv M) (plain : String → Raw AnyTimelineEvent) (s : RetryRuns M) :
    RetryAction → RetryRuns M → Prop
  | spawn (events : Option (List String)) : Steps env plain s (.spawn events) (s.spawn events)
  | fetch (event : TimelineEvent) :
    Steps env plain s (.fetch event) ⟨(s.room.processTimelineEvent env event).2, s.runs, s.sent,
      placeholderOf event ++ s.placeholders⟩
  | decrypted {i : Nat} {event : CachedEncryptedEvent} {rest : List CachedEncryptedEvent}
      {result : Option TimelineEvent} {room : CachedRoom M} {stage : RetryStage}
      (hget : s.runs[i]? = some (.decrypting event rest))
      (hreturn : MayReturn plain event.event.eventId result)
      (hresult : s.room.onDecrypted env rest result = (room, stage))
      (h : DecryptedTo env plain s.room event.event.eventId rest (room, stage)) :
    Steps env plain s (.decrypted i result) ⟨room, s.runs.set i stage, s.sent, s.placeholders⟩
  | advance {i : Nat} {stage stage' : RetryStage} {room : CachedRoom M} {sent : List Sent}
      (hget : s.runs[i]? = some stage)
      (hadvance : stage.advance env s.room = some (room, stage', sent))
      (h : Advances plain stage stage' s.room room sent) :
    Steps env plain s (.advance i) ⟨room, s.runs.set i stage', s.sent ++ sent, s.placeholders⟩

theorem steps_of_step (hids : KeepsIds plain) (hs : s.Sound plain) (hplain : s.Decrypts plain a)
    (hstep : (retryRuns env).step s a = some t) : Steps env plain s a t := by
  cases a with
  | spawn events =>
    obtain rfl := Option.some.inj hstep
    exact .spawn events
  | fetch event =>
    obtain rfl := Option.some.inj hstep
    exact .fetch event
  | decrypted i result =>
    simp only [retryRuns] at hstep
    split at hstep
    · next event rest hget =>
      have hreturn := hplain event (awaited_of_get hget)
      have hto : DecryptedTo env plain s.room event.event.eventId rest
          (s.room.onDecrypted env rest result) := decryptedTo_onDecrypted hids s.room rest hreturn
      cases hresult : s.room.onDecrypted env rest result with
      | mk room stage =>
        rw [hresult] at hstep hto
        obtain rfl := Option.some.inj hstep
        exact .decrypted hget hreturn hresult hto
    · cases hstep
  | advance i =>
    simp only [retryRuns] at hstep
    split at hstep
    · cases hstep
    · next stage hget =>
      split at hstep
      · cases hstep
      · next room stage' sent hadvance =>
        obtain rfl := Option.some.inj hstep
        exact .advance hget hadvance
          (advances_of_advance (hs.stages stage (List.mem_of_getElem? hget)) hadvance)

theorem sound_set (hs : s.Sound plain) (i : Nat) {stage : RetryStage} (hstage : stage.Sound plain) :
    ∀ stage' ∈ s.runs.set i stage, stage'.Sound plain := by
  intro stage' hmem
  rcases List.mem_or_eq_of_mem_set hmem with hmem | rfl
  · exact hs.stages stage' hmem
  · exact hstage

theorem sound_decryptedTo (hids : KeepsIds plain) {room room' : CachedRoom M}
    {rest : List CachedEncryptedEvent} {stage : RetryStage}
    (h : DecryptedTo env plain room eventId rest (room', stage)) : stage.Sound plain := by
  cases h with
  | next => exact sound_loop rest
  | unreadable hplain =>
    refine ⟨(sending_remove env eventId rest).1, ?_⟩
    show startsUnknownPoll ⟨.decrypted (plain eventId), none⟩ = false
    rw [hplain]
    rfl
  | read hplain timestamp =>
    refine ⟨⟨?_, rfl⟩, rfl⟩
    rw [hplain]
    exact congrArg some (hids.ok hplain)

/-- A fetched event is cached under its own id as well. -/
theorem keys_fetch {room : CachedRoom M}
    (h : ∀ id e, room.encryptedEvents.lookup id = some e → e.event.eventId = id)
    (event : TimelineEvent) (id : String) (e : CachedEncryptedEvent)
    (hlookup : (room.processTimelineEvent env event).2.encryptedEvents.lookup id = some e) :
    e.event.eventId = id := by
  rw [Delivery.lookup_encryptedEvents_process] at hlookup
  split at hlookup
  · split at hlookup
    · next heq =>
      obtain rfl := Option.some.inj hlookup
      exact heq.symm
    · exact h id e hlookup
  · split at hlookup
    · cases hlookup
    · exact h id e hlookup
  · exact h id e hlookup

theorem sound_step (hids : KeepsIds plain) (hs : s.Sound plain) (h : Steps env plain s a t) :
    t.Sound plain := by
  cases h with
  | spawn events =>
    refine ⟨hs.keys, fun stage hmem => ?_, hs.sent⟩
    rcases List.mem_append.mp hmem with hmem | hmem
    · exact hs.stages stage hmem
    · rw [List.mem_singleton.mp hmem]
      exact ⟨trivial, trivial⟩
  | fetch event => exact ⟨keys_fetch hs.keys event, hs.stages, hs.sent⟩
  | @decrypted i event rest result room stage hget hreturn hresult h =>
    refine ⟨fun id e hlookup => hs.keys id e ?_, sound_set hs i (sound_decryptedTo hids h),
      hs.sent⟩
    cases h with
    | next | unreadable _ => exact hlookup
    | read hplain timestamp =>
      have hmem : id ∈ s.room.encryptedEvents.erase event.event.eventId :=
        AList.lookup_isSome.mp (Option.isSome_iff_exists.mpr ⟨e, hlookup⟩)
      exact (AList.lookup_erase_ne (AList.mem_erase.mp hmem).1).symm.trans hlookup
  | advance hget hadvance h =>
    refine ⟨fun id e hlookup => hs.keys id e ?_, sound_set hs _ h.sound,
      List.forall_mem_append.mpr ⟨hs.sent, h.known⟩⟩
    rwa [h.encrypted] at hlookup

/-! ### Resolutions -/

/-- The resolutions of a placeholder that have been sent, and those that runs are about to send. -/
def resolutions (s : RetryRuns M) (eventId : String) : Nat :=
  s.runs.countP (RetryStage.holds eventId) + s.sent.countP (Sent.resolves eventId)

/-- The event is among those to decrypt. -/
def Lists (s : RetryRuns M) (eventId : String) : Prop := eventId ∈ s.room.encryptedEvents

instance (s : RetryRuns M) (eventId : String) : Decidable (s.Lists eventId) :=
  inferInstanceAs (Decidable (eventId ∈ s.room.encryptedEvents))

theorem countP_holds_set {i : Nat} {stage : RetryStage} (hget : s.runs[i]? = some stage)
    (stage' : RetryStage) (eventId : String) :
    (s.runs.set i stage').countP (RetryStage.holds eventId) + stage.held eventId
      = s.runs.countP (RetryStage.holds eventId) + stage'.held eventId :=
  countP_set_add hget stage' (RetryStage.holds eventId)

theorem resolutions_decrypted {i : Nat} {event : CachedEncryptedEvent}
    {rest : List CachedEncryptedEvent} (hget : s.runs[i]? = some (.decrypting event rest))
    (room : CachedRoom M) (stage : RetryStage) (eventId : String) :
    resolutions ⟨room, s.runs.set i stage, s.sent, s.placeholders⟩ eventId
      = s.resolutions eventId + stage.held eventId := by
  have hcount := countP_holds_set hget stage eventId
  have hnone : (RetryStage.decrypting event rest).held eventId = 0 := rfl
  unfold resolutions
  dsimp only
  omega

/-- When all runs have finished, what is to be resolved has been. -/
theorem resolutions_of_finished (h : ∀ stage ∈ s.runs, stage.isFinished = true)
    (eventId : String) : s.resolutions eventId = s.sent.countP (Sent.resolves eventId) := by
  have hnone : s.runs.countP (RetryStage.holds eventId) = 0 := by
    refine List.countP_eq_zero.mpr fun stage hmem hholds => ?_
    have hfinished := h stage hmem
    cases stage with
    | finished => cases hholds
    | spawned _ | decrypting _ _ | loading _ _ _ | downloading _ _ _ | sending _ _ _ =>
      cases hfinished
  unfold resolutions
  rw [hnone, Nat.zero_add]

theorem resolutions_le (h : Steps env plain s a t) (hknown : failsAs plain eventId = false) :
    s.resolutions eventId ≤ t.resolutions eventId := by
  cases h with
  | spawn events =>
    unfold resolutions spawn
    dsimp only
    rw [List.countP_append]
    omega
  | fetch event => exact Nat.le_refl _
  | decrypted hget hreturn hresult h =>
    rw [resolutions_decrypted hget]
    exact Nat.le_add_right _ _
  | @advance i stage stage' room sent hget hadvance h =>
    have hcount := countP_holds_set hget stage' eventId
    have hresolved := h.resolved eventId hknown
    unfold resolutions
    dsimp only
    rw [List.countP_append]
    omega

/-- Another event that is fetched leaves the event where it is. -/
theorem lookup_fetch (room : CachedRoom M) {event : TimelineEvent}
    (h : event.eventId ≠ some eventId) :
    (room.processTimelineEvent env event).2.encryptedEvents.lookup eventId
      = room.encryptedEvents.lookup eventId := by
  rw [Delivery.lookup_encryptedEvents_process]
  obtain ⟨kind, timestamp⟩ := event
  cases kind with
  | unableToDecrypt e sessionId =>
    cases e with
    | malformed id => rfl
    | ok e =>
      refine if_neg ?_
      rintro rfl
      exact h rfl
  | decrypted e =>
    cases e with
    | malformed id => rfl
    | ok e =>
      refine if_neg ?_
      rintro rfl
      exact h rfl
  | plainText e => cases e <;> rfl

theorem lists_iff_of_lookup
    (h : t.room.encryptedEvents.lookup eventId = s.room.encryptedEvents.lookup eventId) :
    t.Lists eventId ↔ s.Lists eventId := by
  unfold Lists
  rw [← AList.lookup_isSome, ← AList.lookup_isSome, h]

/-- An event leaves the list by being decrypted, or stays there. -/
theorem lists_step (h : Steps env plain s a t) (hkey : s.HasKey eventId a) :
    (t.Lists eventId ↔ s.Lists eventId) ∨
      ¬ t.Lists eventId ∧ s.resolutions eventId < t.resolutions eventId := by
  cases h with
  | spawn events => exact .inl Iff.rfl
  | fetch event => exact .inl (lists_iff_of_lookup (lookup_fetch s.room hkey))
  | @decrypted i event rest result room stage hget hreturn hresult h =>
    rw [resolutions_decrypted hget]
    cases h with
    | next | unreadable _ => exact .inl Iff.rfl
    | read hplain timestamp =>
      by_cases heq : event.event.eventId = eventId
      · subst heq
        refine .inr ⟨fun hmem => (AList.mem_erase.mp hmem).1 rfl, ?_⟩
        have hholds : (RetryStage.loading event.event.eventId
            ⟨.decrypted (plain event.event.eventId), timestamp⟩ rest).holds event.event.eventId
              = true := decide_eq_true rfl
        rw [held_of_holds hholds]
        exact Nat.lt_succ_self _
      · exact .inl (lists_iff_of_lookup (AList.lookup_erase_ne (Ne.symm heq)))
  | advance hget hadvance h =>
    unfold Lists
    rw [h.encrypted]
    exact .inl Iff.rfl

end RetryRuns

/-! ### Polls of an unknown kind -/

/-- The events to decrypt that a step adds to the list. -/
def RetryAction.fetched : RetryAction → List String
  | .fetch event => placeholderOf event
  | .spawn _ | .decrypted _ _ | .advance _ => []

/-- Those of them that are decrypted to a poll of an unknown kind. -/
def RetryAction.pollsFetched (plain : String → Raw AnyTimelineEvent) (a : RetryAction) :
    List String := a.fetched.filter (failsAs plain)

namespace RetryRuns

variable {M : Type} {env : RoomEnv M} {plain : String → Raw AnyTimelineEvent}
  {s t : RetryRuns M} {a : RetryAction} {eventId : String}

/-- The polls of an unknown kind among the events to decrypt. -/
def pollIds (plain : String → Raw AnyTimelineEvent) (s : RetryRuns M) : Finset String :=
  s.room.encryptedEvents.keys.toFinset.filter fun eventId => failsAs plain eventId = true

theorem mem_pollIds : eventId ∈ s.pollIds plain ↔
    s.Lists eventId ∧ failsAs plain eventId = true := by
  unfold pollIds
  rw [Finset.mem_filter, List.mem_toFinset]
  rfl

theorem lists_of_step (h : Steps env plain s a t) (hlists : t.Lists eventId) :
    s.Lists eventId ∨ eventId ∈ a.fetched := by
  cases h with
  | spawn events => exact .inl hlists
  | fetch event => exact (Delivery.mem_encryptedEvents_process s.room event hlists).symm
  | @decrypted i event rest result room stage hget hreturn hresult h =>
    cases h with
    | next | unreadable _ => exact .inl hlists
    | read hplain timestamp => exact .inl (AList.mem_erase.mp hlists).2
  | advance hget hadvance h =>
    unfold Lists at hlists
    rw [h.encrypted] at hlists
    exact .inl hlists

theorem pollIds_subset (h : Steps env plain s a t) :
    t.pollIds plain ⊆ s.pollIds plain ∪ (a.pollsFetched plain).toFinset := by
  intro id hid
  obtain ⟨hlists, hfails⟩ := mem_pollIds.mp hid
  rw [Finset.mem_union, List.mem_toFinset]
  exact (lists_of_step h hlists).imp (fun hlists => mem_pollIds.mpr ⟨hlists, hfails⟩)
    fun hfetched => List.mem_filter.mpr ⟨hfetched, hfails⟩

theorem card_pollIds_le (h : Steps env plain s a t) :
    (t.pollIds plain).card ≤ (s.pollIds plain).card + (a.pollsFetched plain).length := by
  have hcard := Finset.card_le_card (pollIds_subset h)
  have hunion := Finset.card_union_le (s.pollIds plain) (a.pollsFetched plain).toFinset
  have hfetched := List.toFinset_card_le (a.pollsFetched plain)
  omega

/-- A poll that is taken off the list makes it shorter. -/
theorem card_pollIds_lt (h : Steps env plain s a t) (hfails : failsAs plain eventId = true)
    (hlists : s.Lists eventId) (hunlisted : ¬ t.Lists eventId) :
    (t.pollIds plain).card + 1 ≤ (s.pollIds plain).card + (a.pollsFetched plain).length := by
  have hmem : eventId ∈ s.pollIds plain := mem_pollIds.mpr ⟨hlists, hfails⟩
  have hsubset : insert eventId (t.pollIds plain)
      ⊆ s.pollIds plain ∪ (a.pollsFetched plain).toFinset :=
    Finset.insert_subset (Finset.mem_union_left _ hmem) (pollIds_subset h)
  have hcard := Finset.card_le_card hsubset
  rw [Finset.card_insert_of_notMem fun hid => hunlisted (mem_pollIds.mp hid).1] at hcard
  have hunion := Finset.card_union_le (s.pollIds plain) (a.pollsFetched plain).toFinset
  have hfetched := List.toFinset_card_le (a.pollsFetched plain)
  omega

/-! ### A run that is going to decrypt the event -/

/-- The events that a run has left: the event is one of them, and the polls are still on the
    list. -/
structure Covers (plain : String → Raw AnyTimelineEvent) (eventId : String) (s : RetryRuns M)
    (events : List CachedEncryptedEvent) : Prop where
  event : ∃ event ∈ events, event.event.eventId = eventId
  polls : ∀ event ∈ events, failsAs plain event.event.eventId = true → s.Lists event.event.eventId

/-- The run is going to decrypt the event. -/
def Goes (plain : String → Raw AnyTimelineEvent) (eventId : String) (s : RetryRuns M) :
    RetryStage → Prop
  | .spawned events => events = none
  | .decrypting event rest => Covers plain eventId s (event :: rest)
  | .loading id _ rest | .downloading id _ rest =>
    failsAs plain id = false ∧ Covers plain eventId s rest
  | .sending _ _ rest => Covers plain eventId s rest
  | .finished => False

/-- No poll has been taken off the list. -/
def PollsStay (plain : String → Raw AnyTimelineEvent) (s t : RetryRuns M) : Prop :=
  ∀ id, failsAs plain id = true → s.Lists id → t.Lists id

theorem Covers.stay {events : List CachedEncryptedEvent} (h : Covers plain eventId s events)
    (hstay : PollsStay plain s t) : Covers plain eventId t events :=
  ⟨h.event, fun event hmem hfails => hstay _ hfails (h.polls event hmem hfails)⟩

theorem Covers.goes_loop {events : List CachedEncryptedEvent} (h : Covers plain eventId s events) :
    Goes plain eventId s (.loop events) := by
  cases events with
  | nil =>
    obtain ⟨event, hmem, -⟩ := h.event
    cases hmem
  | cons event rest => exact h

theorem Goes.stay {stage : RetryStage} (h : Goes plain eventId s stage)
    (hstay : PollsStay plain s t) : Goes plain eventId t stage := by
  cases stage with
  | spawned events => exact h
  | decrypting event rest => exact Covers.stay h hstay
  | loading id event rest | downloading id event rest => exact ⟨h.1, Covers.stay h.2 hstay⟩
  | sending id pending rest => exact Covers.stay h hstay
  | finished => exact h

/-- A run of all events takes the event and the polls that are on the list. -/
theorem covers_getEvents (hs : s.Sound plain) (hlists : s.Lists eventId) :
    Covers plain eventId s (s.room.getEventsForRedecryption env none) := by
  constructor
  · obtain ⟨event, hlookup⟩ := Option.isSome_iff_exists.mp (AList.lookup_isSome.mpr hlists)
    exact ⟨event, mem_getEventsForRedecryption.mpr ⟨eventId, hlookup, fun _ => nofun⟩,
      hs.keys eventId event hlookup⟩
  · intro event hmem _
    obtain ⟨id, hlookup, -⟩ := mem_getEventsForRedecryption.mp hmem
    rw [hs.keys id event hlookup]
    exact AList.lookup_isSome.mp (Option.isSome_iff_exists.mpr ⟨event, hlookup⟩)

theorem goes_advance {stage stage' : RetryStage} {room : CachedRoom M} {sent : List Sent}
    (hs : s.Sound plain) (hstage : stage.Sound plain) (hlists : s.Lists eventId)
    (hgoes : Goes plain eventId s stage)
    (hadvance : stage.advance env s.room = some (room, stage', sent)) :
    Goes plain eventId s stage' := by
  cases stage with
  | spawned events =>
    obtain rfl : events = none := hgoes
    obtain ⟨rfl, rfl, rfl⟩ := hadvance
    exact (covers_getEvents hs hlists).goes_loop
  | decrypting event rest | finished => cases hadvance
  | loading id event rest =>
    simp only [RetryStage.advance] at hadvance
    cases hread : readable event with
    | none =>
      rw [hread] at hadvance
      cases hadvance
    | some e =>
      rw [hread] at hadvance
      obtain ⟨rfl, rfl, rfl⟩ := hadvance
      exact hgoes
  | downloading id event rest =>
    obtain ⟨hid, hdecrypted⟩ := hstage.ok
    have hknown : startsUnknownPoll event = false :=
      (startsUnknownPoll_of_kind hstage.plain).trans hgoes.1
    obtain ⟨pending, hfinish, -⟩ : ∃ pending,
        (s.room.finishProcessing env id event rest).2 = .sending id pending rest ∧
          (RetryStage.sending id pending rest).holds id = true :=
      finishProcessing_of_known hid hdecrypted hknown
    simp only [RetryStage.advance] at hadvance
    obtain ⟨rfl, rfl, rfl⟩ := hadvance
    rw [hfinish]
    exact hgoes.2
  | sending id pending rest =>
    cases pending with
    | nil =>
      obtain ⟨rfl, rfl, rfl⟩ := hadvance
      exact Covers.goes_loop hgoes
    | cons event pending =>
      obtain ⟨rfl, rfl, rfl⟩ := hadvance
      exact hgoes

/-- The run goes on, unless it decrypts the event or a poll. -/
theorem goes_decrypted (hids : KeepsIds plain) {e : AnyTimelineEvent}
    (hread : plain eventId = .ok e)
    {event : CachedEncryptedEvent} {rest : List CachedEncryptedEvent}
    {result : Option TimelineEvent} {stage : RetryStage}
    (hkey : event.event.eventId = eventId → result.map isUnableToDecrypt = some false)
    (hreturn : MayReturn plain event.event.eventId result)
    (hresult : s.room.onDecrypted env rest result = (t.room, stage))
    (h : DecryptedTo env plain s.room event.event.eventId rest (t.room, stage))
    (hlists : t.Lists eventId) (hstay : PollsStay plain s t)
    (hcovers : Covers plain eventId s (event :: rest)) : Goes plain eventId t stage := by
  have hne : event.event.eventId ≠ eventId := by
    intro heq
    obtain ⟨decrypted, rfl, hdecrypted⟩ := Option.map_eq_some_iff.mp (hkey heq)
    have hroom : (s.room.onDecrypted env rest (some decrypted)).1
        = s.room.removeEncryptedEvent event.event.eventId :=
      onDecrypted_of_key hids s.room rest hreturn hdecrypted (heq.symm ▸ hread)
    rw [hresult, heq] at hroom
    have hmem : eventId ∈ (s.room.removeEncryptedEvent eventId).encryptedEvents := hroom ▸ hlists
    exact (AList.mem_erase.mp hmem).1 rfl
  have hrest : Covers plain eventId t rest := by
    refine Covers.stay ⟨?_, fun e hmem => hcovers.polls e (List.mem_cons_of_mem _ hmem)⟩ hstay
    obtain ⟨e, hmem, heq⟩ := hcovers.event
    rcases List.mem_cons.mp hmem with rfl | hmem
    · exact absurd heq hne
    · exact ⟨e, hmem, heq⟩
  generalize hroom : t.room = room at h
  cases h with
  | next => exact hrest.goes_loop
  | unreadable hplain => exact hrest
  | read hplain timestamp =>
    refine ⟨Bool.eq_false_iff.mpr fun hfails => ?_, hrest⟩
    have hmem : event.event.eventId ∈ t.room.encryptedEvents :=
      hstay _ hfails (hcovers.polls event List.mem_cons_self hfails)
    rw [hroom] at hmem
    exact (AList.mem_erase.mp hmem).1 rfl

theorem goes_step (hids : KeepsIds plain) {e : AnyTimelineEvent} (hread : plain eventId = .ok e)
    (hs : s.Sound plain) (hkey : s.HasKey eventId a) (h : Steps env plain s a t)
    (hslists : s.Lists eventId) (htlists : t.Lists eventId) (hstay : PollsStay plain s t)
    {i : Nat} {stage : RetryStage} (hget : s.runs[i]? = some stage)
    (hgoes : Goes plain eventId s stage) :
    ∃ stage', t.runs[i]? = some stage' ∧ Goes plain eventId t stage' := by
  cases h with
  | spawn events =>
    refine ⟨stage, ?_, hgoes.stay hstay⟩
    exact (List.getElem?_append_left (List.getElem?_eq_some_iff.mp hget).1).trans hget
  | fetch event => exact ⟨stage, hget, hgoes.stay hstay⟩
  | @decrypted j event rest result room stage' hget' hreturn hresult h =>
    by_cases hself : j = i
    · subst hself
      obtain rfl := Option.some.inj (hget.symm.trans hget')
      exact ⟨stage', getElem?_set_of_some hget stage', goes_decrypted hids hread
        (hkey event (awaited_of_get hget)) hreturn hresult h htlists hstay hgoes⟩
    · exact ⟨stage, (List.getElem?_set_ne hself).trans hget, hgoes.stay hstay⟩
  | @advance j stage₀ stage' room sent hget' hadvance h =>
    by_cases hself : j = i
    · subst hself
      obtain rfl := Option.some.inj (hget.symm.trans hget')
      exact ⟨stage', getElem?_set_of_some hget stage', (goes_advance hs
        (hs.stages stage (List.mem_of_getElem? hget)) hslists hgoes hadvance).stay hstay⟩
    · exact ⟨stage, (List.getElem?_set_ne hself).trans hget, hgoes.stay hstay⟩

/-! ### What a run of steps comes to -/

/-- The room goes from `s` to `t`, and `n` polls of an unknown kind are fetched meanwhile. -/
structure Progress (plain : String → Raw AnyTimelineEvent) (eventId : String) (n : Nat)
    (s t : RetryRuns M) : Prop where
  polls : (t.pollIds plain).card ≤ (s.pollIds plain).card + n
  resolutions : s.resolutions eventId ≤ t.resolutions eventId
  lists : t.Lists eventId → s.Lists eventId
  resolved : s.Lists eventId → ¬ t.Lists eventId → s.resolutions eventId < t.resolutions eventId
  /-- A run that is going to decrypt the event still is, unless a poll has been taken off the
      list. -/
  goes : ∀ (i : Nat) (stage : RetryStage), s.runs[i]? = some stage →
    Goes plain eventId s stage → t.Lists eventId →
    (t.pollIds plain).card + 1 ≤ (s.pollIds plain).card + n ∨
      ∃ stage', t.runs[i]? = some stage' ∧ Goes plain eventId t stage'

theorem Progress.refl (n : Nat) (s : RetryRuns M) : Progress plain eventId n s s where
  polls := Nat.le_add_right _ _
  resolutions := Nat.le_refl _
  lists := id
  resolved := fun hlists hunlisted => absurd hlists hunlisted
  goes := fun _ stage hget hgoes _ => .inr ⟨stage, hget, hgoes⟩

theorem Progress.trans {u : RetryRuns M} {n m : Nat} (h : Progress plain eventId n s t)
    (h' : Progress plain eventId m t u) : Progress plain eventId (n + m) s u := by
  have hpolls := h.polls
  have hpolls' := h'.polls
  have hresolutions := h.resolutions
  have hresolutions' := h'.resolutions
  constructor
  · omega
  · omega
  · exact fun hlists => h.lists (h'.lists hlists)
  · intro hlists hunlisted
    by_cases hmid : t.Lists eventId
    · have hresolved := h'.resolved hmid hunlisted
      omega
    · have hresolved := h.resolved hlists hmid
      omega
  · intro i stage hget hgoes hlists
    rcases h.goes i stage hget hgoes (h'.lists hlists) with hless | ⟨stage', hget', hgoes'⟩
    · exact .inl (by omega)
    · exact (h'.goes i stage' hget' hgoes' hlists).imp (fun hless => by omega) id

theorem progress_of_steps (hids : KeepsIds plain) {e : AnyTimelineEvent}
    (hread : plain eventId = .ok e) (hknown : failsAs plain eventId = false) (hs : s.Sound plain)
    (hkey : s.HasKey eventId a) (h : Steps env plain s a t) :
    Progress plain eventId (a.pollsFetched plain).length s t where
  polls := card_pollIds_le h
  resolutions := resolutions_le h hknown
  lists := by
    rcases lists_step h hkey with hiff | ⟨hunlisted, -⟩
    · exact hiff.mp
    · exact fun hlists => absurd hlists hunlisted
  resolved := by
    intro hlists hunlisted
    rcases lists_step h hkey with hiff | ⟨-, hresolved⟩
    · exact absurd (hiff.mpr hlists) hunlisted
    · exact hresolved
  goes := by
    intro i stage hget hgoes htlists
    have hslists : s.Lists eventId := by
      rcases lists_step h hkey with hiff | ⟨hunlisted, -⟩
      · exact hiff.mp htlists
      · exact absurd htlists hunlisted
    by_cases hstay : PollsStay plain s t
    · exact .inr (goes_step hids hread hs hkey h hslists htlists hstay hget hgoes)
    · unfold PollsStay at hstay
      push Not at hstay
      obtain ⟨id, hfails, hlists, hunlisted⟩ := hstay
      exact .inl (card_pollIds_lt h hfails hlists hunlisted)

end RetryRuns

/-! ## Rounds of the loop -/

namespace RetryRooms

variable {M : Type} {env : String → RoomEnv M} {media : M} {plain : String → Raw AnyTimelineEvent}
  {roomId eventId : String} {rooms rooms' : RetryRooms M} {a : RetryLoopStep}
  {as : List RetryLoopStep}

/-- `decrypt_event` returns what it may for the events of the room. -/
def Decrypts (media : M) (plain : String → Raw AnyTimelineEvent) (roomId : String)
    (rooms : RetryRooms M) (a : RetryLoopStep) : Prop :=
  ∀ action ∈ a.actionIn rooms roomId, (roomAt media rooms roomId).Decrypts plain action

/-- The key of an event of the room has come, and the event is not fetched again. -/
def HasKey (media : M) (roomId eventId : String) (rooms : RetryRooms M) (a : RetryLoopStep) :
    Prop :=
  ∀ action ∈ a.actionIn rooms roomId, (roomAt media rooms roomId).HasKey eventId action

/-- The polls of an unknown kind that a step adds to the events to decrypt of the room. -/
def pollsFetched (plain : String → Raw AnyTimelineEvent) (roomId : String) :
    RetryLoopStep → List String
  | .room id action => if id = roomId then action.pollsFetched plain else []
  | .timeout | .report _ => []

theorem pollsFetched_of_actionIn {action : RetryAction}
    (h : a.actionIn rooms roomId = some action) :
    action.pollsFetched plain = pollsFetched plain roomId a := by
  cases a with
  | timeout =>
    rw [RetryLoopStep.actionIn_of_retriesAll rooms roomId rfl, Option.ite_none_right_eq_some] at h
    obtain rfl := Option.some.inj h.2
    rfl
  | report report =>
    cases report with
    | lagging | backupAvailable =>
      rw [RetryLoopStep.actionIn_of_retriesAll rooms roomId rfl, Option.ite_none_right_eq_some] at h
      obtain rfl := Option.some.inj h.2
      rfl
    | resolvedUtds id events =>
      rw [RetryLoopStep.actionIn_resolvedUtds, Option.ite_none_right_eq_some] at h
      obtain rfl := Option.some.inj h.2
      rfl
  | room id action' =>
    rw [RetryLoopStep.actionIn_room, Option.ite_none_right_eq_some] at h
    obtain ⟨hid, heq⟩ := h
    obtain rfl := Option.some.inj heq
    exact (if_pos hid).symm

/-- What a step does to the room, if anything. -/
theorem step_cases (hstep : (retryLoop env media).step rooms a = some rooms') (roomId : String) :
    roomAt media rooms' roomId = roomAt media rooms roomId ∨
      ∃ action, a.actionIn rooms roomId = some action ∧
        (retryRuns (env roomId)).step (roomAt media rooms roomId) action
          = some (roomAt media rooms' roomId) := by
  have hrun := step_actionIn hstep roomId
  cases haction : a.actionIn rooms roomId with
  | none =>
    rw [haction] at hrun
    exact .inl (Option.some.inj hrun).symm
  | some action =>
    rw [haction] at hrun
    obtain ⟨room, hroom, hrun⟩ := (System.run_cons_eq_some _).mp hrun
    obtain rfl := Option.some.inj hrun
    exact .inr ⟨action, rfl, hroom⟩

theorem sound_roomAt (hids : KeepsIds plain) (hs : (roomAt media rooms roomId).Sound plain)
    (hplain : Decrypts media plain roomId rooms a)
    (hstep : (retryLoop env media).step rooms a = some rooms') :
    (roomAt media rooms' roomId).Sound plain := by
  rcases step_cases hstep roomId with hsame | ⟨action, haction, hroom⟩
  · rwa [hsame]
  · exact RetryRuns.sound_step hids hs
      (RetryRuns.steps_of_step hids hs (hplain action haction) hroom)

theorem progress_step (hids : KeepsIds plain) {e : AnyTimelineEvent}
    (hread : plain eventId = .ok e) (hknown : failsAs plain eventId = false)
    (hs : (roomAt media rooms roomId).Sound plain) (hplain : Decrypts media plain roomId rooms a)
    (hkey : HasKey media roomId eventId rooms a)
    (hstep : (retryLoop env media).step rooms a = some rooms') :
    (roomAt media rooms roomId).Progress plain eventId (pollsFetched plain roomId a).length
      (roomAt media rooms' roomId) := by
  rcases step_cases hstep roomId with hsame | ⟨action, haction, hroom⟩
  · rw [hsame]
    exact .refl _ _
  · rw [← pollsFetched_of_actionIn haction]
    exact RetryRuns.progress_of_steps hids hread hknown hs (hkey action haction)
      (RetryRuns.steps_of_step hids hs (hplain action haction) hroom)

theorem sound_run (hids : KeepsIds plain) (hs : (roomAt media rooms roomId).Sound plain)
    (hplain : (retryLoop env media).Meets (Decrypts media plain roomId) rooms as)
    (hrun : (retryLoop env media).run rooms as = some rooms') :
    (roomAt media rooms' roomId).Sound plain :=
  (retryLoop env media).inv_of_run
    (fun _ _ _ hs hplain hstep => sound_roomAt hids hs hplain hstep) hs hplain hrun

theorem progress_run (hids : KeepsIds plain) {e : AnyTimelineEvent} (hread : plain eventId = .ok e)
    (hknown : failsAs plain eventId = false) (hs : (roomAt media rooms roomId).Sound plain)
    (hplain : (retryLoop env media).Meets (Decrypts media plain roomId) rooms as)
    (hkey : (retryLoop env media).Meets (HasKey media roomId eventId) rooms as)
    (hrun : (retryLoop env media).run rooms as = some rooms') :
    (roomAt media rooms roomId).Progress plain eventId
      (as.flatMap (pollsFetched plain roomId)).length (roomAt media rooms' roomId) := by
  induction as generalizing rooms with
  | nil =>
    obtain rfl := Option.some.inj hrun
    exact .refl _ _
  | cons a as ih =>
    obtain ⟨rooms₁, hstep, hrun⟩ := (System.run_cons_eq_some _).mp hrun
    have hfirst := progress_step hids hread hknown hs hplain.1 hkey.1 hstep
    have hrest := ih (sound_roomAt hids hs hplain.1 hstep) (hplain.2 _ hstep) (hkey.2 _ hstep) hrun
    rw [List.flatMap_cons, List.length_append]
    exact hfirst.trans hrest

instance (rooms : RetryRooms M) (a : RetryLoopStep) :
    Decidable (Decrypts media plain roomId rooms a) :=
  inferInstanceAs (Decidable (∀ _ ∈ _, _))

instance (rooms : RetryRooms M) (a : RetryLoopStep) :
    Decidable (HasKey media roomId eventId rooms a) :=
  inferInstanceAs (Decidable (∀ _ ∈ _, _))

/-- All rooms are retried, and the run that is spawned for the room finishes in the end, whatever
    else goes on; the key of the event has come. -/
structure IsRound (env : String → RoomEnv M) (media : M) (plain : String → Raw AnyTimelineEvent)
    (roomId eventId : String) (rooms : RetryRooms M) (as : List RetryLoopStep)
    (rooms' : RetryRooms M) : Prop where
  run : (retryLoop env media).run rooms as = some rooms'
  retries : ∃ a rest, as = a :: rest ∧ a.retriesAll = true
  finishes : ∀ stage ∈ (roomAt media rooms' roomId).runs[(roomAt media rooms roomId).runs.length]?,
    stage.isFinished = true
  decrypts : (retryLoop env media).Meets (Decrypts media plain roomId) rooms as
  hasKey : (retryLoop env media).Meets (HasKey media roomId eventId) rooms as

/-- A room with the event is retried. -/
theorem actionIn_of_lists (hlists : (roomAt media rooms roomId).Lists eventId)
    (hall : a.retriesAll = true) : a.actionIn rooms roomId = some (.spawn none) := by
  rw [RetryLoopStep.actionIn_of_retriesAll rooms roomId hall, if_pos]
  unfold roomAt at hlists
  cases hlookup : rooms.lookup roomId with
  | none =>
    rw [hlookup] at hlists
    exact absurd hlists (AList.notMem_empty eventId)
  | some room =>
    rw [hlookup] at hlists
    have hmem : eventId ∈ room.room.encryptedEvents.keys := hlists
    obtain ⟨entry, hentry, -⟩ := List.mem_map.mp hmem
    have hne := List.isEmpty_eq_false_iff.mpr (List.ne_nil_of_mem hentry)
    rw [Option.any_some, CachedRoom.hasEventsToDecrypt, hne]
    rfl

/-- In a round, the event is resolved, or there is one poll less to fail on. -/
theorem round_resolves (hids : KeepsIds plain) {e : AnyTimelineEvent}
    (hread : plain eventId = .ok e) (hknown : failsAs plain eventId = false)
    (hs : (roomAt media rooms roomId).Sound plain)
    (h : IsRound env media plain roomId eventId rooms as rooms')
    (hlists : (roomAt media rooms roomId).Lists eventId)
    (hlists' : (roomAt media rooms' roomId).Lists eventId) :
    ((roomAt media rooms' roomId).pollIds plain).card + 1
      ≤ ((roomAt media rooms roomId).pollIds plain).card
        + (as.flatMap (pollsFetched plain roomId)).length := by
  obtain ⟨a, rest, rfl, hall⟩ := h.retries
  obtain ⟨rooms₁, hstep, hrun⟩ := (System.run_cons_eq_some _).mp h.run
  have haction := actionIn_of_lists hlists hall
  have hspawned : roomAt media rooms₁ roomId = (roomAt media rooms roomId).spawn none := by
    have hroom := step_actionIn hstep roomId
    rw [haction] at hroom
    exact (Option.some.inj hroom).symm
  have hprogress := progress_run hids hread hknown (sound_roomAt hids hs h.decrypts.1 hstep)
    (h.decrypts.2 _ hstep) (h.hasKey.2 _ hstep) hrun
  have hnone : pollsFetched plain roomId a = [] := (pollsFetched_of_actionIn haction).symm
  rw [List.flatMap_cons, hnone, List.nil_append]
  rw [hspawned] at hprogress
  have hget :
      ((roomAt media rooms roomId).spawn none).runs[(roomAt media rooms roomId).runs.length]?
        = some (.spawned none) := List.getElem?_concat_length ..
  rcases hprogress.goes _ _ hget rfl hlists' with hless | ⟨stage, hstage, hgoes⟩
  · exact hless
  · -- the run that has been spawned has finished
    have hfinished := h.finishes stage hstage
    cases stage with
    | finished => exact hgoes.elim
    | spawned _ | decrypting _ _ | loading _ _ _ | downloading _ _ _ | sending _ _ _ =>
      cases hfinished

end RetryRooms

section Rounds

open RetryRooms

variable {M : Type} {env : String → RoomEnv M} {media : M} {plain : String → Raw AnyTimelineEvent}
  {roomId eventId : String} {rooms rooms' : RetryRooms M} {before : List RetryLoopStep}
  {rounds : List (List RetryLoopStep)}

/-- An event whose key has come is taken off the list and resolved after more rounds than there are
    polls of an unknown kind, cached at first or fetched in the meantime; the change or the remove
    event has been sent when the runs have finished. -/
theorem retries_resolve (hids : KeepsIds plain) {e : AnyTimelineEvent}
    (hread : plain eventId = .ok e) (hknown : failsAs plain eventId = false)
    (hbefore : (retryLoop env media).Meets (Decrypts media plain roomId) ∅ before)
    (hrun : (retryLoop env media).run ∅ before = some rooms)
    (hlists : (roomAt media rooms roomId).Lists eventId)
    (hrounds : Rounds (IsRound env media plain roomId eventId) rooms rounds rooms')
    (hlong : ((roomAt media rooms roomId).pollIds plain).card
      + (rounds.flatten.flatMap (pollsFetched plain roomId)).length < rounds.length) :
    ¬ (roomAt media rooms' roomId).Lists eventId ∧
      (roomAt media rooms roomId).resolutions eventId
        < (roomAt media rooms' roomId).resolutions eventId ∧
      ((∀ stage ∈ (roomAt media rooms' roomId).runs, stage.isFinished = true) →
        (roomAt media rooms roomId).sent.countP (Sent.resolves eventId)
          < (roomAt media rooms' roomId).sent.countP (Sent.resolves eventId)) := by
  let waiting (u : RetryRooms M) : Prop := (roomAt media u roomId).Sound plain ∧
    (roomAt media u roomId).Lists eventId ∧
    (roomAt media rooms roomId).resolutions eventId ≤ (roomAt media u roomId).resolutions eventId
  let done (u : RetryRooms M) : Prop := (roomAt media u roomId).Sound plain ∧
    ¬ (roomAt media u roomId).Lists eventId ∧
    (roomAt media rooms roomId).resolutions eventId < (roomAt media u roomId).resolutions eventId
  have hsound : ∀ s as t, (roomAt media s roomId).Sound plain →
      IsRound env media plain roomId eventId s as t → (roomAt media t roomId).Sound plain :=
    fun s as t hs h => sound_run hids hs h.decrypts h.run
  have hprogress := fun s as t (hs : (roomAt media s roomId).Sound plain)
      (h : IsRound env media plain roomId eventId s as t) =>
    progress_run hids hread hknown hs h.decrypts h.hasKey h.run
  have hround : ∀ s as t, waiting s → IsRound env media plain roomId eventId s as t →
      done t ∨ waiting t ∧ ((roomAt media t roomId).pollIds plain).card + 1
        ≤ ((roomAt media s roomId).pollIds plain).card
          + (as.flatMap (pollsFetched plain roomId)).length := by
    rintro s as t ⟨hs, hslists, hle⟩ h
    have hp := hprogress s as t hs h
    by_cases htlists : (roomAt media t roomId).Lists eventId
    · exact .inr ⟨⟨hsound s as t hs h, htlists, Nat.le_trans hle hp.resolutions⟩,
        round_resolves hids hread hknown hs h hslists htlists⟩
    · exact .inl ⟨hsound s as t hs h, htlists,
        Nat.lt_of_le_of_lt hle (hp.resolved hslists htlists)⟩
  have hdone : ∀ s as t, done s → IsRound env media plain roomId eventId s as t → done t := by
    rintro s as t ⟨hs, hunlisted, hless⟩ h
    have hp := hprogress s as t hs h
    exact ⟨hsound s as t hs h, fun htlists => hunlisted (hp.lists htlists),
      Nat.lt_of_lt_of_le hless hp.resolutions⟩
  have hstart : waiting rooms :=
    ⟨sound_run hids (RetryRuns.sound_start media) hbefore hrun, hlists, Nat.le_refl _⟩
  obtain ⟨-, hunlisted, hless⟩ := hrounds.done hround hdone (.inr hstart) hlong
  refine ⟨hunlisted, hless, fun hfinished => ?_⟩
  rw [← RetryRuns.resolutions_of_finished hfinished]
  exact Nat.lt_of_le_of_lt (Nat.le_add_left _ _) hless

/-- Nothing is ever sent that changes or removes the placeholder of a poll of an unknown kind. -/
theorem polls_unresolved (hids : KeepsIds plain) (hfails : failsAs plain eventId = true)
    (hbefore : (retryLoop env media).Meets (Decrypts media plain roomId) ∅ before)
    (hrun : (retryLoop env media).run ∅ before = some rooms) :
    ∀ sent ∈ (roomAt media rooms roomId).sent, isResolution sent.event = true →
      ¬ NamesMessage eventId sent.event := by
  have hs : (roomAt media rooms roomId).Sound plain :=
    sound_run hids (RetryRuns.sound_start media) hbefore hrun
  intro sent hmem hresolution hnames
  have hsent := hs.sent sent hmem
  have hid : sent.eventId = eventId := by
    cases hevent : sent.event with
    | changed _ | removed _ =>
      have hown := hsent.names
      rw [hevent] at hown hnames
      exact hown.symm.trans hnames
    | _ =>
      rw [hevent] at hresolution
      cases hresolution
  have hknown := hsent.known
  rw [hid, hfails] at hknown
  cases hknown

end Rounds

/-! ## A poll before a message -/

def quizAndHello (eventId : String) : Raw AnyTimelineEvent :=
  if eventId = "$quiz" then
    .ok (.messageLike (.unstablePollStart (.original
      ⟨"$quiz", "@bob", 20, "!r", .new ⟨"Who?", .custom "m.quiz", 1, [⟨"a", "Ann"⟩]⟩⟩)))
  else if eventId = "$hello" then
    .ok (.messageLike (.roomMessage (.original
      ⟨"$hello", "@alice:hs", 10, "!r", ⟨.text "Hello", none, none⟩⟩)))
  else .malformed none

theorem keepsIds_quizAndHello : KeepsIds quizAndHello := by
  intro eventId id h
  unfold quizAndHello at h
  split at h
  · next heq => exact (Option.some.inj h).symm.trans heq.symm
  · split at h
    · next heq => exact (Option.some.inj h).symm.trans heq.symm
    · cases h

def fetchBoth : List RetryLoopStep :=
  [.room "!r" (.fetch hiddenHello),
    .room "!r" (.fetch ⟨.unableToDecrypt (.ok ⟨"$quiz", "@bob", 20, "…"⟩) none, none⟩)]

/-- The run ends at the poll. -/
def failingRound : List RetryLoopStep :=
  [.timeout, .room "!r" (.advance 0),
    .room "!r" (.decrypted 0 (some ⟨.decrypted (quizAndHello "$quiz"), none⟩)),
    .room "!r" (.advance 0), .room "!r" (.advance 0)]

/-- The run of the backup finds the message only. -/
def resolvingRound : List RetryLoopStep :=
  [.report .backupAvailable, .room "!r" (.advance 1),
    .room "!r" (.decrypted 1 (some ⟨.decrypted (quizAndHello "$hello"), none⟩)),
    .room "!r" (.advance 1), .room "!r" (.advance 1), .room "!r" (.advance 1),
    .room "!r" (.advance 1)]

def bareLoop : System (RetryRooms Unit) RetryLoopStep := retryLoop RoomEnv.bare ()

def roomsFetched : RetryRooms Unit := (bareLoop.run ∅ fetchBoth).getD ∅

def roomsFailed : RetryRooms Unit := (bareLoop.run roomsFetched failingRound).getD ∅

def roomsResolved : RetryRooms Unit := (bareLoop.run roomsFailed resolvingRound).getD ∅

theorem run_roomsFetched : bareLoop.run ∅ fetchBoth = some roomsFetched :=
  (Option.getD_of_ne_none (by decide +kernel) ∅).symm

theorem run_roomsFailed : bareLoop.run roomsFetched failingRound = some roomsFailed :=
  (Option.getD_of_ne_none (by decide +kernel) ∅).symm

theorem run_roomsResolved : bareLoop.run roomsFailed resolvingRound = some roomsResolved :=
  (Option.getD_of_ne_none (by decide +kernel) ∅).symm

theorem retries_resolve_hello :
    (RetryRooms.roomAt () roomsFetched "!r").sent.countP (Sent.resolves "$hello")
      < (RetryRooms.roomAt () roomsResolved "!r").sent.countP (Sent.resolves "$hello") := by
  have hfailed : RetryRooms.IsRound RoomEnv.bare () quizAndHello "!r" "$hello" roomsFetched
      failingRound roomsFailed :=
    ⟨run_roomsFailed, ⟨_, _, rfl, rfl⟩, by decide +kernel, by decide +kernel, by decide +kernel⟩
  have hresolved : RetryRooms.IsRound RoomEnv.bare () quizAndHello "!r" "$hello" roomsFailed
      resolvingRound roomsResolved :=
    ⟨run_roomsResolved, ⟨_, _, rfl, rfl⟩, by decide +kernel, by decide +kernel, by decide +kernel⟩
  exact (retries_resolve keepsIds_quizAndHello rfl (by decide +kernel) (by decide +kernel)
    run_roomsFetched (by decide +kernel) (.cons hfailed (.cons hresolved (.nil _)))
    (by decide +kernel)).2.2 (by decide +kernel)

/-- The poll has been taken off the list, and its placeholder stays. -/
theorem polls_unresolved_quiz :
    ¬ (RetryRooms.roomAt () roomsResolved "!r").Lists "$quiz" ∧
      ∀ sent ∈ (RetryRooms.roomAt () roomsResolved "!r").sent, isResolution sent.event = true →
        ¬ NamesMessage "$quiz" sent.event := by
  have hrun : bareLoop.run ∅ (fetchBoth ++ failingRound ++ resolvingRound)
    = some roomsResolved := by
    rw [System.run_append, System.run_append, run_roomsFetched, Option.bind_some, run_roomsFailed,
      Option.bind_some, run_roomsResolved]
  exact ⟨by decide +kernel, polls_unresolved keepsIds_quizAndHello (by decide +kernel)
    (by decide +kernel) hrun⟩

end GoudaMatrix.MemoryCache
