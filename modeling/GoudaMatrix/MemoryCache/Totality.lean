/-
  The error of `process_timeline_event`, which its documentation only has for a poisoned lock.

  `process_ok_iff`: the result is `Ok` exactly for the events that do not start a poll of an
  unknown kind, whatever is cached; a history fetch and a redecryption fail only because of
  such an event. `unknown_poll_aborts` is one, with a message behind it that is not fetched.
-/
import GoudaMatrix.MemoryCache.Retry

namespace GoudaMatrix.MemoryCache

open GoudaMatrix.Lib GoudaMatrix.Ruma

@[simp] theorem isOk_ok {ε α : Type} (a : α) : (Except.ok a : Except ε α).isOk = true := rfl

@[simp] theorem isOk_error {ε α : Type} (e : ε) : (Except.error e : Except ε α).isOk = false := rfl

/-- A new poll start, not redacted, of a kind other than the two known ones. -/
def isUnknownPoll : AnyMessageLikeEvent → Bool
  | .unstablePollStart (.original e) =>
    match e.content with
    | .new ⟨_, .custom _, _, _⟩ => true
    | _ => false
  | _ => false

def startsUnknownPoll (event : TimelineEvent) : Bool :=
  match event.kind with
  | .decrypted (.ok (.messageLike e)) | .plainText (.ok (.messageLike e)) => isUnknownPoll e
  | _ => false

namespace CachedRoom

variable {M : Type} (env : RoomEnv M) (room : CachedRoom M)

/-! ## Handlers -/

theorem processOriginalRoomMessage_ok (original : OriginalEvent RoomMessageEventContent) :
    (room.processOriginalRoomMessage env original).1.isOk = true := by
  unfold processOriginalRoomMessage
  split
  · dsimp only
    split <;> rfl
  · rfl

theorem processAnyStateEvent_ok (event : AnyStateEvent) :
    (room.processAnyStateEvent env event).1.isOk = true := by
  cases event with
  | other event => rfl
  | roomMember event =>
    cases event with
    | redacted event => rfl
    | original event =>
      simp only [processAnyStateEvent, processRoomMemberEvent]
      split <;> rfl

theorem processUnstablePollStart_isOk (event : MessageLikeEvent UnstablePollStartEventContent) :
    (room.processUnstablePollStart env event).1.isOk
      = !isUnknownPoll (.unstablePollStart event) := by
  cases event with
  | redacted event => rfl
  | original event =>
    obtain ⟨eventId, sender, ts, roomId, content⟩ := event
    cases content with
    | replacement messageId pollStart => rfl
    | new pollStart =>
      obtain ⟨question, kind, maxSelections, answers⟩ := pollStart
      cases kind <;> rfl

theorem processAnyMessageLikeEvent_isOk (event : AnyMessageLikeEvent) :
    (room.processAnyMessageLikeEvent env event).1.isOk = !isUnknownPoll event := by
  cases event with
  | unstablePollStart event => exact processUnstablePollStart_isOk env room event
  | roomMessage event =>
    cases event with
    | original original => exact processOriginalRoomMessage_ok env room original
    | redacted redacted => rfl
  | roomRedaction event =>
    cases event with
    | original original =>
      simp only [processAnyMessageLikeEvent, processRoomRedaction]
      split <;> rfl
    | redacted redacted => rfl
  | roomEncrypted event | unstablePollResponse event | unstablePollEnd event | reaction event =>
    cases event <;> rfl
  | other event => rfl

theorem processTimelineEvent_isOk (event : TimelineEvent) :
    (room.processTimelineEvent env event).1.isOk = !startsUnknownPoll event := by
  have hany : ∀ (room : CachedRoom M) (event : AnyTimelineEvent),
      (room.processAnyTimelineEvent env event).1.isOk
        = !startsUnknownPoll ⟨.plainText (.ok event), none⟩ := by
    intro room event
    cases event with
    | messageLike event => exact processAnyMessageLikeEvent_isOk env _ event
    | state event => exact processAnyStateEvent_ok env _ event
  obtain ⟨kind, timestamp⟩ := event
  cases kind with
  | unableToDecrypt event sessionId => cases event <;> rfl
  | decrypted event =>
    cases event with
    | ok event => exact (hany _ event).trans (by cases event <;> rfl)
    | malformed id => rfl
  | plainText event =>
    cases event with
    | ok event => exact hany room event
    | malformed id => rfl

/-! ## Redecryption -/

/-- The event that the redecryption of a cached event processes, if there is one. -/
def retried (event : CachedEncryptedEvent) : Option TimelineEvent :=
  (env.decryptEvent event.event).filter fun event =>
    !isUnableToDecrypt event && event.eventId.isSome

/-- The redecryption of the event meets a poll of an unknown kind. -/
def retriesUnknownPoll (event : CachedEncryptedEvent) : Bool :=
  (retried env event).any startsUnknownPoll

theorem retryCachedEncryptedEvent_isOk (event : CachedEncryptedEvent) :
    (room.retryCachedEncryptedEvent env event).1.isOk = !retriesUnknownPoll env event := by
  unfold retryCachedEncryptedEvent retriesUnknownPoll retried
  cases env.decryptEvent event.event with
  | none => rfl
  | some event =>
    by_cases hutd : isUnableToDecrypt event = true
    · simp [hutd, Option.filter]
    cases hid : event.eventId with
    | none => simp [hutd, hid, Option.filter]
    | some eventId =>
      have hok := processTimelineEvent_isOk env room event
      simp only [hutd, hid, Option.filter, Bool.false_eq_true, if_false]
      generalize room.processTimelineEvent env event = r at hok ⊢
      obtain ⟨result, room'⟩ := r
      -- The three results are told apart only by what is sent.
      rcases result with e | (none | action) <;> simpa using hok

theorem retryEvents_isOk (events : List CachedEncryptedEvent) :
    (retryEvents env room events).1.isOk = events.all fun event =>
      !retriesUnknownPoll env event := by
  induction events generalizing room with
  | nil => rfl
  | cons event events ih =>
    have hok := retryCachedEncryptedEvent_isOk env room event
    unfold retryEvents
    generalize room.retryCachedEncryptedEvent env event = r at hok ⊢
    obtain ⟨result, room', sent⟩ := r
    cases result with
    | error e =>
      have hpoll : retriesUnknownPoll env event = true := by simpa using hok
      simp [hpoll]
    | ok _ =>
      have hpoll : retriesUnknownPoll env event = false := by
        simpa using hok
      have hrest := ih room'
      simpa [hpoll] using hrest

end CachedRoom

/-! ## Fetching -/

namespace MessagesFetcher

variable {M : Type} (env : RoomEnv M)

/-- A receiver that is never dropped. -/
def listening : Nat → Bool := fun _ => true

theorem sendAction_listening (f : MessagesFetcher) (action : Option CachedRoomAction) :
    ∃ f', f.sendAction listening action = .ok f' ∧ f'.messageLimit = f.messageLimit ∧
      f'.retrievedMessages ≤ f.retrievedMessages + 1 := by
  match action with
  | some (.message message) => exact ⟨_, rfl, rfl, le_refl _⟩
  | some (.reaction metadata) => exact ⟨f, rfl, rfl, Nat.le_succ _⟩
  | none => exact ⟨f, rfl, rfl, Nat.le_succ _⟩

@[simp] theorem updateReadMarkers_messageLimit (f : MessagesFetcher) (markers : ReadMarkers) :
    (f.updateReadMarkers markers).messageLimit = f.messageLimit := by
  unfold updateReadMarkers
  split <;> rfl

@[simp] theorem updateReadMarkers_retrievedMessages (f : MessagesFetcher) (markers : ReadMarkers) :
    (f.updateReadMarkers markers).retrievedMessages = f.retrievedMessages := by
  unfold updateReadMarkers
  split <;> rfl

/-- A chunk without a poll of an unknown kind is processed to its end or to the limit. -/
theorem processEventChunk_isOk (room : CachedRoom M) (f : MessagesFetcher)
    (chunk : List TimelineEvent) (h : ∀ event ∈ chunk, startsUnknownPoll event = false) :
    (processEventChunk env listening room f chunk).1.isOk = true := by
  induction chunk generalizing room f with
  | nil => rfl
  | cons event chunk ih =>
    have hok := CachedRoom.processTimelineEvent_isOk env room event
    rw [h event List.mem_cons_self] at hok
    unfold processEventChunk
    generalize room.processTimelineEvent env event = r at hok ⊢
    obtain ⟨result, room'⟩ := r
    cases result with
    | error e => simp at hok
    | ok action =>
      obtain ⟨f', hf', -, -⟩ := sendAction_listening f action
      simp only [hf']
      split
      · rfl
      · exact ih _ _ fun event hmem => h event (List.mem_cons_of_mem _ hmem)

/-- Where the limit is out of reach, the first poll of an unknown kind ends the chunk. -/
theorem startsUnknownPoll_of_isOk (room : CachedRoom M) (f : MessagesFetcher)
    (chunk : List TimelineEvent) (hlimit : f.retrievedMessages + chunk.length < f.messageLimit)
    (h : (processEventChunk env listening room f chunk).1.isOk = true) :
    ∀ event ∈ chunk, startsUnknownPoll event = false := by
  induction chunk generalizing room f with
  | nil => simp
  | cons event chunk ih =>
    have hok := CachedRoom.processTimelineEvent_isOk env room event
    unfold processEventChunk at h
    generalize room.processTimelineEvent env event = r at hok h
    obtain ⟨result, room'⟩ := r
    cases result with
    | error e => simp at h
    | ok action =>
      have hpoll : startsUnknownPoll event = false := by
        simpa using hok
      obtain ⟨f', hf', hlimit', hcount⟩ := sendAction_listening f action
      rw [List.length_cons] at hlimit
      have hfar : f'.retrievedMessages + chunk.length < f'.messageLimit := by omega
      simp only [hf', updateReadMarkers_messageLimit, updateReadMarkers_retrievedMessages] at h
      rw [if_neg (by omega)] at h
      have hrest := ih room' (f'.updateReadMarkers room'.readMarkers) (by simpa using hfar) h
      exact List.forall_mem_cons.mpr ⟨hpoll, hrest⟩

end MessagesFetcher

/-! ## The error of a poll of an unknown kind -/

open MessagesFetcher in
/-- An event is processed without an error, a chunk is fetched without one whatever has been
    fetched before, and cached events are redecrypted without one, exactly if none of the events
    starts a poll of an unknown kind. -/
theorem process_ok_iff {M : Type} (env : RoomEnv M) (room : CachedRoom M) :
    (∀ event, (room.processTimelineEvent env event).1.isOk = true ↔
      startsUnknownPoll event = false) ∧
    (∀ chunk, (∀ f, (processEventChunk env listening room f chunk).1.isOk = true) ↔
      ∀ event ∈ chunk, startsUnknownPoll event = false) ∧
    (∀ events, (room.retryDecryption env events).1.isOk = true ↔
      ∀ event ∈ room.getEventsForRedecryption env events,
        CachedRoom.retriesUnknownPoll env event = false) := by
  refine ⟨fun event => ?_, fun chunk => ⟨fun h => ?_, fun h f => ?_⟩, fun events => ?_⟩
  · rw [CachedRoom.processTimelineEvent_isOk]
    simp
  · let f : MessagesFetcher := ⟨chunk.length + 1, 0, false, ∅, [], []⟩
    exact startsUnknownPoll_of_isOk env room f chunk (by simp [f]) (h f)
  · exact processEventChunk_isOk env room f chunk h
  · rw [CachedRoom.retryDecryption, CachedRoom.retryEvents_isOk]
    simp

/-- A poll of the kind `m.quiz`, with a message behind it. -/
def quizChunk : List TimelineEvent :=
  [⟨.plainText (.ok (.messageLike (.unstablePollStart (.original
      ⟨"$quiz", "@bob", 20, "!r", .new ⟨"Who?", .custom "m.quiz", 1, [⟨"a", "Ann"⟩]⟩⟩)))), some 20⟩,
    ⟨.plainText (.ok (.messageLike (.roomMessage (.original
      ⟨"$hello", "@alice", 10, "!r", ⟨.text "Hello", none, none⟩⟩)))), some 10⟩]

/-- The error of the poll ends the fetch before the message. -/
theorem unknown_poll_aborts :
    let (result, _, f) := MessagesFetcher.processEventChunk (RoomEnv.bare "!r")
      MessagesFetcher.listening (CachedRoom.new ()) ⟨10, 0, false, ∅, [], []⟩ quizChunk
    result = .error .unableToAssembleMessage ∧ f.messages = [] := by
  decide

end GoudaMatrix.MemoryCache
