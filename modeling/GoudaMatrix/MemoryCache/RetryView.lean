/-
  What `retry_decryption` sends to the application, and what it does to the messages there.

  The encrypted events are decrypted one after another up to the first that fails. An event changes
  its own message (`apply_sentFor_self`), which gets the content and nothing else, and a reaction
  is added to the message that it is to (`apply_sentFor_of_ne`). For a whole run these are
  `apply_sentOf_of_split` and `apply_sentOf_of_not_mem`.
-/
import GoudaMatrix.MemoryCache.View

namespace GoudaMatrix.MemoryCache

open GoudaMatrix.Lib GoudaMatrix.Ruma

section Retry

variable {M : Type} {env : RoomEnv M}

/-! ## The events that are decrypted late -/

/-- What is sent for an event that is decrypted late. -/
def sentFor (env : RoomEnv M) (room : CachedRoom M) (event : TimelineEvent) : List MessageEvent :=
  match (room.processTimelineEvent env event).1 with
  | .error _ => []
  | .ok none => event.eventId.toList.map (redactEncryptedMessage env)
  | .ok (some action) => processSuccessfulRedecryption env action

def sentOf (env : RoomEnv M) : CachedRoom M → List TimelineEvent → List MessageEvent
  | _, [] => []
  | room, event :: events =>
    sentFor env room event ++ sentOf env (room.processTimelineEvent env event).2 events

theorem sentOf_append (room : CachedRoom M) (before after : List TimelineEvent) :
    sentOf env room (before ++ after)
      = sentOf env room before ++ sentOf env (afterEvents env room before) after := by
  induction before generalizing room with
  | nil => rfl
  | cons event before ih =>
    rw [List.cons_append, sentOf, sentOf, ih, List.append_assoc]
    rfl

theorem retried_eq_some {event : CachedEncryptedEvent} {decrypted : TimelineEvent} :
    CachedRoom.retried env event = some decrypted ↔
      env.decryptEvent event.event = some decrypted ∧ isUnableToDecrypt decrypted = false ∧
        decrypted.eventId.isSome = true := by
  unfold CachedRoom.retried
  rw [Option.filter_eq_some_iff]
  simp

/-- An event that cannot be decrypted to one with an id is left. -/
theorem retryCachedEncryptedEvent_of_none {event : CachedEncryptedEvent}
    (h : CachedRoom.retried env event = none) (room : CachedRoom M) :
    room.retryCachedEncryptedEvent env event = (.ok (), room, []) := by
  unfold CachedRoom.retryCachedEncryptedEvent
  cases hdecrypt : env.decryptEvent event.event with
  | none => rfl
  | some decrypted =>
    cases hutd : isUnableToDecrypt decrypted with
    | true => simp [hutd]
    | false =>
      cases hid : decrypted.eventId with
      | none => simp [hutd, hid]
      | some eventId =>
        rw [retried_eq_some.mpr ⟨hdecrypt, hutd, by rw [hid]; rfl⟩] at h
        cases h

/-- The events are decrypted and processed up to the first one that fails. -/
theorem retryEvents_eq (room : CachedRoom M) (events : List CachedEncryptedEvent) :
    (room.retryEvents env events).2
      = (afterEvents env room
          (upToFirst startsUnknownPoll (events.filterMap (CachedRoom.retried env))),
        sentOf env room
          (upToFirst startsUnknownPoll (events.filterMap (CachedRoom.retried env)))) := by
  induction events generalizing room with
  | nil => rfl
  | cons event events ih =>
    unfold CachedRoom.retryEvents
    cases hretried : CachedRoom.retried env event with
    | none =>
      rw [retryCachedEncryptedEvent_of_none hretried, List.filterMap_cons_none hretried]
      exact ih room
    | some decrypted =>
      obtain ⟨hdecrypt, hutd, hsome⟩ := retried_eq_some.mp hretried
      obtain ⟨eventId, hid⟩ := Option.isSome_iff_exists.mp hsome
      have hok := room.processTimelineEvent_isOk env decrypted
      have hrest := ih (room.processTimelineEvent env decrypted).2
      rw [retryCachedEncryptedEvent_eq env hdecrypt hutd hid, List.filterMap_cons_some hretried,
        upToFirst, afterEvents, List.foldl_cons, sentOf]
      unfold sentFor
      rw [hid]
      generalize room.processTimelineEvent env decrypted = r at hok hrest ⊢
      obtain ⟨result, room'⟩ := r
      cases result with
      | error e =>
        have hpoll : startsUnknownPoll decrypted = true := by
          simpa using hok.symm
        rw [if_pos hpoll]
        rfl
      | ok action =>
        have hpoll : startsUnknownPoll decrypted = false := by
          simpa using hok.symm
        rw [if_neg (by simp [hpoll])]
        have hroom : (room'.retryEvents env events).2.1 = afterEvents env room'
            (upToFirst startsUnknownPoll (events.filterMap (CachedRoom.retried env))) :=
          congrArg Prod.fst hrest
        have hsent : (room'.retryEvents env events).2.2 = sentOf env room'
            (upToFirst startsUnknownPoll (events.filterMap (CachedRoom.retried env))) :=
          congrArg Prod.snd hrest
        cases action with
        | none =>
          refine Prod.ext hroom ?_
          show [redactEncryptedMessage env eventId] ++ (room'.retryEvents env events).2.2 = _
          rw [hsent]
          rfl
        | some action =>
          refine Prod.ext hroom ?_
          show processSuccessfulRedecryption env action ++ (room'.retryEvents env events).2.2 = _
          rw [hsent]

theorem effectOf_failed_iff (room : CachedRoom M) {event : TimelineEvent} :
    (effectOf env event room.media).1 = .failed ↔ startsUnknownPoll event = true := by
  have hok := room.processTimelineEvent_isOk env event
  rw [CachedRoom.processTimelineEvent_eq] at hok
  cases heffect : (effectOf env event room.media).1 with
  | failed =>
    rw [heffect] at hok
    simpa [CachedRoom.perform] using hok
  | assembled | ignored | replaced | redacted | reacted | pollReplaced | pollAnswered | pollEnded
  | undecryptable =>
    rw [heffect] at hok
    simpa [CachedRoom.perform] using hok

/-! ## What is shown of a message -/

/-- What is shown of an original by what is cached about it. -/
structure Shown where
  content : Option Content
  edited : Bool
  reactions : List Reaction

def CachedRoom.shown (env : RoomEnv M) (room : CachedRoom M) (original : Message) : Shown :=
  let cached := room.cachedAt original.messageId
  { content := cached.shownContent env.order original.content
    edited := cached.showsEdit original.content
    reactions := if CachedMessage.isRemoved original.content then []
      else cached.reactionList env.order original.roomId original.messageId }

/-- The message that is built of an event. -/
def Message.showing (original : Message) (shown : Shown) : Message :=
  { original with content := shown.content, edited := shown.edited, reactions := shown.reactions }

theorem messageOf_of_assembled {room : CachedRoom M} {event : TimelineEvent} {original : Message}
    (h : (effectOf env event room.media).1 = .assembled original) :
    messageOf env room event = some (Message.showing original (room.shown env original)) := by
  obtain ⟨hreactions, hedited⟩ := fresh_of_assembled env h
  rw [messageOf_eq, h]
  dsimp only
  rw [CachedMessage.buildFromOriginal_eq, hreactions, hedited]
  rfl

theorem messageOf_of_not_assembled {room : CachedRoom M} {event : TimelineEvent}
    (hutd : isUnableToDecrypt event = false)
    (h : ∀ original, (effectOf env event room.media).1 ≠ .assembled original) :
    messageOf env room event = none := by
  rw [messageOf_eq]
  cases heffect : (effectOf env event room.media).1 with
  | assembled original => exact absurd heffect (h original)
  | undecryptable encrypted sessionId =>
    exact absurd heffect (effectOf_ne_undecryptable env hutd _ encrypted sessionId)
  | ignored | failed | replaced | redacted | reacted | pollReplaced | pollAnswered | pollEnded =>
    rfl

/-! ## What the sent events do to a message -/

/-- The reactions to a message that are sent to the application. -/
def reactionsTo (env : RoomEnv M) (id : String) (retried : List TimelineEvent) : List Reaction :=
  (retried.filterMap (reactionOf env)).filter fun reaction => reaction.messageId = id

@[simp] theorem addReactions_nil (message : Message) : addReactions [] message = message := by
  unfold addReactions
  rw [List.append_nil]

theorem map_addReactions_nil (message : Option Message) :
    message.map (addReactions []) = message := by
  cases message with
  | none => rfl
  | some message => exact congrArg some (addReactions_nil message)

theorem addReactions_append (reactions reactions' : List Reaction) (message : Message) :
    addReactions (reactions ++ reactions') message
      = addReactions reactions' (addReactions reactions message) := by
  unfold addReactions
  rw [List.append_assoc]

theorem reactionsTo_append (id : String) (before after : List TimelineEvent) :
    reactionsTo env id (before ++ after)
      = reactionsTo env id before ++ reactionsTo env id after := by
  unfold reactionsTo
  rw [List.filterMap_append, List.filter_append]

theorem reactionsTo_of_assembled {event : TimelineEvent} {m : M} {original : Message}
    (h : (effectOf env event m).1 = .assembled original) (id : String) :
    reactionsTo env id [event] = [] := by
  have hreaction := reactionOf_eq env event m
  rw [h] at hreaction
  simp [reactionsTo, hreaction]

theorem sentFor_eq (room : CachedRoom M) (event : TimelineEvent) :
    sentFor env room event
      = match (effectOf env event room.media).1 with
        | .failed => []
        | .assembled original => processSuccessfulRedecryptedMessage env
            ((room.cachedAt original.messageId).buildFromOriginal env.order original).1
        | .reacted messageId reactionId reaction => processSuccessfulRedecryptedReaction env
            ⟨reactionId, reaction.userId, reaction.emoji, messageId, env.roomId⟩
        | .undecryptable encrypted _ =>
          processSuccessfulRedecryptedMessage env (CachedRoom.placeholder env encrypted)
        | _ => event.eventId.toList.map (redactEncryptedMessage env) := by
  have hcached : ∀ id, ({ room.prepare env event with
      media := (effectOf env event room.media).2 } : CachedRoom M).cachedAt id = room.cachedAt id :=
    CachedRoom.cachedAt_prepare env room event
  unfold sentFor
  rw [CachedRoom.processTimelineEvent_eq]
  cases (effectOf env event room.media).1 with
  | assembled original =>
    simp only [CachedRoom.perform, processSuccessfulRedecryption,
      CachedRoom.assembleMessage_message,
      hcached]
  | ignored | failed | replaced | redacted | reacted | pollReplaced | pollAnswered | pollEnded
  | undecryptable => rfl

/-- A change or remove event of another message. -/
theorem apply_processMessage_of_ne (view : View) {message : Message} {id : String}
    (h : message.messageId ≠ id) :
    view.applyAll (processSuccessfulRedecryptedMessage env message) id = view id := by
  unfold processSuccessfulRedecryptedMessage
  cases message.content with
  | none | some content => exact View.set_of_ne view _ h.symm

/-- A late event changes another message only if it is a reaction to it. -/
theorem apply_sentFor_of_ne (view : View) (room : CachedRoom M) {event : TimelineEvent}
    {eventId id : String} (hid : event.eventId = some eventId) (hne : eventId ≠ id)
    (hutd : isUnableToDecrypt event = false) :
    view.applyAll (sentFor env room event) id
      = (view id).map (addReactions (reactionsTo env id [event])) := by
  have hreaction := reactionOf_eq env event room.media
  -- an event that is no reaction changes nothing but its own message
  have hother : ∀ view' : View, reactionOf env event = none → view' id = view id →
      view' id = (view id).map (addReactions (reactionsTo env id [event])) := by
    intro view' hnone hsame
    have hadded : reactionsTo env id [event] = [] := by simp [reactionsTo, hnone]
    rw [hadded, map_addReactions_nil, hsame]
  rw [sentFor_eq]
  cases heffect : (effectOf env event room.media).1 with
  | reacted messageId reactionId reaction =>
    have hself : reactionId = eventId :=
      Option.some.inj ((eventId_of_reacted env heffect).symm.trans hid)
    rw [heffect] at hreaction
    have hremoved : (view.apply (redactEncryptedMessage env reactionId)) id = view id :=
      View.set_of_ne view _ (hself ▸ hne).symm
    simp only [processSuccessfulRedecryptedReaction, View.applyAll_cons, View.applyAll_nil]
    rw [← hremoved]
    by_cases hmessage : messageId = id
    · subst hmessage
      have hadded : reactionsTo env messageId [event]
          = [⟨env.roomId, messageId, reaction.emoji, some reaction.userId⟩] := by
        simp [reactionsTo, hreaction]
      rw [hadded]
      exact View.set_self _ _ _
    · have hadded : reactionsTo env id [event] = [] := by
        simp [reactionsTo, hreaction, hmessage]
      rw [hadded, map_addReactions_nil]
      exact View.set_of_ne _ _ (Ne.symm hmessage)
  | assembled original =>
    rw [heffect] at hreaction
    have hself := (eventId_of_assembled env heffect).symm.trans hid
    refine hother _ hreaction (apply_processMessage_of_ne view ?_)
    rw [CachedMessage.buildFromOriginal_eq]
    exact fun heq => hne (heq ▸ (Option.some.inj hself).symm)
  | undecryptable encrypted sessionId =>
    exact absurd heffect (effectOf_ne_undecryptable env hutd _ encrypted sessionId)
  | failed =>
    rw [heffect] at hreaction
    exact hother view hreaction rfl
  | ignored | replaced | redacted | pollReplaced | pollAnswered | pollEnded =>
    rw [heffect] at hreaction
    rw [hid]
    exact hother _ hreaction (View.set_of_ne view _ hne.symm)

/-- What a late event leaves of its own message, from what is shown of its original. -/
def resolved (room : CachedRoom M) (env : RoomEnv M) (event : TimelineEvent)
    (message : Option Message) : Option Message :=
  match (effectOf env event room.media).1 with
  | .failed => message
  | .assembled original =>
    (room.shown env original).content.bind fun content =>
      message.map fun message => { message with content := some content, isEncrypted := false }
  | _ => none

theorem apply_sentFor_self (view : View) (room : CachedRoom M) {event : TimelineEvent} {id : String}
    (hid : event.eventId = some id) (hutd : isUnableToDecrypt event = false) :
    view.applyAll (sentFor env room event) id = resolved room env event (view id) := by
  unfold resolved
  rw [sentFor_eq]
  cases heffect : (effectOf env event room.media).1 with
  | reacted messageId reactionId reaction =>
    obtain rfl := Option.some.inj ((eventId_of_reacted env heffect).symm.trans hid)
    simp only [processSuccessfulRedecryptedReaction, View.applyAll_cons, View.applyAll_nil]
    have hremoved : (view.apply (redactEncryptedMessage env reactionId)) reactionId = none :=
      View.set_self _ _ _
    by_cases hmessage : messageId = reactionId
    · subst hmessage
      refine (View.set_self _ _ _).trans ?_
      rw [hremoved]
      rfl
    · exact (View.set_of_ne _ _ (Ne.symm hmessage)).trans hremoved
  | assembled original =>
    obtain rfl := Option.some.inj ((eventId_of_assembled env heffect).symm.trans hid)
    dsimp only
    rw [CachedMessage.buildFromOriginal_eq]
    simp only [processSuccessfulRedecryptedMessage, CachedRoom.shown]
    cases (room.cachedAt original.messageId).shownContent env.order original.content with
    | none => exact View.set_self _ _ _
    | some content => exact View.set_self _ _ _
  | undecryptable encrypted sessionId =>
    exact absurd heffect (effectOf_ne_undecryptable env hutd _ encrypted sessionId)
  | failed => rfl
  | ignored | replaced | redacted | pollReplaced | pollAnswered | pollEnded =>
    rw [hid]
    exact View.set_self _ _ _

/-! ## A whole run of `retry_decryption` -/

/-- The events have ids of their own and have been decrypted. -/
structure Decrypted (events : List TimelineEvent) : Prop where
  ids : (events.filterMap TimelineEvent.eventId).Nodup
  decrypted : ∀ event ∈ events, isUnableToDecrypt event = false ∧ event.eventId.isSome = true

/-- The reactions among events of other messages are added. -/
theorem apply_sentOf_of_not_mem (room : CachedRoom M) {retried : List TimelineEvent} {id : String}
    (hdecrypted : ∀ event ∈ retried, isUnableToDecrypt event = false ∧ event.eventId.isSome = true)
    (hid : ∀ event ∈ retried, event.eventId ≠ some id) (view : View) :
    view.applyAll (sentOf env room retried) id
      = (view id).map (addReactions (reactionsTo env id retried)) := by
  induction retried generalizing room view with
  | nil => exact (map_addReactions_nil _).symm
  | cons event retried ih =>
    obtain ⟨hutd, hsome⟩ := hdecrypted event List.mem_cons_self
    obtain ⟨eventId, heventId⟩ := Option.isSome_iff_exists.mp hsome
    have hne : eventId ≠ id := fun heq => hid event List.mem_cons_self (heq ▸ heventId)
    have hrest := ih (room.processTimelineEvent env event).2
      (fun e he => hdecrypted e (List.mem_cons_of_mem _ he))
      (fun e he => hid e (List.mem_cons_of_mem _ he)) (view.applyAll (sentFor env room event))
    have hcons : reactionsTo env id (event :: retried)
        = reactionsTo env id [event] ++ reactionsTo env id retried :=
      reactionsTo_append id [event] retried
    rw [sentOf, View.applyAll_append, hrest, apply_sentFor_of_ne view room heventId hne hutd, hcons,
      Option.map_map]
    congr 1
    funext message
    exact (addReactions_append _ _ message).symm

/-- A late event resolves its own message, to which the late reactions are added. -/
theorem apply_sentOf_of_split (room : CachedRoom M) {before after : List TimelineEvent}
    {event : TimelineEvent} {id : String} (hid : event.eventId = some id)
    (h : Decrypted (before ++ event :: after)) (view : View) :
    view.applyAll (sentOf env room (before ++ event :: after)) id
      = (resolved (afterEvents env room before) env event
          ((view id).map (addReactions (reactionsTo env id before)))).map
            (addReactions (reactionsTo env id after)) := by
  have hids := h.ids
  rw [List.filterMap_append, List.filterMap_cons_some hid, List.nodup_append] at hids
  obtain ⟨-, hafter, hbefore⟩ := hids
  have hnotBefore : ∀ e ∈ before, e.eventId ≠ some id := fun e he heq =>
    hbefore id (List.mem_filterMap.mpr ⟨e, he, heq⟩) id List.mem_cons_self rfl
  have hnotAfter : ∀ e ∈ after, e.eventId ≠ some id := fun e he heq =>
    (List.nodup_cons.mp hafter).1 (List.mem_filterMap.mpr ⟨e, he, heq⟩)
  have hdecrypted := h.decrypted
  rw [List.forall_mem_append, List.forall_mem_cons] at hdecrypted
  obtain ⟨hdecryptedBefore, hevent, hdecryptedAfter⟩ := hdecrypted
  rw [sentOf_append, View.applyAll_append, sentOf, View.applyAll_append,
    apply_sentOf_of_not_mem _ hdecryptedAfter hnotAfter,
    apply_sentFor_self _ _ hid hevent.1, apply_sentOf_of_not_mem _ hdecryptedBefore hnotBefore]

end Retry

end GoudaMatrix.MemoryCache
