/-
  The messages as the application has them, and the history that it fetches.

  A history ends at the first event that cannot be processed. What is fetched of it is, for every
  id, the message that has been built when the event with this id was processed
  (`fetched_of_split`), so that it only depends on what the events before have left in the room.
-/
import GoudaMatrix.MemoryCache.Effect
import GoudaMatrix.MemoryCache.Totality

namespace GoudaMatrix.MemoryCache

open GoudaMatrix.Lib GoudaMatrix.Ruma

/-! ## The view of the application -/

/-- The messages of the room that the application has, by their ids. -/
abbrev View := String → Option Message

def applyChange (message : Message) (change : MessageChangeEvent) : Message :=
  { message with
    content := change.content <|> message.content
    isEncrypted := change.isEncrypted.getD message.isEncrypted
    edited := change.edited.getD message.edited
    mentionedUserIds := change.mentionedUserIds.getD message.mentionedUserIds }

def addReactions (reactions : List Reaction) (message : Message) : Message :=
  { message with reactions := message.reactions ++ reactions }

namespace View

def empty : View := fun _ => none

def set (view : View) (id : String) (message : Option Message) : View :=
  fun id' => if id' = id then message else view id'

/-- The application applies an event field by field. -/
def apply (view : View) : MessageEvent → View
  | .received message => view.set message.messageId (some message)
  | .changed change =>
    view.set change.messageId ((view change.messageId).map fun message =>
      applyChange message change)
  | .removed remove => view.set remove.messageId none
  | .reactionCreated reaction =>
    view.set reaction.messageId ((view reaction.messageId).map (addReactions [reaction]))

def applyAll (view : View) (events : List MessageEvent) : View := events.foldl apply view

@[simp] theorem applyAll_nil (view : View) : view.applyAll [] = view := rfl

@[simp] theorem applyAll_cons (view : View) (event : MessageEvent) (events : List MessageEvent) :
    view.applyAll (event :: events) = (view.apply event).applyAll events := rfl

theorem applyAll_append (view : View) (events events' : List MessageEvent) :
    view.applyAll (events ++ events') = (view.applyAll events).applyAll events' := by
  simp [applyAll]

@[simp] theorem set_self (view : View) (id : String) (message : Option Message) :
    view.set id message id = message := if_pos rfl

theorem set_of_ne (view : View) {id id' : String} (message : Option Message) (h : id' ≠ id) :
    view.set id message id' = view id' := if_neg h

end View

/-! ## The shown message -/

namespace CachedMessage

variable (o : IterationOrder) (cached : CachedMessage)

/-- What is shown of an original with the given content. -/
def shownContent : Option Content → Option Content
  | some (.removed reason) =>
    some (.removed (match cached.redaction with
      | some redaction => redaction.content.reason
      | none => reason))
  | some (.poll poll) =>
    some (.poll (cached.applyPollEnds (cached.applyPollResponses o
      (cached.applyPollReplacements o poll))))
  | content =>
    match (sortByKey CachedReplacement.timestamp (cached.replacements.values o)).getLast? with
    | some replacement => some replacement.newContent
    | none => content

/-- Only a message that is neither removed nor a poll shows its edits. -/
def showsEdit : Option Content → Bool
  | some (.removed _) | some (.poll _) => false
  | _ => !cached.replacements.entries.isEmpty

def isRemoved : Option Content → Bool
  | some (.removed _) => true
  | _ => false

/-- The cached reactions of the message. -/
def reactionList (roomId messageId : String) : List Reaction :=
  (cached.reactions.values o).map fun reaction =>
    ⟨roomId, messageId, reaction.emoji, some reaction.userId⟩

theorem applyReplacements_eq (message : Message) :
    cached.applyReplacements o message
      = { message with
          content := match (sortByKey CachedReplacement.timestamp
              (cached.replacements.values o)).getLast? with
            | some replacement => some replacement.newContent
            | none => message.content
          edited := message.edited || !cached.replacements.entries.isEmpty } := by
  unfold applyReplacements
  cases hlast : (sortByKey CachedReplacement.timestamp (cached.replacements.values o)).getLast? with
  | none =>
    have hvalues := getLast?_sortByKey_eq_none.mp hlast
    have hempty : cached.replacements.entries.isEmpty = true := by
      rw [← HashMap.isEmpty_values o, hvalues]
      rfl
    simp [hempty]
  | some replacement =>
    have hempty : cached.replacements.entries.isEmpty = false := by
      rw [← HashMap.isEmpty_values o]
      exact List.isEmpty_eq_false_iff.mpr (List.ne_nil_of_mem (getLast?_sortByKey hlast).1)
    simp [hempty]

/-- The built message, with what is shown of the cached relations. -/
theorem buildFromOriginal_eq (original : Message) :
    (cached.buildFromOriginal o original).1
      = { original with
          content := cached.shownContent o original.content
          edited := original.edited || cached.showsEdit original.content
          reactions := original.reactions
            ++ if isRemoved original.content then []
              else cached.reactionList o original.roomId original.messageId } := by
  obtain ⟨messageId, roomId, senderId, timestamp, content, relatedMessageId, isEncrypted, reactions,
    mentionedUserIds, roomMentioned, threadId, edited⟩ := original
  match content with
  | some (.removed reason) =>
    simp only [buildFromOriginal, buildRemoved, shownContent, showsEdit, isRemoved]
    cases cached.redaction <;> simp
  | some (.poll poll) =>
    simp [buildFromOriginal, buildPoll, applyReactions, shownContent, showsEdit, isRemoved,
      reactionList]
  | none | some (.text _) | some (.file _ _) | some (.membershipChange _ _) =>
    simp [buildFromOriginal, buildOther, applyReplacements_eq, applyReactions, shownContent,
      showsEdit, isRemoved, reactionList]

end CachedMessage

/-! ## Histories -/

/-- The list up to the first element with the property, which is its last one. -/
def upToFirst {α : Type} (p : α → Bool) : List α → List α
  | [] => []
  | x :: xs => x :: if p x then [] else upToFirst p xs

theorem upToFirst_isPrefix {α : Type} (p : α → Bool) (xs : List α) : upToFirst p xs <+: xs := by
  induction xs with
  | nil => exact List.prefix_refl _
  | cons x xs ih =>
    refine (List.cons_prefix_cons).mpr ⟨rfl, ?_⟩
    split
    · exact List.nil_prefix
    · exact ih

theorem upToFirst_of_false {α : Type} {p : α → Bool} {xs : List α} (h : ∀ x ∈ xs, p x = false) :
    upToFirst p xs = xs := by
  induction xs with
  | nil => rfl
  | cons x xs ih =>
    rw [upToFirst, h x List.mem_cons_self, ih fun y hy => h y (List.mem_cons_of_mem x hy)]
    rfl

theorem upToFirst_map {α β : Type} (f : α → β) (p : β → Bool) (xs : List α) :
    upToFirst p (xs.map f) = (upToFirst (fun x => p (f x)) xs).map f := by
  induction xs with
  | nil => rfl
  | cons x xs ih =>
    simp only [List.map_cons, upToFirst]
    split
    · rfl
    · rw [ih]

theorem upToFirst_of_mem {α : Type} {p : α → Bool} {xs : List α} {x : α} (hmem : x ∈ xs)
    (hx : p x = true) :
    ∃ before y after, xs = before ++ y :: after ∧ p y = true ∧ upToFirst p xs = before ++ [y] := by
  induction xs with
  | nil => cases hmem
  | cons z xs ih =>
    cases hz : p z with
    | true => exact ⟨[], z, xs, rfl, hz, by simp [upToFirst, hz]⟩
    | false =>
      have hrest : x ∈ xs := by
        rcases List.mem_cons.mp hmem with rfl | hrest
        · rw [hx] at hz
          cases hz
        · exact hrest
      obtain ⟨before, y, after, rfl, hy, hupTo⟩ := ih hrest
      exact ⟨z :: before, y, after, rfl, hy, by simp [upToFirst, hz, hupTo]⟩

theorem upToFirst_congr {α : Type} {p q : α → Bool} {xs : List α}
    (h : ∀ x ∈ upToFirst p xs, p x = q x) : upToFirst q xs = upToFirst p xs := by
  induction xs with
  | nil => rfl
  | cons x xs ih =>
    have hx : p x = q x := h x List.mem_cons_self
    simp only [upToFirst] at h ⊢
    rw [← hx]
    cases hp : p x with
    | true => rfl
    | false =>
      rw [hp] at h
      simp only [Bool.false_eq_true, if_false] at h ⊢
      rw [ih fun y hy => h y (List.mem_cons_of_mem x hy)]

section Fetching

variable {M : Type} (env : RoomEnv M)

/-- The messages among the actions, as the application receives them. -/
def receivedOf : CachedRoomAction → Option MessageEvent
  | .message message => some (.received message)
  | .reaction _ => none

/-- The room after a fetched history, and what the application gets of it. -/
def CachedRoom.fetchHistory (room : CachedRoom M) (events : List TimelineEvent) :
    CachedRoom M × List MessageEvent :=
  let (_, room, actions) := room.processEvents env events
  (room, actions.filterMap receivedOf)

/-- The message that is built of an event. -/
def messageOf (room : CachedRoom M) (event : TimelineEvent) : Option Message :=
  match (room.processTimelineEvent env event).1 with
  | .ok (some (.message message)) => some message
  | _ => none

theorem messageOf_eq (room : CachedRoom M) (event : TimelineEvent) :
    messageOf env room event
      = match (effectOf env event room.media).1 with
        | .assembled original =>
          some ((room.cachedAt original.messageId).buildFromOriginal env.order original).1
        | .undecryptable event _ => some (CachedRoom.placeholder env event)
        | _ => none := by
  have hcached : ∀ id, ({ room.prepare env event with
      media := (effectOf env event room.media).2 } : CachedRoom M).cachedAt id = room.cachedAt id :=
    CachedRoom.cachedAt_prepare env room event
  unfold messageOf
  rw [CachedRoom.processTimelineEvent_eq]
  cases (effectOf env event room.media).1 with
  | assembled original =>
    simp only [CachedRoom.perform, CachedRoom.assembleMessage_message, hcached]
  | ignored | failed | replaced | redacted | reacted | pollReplaced | pollAnswered | pollEnded
  | undecryptable => rfl

/-- The messages of events that are processed one after another. -/
def messagesOf : CachedRoom M → List TimelineEvent → List Message
  | _, [] => []
  | room, event :: events =>
    (messageOf env room event).toList ++ messagesOf (room.processTimelineEvent env event).2 events

theorem fetchHistory_eq (room : CachedRoom M) (events : List TimelineEvent) :
    room.fetchHistory env events
      = (afterEvents env room (upToFirst startsUnknownPoll events),
        (messagesOf env room (upToFirst startsUnknownPoll events)).map MessageEvent.received) := by
  induction events generalizing room with
  | nil => rfl
  | cons event events ih =>
    have hok := room.processTimelineEvent_isOk env event
    have hafter : ∀ es, afterEvents env room (event :: es)
        = afterEvents env (room.processTimelineEvent env event).2 es := fun _ => rfl
    simp only [upToFirst, hafter, messagesOf, messageOf]
    simp only [CachedRoom.fetchHistory] at ih ⊢
    unfold CachedRoom.processEvents
    generalize room.processTimelineEvent env event = r at hok ⊢
    obtain ⟨result, room₁⟩ := r
    cases result with
    | error e =>
      have hpoll : startsUnknownPoll event = true := by
        simpa using hok.symm
      rw [if_pos hpoll]
      rfl
    | ok action =>
      have hpoll : startsUnknownPoll event = false := by
        simpa using hok.symm
      have hrest := ih room₁
      simp only [Prod.mk.injEq] at hrest
      dsimp only
      rw [hpoll, hrest.1, List.filterMap_append, hrest.2]
      rcases action with - | (message | reaction) <;> rfl

/-- The fetcher sends what is fetched of the history, as long as it is not at its limit. -/
theorem processEventChunk_eq_fetchHistory (room : CachedRoom M) (f : MessagesFetcher)
    (chunk : List TimelineEvent) (h : f.retrievedMessages + chunk.length < f.messageLimit) :
    let sent := f.processEventChunk env (fun _ => true) room chunk
    sent.2.1 = (room.fetchHistory env chunk).1 ∧
      sent.2.2.messages.map MessageEvent.received
        = f.messages.map MessageEvent.received ++ (room.fetchHistory env chunk).2 := by
  induction chunk generalizing room f with
  | nil => exact ⟨rfl, (List.append_nil _).symm⟩
  | cons event chunk ih =>
    rw [List.length_cons] at h
    simp only [CachedRoom.fetchHistory] at ih ⊢
    unfold MessagesFetcher.processEventChunk CachedRoom.processEvents
    generalize room.processTimelineEvent env event = r
    obtain ⟨result, room₁⟩ := r
    cases result with
    | error e => exact ⟨rfl, (List.append_nil _).symm⟩
    | ok action =>
      have hrest : ∀ f' : MessagesFetcher, f'.messageLimit = f.messageLimit →
          f'.retrievedMessages ≤ f.retrievedMessages + 1 →
          let f₁ := f'.updateReadMarkers room₁.readMarkers
          let sent := if f₁.retrievedMessages = f₁.messageLimit then (.ok (), room₁, f₁)
            else f₁.processEventChunk env (fun _ => true) room₁ chunk
          sent.2.1 = (room₁.processEvents env chunk).2.1 ∧
            sent.2.2.messages.map MessageEvent.received
              = f'.messages.map MessageEvent.received
                ++ (room₁.processEvents env chunk).2.2.filterMap receivedOf := by
        intro f' hlimit hretrieved
        have hmarkers : (f'.updateReadMarkers room₁.readMarkers).messageLimit = f'.messageLimit ∧
            (f'.updateReadMarkers room₁.readMarkers).retrievedMessages = f'.retrievedMessages ∧
            (f'.updateReadMarkers room₁.readMarkers).messages = f'.messages := by
          unfold MessagesFetcher.updateReadMarkers
          split <;> exact ⟨rfl, rfl, rfl⟩
        obtain ⟨hlimit₁, hretrieved₁, hmessages⟩ := hmarkers
        have hnext := ih room₁ (f'.updateReadMarkers room₁.readMarkers) (by omega)
        dsimp only
        rw [if_neg (by omega)]
        rw [hmessages] at hnext
        exact hnext
      rcases action with - | (message | reaction)
      · exact hrest f rfl (by omega)
      · have hsent := hrest { f with
          messages := f.messages ++ [message]
          retrievedMessages := f.retrievedMessages + 1 } rfl (Nat.le_refl _)
        rw [List.map_append, List.append_assoc] at hsent
        exact hsent
      · exact hrest f rfl (by omega)

/-- An event that has been decrypted is not cached for redecryption. -/
theorem effectOf_ne_undecryptable {event : TimelineEvent} (h : isUnableToDecrypt event = false)
    (media : M) (encrypted : EncryptedEvent) (sessionId : Option String) :
    (effectOf env event media).1 ≠ .undecryptable encrypted sessionId := by
  intro heffect
  have hkind := kind_of_undecryptable env heffect
  simp [isUnableToDecrypt, hkind] at h

/-! ## What is fetched under an id -/

/-- A message that is built has the id of its event. -/
theorem eventId_of_messageOf {room : CachedRoom M} {event : TimelineEvent} {message : Message}
    (h : messageOf env room event = some message) : event.eventId = some message.messageId := by
  rw [messageOf_eq] at h
  cases heffect : (effectOf env event room.media).1 with
  | assembled original =>
    simp only [heffect, Option.some.injEq] at h
    subst h
    rw [eventId_of_assembled env heffect, CachedMessage.buildFromOriginal_eq]
  | undecryptable encrypted sessionId =>
    simp only [heffect, Option.some.injEq] at h
    subst h
    exact eventId_of_undecryptable env heffect
  | ignored | failed | replaced | redacted | reacted | pollReplaced | pollAnswered | pollEnded =>
    simp [heffect] at h

theorem messagesOf_append (room : CachedRoom M) (events events' : List TimelineEvent) :
    messagesOf env room (events ++ events')
      = messagesOf env room events ++ messagesOf env (afterEvents env room events) events' := by
  induction events generalizing room with
  | nil => rfl
  | cons event events ih =>
    rw [List.cons_append, messagesOf, messagesOf, ih, List.append_assoc]
    rfl

theorem eventId_of_mem_messagesOf {room : CachedRoom M} {events : List TimelineEvent}
    {message : Message} (h : message ∈ messagesOf env room events) :
    ∃ event ∈ events, event.eventId = some message.messageId := by
  induction events generalizing room with
  | nil => simp [messagesOf] at h
  | cons event events ih =>
    rw [messagesOf, List.mem_append, Option.mem_toList] at h
    rcases h with h | h
    · exact ⟨event, List.mem_cons_self, eventId_of_messageOf env h⟩
    · obtain ⟨event', hmem, hid⟩ := ih h
      exact ⟨event', List.mem_cons_of_mem _ hmem, hid⟩

/-- The messages as the application has them when it has received nothing else. -/
def View.ofMessages (messages : List Message) : View :=
  View.empty.applyAll (messages.map MessageEvent.received)

theorem View.applyAll_received_of_ne (view : View) {messages : List Message} {id : String}
    (h : ∀ message ∈ messages, message.messageId ≠ id) :
    view.applyAll (messages.map MessageEvent.received) id = view id := by
  induction messages generalizing view with
  | nil => rfl
  | cons message messages ih =>
    have hrest := ih (view.apply (.received message)) fun m hm => h m (List.mem_cons_of_mem _ hm)
    rw [List.map_cons, View.applyAll_cons, hrest]
    exact View.set_of_ne view _ (h message List.mem_cons_self).symm

/-- Nothing is fetched under an id that no event has. -/
theorem fetched_of_not_mem (room : CachedRoom M) {events : List TimelineEvent} {id : String}
    (h : ∀ event ∈ events, event.eventId ≠ some id) :
    View.ofMessages (messagesOf env room events) id = none := by
  refine View.applyAll_received_of_ne _ fun message hmem heq => ?_
  obtain ⟨event, hevent, hid⟩ := eventId_of_mem_messagesOf env hmem
  exact h event hevent (heq ▸ hid)

/-- What is fetched under the id of an event is built from what the events before it have left. -/
theorem fetched_of_split (room : CachedRoom M) {before after : List TimelineEvent}
    {event : TimelineEvent} {id : String} (hid : event.eventId = some id)
    (hids : ((before ++ event :: after).filterMap TimelineEvent.eventId).Nodup) :
    View.ofMessages (messagesOf env room (before ++ event :: after)) id
      = messageOf env (afterEvents env room before) event := by
  rw [List.filterMap_append, List.filterMap_cons_some hid, List.nodup_append] at hids
  obtain ⟨-, hafter, hbefore⟩ := hids
  have hnone : View.ofMessages (messagesOf env room before) id = none := by
    refine fetched_of_not_mem env room fun e he heq => ?_
    exact hbefore id (List.mem_filterMap.mpr ⟨e, he, heq⟩) id List.mem_cons_self rfl
  have hrest : ∀ view : View, ∀ room' : CachedRoom M,
      view.applyAll ((messagesOf env room' after).map MessageEvent.received) id = view id := by
    intro view room'
    refine View.applyAll_received_of_ne view fun message hmem heq => ?_
    obtain ⟨e, he, heid⟩ := eventId_of_mem_messagesOf env hmem
    exact (List.nodup_cons.mp hafter).1 (List.mem_filterMap.mpr ⟨e, he, heq ▸ heid⟩)
  unfold View.ofMessages at hnone ⊢
  rw [messagesOf_append, messagesOf, List.map_append, List.map_append, View.applyAll_append,
    View.applyAll_append, hrest]
  cases hmessage : messageOf env (afterEvents env room before) event with
  | none => exact hnone
  | some message =>
    have hmid : message.messageId = id :=
      Option.some.inj ((eventId_of_messageOf env hmessage).symm.trans hid)
    subst hmid
    exact View.set_self _ _ _

end Fetching

end GoudaMatrix.MemoryCache
