/-
  A history some of whose events cannot be decrypted at first: it is fetched with placeholders, and
  all of them are decrypted later by one `retry_decryption`.

  The change event of a message that is decrypted late has only its content. What the application
  has in the end differs from what it has of a history that can be decrypted from the start in the
  cases that `CarriedOver` excludes, and only in these (`same_view_iff`); a late edit, for one, is
  never shown (`late_edit_is_lost`).

  `CarriedOver` is about the events: for a message that is shown at first, the events before it
  decide the same with the late ones as without them, and no late reaction comes after it; a late
  message has nothing but its content, no edit comes before it, and what decides on it does so when
  it is decrypted too.
-/
import GoudaMatrix.MemoryCache.Deciding

namespace GoudaMatrix.MemoryCache

open GoudaMatrix.Lib GoudaMatrix.Ruma GoudaMatrix.Polls RelationSet

/-! ## Histories with late events -/

/-- An event of the history, and for a late one its encrypted event. -/
structure HistoryEvent where
  decrypted : TimelineEvent
  late : Option CachedEncryptedEvent
deriving DecidableEq

/-- The event as it is fetched when the late events cannot be decrypted. -/
def HistoryEvent.atFirst (event : HistoryEvent) : TimelineEvent :=
  match event.late with
  | none => event.decrypted
  | some encrypted => ⟨.unableToDecrypt (.ok encrypted.event) encrypted.sessionId, none⟩

def HistoryEvent.isLate (event : HistoryEvent) : Bool := event.late.isSome

/-- The fields of a message that the application shows; its reactions have no order, and the voters
    of an option neither. -/
structure SameMessage (message message' : Message) : Prop where
  content : ContentAlike message.content message'.content
  edited : message.edited = message'.edited
  reactions : message.reactions.Perm message'.reactions
  threadId : message.threadId = message'.threadId
  relatedMessageId : message.relatedMessageId = message'.relatedMessageId
  mentionedUserIds : message.mentionedUserIds = message'.mentionedUserIds
  roomMentioned : message.roomMentioned = message'.roomMentioned

def SameView (view view' : View) : Prop := ∀ id, Option.Rel SameMessage (view id) (view' id)

section Histories

variable {M : Type} (env : RoomEnv M) (media : M) (events : List HistoryEvent)

/-- The events are of the room, have ids of their own and can be decrypted in the end, the late ones
    to an event with the id of the encrypted one. -/
structure WellFormed : Prop where
  room : ∀ event ∈ events, ∀ e, readable event.decrypted = some e → e.header.roomId = env.roomId
  ids : (events.filterMap fun event => event.decrypted.eventId).Nodup
  decrypted : ∀ event ∈ events, isUnableToDecrypt event.decrypted = false
  late : ∀ event ∈ events, ∀ encrypted ∈ event.late,
    env.decryptEvent encrypted.event = some event.decrypted ∧
      event.decrypted.eventId = some encrypted.event.eventId

/-- What the application has when the history can be decrypted from the start. -/
def shownDirectly : View :=
  View.empty.applyAll ((CachedRoom.new media).fetchHistory env (events.map (·.decrypted))).2

/-- The room after the history has been fetched with placeholders, and what has been sent. -/
def fetchedAtFirst : CachedRoom M × List MessageEvent :=
  (CachedRoom.new media).fetchHistory env (events.map (·.atFirst))

/-- What the application has when the late events are decrypted afterwards. -/
def shownLate : View :=
  let (room, sent) := fetchedAtFirst env media events
  View.empty.applyAll (sent ++ (room.retryDecryption env none).2.2)

/-! ## What is carried over -/

/-- The events that are fetched at first. -/
def reached : List HistoryEvent := upToFirst (fun event => startsUnknownPoll event.atFirst) events

/-- The late events in the order in which they are decrypted. -/
def retriedEvents : List TimelineEvent :=
  ((fetchedAtFirst env media events).1.getEventsForRedecryption env none).filterMap
    (CachedRoom.retried env)

/-- The room when the event after these is processed, in a history that can be decrypted. -/
def roomDirectly (before : List HistoryEvent) : CachedRoom M :=
  afterEvents env (.new media) (before.map (·.decrypted))

/-- The same, in a history with placeholders. -/
def roomAtFirst (before : List HistoryEvent) : CachedRoom M :=
  afterEvents env (.new media) (before.map (·.atFirst))

/-- The room when the event after these is decrypted late. -/
def roomLate (before : List TimelineEvent) : CachedRoom M :=
  afterEvents env (fetchedAtFirst env media events).1 before

/-- The fields of an original that a change event does not have. -/
structure IsBare (original : Message) : Prop where
  threadId : original.threadId = none
  relatedMessageId : original.relatedMessageId = none
  mentionedUserIds : original.mentionedUserIds = []
  roomMentioned : original.roomMentioned = false

/-- What the events do that come before one, when all can be decrypted. -/
def directEffects (before : List HistoryEvent) : List Effect :=
  effectsFrom env media (before.map (·.decrypted))

/-- The same when the late ones cannot. -/
def effectsAtFirst (before : List HistoryEvent) : List Effect :=
  effectsFrom env media (before.map (·.atFirst))

/-- What has been done when the event after these is decrypted late. -/
def effectsLate (before : List TimelineEvent) : List Effect :=
  effectsFrom env media ((reached events).map (·.atFirst) ++ before)

/-- The reactions to the message that come late. -/
def lateReactions (id : String) (events : List HistoryEvent) : List Reaction :=
  reactionsTo env id ((events.filter (·.isLate)).map (·.decrypted))

/-- The other reactions to the message. -/
def earlyReactions (id : String) (events : List HistoryEvent) : List Reaction :=
  reactionsTo env id ((events.filter fun event => !event.isLate).map (·.decrypted))

/-- The events before a message that is shown at first decide the same without the late ones, and
    no late reaction to it comes after it; one that has been removed has no late reactions. -/
structure KeptEarly (before after : List HistoryEvent) (original original' : Message) : Prop extends
    SameShown env.order original.messageId original.content original'.content
      (directEffects env media before) (effectsAtFirst env media before) where
  after : lateReactions env original.messageId after = []
  before : CachedMessage.isRemoved original.content = true →
    lateReactions env original.messageId before = []

/-- A late message has nothing but its content, no edit comes before it, what has been processed
    when it is decrypted decides the same, and the reactions before it that are not late are those
    that come late after it; one that has been removed has no late reactions. -/
structure KeptLate (before after : List HistoryEvent) (retriedBefore : List TimelineEvent)
    (original original' : Message) : Prop extends
    SameUnedited env.order original.messageId original.content original'.content
      (directEffects env media before) (effectsLate env media events retriedBefore) where
  bare : IsBare original
  reactions : CachedMessage.isRemoved original.content = false →
    (earlyReactions env original.messageId before).Perm
      (lateReactions env original.messageId after)
  none : CachedMessage.isRemoved original.content = true →
    lateReactions env original.messageId before = [] ∧
      lateReactions env original.messageId after = []

/-- What is needed of the history for its messages to be the same in the end. -/
structure CarriedOver : Prop where
  known : ∀ event ∈ reached events, event.isLate = true →
    startsUnknownPoll event.decrypted = false
  early : ∀ before event after, reached events = before ++ event :: after → event.late = none →
    ∀ original original',
      (effectOf env event.decrypted (roomDirectly env media before).media).1 = .assembled original →
      (effectOf env event.decrypted (roomAtFirst env media before).media).1 = .assembled original' →
        KeptEarly env media before after original original'
  late : ∀ before event after, reached events = before ++ event :: after → event.isLate = true →
    ∀ retriedBefore retriedAfter,
      retriedEvents env media events = retriedBefore ++ event.decrypted :: retriedAfter →
    ∀ original original',
      (effectOf env event.decrypted (roomDirectly env media before).media).1 = .assembled original →
      (effectOf env event.decrypted (roomLate env media events retriedBefore).media).1
        = .assembled original' →
        KeptLate env media events before after retriedBefore original original'

/-! ## What is sent -/

variable {env media events}

theorem atFirst_of_early {event : HistoryEvent} (h : event.late = none) :
    event.atFirst = event.decrypted := by
  unfold HistoryEvent.atFirst
  rw [h]

theorem atFirst_of_late {event : HistoryEvent} {encrypted : CachedEncryptedEvent}
    (h : event.late = some encrypted) :
    event.atFirst = ⟨.unableToDecrypt (.ok encrypted.event) encrypted.sessionId, none⟩ := by
  unfold HistoryEvent.atFirst
  rw [h]

theorem fetchedAtFirst_eq :
    fetchedAtFirst env media events
      = (roomAtFirst env media (reached events),
        (messagesOf env (.new media) ((reached events).map (·.atFirst))).map .received) := by
  unfold fetchedAtFirst roomAtFirst reached
  rw [fetchHistory_eq, upToFirst_map]

/-- What a history shows that can be decrypted up to the end. -/
theorem shownDirectly_eq
    (hknown : ∀ event ∈ reached events, startsUnknownPoll event.decrypted
      = startsUnknownPoll event.atFirst) :
    shownDirectly env media events
      = View.ofMessages (messagesOf env (.new media) ((reached events).map (·.decrypted))) := by
  unfold shownDirectly View.ofMessages
  rw [fetchHistory_eq, upToFirst_map, upToFirst_congr fun event hmem => (hknown event hmem).symm]
  rfl

/-! ## The late events -/

variable (env) in
/-- An event that has been decrypted leaves the encrypted events of the others. -/
theorem encryptedEvents_early (room : CachedRoom M) {event : TimelineEvent}
    (hutd : isUnableToDecrypt event = false)
    (hfresh : ∀ id ∈ event.eventId, id ∉ room.encryptedEvents) :
    (room.processTimelineEvent env event).2.encryptedEvents = room.encryptedEvents := by
  rw [CachedRoom.processTimelineEvent_eq, CachedRoom.encryptedEvents_perform]
  · obtain ⟨kind, timestamp⟩ := event
    cases kind with
    | unableToDecrypt e sessionId => cases hutd
    | plainText e => cases e <;> rfl
    | decrypted e =>
      cases e with
      | malformed id => rfl
      | ok e => exact AList.ext (List.kerase_of_notMem_keys (hfresh e.header.eventId rfl))
  · intro encrypted sessionId heffect
    exact effectOf_ne_undecryptable env hutd _ encrypted sessionId heffect

theorem WellFormed.sublist (h : WellFormed env events) {events' : List HistoryEvent}
    (hsublist : events'.Sublist events) : WellFormed env events' where
  room event hmem := h.room event (hsublist.subset hmem)
  ids := (hsublist.filterMap _).nodup h.ids
  decrypted event hmem := h.decrypted event (hsublist.subset hmem)
  late event hmem := h.late event (hsublist.subset hmem)

variable (env) in
/-- What is cached for redecryption are the late events. -/
theorem encryptedEvents_afterEvents (room : CachedRoom M) {events : List HistoryEvent}
    (h : WellFormed env events)
    (hfresh : ∀ event ∈ events, ∀ id ∈ event.decrypted.eventId, id ∉ room.encryptedEvents) :
    ((afterEvents env room (events.map (·.atFirst))).encryptedEvents.entries.map Sigma.snd).Perm
      (events.filterMap (·.late) ++ room.encryptedEvents.entries.map Sigma.snd) := by
  induction events generalizing room with
  | nil => exact List.Perm.refl _
  | cons event events ih =>
    have htail : WellFormed env events := h.sublist (List.sublist_cons_self event events)
    have hrest : ∀ e ∈ events, ∀ id ∈ e.decrypted.eventId, id ∉ room.encryptedEvents :=
      fun e he => hfresh e (List.mem_cons_of_mem _ he)
    have hids := h.ids
    cases hlate : event.late with
    | none =>
      have hatFirst := atFirst_of_early hlate
      have hkept := encryptedEvents_early env room (h.decrypted event List.mem_cons_self)
        (hfresh event List.mem_cons_self)
      have hperm := ih (room.processTimelineEvent env event.atFirst).2 htail
        (by rw [hatFirst, hkept]; exact hrest)
      rw [List.filterMap_cons_none hlate]
      rw [hatFirst, hkept] at hperm
      rw [List.map_cons, hatFirst]
      exact hperm
    | some encrypted =>
      have hatFirst := atFirst_of_late hlate
      obtain ⟨-, hid⟩ := h.late event List.mem_cons_self encrypted hlate
      have hnew : encrypted.event.eventId ∉ room.encryptedEvents :=
        hfresh event List.mem_cons_self _ hid
      have hcached : (room.processTimelineEvent env event.atFirst).2.encryptedEvents
          = room.encryptedEvents.insert encrypted.event.eventId encrypted := by
        rw [hatFirst]
        rfl
      rw [List.filterMap_cons_some (f := fun event : HistoryEvent => event.decrypted.eventId) hid,
        List.nodup_cons] at hids
      have hperm := ih (room.processTimelineEvent env event.atFirst).2 htail (by
        intro e he id heid hmem
        rw [hcached] at hmem
        rcases (AList.mem_insert _).mp hmem with rfl | hmem
        · exact hids.1 (List.mem_filterMap.mpr ⟨e, he, heid⟩)
        · exact hrest e he id heid hmem)
      rw [hcached, AList.entries_insert_of_notMem hnew] at hperm
      rw [List.filterMap_cons_some hlate]
      exact hperm.trans List.perm_middle

theorem reached_sublist (events : List HistoryEvent) : (reached events).Sublist events :=
  (upToFirst_isPrefix _ events).sublist

theorem retried_of_late (h : WellFormed env events) {event : HistoryEvent} (hmem : event ∈ events)
    {encrypted : CachedEncryptedEvent} (hlate : event.late = some encrypted) :
    CachedRoom.retried env encrypted = some event.decrypted := by
  obtain ⟨hdecrypt, hid⟩ := h.late event hmem encrypted hlate
  exact retried_eq_some.mpr ⟨hdecrypt, h.decrypted event hmem, by rw [hid]; rfl⟩

/-- The events that are decrypted late are the late events that have been fetched. -/
theorem retriedEvents_perm (h : WellFormed env events) :
    (retriedEvents env media events).Perm
      (((reached events).filter (·.isLate)).map (·.decrypted)) := by
  have hreached : WellFormed env (reached events) := h.sublist (reached_sublist events)
  have hcached := encryptedEvents_afterEvents env (.new media) hreached
    (fun event _ id _ => AList.notMem_empty id)
  have hlates : ∀ es : List HistoryEvent, (∀ event ∈ es, event ∈ events) →
      (es.filterMap (·.late)).filterMap (CachedRoom.retried env)
        = (es.filter (·.isLate)).map (·.decrypted) := by
    intro es hes
    induction es with
    | nil => rfl
    | cons event es ih =>
      have hrest := ih fun e he => hes e (List.mem_cons_of_mem _ he)
      cases hlate : event.late with
      | none =>
        rw [List.filterMap_cons_none hlate, hrest,
          List.filter_cons_of_neg (by simp [HistoryEvent.isLate, hlate])]
      | some encrypted =>
        rw [List.filterMap_cons_some hlate,
          List.filterMap_cons_some (retried_of_late h (hes event List.mem_cons_self) hlate), hrest,
          List.filter_cons_of_pos (by simp [HistoryEvent.isLate, hlate]), List.map_cons]
  have hvalues : ((roomAtFirst env media (reached events)).getEventsForRedecryption env none).Perm
      ((reached events).filterMap (·.late)) := by
    refine ((env.order.perm _).map Sigma.snd).trans (hcached.trans ?_)
    rw [show (CachedRoom.new media).encryptedEvents.entries = [] from rfl, List.map_nil,
      List.append_nil]
  unfold retriedEvents
  rw [fetchedAtFirst_eq, ← hlates _ (reached_sublist events).subset]
  exact hvalues.filterMap _

variable (media) in
theorem mem_retriedEvents (h : WellFormed env events) {decrypted : TimelineEvent} :
    decrypted ∈ retriedEvents env media events ↔
      ∃ event ∈ reached events, event.isLate = true ∧ event.decrypted = decrypted := by
  rw [(retriedEvents_perm h).mem_iff, List.mem_map]
  simp only [List.mem_filter, and_assoc]

variable (media) in
theorem decrypted_retriedEvents (h : WellFormed env events) :
    Decrypted (retriedEvents env media events) where
  ids := by
    rw [((retriedEvents_perm h).filterMap TimelineEvent.eventId).nodup_iff, List.filterMap_map]
    exact (h.sublist ((List.filter_sublist).trans (reached_sublist events))).ids
  decrypted decrypted hmem := by
    obtain ⟨event, hreached, hlate, rfl⟩ := (mem_retriedEvents media h).mp hmem
    obtain ⟨encrypted, hlate⟩ := Option.isSome_iff_exists.mp hlate
    have hevent := (reached_sublist events).subset hreached
    refine ⟨h.decrypted event hevent, ?_⟩
    rw [(h.late event hevent encrypted hlate).2]
    rfl

/-- What the application has of the history with placeholders, and of the events that are decrypted
    late up to the first that fails. -/
theorem shownLate_eq :
    shownLate env media events
      = (View.ofMessages (messagesOf env (.new media) ((reached events).map (·.atFirst)))).applyAll
          (sentOf env (fetchedAtFirst env media events).1
            (upToFirst startsUnknownPoll (retriedEvents env media events))) := by
  unfold shownLate
  dsimp only
  rw [View.applyAll_append, CachedRoom.retryDecryption, retryEvents_eq]
  congr 1
  rw [fetchedAtFirst_eq]
  rfl

/-! ## One message -/

/-- Of a message that is shown at first, only reactions come late. -/
structure ShownEarly (direct atFirst : Shown) (delivered : List Reaction) : Prop where
  content : ContentAlike direct.content atFirst.content
  edited : direct.edited = atFirst.edited
  reactions : direct.reactions.Perm (atFirst.reactions ++ delivered)

/-- A message that is shown late has nothing but content and the reactions that come late. -/
structure ShownLate (original : Message) (direct late : Shown) (delivered : List Reaction) :
    Prop where
  bare : IsBare original
  content : direct.content.isSome = true ∧ ContentAlike direct.content late.content
  edited : direct.edited = false
  reactions : direct.reactions.Perm delivered

/-- Two originals of one event. -/
theorem sameMessage_early_iff {original original' : Message} {direct atFirst : Shown}
    {delivered : List Reaction}
    (h : { original with content := none } = { original' with content := none }) :
    SameMessage (Message.showing original direct)
        (addReactions delivered (Message.showing original' atFirst)) ↔
      ShownEarly direct atFirst delivered := by
  obtain ⟨messageId, roomId, senderId, timestamp, content, relatedMessageId, isEncrypted, reactions,
    mentionedUserIds, roomMentioned, threadId, edited⟩ := original
  simp only [Message.mk.injEq] at h
  obtain ⟨-, -, -, -, -, hrelated, -, -, hmentioned, hroom, hthread, -⟩ := h
  constructor
  · exact fun hsame => ⟨hsame.content, hsame.edited, hsame.reactions⟩
  · exact fun hkept => ⟨hkept.content, hkept.edited, hkept.reactions, hthread, hrelated, hmentioned,
      hroom⟩

/-- A placeholder that has got its content and the late reactions. -/
def resolvedPlaceholder (env : RoomEnv M) (encrypted : EncryptedEvent) (content : Content)
    (delivered : List Reaction) : Message :=
  { CachedRoom.placeholder env encrypted with
    content := some content
    isEncrypted := false
    reactions := delivered }

theorem isSome_of_contentAlike {a b : Option Content} (h : ContentAlike a b) :
    a.isSome = b.isSome := by
  unfold ContentAlike at h
  split at h
  · rfl
  · rw [h]

theorem sameMessage_late_iff {original : Message} {encrypted : EncryptedEvent} {direct late : Shown}
    {content : Content} {delivered : List Reaction} (hcontent : late.content = some content) :
    SameMessage (Message.showing original direct)
        (resolvedPlaceholder env encrypted content delivered) ↔
      ShownLate original direct late delivered := by
  constructor
  · intro h
    have hdirect : ContentAlike direct.content (some content) := h.content
    refine ⟨⟨h.threadId, h.relatedMessageId, h.mentionedUserIds, h.roomMentioned⟩, ⟨?_, ?_⟩,
      h.edited, h.reactions⟩
    · exact isSome_of_contentAlike hdirect
    · rw [hcontent]
      exact hdirect
  · intro h
    have hsame := h.content.2
    rw [hcontent] at hsame
    exact ⟨hsame, h.edited, h.reactions, h.bare.threadId, h.bare.relatedMessageId,
      h.bare.mentionedUserIds, h.bare.roomMentioned⟩

/-! ## A message of the history -/

theorem eventId_atFirst (h : WellFormed env events) {event : HistoryEvent} (hmem : event ∈ events) :
    event.atFirst.eventId = event.decrypted.eventId := by
  cases hlate : event.late with
  | none => rw [atFirst_of_early hlate]
  | some encrypted =>
    rw [atFirst_of_late hlate, (h.late event hmem encrypted hlate).2]
    rfl

theorem filterMap_eventId_atFirst (h : WellFormed env events) :
    (events.map (·.atFirst)).filterMap TimelineEvent.eventId
      = (events.map (·.decrypted)).filterMap TimelineEvent.eventId := by
  rw [List.filterMap_map, List.filterMap_map]
  exact List.filterMap_congr fun event hmem => eventId_atFirst h hmem

/-- No history is cut short if no late event fails. -/
theorem startsUnknownPoll_reached (h : WellFormed env events)
    (hknown : ∀ event ∈ retriedEvents env media events, startsUnknownPoll event = false) :
    ∀ event ∈ reached events,
      startsUnknownPoll event.decrypted = startsUnknownPoll event.atFirst := by
  intro event hmem
  cases hlate : event.late with
  | none => rw [atFirst_of_early hlate]
  | some encrypted =>
    rw [atFirst_of_late hlate]
    refine hknown _ ((mem_retriedEvents media h).mpr ⟨event, hmem, ?_, rfl⟩)
    rw [HistoryEvent.isLate, hlate]
    rfl

theorem direct_of_split (h : WellFormed env events)
    (hknown : ∀ event ∈ retriedEvents env media events, startsUnknownPoll event = false)
    {before after : List HistoryEvent} {event : HistoryEvent} {id : String}
    (hsplit : reached events = before ++ event :: after) (hid : event.decrypted.eventId = some id) :
    shownDirectly env media events id
      = messageOf env (roomDirectly env media before) event.decrypted := by
  have hids := (h.sublist (reached_sublist events)).ids
  rw [shownDirectly_eq (startsUnknownPoll_reached h hknown), hsplit, List.map_append, List.map_cons]
  refine fetched_of_split env _ hid ?_
  rw [hsplit] at hids
  rwa [← List.map_cons, ← List.map_append, List.filterMap_map]

variable (media) in
/-- What the application has of the event before anything is decrypted late. -/
theorem first_of_split (h : WellFormed env events) {before after : List HistoryEvent}
    {event : HistoryEvent} {id : String} (hsplit : reached events = before ++ event :: after)
    (hid : event.decrypted.eventId = some id) :
    View.ofMessages (messagesOf env (.new media) ((reached events).map (·.atFirst))) id
      = messageOf env (roomAtFirst env media before) event.atFirst := by
  have hreached := h.sublist (reached_sublist events)
  have hmem : event ∈ reached events := by
    rw [hsplit]
    exact List.mem_append_cons_self
  have hids : (((reached events).map (·.atFirst)).filterMap TimelineEvent.eventId).Nodup := by
    rw [filterMap_eventId_atFirst hreached, List.filterMap_map]
    exact hreached.ids
  rw [hsplit, List.map_append, List.map_cons] at hids ⊢
  exact fetched_of_split env _ ((eventId_atFirst hreached hmem).trans hid) hids

/-- An event of the history has its id alone. -/
theorem WellFormed.event_eq (h : WellFormed env events) {event event' : HistoryEvent} {id : String}
    (hmem : event ∈ events) (hmem' : event' ∈ events) (hid : event.decrypted.eventId = some id)
    (hid' : event'.decrypted.eventId = some id) : event = event' := by
  obtain ⟨before, after, rfl⟩ := List.append_of_mem hmem
  have hids := h.ids
  rw [List.filterMap_append,
    List.filterMap_cons_some (f := fun event : HistoryEvent => event.decrypted.eventId) hid,
    List.nodup_append] at hids
  obtain ⟨-, hafter, hbefore⟩ := hids
  rcases List.mem_append.mp hmem' with hmem' | hmem'
  · exact absurd rfl
      (hbefore id (List.mem_filterMap.mpr ⟨event', hmem', hid'⟩) id List.mem_cons_self)
  · rcases List.mem_cons.mp hmem' with rfl | hmem'
    · rfl
    · exact absurd (List.mem_filterMap.mpr ⟨event', hmem', hid'⟩) (List.nodup_cons.mp hafter).1

theorem shownLate_of_known
    (hknown : ∀ event ∈ retriedEvents env media events, startsUnknownPoll event = false) :
    shownLate env media events
      = (View.ofMessages (messagesOf env (.new media) ((reached events).map (·.atFirst)))).applyAll
          (sentOf env (fetchedAtFirst env media events).1 (retriedEvents env media events)) := by
  rw [shownLate_eq, upToFirst_of_false hknown]

/-- A message that is no late one gets the late reactions. -/
theorem late_of_not_late (h : WellFormed env events)
    (hknown : ∀ event ∈ retriedEvents env media events, startsUnknownPoll event = false)
    {id : String}
    (hid : ∀ event ∈ reached events, event.isLate = true → event.decrypted.eventId ≠ some id) :
    shownLate env media events id
      = (View.ofMessages (messagesOf env (.new media) ((reached events).map (·.atFirst))) id).map
          (addReactions (reactionsTo env id (retriedEvents env media events))) := by
  rw [shownLate_of_known hknown]
  refine apply_sentOf_of_not_mem _ (decrypted_retriedEvents media h).decrypted ?_ _
  intro decrypted hmem
  obtain ⟨event, hreached, hlate, rfl⟩ := (mem_retriedEvents media h).mp hmem
  exact hid event hreached hlate

theorem forall_assembled_iff {effect effect' : Effect} {original original' : Message}
    (h : effect = .assembled original) (h' : effect' = .assembled original')
    (p : Message → Message → Prop) :
    (∀ original original', effect = .assembled original → effect' = .assembled original' →
      p original original') ↔ p original original' := by
  constructor
  · exact fun hall => hall original original' h h'
  · intro hp original₁ original₁' h₁ h₁'
    cases h.symm.trans h₁
    cases h'.symm.trans h₁'
    exact hp

/-- Whether an event is assembled does not depend on the media. -/
theorem ne_assembled {event : TimelineEvent} {m : M}
    (h : ¬∃ original, (effectOf env event m).1 = .assembled original) (m' : M)
    (original : Message) : (effectOf env event m').1 ≠ .assembled original := by
  intro heffect
  obtain ⟨original', heffect', -⟩ := effectOf_assembled env heffect m
  exact h ⟨original', heffect'⟩

/-- The condition of `CarriedOver` for one message that is shown at first. -/
theorem rel_early_iff (h : WellFormed env events)
    (hknown : ∀ event ∈ retriedEvents env media events, startsUnknownPoll event = false)
    {before after : List HistoryEvent} {event : HistoryEvent} {id : String}
    (hsplit : reached events = before ++ event :: after) (hid : event.decrypted.eventId = some id)
    (hearly : event.late = none) :
    Option.Rel SameMessage (shownDirectly env media events id) (shownLate env media events id) ↔
      ∀ original original',
        (effectOf env event.decrypted (roomDirectly env media before).media).1
          = .assembled original →
        (effectOf env event.decrypted (roomAtFirst env media before).media).1
          = .assembled original' →
          ShownEarly ((roomDirectly env media before).shown env original)
            ((roomAtFirst env media before).shown env original')
            (reactionsTo env original.messageId (retriedEvents env media events)) := by
  have hmem : event ∈ reached events := by
    rw [hsplit]
    exact List.mem_append_cons_self
  have hnotLate : ∀ event' ∈ reached events, event'.isLate = true →
      event'.decrypted.eventId ≠ some id := by
    intro event' hmem' hlate' hid'
    obtain rfl := (h.sublist (reached_sublist events)).event_eq hmem hmem' hid hid'
    simp [HistoryEvent.isLate, hearly] at hlate'
  have hutd := h.decrypted event ((reached_sublist events).subset hmem)
  rw [direct_of_split h hknown hsplit hid, late_of_not_late h hknown hnotLate,
    first_of_split media h hsplit hid, atFirst_of_early hearly]
  by_cases hassembled : ∃ original,
      (effectOf env event.decrypted (roomDirectly env media before).media).1 = .assembled original
  · obtain ⟨original, heffect⟩ := hassembled
    obtain ⟨original', heffect', hsame⟩ :=
      effectOf_assembled env heffect (roomAtFirst env media before).media
    have hself : original.messageId = id :=
      Option.some.inj ((eventId_of_assembled env heffect).symm.trans hid)
    rw [messageOf_of_assembled heffect, messageOf_of_assembled heffect', Option.map_some,
      Option.rel_some_some, sameMessage_early_iff hsame, ← hself]
    exact (forall_assembled_iff heffect heffect' fun original original' =>
      ShownEarly ((roomDirectly env media before).shown env original)
        ((roomAtFirst env media before).shown env original')
        (reactionsTo env original.messageId (retriedEvents env media events))).symm
  · have hnone := ne_assembled hassembled
    rw [messageOf_of_not_assembled hutd (hnone _), messageOf_of_not_assembled hutd (hnone _)]
    exact ⟨fun _ original _ heffect => absurd heffect (hnone _ original), fun _ => .none⟩

/-- What a late event leaves of its placeholder. -/
theorem late_of_split (h : WellFormed env events)
    (hknown : ∀ event ∈ retriedEvents env media events, startsUnknownPoll event = false)
    {before after : List HistoryEvent} {event : HistoryEvent} {encrypted : CachedEncryptedEvent}
    {id : String} {retriedBefore retriedAfter : List TimelineEvent}
    (hsplit : reached events = before ++ event :: after) (hid : event.decrypted.eventId = some id)
    (hlate : event.late = some encrypted)
    (hretried : retriedEvents env media events
      = retriedBefore ++ event.decrypted :: retriedAfter) :
    shownLate env media events id
      = (resolved (roomLate env media events retriedBefore) env event.decrypted
          (some (addReactions (reactionsTo env id retriedBefore)
            (CachedRoom.placeholder env encrypted.event)))).map
          (addReactions (reactionsTo env id retriedAfter)) := by
  have hdecrypted : Decrypted (retriedBefore ++ event.decrypted :: retriedAfter) :=
    hretried ▸ decrypted_retriedEvents media h
  have hfirst := first_of_split media h hsplit hid
  rw [atFirst_of_late hlate] at hfirst
  rw [shownLate_of_known hknown, hretried, apply_sentOf_of_split _ hid hdecrypted, hfirst]
  rfl

/-- The condition of `CarriedOver` for one message that is decrypted late. -/
theorem rel_late_iff (h : WellFormed env events)
    (hknown : ∀ event ∈ retriedEvents env media events, startsUnknownPoll event = false)
    {before after : List HistoryEvent} {event : HistoryEvent} {encrypted : CachedEncryptedEvent}
    {id : String} {retriedBefore retriedAfter : List TimelineEvent}
    (hsplit : reached events = before ++ event :: after) (hid : event.decrypted.eventId = some id)
    (hlate : event.late = some encrypted)
    (hretried : retriedEvents env media events
      = retriedBefore ++ event.decrypted :: retriedAfter) :
    Option.Rel SameMessage (shownDirectly env media events id) (shownLate env media events id) ↔
      ∀ original original',
        (effectOf env event.decrypted (roomDirectly env media before).media).1
          = .assembled original →
        (effectOf env event.decrypted (roomLate env media events retriedBefore).media).1
          = .assembled original' →
          ShownLate original ((roomDirectly env media before).shown env original)
            ((roomLate env media events retriedBefore).shown env original')
            (reactionsTo env original.messageId (retriedEvents env media events)) := by
  have hmem : event ∈ events := by
    refine (reached_sublist events).subset ?_
    rw [hsplit]
    exact List.mem_append_cons_self
  have hutd := h.decrypted event hmem
  have hmemRetried : event.decrypted ∈ retriedEvents env media events := by
    rw [hretried]
    exact List.mem_append_cons_self
  rw [direct_of_split h hknown hsplit hid, late_of_split h hknown hsplit hid hlate hretried]
  by_cases hassembled : ∃ original,
      (effectOf env event.decrypted (roomDirectly env media before).media).1 = .assembled original
  · obtain ⟨original, heffect⟩ := hassembled
    obtain ⟨original', heffect', -⟩ :=
      effectOf_assembled env heffect (roomLate env media events retriedBefore).media
    have hself : original.messageId = id :=
      Option.some.inj ((eventId_of_assembled env heffect).symm.trans hid)
    have hreactions : reactionsTo env id (retriedEvents env media events)
        = reactionsTo env id retriedBefore ++ reactionsTo env id retriedAfter := by
      rw [hretried, reactionsTo_append, ← List.singleton_append, reactionsTo_append,
        reactionsTo_of_assembled heffect, List.nil_append]
    rw [forall_assembled_iff heffect heffect' fun original original' =>
        ShownLate original ((roomDirectly env media before).shown env original)
          ((roomLate env media events retriedBefore).shown env original')
          (reactionsTo env original.messageId (retriedEvents env media events)),
      hself, messageOf_of_assembled heffect]
    unfold resolved
    rw [heffect']
    dsimp only
    cases hcontent : ((roomLate env media events retriedBefore).shown env original').content with
    | none =>
      refine ⟨nofun, fun hkept => ?_⟩
      have hsome := hkept.content.1
      rw [isSome_of_contentAlike hkept.content.2, hcontent] at hsome
      cases hsome
    | some content =>
      rw [← sameMessage_late_iff hcontent, hreactions, ← Option.rel_some_some (r := SameMessage)]
      rfl
  · have hnone := ne_assembled hassembled
    have hnone' := hnone (roomLate env media events retriedBefore).media
    have hfailed : (effectOf env event.decrypted
        (roomLate env media events retriedBefore).media).1 ≠ .failed := by
      rw [Ne, effectOf_failed_iff, hknown _ hmemRetried]
      exact Bool.false_ne_true
    rw [messageOf_of_not_assembled hutd (hnone _)]
    refine ⟨fun _ original _ heffect => absurd heffect (hnone _ original), fun _ => ?_⟩
    unfold resolved
    generalize (effectOf env event.decrypted (roomLate env media events retriedBefore).media).1
      = effect at hnone' hfailed ⊢
    cases effect with
    | failed => exact absurd rfl hfailed
    | assembled original => exact absurd rfl (hnone' original)
    | ignored | replaced | redacted | reacted | pollReplaced | pollAnswered | pollEnded
    | undecryptable => exact .none

/-! ## What the events decide -/

variable (env media) in
theorem shown_eq (processed : List TimelineEvent) (original : Message) :
    (afterEvents env (.new media) processed).shown env original
      = { content := contentAfter env.order original.messageId (effectsFrom env media processed)
            original.content
          edited := isEditable original.content && (newestContent env.order
            (relationsTo original.messageId (effectsFrom env media processed))).isSome
          reactions := if CachedMessage.isRemoved original.content then []
            else ((afterEvents env (.new media) processed).cachedAt original.messageId).reactionList
              env.order original.roomId original.messageId } := by
  unfold CachedRoom.shown
  dsimp only
  rw [shownContent_effects, showsEdit_effects _ _ _ _ env.order]

theorem roomLate_eq (before : List TimelineEvent) :
    roomLate env media events before
      = afterEvents env (.new media) ((reached events).map (·.atFirst) ++ before) := by
  unfold roomLate
  rw [fetchedAtFirst_eq, afterEvents_append]
  rfl

theorem roomId_of_assembled {event : TimelineEvent} {m : M} {original : Message}
    (h : (effectOf env event m).1 = .assembled original)
    (hroom : ∀ e, readable event = some e → e.header.roomId = env.roomId) :
    original.roomId = env.roomId := by
  rcases source_of_assembled env h with
    ⟨message, hread, rfl⟩ | ⟨e, roomId, content, hread, hid, rfl⟩
  · exact hroom _ hread
  · rcases hid with rfl | rfl
    · exact hroom e hread
    · rfl

theorem fresh_of_assembled_poll {event : TimelineEvent} {m : M} {original : Message}
    (h : (effectOf env event m).1 = .assembled original) (poll : MessageContentPoll)
    (hpoll : original.content = some (.poll poll)) : Fresh poll ∧ poll.completed = false := by
  obtain ⟨pollStart, hstart⟩ := pollStart_of_assembled h hpoll
  exact fresh_of_assemblePollStart hstart

/-! ### Reactions -/

variable (env) in
theorem reactionsTo_perm {es es' : List TimelineEvent} (h : es.Perm es') (id : String) :
    (reactionsTo env id es).Perm (reactionsTo env id es') :=
  (h.filterMap _).filter _

/-- A placeholder is no reaction. -/
theorem reactionsTo_atFirst (id : String) (events : List HistoryEvent) :
    reactionsTo env id (events.map (·.atFirst)) = earlyReactions env id events := by
  unfold earlyReactions
  induction events with
  | nil => rfl
  | cons event events ih =>
    rw [List.map_cons, reactionsTo_cons, ih]
    cases hlate : event.late with
    | none =>
      rw [atFirst_of_early hlate, List.filter_cons_of_pos (by simp [HistoryEvent.isLate, hlate])]
      exact (reactionsTo_cons event.decrypted _ id).symm
    | some encrypted =>
      rw [atFirst_of_late hlate, List.filter_cons_of_neg (by simp [HistoryEvent.isLate, hlate])]
      rfl

theorem reactionsTo_decrypted_perm (id : String) (events : List HistoryEvent) :
    (reactionsTo env id (events.map (·.decrypted))).Perm
      (earlyReactions env id events ++ lateReactions env id events) := by
  unfold earlyReactions lateReactions
  rw [← reactionsTo_append, ← List.map_append]
  refine reactionsTo_perm env (List.Perm.map _ ?_) id
  have hpart := List.filter_append_perm (fun event : HistoryEvent => !event.isLate) events
  simp only [Bool.not_not] at hpart
  exact hpart.symm

/-- The late reactions that are delivered come before or after the message. -/
theorem delivered_perm (h : WellFormed env events) {before after : List HistoryEvent}
    {event : HistoryEvent} (hsplit : reached events = before ++ event :: after) {m : M}
    {original : Message} (heffect : (effectOf env event.decrypted m).1 = .assembled original)
    (id : String) :
    (reactionsTo env id (retriedEvents env media events)).Perm
      (lateReactions env id before ++ lateReactions env id after) := by
  have hretried : (reactionsTo env id (retriedEvents env media events)).Perm _ :=
    reactionsTo_perm env (retriedEvents_perm h) id
  have hself := reactionsTo_of_assembled heffect id
  rw [hsplit, List.filter_append, List.map_append, reactionsTo_append, List.filter_cons] at hretried
  split at hretried
  · rw [List.map_cons, reactionsTo_cons, hself, List.nil_append] at hretried
    exact hretried
  · exact hretried

theorem filterMap_eventId_nodup (h : WellFormed env events) :
    ((events.map (·.decrypted)).filterMap TimelineEvent.eventId).Nodup ∧
      ((events.map (·.atFirst)).filterMap TimelineEvent.eventId).Nodup := by
  rw [filterMap_eventId_atFirst h, List.filterMap_map]
  exact ⟨h.ids, h.ids⟩

theorem perm_append_self_iff {α : Type} {xs ys : List α} : xs.Perm (xs ++ ys) ↔ ys = [] := by
  have hnil : xs.Perm (xs ++ ys) ↔ (xs ++ []).Perm (xs ++ ys) := by rw [List.append_nil]
  rw [hnil, List.perm_append_left_iff, List.nil_perm]

theorem shown_reactions_removed {processed : List TimelineEvent} {original : Message}
    (h : CachedMessage.isRemoved original.content = true) :
    ((afterEvents env (.new media) processed).shown env original).reactions = [] := by
  rw [shown_eq]
  exact if_pos h

theorem shown_reactions_perm {processed : List TimelineEvent} {original : Message}
    (h : CachedMessage.isRemoved original.content = false)
    (hids : (processed.filterMap TimelineEvent.eventId).Nodup)
    (hroom : original.roomId = env.roomId) :
    ((afterEvents env (.new media) processed).shown env original).reactions.Perm
      (reactionsTo env original.messageId processed) := by
  rw [shown_eq, hroom]
  dsimp only
  rw [if_neg (by simp [h])]
  exact reactionList_perm media hids original.messageId

/-- The two originals of an event. -/
theorem isRemoved_eq {event : TimelineEvent} {m m' : M} {original original' : Message}
    (h : (effectOf env event m).1 = .assembled original)
    (h' : (effectOf env event m').1 = .assembled original') :
    CachedMessage.isRemoved original'.content = CachedMessage.isRemoved original.content := by
  have hnot : ∀ {content : Option Content}, isEditable content = true →
      CachedMessage.isRemoved content = false := by
    intro content hcontent
    match content with
    | some (.removed reason) | some (.poll poll) => cases hcontent
    | none | some (.text _) | some (.file _ _) | some (.membershipChange _ _) => rfl
  rcases contents_of_assembled h h' with hsame | ⟨heditable, heditable'⟩
  · rw [hsame]
  · rw [hnot heditable, hnot heditable']

theorem messageId_eq {event : TimelineEvent} {m m' : M} {original original' : Message}
    (h : (effectOf env event m).1 = .assembled original)
    (h' : (effectOf env event m').1 = .assembled original') :
    original'.messageId = original.messageId :=
  Option.some.inj ((eventId_of_assembled env h').symm.trans (eventId_of_assembled env h))

section OneEvent

variable {before after : List HistoryEvent} {event : HistoryEvent} {original original' : Message}

theorem wellFormed_before (h : WellFormed env events)
    (hsplit : reached events = before ++ event :: after) : WellFormed env before := by
  refine h.sublist (List.Sublist.trans ?_ (reached_sublist events))
  rw [hsplit]
  exact List.sublist_append_left _ _

theorem room_of_split (h : WellFormed env events)
    (hsplit : reached events = before ++ event :: after) :
    ∀ e, readable event.decrypted = some e → e.header.roomId = env.roomId := by
  refine h.room event ((reached_sublist events).subset ?_)
  rw [hsplit]
  exact List.mem_append_cons_self

/-- The reactions to a message that is shown at first. -/
theorem reactions_early_iff (h : WellFormed env events)
    (hsplit : reached events = before ++ event :: after)
    (heffect : (effectOf env event.decrypted (roomDirectly env media before).media).1
      = .assembled original)
    (heffect' : (effectOf env event.decrypted (roomAtFirst env media before).media).1
      = .assembled original') :
    ((roomDirectly env media before).shown env original).reactions.Perm
        (((roomAtFirst env media before).shown env original').reactions
          ++ reactionsTo env original.messageId (retriedEvents env media events)) ↔
      lateReactions env original.messageId after = [] ∧
        (CachedMessage.isRemoved original.content = true →
          lateReactions env original.messageId before = []) := by
  have hids := filterMap_eventId_nodup (wellFormed_before h hsplit)
  have hroom := room_of_split h hsplit
  have hid := messageId_eq heffect heffect'
  have hremoved := isRemoved_eq heffect heffect'
  have hdelivered : (reactionsTo env original.messageId (retriedEvents env media events)).Perm _ :=
    delivered_perm h hsplit heffect original.messageId
  cases hcase : CachedMessage.isRemoved original.content with
  | true =>
    have hdirect : ((roomDirectly env media before).shown env original).reactions = [] :=
      shown_reactions_removed hcase
    have hfirst : ((roomAtFirst env media before).shown env original').reactions = [] :=
      shown_reactions_removed (hremoved.trans hcase)
    rw [hdirect, hfirst, List.nil_append, hdelivered.congr_right, List.nil_perm,
      List.append_eq_nil_iff]
    exact ⟨fun hnil => ⟨hnil.2, fun _ => hnil.1⟩, fun hnil => ⟨hnil.2 rfl, hnil.1⟩⟩
  | false =>
    have hdirect : ((roomDirectly env media before).shown env original).reactions.Perm _ :=
      (shown_reactions_perm hcase hids.1 (roomId_of_assembled heffect hroom)).trans
        (reactionsTo_decrypted_perm original.messageId before)
    have hfirst : ((roomAtFirst env media before).shown env original').reactions.Perm
        (earlyReactions env original.messageId before) := by
      rw [← reactionsTo_atFirst, ← hid]
      exact shown_reactions_perm (hremoved.trans hcase) hids.2 (roomId_of_assembled heffect' hroom)
    rw [hdirect.congr_left, (hfirst.append hdelivered).congr_right, List.perm_append_left_iff,
      perm_append_self_iff]
    exact ⟨fun hnil => ⟨hnil, nofun⟩, fun hnil => hnil.1⟩

/-- The reactions to a late message. -/
theorem reactions_late_iff (h : WellFormed env events)
    (hsplit : reached events = before ++ event :: after)
    (heffect : (effectOf env event.decrypted (roomDirectly env media before).media).1
      = .assembled original) :
    ((roomDirectly env media before).shown env original).reactions.Perm
        (reactionsTo env original.messageId (retriedEvents env media events)) ↔
      (CachedMessage.isRemoved original.content = false →
        (earlyReactions env original.messageId before).Perm
          (lateReactions env original.messageId after)) ∧
      (CachedMessage.isRemoved original.content = true →
        lateReactions env original.messageId before = [] ∧
          lateReactions env original.messageId after = []) := by
  have hids := filterMap_eventId_nodup (wellFormed_before h hsplit)
  have hdelivered : (reactionsTo env original.messageId (retriedEvents env media events)).Perm _ :=
    delivered_perm h hsplit heffect original.messageId
  rw [hdelivered.congr_right]
  cases hcase : CachedMessage.isRemoved original.content with
  | true =>
    have hdirect : ((roomDirectly env media before).shown env original).reactions = [] :=
      shown_reactions_removed hcase
    rw [hdirect, List.nil_perm, List.append_eq_nil_iff]
    exact ⟨fun hnil => ⟨nofun, fun _ => hnil⟩, fun hnil => hnil.2 rfl⟩
  | false =>
    have hdirect : ((roomDirectly env media before).shown env original).reactions.Perm _ :=
      (shown_reactions_perm hcase hids.1
        (roomId_of_assembled heffect (room_of_split h hsplit))).trans
        (reactionsTo_decrypted_perm original.messageId before)
    rw [hdirect.congr_left, (List.perm_append_comm).congr_left, List.perm_append_left_iff]
    exact ⟨fun hperm => ⟨fun _ => hperm, nofun⟩, fun hperm => hperm.1 rfl⟩

/-- What is shown of a message that is shown at first, in terms of the events. -/
theorem keptEarly_iff (h : WellFormed env events)
    (hsplit : reached events = before ++ event :: after)
    (heffect : (effectOf env event.decrypted (roomDirectly env media before).media).1
      = .assembled original)
    (heffect' : (effectOf env event.decrypted (roomAtFirst env media before).media).1
      = .assembled original') :
    ShownEarly ((roomDirectly env media before).shown env original)
        ((roomAtFirst env media before).shown env original')
        (reactionsTo env original.messageId (retriedEvents env media events)) ↔
      KeptEarly env media before after original original' := by
  have hreactions := reactions_early_iff h hsplit heffect heffect'
  have hshown : (ContentAlike ((roomDirectly env media before).shown env original).content
        ((roomAtFirst env media before).shown env original').content ∧
      ((roomDirectly env media before).shown env original).edited
        = ((roomAtFirst env media before).shown env original').edited) ↔
      SameShown env.order original.messageId original.content original'.content
        (directEffects env media before) (effectsAtFirst env media before) := by
    unfold roomDirectly roomAtFirst
    rw [shown_eq, shown_eq, messageId_eq heffect heffect']
    exact sameShown_iff (contents_of_assembled heffect heffect') (fresh_of_assembled_poll heffect)
      fun _ => newestContent_ne_poll
  constructor
  · intro hkept
    obtain ⟨hafter, hbefore⟩ := hreactions.mp hkept.reactions
    exact ⟨hshown.mp ⟨hkept.content, hkept.edited⟩, hafter, hbefore⟩
  · intro hkept
    obtain ⟨hcontent, hedited⟩ := hshown.mpr hkept.toSameShown
    exact ⟨hcontent, hedited, hreactions.mpr ⟨hkept.after, hkept.before⟩⟩

/-- What is shown of a late message, in terms of the events. -/
theorem keptLate_iff (h : WellFormed env events)
    (hsplit : reached events = before ++ event :: after) {retriedBefore : List TimelineEvent}
    (heffect : (effectOf env event.decrypted (roomDirectly env media before).media).1
      = .assembled original)
    (heffect' : (effectOf env event.decrypted (roomLate env media events retriedBefore).media).1
      = .assembled original') :
    ShownLate original ((roomDirectly env media before).shown env original)
        ((roomLate env media events retriedBefore).shown env original')
        (reactionsTo env original.messageId (retriedEvents env media events)) ↔
      KeptLate env media events before after retriedBefore original original' := by
  have hreactions : _ ↔ _ := reactions_late_iff h hsplit heffect
  have hshown : (((roomDirectly env media before).shown env original).content.isSome = true ∧
      ContentAlike ((roomDirectly env media before).shown env original).content
        ((roomLate env media events retriedBefore).shown env original').content ∧
      ((roomDirectly env media before).shown env original).edited = false) ↔
      SameUnedited env.order original.messageId original.content original'.content
        (directEffects env media before) (effectsLate env media events retriedBefore) := by
    rw [roomLate_eq]
    unfold roomDirectly
    rw [shown_eq, shown_eq, messageId_eq heffect heffect']
    exact sameUnedited_iff (contents_of_assembled heffect heffect')
      (fresh_of_assembled_poll heffect) fun _ => newestContent_ne_poll
  constructor
  · intro hkept
    obtain ⟨hperm, hnone⟩ := hreactions.mp hkept.reactions
    exact ⟨hshown.mp ⟨hkept.content.1, hkept.content.2, hkept.edited⟩, hkept.bare, hperm, hnone⟩
  · intro hkept
    obtain ⟨hsome, hcontent, hedited⟩ := hshown.mpr hkept.toSameUnedited
    exact ⟨hkept.bare, ⟨hsome, hcontent⟩, hedited, hreactions.mpr ⟨hkept.reactions, hkept.none⟩⟩

end OneEvent

/-! ## The whole history -/

/-- An event that fails is not shown of a history that can be decrypted. -/
theorem direct_of_unknown (h : WellFormed env events) {event : HistoryEvent} {id : String}
    (hmem : event ∈ events) (hid : event.decrypted.eventId = some id)
    (hunknown : startsUnknownPoll event.decrypted = true) :
    shownDirectly env media events id = none := by
  have hshown : shownDirectly env media events
      = View.ofMessages (messagesOf env (.new media)
          ((upToFirst (fun event => startsUnknownPoll event.decrypted) events).map
            (·.decrypted))) := by
    unfold shownDirectly View.ofMessages
    rw [fetchHistory_eq, upToFirst_map]
  have hstart := upToFirst_isPrefix (fun event : HistoryEvent => startsUnknownPoll event.decrypted)
    events
  rw [hshown]
  by_cases hfetched :
      event ∈ upToFirst (fun event : HistoryEvent => startsUnknownPoll event.decrypted) events
  · obtain ⟨before, after, hsplit⟩ := List.append_of_mem hfetched
    have hids := (h.sublist hstart.sublist).ids
    rw [hsplit] at hids ⊢
    rw [List.map_append, List.map_cons, fetched_of_split env _ hid]
    · rw [messageOf_eq, (effectOf_failed_iff _).mpr hunknown]
    · rwa [← List.map_cons, ← List.map_append, List.filterMap_map]
  · refine fetched_of_not_mem env _ fun decrypted hdecrypted hid' => hfetched ?_
    obtain ⟨event', hfetched', rfl⟩ := List.mem_map.mp hdecrypted
    rw [h.event_eq hmem (hstart.subset hfetched') hid hid']
    exact hfetched'

/-- The first late event that fails keeps its placeholder. -/
theorem known_of_sameView (h : WellFormed env events)
    (hsame : SameView (shownDirectly env media events) (shownLate env media events)) :
    ∀ event ∈ retriedEvents env media events, startsUnknownPoll event = false := by
  intro decrypted hmem
  refine Bool.eq_false_iff.mpr fun hunknown => ?_
  obtain ⟨before, failing, after, hsplit, hfailing, hupTo⟩ := upToFirst_of_mem hmem hunknown
  have hmemFailing : failing ∈ retriedEvents env media events := by
    rw [hsplit]
    exact List.mem_append_cons_self
  obtain ⟨event, hreached, hlate, rfl⟩ := (mem_retriedEvents media h).mp hmemFailing
  obtain ⟨encrypted, hlate⟩ := Option.isSome_iff_exists.mp hlate
  have hevent := (reached_sublist events).subset hreached
  have hid := (h.late event hevent encrypted hlate).2
  obtain ⟨reachedBefore, reachedAfter, hreachedSplit⟩ := List.append_of_mem hreached
  have hfirst := first_of_split media h hreachedSplit hid
  rw [atFirst_of_late hlate] at hfirst
  have hdecrypted : Decrypted (before ++ [event.decrypted]) := by
    have hsublist : (before ++ [event.decrypted]).Sublist (retriedEvents env media events) :=
      hupTo ▸ (upToFirst_isPrefix _ _).sublist
    have hall := decrypted_retriedEvents media h
    exact ⟨(hsublist.filterMap _).nodup hall.ids, fun e he => hall.decrypted e (hsublist.subset he)⟩
  have hrel := hsame encrypted.event.eventId
  rw [direct_of_unknown h hevent hid hfailing, shownLate_eq, hupTo,
    apply_sentOf_of_split _ hid hdecrypted, hfirst] at hrel
  unfold resolved at hrel
  rw [(effectOf_failed_iff _).mpr hfailing] at hrel
  cases hrel

theorem known_iff (h : WellFormed env events) :
    (∀ event ∈ retriedEvents env media events, startsUnknownPoll event = false) ↔
      ∀ event ∈ reached events, event.isLate = true →
        startsUnknownPoll event.decrypted = false := by
  simp only [mem_retriedEvents media h]
  constructor
  · exact fun hall event hmem hlate => hall _ ⟨event, hmem, hlate, rfl⟩
  · rintro hall _ ⟨event, hmem, hlate, rfl⟩
    exact hall event hmem hlate

/-- The application has the same messages in the end exactly if everything late is carried over. -/
theorem same_view_iff (h : WellFormed env events) :
    SameView (shownDirectly env media events) (shownLate env media events)
      ↔ CarriedOver env media events := by
  have hreached := h.sublist (reached_sublist events)
  constructor
  · intro hsame
    have hknown := known_of_sameView h hsame
    refine ⟨(known_iff h).mp hknown, ?_, ?_⟩
    · intro before event after hsplit hearly original original' heffect heffect'
      exact (keptEarly_iff h hsplit heffect heffect').mp
        ((rel_early_iff h hknown hsplit (eventId_of_assembled env heffect) hearly).mp
          (hsame original.messageId) original original' heffect heffect')
    · intro before event after hsplit hlate retriedBefore retriedAfter hretried original original'
        heffect heffect'
      obtain ⟨encrypted, hlate⟩ := Option.isSome_iff_exists.mp hlate
      exact (keptLate_iff h hsplit heffect heffect').mp
        ((rel_late_iff h hknown hsplit (eventId_of_assembled env heffect) hlate hretried).mp
          (hsame original.messageId) original original' heffect heffect')
  · intro hcarried id
    have hknown : ∀ event ∈ retriedEvents env media events, startsUnknownPoll event = false :=
      (known_iff h).mpr hcarried.known
    by_cases hevent : ∃ event ∈ reached events, event.decrypted.eventId = some id
    · obtain ⟨event, hmem, hid⟩ := hevent
      obtain ⟨before, after, hsplit⟩ := List.append_of_mem hmem
      cases hlate : event.late with
      | none =>
        refine (rel_early_iff h hknown hsplit hid hlate).mpr
          fun original original' heffect heffect' => ?_
        exact (keptEarly_iff h hsplit heffect heffect').mpr
          (hcarried.early before event after hsplit hlate original original' heffect heffect')
      | some encrypted =>
        have hisLate : event.isLate = true := by rw [HistoryEvent.isLate, hlate]; rfl
        obtain ⟨retriedBefore, retriedAfter, hretried⟩ := List.append_of_mem
          ((mem_retriedEvents media h).mpr ⟨event, hmem, hisLate, rfl⟩)
        refine (rel_late_iff h hknown hsplit hid hlate hretried).mpr
          fun original original' heffect heffect' => ?_
        exact (keptLate_iff h hsplit heffect heffect').mpr (hcarried.late before event after hsplit
          hisLate retriedBefore retriedAfter hretried original original' heffect heffect')
    · -- nothing has been fetched under the id
      have hnone : ∀ event ∈ reached events, event.decrypted.eventId ≠ some id :=
        fun event hmem hid => hevent ⟨event, hmem, hid⟩
      rw [late_of_not_late h hknown fun event hmem _ => hnone event hmem,
        shownDirectly_eq (startsUnknownPoll_reached h hknown), fetched_of_not_mem,
        fetched_of_not_mem]
      · exact .none
      · intro decrypted hmem hid
        obtain ⟨event, hevent, rfl⟩ := List.mem_map.mp hmem
        exact hnone event hevent ((eventId_atFirst hreached hevent).symm.trans hid)
      · intro decrypted hmem
        obtain ⟨event, hevent, rfl⟩ := List.mem_map.mp hmem
        exact hnone event hevent

end Histories

/-! ## Two histories -/

def historyEvent (event : AnyMessageLikeEvent) (isLate : Bool) : HistoryEvent :=
  let header := (AnyTimelineEvent.messageLike event).header
  { decrypted := ⟨.decrypted (.ok (.messageLike event)), none⟩
    late := if isLate then
        some ⟨⟨header.eventId, header.sender, header.originServerTs, "ciphertext"⟩, none⟩
      else none }

def historyEnv (events : List HistoryEvent) : RoomEnv Unit :=
  { RoomEnv.bare "!r" with
    decryptEvent := fun encrypted =>
      (events.find? fun event => event.decrypted.eventId = some encrypted.eventId).map
        (·.decrypted) }

def textEvent (eventId : String) (ts : Nat) (text : String) (relatesTo : Option Relation) :
    AnyMessageLikeEvent :=
  .roomMessage (.original ⟨eventId, "@alice", ts, "!r", ⟨.text text, relatesTo, none⟩⟩)

/-- A late reaction and a late edit of a message that is not late but has a newer edit, and a late
    message. -/
def greetings : List HistoryEvent :=
  [historyEvent (.reaction (.original ⟨"$heart", "@bob", 50, "!r", ⟨"$hi", "<3"⟩⟩)) true,
    historyEvent (textEvent "$edit" 40 "* Hi all"
      (some (.replacement "$hi" ⟨.text "Hi all", none⟩))) false,
    historyEvent (textEvent "$typo" 30 "* Hi al"
      (some (.replacement "$hi" ⟨.text "Hi al", none⟩))) true,
    historyEvent (textEvent "$hi" 20 "Hi" none) false,
    historyEvent (textEvent "$hello" 10 "Hello" none) true]

theorem same_view_iff_greetings :
    SameView (shownDirectly (historyEnv greetings) () greetings)
      (shownLate (historyEnv greetings) () greetings) := by
  have hformed : WellFormed (historyEnv greetings) greetings :=
    ⟨by decide +kernel, by decide +kernel, by decide +kernel, by decide +kernel⟩
  have hreached : reached greetings = greetings := by decide +kernel
  have hretried : retriedEvents (historyEnv greetings) () greetings
      = ((greetings.filter (·.isLate)).map (·.decrypted)).reverse := by decide +kernel
  refine (same_view_iff hformed).mpr ⟨by decide +kernel, ?_, ?_⟩
  · intro before event after hsplit hearly original original' heffect heffect'
    rw [hreached] at hsplit
    match before, hsplit with
    | [_], hsplit =>
      cases hsplit
      cases heffect
    | [_, _, _], hsplit =>
      cases hsplit
      cases heffect
      cases heffect'
      exact {
        removed := nofun
        poll := nofun
        edits := fun _ => by decide +kernel
        unedited := fun _ _ => rfl
        after := by decide +kernel
        before := nofun }
    | [], hsplit | [_, _], hsplit | [_, _, _, _], hsplit =>
      cases hsplit
      cases hearly
    | _ :: _ :: _ :: _ :: _ :: _, hsplit => simp [greetings] at hsplit
  · intro before event after hsplit hlate retriedBefore retriedAfter hretried' original original'
      heffect heffect'
    rw [hreached] at hsplit
    rw [hretried] at hretried'
    match before, hsplit with
    | [_, _, _, _], hsplit =>
      cases hsplit
      -- `$hello` is decrypted first
      match retriedBefore, hretried' with
      | [], hretried' =>
        cases heffect
        cases heffect'
        exact {
          removed := nofun
          poll := nofun
          unedited := fun _ => by decide +kernel
          content := fun _ => by decide +kernel
          bare := ⟨rfl, rfl, rfl, rfl⟩
          reactions := fun _ => by decide +kernel
          none := nofun }
      | _ :: retriedBefore, hretried' =>
        have hmem : (historyEvent (textEvent "$hello" 10 "Hello" none) true).decrypted
            ∈ ((greetings.filter (·.isLate)).map (·.decrypted)).reverse.tail := by
          rw [hretried', List.cons_append, List.tail_cons]
          exact List.mem_append_right _ List.mem_cons_self
        exact absurd hmem (by decide +kernel)
    | [], hsplit | [_, _], hsplit =>
      cases hsplit
      cases heffect
    | [_], hsplit | [_, _, _], hsplit =>
      cases hsplit
      cases hlate
    | _ :: _ :: _ :: _ :: _ :: _, hsplit => simp [greetings] at hsplit

/-- A history with a late edit. -/
def editedHistory : List HistoryEvent :=
  [historyEvent (textEvent "$edit" 20 "* Goodbye"
      (some (.replacement "$hello" ⟨.text "Goodbye", none⟩))) true,
    historyEvent (textEvent "$hello" 10 "Hello" none) false]

/-- The edit is cached when it is decrypted, but the message has been sent already. -/
theorem late_edit_is_lost :
    WellFormed (historyEnv editedHistory) editedHistory ∧
      ¬ SameView (shownDirectly (historyEnv editedHistory) () editedHistory)
        (shownLate (historyEnv editedHistory) () editedHistory) := by
  have hformed : WellFormed (historyEnv editedHistory) editedHistory :=
    ⟨by decide +kernel, by decide +kernel, by decide +kernel, by decide +kernel⟩
  refine ⟨hformed, fun hsame => ?_⟩
  have hdirect : (shownDirectly (historyEnv editedHistory) () editedHistory "$hello").map
      (·.content) = some (some (.text "Goodbye")) := by decide +kernel
  have hlate : (shownLate (historyEnv editedHistory) () editedHistory "$hello").map
      (·.content) = some (some (.text "Hello")) := by decide +kernel
  have hrel := hsame "$hello"
  generalize shownDirectly (historyEnv editedHistory) () editedHistory "$hello" = direct
    at hrel hdirect
  generalize shownLate (historyEnv editedHistory) () editedHistory "$hello" = late at hrel hlate
  cases hrel with
  | none => cases hdirect
  | some hmessage =>
    have hdirect := Option.some.inj hdirect
    have hlate := Option.some.inj hlate
    have hcontent := hmessage.content
    dsimp only at hdirect hlate
    rw [hdirect, hlate] at hcontent
    simp [ContentAlike] at hcontent

end GoudaMatrix.MemoryCache
