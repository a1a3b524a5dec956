/-
  Changing a message (`client.rs`: `change_message`), and what every receiver of a text that is sent
  and changed has in the end, live and from a fetched history.

  `last_text_received`: the text of the last request, on both ways. A change sends the mentions only
  if the request sets `has_mentioned_user_ids_changed` or `room_mentioned`, and the live way takes
  the mentions of the change for those of the message, so that any other change takes them away; a
  fetched history keeps those of the first request.
-/
import GoudaMatrix.Events.EditedMessages
import GoudaMatrix.Messages.Builder

namespace GoudaMatrix.Messages

open GoudaMatrix.Lib GoudaMatrix.Ruma GoudaMatrix.MemoryCache GoudaMatrix.Events

/-! ## Requests -/

/-- `message_change_request::Content`. -/
inductive ChangeContent where
  | text (content : String)
  | other
deriving DecidableEq, Repr

structure MessageChangeRequest where
  messageId : String
  hasMentionedUserIdsChanged : Bool
  mentionedUserIds : List String
  roomMentioned : Option Bool
  content : Option ChangeContent
deriving DecidableEq, Repr

/-- The errors of `error.rs` that concern a change. -/
inductive ChangeError where
  | internal
  | invalidMessageId
  | invalidUserId
  | notImplemented
  | matrixSdkError
deriving DecidableEq, Repr

abbrev mentionedIds : Option Mentions → List String := matrixMentionsToProtoMentions

/-- `new` has the mentions of `old` and `added`. -/
def AddsMentions (old : Option Mentions) (added : Mentions) (new : Option Mentions) : Prop :=
  ∀ userId, userId ∈ mentionedIds new ↔ userId ∈ mentionedIds old ∨ userId ∈ added.userIds

/-- What is used of ruma and of the SDK, with what it does to texts and to mentions. -/
structure TextSdk extends Sdk where
  parseUserId_eq : ∀ {s id}, parseUserId s = some id → id = s
  textMarkdown_msgtype : ∀ s, (textMarkdown s).msgtype = .text s
  textMarkdown_mentions : ∀ s, (textMarkdown s).mentions = none
  makeReplyTo_msgtype : ∀ event metadata, (makeReplyTo event metadata).msgtype = event.msgtype
  makeReplyTo_mentions : ∀ event metadata,
    AddsMentions event.mentions ⟨[metadata.senderId], false⟩ (makeReplyTo event metadata).mentions
  makeForThread_msgtype : ∀ event metadata withinThread,
    (makeForThread event metadata withinThread).msgtype = event.msgtype
  /-- Whether a message of a thread mentions the sender of the root if it answers nothing else. -/
  mentionsRoot : Bool
  makeForThread_mentions : ∀ event metadata withinThread,
    AddsMentions event.mentions
      ⟨if withinThread || mentionsRoot then [metadata.senderId] else [], false⟩
      (makeForThread event metadata withinThread).mentions
  addMentions_msgtype : ∀ event mentions, (addMentions event mentions).msgtype = event.msgtype
  addMentions_mentions : ∀ event mentions,
    AddsMentions event.mentions mentions (addMentions event mentions).mentions
  /-- `RoomMessageEventContentWithoutRelation::text_markdown`. -/
  newTextMarkdown : String → NewContent
  newTextMarkdown_eq : ∀ s, newTextMarkdown s = ⟨.text s, none⟩
  /-- `RoomMessageEventContentWithoutRelation::add_mentions`. -/
  addNewMentions : NewContent → Mentions → NewContent
  addNewMentions_msgtype : ∀ content mentions,
    (addNewMentions content mentions).msgtype = content.msgtype
  addNewMentions_mentions : ∀ content mentions,
    AddsMentions content.mentions mentions (addNewMentions content mentions).mentions
  makeEditEvent : (eventId : String) → NewContent → Except ChangeError RoomMessageEventContent
  makeEditEvent_relatesTo : ∀ {eventId content event}, makeEditEvent eventId content = .ok event →
    event.relatesTo = some (.replacement eventId content)

variable {sdk : TextSdk}

/-- The new content of a change. -/
def newContent (sdk : TextSdk) (request : MessageChangeRequest) (text : String) : NewContent :=
  if request.hasMentionedUserIdsChanged || request.roomMentioned.isSome then
    sdk.addNewMentions (sdk.newTextMarkdown text)
      ⟨request.mentionedUserIds, request.roomMentioned.getD false⟩
  else sdk.newTextMarkdown text

def changeMessage (sdk : TextSdk) (request : MessageChangeRequest) :
    Except ChangeError RoomMessageEventContent :=
  match sdk.parseEventId request.messageId with
  | none => .error .invalidMessageId
  | some eventId =>
    match request.content with
    | none => .error .internal
    | some content =>
      match request.mentionedUserIds.mapM sdk.parseUserId with
      | none => .error .invalidUserId
      | some mentionedUserIds =>
        match content with
        | .other => .error .notImplemented
        | .text text =>
          sdk.makeEditEvent eventId (newContent sdk { request with mentionedUserIds } text)

/-! ## What is sent -/

theorem mapM_parseUserId_eq {ids ids' : List String}
    (h : ids.mapM sdk.parseUserId = some ids') : ids' = ids := by
  induction ids generalizing ids' with
  | nil => exact (Option.some.inj h).symm
  | cons id ids ih =>
    rw [List.mapM_cons] at h
    obtain ⟨parsed, hparsed, h⟩ := Option.bind_eq_some_iff.mp h
    obtain ⟨rest, hrest, h⟩ := Option.bind_eq_some_iff.mp h
    rw [← Option.some.inj h, sdk.parseUserId_eq hparsed, ih hrest]

/-- The user whose message is answered. -/
def answeredSender (sdk : TextSdk) (request : MessageSendRequest) : Option String :=
  match request.threadId, request.relatedMessageId with
  | _, some relatedMessageId => (sdk.senderId relatedMessageId).toOption
  | some threadId, none =>
    if sdk.mentionsRoot then (sdk.senderId threadId).toOption else none
  | none, none => none

/-- The users that a request to send a text mentions. -/
def MessageSendRequest.Mentions (sdk : TextSdk) (request : MessageSendRequest) (userId : String) :
    Prop :=
  userId ∈ request.mentionedUserIds ∨ answeredSender sdk request = some userId

/-- The users that a change mentions. -/
def MessageChangeRequest.Mentions (request : MessageChangeRequest) (userId : String) : Prop :=
  (request.hasMentionedUserIdsChanged = true ∨ request.roomMentioned.isSome = true) ∧
    userId ∈ request.mentionedUserIds

/-- An answer mentions the sender of the answered message. -/
theorem addRelation_text {builder : MessageBuilder} {text : String}
    {event : RoomMessageEventContent}
    (h : builder.addRelation sdk.toSdk (sdk.textMarkdown text) = .ok event)
    {request : MessageSendRequest} (hthread : builder.threadId = request.threadId)
    (hrelated : builder.relatedMessageId = request.relatedMessageId) :
    event.msgtype = .text text ∧
      ∀ userId, userId ∈ mentionedIds event.mentions ↔
        answeredSender sdk request = some userId := by
  have hsingle : ∀ (mentions : Option Mentions) (senderId : String),
      AddsMentions (sdk.textMarkdown text).mentions ⟨[senderId], false⟩ mentions →
      ∀ userId, userId ∈ mentionedIds mentions ↔ some senderId = some userId := by
    intro mentions senderId hadds userId
    rw [hadds userId, sdk.textMarkdown_mentions, Option.some.injEq, List.mem_singleton, eq_comm]
    exact ⟨fun h => h.resolve_left List.not_mem_nil, .inr⟩
  have hnobody : ∀ mentions : Option Mentions,
      AddsMentions (sdk.textMarkdown text).mentions ⟨[], false⟩ mentions →
      ∀ userId, userId ∈ mentionedIds mentions ↔ (none : Option String) = some userId := by
    intro mentions hadds userId
    rw [hadds userId, sdk.textMarkdown_mentions]
    exact iff_of_false (fun h => h.elim List.not_mem_nil List.not_mem_nil) fun h => by cases h
  unfold answeredSender
  rw [← hthread, ← hrelated]
  unfold MessageBuilder.addRelation at h
  cases hthreadId : builder.threadId with
  | some threadId =>
    rw [hthreadId] at h
    obtain ⟨metadata, hmetadata, hevent⟩ := bind_eq_ok h
    obtain ⟨senderId, hsender, hmetadata⟩ := bind_eq_ok hmetadata
    obtain rfl := Except.ok.inj hmetadata
    obtain rfl := Except.ok.inj hevent
    refine ⟨(sdk.makeForThread_msgtype ..).trans (sdk.textMarkdown_msgtype text), ?_⟩
    have hadds := sdk.makeForThread_mentions (sdk.textMarkdown text)
      ⟨builder.relatedMessageId.getD threadId, senderId,
        some ⟨threadId, builder.relatedMessageId⟩⟩ builder.relatedMessageId.isSome
    cases hrelatedId : builder.relatedMessageId with
    | some relatedMessageId =>
      rw [hrelatedId] at hadds hsender
      have hanswered : sdk.senderId relatedMessageId = .ok senderId := hsender
      dsimp only
      rw [hanswered]
      exact hsingle _ _ hadds
    | none =>
      rw [hrelatedId] at hadds hsender
      have hanswered : sdk.senderId threadId = .ok senderId := hsender
      dsimp only
      rw [hanswered]
      cases hroot : sdk.mentionsRoot with
      | true =>
        rw [hroot] at hadds
        exact hsingle _ _ hadds
      | false =>
        rw [hroot] at hadds
        exact hnobody _ hadds
  | none =>
    cases hrelatedId : builder.relatedMessageId with
    | some relatedMessageId =>
      rw [hthreadId, hrelatedId] at h
      obtain ⟨metadata, hmetadata, hevent⟩ := bind_eq_ok h
      obtain ⟨senderId, hsender, hmetadata⟩ := bind_eq_ok hmetadata
      obtain rfl := Except.ok.inj hmetadata
      obtain rfl := Except.ok.inj hevent
      dsimp only
      rw [hsender]
      exact ⟨(sdk.makeReplyTo_msgtype ..).trans (sdk.textMarkdown_msgtype text),
        hsingle _ _ (sdk.makeReplyTo_mentions _ _)⟩
    | none =>
      rw [hthreadId, hrelatedId] at h
      obtain rfl := Except.ok.inj h
      refine ⟨sdk.textMarkdown_msgtype text, fun userId => ?_⟩
      rw [sdk.textMarkdown_mentions]
      exact iff_of_false List.not_mem_nil fun h => nomatch h

/-- A text that has been sent. -/
theorem sendMessage_text {request : MessageSendRequest} {text : String}
    (htext : request.content = some (.text text)) {sent : SentEvent}
    (h : sendMessage sdk.toSdk request = .ok sent) :
    ∃ content, sent = .roomMessage content ∧ content.msgtype = .text text ∧
      (∀ messageId newContent, content.relatesTo ≠ some (.replacement messageId newContent)) ∧
      ∀ userId, userId ∈ mentionedIds content.mentions ↔ request.Mentions sdk userId := by
  unfold sendMessage at h
  rw [htext] at h
  obtain ⟨relatedMessageId, hrelated, h⟩ := bind_eq_ok h
  obtain ⟨mentionedUserIds, hmentioned, h⟩ := bind_eq_ok h
  obtain ⟨threadId, hthread, h⟩ := bind_eq_ok h
  obtain rfl := parseId_eq_ok sdk.parseEventId_eq hrelated
  obtain rfl := parseId_eq_ok sdk.parseEventId_eq hthread
  have hids : mentionedUserIds = request.mentionedUserIds := by
    unfold parseUserIds at hmentioned
    split at hmentioned
    · next ids hids =>
      obtain rfl := Except.ok.inj hmentioned
      exact mapM_parseUserId_eq hids
    · cases hmentioned
  subst hids
  obtain ⟨event, hevent, h⟩ := bind_eq_ok h
  obtain ⟨hmsgtype, hmentions⟩ := addRelation_text hevent rfl rfl
  have hrelation : ∀ messageId newContent,
      event.relatesTo ≠ some (.replacement messageId newContent) := by
    intro messageId newContent
    rw [addRelation_relatesTo rfl hevent]
    exact sentRelation_ne_replacement _ _ _ _ _
  split at h
  · obtain rfl := Except.ok.inj h
    refine ⟨_, rfl, (sdk.addMentions_msgtype _ _).trans hmsgtype, ?_, fun userId => ?_⟩
    · rw [sdk.addMentions_relatesTo]
      exact hrelation
    · rw [sdk.addMentions_mentions, hmentions userId, or_comm]
      rfl
  · next hnone =>
    obtain rfl := Except.ok.inj h
    refine ⟨_, rfl, hmsgtype, hrelation, fun userId => ?_⟩
    rw [Bool.not_eq_true, Bool.or_eq_false_iff, Bool.not_eq_false', List.isEmpty_iff] at hnone
    have hempty : request.mentionedUserIds = [] := hnone.1
    rw [hmentions userId, MessageSendRequest.Mentions, hempty]
    exact ⟨.inr, fun h => h.resolve_left List.not_mem_nil⟩

theorem newContent_msgtype (request : MessageChangeRequest) (text : String) :
    (newContent sdk request text).msgtype = .text text := by
  have htext : (sdk.newTextMarkdown text).msgtype = .text text := by rw [sdk.newTextMarkdown_eq]
  unfold newContent
  split
  · exact (sdk.addNewMentions_msgtype _ _).trans htext
  · exact htext

theorem newContent_mentions (request : MessageChangeRequest) (text userId : String) :
    userId ∈ mentionedIds (newContent sdk request text).mentions ↔ request.Mentions userId := by
  have hnone : userId ∉ mentionedIds (sdk.newTextMarkdown text).mentions := by
    rw [sdk.newTextMarkdown_eq]
    exact List.not_mem_nil
  unfold newContent MessageChangeRequest.Mentions
  split
  · next hchanges =>
    rw [Bool.or_eq_true] at hchanges
    rw [sdk.addNewMentions_mentions]
    exact ⟨fun h => ⟨hchanges, h.resolve_left hnone⟩, fun h => .inr h.2⟩
  · next hchanges =>
    rw [Bool.or_eq_true] at hchanges
    exact iff_of_false hnone fun h => hchanges h.1

/-- A change that has been sent. -/
theorem changeMessage_eq_ok {request : MessageChangeRequest} {content : RoomMessageEventContent}
    (h : changeMessage sdk request = .ok content) :
    ∃ text, request.content = some (.text text) ∧ content.relatesTo
      = some (.replacement request.messageId (newContent sdk request text)) := by
  unfold changeMessage at h
  split at h
  · cases h
  · next eventId hid =>
    split at h
    · cases h
    · next change hchange =>
      split at h
      · cases h
      · next ids hids =>
        split at h
        · cases h
        · next text =>
          obtain rfl := sdk.parseEventId_eq hid
          obtain rfl := mapM_parseUserId_eq hids
          exact ⟨text, hchange, sdk.makeEditEvent_relatesTo h⟩

/-! ## Texts and their changes -/

/-- A change that has been sent, with the id and the timestamp of its event. -/
structure SentChange (sdk : TextSdk) where
  request : MessageChangeRequest
  content : RoomMessageEventContent
  accepted : changeMessage sdk request = .ok content
  eventId : String
  sender : String
  originServerTs : Nat

namespace SentChange

def event (roomId : String) (change : SentChange sdk) : LiveMessage :=
  ⟨change.eventId, change.sender, change.originServerTs, roomId, change.content⟩

/-- The text of the request; a change of anything else is not accepted. -/
def text (change : SentChange sdk) : String :=
  match change.request.content with
  | some (.text text) => text
  | some .other | none => ""

theorem newContentOf_event (roomId : String) (change : SentChange sdk) :
    change.content.relatesTo
        = some (.replacement change.request.messageId (newContentOf (change.event roomId))) ∧
      newContentOf (change.event roomId) = newContent sdk change.request change.text := by
  obtain ⟨text, htext, hrelation⟩ := changeMessage_eq_ok change.accepted
  have hnew : newContentOf (change.event roomId) = newContent sdk change.request text := by
    unfold newContentOf event
    rw [hrelation]
  have hself : change.text = text := by
    unfold SentChange.text
    rw [htext]
  rw [hself, hnew]
  exact ⟨hrelation, rfl⟩

end SentChange

/-- A text that has been sent, and its changes in the order of their timestamps. -/
structure SentText (sdk : TextSdk) where
  request : MessageSendRequest
  text : String
  isText : request.content = some (.text text)
  content : RoomMessageEventContent
  accepted : sendMessage sdk.toSdk request = .ok (.roomMessage content)
  header : RedactedEvent
  changes : List (SentChange sdk)
  ofMessage : ∀ change ∈ changes, change.request.messageId = header.eventId
  increasing : changes.Pairwise fun a b => a.originServerTs < b.originServerTs
  ids : (changes.map SentChange.eventId).Nodup

namespace SentText

variable (sent : SentText sdk)

theorem sent_text : sent.content.msgtype = .text sent.text ∧
    (∀ messageId newContent,
      sent.content.relatesTo ≠ some (.replacement messageId newContent)) ∧
    ∀ userId, userId ∈ mentionedIds sent.content.mentions
      ↔ sent.request.Mentions sdk userId := by
  obtain ⟨content, hcontent, hspec⟩ := sendMessage_text sent.isText sent.accepted
  obtain rfl := SentEvent.roomMessage.inj hcontent
  exact hspec

/-- The events of the requests. -/
def events : EditedText where
  original := ⟨sent.header.eventId, sent.header.sender, sent.header.originServerTs,
    sent.header.roomId, sent.content⟩
  body := sent.text
  edits := sent.changes.map (SentChange.event sent.header.roomId)
  text := sent.sent_text.1
  notEdit := sent.sent_text.2.1
  editsOf := by
    intro edit hedit
    obtain ⟨change, hchange, rfl⟩ := List.mem_map.mp hedit
    have hrelation := (change.newContentOf_event sent.header.roomId).1
    rw [sent.ofMessage change hchange] at hrelation
    exact hrelation
  increasing := List.pairwise_map.mpr sent.increasing
  ids := by
    rw [List.map_map]
    exact sent.ids

/-- The text of the last request. -/
def lastText : String := (sent.changes.getLast?.map SentChange.text).getD sent.text

/-- The users that the last request mentions. -/
def LastMentions (userId : String) : Prop :=
  match sent.changes.getLast? with
  | some change => change.request.Mentions userId
  | none => sent.request.Mentions sdk userId

variable {M : Type} (env : RoomEnv M)

/-- Every change has its text as content, whatever the state of the media. -/
theorem editContents_texts (messageId roomId : String) (changes : List (SentChange sdk))
    (media : M) :
    editContents env.mediaManager env.roomId messageId (changes.map (SentChange.event roomId)) media
      = changes.map fun change => (change.event roomId, .text change.text) := by
  induction changes generalizing media with
  | nil => rfl
  | cons change changes ih =>
    have hcontent : generateMessageContent env.mediaManager env.roomId messageId
        (newContentOf (change.event roomId)).msgtype media = (some (.text change.text), media) := by
      rw [(change.newContentOf_event roomId).2, newContent_msgtype]
      rfl
    rw [List.map_cons, editContents, hcontent]
    dsimp only
    rw [ih, Option.map_some, Option.toList_some, List.map_cons, List.singleton_append]

/-- The last change that is shown is the last one that has been sent. -/
theorem newestEdit_live_texts (room : LiveRoom M) :
    newestEdit (liveEdits env sent.events room) = sent.changes.getLast?.map
      fun change => (change.event sent.header.roomId, .text change.text) := by
  have hcontents : liveEdits env sent.events room = sent.changes.map
      fun change => (change.event sent.header.roomId, .text change.text) :=
    editContents_texts env _ _ _ _
  rw [newestEdit_live, hcontents, List.getLast?_map]

theorem newestEdit_fetched_texts (fetch : Fetch sent.events) (media : M) :
    newestEdit (fetchedEdits env sent.events fetch media) = sent.changes.getLast?.map
      fun change => (change.event sent.header.roomId, .text change.text) := by
  have hmedia : ∀ edit ∈ sent.events.edits, Media.mediaOf (newContentOf edit).msgtype = none := by
    intro edit hedit
    obtain ⟨change, -, rfl⟩ := List.mem_map.mp hedit
    rw [(change.newContentOf_event _).2, newContent_msgtype]
    rfl
  rw [← newestEdit_of_no_media env sent.events fetch ⟨media, none⟩ media hmedia,
    newestEdit_live_texts]

/-- What a receiver has of the message in the end. -/
structure Received (message : Message) : Prop where
  content : message.content = some (.text sent.lastText)
  edited : message.edited = !sent.changes.isEmpty

theorem isEmpty_changes : sent.changes.isEmpty = sent.changes.getLast?.isNone := by
  cases hlast : sent.changes.getLast? with
  | none =>
    rw [List.getLast?_eq_none_iff.mp hlast]
    rfl
  | some change =>
    have hmem := List.mem_of_getLast? hlast
    exact List.isEmpty_eq_false_iff_exists_mem.mpr ⟨change, hmem⟩

theorem received_live (room : LiveRoom M) :
    ∃ live, liveView env sent.events room sent.header.eventId = some live ∧ sent.Received live ∧
      ∀ userId, userId ∈ live.mentionedUserIds ↔ sent.LastMentions userId := by
  have hlive := liveView_eq env sent.events room
  rw [sent.newestEdit_live_texts env room] at hlive
  refine ⟨_, hlive, ?_⟩
  have hcontent := (messageFromEvent_text env.mediaManager env.roomId
    { sent.events.original with roomId := env.roomId } sent.events.text room.media).2
  unfold LastMentions
  cases hlast : sent.changes.getLast? with
  | none =>
    refine ⟨⟨?_, ?_⟩, sent.sent_text.2.2⟩
    · rw [lastText, hlast]
      exact hcontent
    · rw [isEmpty_changes, hlast]
      rfl
  | some change =>
    refine ⟨⟨?_, ?_⟩, fun userId => ?_⟩
    · rw [lastText, hlast]
      rfl
    · rw [isEmpty_changes, hlast]
      rfl
    · have hmentions : userId ∈ mentionedIds (newContent sdk change.request change.text).mentions
          ↔ change.request.Mentions userId := newContent_mentions change.request change.text userId
      rw [← (change.newContentOf_event sent.header.roomId).2] at hmentions
      exact hmentions

end SentText

/-- The text of the last request is received, live and in a fetched history, the mentions of the
    last request live, those of the first one in a fetched history. -/
theorem last_text_received {M : Type} (env : RoomEnv M) (sent : SentText sdk)
    (fetch : Fetch sent.events) (room : LiveRoom M) (media : M) :
    ∃ live fetched, liveView env sent.events room sent.header.eventId = some live ∧
      fetchedView env sent.events fetch media sent.header.eventId = some fetched ∧
      sent.Received live ∧ sent.Received fetched ∧
      (∀ userId, userId ∈ live.mentionedUserIds ↔ sent.LastMentions userId) ∧
      (∀ userId, userId ∈ fetched.mentionedUserIds ↔ sent.request.Mentions sdk userId) := by
  obtain ⟨fetched, hfetched, hcontent, hmentions, hedited⟩ :=
    fetchedView_eq env sent.events fetch media
  obtain ⟨live, hlive, hlive', hmentions'⟩ := sent.received_live env room
  rw [sent.newestEdit_fetched_texts env fetch media] at hcontent hedited
  refine ⟨live, fetched, hlive, hfetched, hlive', ⟨?_, ?_⟩, hmentions', fun userId => ?_⟩
  · rw [hcontent, SentText.lastText]
    cases sent.changes.getLast? <;> rfl
  · rw [hedited, sent.isEmpty_changes]
    cases sent.changes.getLast? <;> rfl
  · rw [hmentions]
    exact sent.sent_text.2.2 userId

def mergeMentions (old : Option Mentions) (added : Mentions) : Option Mentions :=
  some ⟨mentionedIds old ++ added.userIds, (old.map Mentions.room).getD false || added.room⟩

theorem addsMentions_mergeMentions (old : Option Mentions) (added : Mentions) :
    AddsMentions old added (mergeMentions old added) := fun _ => List.mem_append

/-- An SDK that adds the mentions to those that there are. -/
def mergingSdk : TextSdk where
  toSdk := { plainSdk with
    makeReplyTo := fun event metadata =>
      { event with
        relatesTo := some (.reply metadata.eventId)
        mentions := mergeMentions event.mentions ⟨[metadata.senderId], false⟩ }
    makeReplyTo_relatesTo := fun _ _ _ => rfl
    makeForThread := fun event metadata withinThread =>
      { event with
        relatesTo := some (.thread ((metadata.thread.map Thread.eventId).getD metadata.eventId))
        mentions := mergeMentions event.mentions
          ⟨if withinThread || false then [metadata.senderId] else [], false⟩ }
    makeForThread_relatesTo := fun event metadata _ thread h => by simp [h]
    addMentions := fun event mentions =>
      { event with mentions := mergeMentions event.mentions mentions }
    addMentions_relatesTo := fun _ _ => rfl }
  parseUserId_eq h := (Option.some.inj h).symm
  textMarkdown_msgtype _ := rfl
  textMarkdown_mentions _ := rfl
  makeReplyTo_msgtype _ _ := rfl
  makeReplyTo_mentions _ _ := addsMentions_mergeMentions _ _
  makeForThread_msgtype _ _ _ := rfl
  mentionsRoot := false
  makeForThread_mentions _ _ _ := addsMentions_mergeMentions _ _
  addMentions_msgtype _ _ := rfl
  addMentions_mentions _ _ := addsMentions_mergeMentions _ _
  newTextMarkdown s := ⟨.text s, none⟩
  newTextMarkdown_eq _ := rfl
  addNewMentions content mentions :=
    { content with mentions := mergeMentions content.mentions mentions }
  addNewMentions_msgtype _ _ := rfl
  addNewMentions_mentions _ _ := addsMentions_mergeMentions _ _
  makeEditEvent eventId content :=
    .ok ⟨content.msgtype, some (.replacement eventId content), content.mentions⟩
  makeEditEvent_relatesTo h := by
    cases h
    rfl

/-- An answer that mentions Carol, and a change of its text alone. -/
def answeredAndChanged : SentText mergingSdk where
  request :=
    { relatedMessageId := some "$question"
      mentionedUserIds := ["@carol:hs"]
      roomMentioned := false
      content := some (.text "Yes")
      threadId := none }
  text := "Yes"
  isText := rfl
  content := ⟨.text "Yes", some (.reply "$question"), some ⟨["@bob:hs", "@carol:hs"], false⟩⟩
  accepted := rfl
  header := ⟨"$answer", "@alice:hs", 1, "!r"⟩
  changes := [
    { request := ⟨"$answer", false, ["@carol:hs"], none, some (.text "Yes!")⟩
      content := ⟨.text "Yes!", some (.replacement "$answer" ⟨.text "Yes!", none⟩), none⟩
      accepted := rfl
      eventId := "$change"
      sender := "@alice:hs"
      originServerTs := 2 }]
  ofMessage := by simp
  increasing := by simp
  ids := by simp

theorem last_text_received_changed :
    ∃ live fetched,
      liveView (RoomEnv.bare "!r") answeredAndChanged.events ⟨(), none⟩ "$answer" = some live ∧
      fetchedView (RoomEnv.bare "!r") answeredAndChanged.events
        ⟨_, List.Perm.refl _, fun _ => true⟩ () "$answer" = some fetched ∧
      live.content = some (.text "Yes!") ∧ fetched.content = some (.text "Yes!") ∧
      "@carol:hs" ∉ live.mentionedUserIds ∧ "@carol:hs" ∈ fetched.mentionedUserIds := by
  obtain ⟨live, fetched, hlive, hfetched, hreceived, hreceived', hmentions, hmentions'⟩ :=
    last_text_received (RoomEnv.bare "!r") answeredAndChanged ⟨_, List.Perm.refl _, fun _ => true⟩
      ⟨(), none⟩ ()
  refine ⟨live, fetched, hlive, hfetched, hreceived.content, hreceived'.content, ?_, ?_⟩
  · rw [hmentions]
    rintro ⟨hchanges, -⟩
    exact absurd hchanges (by decide)
  · rw [hmentions']
    exact .inl List.mem_cons_self

end GoudaMatrix.Messages
