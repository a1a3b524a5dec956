/-
  Sending a message (`client.rs`: `send_message`, `messages.rs`: `MessageBuilder`), and the
  message that the receiving side builds of the sent event, live or from a fetched history.

  `relations_kept_iff`: a text in a thread loses the message that it answers, since the receiver
  reads the reply of a reply relation only; a file loses its thread, and a poll everything.
  What ruma and the SDK do to an event is the parameter `Sdk`.
-/
import GoudaMatrix.Events.Messages
import GoudaMatrix.MemoryCache.View

namespace GoudaMatrix.Messages

open GoudaMatrix.Lib GoudaMatrix.Ruma GoudaMatrix.MemoryCache

/-! ## Requests -/

/-- `message_send_request::Content`; the type of a poll is the number of its `PollType`. -/
inductive SendContent where
  | text (content : String)
  | file (filePath : String) (fileName : Option String)
  | poll (type : Int) (maxSelections : Nat) (question : String) (options : List PollOption)
deriving DecidableEq, Repr

structure MessageSendRequest where
  relatedMessageId : Option String
  mentionedUserIds : List String
  roomMentioned : Bool
  content : Option SendContent
  threadId : Option String
deriving DecidableEq, Repr

/-- The errors of `error.rs` that concern a send. -/
inductive SendError where
  | internal
  | invalidMessageId
  | invalidUserId
  | invalidThreadId
  | messageNotFound
  | invalidPollType
  | invalidPollOptions
  | matrix
deriving DecidableEq, Repr

/-- The content that is given to `Room::send`, or that `Room::send_attachment` makes. -/
inductive SentEvent where
  | roomMessage (content : RoomMessageEventContent)
  | pollStart (content : UnstablePollStartEventContent)
deriving DecidableEq, Repr

/-- `Thread`, of a new reply. -/
structure Thread where
  eventId : String
  inReplyTo : Option String
deriving DecidableEq, Repr

/-- `CustomReplyMetadata`, and the `ReplyMetadata` that is made of it. -/
structure ReplyMetadata where
  eventId : String
  senderId : String
  thread : Option Thread
deriving DecidableEq, Repr

/-- What is used of ruma, of the SDK and of `gouda_proto`, with what it does to relations. -/
structure Sdk where
  /-- `EventId::parse`. -/
  parseEventId : String → Option String
  parseEventId_eq : ∀ {s id}, parseEventId s = some id → id = s
  /-- `UserId::parse`. -/
  parseUserId : String → Option String
  /-- `get_event_sender_id`, which asks the server for the event. -/
  senderId : (eventId : String) → Except SendError String
  /-- `RoomMessageEventContent::text_markdown`. -/
  textMarkdown : String → RoomMessageEventContent
  textMarkdown_relatesTo : ∀ s, (textMarkdown s).relatesTo = none
  /-- `make_reply_to`, forwarding the thread and adding mentions. -/
  makeReplyTo : RoomMessageEventContent → ReplyMetadata → RoomMessageEventContent
  makeReplyTo_relatesTo : ∀ event metadata, metadata.thread = none →
    (makeReplyTo event metadata).relatesTo = some (.reply metadata.eventId)
  /-- `make_for_thread`, adding mentions. -/
  makeForThread : RoomMessageEventContent → ReplyMetadata → (withinThread : Bool) →
    RoomMessageEventContent
  makeForThread_relatesTo : ∀ event metadata withinThread thread, metadata.thread = some thread →
    (makeForThread event metadata withinThread).relatesTo = some (.thread thread.eventId)
  addMentions : RoomMessageEventContent → Mentions → RoomMessageEventContent
  addMentions_relatesTo : ∀ event mentions,
    (addMentions event mentions).relatesTo = event.relatesTo
  /-- The upload and the event of `send_attachment`. The answered message is outside threads: with
      `EnforceThread::MaybeThreaded`, the answer to one inside would be put into its thread. -/
  sendAttachment : (filePath : String) → (fileName reply : Option String) →
    Except SendError RoomMessageEventContent
  sendAttachment_relatesTo : ∀ {filePath fileName reply event},
    sendAttachment filePath fileName reply = .ok event → event.relatesTo = reply.map Relation.reply
  /-- `PollType::try_from`. -/
  pollType : Int → Option PollType
  /-- `UnstablePollAnswers::try_from`. -/
  pollAnswers : List UnstablePollAnswer → Option (List UnstablePollAnswer)

/-! ## The builder -/

structure MessageBuilder where
  content : SendContent
  relatedMessageId : Option String
  mentionedUserIds : List String
  roomMentioned : Bool
  threadId : Option String
deriving DecidableEq, Repr

/-- `PollOption::into_matrix`. -/
def intoMatrix (option : PollOption) : UnstablePollAnswer := ⟨option.id, option.text⟩

/-- `PollType::into_matrix`. -/
def pollKind : PollType → PollKind
  | .disclosed => .disclosed
  | .undisclosed => .undisclosed

namespace MessageBuilder

variable (sdk : Sdk) (builder : MessageBuilder)

def getMainReplyMetadata (relatedMessageId : String) : Except SendError ReplyMetadata := do
  let senderId ← sdk.senderId relatedMessageId
  return ⟨relatedMessageId, senderId, none⟩

def getThreadReplyMetadata (threadId : String) : Except SendError ReplyMetadata := do
  let relatedMessage := builder.relatedMessageId.getD threadId
  let senderId ← sdk.senderId relatedMessage
  return ⟨relatedMessage, senderId, some ⟨threadId, builder.relatedMessageId⟩⟩

def addThreadMetadata (event : RoomMessageEventContent) (threadId : String) :
    Except SendError RoomMessageEventContent := do
  let metadata ← builder.getThreadReplyMetadata sdk threadId
  return sdk.makeForThread event metadata builder.relatedMessageId.isSome

def addReplyMetadata (event : RoomMessageEventContent) (relatedMessageId : String) :
    Except SendError RoomMessageEventContent := do
  let metadata ← getMainReplyMetadata sdk relatedMessageId
  return sdk.makeReplyTo event metadata

/-- The relation of a text: the thread, or else the reply. -/
def addRelation (event : RoomMessageEventContent) : Except SendError RoomMessageEventContent :=
  match builder.threadId, builder.relatedMessageId with
  | some threadId, _ => builder.addThreadMetadata sdk event threadId
  | none, some relatedMessageId => addReplyMetadata sdk event relatedMessageId
  | none, none => return event

/-- The formatted body, which no receiver reads, is left out. -/
def sendText (content : String) : Except SendError SentEvent := do
  let event ← builder.addRelation sdk (sdk.textMarkdown content)
  if !builder.mentionedUserIds.isEmpty || builder.roomMentioned then
    return .roomMessage (sdk.addMentions event ⟨builder.mentionedUserIds, builder.roomMentioned⟩)
  else
    return .roomMessage event

def sendFile (filePath : String) (fileName : Option String) : Except SendError SentEvent := do
  let event ← sdk.sendAttachment filePath fileName builder.relatedMessageId
  return .roomMessage event

def sendPoll (type : Int) (maxSelections : Nat) (question : String) (options : List PollOption) :
    Except SendError SentEvent :=
  match sdk.pollType type with
  | none => .error .invalidPollType
  | some pollType =>
    match sdk.pollAnswers (options.map intoMatrix) with
    | none => .error .invalidPollOptions
    | some answers =>
      .ok (.pollStart (.new ⟨question, pollKind pollType, maxSelections, answers⟩))

def send : Except SendError SentEvent :=
  match builder.content with
  | .text content => builder.sendText sdk content
  | .file filePath fileName => builder.sendFile sdk filePath fileName
  | .poll type maxSelections question options => sendPoll sdk type maxSelections question options

end MessageBuilder

/-- An id of the request, if there is one. -/
def parseId (parse : String → Option String) (e : SendError) :
    Option String → Except SendError (Option String)
  | none => .ok none
  | some id =>
    match parse id with
    | some id => .ok (some id)
    | none => .error e

def parseUserIds (sdk : Sdk) (ids : List String) : Except SendError (List String) :=
  match ids.mapM sdk.parseUserId with
  | some ids => .ok ids
  | none => .error .invalidUserId

def sendMessage (sdk : Sdk) (request : MessageSendRequest) : Except SendError SentEvent :=
  match request.content with
  | none => .error .internal
  | some content => do
    let relatedMessageId ← parseId sdk.parseEventId .invalidMessageId request.relatedMessageId
    let mentionedUserIds ← parseUserIds sdk request.mentionedUserIds
    let threadId ← parseId sdk.parseEventId .invalidThreadId request.threadId
    MessageBuilder.send sdk
      ⟨content, relatedMessageId, mentionedUserIds, request.roomMentioned, threadId⟩

/-! ## Receiving -/

/-- The sent event as it comes back. -/
def SentEvent.event (header : RedactedEvent) : SentEvent → AnyMessageLikeEvent
  | .roomMessage content =>
    .roomMessage (.original ⟨header.eventId, header.sender, header.originServerTs, header.roomId,
      content⟩)
  | .pollStart content =>
    .unstablePollStart (.original ⟨header.eventId, header.sender, header.originServerTs,
      header.roomId, content⟩)

/-- `exec_new_unstable_poll_start_event` for a new poll. -/
def execNewUnstablePollStartEvent (roomId : String)
    (event : OriginalEvent UnstablePollStartEventContent) : List MessageEvent :=
  match Polls.assemblePollStart event.content.pollStart with
  | .error _ => []
  | .ok content =>
    [.received { Message.new roomId event.eventId event.sender event.originServerTs with
      content := some (.poll content) }]

section Receiving

variable {M : Type} (env : RoomEnv M)

/-- What the live path sends to the application. -/
def SentEvent.live (header : RedactedEvent) (room : Events.LiveRoom M) :
    SentEvent → List MessageEvent
  | .roomMessage content =>
    (Events.execRoomMessageEvent env.mediaManager env.roomId true ⟨header.eventId, header.sender,
      header.originServerTs, header.roomId, content⟩ room).1
  | .pollStart content =>
    execNewUnstablePollStartEvent env.roomId ⟨header.eventId, header.sender, header.originServerTs,
      header.roomId, content⟩

/-- The event in a fetched history. -/
def SentEvent.timeline (header : RedactedEvent) (encrypted : Bool) (sent : SentEvent) :
    TimelineEvent where
  kind :=
    if encrypted then .decrypted (.ok (.messageLike (sent.event header)))
    else .plainText (.ok (.messageLike (sent.event header)))
  timestamp := some header.originServerTs

/-- The relation that is sent. -/
def sentRelation : SendContent → (threadId relatedMessageId : Option String) → Option Relation
  | .text _, some threadId, _ => some (.thread threadId)
  | .text _, none, relatedMessageId | .file _ _, _, relatedMessageId =>
    relatedMessageId.map Relation.reply
  | .poll _ _ _ _, _, _ => none

theorem bind_eq_ok {α β : Type} {x : Except SendError α} {f : α → Except SendError β} {b : β}
    (h : x >>= f = .ok b) : ∃ a, x = .ok a ∧ f a = .ok b := by
  cases x with
  | error e => cases h
  | ok a => exact ⟨a, rfl, h⟩

theorem addRelation_relatesTo {sdk : Sdk} {builder : MessageBuilder} {text : String}
    {event : RoomMessageEventContent} (hcontent : builder.content = .text text)
    (h : builder.addRelation sdk (sdk.textMarkdown text) = .ok event) :
    event.relatesTo
      = sentRelation builder.content builder.threadId builder.relatedMessageId := by
  obtain ⟨content, relatedMessageId, mentionedUserIds, roomMentioned, threadId⟩ := builder
  obtain rfl : content = .text text := hcontent
  cases threadId with
  | some threadId =>
    obtain ⟨metadata, hmetadata, hevent⟩ := bind_eq_ok h
    obtain ⟨senderId, -, hsender⟩ := bind_eq_ok hmetadata
    obtain rfl := Except.ok.inj hsender
    obtain rfl := Except.ok.inj hevent
    exact sdk.makeForThread_relatesTo _ _ _ ⟨threadId, relatedMessageId⟩ rfl
  | none =>
    cases relatedMessageId with
    | some relatedMessageId =>
      obtain ⟨metadata, hmetadata, hevent⟩ := bind_eq_ok h
      obtain ⟨senderId, -, hsender⟩ := bind_eq_ok hmetadata
      obtain rfl := Except.ok.inj hsender
      obtain rfl := Except.ok.inj hevent
      exact sdk.makeReplyTo_relatesTo _ _ rfl
    | none =>
      obtain rfl := Except.ok.inj h
      exact sdk.textMarkdown_relatesTo text

/-- What is sent: a room message with the relation, or a poll of a known type. -/
theorem send_cases {sdk : Sdk} {builder : MessageBuilder} {sent : SentEvent}
    (h : builder.send sdk = .ok sent) :
    (∃ content, sent = .roomMessage content ∧ content.relatesTo
      = sentRelation builder.content builder.threadId builder.relatedMessageId) ∨
    ∃ block poll, sent = .pollStart (.new block) ∧ Polls.assemblePollStart block = .ok poll ∧
      sentRelation builder.content builder.threadId builder.relatedMessageId = none := by
  unfold MessageBuilder.send at h
  cases hcontent : builder.content with
  | text text =>
    rw [hcontent] at h
    obtain ⟨event, hevent, hsent⟩ := bind_eq_ok h
    have hrelation := addRelation_relatesTo hcontent hevent
    rw [hcontent] at hrelation
    split at hsent
    · obtain rfl := Except.ok.inj hsent
      exact .inl ⟨_, rfl, (sdk.addMentions_relatesTo _ _).trans hrelation⟩
    · obtain rfl := Except.ok.inj hsent
      exact .inl ⟨_, rfl, hrelation⟩
  | file filePath fileName =>
    rw [hcontent] at h
    obtain ⟨event, hevent, hsent⟩ := bind_eq_ok h
    obtain rfl := Except.ok.inj hsent
    refine .inl ⟨_, rfl, (sdk.sendAttachment_relatesTo hevent).trans ?_⟩
    cases builder.threadId <;> rfl
  | poll type maxSelections question options =>
    rw [hcontent] at h
    simp only [MessageBuilder.sendPoll] at h
    cases htype : sdk.pollType type with
    | none => simp [htype] at h
    | some pollType =>
      cases hanswers : sdk.pollAnswers (options.map intoMatrix) with
      | none => simp [htype, hanswers] at h
      | some answers =>
        simp only [htype, hanswers, Except.ok.injEq] at h
        obtain ⟨poll, hpoll⟩ : ∃ poll, Polls.assemblePollStart
            ⟨question, pollKind pollType, maxSelections, answers⟩ = .ok poll := by
          cases pollType <;> exact ⟨_, rfl⟩
        exact .inr ⟨_, poll, h.symm, hpoll, rfl⟩

theorem sentRelation_ne_replacement (content : SendContent)
    (threadId relatedMessageId : Option String) (messageId : String) (newContent : NewContent) :
    sentRelation content threadId relatedMessageId ≠ some (.replacement messageId newContent) := by
  cases content <;> cases threadId <;> cases relatedMessageId <;> simp [sentRelation]

/-- The relation as a receiver reads it: the thread and the answered message. -/
def readRelation : Option Relation → Option String × Option String
  | some (.thread threadId) => (some threadId, none)
  | some (.reply relatedMessageId) => (none, some relatedMessageId)
  | _ => (none, none)

def relationsOf (message : Message) : Option String × Option String :=
  (message.threadId, message.relatedMessageId)

theorem relationsOf_messageFromEvent (mediaManager : MediaManager M) (roomId : String)
    (event : OriginalEvent RoomMessageEventContent) (media : M) :
    relationsOf (messageFromEvent mediaManager roomId event media).1
      = readRelation event.content.relatesTo := by
  obtain ⟨eventId, sender, ts, eventRoomId, msgtype, relatesTo, mentions⟩ := event
  match relatesTo with
  | none | some (.reply _) | some (.thread _) | some (.replacement _ _) | some .other => rfl

/-- Both receivers build a message of what has been sent, with the relation that they read. -/
theorem received_of_send {sdk : Sdk} {builder : MessageBuilder} {sent : SentEvent}
    (h : builder.send sdk = .ok sent) (header : RedactedEvent) (encrypted : Bool)
    (room : CachedRoom M) (liveRoom : Events.LiveRoom M) :
    ∃ fetched live, messageOf env room (sent.timeline header encrypted) = some fetched ∧
      sent.live env header liveRoom = [.received live] ∧
      relationsOf fetched = readRelation
        (sentRelation builder.content builder.threadId builder.relatedMessageId) ∧
      relationsOf live = readRelation
        (sentRelation builder.content builder.threadId builder.relatedMessageId) := by
  have hread : readable (sent.timeline header encrypted)
      = some (.messageLike (sent.event header)) := by
    cases encrypted <;> rfl
  have hfetched := messageOf_eq env room (sent.timeline header encrypted)
  rcases send_cases h with ⟨content, rfl, hrelation⟩ | ⟨block, poll, rfl, hpoll, hrelation⟩
  · have hreplace : ∀ messageId newContent,
        content.relatesTo ≠ some (.replacement messageId newContent) := by
      intro messageId newContent
      rw [hrelation]
      exact sentRelation_ne_replacement _ _ _ _ _
    rw [effectOf_of_message env hread hreplace] at hfetched
    have hlive : ∃ live, (SentEvent.roomMessage content).live env header liveRoom
        = [.received live] ∧ relationsOf live = readRelation content.relatesTo := by
      refine ⟨(messageFromEvent env.mediaManager env.roomId ⟨header.eventId, header.sender,
        header.originServerTs, env.roomId, content⟩ liveRoom.media).1, ?_,
        relationsOf_messageFromEvent _ _ _ _⟩
      -- The branch of a replacement goes with `hreplace`.
      simp only [SentEvent.live, Events.execRoomMessageEvent, if_true]
      rfl
    obtain ⟨live, hsent, hrelations⟩ := hlive
    refine ⟨_, live, hfetched, hsent, ?_, hrelation ▸ hrelations⟩
    rw [CachedMessage.buildFromOriginal_eq, ← hrelation]
    exact relationsOf_messageFromEvent env.mediaManager env.roomId _ room.media
  · have heffect : (effectOf env ((SentEvent.pollStart (.new block)).timeline header encrypted)
        room.media).1 = .assembled { Message.new header.roomId header.eventId header.sender
          header.originServerTs with content := some (.poll poll) } := by
      rw [effectOf_of_readable env hread]
      simp only [SentEvent.event, effectOfMessageLike, effectOfPollStart, hpoll]
    rw [heffect] at hfetched
    refine ⟨_, { Message.new env.roomId header.eventId header.sender header.originServerTs with
      content := some (.poll poll) }, hfetched, ?_, ?_, ?_⟩
    · simp only [SentEvent.live, execNewUnstablePollStartEvent,
        UnstablePollStartEventContent.pollStart, hpoll]
    · rw [CachedMessage.buildFromOriginal_eq, hrelation]
      rfl
    · rw [hrelation]
      rfl

theorem parseId_eq_ok {parse : String → Option String}
    (hparse : ∀ {s id}, parse s = some id → id = s) {e : SendError} {id id' : Option String}
    (h : parseId parse e id = .ok id') : id' = id := by
  cases id with
  | none => exact (Except.ok.inj h).symm
  | some id =>
    unfold parseId at h
    cases hid : parse id with
    | none => simp [hid] at h
    | some parsed =>
      simp only [hid, Except.ok.injEq] at h
      rw [← h, hparse hid]

end Receiving

/-! ## Requested relations -/

/-- The message has the requested thread and answers the requested message. -/
def HasRelations (request : MessageSendRequest) (message : Message) : Prop :=
  message.threadId = request.threadId ∧ message.relatedMessageId = request.relatedMessageId

/-- A content that can carry the requested relations: a text one of them, a file a reply. -/
def CanCarry : Option SendContent → (threadId relatedMessageId : Option String) → Prop
  | some (.text _), threadId, relatedMessageId => threadId = none ∨ relatedMessageId = none
  | some (.file _ _), threadId, _ => threadId = none
  | _, threadId, relatedMessageId => threadId = none ∧ relatedMessageId = none

theorem readRelation_sentRelation_iff (content : SendContent)
    (threadId relatedMessageId : Option String) :
    readRelation (sentRelation content threadId relatedMessageId) = (threadId, relatedMessageId)
      ↔ CanCarry (some content) threadId relatedMessageId := by
  cases content <;> cases threadId <;> cases relatedMessageId <;>
    simp [sentRelation, readRelation, CanCarry]

/-- A sent message is received with the requested relations exactly if its content can carry
    them, live and in a fetched history. -/
theorem relations_kept_iff {M : Type} (env : RoomEnv M) {sdk : Sdk} {request : MessageSendRequest}
    {sent : SentEvent} (h : sendMessage sdk request = .ok sent) (header : RedactedEvent)
    (encrypted : Bool) (room : CachedRoom M) (liveRoom : Events.LiveRoom M) :
    ∃ fetched live, messageOf env room (sent.timeline header encrypted) = some fetched ∧
      sent.live env header liveRoom = [.received live] ∧
      (HasRelations request fetched ↔
        CanCarry request.content request.threadId request.relatedMessageId) ∧
      (HasRelations request live ↔
        CanCarry request.content request.threadId request.relatedMessageId) := by
  unfold sendMessage at h
  cases hcontent : request.content with
  | none => simp [hcontent] at h
  | some content =>
    simp only [hcontent] at h
    obtain ⟨relatedMessageId, hrelated, h⟩ := bind_eq_ok h
    obtain ⟨mentionedUserIds, -, h⟩ := bind_eq_ok h
    obtain ⟨threadId, hthread, h⟩ := bind_eq_ok h
    obtain rfl := parseId_eq_ok sdk.parseEventId_eq hrelated
    obtain rfl := parseId_eq_ok sdk.parseEventId_eq hthread
    obtain ⟨fetched, live, hfetched, hlive, hrelations, hrelations'⟩ :=
      received_of_send env h header encrypted room liveRoom
    have hiff : ∀ message, relationsOf message
        = readRelation (sentRelation content request.threadId request.relatedMessageId) →
        (HasRelations request message
          ↔ CanCarry (some content) request.threadId request.relatedMessageId) := by
      intro message hmessage
      rw [← readRelation_sentRelation_iff, ← hmessage]
      exact Prod.mk.injEq _ _ _ _ ▸ Iff.rfl
    exact ⟨fetched, live, hfetched, hlive, hiff fetched hrelations, hiff live hrelations'⟩

/-- An SDK that does nothing else to an event than to set its relation and its mentions. -/
def plainSdk : Sdk where
  parseEventId := some
  parseEventId_eq := fun h => (Option.some.inj h).symm
  parseUserId := some
  senderId := fun _ => .ok "@bob:hs"
  textMarkdown s := ⟨.text s, none, none⟩
  textMarkdown_relatesTo _ := rfl
  makeReplyTo event metadata := { event with relatesTo := some (.reply metadata.eventId) }
  makeReplyTo_relatesTo _ _ _ := rfl
  makeForThread event metadata _ :=
    { event with
      relatesTo := some (.thread ((metadata.thread.map Thread.eventId).getD metadata.eventId)) }
  makeForThread_relatesTo event metadata _ thread h := by simp [h]
  addMentions event mentions := { event with mentions := some mentions }
  addMentions_relatesTo _ _ := rfl
  sendAttachment filePath fileName reply :=
    .ok ⟨.file ⟨fileName, filePath, .plain "mxc://hs/file"⟩, reply.map Relation.reply, none⟩
  sendAttachment_relatesTo h := by
    cases h
    rfl
  pollType
    | 0 => some .disclosed
    | 1 => some .undisclosed
    | _ => none
  pollAnswers := some

/-- A text in a thread, which may answer a message. -/
def threadedText (relatedMessageId : Option String) : MessageSendRequest where
  relatedMessageId := relatedMessageId
  mentionedUserIds := []
  roomMentioned := false
  content := some (.text "Yes")
  threadId := some "$root"

def threadedEvent : SentEvent := .roomMessage ⟨.text "Yes", some (.thread "$root"), none⟩

/-- The message that is answered within the thread is not received. -/
theorem threaded_reply_lost :
    sendMessage plainSdk (threadedText (some "$question")) = .ok threadedEvent ∧
      (messageOf (RoomEnv.bare "!r") (CachedRoom.new ())
          (threadedEvent.timeline ⟨"$answer", "@alice:hs", 1, "!r"⟩ false)).map relationsOf
        = some (some "$root", none) :=
  ⟨rfl, by decide +kernel⟩

/-- A text in a thread that answers nothing is received as it has been requested. -/
theorem relations_kept_iff_threaded :
    ∃ fetched live,
      messageOf (RoomEnv.bare "!r") (CachedRoom.new ())
        (threadedEvent.timeline ⟨"$answer", "@alice:hs", 1, "!r"⟩ false) = some fetched ∧
      threadedEvent.live (RoomEnv.bare "!r") ⟨"$answer", "@alice:hs", 1, "!r"⟩ ⟨(), none⟩
        = [.received live] ∧
      HasRelations (threadedText none) fetched ∧ HasRelations (threadedText none) live := by
  obtain ⟨fetched, live, hfetched, hlive, hiff, hiff'⟩ :=
    relations_kept_iff (RoomEnv.bare "!r")
      (rfl : sendMessage plainSdk (threadedText none) = .ok threadedEvent)
      ⟨"$answer", "@alice:hs", 1, "!r"⟩ false (CachedRoom.new ()) ⟨(), none⟩
  exact ⟨fetched, live, hfetched, hlive, hiff.mpr (.inr rfl), hiff'.mpr (.inr rfl)⟩

end GoudaMatrix.Messages
