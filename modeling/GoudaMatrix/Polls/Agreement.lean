/-
  The two ways in which a poll is put together: `assemble_poll` applies the relations of the
  store by timestamp, `build_poll` applies the newest edit of the cache, then all responses,
  then the ends.

  `assemblePoll_agrees_iff` says when both give the same poll: the newest edits, each by its own
  order, say the same, and for every user and option the newest response after that edit
  selects the option exactly when the newest response of all does. `edit_drops_votes` is a poll
  with a response older than its edit, which only the cache counts.
-/
import GoudaMatrix.MemoryCache.Room
import GoudaMatrix.Polls.Tally

namespace GoudaMatrix.Polls

open GoudaMatrix.Lib GoudaMatrix.Ruma GoudaMatrix.MemoryCache

/-! ## The events of a poll -/

/-- A new poll start event. -/
structure PollStart where
  eventId : String
  sender : String
  originServerTs : Nat
  roomId : String
  pollStart : UnstablePollStartContentBlock
  decrypted : Bool
  timestamp : Option Nat

inductive PollRelationBody where
  | edit (pollStart : UnstablePollStartContentBlock)
  | response (answers : List String)
  | ended

/-- An edit of a poll, with a kind that is supported, a response to it or its end. -/
structure PollRelation where
  eventId : String
  sender : String
  originServerTs : Nat
  roomId : String
  body : PollRelationBody
  decrypted : Bool
  timestamp : Option Nat
  supported : ∀ pollStart, body = .edit pollStart → ∃ type, tryIntoChat pollStart.kind = .ok type

/-- The event as it comes from an encrypted or from an unencrypted room. -/
def timelineEvent (decrypted : Bool) (timestamp : Option Nat) (event : AnyMessageLikeEvent) :
    TimelineEvent :=
  ⟨if decrypted then .decrypted (.ok (.messageLike event))
    else .plainText (.ok (.messageLike event)), timestamp⟩

def PollStart.event (start : PollStart) : TimelineEvent :=
  timelineEvent start.decrypted start.timestamp (.unstablePollStart (.original
    ⟨start.eventId, start.sender, start.originServerTs, start.roomId, .new start.pollStart⟩))

namespace PollRelation

variable (r : PollRelation) (pollId : String)

def toEdit : Option (OriginalEvent UnstablePollStartEventContent) :=
  match r.body with
  | .edit pollStart => some
    ⟨r.eventId, r.sender, r.originServerTs, r.roomId, .replacement pollId pollStart⟩
  | _ => none

def event : TimelineEvent :=
  timelineEvent r.decrypted r.timestamp <|
    match r.body with
    | .edit pollStart => .unstablePollStart (.original
      ⟨r.eventId, r.sender, r.originServerTs, r.roomId, .replacement pollId pollStart⟩)
    | .response answers => .unstablePollResponse (.original
      ⟨r.eventId, r.sender, r.originServerTs, r.roomId, pollId, answers⟩)
    | .ended => .unstablePollEnd (.original
      ⟨r.eventId, r.sender, r.originServerTs, r.roomId, ⟨pollId⟩⟩)

/-- The key by which `assemble_poll` sorts. -/
def storeKey : Nat :=
  match r.timestamp with
  | none => 0
  | some ts => ts + 1

end PollRelation

/-! ## What the two paths see -/

/-- The poll block in force, and the responses since it came into force. -/
abbrev InForce := UnstablePollStartContentBlock × List (String × List String)

def InForce.next (acc : InForce) (r : PollRelation) : InForce :=
  match r.body with
  | .edit pollStart => (pollStart, [])
  | .response answers => (acc.1, acc.2 ++ [(r.sender, answers)])
  | .ended => acc

/-- After all relations, in the order of the store. -/
def storeInForce (start : PollStart) (store : List PollRelation) : InForce :=
  (sortByKey PollRelation.storeKey store).foldl InForce.next (start.pollStart, [])

/-- The newest edit and all responses, in the order of the cache. -/
def cacheInForce (o : IterationOrder) (start : PollStart) (cached : CachedMessage) : InForce :=
  (((sortByKey OriginalEvent.originServerTs (cached.pollReplacementEvents.values o)).getLast?.map
      fun event => event.content.pollStart).getD start.pollStart,
    (sortByKey OriginalEvent.originServerTs (cached.pollResponseEvents.values o)).map
      fun event => (event.sender, event.content.answers))

/-- The two blocks show the same poll. -/
structure SameBlock (a b : UnstablePollStartContentBlock) : Prop where
  question : a.question = b.question
  kind : a.kind = b.kind
  maxSelections : toU32 a.maxSelections = toU32 b.maxSelections
  answers : a.answers = b.answers

/-- The user's newest of these responses selects the option at place `i`. -/
def InForce.Counts (inForce : InForce) (userId : String) (i : Nat) : Prop :=
  ∃ answers, lastAnswers inForce.2 userId = some answers ∧
    Selects (inForce.1.answers.map UnstablePollAnswer.id)
      (answers.take (toU32 inForce.1.maxSelections)) i

/-- The condition for the two paths to agree. -/
structure InForce.Agrees (a b : InForce) : Prop where
  block : SameBlock a.1 b.1
  counts : ∀ userId i, a.Counts userId i ↔ b.Counts userId i

/-- The same poll, with the voters of every option as a set. -/
structure SamePoll (a b : MessageContentPoll) : Prop where
  same : SameButVoters a b
  voters : ∀ userId i, Voted a.options userId i ↔ Voted b.options userId i

/-- The same poll, or no poll on both paths. -/
def SameResult : Option MessageContentPoll → Option MessageContentPoll → Prop
  | some a, some b => SamePoll a b
  | none, none => True
  | _, _ => False

/-- The poll in a message that a handler has assembled. -/
def builtPoll : Result (Option CachedRoomAction) → Option MessageContentPoll
  | .ok (some (.message message)) =>
    match message.content with
    | some (.poll content) => some content
    | _ => none
  | _ => none

/-! ## The path of the store -/

/-- The poll of a block, with these responses. -/
def pollOf (block : UnstablePollStartContentBlock) (type : PollType) : MessageContentPoll where
  type := type
  completed := false
  maxSelections := toU32 block.maxSelections
  question := block.question
  options := block.answers.map intoChat

def PollRelation.IsEnd (r : PollRelation) : Bool :=
  match r.body with
  | .ended => true
  | _ => false

theorem assemblePollStart_eq {block : UnstablePollStartContentBlock} {type : PollType}
    (h : tryIntoChat block.kind = .ok type) :
    assemblePollStart block = .ok (pollOf block type) := by
  unfold assemblePollStart
  rw [h]
  rfl

theorem replaceContent_eq {old : MessageContentPoll} {block : UnstablePollStartContentBlock}
    {type : PollType} (h : tryIntoChat block.kind = .ok type) :
    replaceContent old block = (.ok (), { pollOf block type with completed := old.completed }) := by
  unfold replaceContent
  rw [h]
  rfl

theorem messageLike_timelineEvent (decrypted : Bool) (timestamp : Option Nat)
    (event : AnyMessageLikeEvent) :
    messageLike (timelineEvent decrypted timestamp event) = .ok event := by
  cases decrypted <;> rfl

theorem sender_timelineEvent (decrypted : Bool) (timestamp : Option Nat)
    (event : AnyMessageLikeEvent) :
    (timelineEvent decrypted timestamp event).sender
      = some (AnyTimelineEvent.messageLike event).header.sender := by
  cases decrypted <;> rfl

/-- The poll in force, with its responses. -/
def InForce.poll (inForce : InForce) (type : PollType) (completed : Bool) : MessageContentPoll :=
  { addAnswers (pollOf inForce.1 type) inForce.2 with completed }

/-- An iteration of the loop of `assemble_poll`. -/
theorem applyRelation_next (acc : InForce) {type : PollType} (completed : Bool)
    (htype : tryIntoChat acc.1.kind = .ok type) (r : PollRelation) (pollId : String) :
    ∃ type', tryIntoChat (acc.next r).1.kind = .ok type' ∧
      applyRelation (acc.poll type completed) (r.event pollId)
        = .ok ((acc.next r).poll type' (completed || r.IsEnd)) := by
  cases hbody : r.body with
  | edit pollStart =>
    obtain ⟨type', htype'⟩ := r.supported pollStart hbody
    refine ⟨type', by simp [InForce.next, hbody, htype'], ?_⟩
    simp only [applyRelation, sender_timelineEvent, deserializePollStartContent,
      PollRelation.event, hbody, messageLike_timelineEvent, originalContent,
      UnstablePollStartEventContent.pollStart, replaceContent_eq htype', InForce.next,
      PollRelation.IsEnd, Bool.or_false]
    rfl
  | response answers =>
    refine ⟨type, by simp [InForce.next, hbody, htype], ?_⟩
    simp only [applyRelation, sender_timelineEvent, deserializePollStartContent,
      deserializePollResponseContent, PollRelation.event, hbody, messageLike_timelineEvent,
      originalContent, InForce.next, PollRelation.IsEnd, Bool.or_false, InForce.poll,
      addAnswers_concat]
    rfl
  | ended =>
    refine ⟨type, by simp [InForce.next, hbody, htype], ?_⟩
    simp only [applyRelation, sender_timelineEvent, deserializePollStartContent,
      deserializePollResponseContent, deserializePollEndContent, PollRelation.event, hbody,
      messageLike_timelineEvent, originalContent, InForce.next, PollRelation.IsEnd, Bool.or_true]
    rfl

/-- The loop of `assemble_poll`. -/
theorem foldlM_applyRelation (acc : InForce) {type : PollType} (completed : Bool)
    (htype : tryIntoChat acc.1.kind = .ok type) (pollId : String) (rs : List PollRelation) :
    ∃ type', tryIntoChat (rs.foldl InForce.next acc).1.kind = .ok type' ∧
      (rs.map fun r => r.event pollId).foldlM applyRelation (acc.poll type completed)
        = .ok ((rs.foldl InForce.next acc).poll type'
          (completed || rs.any PollRelation.IsEnd)) := by
  induction rs generalizing acc type completed with
  | nil => exact ⟨type, htype, by simp; rfl⟩
  | cons r rs ih =>
    obtain ⟨type', htype', hstep⟩ := applyRelation_next acc completed htype r pollId
    obtain ⟨type'', htype'', hrun⟩ := ih (acc.next r) (completed || r.IsEnd) htype'
    refine ⟨type'', htype'', ?_⟩
    rw [List.map_cons, List.foldlM_cons, hstep, List.any_cons, ← Bool.or_assoc]
    exact hrun

theorem assemblePoll_of_start (start : PollStart) (relations : List TimelineEvent) :
    assemblePoll start.event relations = (assemblePollStart start.pollStart).bind
      fun content => (sortByKey timestampKey relations).foldlM applyRelation content := by
  have hstart : deserializePollStartContent start.event = .ok (.new start.pollStart) := by
    simp only [deserializePollStartContent, PollStart.event, messageLike_timelineEvent,
      originalContent]
  unfold assemblePoll
  rw [hstart]
  rfl

/-- The poll that `assemble_poll` returns. -/
theorem assemblePoll_eq (start : PollStart) {type : PollType}
    (htype : tryIntoChat start.pollStart.kind = .ok type) (store : List PollRelation) :
    ∃ type', tryIntoChat (storeInForce start store).1.kind = .ok type' ∧
      assemblePoll start.event (store.map fun r => r.event start.eventId)
        = .ok ((storeInForce start store).poll type' (store.any PollRelation.IsEnd)) := by
  have hsort : sortByKey timestampKey (store.map fun r => r.event start.eventId)
      = (sortByKey PollRelation.storeKey store).map fun r => r.event start.eventId :=
    (map_sortByKey timestampKey (fun r : PollRelation => r.event start.eventId) store).symm
  have hany : (sortByKey PollRelation.storeKey store).any PollRelation.IsEnd
      = store.any PollRelation.IsEnd := (sortByKey_perm PollRelation.storeKey store).any_eq
  obtain ⟨type', htype', hrun⟩ := foldlM_applyRelation (start.pollStart, []) false htype
    start.eventId (sortByKey PollRelation.storeKey store)
  refine ⟨type', htype', ?_⟩
  rw [hany] at hrun
  rw [assemblePoll_of_start, assemblePollStart_eq htype, hsort]
  exact hrun

/-- A start of an unknown kind is no poll. -/
theorem assemblePoll_error (start : PollStart) {e : Error}
    (htype : tryIntoChat start.pollStart.kind = .error e) (relations : List TimelineEvent) :
    assemblePoll start.event relations = .error .invalidPollType := by
  rw [assemblePoll_of_start, assemblePollStart, htype]
  rfl

/-! ## The path of the cache -/

/-- The cache after it has processed the relations, in this order. -/
def processRelations {M : Type} (env : RoomEnv M) (pollId : String) (room : CachedRoom M)
    (rs : List PollRelation) : CachedRoom M :=
  rs.foldl (fun room r => (room.processTimelineEvent env (r.event pollId)).2) room

/-- What is cached for the poll. -/
def cachedMessage {M : Type} (room : CachedRoom M) (pollId : String) : CachedMessage :=
  (room.messages.lookup pollId).getD CachedMessage.default

/-- What processing a relation does to the cached message. -/
def PollRelation.cache (r : PollRelation) (pollId : String) (cached : CachedMessage) :
    CachedMessage :=
  match r.body with
  | .edit pollStart => { cached with
      pollReplacementEvents := cached.pollReplacementEvents.insert r.eventId
        ⟨r.eventId, r.sender, r.originServerTs, r.roomId, .replacement pollId pollStart⟩ }
  | .response answers => { cached with
      pollResponseEvents := cached.pollResponseEvents.insert r.eventId
        ⟨r.eventId, r.sender, r.originServerTs, r.roomId, pollId, answers⟩ }
  | .ended => { cached with
      pollEndEvents := cached.pollEndEvents.insert r.eventId
        ⟨r.eventId, r.sender, r.originServerTs, r.roomId, ⟨pollId⟩⟩ }

theorem cachedMessage_process {M : Type} (env : RoomEnv M) (room : CachedRoom M)
    (r : PollRelation) (pollId : String) :
    cachedMessage (room.processTimelineEvent env (r.event pollId)).2 pollId
      = r.cache pollId (cachedMessage room pollId) := by
  have hlookup : ∀ f : CachedMessage → CachedMessage,
      (HashMap.modifyEntry room.messages pollId CachedMessage.default f).lookup pollId
        = some (f (cachedMessage room pollId)) := by
    intro f
    rw [HashMap.lookup_modifyEntry, if_pos rfl]
    rfl
  unfold PollRelation.event timelineEvent PollRelation.cache
  cases r.decrypted <;> cases r.body <;>
    exact congrArg (fun m => Option.getD m CachedMessage.default) (hlookup _)

/-- What is cached after all relations. -/
def cacheAll (pollId : String) (rs : List PollRelation) : CachedMessage :=
  rs.foldl (fun cached r => r.cache pollId cached) CachedMessage.default

theorem cacheAll_concat (pollId : String) (rs : List PollRelation) (r : PollRelation) :
    cacheAll pollId (rs ++ [r]) = r.cache pollId (cacheAll pollId rs) := by
  simp [cacheAll]

theorem cachedMessage_processRelations {M : Type} (env : RoomEnv M) (media : M) (pollId : String)
    (rs : List PollRelation) :
    cachedMessage (processRelations env pollId (CachedRoom.new media) rs) pollId
      = cacheAll pollId rs := by
  induction rs using List.reverseRecOn with
  | nil => rfl
  | append_singleton rs r ih =>
    rw [cacheAll_concat, ← ih, processRelations, List.foldl_concat]
    exact cachedMessage_process env _ r pollId

/-- Every cached edit is one of the relations. -/
theorem mem_cached_edits {pollId key : String} {rs : List PollRelation}
    {event : OriginalEvent UnstablePollStartEventContent}
    (h : (cacheAll pollId rs).pollReplacementEvents.lookup key = some event) :
    ∃ r ∈ rs, r.toEdit pollId = some event := by
  induction rs using List.reverseRecOn with
  | nil => cases h
  | append_singleton rs r ih =>
    have hold : (cacheAll pollId rs).pollReplacementEvents.lookup key = some event →
        ∃ r' ∈ rs ++ [r], r'.toEdit pollId = some event := by
      intro hold
      obtain ⟨r', hr', hedit⟩ := ih hold
      exact ⟨r', List.mem_append_left _ hr', hedit⟩
    rw [cacheAll_concat, PollRelation.cache] at h
    cases hbody : r.body with
    | edit pollStart =>
      simp only [hbody] at h
      rw [HashMap.lookup_insert_cases] at h
      split at h
      · refine ⟨r, by simp, ?_⟩
        rw [← h, PollRelation.toEdit, hbody]
      · exact hold h
    | response answers =>
      simp only [hbody] at h
      exact hold h
    | ended =>
      simp only [hbody] at h
      exact hold h

theorem cached_ends_isEmpty (pollId : String) (rs : List PollRelation) :
    (cacheAll pollId rs).pollEndEvents.entries.isEmpty = !rs.any PollRelation.IsEnd := by
  induction rs using List.reverseRecOn with
  | nil => rfl
  | append_singleton rs r ih =>
    rw [cacheAll_concat, List.any_append, PollRelation.cache]
    cases hbody : r.body with
    | edit | response =>
      simp only [PollRelation.IsEnd, hbody, List.any_cons, List.any_nil, Bool.or_false]
      exact ih
    | ended =>
      simp only [PollRelation.IsEnd, hbody, List.any_cons, List.any_nil, Bool.or_false,
        Bool.or_true, Bool.not_true]
      rfl

theorem applyPollReplacements_eq (o : IterationOrder) (start : PollStart) {type : PollType}
    (htype : tryIntoChat start.pollStart.kind = .ok type) (cached : CachedMessage)
    (hedits : ∀ event ∈ cached.pollReplacementEvents.values o,
      ∃ type, tryIntoChat event.content.pollStart.kind = .ok type) :
    ∃ type', tryIntoChat (cacheInForce o start cached).1.kind = .ok type' ∧
      cached.applyPollReplacements o (pollOf start.pollStart type)
        = pollOf (cacheInForce o start cached).1 type' := by
  unfold CachedMessage.applyPollReplacements cacheInForce
  dsimp only
  cases hlast : (sortByKey OriginalEvent.originServerTs
      (cached.pollReplacementEvents.values o)).getLast? with
  | none => exact ⟨type, htype, rfl⟩
  | some event =>
    obtain ⟨type', htype'⟩ := hedits event (getLast?_sortByKey hlast).1
    refine ⟨type', htype', ?_⟩
    dsimp only
    rw [replaceContent_eq htype']
    rfl

/-- `build_poll`: the poll in force, with all responses. -/
theorem buildPoll_content (o : IterationOrder) (start : PollStart) {type type' : PollType}
    (cached : CachedMessage)
    (hreplaced : cached.applyPollReplacements o (pollOf start.pollStart type)
      = pollOf (cacheInForce o start cached).1 type') (original : Message) :
    (cached.buildPoll o original (pollOf start.pollStart type)).content
      = some (.poll ((cacheInForce o start cached).poll type'
          (!cached.pollEndEvents.entries.isEmpty))) := by
  have hresponses : ∀ content, cached.applyPollResponses o content
      = addAnswers content (cacheInForce o start cached).2 := by
    intro content
    simp only [CachedMessage.applyPollResponses, addAnswers, cacheInForce, List.foldl_map]
  simp only [CachedMessage.buildPoll, CachedMessage.applyReactions, hreplaced, hresponses,
    CachedMessage.applyPollEnds, InForce.poll]
  cases cached.pollEndEvents.entries.isEmpty with
  | true =>
    have hcompleted := (addAnswers_sameButVoters (pollOf (cacheInForce o start cached).1 type')
      (cacheInForce o start cached).2).completed
    simp only [if_true, Bool.not_true]
    rw [← show _ = false from hcompleted]
  | false => rfl

/-- The poll that the cache builds when it reaches the start. -/
theorem builtPoll_start {M : Type} (env : RoomEnv M) (room : CachedRoom M) (start : PollStart)
    {type : PollType} (htype : tryIntoChat start.pollStart.kind = .ok type)
    {content : MessageContentPoll}
    (hbuild : ∀ original : Message, ((cachedMessage room start.eventId).buildPoll env.order original
      (pollOf start.pollStart type)).content = some (.poll content)) :
    builtPoll (room.processTimelineEvent env start.event).1 = some content := by
  have hstart : ∀ (room' : CachedRoom M) (original : Message), room'.messages = room.messages →
      original.messageId = start.eventId →
      original.content = some (.poll (pollOf start.pollStart type)) →
      (room'.assembleMessage env original).1
        = (cachedMessage room start.eventId).buildPoll env.order original
          (pollOf start.pollStart type) := by
    intro room' original hroom hid hcontent
    simp only [CachedRoom.assembleMessage, CachedMessage.buildFromOriginal, hcontent]
    rw [hid, hroom]
    rfl
  unfold PollStart.event timelineEvent
  cases start.decrypted <;>
  · simp only [CachedRoom.processTimelineEvent, CachedRoom.processPlainTextEvent,
      CachedRoom.processDecryptedEvent, Raw.deserialize, CachedRoom.processAnyTimelineEvent,
      CachedRoom.processAnyMessageLikeEvent, CachedRoom.processUnstablePollStart,
      CachedRoom.processNewUnstablePollStart, UnstablePollStartEventContent.pollStart,
      assemblePollStart_eq htype, Bool.false_eq_true, if_false, if_true]
    rw [hstart]
    · simp only [builtPoll, hbuild]
    all_goals rfl

theorem builtPoll_start_error {M : Type} (env : RoomEnv M) (room : CachedRoom M)
    (start : PollStart) {e : Error} (htype : tryIntoChat start.pollStart.kind = .error e) :
    builtPoll (room.processTimelineEvent env start.event).1 = none := by
  have hstart : assemblePollStart start.pollStart = .error .invalidPollType := by
    rw [assemblePollStart, htype]
  unfold PollStart.event timelineEvent
  cases start.decrypted <;>
    simp only [CachedRoom.processTimelineEvent, CachedRoom.processPlainTextEvent,
      CachedRoom.processDecryptedEvent, Raw.deserialize, CachedRoom.processAnyTimelineEvent,
      CachedRoom.processAnyMessageLikeEvent, CachedRoom.processUnstablePollStart,
      CachedRoom.processNewUnstablePollStart, UnstablePollStartEventContent.pollStart,
      hstart, Bool.false_eq_true, if_false, if_true, builtPoll]

/-! ## Agreement -/

theorem poll_labels (inForce : InForce) (type : PollType) (completed : Bool) :
    (inForce.poll type completed).options.map (fun option => (option.id, option.text))
      = inForce.1.answers.map fun answer => (answer.id, answer.text) := by
  have h := (addAnswers_sameButVoters (pollOf inForce.1 type) inForce.2).labels
  refine Eq.trans h ?_
  simp [pollOf, intoChat, Function.comp_def]

theorem voted_poll (inForce : InForce) (type : PollType) (completed : Bool) (userId : String)
    (i : Nat) :
    Voted (inForce.poll type completed).options userId i ↔ inForce.Counts userId i := by
  have hfresh : ∀ userId i, ¬ Voted (pollOf inForce.1 type).options userId i :=
    not_voted_of_fresh inForce.1.answers
  have hids : (pollOf inForce.1 type).options.map PollOption.id
      = inForce.1.answers.map UnstablePollAnswer.id := by
    simp [pollOf, intoChat, Function.comp_def]
  have h := voted_addAnswers hfresh inForce.2 userId i
  rw [hids] at h
  exact h

theorem tryIntoChat_injective {a b : PollKind} {type : PollType} (ha : tryIntoChat a = .ok type)
    (hb : tryIntoChat b = .ok type) : a = b := by
  cases a <;> cases b <;> cases ha <;> cases hb <;> rfl

theorem answers_eq_of_labels {a b : List UnstablePollAnswer}
    (h : a.map (fun answer => (answer.id, answer.text))
      = b.map fun answer => (answer.id, answer.text)) : a = b := by
  refine List.map_injective_iff.mpr ?_ h
  rintro ⟨id, text⟩ ⟨id', text'⟩ heq
  cases heq
  rfl

/-- Two polls with the same completed flag are the same when the blocks and the votes are. -/
theorem samePoll_iff {a b : InForce} {ta tb : PollType} (ha : tryIntoChat a.1.kind = .ok ta)
    (hb : tryIntoChat b.1.kind = .ok tb) (completed : Bool) :
    SamePoll (a.poll ta completed) (b.poll tb completed) ↔ a.Agrees b := by
  have hsa := addAnswers_sameButVoters (pollOf a.1 ta) a.2
  have hsb := addAnswers_sameButVoters (pollOf b.1 tb) b.2
  constructor
  · rintro ⟨hsame, hvoters⟩
    have htype : ta = tb := (hsa.type.symm.trans hsame.type).trans hsb.type
    refine ⟨⟨?_, ?_, ?_, ?_⟩, fun userId i => ?_⟩
    · exact (hsa.question.symm.trans hsame.question).trans hsb.question
    · exact tryIntoChat_injective (htype ▸ ha) hb
    · exact (hsa.maxSelections.symm.trans hsame.maxSelections).trans hsb.maxSelections
    · have hlabels := hsame.labels
      rw [poll_labels, poll_labels] at hlabels
      exact answers_eq_of_labels hlabels
    · rw [← voted_poll a ta completed, ← voted_poll b tb completed]
      exact hvoters userId i
  · rintro ⟨hblock, hcounts⟩
    have htype : ta = tb := by
      rw [hblock.kind, hb] at ha
      exact (Except.ok.inj ha).symm
    refine ⟨⟨?_, rfl, ?_, ?_, ?_⟩, fun userId i => ?_⟩
    · exact (hsa.type.trans htype).trans hsb.type.symm
    · exact (hsa.maxSelections.trans hblock.maxSelections).trans hsb.maxSelections.symm
    · exact (hsa.question.trans hblock.question).trans hsb.question.symm
    · rw [poll_labels, poll_labels, hblock.answers]
    · rw [voted_poll, voted_poll]
      exact hcounts userId i

/-- The two paths give the same poll exactly when the start has an unknown kind, so that both
    fail, or when the newest edits and the votes that count agree. -/
theorem assemblePoll_agrees_iff {M : Type} (env : RoomEnv M) (media : M) (start : PollStart)
    (store processed : List PollRelation) (hsame : ∀ r, r ∈ processed ↔ r ∈ store) :
    SameResult (assemblePoll start.event (store.map fun r => r.event start.eventId)).toOption
        (builtPoll ((processRelations env start.eventId (CachedRoom.new media)
          processed).processTimelineEvent env start.event).1) ↔
      (∃ name, start.pollStart.kind = .custom name) ∨
        (storeInForce start store).Agrees
          (cacheInForce env.order start (cacheAll start.eventId processed)) := by
  cases htype : tryIntoChat start.pollStart.kind with
  | error e =>
    rw [assemblePoll_error start htype, builtPoll_start_error env _ start htype]
    refine iff_of_true trivial (Or.inl ?_)
    cases hkind : start.pollStart.kind with
    | custom name => exact ⟨name, rfl⟩
    | disclosed | undisclosed =>
      rw [hkind] at htype
      cases htype
  | ok type =>
    obtain ⟨ta, hta, hstore⟩ := assemblePoll_eq start htype store
    have hedits : ∀ event ∈ (cacheAll start.eventId processed).pollReplacementEvents.values
        env.order, ∃ type, tryIntoChat event.content.pollStart.kind = .ok type := by
      intro event hevent
      obtain ⟨key, hkey⟩ := HashMap.mem_values.mp hevent
      obtain ⟨r, -, hedit⟩ := mem_cached_edits hkey
      unfold PollRelation.toEdit at hedit
      split at hedit
      · next pollStart hbody =>
        rw [Option.some.injEq] at hedit
        subst hedit
        exact r.supported pollStart hbody
      · cases hedit
    have hends : (!(cacheAll start.eventId processed).pollEndEvents.entries.isEmpty)
        = store.any PollRelation.IsEnd := by
      have hany : processed.any PollRelation.IsEnd = store.any PollRelation.IsEnd := by
        rw [Bool.eq_iff_iff, List.any_eq_true, List.any_eq_true]
        simp only [hsame]
      rw [cached_ends_isEmpty, Bool.not_not, hany]
    obtain ⟨tb, htb, hcache⟩ : ∃ tb,
        tryIntoChat (cacheInForce env.order start (cacheAll start.eventId processed)).1.kind
          = .ok tb ∧ ∀ original : Message,
        ((cacheAll start.eventId processed).buildPoll env.order original
            (pollOf start.pollStart type)).content
          = some (.poll ((cacheInForce env.order start (cacheAll start.eventId processed)).poll tb
              (store.any PollRelation.IsEnd))) := by
      obtain ⟨tb, htb, hreplaced⟩ := applyPollReplacements_eq env.order start htype _ hedits
      refine ⟨tb, htb, fun original => ?_⟩
      rw [← hends]
      exact buildPoll_content env.order start _ hreplaced original
    rw [hstore, builtPoll_start env _ start htype (fun original => by
      rw [cachedMessage_processRelations]
      exact hcache original)]
    have hknown : ¬ ∃ name, start.pollStart.kind = .custom name := by
      rintro ⟨name, hname⟩
      rw [hname] at htype
      cases htype
    rw [or_iff_right hknown]
    exact samePoll_iff hta htb _

/-! ## A poll with one response -/

def lunch : PollStart where
  eventId := "$poll"
  sender := "@alice"
  originServerTs := 10
  roomId := "!room"
  pollStart := ⟨"Lunch?", .disclosed, 1, [⟨"y", "yes"⟩, ⟨"n", "no"⟩]⟩
  decrypted := false
  timestamp := some 10

/-- Bob says yes. -/
def yes (ts : Nat) : PollRelation where
  eventId := "$yes"
  sender := "@bob"
  originServerTs := ts
  roomId := "!room"
  body := .response ["y"]
  decrypted := true
  timestamp := some ts
  supported := nofun

/-- Alice makes the question more precise. -/
def lunchEdit (ts : Nat) : PollRelation where
  eventId := "$edit"
  sender := "@alice"
  originServerTs := ts
  roomId := "!room"
  body := .edit ⟨"Lunch at one?", .disclosed, 1, [⟨"y", "yes"⟩, ⟨"n", "no"⟩]⟩
  decrypted := true
  timestamp := some ts
  supported := by
    rintro _ ⟨⟩
    exact ⟨.disclosed, rfl⟩

theorem assemblePoll_agrees_lunch :
    SameResult
      (assemblePoll lunch.event ([lunchEdit 20, yes 30].map fun r => r.event "$poll")).toOption
      (builtPoll ((processRelations (RoomEnv.bare "!room") "$poll" (CachedRoom.new ())
        [yes 30, lunchEdit 20]).processTimelineEvent (RoomEnv.bare "!room") lunch.event).1) :=
  (assemblePoll_agrees_iff (RoomEnv.bare "!room") () lunch [lunchEdit 20, yes 30]
    [yes 30, lunchEdit 20] (by simp [or_comm])).mpr
    (Or.inr ⟨⟨rfl, rfl, rfl, rfl⟩, fun _ _ => Iff.rfl⟩)

/-- The poll after the edit, with these voters of the answer yes. -/
def editedLunch (voters : List String) : MessageContentPoll :=
  ⟨.disclosed, false, 1, "Lunch at one?", [⟨"y", "yes", voters⟩, ⟨"n", "no", []⟩]⟩

/-- The response is older than the edit. The store has lost it, the cache counts it. -/
theorem edit_drops_votes :
    ¬ SameResult
      (assemblePoll lunch.event ([yes 20, lunchEdit 30].map fun r => r.event "$poll")).toOption
      (builtPoll ((processRelations (RoomEnv.bare "!room") "$poll" (CachedRoom.new ())
        [lunchEdit 30, yes 20]).processTimelineEvent (RoomEnv.bare "!room") lunch.event).1) := by
  have hstore : (assemblePoll lunch.event
      ([yes 20, lunchEdit 30].map fun r => r.event "$poll")).toOption = some (editedLunch []) := by
    decide +kernel
  have hcache : builtPoll ((processRelations (RoomEnv.bare "!room") "$poll" (CachedRoom.new ())
      [lunchEdit 30, yes 20]).processTimelineEvent (RoomEnv.bare "!room") lunch.event).1
      = some (editedLunch ["@bob"]) := by
    decide +kernel
  rw [hstore, hcache]
  intro h
  have hvote : Voted (editedLunch []).options "@bob" 0 :=
    (h.voters "@bob" 0).mpr ⟨_, rfl, List.mem_singleton.mpr rfl⟩
  simp [editedLunch] at hvote

end GoudaMatrix.Polls
