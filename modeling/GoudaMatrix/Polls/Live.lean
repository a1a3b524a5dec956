/-
  Polls on the live path (`events.rs`: `exec_replacement_unstable_poll_start_event`,
  `exec_unstable_poll_response_event` and `exec_unstable_poll_end_event`). The handlers assemble
  the poll from the store and put their event on top of it, whatever the store already has.

  `unchanged_on_error_iff` says when an edit that fails leaves a poll alone, here and in
  `apply_poll_replacements`: the kind is the only thing that can fail, and it is converted last,
  when all else is written. `quiz_empties_poll` is such an edit.

  `newest_votes_iff` says when the poll that is sent after a response gives every user the vote of
  the newest response by timestamp: for the sender of the event, the event selects what a newest
  response of the sender does; for the others, no edit is after a vote that counts.
  `delayed_response_wins` is a response that is handled after a newer one has come to the store.
  The timestamps are those by which `assemble_poll` sorts, for the event its own.
-/
import Mathlib.Data.List.DropRight
import GoudaMatrix.Polls.Ballots
import GoudaMatrix.Polls.Strangers

namespace GoudaMatrix.Polls

open GoudaMatrix.Lib GoudaMatrix.Ruma GoudaMatrix.MemoryCache

/-- The content of an edit as the handler reads it. Next to the poll block of the relation it may
    have one of its own. -/
structure ReplacementUnstablePollStartEventContent where
  relatesTo : String
  pollStart : Option UnstablePollStartContentBlock
deriving DecidableEq, Repr

/-! `loaded` is what `load_or_fetch_event_with_relations` finds for the id of the poll. -/

section Exec

variable (roomId : String) (loaded : Option (TimelineEvent × List TimelineEvent))

def pollChange (pollId : String) (content : MessageContentPoll) : MessageChangeEvent :=
  { MessageChangeEvent.new roomId pollId with content := some (.poll content) }

def execReplacementUnstablePollStartEvent (content : ReplacementUnstablePollStartEventContent) :
    Option MessageChangeEvent :=
  match loaded with
  | none => none
  | some (start, relations) =>
    match assemblePoll start relations with
    | .error _ => none
    | .ok original =>
      let original := match content.pollStart with
        | some new => (replaceContent original new).2
        | none => original
      some (pollChange roomId content.relatesTo original)

def execUnstablePollResponseEvent (event : OriginalEvent UnstablePollResponseEventContent) :
    Option MessageChangeEvent :=
  match loaded with
  | none => none
  | some (start, relations) =>
    match assemblePoll start relations with
    | .error _ => none
    | .ok content => some (pollChange roomId event.content.relatesTo
        (addAnswer content event.sender event.content.answers))

end Exec

/-! ## Edits that fail -/

/-- A poll that has what the block says, without votes, apart from the kind. -/
structure HasBlock (poll : MessageContentPoll) (block : UnstablePollStartContentBlock) : Prop where
  maxSelections : poll.maxSelections = toU32 block.maxSelections
  options : poll.options = block.answers.map intoChat
  question : poll.question = block.question

def IsKnown (kind : PollKind) : Prop :=
  ∃ type, tryIntoChat kind = .ok type

/-- The content that `replace_content` leaves behind its error is the old one. -/
def KeepsOnError (old : MessageContentPoll) (new : UnstablePollStartContentBlock) : Prop :=
  ∀ e, (replaceContent old new).1 = .error e → (replaceContent old new).2 = old

/-- What the cache shows if the newest edit fails is the poll before. -/
def ShowsOnError (o : IterationOrder) (cached : CachedMessage) (content : MessageContentPoll) :
    Prop :=
  ∀ edit e, (sortByKey OriginalEvent.originServerTs
      (cached.pollReplacementEvents.values o)).getLast? = some edit →
    (replaceContent content edit.content.pollStart).1 = .error e →
    cached.applyPollReplacements o content = content

/-- What is sent if the edit fails is the poll as it has been assembled. -/
def SendsOnError (roomId : String) (loaded : Option (TimelineEvent × List TimelineEvent))
    (content : ReplacementUnstablePollStartEventContent) : Prop :=
  ∀ start relations original new e, loaded = some (start, relations) →
    assemblePoll start relations = .ok original → content.pollStart = some new →
    (replaceContent original new).1 = .error e →
    execReplacementUnstablePollStartEvent roomId loaded content
      = some (pollChange roomId content.relatesTo original)

theorem replaceContent_unknown {new : UnstablePollStartContentBlock} (h : ¬ IsKnown new.kind)
    (old : MessageContentPoll) :
    (∃ e, (replaceContent old new).1 = .error e) ∧
      (replaceContent old new).2 = { old with
        maxSelections := toU32 new.maxSelections
        options := new.answers.map intoChat
        question := new.question } := by
  unfold replaceContent
  cases hkind : tryIntoChat new.kind with
  | ok type => exact absurd ⟨type, hkind⟩ h
  | error e => exact ⟨⟨e, rfl⟩, rfl⟩

theorem hasBlock_iff (old : MessageContentPoll) (new : UnstablePollStartContentBlock) :
    { old with
      maxSelections := toU32 new.maxSelections
      options := new.answers.map intoChat
      question := new.question } = old ↔ HasBlock old new := by
  constructor
  · intro h
    exact ⟨(congrArg MessageContentPoll.maxSelections h).symm,
      (congrArg MessageContentPoll.options h).symm,
      (congrArg MessageContentPoll.question h).symm⟩
  · rintro ⟨hmax, hoptions, hquestion⟩
    rw [← hmax, ← hoptions, ← hquestion]

theorem keepsOnError_iff (old : MessageContentPoll) (new : UnstablePollStartContentBlock) :
    KeepsOnError old new ↔ IsKnown new.kind ∨ HasBlock old new := by
  unfold KeepsOnError
  by_cases hknown : IsKnown new.kind
  · obtain ⟨type, htype⟩ := hknown
    refine iff_of_true (fun e he => ?_) (.inl ⟨type, htype⟩)
    rw [replaceContent_eq htype] at he
    cases he
  · obtain ⟨⟨e, he⟩, hcontent⟩ := replaceContent_unknown hknown old
    rw [or_iff_right hknown, hcontent, hasBlock_iff]
    exact ⟨fun h => h e he, fun h _ _ => h⟩

theorem showsOnError_iff (o : IterationOrder) (cached : CachedMessage)
    (content : MessageContentPoll) :
    ShowsOnError o cached content ↔
      ∀ edit, (sortByKey OriginalEvent.originServerTs
          (cached.pollReplacementEvents.values o)).getLast? = some edit →
        IsKnown edit.content.pollStart.kind ∨ HasBlock content edit.content.pollStart := by
  unfold ShowsOnError CachedMessage.applyPollReplacements
  dsimp only
  cases (sortByKey OriginalEvent.originServerTs
      (cached.pollReplacementEvents.values o)).getLast? with
  | none => exact iff_of_true (fun _ _ h => by cases h) (fun _ h => by cases h)
  | some edit =>
    simp only [Option.some.injEq, ← keepsOnError_iff]
    constructor
    · rintro h _ rfl e he
      exact h edit e rfl he
    · rintro h _ e rfl he
      exact h edit rfl e he

theorem sendsOnError_iff (roomId : String) (loaded : Option (TimelineEvent × List TimelineEvent))
    (content : ReplacementUnstablePollStartEventContent) :
    SendsOnError roomId loaded content ↔
      ∀ start relations original new, loaded = some (start, relations) →
        assemblePoll start relations = .ok original → content.pollStart = some new →
        IsKnown new.kind ∨ HasBlock original new := by
  have hexec : ∀ start relations original new, loaded = some (start, relations) →
      assemblePoll start relations = .ok original → content.pollStart = some new →
      (execReplacementUnstablePollStartEvent roomId loaded content
          = some (pollChange roomId content.relatesTo original) ↔
        (replaceContent original new).2 = original) := by
    rintro start relations original new rfl horiginal hnew
    unfold execReplacementUnstablePollStartEvent pollChange
    dsimp only
    rw [horiginal, hnew]
    simp
  unfold SendsOnError
  refine forall₄_congr fun start relations original new => ?_
  simp only [← keepsOnError_iff]
  constructor
  · intro h hloaded horiginal hnew e he
    exact (hexec start relations original new hloaded horiginal hnew).mp
      (h e hloaded horiginal hnew he)
  · intro h e hloaded horiginal hnew he
    exact (hexec start relations original new hloaded horiginal hnew).mpr
      (h hloaded horiginal hnew e he)

/-- When an edit that fails changes nothing: in `replace_content`, in the cache, and in what is
    sent. -/
theorem unchanged_on_error_iff (old : MessageContentPoll) (new : UnstablePollStartContentBlock)
    (o : IterationOrder) (cached : CachedMessage) (roomId : String)
    (loaded : Option (TimelineEvent × List TimelineEvent))
    (content : ReplacementUnstablePollStartEventContent) :
    (KeepsOnError old new ↔ IsKnown new.kind ∨ HasBlock old new) ∧
    (ShowsOnError o cached old ↔
      ∀ edit, (sortByKey OriginalEvent.originServerTs
          (cached.pollReplacementEvents.values o)).getLast? = some edit →
        IsKnown edit.content.pollStart.kind ∨ HasBlock old edit.content.pollStart) ∧
    (SendsOnError roomId loaded content ↔
      ∀ start relations original new, loaded = some (start, relations) →
        assemblePoll start relations = .ok original → content.pollStart = some new →
        IsKnown new.kind ∨ HasBlock original new) :=
  ⟨keepsOnError_iff old new, showsOnError_iff o cached old, sendsOnError_iff roomId loaded content⟩

/-- The question of a quiz, a kind that is not known. -/
def quiz : UnstablePollStartContentBlock :=
  ⟨"Capital of France?", .custom "m.quiz", 1, [⟨"p", "Paris"⟩]⟩

/-- Lunch with Bob's vote. -/
def votedLunch : MessageContentPoll :=
  ⟨.disclosed, false, 1, "Lunch?", [⟨"y", "yes", ["@bob"]⟩, ⟨"n", "no", []⟩]⟩

/-- Alice's edit of the poll to the quiz. -/
def quizEdit : OriginalEvent UnstablePollStartEventContent :=
  ⟨"$quiz", "@alice", 50, "!room", .replacement "$poll" quiz⟩

/-- The kind fails, and the poll has lost its question, its options and the vote: what
    `replace_content` leaves, what the cache shows, and what is sent. -/
theorem quiz_empties_poll :
    ¬ KeepsOnError votedLunch quiz ∧
    ¬ ShowsOnError .entries { CachedMessage.default with
      pollReplacementEvents := (∅ : HashMap _).insert "$quiz" quizEdit } votedLunch ∧
    ¬ SendsOnError "!room" (some (lunch.event, [(yes 40).event "$poll"])) ⟨"$poll", some quiz⟩ := by
  have hne : (replaceContent votedLunch quiz).2 ≠ votedLunch := by decide
  have herror : (replaceContent votedLunch quiz).1 = .error .invalidPollType := rfl
  refine ⟨fun h => hne (h _ herror), fun h => ?_, fun h => ?_⟩
  · exact hne (h quizEdit _ rfl herror)
  · have hassembled : assemblePoll lunch.event [(yes 40).event "$poll"] = .ok votedLunch := by
      decide +kernel
    have hsent := h _ _ votedLunch quiz _ rfl hassembled rfl herror
    unfold execReplacementUnstablePollStartEvent at hsent
    dsimp only at hsent
    rw [hassembled] at hsent
    exact hne (Content.poll.inj (Option.some.inj
      (congrArg MessageChangeEvent.content (Option.some.inj hsent))))

/-! ## Responses and edits -/

/-- A response, with the key by which `assemble_poll` sorts. -/
structure PollResponse where
  timestamp : Nat
  sender : String
  answers : List String
deriving DecidableEq

def pollResponse (relation : TimelineEvent) : Option PollResponse :=
  match pollRelation relation with
  | some (sender, .response answers) => some ⟨timestampKey relation, sender, answers⟩
  | _ => none

/-- The event that is handled. -/
def liveResponse (event : OriginalEvent UnstablePollResponseEventContent) : PollResponse :=
  ⟨event.originServerTs + 1, event.sender, event.content.answers⟩

def isEdit (relation : TimelineEvent) : Bool :=
  match pollRelation relation with
  | some (_, .edit _) => true
  | _ => false

/-- The relations after the newest edit. -/
def sinceEdit (relations : List TimelineEvent) : List TimelineEvent :=
  (sortByKey timestampKey relations).rtakeWhile fun relation => !isEdit relation

/-- The block of the newest edit, or the one of the start. -/
def blockInForce (block : UnstablePollStartContentBlock) (relations : List TimelineEvent) :
    UnstablePollStartContentBlock :=
  ((sortByKey timestampKey relations).foldl InForce.apply (block, [])).1

/-! ## Newest votes -/

/-- A newest response of the user. -/
def NewestOf (responses : List PollResponse) (userId : String) (response : PollResponse) : Prop :=
  Newest PollResponse.timestamp (fun r => r ∈ responses ∧ r.sender = userId) response

/-- The options of the block that count for the answers. -/
def Chooses (block : UnstablePollStartContentBlock) (answers : List String) (i : Nat) : Prop :=
  Selects (block.answers.map UnstablePollAnswer.id) (answers.take (toU32 block.maxSelections)) i

/-- The user's vote in the poll is that of a newest response, or there is neither. -/
def HasNewestVote (poll : MessageContentPoll) (responses : List PollResponse) (userId : String) :
    Prop :=
  (∀ response ∈ responses, response.sender ≠ userId) ∧ (∀ i, ¬ Voted poll.options userId i) ∨
    ∃ response, NewestOf responses userId response ∧
      ∀ i, Voted poll.options userId i ↔
        Selects (poll.options.map PollOption.id) (response.answers.take poll.maxSelections) i

/-- What is sent is a poll in which every user has the newest vote. -/
def SendsNewestVotes (roomId : String) (loaded : Option (TimelineEvent × List TimelineEvent))
    (event : OriginalEvent UnstablePollResponseEventContent) : Prop :=
  ∀ change, execUnstablePollResponseEvent roomId loaded event = some change →
    ∀ start relations, loaded = some (start, relations) →
      ∃ poll, change.content = some (.poll poll) ∧
        ∀ userId, HasNewestVote poll
          (relations.filterMap pollResponse ++ [liveResponse event]) userId

/-- The event is as good as a newest response of its sender, and the newest edit drops no vote of
    another user. -/
structure NewestVotesKept (block : UnstablePollStartContentBlock) (relations : List TimelineEvent)
    (event : OriginalEvent UnstablePollResponseEventContent) : Prop where
  sender : ∃ response,
    NewestOf (relations.filterMap pollResponse ++ [liveResponse event]) event.sender response ∧
      ∀ i, Chooses (blockInForce block relations) event.content.answers i ↔
        Chooses (blockInForce block relations) response.answers i
  others : ∀ userId, userId ≠ event.sender →
    (∃ response ∈ relations.filterMap pollResponse, response.sender = userId) →
    (∀ response ∈ (sinceEdit relations).filterMap pollResponse, response.sender ≠ userId) →
    ∃ response, NewestOf (relations.filterMap pollResponse) userId response ∧
      ∀ i, ¬ Chooses (blockInForce block relations) response.answers i

/-! ## The responses that count -/

/-- What `assemble_poll` counts is the responses after the newest edit. -/
theorem foldl_apply_responses (block : UnstablePollStartContentBlock)
    (relations : List TimelineEvent) :
    (relations.foldl InForce.apply (block, [])).2
      = ((relations.rtakeWhile fun relation => !isEdit relation).filterMap pollResponse).map
          fun response => (response.sender, response.answers) := by
  induction relations using List.reverseRecOn with
  | nil => rfl
  | append_singleton relations relation ih =>
    rw [List.foldl_concat, List.rtakeWhile_concat]
    cases hrelation : pollRelation relation with
    | none =>
      have hedit : isEdit relation = false := by simp [isEdit, hrelation]
      simpa [InForce.apply, pollResponse, hrelation, hedit] using ih
    | some found =>
      obtain ⟨sender, body⟩ := found
      cases body with
      | edit block' =>
        have hedit : isEdit relation = true := by simp [isEdit, hrelation]
        simp [InForce.apply, hrelation, hedit]
      | response answers =>
        have hedit : isEdit relation = false := by simp [isEdit, hrelation]
        simpa [InForce.apply, pollResponse, hrelation, hedit] using ih
      | ended =>
        have hedit : isEdit relation = false := by simp [isEdit, hrelation]
        simpa [InForce.apply, pollResponse, hrelation, hedit] using ih

theorem timestamp_pollResponse {relation : TimelineEvent} {response : PollResponse}
    (h : pollResponse relation = some response) : response.timestamp = timestampKey relation := by
  unfold pollResponse at h
  split at h
  · obtain rfl := Option.some.inj h
    rfl
  · cases h

theorem pairwise_responses (relations : List TimelineEvent) :
    ((sortByKey timestampKey relations).filterMap pollResponse).Pairwise
      fun a b => a.timestamp ≤ b.timestamp := by
  refine (sortByKey_pairwise timestampKey relations).filterMap _ ?_
  intro relation relation' hle response hresponse response' hresponse'
  rw [timestamp_pollResponse hresponse, timestamp_pollResponse hresponse']
  exact hle

theorem mem_filterMap_sortByKey (relations : List TimelineEvent) (response : PollResponse) :
    response ∈ (sortByKey timestampKey relations).filterMap pollResponse ↔
      response ∈ relations.filterMap pollResponse :=
  ((sortByKey_perm timestampKey relations).filterMap pollResponse).mem_iff

/-- The last response since the newest edit is a newest one of all. -/
theorem newestOf_of_lastAnswers {relations : List TimelineEvent} {userId : String}
    {answers : List String}
    (h : lastAnswers (((sinceEdit relations).filterMap pollResponse).map
      fun response => (response.sender, response.answers)) userId = some answers) :
    ∃ response, NewestOf (relations.filterMap pollResponse) userId response ∧
      response.answers = answers := by
  have hall : lastAnswers (((sortByKey timestampKey relations).filterMap pollResponse).map
      fun response => (response.sender, response.answers)) userId = some answers := by
    rw [← List.rdropWhile_append_rtakeWhile (p := fun relation => !isEdit relation)
      (l := sortByKey timestampKey relations), List.filterMap_append, List.map_append,
      lastAnswers_append]
    unfold sinceEdit at h
    rw [h]
    rfl
  obtain ⟨response, hmem, hsender, hanswers, hnewest⟩ :=
    lastAnswers_of_sorted (pairwise_responses relations) hall
  refine ⟨response, ⟨⟨(mem_filterMap_sortByKey relations response).mp hmem, hsender⟩, ?_⟩, hanswers⟩
  rintro other ⟨hother, hothersender⟩
  exact hnewest other ((mem_filterMap_sortByKey relations other).mpr hother) hothersender

/-! ## The poll that is sent -/

/-- What `assemble_poll` makes of a start of a known kind without edits to unknown kinds. -/
theorem assemblePoll_cases {start : TimelineEvent} {content : UnstablePollStartEventContent}
    (hcontent : deserializePollStartContent start = .ok content) {type : PollType}
    (htype : tryIntoChat content.pollStart.kind = .ok type) (relations : List TimelineEvent) :
    (∃ relation ∈ relations, IsUnknown relation) ∧
        (∃ e, assemblePoll start relations = .error e) ∨
      (∀ relation ∈ relations, ¬ IsUnknown relation) ∧ ∃ type' completed,
        assemblePoll start relations
          = .ok (InForce.poll ((sortByKey timestampKey relations).foldl InForce.apply
              (content.pollStart, [])) type' completed) := by
  have hstart : assemblePoll start relations
      = (sortByKey timestampKey relations).foldlM applyRelation
          (InForce.poll (content.pollStart, []) type false) := by
    unfold assemblePoll
    rw [hcontent]
    show (assemblePollStart content.pollStart).bind _ = _
    rw [assemblePollStart_eq htype]
    rfl
  rw [hstart]
  rcases foldlM_applyRelation_cases (content.pollStart, []) type false
      (sortByKey timestampKey relations) with
    ⟨⟨relation, hmem, hunknown⟩, hfails⟩ | ⟨hknown, type', hrun⟩
  · exact .inl ⟨⟨relation, mem_sortByKey.mp hmem, hunknown⟩, hfails⟩
  · exact .inr ⟨fun relation hmem => hknown relation (mem_sortByKey.mpr hmem), type', _, hrun⟩

/-- The responses that count, with the event on top. -/
def withLive (block : UnstablePollStartContentBlock) (relations : List TimelineEvent)
    (event : OriginalEvent UnstablePollResponseEventContent) : InForce :=
  (blockInForce block relations,
    ((sinceEdit relations).filterMap pollResponse ++ [liveResponse event]).map
      fun response => (response.sender, response.answers))

theorem addAnswer_inForce (block : UnstablePollStartContentBlock) (relations : List TimelineEvent)
    (event : OriginalEvent UnstablePollResponseEventContent) (type : PollType) (completed : Bool) :
    addAnswer (InForce.poll ((sortByKey timestampKey relations).foldl InForce.apply (block, []))
        type completed) event.sender event.content.answers
      = (withLive block relations event).poll type completed := by
  have hresponses : (withLive block relations event).2
      = ((sortByKey timestampKey relations).foldl InForce.apply (block, [])).2
        ++ [(event.sender, event.content.answers)] := by
    rw [foldl_apply_responses]
    simp [withLive, sinceEdit, liveResponse]
  unfold InForce.poll
  rw [hresponses, addAnswers_concat]
  rfl

/-- The vote that the user has in the end. -/
theorem voted_withLive (block : UnstablePollStartContentBlock) (relations : List TimelineEvent)
    (event : OriginalEvent UnstablePollResponseEventContent) (type : PollType) (completed : Bool)
    (userId : String) (i : Nat) :
    Voted ((withLive block relations event).poll type completed).options userId i ↔
      if userId = event.sender then Chooses (blockInForce block relations) event.content.answers i
      else ∃ answers, lastAnswers (((sinceEdit relations).filterMap pollResponse).map
          fun response => (response.sender, response.answers)) userId = some answers ∧
        Chooses (blockInForce block relations) answers i := by
  rw [voted_poll]
  unfold InForce.Counts withLive Chooses
  rw [List.map_append, List.map_singleton, lastAnswers_concat]
  by_cases h : userId = event.sender
  · rw [if_pos h, if_pos (show (liveResponse event).sender = userId from h.symm)]
    simp [liveResponse]
  · rw [if_neg h, if_neg (show (liveResponse event).sender ≠ userId from Ne.symm h)]

/-- `HasNewestVote` in the poll in force. -/
theorem hasNewestVote_poll (inForce : InForce) (type : PollType) (completed : Bool)
    (responses : List PollResponse) (userId : String) :
    HasNewestVote (inForce.poll type completed) responses userId ↔
      (∀ response ∈ responses, response.sender ≠ userId) ∧
          (∀ i, ¬ Voted (inForce.poll type completed).options userId i) ∨
        ∃ response, NewestOf responses userId response ∧
          ∀ i, Voted (inForce.poll type completed).options userId i ↔
            Chooses inForce.1 response.answers i := by
  have hlabels := congrArg (List.map Prod.fst) (poll_labels inForce type completed)
  have hids : (inForce.poll type completed).options.map PollOption.id
      = inForce.1.answers.map UnstablePollAnswer.id := by
    simpa [List.map_map, Function.comp_def] using hlabels
  have hmax : (inForce.poll type completed).maxSelections = toU32 inForce.1.maxSelections :=
    (addAnswers_sameButVoters (pollOf inForce.1 type) inForce.2).maxSelections
  unfold HasNewestVote Chooses
  rw [hids, hmax]

/-! ## When every vote is the newest -/

section Kept

variable (block : UnstablePollStartContentBlock) (relations : List TimelineEvent)
  (event : OriginalEvent UnstablePollResponseEventContent)

/-- The event is no response of another user. -/
theorem newestOf_other {userId : String} (h : userId ≠ event.sender) (response : PollResponse) :
    NewestOf (relations.filterMap pollResponse ++ [liveResponse event]) userId response ↔
      NewestOf (relations.filterMap pollResponse) userId response := by
  have hmem : ∀ r : PollResponse,
      (r ∈ relations.filterMap pollResponse ++ [liveResponse event] ∧ r.sender = userId) ↔
        (r ∈ relations.filterMap pollResponse ∧ r.sender = userId) := by
    intro r
    rw [List.mem_append, List.mem_singleton, or_and_right]
    refine or_iff_left ?_
    rintro ⟨rfl, hsender⟩
    exact h hsender.symm
  unfold NewestOf Newest
  simp only [hmem]

theorem hasNewestVote_sender (type : PollType) (completed : Bool) :
    HasNewestVote ((withLive block relations event).poll type completed)
        (relations.filterMap pollResponse ++ [liveResponse event]) event.sender ↔
      ∃ response, NewestOf (relations.filterMap pollResponse ++ [liveResponse event]) event.sender
          response ∧
        ∀ i, Chooses (blockInForce block relations) event.content.answers i ↔
          Chooses (blockInForce block relations) response.answers i := by
  have hlive : ¬ ∀ response ∈ relations.filterMap pollResponse ++ [liveResponse event],
      response.sender ≠ event.sender :=
    fun h => h (liveResponse event) (by simp) rfl
  rw [hasNewestVote_poll, or_iff_right fun h => hlive h.1]
  simp only [voted_withLive, if_true]
  rfl

theorem hasNewestVote_other (type : PollType) (completed : Bool) {userId : String}
    (h : userId ≠ event.sender) :
    HasNewestVote ((withLive block relations event).poll type completed)
        (relations.filterMap pollResponse ++ [liveResponse event]) userId ↔
      ((∃ response ∈ relations.filterMap pollResponse, response.sender = userId) →
        (∀ response ∈ (sinceEdit relations).filterMap pollResponse, response.sender ≠ userId) →
        ∃ response, NewestOf (relations.filterMap pollResponse) userId response ∧
          ∀ i, ¬ Chooses (blockInForce block relations) response.answers i) := by
  have hsilent : (∀ response ∈ relations.filterMap pollResponse ++ [liveResponse event],
      response.sender ≠ userId) ↔
        ¬ ∃ response ∈ relations.filterMap pollResponse, response.sender = userId := by
    have hlive : (liveResponse event).sender ≠ userId := Ne.symm h
    simp [or_imp, forall_and, hlive]
  rw [hasNewestVote_poll, hsilent]
  simp only [voted_withLive, if_neg h, newestOf_other relations event h]
  cases hlast : lastAnswers (((sinceEdit relations).filterMap pollResponse).map
      fun response => (response.sender, response.answers)) userId with
  | none =>
    have hnone := lastAnswers_eq_none.mp hlast
    simp only [reduceCtorEq, false_and, exists_false, not_false_eq_true, implies_true, and_true,
      false_iff]
    constructor
    · rintro (hno | hvote) hsome -
      · exact absurd hsome hno
      · exact hvote
    · intro hvote
      by_cases hsome : ∃ response ∈ relations.filterMap pollResponse, response.sender = userId
      · exact .inr (hvote hsome hnone)
      · exact .inl hsome
  | some answers =>
    -- the vote that counts is that of a newest response
    obtain ⟨response, hnewest, rfl⟩ := newestOf_of_lastAnswers hlast
    refine iff_of_true (.inr ⟨response, hnewest, fun i => ?_⟩) fun _ hnone => ?_
    · simp [withLive]
    · rw [lastAnswers_eq_none.mpr hnone] at hlast
      cases hlast

theorem hasNewestVote_iff (type : PollType) (completed : Bool) :
    (∀ userId, HasNewestVote ((withLive block relations event).poll type completed)
        (relations.filterMap pollResponse ++ [liveResponse event]) userId) ↔
      NewestVotesKept block relations event := by
  constructor
  · intro h
    exact ⟨(hasNewestVote_sender block relations event type completed).mp (h event.sender),
      fun userId hne => (hasNewestVote_other block relations event type completed hne).mp
        (h userId)⟩
  · rintro ⟨hsender, hothers⟩ userId
    by_cases hne : userId = event.sender
    · rw [hne]
      exact (hasNewestVote_sender block relations event type completed).mpr hsender
    · exact (hasNewestVote_other block relations event type completed hne).mpr (hothers userId hne)

end Kept

/-- The change that is sent for a poll that can be assembled. -/
theorem exec_of_known (roomId : String) {start : TimelineEvent} {relations : List TimelineEvent}
    {content : UnstablePollStartEventContent}
    (hcontent : deserializePollStartContent start = .ok content)
    (htype : IsKnown content.pollStart.kind)
    (hknown : ∀ relation ∈ relations, ¬ IsUnknown relation)
    (event : OriginalEvent UnstablePollResponseEventContent) :
    ∃ type completed, execUnstablePollResponseEvent roomId (some (start, relations)) event
      = some (pollChange roomId event.content.relatesTo
          ((withLive content.pollStart relations event).poll type completed)) := by
  obtain ⟨type, htype⟩ := htype
  rcases assemblePoll_cases hcontent htype relations with
    ⟨⟨relation, hmem, hunknown⟩, -⟩ | ⟨-, type', completed, hpoll⟩
  · exact absurd hunknown (hknown relation hmem)
  · refine ⟨type', completed, ?_⟩
    unfold execUnstablePollResponseEvent
    dsimp only
    rw [hpoll]
    dsimp only
    rw [addAnswer_inForce]

/-- A change is only sent for such a poll. -/
theorem known_of_exec {roomId : String} {start : TimelineEvent} {relations : List TimelineEvent}
    {event : OriginalEvent UnstablePollResponseEventContent} {change : MessageChangeEvent}
    (h : execUnstablePollResponseEvent roomId (some (start, relations)) event = some change) :
    ∃ content, deserializePollStartContent start = .ok content ∧
      IsKnown content.pollStart.kind ∧
      ∀ relation ∈ relations, ¬ IsUnknown relation := by
  have hassembled : ∃ poll, assemblePoll start relations = .ok poll := by
    unfold execUnstablePollResponseEvent at h
    dsimp only at h
    cases hassemble : assemblePoll start relations with
    | ok poll => exact ⟨poll, rfl⟩
    | error e =>
      rw [hassemble] at h
      cases h
  obtain ⟨poll, hpoll⟩ := hassembled
  cases hcontent : deserializePollStartContent start with
  | error e =>
    unfold assemblePoll at hpoll
    rw [hcontent] at hpoll
    cases hpoll
  | ok content =>
    refine ⟨content, rfl, ?_⟩
    cases htype : tryIntoChat content.pollStart.kind with
    | error e =>
      unfold assemblePoll assemblePollStart at hpoll
      rw [hcontent] at hpoll
      simp only [bind, Except.bind, htype] at hpoll
      cases hpoll
    | ok type =>
      refine ⟨⟨type, htype⟩, ?_⟩
      rcases assemblePoll_cases hcontent htype relations with ⟨-, e, hfails⟩ | ⟨hknown, -⟩
      · rw [hpoll] at hfails
        cases hfails
      · exact hknown

/-- When every user has the newest vote in the poll that is sent, if one is sent. -/
theorem newest_votes_iff (roomId : String) (loaded : Option (TimelineEvent × List TimelineEvent))
    (event : OriginalEvent UnstablePollResponseEventContent) :
    SendsNewestVotes roomId loaded event ↔
      ∀ start relations content, loaded = some (start, relations) →
        deserializePollStartContent start = .ok content →
        IsKnown content.pollStart.kind →
        (∀ relation ∈ relations, ¬ IsUnknown relation) →
        NewestVotesKept content.pollStart relations event := by
  constructor
  · rintro h start relations content rfl hcontent htype hknown
    obtain ⟨type, completed, hexec⟩ := exec_of_known roomId hcontent htype hknown event
    obtain ⟨poll, hsent, hvotes⟩ := h _ hexec start relations rfl
    obtain rfl := Content.poll.inj (Option.some.inj hsent)
    exact (hasNewestVote_iff content.pollStart relations event type completed).mp hvotes
  · rintro h change hchange start relations rfl
    obtain ⟨content, hcontent, htype, hknown⟩ := known_of_exec hchange
    obtain ⟨type, completed, hexec⟩ := exec_of_known roomId hcontent htype hknown event
    obtain rfl := Option.some.inj (hchange.symm.trans hexec)
    exact ⟨_, rfl, (hasNewestVote_iff content.pollStart relations event type completed).mpr
      (h start relations content rfl hcontent htype hknown)⟩

/-! ## A delayed response -/

/-- Bob has said no before he said yes. -/
def delayedNo : OriginalEvent UnstablePollResponseEventContent :=
  ⟨"$no", "@bob", 30, "!room", "$poll", ["n"]⟩

/-- The newer response is in the store already, and the poll that is sent has Bob's vote for no. -/
theorem delayed_response_wins :
    ¬ SendsNewestVotes "!room" (some (lunch.event, [(yes 40).event "$poll"])) delayedNo := by
  intro h
  have hexec : execUnstablePollResponseEvent "!room"
      (some (lunch.event, [(yes 40).event "$poll"])) delayedNo
        = some (pollChange "!room" "$poll"
            ⟨.disclosed, false, 1, "Lunch?", [⟨"y", "yes", []⟩, ⟨"n", "no", ["@bob"]⟩]⟩) := by
    decide +kernel
  have hresponses : [(yes 40).event "$poll"].filterMap pollResponse ++ [liveResponse delayedNo]
      = [⟨41, "@bob", ["y"]⟩, ⟨31, "@bob", ["n"]⟩] := by
    decide +kernel
  obtain ⟨poll, hsent, hvotes⟩ := h _ hexec _ _ rfl
  obtain rfl := Content.poll.inj (Option.some.inj hsent)
  rw [hresponses] at hvotes
  rcases hvotes "@bob" with ⟨hnone, -⟩ | ⟨response, ⟨⟨hmem, -⟩, hnewest⟩, hvote⟩
  · exact hnone ⟨41, "@bob", ["y"]⟩ (by simp) rfl
  · have hyes : response = ⟨41, "@bob", ["y"]⟩ := by
      rcases List.mem_pair.mp hmem with rfl | rfl
      · rfl
      · exact absurd (hnewest ⟨41, "@bob", ["y"]⟩ ⟨by simp, rfl⟩) (by decide)
    subst hyes
    have hvoted : Voted [⟨"y", "yes", []⟩, ⟨"n", "no", ["@bob"]⟩] "@bob" 0 :=
      (hvote 0).mpr ⟨"y", by simp, by decide⟩
    simp at hvoted

end GoudaMatrix.Polls
