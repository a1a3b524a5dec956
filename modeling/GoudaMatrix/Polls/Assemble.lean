/-
  `polls.rs`: a poll as it is assembled from the relations in the store. The relations are
  applied in the order of their timestamps; an edit replaces the options, and with them the
  votes so far.
-/
import GoudaMatrix.Chat
import GoudaMatrix.Lib.FirstMatch
import GoudaMatrix.Lib.HashMap
import GoudaMatrix.Ruma.Event

namespace GoudaMatrix.Polls

open GoudaMatrix.Lib GoudaMatrix.Ruma

/-- The errors of `error.rs` that concern polls. -/
inductive Error where
  | invalidPollType
  | internal (message : String)
deriving DecidableEq, Repr

/-- `PollKind::try_into_chat`. -/
def tryIntoChat : PollKind → Except Error PollType
  | .disclosed => .ok .disclosed
  | .undisclosed => .ok .undisclosed
  | .custom _ => .error .invalidPollType

/-- `UnstablePollAnswer::into_chat`. -/
def intoChat (answer : UnstablePollAnswer) : PollOption := ⟨answer.id, answer.text, []⟩

/-- `try_into().unwrap_or(u32::MAX)`. -/
def toU32 (n : Nat) : Nat := min n (UInt32.size - 1)

def assemblePollStart (content : UnstablePollStartContentBlock) :
    Except Error MessageContentPoll :=
  match tryIntoChat content.kind with
  | .error _ => .error .invalidPollType
  | .ok type => .ok
    { type := type
      completed := false
      maxSelections := toU32 content.maxSelections
      question := content.question
      options := content.answers.map intoChat }

/-- The poll afterwards, and whether there was an error; the kind is converted last. -/
def replaceContent (old : MessageContentPoll) (new : UnstablePollStartContentBlock) :
    Except Error Unit × MessageContentPoll :=
  let content := { old with
    maxSelections := toU32 new.maxSelections
    options := new.answers.map intoChat
    question := new.question }
  match tryIntoChat new.kind with
  | .error e => (.error e, content)
  | .ok type => (.ok (), { content with type })

def clearUserAnswers (options : List PollOption) (userId : String) : List PollOption :=
  options.map fun option =>
    { option with votedUserIds := option.votedUserIds.filter (· ≠ userId) }

/-- One selected answer: the first option with its id gets the vote, if there is one. -/
def addVote (userId : String) (options : List PollOption) (answer : String) : List PollOption :=
  (modifyFirst (fun option => option.id = answer) (fun option =>
    if userId ∈ option.votedUserIds then option
    else { option with votedUserIds := option.votedUserIds ++ [userId] }) options).getD options

def addAnswer (content : MessageContentPoll) (sender : String) (answers : List String) :
    MessageContentPoll :=
  { content with
    options := (answers.take content.maxSelections).foldl (addVote sender)
      (clearUserAnswers content.options sender) }

/-! ## Relations of the store -/

/-- `timeline_event_to_any_timeline_event`, followed by `any_timeline_event_to_message_like`. -/
def messageLike (event : TimelineEvent) : Except Error AnyMessageLikeEvent :=
  match event.kind with
  | .decrypted (.ok (.messageLike e)) | .plainText (.ok (.messageLike e)) => .ok e
  | .decrypted (.ok (.state _)) | .plainText (.ok (.state _)) =>
    .error (.internal "Event is not message like")
  | .decrypted (.malformed _) | .plainText (.malformed _) =>
    .error (.internal "Unable to deserialize event")
  | .unableToDecrypt _ _ => .error (.internal "Unable to decrypt event")

/-- The `as_original` of the three functions below. -/
def originalContent {C : Type} : MessageLikeEvent C → Except Error C
  | .original e => .ok e.content
  | .redacted _ => .error (.internal "Event with the given ID is redacted")

def deserializePollStartContent (event : TimelineEvent) :
    Except Error UnstablePollStartEventContent :=
  match messageLike event with
  | .ok (.unstablePollStart e) => originalContent e
  | .ok _ => .error (.internal "Event with the given ID is not a poll start event")
  | .error e => .error e

def deserializePollResponseContent (event : TimelineEvent) :
    Except Error UnstablePollResponseEventContent :=
  match messageLike event with
  | .ok (.unstablePollResponse e) => originalContent e
  | .ok _ => .error (.internal "Event with the given ID is not a poll start event")
  | .error e => .error e

def deserializePollEndContent (event : TimelineEvent) :
    Except Error UnstablePollEndEventContent :=
  match messageLike event with
  | .ok (.unstablePollEnd e) => originalContent e
  | .ok _ => .error (.internal "Event with the given ID is not a poll end event")
  | .error e => .error e

/-- An iteration of the loop of `assemble_poll`. -/
def applyRelation (content : MessageContentPoll) (relation : TimelineEvent) :
    Except Error MessageContentPoll :=
  match relation.sender with
  | none => .ok content
  | some sender =>
    match deserializePollStartContent relation with
    | .ok event =>
      match replaceContent content event.pollStart with
      | (.ok (), content) => .ok content
      | (.error e, _) => .error e
    | .error _ =>
      match deserializePollResponseContent relation with
      | .ok event => .ok (addAnswer content sender event.answers)
      | .error _ =>
        match deserializePollEndContent relation with
        | .ok _ => .ok { content with completed := true }
        | .error _ => .ok content

/-- The sort key: an event without timestamp comes first. -/
def timestampKey (event : TimelineEvent) : Nat :=
  match event.timestamp with
  | none => 0
  | some ts => ts + 1

/-- `event` and `relations` are what the store, or the server, has for the poll. -/
def assemblePoll (event : TimelineEvent) (relations : List TimelineEvent) :
    Except Error MessageContentPoll := do
  let pollContent ← deserializePollStartContent event
  let content ← assemblePollStart pollContent.pollStart
  (sortByKey timestampKey relations).foldlM applyRelation content

end GoudaMatrix.Polls
