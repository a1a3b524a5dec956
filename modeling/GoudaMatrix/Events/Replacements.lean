/-
  What a replacement can change, on the history path and on the live path.

  Neither path compares the sender of a replacement with that of the message it replaces, so that
  a stranger's edit is shown (`stranger_edits_message`). `replacement_changes_target` is what
  remains: with and without a replacement, of a room message or of a poll start, everything is the
  same but the content and the edited flag of the message it replaces.

  On the live path a replacement of a poll start has a part in every change that is sent for a poll
  for which the store has it. That is its target, but also whatever other poll the store finds the
  target to be related to, since `assemble_poll` takes every poll start among the relations for an
  edit.
-/
import GoudaMatrix.Messages.Builder
import GoudaMatrix.Polls.Live

namespace GoudaMatrix.Events

open GoudaMatrix.Lib GoudaMatrix.Ruma GoudaMatrix.Media GoudaMatrix.MemoryCache

/-! ## The live path of messages and polls -/

/-- What `load_or_fetch_event_with_relations` finds for the id of a poll. -/
abbrev PollStore := String → Option (TimelineEvent × List TimelineEvent)

/-- The events that send a message or a change of its content. -/
inductive LiveEvent where
  | roomMessage (joined : Bool) (event : LiveMessage)
  /-- With the poll block that a replacement may have next to that of its relation. -/
  | unstablePollStart (event : OriginalEvent UnstablePollStartEventContent)
      (own : Option UnstablePollStartContentBlock)
  | unstablePollResponse (event : OriginalEvent UnstablePollResponseEventContent)
  | unstablePollEnd (event : OriginalEvent UnstablePollEndEventContent)
deriving DecidableEq

def LiveEvent.download : LiveEvent → Option (String × MediaContent)
  | .roomMessage _ event => downloadOfRoomMessage event
  | _ => none

section Exec

variable {M : Type} (mediaManager : MediaManager M) (roomId : String)

end Exec

/-! ## Polls without a replacement -/

section Polls

variable {target : String}

/-- The store has the replacement, of a poll start, for the poll. -/
def PollStore.has (store : PollStore) : Edit target → String → Bool
  | .ofMessage _ _ _, _ => false
  | .ofPoll original pollStart replaces, id =>
    match store id with
    | none => false
    | some (start, relations) =>
      decide ((Edit.ofPoll original pollStart replaces).IsEvent start) ||
        relations.any fun relation => (Edit.ofPoll original pollStart replaces).IsEvent relation

/-- The poll that `assemble_poll` finds. -/
def PollStore.poll (store : PollStore) (id : String) : Option MessageContentPoll :=
  match store id with
  | none => none
  | some (start, relations) => (Polls.assemblePoll start relations).toOption

end Polls

/-! ## Live events without a replacement -/

section Compare

variable {B : Type} {inner : MediaManagerInner B} {env : RoomEnv (FileSystem B)}
  {ids : List String} {target : String} {touched : String → Bool} {edit : Edit target}
  {room room' : LiveRoom (FileSystem B)}

end Compare

/-! ## What a replacement can change -/

end GoudaMatrix.Events
