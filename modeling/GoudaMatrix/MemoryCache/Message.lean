/-
  `CachedMessage` (`memory_cache.rs`): what is cached about one message, and the message that is
  built from its original and the cached relations. The iteration order of the hash maps is a
  parameter of everything that is built.
-/
import GoudaMatrix.Polls.Assemble

namespace GoudaMatrix.MemoryCache

open GoudaMatrix.Lib GoudaMatrix.Ruma GoudaMatrix.Polls

structure CachedReplacement where
  timestamp : Nat
  newContent : Content
deriving DecidableEq, Repr

structure CachedReaction where
  userId : String
  emoji : String
deriving DecidableEq, Repr

structure CachedMessage where
  original : Option Message
  reactions : HashMap CachedReaction
  replacements : HashMap CachedReplacement
  redaction : Option (OriginalEvent RoomRedactionEventContent)
  pollReplacementEvents : HashMap (OriginalEvent UnstablePollStartEventContent)
  pollResponseEvents : HashMap (OriginalEvent UnstablePollResponseEventContent)
  pollEndEvents : HashMap (OriginalEvent UnstablePollEndEventContent)
deriving DecidableEq

/-- `CachedMessage::default`. -/
def CachedMessage.default : CachedMessage := ⟨none, ∅, ∅, none, ∅, ∅, ∅⟩

namespace CachedMessage

variable (o : IterationOrder) (cached : CachedMessage)

def applyReactions (msg : Message) : Message :=
  { msg with reactions := msg.reactions ++ (cached.reactions.values o).map fun reaction =>
      { messageId := msg.messageId
        roomId := msg.roomId
        reaction := reaction.emoji
        userId := some reaction.userId } }

def applyReplacements (msg : Message) : Message :=
  match (sortByKey CachedReplacement.timestamp (cached.replacements.values o)).getLast? with
  | some replacement => { msg with content := some replacement.newContent, edited := true }
  | none => msg

/-- An error of `replace_content` is logged; the content stays as it has been changed. -/
def applyPollReplacements (content : MessageContentPoll) : MessageContentPoll :=
  let replacements := sortByKey OriginalEvent.originServerTs
    (cached.pollReplacementEvents.values o)
  match replacements.getLast? with
  | some replacement => (replaceContent content replacement.content.pollStart).2
  | none => content

def applyPollResponses (content : MessageContentPoll) : MessageContentPoll :=
  let responses := sortByKey OriginalEvent.originServerTs (cached.pollResponseEvents.values o)
  responses.foldl (fun content event => addAnswer content event.sender event.content.answers)
    content

def applyPollEnds (content : MessageContentPoll) : MessageContentPoll :=
  if cached.pollEndEvents.entries.isEmpty then content else { content with completed := true }

def buildOther (original : Message) : Message :=
  cached.applyReplacements o (cached.applyReactions o original)

def buildRemoved (original : Message) (content : Option String) : Message :=
  match cached.redaction with
  | some redaction => { original with content := some (.removed redaction.content.reason) }
  | none => { original with content := some (.removed content) }

def buildPoll (original : Message) (content : MessageContentPoll) : Message :=
  let content := cached.applyPollReplacements o content
  let content := cached.applyPollResponses o content
  let content := cached.applyPollEnds content
  cached.applyReactions o { original with content := some (.poll content) }

/-- The built message, and the cached message with its original. -/
def buildFromOriginal (original : Message) : Message × CachedMessage :=
  (match original.content with
    | some (.removed reason) => cached.buildRemoved original reason
    | some (.poll content) => cached.buildPoll o original content
    | _ => cached.buildOther o original,
   { cached with original := some original })

end CachedMessage

end GoudaMatrix.MemoryCache
