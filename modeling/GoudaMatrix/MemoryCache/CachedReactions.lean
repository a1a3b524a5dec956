/-
  The reactions in all cached rooms: what the live events (`events.rs`: `exec_reaction_event`,
  `exec_room_redaction_event`), a processed timeline event and a request to remove a reaction do to
  them.

  A reaction event caches its reaction and nothing else (`Caches.has_iff`), a redaction removes one
  (`execRoomRedactionEvent_cases`), and a request removes those of one user with one emoji
  (`has_removeReaction`).
-/
import GoudaMatrix.MemoryCache.Redactions
import GoudaMatrix.MemoryCache.RemoveReaction

namespace GoudaMatrix.MemoryCache

open GoudaMatrix.Lib GoudaMatrix.Ruma

/-! ## The handlers of the live events -/

section Live

variable {M : Type} (env : RoomEnv M) (media : M) (rooms : CachedRooms M) (roomId : String)

/-- The environment of one of the rooms. -/
def RoomEnv.at : RoomEnv M := { env with roomId := roomId }

/-- `get_or_create_room`. -/
def CachedRooms.getOrCreateRoom : CachedRoom M := (rooms.lookup roomId).getD (.new media)

/-- `MemoryCacheInner::cache_reaction`. -/
def CachedRooms.cacheReaction (event : OriginalEvent ReactionEventContent) : CachedRooms M :=
  rooms.insert roomId ((rooms.getOrCreateRoom media roomId).cacheReaction event.content.eventId
    event.eventId ⟨event.sender, event.content.key⟩)

/-- The `ReactionCreatedEvent`, and the rooms afterwards. -/
def execReactionEvent (event : OriginalEvent ReactionEventContent) : Reaction × CachedRooms M :=
  ({ roomId := roomId
     messageId := event.content.eventId
     reaction := event.content.key
     userId := some event.sender }, rooms.cacheReaction media roomId event)

/-- `exec_room_redaction_event`, of a room that may not be cached. -/
def CachedRooms.execRoomRedactionEvent (event : RedactionEvent) (loaded : Option TimelineEvent) :
    Option RedactionOutput × CachedRooms M :=
  match rooms.lookup roomId with
  | none =>
    ((MemoryCache.execRoomRedactionEvent (env.at roomId) (.new media) event loaded).1, rooms)
  | some room =>
    let (output, room) := MemoryCache.execRoomRedactionEvent (env.at roomId) room event loaded
    (output, rooms.insert roomId room)

end Live

/-! ## What is cached -/

/-- A reaction of a user to a message. -/
structure ReactionKey where
  roomId : String
  messageId : String
  reaction : CachedReaction
deriving DecidableEq, Repr

/-- Every reaction that is sent has its user. -/
def keyOf (reaction : Reaction) : ReactionKey :=
  ⟨reaction.roomId, reaction.messageId, ⟨reaction.userId.getD "", reaction.reaction⟩⟩

/-- The reaction as it is sent. -/
def ReactionKey.toReaction (k : ReactionKey) : Reaction where
  roomId := k.roomId
  messageId := k.messageId
  reaction := k.reaction.emoji
  userId := some k.reaction.userId

section Cached

variable {M : Type} {env : RoomEnv M} {media : M}

theorem reactionIn_eq (env : RoomEnv M) (event : TimelineEvent) (m : M) :
    reactionIn event = match (effectOf env event m).1 with
      | .reacted messageId reactionId reaction => some (reactionId, ⟨messageId, reaction⟩)
      | _ => none := by
  cases heffect : (effectOf env event m).1 with
  | reacted messageId reactionId reaction =>
    have hsource := effectOf_source env event m
    rw [heffect] at hsource
    obtain ⟨original, hread, rfl, rfl, rfl⟩ := hsource
    unfold reactionIn
    rw [hread]
  | ignored | failed | assembled | replaced | redacted | pollReplaced | pollAnswered | pollEnded
  | undecryptable =>
    unfold reactionIn
    split
    · next original hread =>
      rw [effectOf_of_readable env hread] at heffect
      cases heffect
    · rfl

/-- A reaction event caches its reaction, and no other event does anything to the reactions. -/
theorem reactions_processTimelineEvent (room : CachedRoom M) (event : TimelineEvent)
    (messageId reactionId : String) :
    ((room.processTimelineEvent env event).2.cachedAt messageId).reactions.lookup reactionId
      = ((reactionIn event).filter fun placed =>
          decide (messageId = placed.2.messageId ∧ reactionId = placed.1)).elim
        ((room.cachedAt messageId).reactions.lookup reactionId) fun placed =>
          some placed.2.reaction := by
  rw [CachedRoom.cachedAt_processTimelineEvent, reactionIn_eq env event room.media]
  cases (effectOf env event room.media).1 with
  | reacted message reaction cached =>
    dsimp only [Effect.on]
    rw [Option.filter_some]
    by_cases hmessage : messageId = message
    · rw [if_pos hmessage, HashMap.lookup_insert_cases]
      by_cases hreaction : reactionId = reaction
      · rw [if_pos hreaction, if_pos (decide_eq_true ⟨hmessage, hreaction⟩)]
        rfl
      · rw [if_neg hreaction, if_neg fun h => hreaction (of_decide_eq_true h).2]
        rfl
    · rw [if_neg hmessage, if_neg fun h => hmessage (of_decide_eq_true h).1]
      rfl
  | ignored | failed | undecryptable => rfl
  | assembled | replaced | redacted | pollReplaced | pollAnswered | pollEnded =>
    dsimp only [Effect.on]
    split <;> rfl

namespace CachedRooms

variable {rooms rooms' : CachedRooms M} {k : ReactionKey}

/-- The reaction is cached, under some id. -/
def Has (rooms : CachedRooms M) (k : ReactionKey) : Prop :=
  ∃ reactionId, rooms.reaction k.roomId k.messageId reactionId = some k.reaction

/-- Everything that is cached is from the tables of the rooms. -/
def Placed (table : String → ReactionTable) (rooms : CachedRooms M) : Prop :=
  ∀ roomId messageId reactionId reaction,
    rooms.reaction roomId messageId reactionId = some reaction →
      table roomId reactionId = ⟨messageId, reaction⟩

theorem reaction_insertRoom (roomId : String) (room : CachedRoom M)
    (id messageId reactionId : String) :
    CachedRooms.reaction (rooms.insert roomId room) id messageId reactionId
      = if id = roomId then (room.cachedAt messageId).reactions.lookup reactionId
        else rooms.reaction id messageId reactionId := by
  unfold reaction
  rw [lookup_insert_room]
  split <;> rfl

theorem reactions_getOrCreateRoom (roomId messageId reactionId : String) :
    ((rooms.getOrCreateRoom media roomId).cachedAt messageId).reactions.lookup reactionId
      = rooms.reaction roomId messageId reactionId := by
  unfold getOrCreateRoom reaction
  cases rooms.lookup roomId with
  | none => rfl
  | some room => rfl

/-- Nothing is cached that was not. -/
theorem Placed.of_imp {table : String → ReactionTable} (h : rooms.Placed table)
    (himp : ∀ roomId messageId reactionId reaction,
      rooms'.reaction roomId messageId reactionId = some reaction →
        rooms.reaction roomId messageId reactionId = some reaction) : rooms'.Placed table :=
  fun _ _ _ _ hcached => h _ _ _ _ (himp _ _ _ _ hcached)

theorem has_congr
    (h : ∀ messageId reactionId,
      rooms'.reaction k.roomId messageId reactionId
        = rooms.reaction k.roomId messageId reactionId) :
    rooms'.Has k ↔ rooms.Has k := by
  unfold Has
  simp only [h]

/-! ### A reaction is cached -/

/-- The reaction is cached, and nothing else changes. -/
def Caches (rooms rooms' : CachedRooms M) (k : ReactionKey) (reactionId : String) : Prop :=
  ∀ roomId messageId id, rooms'.reaction roomId messageId id
    = if roomId = k.roomId ∧ messageId = k.messageId ∧ id = reactionId then some k.reaction
      else rooms.reaction roomId messageId id

section Caches

variable {table : String → ReactionTable} {reactionId : String} {cached : ReactionKey}

theorem Caches.placed (h : Caches rooms rooms' k reactionId) (hplaced : rooms.Placed table)
    (htable : table k.roomId reactionId = ⟨k.messageId, k.reaction⟩) : rooms'.Placed table := by
  intro roomId messageId id reaction hcached
  rw [h] at hcached
  split at hcached
  · next heq =>
    obtain ⟨rfl, rfl, rfl⟩ := heq
    obtain rfl := Option.some.inj hcached
    exact htable
  · exact hplaced _ _ _ _ hcached

/-- A reaction that is cached again is the same one. -/
theorem Caches.has_iff (h : Caches rooms rooms' cached reactionId) (hplaced : rooms.Placed table)
    (htable : table cached.roomId reactionId = ⟨cached.messageId, cached.reaction⟩) :
    rooms'.Has k ↔ rooms.Has k ∨ k = cached := by
  constructor
  · rintro ⟨id, hcached⟩
    rw [h] at hcached
    split at hcached
    · next heq =>
      obtain ⟨roomId, messageId, reaction⟩ := k
      obtain ⟨rfl, rfl, -⟩ := heq
      exact .inr (congrArg _ (Option.some.inj hcached).symm)
    · exact .inl ⟨id, hcached⟩
  · rintro (⟨id, hcached⟩ | rfl)
    · refine ⟨id, ?_⟩
      rw [h]
      split
      · next heq =>
        obtain ⟨hroomId, -, rfl⟩ := heq
        have hplace := hplaced _ _ _ _ hcached
        rw [hroomId, htable] at hplace
        exact congrArg some (PlacedReaction.mk.inj hplace).2
      · exact hcached
    · exact ⟨reactionId, by rw [h, if_pos ⟨rfl, rfl, rfl⟩]⟩

end Caches

theorem caches_cacheReaction (roomId : String) (event : OriginalEvent ReactionEventContent) :
    Caches rooms (rooms.cacheReaction media roomId event)
      ⟨roomId, event.content.eventId, ⟨event.sender, event.content.key⟩⟩ event.eventId := by
  intro id messageId reactionId
  unfold CachedRooms.cacheReaction
  rw [reaction_insertRoom, CachedRoom.cacheReaction_eq]
  split
  · next hid =>
    subst hid
    show ((CachedRoom.insertReaction _ _ _ _).cachedAt messageId).reactions.lookup reactionId = _
    rw [reactions_insertReaction]
    split
    · next hmessage =>
      subst hmessage
      rw [HashMap.lookup_insert_cases, reactions_getOrCreateRoom]
      simp only [true_and]
    · next hmessage =>
      rw [reactions_getOrCreateRoom, if_neg fun h => hmessage h.2.1]
  · next hid => rw [if_neg fun h => hid h.1]

/-- The rooms after an event has been processed. -/
def processed (env : RoomEnv M) (media : M) (rooms : CachedRooms M) (roomId : String)
    (event : TimelineEvent) : CachedRooms M :=
  rooms.insert roomId
    ((rooms.getOrCreateRoom media roomId).processTimelineEvent (env.at roomId) event).2

theorem reaction_processed (roomId : String) (event : TimelineEvent)
    (id messageId reactionId : String) :
    (rooms.processed env media roomId event).reaction id messageId reactionId
      = ((reactionIn event).filter fun placed =>
          decide (id = roomId ∧ messageId = placed.2.messageId ∧ reactionId = placed.1)).elim
        (rooms.reaction id messageId reactionId) fun placed => some placed.2.reaction := by
  unfold processed
  rw [reaction_insertRoom, reactions_processTimelineEvent, reactions_getOrCreateRoom]
  by_cases hid : id = roomId
  · subst hid
    simp only [if_true, true_and]
  · have hnone : (reactionIn event).filter (fun placed =>
        decide (id = roomId ∧ messageId = placed.2.messageId ∧ reactionId = placed.1)) = none := by
      rw [Option.filter_eq_none_iff]
      intro placed _ h
      exact hid (of_decide_eq_true h).1
    rw [if_neg hid, hnone]
    rfl

theorem caches_processed {roomId : String} {event : TimelineEvent} {reactionId : String}
    {placed : PlacedReaction} (h : reactionIn event = some (reactionId, placed)) :
    Caches rooms (rooms.processed env media roomId event)
      ⟨roomId, placed.messageId, placed.reaction⟩ reactionId := by
  intro id messageId other
  rw [reaction_processed, h, Option.filter_some]
  by_cases heq : id = roomId ∧ messageId = placed.messageId ∧ other = reactionId
  · rw [if_pos heq, if_pos (decide_eq_true heq)]
    rfl
  · rw [if_neg heq, if_neg fun hdecide => heq (of_decide_eq_true hdecide)]
    rfl

theorem reaction_processed_of_none {roomId : String} {event : TimelineEvent}
    (h : reactionIn event = none) (id messageId reactionId : String) :
    (rooms.processed env media roomId event).reaction id messageId reactionId
      = rooms.reaction id messageId reactionId := by
  rw [reaction_processed, h]
  rfl

/-! ### A reaction is removed -/

/-- The redaction is one of the cached reaction. -/
structure Redacts (rooms : CachedRooms M) (roomId : String) (event : RedactionEvent)
    (loaded : Option TimelineEvent) (k : ReactionKey) (reactionId : String) : Prop where
  named : event.content.eventRedacts.isSome = true
  loaded : loadedReaction loaded = some reactionId
  roomId : roomId = k.roomId
  index : rooms.message k.roomId reactionId = some k.messageId
  cached : rooms.reaction k.roomId k.messageId reactionId = some k.reaction

end CachedRooms

/-- What a live redaction does to a cached room. -/
inductive RedactionOutcome (env : RoomEnv M) (room : CachedRoom M) (event : RedactionEvent)
    (loaded : Option TimelineEvent) : Option RedactionOutput × CachedRoom M → Prop
  | reaction {room' : CachedRoom M} {reactionId messageId : String} {removed : CachedReaction}
      (hnamed : event.content.eventRedacts.isSome = true)
      (hloaded : loadedReaction loaded = some reactionId)
      (hindex : room.reactionIdToMessage.lookup reactionId = some messageId)
      (hcached : (room.cachedAt messageId).reactions.lookup reactionId = some removed)
      (hroom : ∀ id, (room'.cachedAt id).reactions
        = if id = messageId then (room.cachedAt id).reactions.erase reactionId
          else (room.cachedAt id).reactions) :
      RedactionOutcome env room event loaded
        (some (.reactionRemoved ⟨env.roomId, messageId, removed.emoji, some removed.userId⟩), room')
  | other {output : Option RedactionOutput}
      (hnone : event.content.eventRedacts.isSome = true → ∀ reactionId messageId,
        loadedReaction loaded = some reactionId →
        room.reactionIdToMessage.lookup reactionId = some messageId →
        (room.cachedAt messageId).reactions.lookup reactionId = none)
      (houtput : ∀ reaction, output ≠ some (.reactionRemoved reaction)) :
      RedactionOutcome env room event loaded (output, room)

theorem redactReaction_outcome (room : CachedRoom M) {event : RedactionEvent}
    {loaded : Option TimelineEvent} {reactionId : String}
    (hnamed : event.content.eventRedacts.isSome = true)
    (hloaded : loadedReaction loaded = some reactionId) :
    RedactionOutcome env room event loaded (redactReaction env room reactionId) := by
  unfold redactReaction CachedRoom.removeReactionById CachedRoom.reactionIdToMessageId
  cases hindex : room.reactionIdToMessage.lookup reactionId with
  | none =>
    refine .other (fun _ id messageId hid hmessage => ?_) nofun
    obtain rfl := Option.some.inj (hloaded.symm.trans hid)
    rw [hindex] at hmessage
    cases hmessage
  | some messageId =>
    dsimp only
    cases htaken : room.takeReaction messageId reactionId with
    | mk removed room' =>
      cases removed with
      | none =>
        obtain ⟨hlookup, rfl⟩ := room.takeReaction_eq_none htaken
        refine .other (fun _ id other hid hother => ?_) nofun
        obtain rfl := Option.some.inj (hloaded.symm.trans hid)
        obtain rfl := Option.some.inj (hindex.symm.trans hother)
        exact hlookup
      | some removed =>
        obtain ⟨hcached, -, hreactions⟩ := room.takeReaction_eq_some htaken
        exact .reaction hnamed hloaded hindex hcached hreactions

variable (env) in
theorem execRoomRedactionEvent_outcome (room : CachedRoom M) (event : RedactionEvent)
    (loaded : Option TimelineEvent) :
    RedactionOutcome env room event loaded (execRoomRedactionEvent env room event loaded) := by
  rw [execRoomRedactionEvent_eq]
  cases hnamed : event.content.eventRedacts with
  | none => exact .other (fun h => by rw [hnamed] at h; cases h) nofun
  | some redacts =>
    rw [Option.bind_some]
    have hother : (∀ reaction, loaded.bind readable ≠ some (.messageLike (.reaction reaction))) →
        ∀ reactionId, loadedReaction loaded ≠ some reactionId := by
      intro hne reactionId h
      unfold loadedReaction at h
      split at h
      · next reaction hread => exact hne reaction hread
      · cases h
    cases hread : loaded.bind readable with
    | none =>
      refine .other (fun _ id _ hid _ => ?_) nofun
      exact absurd hid (hother (fun reaction h => by rw [hread] at h; cases h) id)
    | some redacted =>
      have hloaded : ∀ reaction, redacted = .messageLike (.reaction reaction) →
          loadedReaction loaded = some reaction.header.eventId := by
        rintro reaction rfl
        unfold loadedReaction
        rw [hread]
      by_cases hreaction : ∃ reaction, redacted = .messageLike (.reaction reaction)
      · obtain ⟨reaction, rfl⟩ := hreaction
        exact redactReaction_outcome room (by rw [hnamed]; rfl) (hloaded reaction rfl)
      · have hnone : ∀ reactionId, loadedReaction loaded ≠ some reactionId :=
          hother fun reaction h => hreaction ⟨reaction, Option.some.inj (hread.symm.trans h)⟩
        cases redacted with
        | state e => exact .other (fun _ id _ hid _ => absurd hid (hnone id)) nofun
        | messageLike e =>
          cases e with
          | reaction e => exact absurd ⟨e, rfl⟩ hreaction
          | roomMessage e | roomEncrypted e | roomRedaction e | unstablePollStart e
          | unstablePollResponse e | unstablePollEnd e | other e =>
            exact .other (fun _ id _ hid _ => absurd hid (hnone id)) nofun

namespace CachedRooms

variable {rooms : CachedRooms M}

/-- A redacted reaction is removed and reported; otherwise no reaction is. -/
theorem execRoomRedactionEvent_cases (rooms : CachedRooms M) (env : RoomEnv M) (media : M)
    (roomId : String) (event : RedactionEvent) (loaded : Option TimelineEvent) :
    (∃ k reactionId, rooms.Redacts roomId event loaded k reactionId ∧
      (rooms.execRoomRedactionEvent env media roomId event loaded).1
        = some (.reactionRemoved k.toReaction) ∧
      ∀ id messageId other,
        (rooms.execRoomRedactionEvent env media roomId event loaded).2.reaction id messageId other
          = if id = k.roomId ∧ messageId = k.messageId ∧ other = reactionId then none
            else rooms.reaction id messageId other) ∨
    (∀ k reactionId, ¬ rooms.Redacts roomId event loaded k reactionId) ∧
      (∀ reaction, (rooms.execRoomRedactionEvent env media roomId event loaded).1
        ≠ some (.reactionRemoved reaction)) ∧
      ∀ id messageId other,
        (rooms.execRoomRedactionEvent env media roomId event loaded).2.reaction id messageId other
          = rooms.reaction id messageId other := by
  unfold CachedRooms.execRoomRedactionEvent
  cases hroom : rooms.lookup roomId with
  | none =>
    refine .inr ⟨fun k reactionId h => ?_, ?_, fun _ _ _ => rfl⟩
    · have hcached := h.cached
      rw [← h.roomId] at hcached
      unfold reaction at hcached
      rw [hroom] at hcached
      cases hcached
    · dsimp only
      have houtcome := execRoomRedactionEvent_outcome (env.at roomId) (.new media) event loaded
      generalize MemoryCache.execRoomRedactionEvent (env.at roomId) (.new media) event loaded = r
        at houtcome
      cases houtcome with
      | reaction _ _ hindex => cases hindex
      | other _ houtput => exact houtput
  | some room =>
    dsimp only
    have houtcome := execRoomRedactionEvent_outcome (env.at roomId) room event loaded
    generalize MemoryCache.execRoomRedactionEvent (env.at roomId) room event loaded = r at houtcome
    have hreaction : ∀ messageId other, rooms.reaction roomId messageId other
        = (room.cachedAt messageId).reactions.lookup other := by
      intro messageId other
      unfold reaction
      rw [hroom]
      rfl
    cases houtcome with
    | @reaction room' reactionId messageId removed hnamed hloaded hindex hcached hreactions =>
      refine .inl ⟨⟨roomId, messageId, removed⟩, reactionId, ?_, rfl, fun id message other => ?_⟩
      · refine ⟨hnamed, hloaded, rfl, ?_, (hreaction _ _).trans hcached⟩
        unfold message
        rw [hroom]
        exact hindex
      · rw [reaction_insertRoom]
        split
        · next hid =>
          subst hid
          rw [hreactions, hreaction]
          by_cases hmessage : message = messageId
          · rw [if_pos hmessage]
            by_cases hother : other = reactionId
            · rw [if_pos ⟨rfl, hmessage, hother⟩, hother, AList.lookup_erase]
            · rw [if_neg fun h => hother h.2.2, AList.lookup_erase_ne hother]
          · rw [if_neg hmessage, if_neg fun h => hmessage h.2.1]
        · next hid => rw [if_neg fun h => hid h.1]
    | other hnone houtput =>
      refine .inr ⟨fun k reactionId h => ?_, houtput, fun id message other => ?_⟩
      · have hindex := h.index
        have hcached := h.cached
        rw [← h.roomId] at hindex hcached
        rw [hreaction] at hcached
        unfold message at hindex
        rw [hroom] at hindex
        rw [hnone h.named reactionId k.messageId h.loaded hindex] at hcached
        cases hcached
      · rw [reaction_insertRoom]
        split
        · next hid =>
          subst hid
          exact (hreaction _ _).symm
        · rfl

/-- A request that removes a reaction leaves every other reaction as it is. -/
theorem has_removeReaction {E : Type} {env : String → RoomEnv M} {server : ReactionServer E}
    {request : Reaction} {k : ReactionKey}
    (hk : (⟨request.roomId, request.messageId, ⟨server.userIdOf request, request.reaction⟩⟩ :
      ReactionKey) ≠ k) :
    (removeReaction env server rooms request).rooms.Has k ↔ rooms.Has k := by
  have hwithout : CachedRooms.Has (roomsWithout env server rooms request) k ↔ rooms.Has k := by
    refine exists_congr fun reactionId => ?_
    unfold roomsWithout
    rw [reaction_removeReactionByEmoji]
    refine and_iff_left ?_
    rintro ⟨hroomId, hmessageId, hof⟩
    have huser : k.reaction.userId = server.userIdOf request ∧
        k.reaction.emoji = request.reaction := by simpa [CachedReaction.isOf] using hof
    obtain ⟨roomId, messageId, userId, emoji⟩ := k
    obtain ⟨rfl, rfl⟩ := huser
    obtain rfl : roomId = request.roomId := hroomId
    obtain rfl : messageId = request.messageId := hmessageId
    exact hk rfl
  have houtcome := removeReaction_outcome env server rooms request
  generalize removeReaction env server rooms request = outcome at houtcome
  cases houtcome with
  | noRoom h => exact Iff.rfl
  | notFound | rejected | redacted => exact hwithout

theorem reaction_of_removeReaction {E : Type} {env : String → RoomEnv M} {server : ReactionServer E}
    {request : Reaction} {id messageId reactionId : String} {reaction : CachedReaction}
    (h : (removeReaction env server rooms request).rooms.reaction id messageId reactionId
      = some reaction) : rooms.reaction id messageId reactionId = some reaction := by
  have hwithout : CachedRooms.reaction
    (roomsWithout env server rooms request) id messageId reactionId
      = some reaction → rooms.reaction id messageId reactionId = some reaction := by
    unfold roomsWithout
    rw [reaction_removeReactionByEmoji]
    exact And.left
  have houtcome := removeReaction_outcome env server rooms request
  generalize removeReaction env server rooms request = outcome at houtcome h
  cases houtcome with
  | noRoom => exact h
  | notFound | rejected | redacted => exact hwithout h

end CachedRooms

/-- The request reports the reaction that it has been made for. -/
theorem keyOf_of_mem_sent {E : Type} {env : String → RoomEnv M} {server : ReactionServer E}
    {rooms : CachedRooms M} {request reaction : Reaction}
    (h : reaction ∈ (removeReaction env server rooms request).sent) :
    keyOf reaction
      = ⟨request.roomId, request.messageId, ⟨server.userIdOf request, request.reaction⟩⟩ := by
  have houtcome := removeReaction_outcome env server rooms request
  generalize removeReaction env server rooms request = outcome at houtcome h
  cases houtcome with
  | noRoom | notFound | rejected => cases h
  | redacted =>
    obtain rfl := List.mem_singleton.mp h
    rfl

end Cached

end GoudaMatrix.MemoryCache
