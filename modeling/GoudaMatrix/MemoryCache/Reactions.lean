/-
  The reactions of a cached room (`memory_cache.rs`): `reactions` of its messages, and
  `reaction_id_to_message`. The operations are cut into their accesses to the two maps.

  The maps agree after `cache_reaction` (`agree_cacheReaction`), and after a removal once the
  index is cleaned up (`Removes.agree`), provided that a reaction id is always cached with the same
  message and reaction (`Placed`).
-/
import GoudaMatrix.MemoryCache.Effect

namespace GoudaMatrix.MemoryCache

open GoudaMatrix.Lib GoudaMatrix.Ruma

/-- `ReactionMetadata::new`. -/
def ReactionMetadata.new (reaction : CachedReaction) (reactionId messageId roomId : String) :
    ReactionMetadata :=
  ⟨reactionId, reaction.userId, reaction.emoji, messageId, roomId⟩

namespace CachedRoom

variable {M : Type} (env : RoomEnv M) (room : CachedRoom M)

/-! ## The calls -/

/-- `cache_reaction` up to the lock of the index. -/
def insertReaction (messageId reactionId : String) (reaction : CachedReaction) : CachedRoom M :=
  room.modifyMessage messageId fun m =>
    { m with reactions := m.reactions.insert reactionId reaction }

/-- The rest of `cache_reaction`. -/
def indexReaction (messageId reactionId : String) : CachedRoom M :=
  { room with reactionIdToMessage := room.reactionIdToMessage.insert reactionId messageId }

theorem cacheReaction_eq (messageId reactionId : String) (reaction : CachedReaction) :
    room.cacheReaction messageId reactionId reaction
      = (room.insertReaction messageId reactionId reaction).indexReaction messageId reactionId :=
  rfl

def reactionIdToMessageId (reactionId : String) : Option String :=
  room.reactionIdToMessage.lookup reactionId

def cleanupReaction (reactionId : String) : CachedRoom M :=
  { room with reactionIdToMessage := room.reactionIdToMessage.erase reactionId }

def cleanupReactions (reactionIds : List String) : CachedRoom M :=
  reactionIds.foldl cleanupReaction room

/-- A message that is changed in place. -/
def setMessage (messageId : String) (message : CachedMessage) : CachedRoom M :=
  { room with messages := room.messages.insert messageId message }

/-- The reaction that `remove_reaction_by_id` removes from a message. -/
def takeReaction (messageId reactionId : String) : Option CachedReaction × CachedRoom M :=
  match room.messages.lookup messageId with
  | none => (none, room)
  | some message =>
    match message.reactions.lookup reactionId with
    | none => (none, room)
    | some removed =>
      (some removed,
        room.setMessage messageId { message with reactions := message.reactions.erase reactionId })

def removeReactionById (reactionId : String) : Option ReactionMetadata × CachedRoom M :=
  match room.reactionIdToMessageId reactionId with
  | none => (none, room)
  | some messageId =>
    match room.takeReaction messageId reactionId with
    | (none, room) => (none, room)
    | (some removed, room) =>
      (some (.new removed reactionId messageId env.roomId), room.cleanupReaction reactionId)

/-- The reactions that `remove_reaction_by_emoji` removes from a message. -/
def takeReactions (messageId userId emoji : String) :
    List (Sigma fun _ : String => CachedReaction) × CachedRoom M :=
  match room.messages.lookup messageId with
  | none => ([], room)
  | some message =>
    let (removed, reactions) := message.reactions.extractIf env.order
      fun _ reaction => reaction.userId = userId && reaction.emoji = emoji
    (removed, room.setMessage messageId { message with reactions })

/-- The metadata of the first of the removed reactions. -/
def firstMetadata (messageId : String) (removed : List (Sigma fun _ : String => CachedReaction)) :
    Option ReactionMetadata :=
  removed.head?.map fun entry => .new entry.2 entry.1 messageId env.roomId

def removeReactionByEmoji (messageId userId emoji : String) :
    Option ReactionMetadata × CachedRoom M :=
  let (removed, room) := room.takeReactions env messageId userId emoji
  (firstMetadata env messageId removed, room.cleanupReactions (removed.map Sigma.fst))

/-! ## What the calls leave -/

theorem cachedAt_of_messages {room room' : CachedRoom M} (h : room'.messages = room.messages)
    (id : String) : room'.cachedAt id = room.cachedAt id := by
  unfold cachedAt
  rw [h]

theorem cachedAt_setMessage (messageId id : String) (message : CachedMessage) :
    (room.setMessage messageId message).cachedAt id
      = if id = messageId then message else room.cachedAt id := by
  unfold cachedAt setMessage
  rw [HashMap.lookup_insert_cases]
  split <;> rfl

theorem messages_cleanupReactions (reactionIds : List String) :
    (room.cleanupReactions reactionIds).messages = room.messages := by
  induction reactionIds generalizing room with
  | nil => rfl
  | cons reactionId reactionIds ih => exact ih (room.cleanupReaction reactionId)

theorem lookup_cleanupReactions (reactionIds : List String) (reactionId : String) :
    (room.cleanupReactions reactionIds).reactionIdToMessage.lookup reactionId
      = if reactionId ∈ reactionIds then none else room.reactionIdToMessage.lookup reactionId := by
  induction reactionIds generalizing room with
  | nil => rfl
  | cons first reactionIds ih =>
    refine (ih (room.cleanupReaction first)).trans ?_
    by_cases heq : reactionId = first
    · subst heq
      simp [cleanupReaction]
    · simp [cleanupReaction, heq, AList.lookup_erase_ne heq]

/-- A taken reaction was cached for the message and is not any more. -/
theorem takeReaction_eq_some {messageId reactionId : String} {removed : CachedReaction}
    {room' : CachedRoom M} (h : room.takeReaction messageId reactionId = (some removed, room')) :
    (room.cachedAt messageId).reactions.lookup reactionId = some removed ∧
      room'.reactionIdToMessage = room.reactionIdToMessage ∧
      ∀ id, (room'.cachedAt id).reactions
        = if id = messageId then (room.cachedAt id).reactions.erase reactionId
          else (room.cachedAt id).reactions := by
  unfold takeReaction at h
  cases hmessage : room.messages.lookup messageId with
  | none => simp [hmessage] at h
  | some message =>
    have hcached : room.cachedAt messageId = message := by simp [cachedAt, hmessage]
    cases hreaction : message.reactions.lookup reactionId with
    | none => simp [hmessage, hreaction] at h
    | some reaction =>
      simp only [hmessage, hreaction, Prod.mk.injEq, Option.some.injEq] at h
      obtain ⟨rfl, rfl⟩ := h
      refine ⟨hcached ▸ hreaction, rfl, fun id => ?_⟩
      rw [cachedAt_setMessage]
      split
      · next heq => rw [heq, hcached]
      · rfl

theorem takeReaction_eq_none {messageId reactionId : String} {room' : CachedRoom M}
    (h : room.takeReaction messageId reactionId = (none, room')) :
    (room.cachedAt messageId).reactions.lookup reactionId = none ∧ room' = room := by
  unfold takeReaction at h
  cases hmessage : room.messages.lookup messageId with
  | none =>
    simp only [hmessage, Prod.mk.injEq, true_and] at h
    refine ⟨?_, h.symm⟩
    rw [show room.cachedAt messageId = CachedMessage.default by simp [cachedAt, hmessage]]
    rfl
  | some message =>
    have hcached : room.cachedAt messageId = message := by simp [cachedAt, hmessage]
    cases hreaction : message.reactions.lookup reactionId with
    | some reaction => simp [hmessage, hreaction] at h
    | none =>
      simp only [hmessage, hreaction, Prod.mk.injEq, true_and] at h
      exact ⟨hcached ▸ hreaction, h.symm⟩

/-- The taken reactions were cached for the message, and exactly they are not any more. -/
theorem takeReactions_spec (messageId userId emoji : String) :
    let taken := room.takeReactions env messageId userId emoji
    taken.2.reactionIdToMessage = room.reactionIdToMessage ∧
      (∀ entry ∈ taken.1, (room.cachedAt messageId).reactions.lookup entry.1 = some entry.2) ∧
      ∀ id reactionId reaction, (taken.2.cachedAt id).reactions.lookup reactionId = some reaction ↔
        (room.cachedAt id).reactions.lookup reactionId = some reaction ∧
          (id = messageId → reactionId ∉ taken.1.map Sigma.fst) := by
  unfold takeReactions
  cases hmessage : room.messages.lookup messageId with
  | none => exact ⟨rfl, by simp, by simp⟩
  | some message =>
    have hcached : room.cachedAt messageId = message := by simp [cachedAt, hmessage]
    have hremoved : ∀ {key reaction}, (⟨key, reaction⟩ : Sigma fun _ : String => CachedReaction) ∈
        (message.reactions.extractIf env.order fun _ reaction =>
          reaction.userId = userId && reaction.emoji = emoji).1 ↔
        message.reactions.lookup key = some reaction ∧
          (reaction.userId = userId && reaction.emoji = emoji) = true :=
      fun {key reaction} => HashMap.mem_extractIf
    refine ⟨rfl, fun entry hmem => hcached ▸ (hremoved.mp hmem).1, fun id reactionId reaction => ?_⟩
    dsimp only
    rw [cachedAt_setMessage]
    split
    · next heq =>
      subst heq
      rw [hcached]
      refine HashMap.lookup_eq_some_retain.trans (and_congr_right fun hlookup => ?_)
      rw [imp_iff_right rfl, List.mem_map]
      refine ⟨fun hkept => ?_, fun hnot => ?_⟩
      · rintro ⟨⟨key, other⟩, hmem, rfl⟩
        obtain ⟨hother, htaken⟩ := hremoved.mp hmem
        obtain rfl := Option.some.inj (hlookup.symm.trans hother)
        simp [htaken] at hkept
      · cases htaken : (reaction.userId = userId && reaction.emoji = emoji : Bool) with
        | false => simp [htaken]
        | true => exact absurd ⟨⟨reactionId, reaction⟩, hremoved.mpr ⟨hlookup, htaken⟩, rfl⟩ hnot
    · next hne => simp [hne]

/-! ## Agreement -/

/-- The maps agree. -/
def Agree : Prop :=
  ∀ reactionId messageId, room.reactionIdToMessage.lookup reactionId = some messageId ↔
    reactionId ∈ (room.cachedAt messageId).reactions

end CachedRoom

/-- The message and the reaction with which a reaction id is cached. -/
structure PlacedReaction where
  messageId : String
  reaction : CachedReaction

/-- The reaction of each id. -/
abbrev ReactionTable := String → PlacedReaction

section Agreement

variable {M : Type} (reactions : ReactionTable)

/-- Everything that is cached is from the table. -/
def Placed (room : CachedRoom M) : Prop :=
  ∀ messageId reactionId reaction,
    (room.cachedAt messageId).reactions.lookup reactionId = some reaction →
      reactions reactionId = ⟨messageId, reaction⟩

variable {reactions} {room room' : CachedRoom M}

theorem mem_reactions {messageId reactionId : String} :
    reactionId ∈ (room.cachedAt messageId).reactions ↔
      ∃ reaction, (room.cachedAt messageId).reactions.lookup reactionId = some reaction := by
  rw [← AList.lookup_isSome, Option.isSome_iff_exists]

theorem Placed.messageId (h : Placed reactions room) {messageId reactionId : String}
    (hmem : reactionId ∈ (room.cachedAt messageId).reactions) :
    (reactions reactionId).messageId = messageId := by
  obtain ⟨reaction, hlookup⟩ := mem_reactions.mp hmem
  rw [h _ _ _ hlookup]

theorem reactions_insertReaction (room : CachedRoom M) (messageId reactionId : String)
    (reaction : CachedReaction) (id : String) :
    ((room.insertReaction messageId reactionId reaction).cachedAt id).reactions
      = if id = messageId then (room.cachedAt id).reactions.insert reactionId reaction
        else (room.cachedAt id).reactions := by
  rw [CachedRoom.insertReaction, CachedRoom.cachedAt_modifyMessage]
  split <;> rfl

theorem Placed.insertReaction (h : Placed reactions room) (reactionId : String) :
    Placed reactions (room.insertReaction (reactions reactionId).messageId reactionId
      (reactions reactionId).reaction) := by
  intro messageId id reaction hlookup
  rw [reactions_insertReaction] at hlookup
  split at hlookup
  · next heq =>
    rw [HashMap.lookup_insert_cases] at hlookup
    split at hlookup
    · next hid =>
      obtain rfl := Option.some.inj hlookup
      rw [hid, heq]
    · exact h _ _ _ hlookup
  · exact h _ _ _ hlookup

theorem agree_cacheReaction (h : Placed reactions room) (hagree : room.Agree)
    (reactionId : String) :
    (room.cacheReaction (reactions reactionId).messageId reactionId
      (reactions reactionId).reaction).Agree := by
  intro id messageId
  have hcached : reactionId ∈ (room.cachedAt messageId).reactions →
      messageId = (reactions reactionId).messageId := fun hmem => (h.messageId hmem).symm
  rw [CachedRoom.cacheReaction_eq]
  show AList.lookup id (room.reactionIdToMessage.insert reactionId _) = some messageId ↔
    id ∈ ((room.insertReaction _ _ _).cachedAt messageId).reactions
  rw [HashMap.lookup_insert_cases, reactions_insertReaction]
  have hold := hagree id messageId
  split
  · next hid =>
    subst hid
    split
    · next heq => simp [heq]
    · next hne =>
      refine ⟨fun heq => absurd (Option.some.inj heq).symm hne, fun hmem => absurd ?_ hne⟩
      exact hcached hmem
  · next hid =>
    split
    · rw [hold, AList.mem_insert, or_iff_right hid]
    · exact hold

/-- Reactions of one message are removed. -/
structure Removes (room room' : CachedRoom M) (messageId : String) (removed : List String) :
    Prop where
  index : room'.reactionIdToMessage = room.reactionIdToMessage
  cached : ∀ reactionId ∈ removed, reactionId ∈ (room.cachedAt messageId).reactions
  lookup : ∀ id reactionId reaction,
    (room'.cachedAt id).reactions.lookup reactionId = some reaction ↔
      (room.cachedAt id).reactions.lookup reactionId = some reaction ∧
        (id = messageId → reactionId ∉ removed)

theorem removes_takeReaction {messageId reactionId : String} {removed : CachedReaction}
    (h : room.takeReaction messageId reactionId = (some removed, room')) :
    Removes room room' messageId [reactionId] := by
  obtain ⟨hlookup, hindex, hreactions⟩ := room.takeReaction_eq_some h
  refine ⟨hindex, fun id hmem => ?_, fun id other reaction => ?_⟩
  · rw [List.mem_singleton.mp hmem]
    exact mem_reactions.mpr ⟨removed, hlookup⟩
  · rw [hreactions, List.mem_singleton]
    split
    · next hid =>
      rw [imp_iff_right hid]
      by_cases hother : other = reactionId
      · subst hother
        simp
      · simp [hother, AList.lookup_erase_ne hother]
    · next hid => simp [hid]

theorem removes_takeReactions {env : RoomEnv M} {messageId userId emoji : String}
    {removed : List (Sigma fun _ : String => CachedReaction)}
    (h : room.takeReactions env messageId userId emoji = (removed, room')) :
    Removes room room' messageId (removed.map Sigma.fst) := by
  obtain ⟨hindex, hcached, hlookup⟩ := room.takeReactions_spec env messageId userId emoji
  rw [h] at hindex hcached hlookup
  refine ⟨hindex, fun reactionId hmem => ?_, hlookup⟩
  obtain ⟨entry, hentry, rfl⟩ := List.mem_map.mp hmem
  exact mem_reactions.mpr ⟨_, hcached entry hentry⟩

namespace Removes

variable {messageId : String} {removed : List String}

theorem mem_iff (h : Removes room room' messageId removed) {id reactionId : String} :
    reactionId ∈ (room'.cachedAt id).reactions ↔
      reactionId ∈ (room.cachedAt id).reactions ∧ (id = messageId → reactionId ∉ removed) := by
  simp only [mem_reactions, h.lookup, exists_and_right]

theorem placed (h : Removes room room' messageId removed) (hplaced : Placed reactions room) :
    Placed reactions room' :=
  fun id reactionId reaction hlookup =>
    hplaced _ _ _ ((h.lookup id reactionId reaction).mp hlookup).1

/-- Once the index is cleaned up as well, the maps agree again. -/
theorem agree (h : Removes room room' messageId removed) (hplaced : Placed reactions room)
    (hagree : room.Agree) : (room'.cleanupReactions removed).Agree := by
  intro reactionId id
  rw [CachedRoom.lookup_cleanupReactions, h.index,
    CachedRoom.cachedAt_of_messages (CachedRoom.messages_cleanupReactions room' removed), h.mem_iff]
  split
  · next hmem =>
    have hmessage := hplaced.messageId (h.cached reactionId hmem)
    refine ⟨nofun, fun ⟨hcached, hnot⟩ => absurd hmem (hnot ?_)⟩
    exact (hplaced.messageId hcached).symm.trans hmessage
  · next hnot => rw [hagree reactionId id, and_iff_left fun _ => hnot]

end Removes

end Agreement

end GoudaMatrix.MemoryCache
