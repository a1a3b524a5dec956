/-
  The request to remove a reaction (`client.rs`: `remove_reaction`). The reactions of the user with
  the emoji are removed from the cache first; then the first of them is redacted on the server,
  which can fail.

  `restored_on_error_iff`: a request that fails has changed nothing exactly if no reaction is found
  or it fails before. `failed_redaction_forgets` is a redaction that the server rejects.

  `removed_eq_redacted_iff`: a request that succeeds has removed what it has redacted exactly if
  there is one such reaction. `second_heart_stays` is a user with two hearts on a message.
-/
import GoudaMatrix.MemoryCache.Reactions

namespace GoudaMatrix.MemoryCache

open GoudaMatrix.Lib GoudaMatrix.Ruma

/-- `cached_rooms`. -/
abbrev CachedRooms (M : Type) := HashMap (CachedRoom M)

/-! ## The request -/

/-- The errors of the request; `E` is those of the session and of the server. -/
inductive RemoveReactionError (E : Type) where
  | reactionNotFound
  | other (error : E)
deriving DecidableEq, Repr

/-- What the request needs of the session and of the SDK. -/
structure ReactionServer (E : Type) where
  /-- `get_matrix_room`. -/
  getMatrixRoom : String → Except E Unit
  /-- `client.user_id()`. -/
  userId : Option String
  /-- Whether `EventId::parse` accepts the id. -/
  parse : String → Bool
  /-- `redact`, of an event of a room. -/
  redact : String → String → Except E Unit

structure RemoveReactionOutcome (M E : Type) where
  result : Except (RemoveReactionError E) Unit
  rooms : CachedRooms M
  /-- The events that have been redacted. -/
  redacted : List String
  /-- The `ReactionRemovedEvent`s. -/
  sent : List Reaction

section Request

variable {M E : Type} (env : String → RoomEnv M) (server : ReactionServer E) (rooms : CachedRooms M)

namespace CachedRooms

def removeReactionById (roomId reactionId : String) : Option ReactionMetadata × CachedRooms M :=
  match rooms.lookup roomId with
  | none => (none, rooms)
  | some room =>
    let (removed, room) := room.removeReactionById (env roomId) reactionId
    (removed, rooms.insert roomId room)

def removeReactionByEmoji (roomId messageId userId emoji : String) :
    Option ReactionMetadata × CachedRooms M :=
  match rooms.lookup roomId with
  | none => (none, rooms)
  | some room =>
    let (removed, room) := room.removeReactionByEmoji (env roomId) messageId userId emoji
    (removed, rooms.insert roomId room)

end CachedRooms

def ReactionServer.userIdOf (request : Reaction) : String :=
  request.userId.getD (server.userId.getD "")

def removeReaction (request : Reaction) : RemoveReactionOutcome M E :=
  match server.getMatrixRoom request.roomId with
  | .error e => ⟨.error (.other e), rooms, [], []⟩
  | .ok () =>
    let userId := server.userIdOf request
    let (cachedReaction, rooms) := CachedRooms.removeReactionByEmoji env rooms request.roomId
      request.messageId userId request.reaction
    match cachedReaction with
    | none => ⟨.error .reactionNotFound, rooms, [], []⟩
    | some cachedReaction =>
      if server.parse cachedReaction.reactionId then
        match server.redact request.roomId cachedReaction.reactionId with
        | .error e => ⟨.error (.other e), rooms, [], []⟩
        | .ok () => ⟨.ok (), rooms, [cachedReaction.reactionId],
            [⟨request.roomId, request.messageId, request.reaction, some userId⟩]⟩
      else ⟨.error .reactionNotFound, rooms, [], []⟩

end Request

/-! ## What is cached -/

section Cached

variable {M E : Type}

def CachedRooms.reaction (rooms : CachedRooms M) (roomId messageId reactionId : String) :
    Option CachedReaction :=
  (rooms.lookup roomId).bind fun room => (room.cachedAt messageId).reactions.lookup reactionId

/-- The entry of the index. -/
def CachedRooms.message (rooms : CachedRooms M) (roomId reactionId : String) : Option String :=
  (rooms.lookup roomId).bind fun room => room.reactionIdToMessage.lookup reactionId

/-- The same reactions and the same index, in every room. -/
structure SameReactions (rooms rooms' : CachedRooms M) : Prop where
  reaction : ∀ roomId messageId reactionId,
    rooms'.reaction roomId messageId reactionId = rooms.reaction roomId messageId reactionId
  message : ∀ roomId reactionId, rooms'.message roomId reactionId = rooms.message roomId reactionId

/-- The reaction is of the user, with the emoji. -/
def CachedReaction.isOf (reaction : CachedReaction) (userId emoji : String) : Bool :=
  reaction.userId = userId && reaction.emoji = emoji

/-- The reaction that the request is about, the first in the order of the map. -/
def firstReaction (env : String → RoomEnv M) (rooms : CachedRooms M)
    (roomId messageId userId emoji : String) : Option String :=
  (rooms.lookup roomId).bind fun room =>
    (((env roomId).order.order (room.cachedAt messageId).reactions.entries).find? fun entry =>
      entry.2.isOf userId emoji).map Sigma.fst

/-- The id is an event id, and the server redacts the event. -/
def ReactionServer.Accepts (server : ReactionServer E) (roomId reactionId : String) : Prop :=
  server.parse reactionId = true ∧ server.redact roomId reactionId = .ok ()

end Cached

/-! ## What the removal leaves -/

section Removal

variable {M : Type} (env : RoomEnv M) (room : CachedRoom M) (messageId userId emoji : String)

theorem CachedRoom.takeReactions_fst :
    (room.takeReactions env messageId userId emoji).1
      = (env.order.order (room.cachedAt messageId).reactions.entries).filter fun entry =>
          entry.2.isOf userId emoji := by
  unfold takeReactions cachedAt
  cases room.messages.lookup messageId with
  | none =>
    have hnone : env.order.order CachedMessage.default.reactions.entries = [] :=
      List.perm_nil.mp (env.order.perm _)
    simp only [Option.getD_none]
    rw [hnone]
    rfl
  | some message => rfl

theorem CachedRoom.mem_takeReactions {reactionId : String} :
    reactionId ∈ (room.takeReactions env messageId userId emoji).1.map Sigma.fst ↔
      ∃ reaction, (room.cachedAt messageId).reactions.lookup reactionId = some reaction ∧
        reaction.isOf userId emoji = true := by
  have htaken : ∀ {id reaction}, (⟨id, reaction⟩ : Sigma fun _ : String => CachedReaction) ∈
      ((room.cachedAt messageId).reactions.extractIf env.order fun _ reaction =>
        reaction.isOf userId emoji).1 ↔
      (room.cachedAt messageId).reactions.lookup id = some reaction ∧
        reaction.isOf userId emoji = true :=
    fun {id reaction} => HashMap.mem_extractIf
  rw [takeReactions_fst, List.mem_map]
  constructor
  · rintro ⟨⟨id, reaction⟩, hmem, rfl⟩
    exact ⟨reaction, htaken.mp hmem⟩
  · rintro ⟨reaction, h⟩
    exact ⟨⟨reactionId, reaction⟩, htaken.mpr h, rfl⟩

/-- Exactly the reactions of the user with the emoji are not cached any more, nor in the index. -/
theorem CachedRoom.removeReactionByEmoji_spec :
    let removed := room.removeReactionByEmoji env messageId userId emoji
    (∀ id reactionId reaction,
      (removed.2.cachedAt id).reactions.lookup reactionId = some reaction ↔
        (room.cachedAt id).reactions.lookup reactionId = some reaction ∧
          ¬ (id = messageId ∧ reaction.isOf userId emoji = true)) ∧
    (∀ reactionId, removed.2.reactionIdToMessage.lookup reactionId
      = if reactionId ∈ (room.takeReactions env messageId userId emoji).1.map Sigma.fst then none
        else room.reactionIdToMessage.lookup reactionId) := by
  obtain ⟨hindex, -, hlookup⟩ := room.takeReactions_spec env messageId userId emoji
  unfold removeReactionByEmoji
  refine ⟨fun id reactionId reaction => ?_, fun reactionId => ?_⟩
  · dsimp only
    rw [cachedAt_of_messages (messages_cleanupReactions _ _), hlookup]
    refine and_congr_right fun hcached => ?_
    rw [not_and]
    refine imp_congr_right fun hid => not_congr ?_
    rw [mem_takeReactions, ← hid, hcached]
    simp
  · dsimp only
    rw [lookup_cleanupReactions, hindex]

theorem CachedRoom.removeReactionByEmoji_fst :
    (room.removeReactionByEmoji env messageId userId emoji).1.map ReactionMetadata.reactionId
      = ((env.order.order (room.cachedAt messageId).reactions.entries).find? fun entry =>
          entry.2.isOf userId emoji).map Sigma.fst := by
  show (firstMetadata env messageId (room.takeReactions env messageId userId emoji).1).map _ = _
  rw [takeReactions_fst, ← List.head?_filter]
  unfold firstMetadata
  rw [Option.map_map]
  rfl

end Removal

section Rooms

variable {M : Type} (env : String → RoomEnv M) (rooms : CachedRooms M)
  (roomId messageId userId emoji : String)

theorem lookup_insert_room (room : CachedRoom M) (id : String) :
    (rooms.insert roomId room : CachedRooms M).lookup id
      = if id = roomId then some room else rooms.lookup id :=
  HashMap.lookup_insert_cases rooms roomId id room

theorem firstReaction_eq :
    (CachedRooms.removeReactionByEmoji env rooms roomId messageId userId emoji).1.map
        ReactionMetadata.reactionId
      = firstReaction env rooms roomId messageId userId emoji := by
  unfold CachedRooms.removeReactionByEmoji firstReaction
  cases rooms.lookup roomId with
  | none => rfl
  | some room => exact room.removeReactionByEmoji_fst (env roomId) messageId userId emoji

theorem firstReaction_eq_some {reactionId : String}
    (h : firstReaction env rooms roomId messageId userId emoji = some reactionId) :
    ∃ reaction, rooms.reaction roomId messageId reactionId = some reaction ∧
      reaction.isOf userId emoji = true := by
  obtain ⟨room, hroom, hfirst⟩ := Option.bind_eq_some_iff.mp h
  obtain ⟨⟨id, reaction⟩, hfound, rfl⟩ := Option.map_eq_some_iff.mp hfirst
  have hlookup := HashMap.mem_order.mp (List.mem_of_find?_eq_some hfound)
  exact ⟨reaction, Option.bind_eq_some_iff.mpr ⟨room, hroom, hlookup⟩,
    List.find?_some (p := fun (entry : Sigma fun _ => CachedReaction) =>
      entry.2.isOf userId emoji) hfound⟩

theorem firstReaction_eq_none :
    firstReaction env rooms roomId messageId userId emoji = none ↔
      ∀ reactionId reaction, rooms.reaction roomId messageId reactionId = some reaction →
        reaction.isOf userId emoji = false := by
  unfold firstReaction CachedRooms.reaction
  cases rooms.lookup roomId with
  | none => simp
  | some room =>
    simp only [Option.bind_some, Option.map_eq_none_iff, List.find?_eq_none, Bool.not_eq_true]
    refine ⟨fun h id reaction hlookup => ?_, fun h entry hmem => ?_⟩
    · exact h ⟨id, reaction⟩ (HashMap.mem_order.mpr hlookup)
    · exact h entry.1 entry.2 (HashMap.mem_order.mp hmem)

/-- The same of all rooms. -/
theorem reaction_removeReactionByEmoji (id id' reactionId : String) (reaction : CachedReaction) :
    CachedRooms.reaction
        (CachedRooms.removeReactionByEmoji env rooms roomId messageId userId emoji).2 id id'
        reactionId = some reaction ↔
      rooms.reaction id id' reactionId = some reaction ∧
        ¬ (id = roomId ∧ id' = messageId ∧ reaction.isOf userId emoji = true) := by
  unfold CachedRooms.removeReactionByEmoji CachedRooms.reaction
  cases hroom : rooms.lookup roomId with
  | none =>
    dsimp only
    by_cases hid : id = roomId
    · subst hid
      simp [hroom]
    · simp [hid]
  | some room =>
    dsimp only
    rw [lookup_insert_room]
    by_cases hid : id = roomId
    · subst hid
      rw [if_pos rfl, hroom, Option.bind_some, Option.bind_some,
        (room.removeReactionByEmoji_spec (env id) messageId userId emoji).1]
      simp
    · rw [if_neg hid]
      simp [hid]

theorem message_removeReactionByEmoji (id reactionId : String) :
    CachedRooms.message
        (CachedRooms.removeReactionByEmoji env rooms roomId messageId userId emoji).2 id reactionId
      = if id = roomId ∧ ∃ reaction, rooms.reaction roomId messageId reactionId = some reaction ∧
            reaction.isOf userId emoji = true then none
        else rooms.message id reactionId := by
  unfold CachedRooms.removeReactionByEmoji CachedRooms.reaction CachedRooms.message
  cases hroom : rooms.lookup roomId with
  | none => simp
  | some room =>
    dsimp only
    rw [lookup_insert_room]
    by_cases hid : id = roomId
    · subst hid
      rw [if_pos rfl, hroom, Option.bind_some, Option.bind_some,
        (room.removeReactionByEmoji_spec (env id) messageId userId emoji).2]
      simp only [CachedRoom.mem_takeReactions, Option.bind_some, true_and]
    · rw [if_neg hid, if_neg fun h => hid h.1]

/-- What the live path reports when the reaction is redacted is determined by the two maps. -/
theorem removeReactionById_fst (reactionId : String) :
    (CachedRooms.removeReactionById env rooms roomId reactionId).1
      = (rooms.message roomId reactionId).bind fun messageId =>
          (rooms.reaction roomId messageId reactionId).map fun reaction =>
            .new reaction reactionId messageId (env roomId).roomId := by
  unfold CachedRooms.removeReactionById CachedRooms.message CachedRooms.reaction
  cases rooms.lookup roomId with
  | none => rfl
  | some room =>
    simp only [Option.bind_some]
    unfold CachedRoom.removeReactionById CachedRoom.reactionIdToMessageId
    cases room.reactionIdToMessage.lookup reactionId with
    | none => rfl
    | some messageId =>
      simp only [Option.bind_some]
      cases htaken : room.takeReaction messageId reactionId with
      | mk removed room' =>
        cases removed with
        | none =>
          rw [(room.takeReaction_eq_none htaken).1]
          rfl
        | some removed =>
          rw [(room.takeReaction_eq_some htaken).1]
          rfl

/-- The removal is not seen only if there is nothing to remove. -/
theorem sameReactions_removeReactionByEmoji :
    SameReactions rooms
        (CachedRooms.removeReactionByEmoji env rooms roomId messageId userId emoji).2 ↔
      firstReaction env rooms roomId messageId userId emoji = none := by
  constructor
  · intro h
    cases hfirst : firstReaction env rooms roomId messageId userId emoji with
    | none => rfl
    | some reactionId =>
      obtain ⟨reaction, hreaction, hof⟩ :=
        firstReaction_eq_some env rooms roomId messageId userId emoji hfirst
      have hkept := (h.reaction roomId messageId reactionId).trans hreaction
      rw [reaction_removeReactionByEmoji] at hkept
      exact absurd ⟨rfl, rfl, hof⟩ hkept.2
  · intro hnone
    have hother := (firstReaction_eq_none env rooms roomId messageId userId emoji).mp hnone
    refine ⟨fun id id' reactionId => Option.ext fun reaction => ?_, fun id reactionId => ?_⟩
    · rw [reaction_removeReactionByEmoji]
      refine and_iff_left_of_imp fun hreaction => ?_
      rintro ⟨rfl, rfl, hof⟩
      rw [hother reactionId reaction hreaction] at hof
      cases hof
    · rw [message_removeReactionByEmoji, if_neg]
      rintro ⟨-, reaction, hreaction, hof⟩
      rw [hother reactionId reaction hreaction] at hof
      cases hof

end Rooms

/-! ## The outcome -/

section Outcome

variable {M E : Type} (env : String → RoomEnv M) (server : ReactionServer E) (rooms : CachedRooms M)
  (request : Reaction)

/-- The reaction that the request finds. -/
def requestedReaction : Option String :=
  firstReaction env rooms request.roomId request.messageId (server.userIdOf request)
    request.reaction

/-- The rooms after the reactions have been removed from the cache. -/
def roomsWithout : CachedRooms M :=
  (CachedRooms.removeReactionByEmoji env rooms request.roomId request.messageId
    (server.userIdOf request) request.reaction).2

/-- What a request can do. -/
inductive RequestOutcome : RemoveReactionOutcome M E → Prop
  | noRoom {e : E} (h : server.getMatrixRoom request.roomId = .error e) :
    RequestOutcome ⟨.error (.other e), rooms, [], []⟩
  | notFound (hroom : server.getMatrixRoom request.roomId = .ok ())
      (h : requestedReaction env server rooms request = none) :
    RequestOutcome ⟨.error .reactionNotFound, roomsWithout env server rooms request, [], []⟩
  | rejected {reactionId : String} {e : RemoveReactionError E}
      (hroom : server.getMatrixRoom request.roomId = .ok ())
      (h : requestedReaction env server rooms request = some reactionId)
      (hrejects : ¬ server.Accepts request.roomId reactionId) :
    RequestOutcome ⟨.error e, roomsWithout env server rooms request, [], []⟩
  | redacted {reactionId : String} (hroom : server.getMatrixRoom request.roomId = .ok ())
      (h : requestedReaction env server rooms request = some reactionId)
      (haccepts : server.Accepts request.roomId reactionId) :
    RequestOutcome ⟨.ok (), roomsWithout env server rooms request, [reactionId],
      [⟨request.roomId, request.messageId, request.reaction, some (server.userIdOf request)⟩]⟩

theorem removeReaction_outcome :
    RequestOutcome env server rooms request (removeReaction env server rooms request) := by
  have hfirst : (CachedRooms.removeReactionByEmoji env rooms request.roomId request.messageId
      (server.userIdOf request) request.reaction).1.map ReactionMetadata.reactionId
        = requestedReaction env server rooms request := firstReaction_eq ..
  unfold removeReaction
  cases hroom : server.getMatrixRoom request.roomId with
  | error e => exact .noRoom hroom
  | ok _ =>
    cases hremoved : CachedRooms.removeReactionByEmoji env rooms request.roomId request.messageId
        (server.userIdOf request) request.reaction with
    | mk removed rooms' =>
      have hrooms : rooms' = roomsWithout env server rooms request :=
        (congrArg Prod.snd hremoved).symm
      rw [hremoved] at hfirst
      dsimp only
      rw [hremoved, hrooms]
      cases removed with
      | none => exact .notFound hroom hfirst.symm
      | some removed =>
        dsimp only
        by_cases hparse : server.parse removed.reactionId = true
        · rw [if_pos hparse]
          cases hredact : server.redact request.roomId removed.reactionId with
          | error e =>
            refine .rejected hroom hfirst.symm fun haccepts => ?_
            have hredacted := haccepts.2
            rw [hredact] at hredacted
            cases hredacted
          | ok _ => exact .redacted hroom hfirst.symm ⟨hparse, hredact⟩
        · rw [if_neg hparse]
          exact .rejected hroom hfirst.symm fun haccepts => hparse haccepts.1

/-! ## Requests that fail -/

/-- After an error the reactions are cached as before, and a redaction is reported as before. -/
def RestoredOnError : Prop :=
  ∀ e, (removeReaction env server rooms request).result = .error e →
    SameReactions rooms (removeReaction env server rooms request).rooms ∧
      ∀ roomId reactionId,
        (CachedRooms.removeReactionById env (removeReaction env server rooms request).rooms roomId
          reactionId).1 = (CachedRooms.removeReactionById env rooms roomId reactionId).1

theorem reported_of_same {rooms rooms' : CachedRooms M} (h : SameReactions rooms rooms')
    (roomId reactionId : String) :
    (CachedRooms.removeReactionById env rooms' roomId reactionId).1
      = (CachedRooms.removeReactionById env rooms roomId reactionId).1 := by
  rw [removeReactionById_fst, removeReactionById_fst, h.message]
  simp only [h.reaction]

/-- When a request that fails has changed nothing. -/
theorem restored_on_error_iff :
    RestoredOnError env server rooms request ↔
      (∃ e, server.getMatrixRoom request.roomId = .error e) ∨
        ∀ reactionId, requestedReaction env server rooms request = some reactionId →
          server.Accepts request.roomId reactionId := by
  have hsame := sameReactions_removeReactionByEmoji env rooms request.roomId request.messageId
    (server.userIdOf request) request.reaction
  unfold RestoredOnError
  have houtcome := removeReaction_outcome env server rooms request
  generalize removeReaction env server rooms request = outcome at houtcome ⊢
  cases houtcome with
  | noRoom h =>
    exact iff_of_true (fun _ _ => ⟨⟨fun _ _ _ => rfl, fun _ _ => rfl⟩, fun _ _ => rfl⟩)
      (.inl ⟨_, h⟩)
  | notFound hroom h =>
    refine iff_of_true (fun _ _ => ⟨hsame.mpr h, reported_of_same env (hsame.mpr h)⟩)
      (.inr fun reactionId hfound => ?_)
    rw [h] at hfound
    cases hfound
  | rejected hroom h hrejects =>
    refine iff_of_false (fun hrestored => ?_) ?_
    · have hnone := hsame.mp (hrestored _ rfl).1
      cases h.symm.trans hnone
    · rintro (⟨e, he⟩ | haccepts)
      · cases hroom.symm.trans he
      · exact hrejects (haccepts _ h)
  | redacted hroom h haccepts =>
    refine iff_of_true (fun e he => by cases he) (.inr fun reactionId hfound => ?_)
    obtain rfl := Option.some.inj (h.symm.trans hfound)
    exact haccepts

/-! ## Requests that succeed -/

/-- After a success exactly the redacted reactions are not cached any more. -/
structure RemovedAsRedacted (outcome : RemoveReactionOutcome M E) : Prop where
  removed : ∀ reactionId,
    (∃ roomId messageId reaction, rooms.reaction roomId messageId reactionId = some reaction ∧
      outcome.rooms.reaction roomId messageId reactionId = none) ↔ reactionId ∈ outcome.redacted
  added : ∀ roomId messageId reactionId reaction,
    outcome.rooms.reaction roomId messageId reactionId = some reaction →
      rooms.reaction roomId messageId reactionId = some reaction
  others : ∀ roomId messageId reactionId reaction,
    rooms.reaction roomId messageId reactionId = some reaction →
    ¬ (roomId = request.roomId ∧ messageId = request.messageId ∧
      reaction.isOf (server.userIdOf request) request.reaction = true) →
    outcome.rooms.reaction roomId messageId reactionId = some reaction
  index : ∀ roomId reactionId, roomId ≠ request.roomId ∨ reactionId ∉ outcome.redacted →
    outcome.rooms.message roomId reactionId = rooms.message roomId reactionId

/-- There is no second reaction of the user with the emoji on the message. -/
def OnlyReaction (reactionId : String) : Prop :=
  ∀ other reaction, rooms.reaction request.roomId request.messageId other = some reaction →
    reaction.isOf (server.userIdOf request) request.reaction = true → other = reactionId

theorem reaction_roomsWithout (roomId messageId reactionId : String) (reaction : CachedReaction) :
    (roomsWithout env server rooms request).reaction roomId messageId reactionId = some reaction ↔
      rooms.reaction roomId messageId reactionId = some reaction ∧
        ¬ (roomId = request.roomId ∧ messageId = request.messageId ∧
          reaction.isOf (server.userIdOf request) request.reaction = true) :=
  reaction_removeReactionByEmoji env rooms request.roomId request.messageId
    (server.userIdOf request) request.reaction roomId messageId reactionId reaction

/-- A reaction that is gone is one of those that the request is about. -/
theorem gone_iff (reactionId : String) :
    (∃ roomId messageId reaction, rooms.reaction roomId messageId reactionId = some reaction ∧
        (roomsWithout env server rooms request).reaction roomId messageId reactionId = none) ↔
      ∃ reaction, rooms.reaction request.roomId request.messageId reactionId = some reaction ∧
        reaction.isOf (server.userIdOf request) request.reaction = true := by
  have hwithout := reaction_roomsWithout env server rooms request
  constructor
  · rintro ⟨roomId, messageId, reaction, hreaction, hgone⟩
    have hnot : ¬ (roomsWithout env server rooms request).reaction roomId messageId reactionId
        = some reaction := by
      rw [hgone]
      exact fun h => by cases h
    rw [hwithout, not_and, not_not] at hnot
    obtain ⟨rfl, rfl, hof⟩ := hnot hreaction
    exact ⟨reaction, hreaction, hof⟩
  · rintro ⟨reaction, hreaction, hof⟩
    refine ⟨request.roomId, request.messageId, reaction, hreaction, ?_⟩
    refine Option.eq_none_iff_forall_not_mem.mpr fun other hother => ?_
    obtain ⟨hcached, hnot⟩ := (hwithout _ _ _ _).mp hother
    obtain rfl := Option.some.inj (hreaction.symm.trans hcached)
    exact hnot ⟨rfl, rfl, hof⟩

theorem removedAsRedacted_iff {reactionId : String}
    (h : requestedReaction env server rooms request = some reactionId) (sent : List Reaction) :
    RemovedAsRedacted server rooms request
        ⟨.ok (), roomsWithout env server rooms request, [reactionId], sent⟩ ↔
      OnlyReaction server rooms request reactionId := by
  constructor
  · intro hremoved other reaction hreaction hof
    exact List.mem_singleton.mp ((hremoved.removed other).mp
      ((gone_iff env server rooms request other).mpr ⟨reaction, hreaction, hof⟩))
  · intro honly
    refine ⟨fun other => ?_, fun roomId messageId other reaction hreaction => ?_,
      fun roomId messageId other reaction hreaction hnot => ?_, fun roomId other hother => ?_⟩
    · rw [gone_iff, List.mem_singleton]
      constructor
      · rintro ⟨reaction, hreaction, hof⟩
        exact honly other reaction hreaction hof
      · rintro rfl
        exact firstReaction_eq_some env rooms request.roomId request.messageId
          (server.userIdOf request) request.reaction h
    · exact ((reaction_roomsWithout env server rooms request _ _ _ _).mp hreaction).1
    · exact (reaction_roomsWithout env server rooms request _ _ _ _).mpr ⟨hreaction, hnot⟩
    · refine (message_removeReactionByEmoji env rooms request.roomId request.messageId
        (server.userIdOf request) request.reaction roomId other).trans (if_neg ?_)
      rintro ⟨rfl, reaction, hreaction, hof⟩
      rcases hother with hne | hnot
      · exact hne rfl
      · exact hnot (List.mem_singleton.mpr (honly other reaction hreaction hof))

/-- When a request that succeeds has removed what it has redacted. -/
theorem removed_eq_redacted_iff :
    ((removeReaction env server rooms request).result = .ok () →
        RemovedAsRedacted server rooms request (removeReaction env server rooms request)) ↔
      (∃ e, server.getMatrixRoom request.roomId = .error e) ∨
        ∀ reactionId, requestedReaction env server rooms request = some reactionId →
          server.Accepts request.roomId reactionId →
            OnlyReaction server rooms request reactionId := by
  have houtcome := removeReaction_outcome env server rooms request
  generalize removeReaction env server rooms request = outcome at houtcome ⊢
  cases houtcome with
  | noRoom h => exact iff_of_true (fun he => by cases he) (.inl ⟨_, h⟩)
  | notFound hroom h =>
    refine iff_of_true (fun he => by cases he) (.inr fun reactionId hfound => ?_)
    rw [h] at hfound
    cases hfound
  | rejected hroom h hrejects =>
    refine iff_of_true (fun he => by cases he) (.inr fun reactionId hfound haccepts => ?_)
    obtain rfl := Option.some.inj (h.symm.trans hfound)
    exact absurd haccepts hrejects
  | redacted hroom h haccepts =>
    rw [imp_iff_right rfl, removedAsRedacted_iff env server rooms request h]
    constructor
    · intro honly
      refine .inr fun reactionId hfound _ => ?_
      obtain rfl := Option.some.inj (h.symm.trans hfound)
      exact honly
    · rintro (⟨e, he⟩ | honly)
      · cases hroom.symm.trans he
      · exact honly _ h haccepts

end Outcome

/-! ## Bob's hearts -/

/-- A server on which Bob is logged in, and which answers every redaction so. -/
def bobsServer (answer : Except String Unit) : ReactionServer String where
  getMatrixRoom := fun _ => .ok ()
  userId := some "@bob"
  parse := fun _ => true
  redact := fun _ _ => answer

/-- A room in which Bob has hearts of these ids on a message. -/
def heartRoom (reactionIds : List String) : CachedRooms Unit :=
  (∅ : CachedRooms Unit).insert "!r" (reactionIds.foldl
    (fun room reactionId => room.cacheReaction "$hello" reactionId ⟨"@bob", "heart"⟩) (.new ()))

def heartRequest : Reaction := ⟨"!r", "$hello", "heart", none⟩

/-- The server rejects the redaction. The heart is still on the server, but not cached: a second
    request does not find it, and its redaction is not reported. -/
theorem failed_redaction_forgets :
    ¬ RestoredOnError RoomEnv.bare (bobsServer (.error "forbidden")) (heartRoom ["$heart"])
        heartRequest ∧
      requestedReaction RoomEnv.bare (bobsServer (.error "forbidden"))
        (removeReaction RoomEnv.bare (bobsServer (.error "forbidden")) (heartRoom ["$heart"])
          heartRequest).rooms heartRequest = none := by
  refine ⟨fun h => ?_, by rfl⟩
  have hreported := (h (.other "forbidden") (by rfl)).2 "!r" "$heart"
  have hbefore : (CachedRooms.removeReactionById RoomEnv.bare (heartRoom ["$heart"]) "!r"
      "$heart").1 = some ⟨"$heart", "@bob", "heart", "$hello", "!r"⟩ := by rfl
  have hafter : (CachedRooms.removeReactionById RoomEnv.bare
      (removeReaction RoomEnv.bare (bobsServer (.error "forbidden")) (heartRoom ["$heart"])
        heartRequest).rooms "!r" "$heart").1 = none := by rfl
  rw [hbefore, hafter] at hreported
  cases hreported

/-- Both hearts are not cached any more, one is redacted. -/
theorem second_heart_stays :
    ¬ ((removeReaction RoomEnv.bare (bobsServer (.ok ())) (heartRoom ["$one", "$two"])
          heartRequest).result = .ok () →
        RemovedAsRedacted (bobsServer (.ok ())) (heartRoom ["$one", "$two"]) heartRequest
          (removeReaction RoomEnv.bare (bobsServer (.ok ())) (heartRoom ["$one", "$two"])
            heartRequest)) := by
  intro h
  have hgone := (h (by rfl)).removed "$one"
  have hredacted : (removeReaction RoomEnv.bare (bobsServer (.ok ())) (heartRoom ["$one", "$two"])
      heartRequest).redacted = ["$two"] := by rfl
  rw [hredacted] at hgone
  have hmem := hgone.mp ⟨"!r", "$hello", ⟨"@bob", "heart"⟩, by rfl, by rfl⟩
  exact absurd hmem (by decide)

end GoudaMatrix.MemoryCache
