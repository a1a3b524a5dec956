/-
  The rooms that the application knows, and the membership events of our own user
  (`events.rs`: `exec_room_member_event`), next to the requests about rooms (`client.rs`) and to
  what fills the memory cache (`memory_cache.rs`: `get_or_create_room`).

  `send_room_created_event_if_needed` takes a room for known when it is in the memory cache, from
  which no room is ever removed; a `RoomLeftEvent` does not change that. A room that is joined again
  does not appear, and an accepted invitation or knock is treated like the membership of another
  user (`rejoined_room_unknown`). `joined_rooms_known` is what is needed for the application to know
  every room that our user has joined (`Announced`); `joins_step` says that `joins` has them all.
-/
import GoudaMatrix.Lib.Run
import GoudaMatrix.MemoryCache.Room

namespace GoudaMatrix.Events

open GoudaMatrix.Lib GoudaMatrix.Ruma GoudaMatrix.MemoryCache

/-! ## Chat -/

inductive UserRoomState where
  | joined
  | invited
  | knocked
  | banned
  | unjoined
deriving DecidableEq, Repr

structure Room where
  roomId : String
  userIdList : HashMap UserRoomState

inductive RoomLeaveReason where
  | user
  | kicked
  | banned
deriving DecidableEq, Repr

structure RoomLeftEvent where
  roomId : String
  reason : RoomLeaveReason
  message : Option String
deriving DecidableEq, Repr

/-- What the application receives about rooms, as events and as responses. -/
inductive RoomOutput where
  | roomCreated (room : Room)
  | roomList (roomList : List Room)
  | roomResponse (room : Room)
  | roomLeft (event : RoomLeftEvent)
  /-- A `RoomChangeEvent` with the members. -/
  | roomChange (roomId : String) (userIdList : HashMap UserRoomState)
  | messageReceived (message : Message)

/-- The output has the room. -/
def RoomOutput.shows (roomId : String) : RoomOutput → Bool
  | .roomCreated room | .roomResponse room => room.roomId = roomId
  | .roomList rooms => rooms.any fun room => room.roomId = roomId
  | .roomLeft _ | .roomChange _ _ | .messageReceived _ => false

def RoomOutput.leaves (roomId : String) : RoomOutput → Bool
  | .roomLeft event => event.roomId = roomId
  | _ => false

/-- The application has received the room since its last `RoomLeftEvent`. -/
def Knows (outputs : List RoomOutput) (roomId : String) : Prop :=
  ∃ earlier later, outputs = earlier ++ later ∧ (∀ output ∈ later, output.leaves roomId = false) ∧
    ∃ output ∈ later, output.shows roomId = true

/-! ## State -/

/-- `OriginalSyncRoomMemberEvent`. -/
structure RoomMemberEvent where
  eventId : String
  sender : String
  originServerTs : Nat
  stateKey : String
  membershipChange : MemberChange
  reason : Option String
deriving DecidableEq, Repr

/-- What the executor awaits. -/
inductive Executing where
  | idle
  /-- `assemble_chat_room`, for a room that our user has joined. -/
  | assembling (roomId : String)
  /-- `get_room_members`. -/
  | loadingMembers (roomId : String) (event : RoomMemberEvent)
deriving DecidableEq

structure RoomsState where
  /-- The keys of `cached_rooms`. -/
  cachedRooms : List String
  executing : Executing
  outputs : List RoomOutput
  /-- The rooms that our user has joined, each with the outputs when the membership event had been
      handled (history variable). -/
  joins : List (String × List RoomOutput)

def RoomsState.start : RoomsState := ⟨[], .idle, [], []⟩

section Rooms

variable (userId : String)

namespace RoomsState

variable (s : RoomsState)

def isKnownRoom (roomId : String) : Bool := roomId ∈ s.cachedRooms

def getOrCreateRoom (roomId : String) : RoomsState :=
  if roomId ∈ s.cachedRooms then s else { s with cachedRooms := roomId :: s.cachedRooms }

def send (output : RoomOutput) : RoomsState := { s with outputs := s.outputs ++ [output] }

/-- `assemble_chat_room`, from the members; `none` for an error. -/
def assembleChatRoom (roomId : String) (members : Option (HashMap UserRoomState)) : Option Room :=
  members.map fun userIdList => ⟨roomId, userIdList⟩

/-- A membership event by which our user has joined the room has been handled. -/
def joined (roomId : String) : RoomsState :=
  { s with executing := .idle, joins := s.joins ++ [(roomId, s.outputs)] }

/-! ## Membership events -/

/-- `send_room_created_event_if_needed`, up to the assembly of the room. -/
def sendRoomCreatedEventIfNeeded (roomId : String) : RoomsState :=
  if s.isKnownRoom roomId then s.joined roomId else { s with executing := .assembling roomId }

/-- The rest of `send_room_created_event_if_needed`. -/
def roomAssembled (roomId : String) (members : Option (HashMap UserRoomState)) : RoomsState :=
  match assembleChatRoom roomId members with
  | none => s.joined roomId
  | some proto => (s.send (.roomCreated proto)).joined roomId

def processOwnLeaveChange (roomId : String) (event : RoomMemberEvent) (reason : RoomLeaveReason) :
    RoomsState :=
  s.send (.roomLeft ⟨roomId, reason, event.reason⟩)

/-- `none` for a change that is treated like any other. -/
def processOwnMembershipChange (roomId : String) (event : RoomMemberEvent) : Option RoomsState :=
  match event.membershipChange with
  | .left => some (s.processOwnLeaveChange roomId event .user)
  | .kicked => some (s.processOwnLeaveChange roomId event .kicked)
  | .banned | .kickedAndBanned => some (s.processOwnLeaveChange roomId event .banned)
  | .joined => some (s.sendRoomCreatedEventIfNeeded roomId)
  | _ => none

/-- `exec_room_member_event`, up to its first await. A profile change is about the user, not about
    the room. -/
def execRoomMemberEvent (roomId : String) (event : RoomMemberEvent) : RoomsState :=
  match if event.stateKey = userId then s.processOwnMembershipChange roomId event else none with
  | some handled => handled
  | none =>
    if event.membershipChange = .profileChanged then s
    else { s with executing := .loadingMembers roomId event }

/-- The message of a membership change. -/
def membershipMessage (roomId : String) (event : RoomMemberEvent) (change : MembershipChange) :
    Message :=
  { Message.new roomId event.eventId event.sender event.originServerTs with
    content := some (.membershipChange change event.stateKey) }

/-- Our user becomes joined: it has joined, or its invitation or knock has been accepted. -/
def becomesJoined (event : RoomMemberEvent) : Bool :=
  event.stateKey = userId && tryIntoChat event.membershipChange = some .joined

/-- The event has been handled. -/
def handled (roomId : String) (event : RoomMemberEvent) : RoomsState :=
  if becomesJoined userId event then s.joined roomId else { s with executing := .idle }

/-- The rest of `exec_room_member_event`, once the members are there. -/
def membersLoaded (roomId : String) (event : RoomMemberEvent)
    (members : Option (HashMap UserRoomState)) : RoomsState :=
  match members with
  | none => s.handled userId roomId event
  | some members =>
    match tryIntoChat event.membershipChange with
    | none => (s.send (.roomChange roomId members)).handled userId roomId event
    | some change =>
      ((s.send (.roomChange roomId members)).send
        (.messageReceived (membershipMessage roomId event change))).handled userId roomId event

/-! ## Requests -/

/-- `get_rooms`, for the rooms that could be fetched. -/
def listedRooms (includeJoined includeUnjoined : Bool) (rooms : List Room) : List Room :=
  rooms.filter fun room =>
    let joined := room.userIdList.lookup userId = some .joined
    includeJoined && joined || includeUnjoined && !joined

end RoomsState

inductive RoomAction where
  /-- The executor handles a membership event. -/
  | execRoomMemberEvent (roomId : String) (event : RoomMemberEvent)
  | roomAssembled (members : Option (HashMap UserRoomState))
  | membersLoaded (members : Option (HashMap UserRoomState))
  /-- A live message or reaction, a receipt, a history fetch, `mark_as_read`: what caches something
      about the room. -/
  | getOrCreateRoom (roomId : String)
  /-- `leave_room` returns. -/
  | leaveRoom (roomId : String)
  /-- `invitation_reply` has joined the room. -/
  | invitationReply (roomId : String) (members : Option (HashMap UserRoomState))
  | getRooms (includeJoined includeUnjoined : Bool) (rooms : List Room)
  /-- `join_room`, `create_group_room` or `create_direct_room` has joined the room. -/
  | respondRoom (roomId : String) (members : Option (HashMap UserRoomState))

def roomsSystem : System RoomsState RoomAction where
  step s
    | .execRoomMemberEvent roomId event =>
      if s.executing = .idle then some (s.execRoomMemberEvent userId roomId event) else none
    | .roomAssembled members =>
      match s.executing with
      | .assembling roomId => some (s.roomAssembled roomId members)
      | _ => none
    | .membersLoaded members =>
      match s.executing with
      | .loadingMembers roomId event => some (s.membersLoaded userId roomId event members)
      | _ => none
    | .getOrCreateRoom roomId => some (s.getOrCreateRoom roomId)
    | .leaveRoom roomId => some (s.send (.roomLeft ⟨roomId, .user, none⟩))
    | .invitationReply roomId members =>
      match RoomsState.assembleChatRoom roomId members with
      | none => some s
      | some proto => some (s.send (.roomCreated proto))
    | .getRooms includeJoined includeUnjoined rooms =>
      some (s.send (.roomList (RoomsState.listedRooms userId includeJoined includeUnjoined rooms)))
    | .respondRoom roomId members =>
      match RoomsState.assembleChatRoom roomId members with
      | none => some s
      | some proto => some (s.send (.roomResponse proto))

/-! ## What the application knows -/

/-- `Knows`, computed from the first output on. -/
def knows (outputs : List RoomOutput) (roomId : String) : Bool :=
  outputs.foldl (fun known output =>
    if output.leaves roomId then false else known || output.shows roomId) false

theorem leaves_of_shows {output : RoomOutput} {roomId : String} (h : output.shows roomId = true) :
    output.leaves roomId = false := by
  cases output with
  | roomLeft event => cases h
  | roomCreated | roomList | roomResponse | roomChange | messageReceived => rfl

theorem knows_of_shows {output : RoomOutput} {roomId : String} (outputs : List RoomOutput)
    (h : output.shows roomId = true) : Knows (outputs ++ [output]) roomId := by
  refine ⟨outputs, [output], rfl, ?_, output, List.mem_singleton_self _, h⟩
  rintro _ hmem
  rw [List.mem_singleton.mp hmem]
  exact leaves_of_shows h

theorem knows_append {output : RoomOutput} {outputs : List RoomOutput} {roomId : String}
    (h : Knows outputs roomId) (hstays : output.leaves roomId = false) :
    Knows (outputs ++ [output]) roomId := by
  obtain ⟨earlier, later, rfl, hlater, shown, hmem, hshows⟩ := h
  refine ⟨earlier, later ++ [output], List.append_assoc _ _ _, ?_, shown,
    List.mem_append_left _ hmem, hshows⟩
  intro output' hmem'
  rcases List.mem_append.mp hmem' with hmem' | hmem'
  · exact hlater output' hmem'
  · rw [List.mem_singleton.mp hmem']
    exact hstays

theorem knows_iff (outputs : List RoomOutput) (roomId : String) :
    knows outputs roomId = true ↔ Knows outputs roomId := by
  induction outputs using List.reverseRecOn with
  | nil =>
    refine ⟨nofun, ?_⟩
    rintro ⟨earlier, later, heq, -, output, hmem, -⟩
    rw [(List.append_eq_nil_iff.mp heq.symm).2] at hmem
    cases hmem
  | append_singleton outputs output ih =>
    have hfold : knows (outputs ++ [output]) roomId
        = if output.leaves roomId then false else knows outputs roomId || output.shows roomId := by
      simp only [knows, List.foldl_append, List.foldl_cons, List.foldl_nil]
    rw [hfold]
    constructor
    · intro h
      split at h
      · cases h
      · next hstays =>
        rcases Bool.or_eq_true_iff.mp h with h | h
        · exact knows_append (ih.mp h) (Bool.eq_false_iff.mpr hstays)
        · exact knows_of_shows outputs h
    · rintro ⟨earlier, later, heq, hlater, shown, hmem, hshows⟩
      obtain ⟨later, rfl⟩ : ∃ later', later = later' ++ [output] := by
        rcases List.eq_nil_or_concat later with rfl | ⟨later', last, rfl⟩
        · cases hmem
        · rw [List.concat_eq_append, ← List.append_assoc] at heq
          exact ⟨later', by rw [List.concat_eq_append, (List.append_inj' heq rfl).2]⟩
      rw [← List.append_assoc] at heq
      obtain rfl := (List.append_inj' heq rfl).1
      rw [if_neg (Bool.eq_false_iff.mp (hlater output (by simp)))]
      rcases List.mem_append.mp hmem with hmem | hmem
      · have hknown := ih.mpr ⟨earlier, later, rfl,
          fun output' h => hlater output' (List.mem_append_left _ h), shown, hmem, hshows⟩
        rw [hknown, Bool.true_or]
      · rw [← List.mem_singleton.mp hmem, hshows, Bool.or_true]

instance (outputs : List RoomOutput) (roomId : String) : Decidable (Knows outputs roomId) :=
  decidable_of_iff _ (knows_iff outputs roomId)

/-! ## The condition -/

/-- The executor is about to finish with a membership event by which our user becomes joined without
    looking at the memory cache. -/
def RoomsState.accepting (s : RoomsState) : Option String :=
  match s.executing with
  | .loadingMembers roomId event => if becomesJoined userId event then some roomId else none
  | .idle | .assembling _ => none

/-- A room is cached only while the application knows it. A room that our user joins has not been
    left before, if it is cached, and can be assembled otherwise; an accepted invitation or knock is
    one of a room that the application knows. -/
def Announced (s : RoomsState) : RoomAction → Prop
  | .execRoomMemberEvent roomId event =>
    event.stateKey = userId → event.membershipChange = .joined → roomId ∈ s.cachedRooms →
      ∀ output ∈ s.outputs, output.leaves roomId = false
  | .roomAssembled members => members.isSome = true
  | .membersLoaded _ => ∀ roomId ∈ s.accepting userId, Knows s.outputs roomId
  | .getOrCreateRoom roomId => roomId ∈ s.cachedRooms ∨ Knows s.outputs roomId
  | .leaveRoom _ | .invitationReply _ _ | .getRooms _ _ _ | .respondRoom _ _ => True

instance (s : RoomsState) (action : RoomAction) : Decidable (Announced userId s action) :=
  match action with
  | .execRoomMemberEvent roomId event => inferInstanceAs (Decidable (event.stateKey = userId →
      event.membershipChange = .joined → roomId ∈ s.cachedRooms →
        ∀ output ∈ s.outputs, output.leaves roomId = false))
  | .roomAssembled members => inferInstanceAs (Decidable (members.isSome = true))
  | .membersLoaded _ =>
    inferInstanceAs (Decidable (∀ roomId ∈ s.accepting userId, Knows s.outputs roomId))
  | .getOrCreateRoom roomId =>
    inferInstanceAs (Decidable (roomId ∈ s.cachedRooms ∨ Knows s.outputs roomId))
  | .leaveRoom _ | .invitationReply _ _ | .getRooms _ _ _ | .respondRoom _ _ => isTrue trivial

/-- The room that our user has joined once the executor is through with the step. -/
def RoomsState.joining (s : RoomsState) : RoomAction → Option String
  | .execRoomMemberEvent roomId event => if becomesJoined userId event then some roomId else none
  | .roomAssembled _ =>
    match s.executing with
    | .assembling roomId => some roomId
    | .idle | .loadingMembers _ _ => none
  | .membersLoaded _ => s.accepting userId
  | .getOrCreateRoom _ | .leaveRoom _ | .invitationReply _ _ | .getRooms _ _ _ | .respondRoom _ _ =>
    none

/-! ## The invariant -/

structure RoomsState.Inv (s : RoomsState) : Prop where
  /-- A cached room that has not been left is known. -/
  cached : ∀ roomId ∈ s.cachedRooms, (∀ output ∈ s.outputs, output.leaves roomId = false) →
    Knows s.outputs roomId
  joins : ∀ join ∈ s.joins, Knows join.2 join.1

namespace RoomsState

variable {userId} {s : RoomsState}

theorem inv_start : start.Inv := ⟨nofun, nofun⟩

theorem Inv.send (h : s.Inv) (output : RoomOutput) : (s.send output).Inv where
  cached roomId hmem hstays := by
    have hbefore : ∀ output ∈ s.outputs, output.leaves roomId = false :=
      fun output hmem => hstays output (List.mem_append_left _ hmem)
    exact knows_append (h.cached roomId hmem hbefore)
      (hstays output (List.mem_append_right _ (List.mem_singleton_self _)))
  joins := h.joins

theorem Inv.getOrCreateRoom (h : s.Inv) {roomId : String}
    (hknown : roomId ∈ s.cachedRooms ∨ Knows s.outputs roomId) :
    (s.getOrCreateRoom roomId).Inv := by
  unfold RoomsState.getOrCreateRoom
  split
  · exact h
  · next hmem =>
    refine ⟨fun other hother hstays => ?_, h.joins⟩
    rcases List.mem_cons.mp hother with rfl | hother
    · exact hknown.resolve_left hmem
    · exact h.cached other hother hstays

theorem Inv.joined (h : s.Inv) {roomId : String} (hknown : Knows s.outputs roomId) :
    (s.joined roomId).Inv where
  cached := h.cached
  joins join hmem := by
    rcases List.mem_append.mp hmem with hmem | hmem
    · exact h.joins join hmem
    · rw [List.mem_singleton.mp hmem]
      exact hknown

theorem Inv.executing (h : s.Inv) (executing : Executing) : { s with executing }.Inv :=
  ⟨h.cached, h.joins⟩

theorem Inv.sendRoomCreatedEventIfNeeded (h : s.Inv) {roomId : String}
    (hstays : roomId ∈ s.cachedRooms → ∀ output ∈ s.outputs, output.leaves roomId = false) :
    (s.sendRoomCreatedEventIfNeeded roomId).Inv := by
  unfold RoomsState.sendRoomCreatedEventIfNeeded
  split
  · next hknown =>
    have hmem : roomId ∈ s.cachedRooms := of_decide_eq_true hknown
    exact h.joined (h.cached roomId hmem (hstays hmem))
  · exact h.executing _

theorem Inv.roomAssembled (h : s.Inv) {roomId : String}
    {members : Option (HashMap UserRoomState)} (hassembled : members.isSome = true) :
    (s.roomAssembled roomId members).Inv := by
  obtain ⟨userIdList, rfl⟩ := Option.isSome_iff_exists.mp hassembled
  exact (h.send _).joined (knows_of_shows s.outputs (decide_eq_true rfl))

theorem Inv.execRoomMemberEvent (h : s.Inv) {roomId : String} {event : RoomMemberEvent}
    (hannounced : Announced userId s (.execRoomMemberEvent roomId event)) :
    (s.execRoomMemberEvent userId roomId event).Inv := by
  have hother : (if event.membershipChange = .profileChanged then s
      else { s with executing := .loadingMembers roomId event }).Inv := by
    split
    · exact h
    · exact h.executing _
  unfold RoomsState.execRoomMemberEvent
  by_cases hown : event.stateKey = userId
  · rw [if_pos hown]
    unfold RoomsState.processOwnMembershipChange
    cases hchange : event.membershipChange with
    | left | kicked | banned | kickedAndBanned => exact h.send _
    | joined => exact h.sendRoomCreatedEventIfNeeded (hannounced hown hchange)
    | none | error | unbanned | invited | invitationAccepted | invitationRejected
    | invitationRevoked | knocked | knockAccepted | knockRetracted | knockDenied | profileChanged
    | notImplemented =>
      rw [hchange] at hother
      exact hother
  · rw [if_neg hown]
    exact hother

theorem Inv.handled (h : s.Inv) {roomId : String} {event : RoomMemberEvent}
    (hknown : becomesJoined userId event = true → Knows s.outputs roomId) :
    (s.handled userId roomId event).Inv := by
  unfold RoomsState.handled
  split
  · next hjoined => exact h.joined (hknown hjoined)
  · exact h.executing _

theorem Inv.membersLoaded (h : s.Inv) {roomId : String} {event : RoomMemberEvent}
    (members : Option (HashMap UserRoomState))
    (hknown : becomesJoined userId event = true → Knows s.outputs roomId) :
    (s.membersLoaded userId roomId event members).Inv := by
  unfold RoomsState.membersLoaded
  split
  · exact h.handled hknown
  · split
    · exact (h.send _).handled fun hjoined => knows_append (hknown hjoined) rfl
    · exact ((h.send _).send _).handled fun hjoined =>
        knows_append (knows_append (hknown hjoined) rfl) rfl

theorem joins_handled (roomId : String) (event : RoomMemberEvent) :
    (s.handled userId roomId event).joins
      = s.joins ++ (if becomesJoined userId event then [(roomId, s.outputs)] else []) := by
  unfold RoomsState.handled
  split
  · rfl
  · exact (List.append_nil _).symm

theorem outputs_handled (roomId : String) (event : RoomMemberEvent) :
    (s.handled userId roomId event).outputs = s.outputs := by
  unfold RoomsState.handled
  split <;> rfl

/-- A membership event that has been handled without an await. -/
theorem joins_execRoomMemberEvent (roomId : String) (event : RoomMemberEvent)
    (hidle : (s.execRoomMemberEvent userId roomId event).executing = .idle) :
    (s.execRoomMemberEvent userId roomId event).joins
      = s.joins ++ (if becomesJoined userId event then some roomId else none).toList.map
          fun joined => (joined, (s.execRoomMemberEvent userId roomId event).outputs) := by
  obtain ⟨eventId, sender, ts, stateKey, change, reason⟩ := event
  by_cases hown : stateKey = userId
  · subst hown
    cases change with
    | joined =>
      cases hknown : s.isKnownRoom roomId with
      | true => simp [RoomsState.execRoomMemberEvent, processOwnMembershipChange,
          sendRoomCreatedEventIfNeeded, hknown, becomesJoined, tryIntoChat, RoomsState.joined]
      | false => simp [RoomsState.execRoomMemberEvent, processOwnMembershipChange,
          sendRoomCreatedEventIfNeeded, hknown] at hidle
    | left | kicked | banned | kickedAndBanned | profileChanged =>
      simp [RoomsState.execRoomMemberEvent, processOwnMembershipChange, processOwnLeaveChange,
        becomesJoined, tryIntoChat, RoomsState.send]
    | none | error | unbanned | invited | invitationAccepted | invitationRejected
    | invitationRevoked | knocked | knockAccepted | knockRetracted | knockDenied
    | notImplemented =>
      simp [RoomsState.execRoomMemberEvent, processOwnMembershipChange] at hidle
  · have hother : becomesJoined userId ⟨eventId, sender, ts, stateKey, change, reason⟩ = false := by
      simp [becomesJoined, hown]
    rw [hother]
    unfold RoomsState.execRoomMemberEvent at hidle ⊢
    simp only [if_neg hown] at hidle ⊢
    split at hidle
    · next hprofile => simp [hprofile]
    · cases hidle

/-- `joins` gets every room that our user has joined, when the event has been handled. -/
theorem joins_step {action : RoomAction} {t : RoomsState}
    (hstep : (roomsSystem userId).step s action = some t) (hidle : t.executing = .idle) :
    t.joins = s.joins ++ (s.joining userId action).toList.map fun roomId =>
      (roomId, t.outputs) := by
  cases action with
  | execRoomMemberEvent roomId event =>
    simp only [roomsSystem] at hstep
    split at hstep
    · obtain rfl := Option.some.inj hstep
      simp only [joining]
      exact joins_execRoomMemberEvent roomId event hidle
    · cases hstep
  | roomAssembled members =>
    simp only [roomsSystem] at hstep
    split at hstep
    · next roomId hexecuting =>
      obtain rfl := Option.some.inj hstep
      simp only [joining, hexecuting, RoomsState.roomAssembled]
      split <;> rfl
    · cases hstep
  | membersLoaded members =>
    simp only [roomsSystem] at hstep
    split at hstep
    · next roomId event hexecuting =>
      obtain rfl := Option.some.inj hstep
      have haccepting : s.joining userId (.membersLoaded members)
          = if becomesJoined userId event then some roomId else none := by
        simp only [joining, accepting, hexecuting]
      rw [haccepting]
      unfold RoomsState.membersLoaded
      split
      · rw [joins_handled, outputs_handled]
        split <;> rfl
      · split
        · rw [joins_handled, outputs_handled]
          split <;> rfl
        · rw [joins_handled, outputs_handled]
          split <;> rfl
    · cases hstep
  | getOrCreateRoom roomId =>
    obtain rfl := Option.some.inj hstep
    simp only [joining, RoomsState.getOrCreateRoom]
    split <;> simp
  | leaveRoom roomId | getRooms includeJoined includeUnjoined rooms =>
    obtain rfl := Option.some.inj hstep
    exact (List.append_nil _).symm
  | invitationReply roomId members | respondRoom roomId members =>
    simp only [roomsSystem] at hstep
    split at hstep
    · obtain rfl := Option.some.inj hstep
      exact (List.append_nil _).symm
    · obtain rfl := Option.some.inj hstep
      exact (List.append_nil _).symm

theorem inv_step {action : RoomAction} {t : RoomsState} (h : s.Inv)
    (hannounced : Announced userId s action)
    (hstep : (roomsSystem userId).step s action = some t) : t.Inv := by
  cases action with
  | execRoomMemberEvent roomId event =>
    simp only [roomsSystem] at hstep
    split at hstep
    · obtain rfl := Option.some.inj hstep
      exact h.execRoomMemberEvent hannounced
    · cases hstep
  | roomAssembled members =>
    simp only [roomsSystem] at hstep
    split at hstep
    · obtain rfl := Option.some.inj hstep
      exact h.roomAssembled hannounced
    · cases hstep
  | membersLoaded members =>
    simp only [roomsSystem] at hstep
    split at hstep
    · next roomId event hexecuting =>
      obtain rfl := Option.some.inj hstep
      refine h.membersLoaded members fun hjoined => hannounced roomId ?_
      simp [RoomsState.accepting, hexecuting, hjoined]
    · cases hstep
  | getOrCreateRoom roomId =>
    obtain rfl := Option.some.inj hstep
    exact h.getOrCreateRoom hannounced
  | leaveRoom roomId =>
    obtain rfl := Option.some.inj hstep
    exact h.send _
  | invitationReply roomId members | respondRoom roomId members =>
    simp only [roomsSystem] at hstep
    split at hstep
    · obtain rfl := Option.some.inj hstep
      exact h
    · obtain rfl := Option.some.inj hstep
      exact h.send _
  | getRooms includeJoined includeUnjoined rooms =>
    obtain rfl := Option.some.inj hstep
    exact h.send _

end RoomsState

/-- Whenever a membership event by which our user becomes joined has been handled, the application
    knows the room. -/
theorem joined_rooms_known {actions : List RoomAction} {t : RoomsState}
    (hannounced : (roomsSystem userId).Meets (Announced userId) .start actions)
    (hrun : (roomsSystem userId).run .start actions = some t) :
    ∀ join ∈ t.joins, Knows join.2 join.1 :=
  ((roomsSystem userId).inv_of_run (fun _ _ _ => RoomsState.inv_step) RoomsState.inv_start
    hannounced hrun).joins

end Rooms

/-! ## Runs of alice -/

def alice : String := "@alice:hs"

def aliceEvent (eventId : String) (change : MemberChange) : RoomMemberEvent :=
  ⟨eventId, alice, 10, alice, change, none⟩

def aliceJoined : HashMap UserRoomState := AList.singleton alice .joined

/-- Alice joins a room, of which a message is cached, leaves it, and joins it again. -/
def rejoin : List RoomAction :=
  [.execRoomMemberEvent "!r" (aliceEvent "$join" .joined), .roomAssembled (some aliceJoined),
    .getOrCreateRoom "!r", .execRoomMemberEvent "!r" (aliceEvent "$leave" .left),
    .execRoomMemberEvent "!r" (aliceEvent "$rejoin" .joined)]

/-- Alice accepts an invitation on another device. -/
def acceptElsewhere : List RoomAction :=
  [.execRoomMemberEvent "!r" (aliceEvent "$accept" .invitationAccepted),
    .membersLoaded (some aliceJoined)]

/-- Whether the application knows the room when each membership event has been handled: not after
    alice has joined it again, and not after she has accepted the invitation. -/
theorem rejoined_room_unknown :
    let known := fun actions => ((roomsSystem alice).run .start actions).map fun s =>
      s.joins.map fun join => (join.1, decide (Knows join.2 join.1))
    known rejoin = some [("!r", true), ("!r", false)] ∧
      known acceptElsewhere = some [("!r", false)] := by
  decide +kernel

/-- The room is in the response of `join_room` before the membership event comes; another one is
    joined on another device. -/
def joinTwoRooms : List RoomAction :=
  [.respondRoom "!r" (some aliceJoined), .getOrCreateRoom "!r",
    .execRoomMemberEvent "!r" (aliceEvent "$join" .joined),
    .execRoomMemberEvent "!q" (aliceEvent "$elsewhere" .joined), .roomAssembled (some aliceJoined),
    .leaveRoom "!r"]

theorem isSome_joinTwoRooms : ((roomsSystem alice).run .start joinTwoRooms).isSome := by
  decide +kernel

theorem joined_rooms_known_two :
    ∃ s, (roomsSystem alice).run .start joinTwoRooms = some s ∧
      s.joins.map Prod.fst = ["!r", "!q"] ∧ ∀ join ∈ s.joins, Knows join.2 join.1 := by
  have hrun := (Option.some_get isSome_joinTwoRooms).symm
  have hjoins : (Option.get _ isSome_joinTwoRooms).joins.map Prod.fst = ["!r", "!q"] := by
    decide +kernel
  exact ⟨_, hrun, hjoins, joined_rooms_known alice (by decide +kernel) hrun⟩

end GoudaMatrix.Events
