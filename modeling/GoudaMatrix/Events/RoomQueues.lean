/-
  The queued changes of all rooms: `track_room_change`, `is_new_room_change` and
  `exec_queued_room_changes` (`events.rs`), called in any order and for any rooms.

  `trackedSinceFlush` reads off a sequence of calls which changes have been tracked for a room
  since it was flushed. The queue of the room has the last `maxQueuedRoomChanges` of them
  (`queue_executorAfter`), whatever happens to other rooms meanwhile; `queues_hold_last_changes`
  says what this means for a flush and for the de-duplication. The last section connects the
  executor with the queue of a single room (`RoomState`), which the other modules are about.

  `exec_queued_room_changes` awaits between the changes that it sends, but has the executor for
  itself until it returns, and takes the queue out of the map before the first of them.
-/
import Mathlib.Data.List.DropRight
import GoudaMatrix.Events.Executor
import GoudaMatrix.Lib.EvictingQueue
import GoudaMatrix.Lib.HashMap

namespace GoudaMatrix.Events

open GoudaMatrix.Lib

/-! ## The executor -/

/-- A `RoomChangeEvent`: its room, and any other fields. `==` compares all of them. -/
structure RoomChange (F : Type) where
  roomId : String
  fields : F
deriving BEq

theorem RoomChange.beq_eq {F : Type} [BEq F] (a b : RoomChange F) :
    (a == b) = (a.roomId == b.roomId && a.fields == b.fields) := rfl

/-- `EventExecutor`, with the changes that it has sent from its queues. -/
structure EventExecutor (F : Type) where
  roomChanges : HashMap (List (RoomChange F))
  sent : List (RoomChange F)

namespace EventExecutor

variable {F : Type}

def new : EventExecutor F := ⟨∅, []⟩

def trackRoomChange (executor : EventExecutor F) (change : RoomChange F) : EventExecutor F :=
  { executor with
    roomChanges := executor.roomChanges.modifyEntry change.roomId [] fun entry =>
      (if entry.length ≥ maxQueuedRoomChanges then entry.tail else entry) ++ [change] }

def isNewRoomChange [BEq F] (executor : EventExecutor F) (change : RoomChange F) : Bool :=
  match executor.roomChanges.lookup change.roomId with
  | none => true
  | some queue =>
    match queue.getLast? with
    | none => true
    | some old => old != change

def sendEvent (executor : EventExecutor F) (change : RoomChange F) : EventExecutor F :=
  { executor with sent := executor.sent ++ [change] }

def execQueuedRoomChanges (executor : EventExecutor F) (roomId : String) : EventExecutor F :=
  match executor.roomChanges.lookup roomId with
  | none => executor
  | some changes =>
    changes.foldl sendEvent { executor with roomChanges := executor.roomChanges.insert roomId [] }

/-- The queue of a room, which is empty when the map has none. -/
def queue (executor : EventExecutor F) (roomId : String) : List (RoomChange F) :=
  (executor.roomChanges.lookup roomId).getD []

/-! ## What the functions do to the queues -/

theorem queue_trackRoomChange (executor : EventExecutor F) (change : RoomChange F)
    (roomId : String) : (executor.trackRoomChange change).queue roomId
      = if change.roomId = roomId then
          pushEvicting maxQueuedRoomChanges (executor.queue roomId) change
        else executor.queue roomId := by
  simp only [queue, trackRoomChange, HashMap.lookup_modifyEntry]
  by_cases hroom : change.roomId = roomId
  · subst hroom
    rw [if_pos rfl, if_pos rfl]
    rfl
  · rw [if_neg hroom, if_neg (Ne.symm hroom)]

theorem foldl_sendEvent (executor : EventExecutor F) (changes : List (RoomChange F)) :
    changes.foldl sendEvent executor = { executor with sent := executor.sent ++ changes } := by
  induction changes generalizing executor with
  | nil => simp
  | cons change changes ih => simp [ih, sendEvent]

theorem sent_execQueuedRoomChanges (executor : EventExecutor F) (roomId : String) :
    (executor.execQueuedRoomChanges roomId).sent = executor.sent ++ executor.queue roomId := by
  unfold execQueuedRoomChanges queue
  cases executor.roomChanges.lookup roomId with
  | none => exact (List.append_nil executor.sent).symm
  | some changes =>
    dsimp only
    rw [foldl_sendEvent]
    rfl

theorem queue_execQueuedRoomChanges (executor : EventExecutor F) (roomId other : String) :
    (executor.execQueuedRoomChanges roomId).queue other
      = if roomId = other then [] else executor.queue other := by
  unfold execQueuedRoomChanges
  cases hlookup : executor.roomChanges.lookup roomId with
  | none =>
    dsimp only
    split
    · next hroom =>
      subst hroom
      rw [queue, hlookup]
      rfl
    · rfl
  | some changes =>
    dsimp only
    rw [foldl_sendEvent]
    simp only [queue, HashMap.lookup_insert_cases]
    by_cases hroom : roomId = other
    · rw [if_pos hroom, if_pos hroom.symm]
      rfl
    · rw [if_neg hroom, if_neg (Ne.symm hroom)]

theorem isNewRoomChange_eq [BEq F] (executor : EventExecutor F) (change : RoomChange F) :
    executor.isNewRoomChange change
      = (executor.queue change.roomId).getLast?.all fun old => old != change := by
  unfold isNewRoomChange queue
  cases executor.roomChanges.lookup change.roomId with
  | none => rfl
  | some queue =>
    dsimp only [Option.getD_some]
    cases queue.getLast? with
    | none => rfl
    | some old => rfl

end EventExecutor

/-! ## Calls -/

/-- The calls that change the queues. -/
inductive QueueCall (F : Type) where
  | trackRoomChange (change : RoomChange F)
  | execQueuedRoomChanges (roomId : String)

section Calls

variable {F : Type}

def EventExecutor.perform (executor : EventExecutor F) : QueueCall F → EventExecutor F
  | .trackRoomChange change => executor.trackRoomChange change
  | .execQueuedRoomChanges roomId => executor.execQueuedRoomChanges roomId

/-- The executor after the calls, from its creation on. -/
def executorAfter (calls : List (QueueCall F)) : EventExecutor F :=
  calls.foldl EventExecutor.perform .new

namespace QueueCall

/-- The change that the call tracks for the room. -/
def tracked (roomId : String) : QueueCall F → Option (RoomChange F)
  | trackRoomChange change => if change.roomId = roomId then some change else none
  | execQueuedRoomChanges _ => none

def flushes (roomId : String) : QueueCall F → Bool
  | trackRoomChange _ => false
  | execQueuedRoomChanges flushed => flushed = roomId

end QueueCall

/-- The changes tracked for the room since it was flushed last, or since the beginning. -/
def trackedSinceFlush (roomId : String) (calls : List (QueueCall F)) : List (RoomChange F) :=
  (calls.rtakeWhile fun call => !call.flushes roomId).filterMap (QueueCall.tracked roomId)

/-- The last of them, as many as a queue can have, in the order in which they were tracked. -/
def lastTracked (roomId : String) (calls : List (QueueCall F)) : List (RoomChange F) :=
  (trackedSinceFlush roomId calls).rtake
    (min maxQueuedRoomChanges (trackedSinceFlush roomId calls).length)

theorem trackedSinceFlush_track (roomId : String) (calls : List (QueueCall F))
    (change : RoomChange F) : trackedSinceFlush roomId (calls ++ [.trackRoomChange change])
      = if change.roomId = roomId then trackedSinceFlush roomId calls ++ [change]
        else trackedSinceFlush roomId calls := by
  rw [trackedSinceFlush, List.rtakeWhile_concat_pos _ _ _ rfl, List.filterMap_append]
  by_cases hroom : change.roomId = roomId
  · simp [trackedSinceFlush, QueueCall.tracked, hroom]
  · simp [trackedSinceFlush, QueueCall.tracked, hroom]

theorem trackedSinceFlush_flush (roomId : String) (calls : List (QueueCall F)) (flushed : String) :
    trackedSinceFlush roomId (calls ++ [.execQueuedRoomChanges flushed])
      = if flushed = roomId then [] else trackedSinceFlush roomId calls := by
  rw [trackedSinceFlush, List.rtakeWhile_concat]
  by_cases hroom : flushed = roomId
  · simp [QueueCall.flushes, hroom]
  · simp [trackedSinceFlush, QueueCall.flushes, QueueCall.tracked, hroom]

/-- The changes tracked for a room are its own. -/
theorem roomId_of_trackedSinceFlush {roomId : String} {calls : List (QueueCall F)}
    {change : RoomChange F} (h : change ∈ trackedSinceFlush roomId calls) :
    change.roomId = roomId := by
  obtain ⟨call, -, htracked⟩ := List.mem_filterMap.mp h
  cases call with
  | trackRoomChange tracked =>
    simp only [QueueCall.tracked, Option.ite_none_right_eq_some, Option.some.injEq] at htracked
    exact htracked.2 ▸ htracked.1
  | execQueuedRoomChanges _ => cases htracked

/-! ## Runs -/

theorem executorAfter_concat (calls : List (QueueCall F)) (call : QueueCall F) :
    executorAfter (calls ++ [call]) = (executorAfter calls).perform call :=
  List.foldl_concat ..

/-- The calls for other rooms do not matter. -/
theorem queue_executorAfter (roomId : String) (calls : List (QueueCall F)) :
    (executorAfter calls).queue roomId
      = (trackedSinceFlush roomId calls).rtake maxQueuedRoomChanges := by
  induction calls using List.reverseRecOn with
  | nil => rfl
  | append_singleton calls call ih =>
    rw [executorAfter_concat]
    cases call with
    | trackRoomChange change =>
      rw [EventExecutor.perform, EventExecutor.queue_trackRoomChange, trackedSinceFlush_track, ih]
      split
      · exact (rtake_concat (by decide) _ change).symm
      · rfl
    | execQueuedRoomChanges flushed =>
      rw [EventExecutor.perform, EventExecutor.queue_execQueuedRoomChanges,
        trackedSinceFlush_flush, ih]
      split
      · rfl
      · rfl

theorem getLast?_queue_executorAfter (roomId : String) (calls : List (QueueCall F)) :
    ((executorAfter calls).queue roomId).getLast? = (trackedSinceFlush roomId calls).getLast? := by
  rw [queue_executorAfter]
  exact getLast?_rtake (by decide) _

/-- After any calls, the queue of a room has the last changes tracked since its last flush, at most
    `maxQueuedRoomChanges` of them; a flush sends these and empties this queue alone; and a change
    is not new exactly if it is equal to the one tracked last. -/
theorem queues_hold_last_changes [BEq F] (calls : List (QueueCall F)) :
    (∀ roomId, (executorAfter calls).queue roomId = lastTracked roomId calls)
    ∧ (∀ roomId,
        ((executorAfter calls).execQueuedRoomChanges roomId).sent
          = (executorAfter calls).sent ++ lastTracked roomId calls
        ∧ ((executorAfter calls).execQueuedRoomChanges roomId).queue roomId = []
        ∧ ∀ other, other ≠ roomId →
          ((executorAfter calls).execQueuedRoomChanges roomId).queue other
            = (executorAfter calls).queue other)
    ∧ ∀ change, (executorAfter calls).isNewRoomChange change = false
        ↔ ∃ last, (trackedSinceFlush change.roomId calls).getLast? = some last
          ∧ (last == change) = true := by
  have hqueue : ∀ roomId, (executorAfter calls).queue roomId = lastTracked roomId calls := by
    intro roomId
    rw [lastTracked, rtake_min_length, queue_executorAfter]
  refine ⟨hqueue, fun roomId => ⟨?_, ?_, fun other hother => ?_⟩, fun change => ?_⟩
  · rw [EventExecutor.sent_execQueuedRoomChanges, hqueue]
  · rw [EventExecutor.queue_execQueuedRoomChanges, if_pos rfl]
  · rw [EventExecutor.queue_execQueuedRoomChanges, if_neg (Ne.symm hother)]
  · rw [EventExecutor.isNewRoomChange_eq, getLast?_queue_executorAfter]
    cases (trackedSinceFlush change.roomId calls).getLast? with
    | none => simp
    | some last => simp [bne]

end Calls

/-! ## The queue of a single room -/

/-- What the actions of the executor do with the queues. -/
inductive QueueAction where
  /-- The end of `update_room_unread_count` and of `exec_joined_room_update`. -/
  | sendIfNew (change : RoomChange RoomChangeEvent)
  | roomDiscovered (roomId : String)

def QueueAction.calls (executor : EventExecutor RoomChangeEvent) :
    QueueAction → List (QueueCall RoomChangeEvent)
  | sendIfNew change => if executor.isNewRoomChange change then [.trackRoomChange change] else []
  | roomDiscovered roomId => [.execQueuedRoomChanges roomId]

def EventExecutor.handle (executor : EventExecutor RoomChangeEvent) (action : QueueAction) :
    EventExecutor RoomChangeEvent :=
  (action.calls executor).foldl EventExecutor.perform executor

/-- The same for one room, to which the actions for other rooms do nothing. -/
def RoomState.handle (roomId : String) (s : RoomState) : QueueAction → RoomState
  | .sendIfNew change => if change.roomId = roomId then s.sendIfNew change.fields else s
  | .roomDiscovered discovered =>
    if discovered = roomId then runJob s 0 0 .queuedRoomChanges else s

/-- The queue of the `RoomState` is that of the room in the executor. -/
def HasQueueOf (s : RoomState) (executor : EventExecutor RoomChangeEvent) (roomId : String) :
    Prop :=
  s.queue = (executor.queue roomId).map RoomChange.fields

theorem trackRoomChange_eq (queue : List RoomChangeEvent) (change : RoomChangeEvent) :
    trackRoomChange queue change = pushEvicting maxQueuedRoomChanges queue change := rfl

/-- The fields alone decide whether a change of the room is new, since the queue has no change of
    another room. -/
theorem isNewRoomChange_executorAfter (calls : List (QueueCall RoomChangeEvent))
    {s : RoomState} {change : RoomChange RoomChangeEvent}
    (h : HasQueueOf s (executorAfter calls) change.roomId) :
    (executorAfter calls).isNewRoomChange change = isNewRoomChange s.queue change.fields := by
  rw [EventExecutor.isNewRoomChange_eq, isNewRoomChange, h, List.getLast?_map,
    getLast?_queue_executorAfter]
  cases hlast : (trackedSinceFlush change.roomId calls).getLast? with
  | none => rfl
  | some last =>
    have hroom : last.roomId = change.roomId :=
      roomId_of_trackedSinceFlush (List.mem_of_getLast? hlast)
    dsimp only [Option.map_some, Option.all_some]
    rw [bne, RoomChange.beq_eq, hroom, BEq.rfl, Bool.true_and, decide_not]
    rfl

theorem hasQueueOf_track {s : RoomState} {executor : EventExecutor RoomChangeEvent}
    {change : RoomChange RoomChangeEvent} (h : HasQueueOf s executor change.roomId) :
    trackRoomChange s.queue change.fields
      = ((executor.trackRoomChange change).queue change.roomId).map RoomChange.fields := by
  rw [EventExecutor.queue_trackRoomChange, if_pos rfl, map_pushEvicting, ← h, trackRoomChange_eq]

theorem hasQueueOf_handle (calls : List (QueueCall RoomChangeEvent)) {s : RoomState}
    {roomId : String} (h : HasQueueOf s (executorAfter calls) roomId) (action : QueueAction) :
    HasQueueOf (s.handle roomId action) ((executorAfter calls).handle action) roomId := by
  cases action with
  | sendIfNew change =>
    rw [RoomState.handle, EventExecutor.handle, QueueAction.calls]
    by_cases hroom : change.roomId = roomId
    · subst hroom
      rw [if_pos rfl, RoomState.sendIfNew, isNewRoomChange_executorAfter calls h]
      split
      · exact hasQueueOf_track h
      · exact h
    · rw [if_neg hroom]
      split
      · rw [HasQueueOf, h]
        have hother := EventExecutor.queue_trackRoomChange (executorAfter calls) change roomId
        rw [if_neg hroom] at hother
        exact congrArg (List.map RoomChange.fields) hother.symm
      · exact h
  | roomDiscovered discovered =>
    have hqueue :=
      EventExecutor.queue_execQueuedRoomChanges (executorAfter calls) discovered roomId
    rw [RoomState.handle]
    by_cases hroom : discovered = roomId
    · rw [if_pos hroom] at hqueue ⊢
      exact congrArg (List.map RoomChange.fields) hqueue.symm
    · rw [if_neg hroom] at hqueue ⊢
      exact h.trans (congrArg (List.map RoomChange.fields) hqueue.symm)

/-- The `RoomState` of a room has the queue that the executor has for it, whatever is handled for
    other rooms in between. -/
theorem hasQueueOf_run (actions : List QueueAction) (roomId : String) :
    HasQueueOf (actions.foldl (RoomState.handle roomId) .start)
      (actions.foldl EventExecutor.handle .new) roomId := by
  have hrun : ∀ (actions : List QueueAction) (calls : List (QueueCall RoomChangeEvent))
      (s : RoomState), HasQueueOf s (executorAfter calls) roomId →
      HasQueueOf (actions.foldl (RoomState.handle roomId) s)
        (actions.foldl EventExecutor.handle (executorAfter calls)) roomId := by
    intro actions
    induction actions with
    | nil => exact fun _ _ h => h
    | cons action actions ih =>
      intro calls s h
      have hcalls : (executorAfter calls).handle action
          = executorAfter (calls ++ action.calls (executorAfter calls)) :=
        List.foldl_append.symm
      have hnext := hasQueueOf_handle calls h action
      rw [List.foldl_cons, List.foldl_cons, hcalls]
      exact ih _ _ (hcalls ▸ hnext)
  exact hrun actions [] .start rfl

/-- What a flush sends is what the `RoomState` puts into its outbox. -/
theorem sent_roomDiscovered {s : RoomState} {executor : EventExecutor RoomChangeEvent}
    {roomId : String} (h : HasQueueOf s executor roomId) :
    (executor.handle (.roomDiscovered roomId)).sent.map RoomChange.fields
      = executor.sent.map RoomChange.fields
        ++ (s.handle roomId (.roomDiscovered roomId)).outbox := by
  have hsent := EventExecutor.sent_execQueuedRoomChanges executor roomId
  rw [RoomState.handle, if_pos rfl]
  refine (congrArg (List.map RoomChange.fields) hsent).trans ?_
  rw [List.map_append, ← h]
  rfl

end GoudaMatrix.Events
