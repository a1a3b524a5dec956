/-
  The replay of queued room changes (`exec_queued_room_changes`) and the values that other paths
  deliver: `mark_as_read`, live message events, history fetches and the rooms of a room list.

  `expected` is a history variable of a replay: the room as the application would have it without
  the replayed changes, with everything that other paths deliver meanwhile. `replays` keeps it
  next to the view at the end of the replay. `stale_replay` is a room that is marked as read and
  then discovered: the replay sends the old unread count again. `replays_keep_view` is what is
  needed for that not to happen (`ReplayAgrees`). The typing list needs no condition, because
  only tracked changes set it (`typing_of_queue`).
-/
import GoudaMatrix.Events.Executor

namespace GoudaMatrix.Events

open GoudaMatrix.Lib GoudaMatrix.MemoryCache

/-! ## Changes in a row -/

/-- The change that sets what the two changes set, the second one last. -/
def RoomChangeEvent.followedBy (first second : RoomChangeEvent) : RoomChangeEvent where
  unreadCount := second.unreadCount <|> first.unreadCount
  typingUserIdList := second.typingUserIdList <|> first.typingUserIdList
  readMarker := some (second.readMarker.getD ∅ ∪ first.readMarker.getD ∅)

/-- The last value that each field is set to. -/
def lastValues (changes : List RoomChangeEvent) : RoomChangeEvent :=
  changes.foldl RoomChangeEvent.followedBy ⟨none, none, some ∅⟩

/-- The two changes set no field, and no read marker, to different values. -/
structure Compatible (a b : RoomChangeEvent) : Prop where
  unreadCount : ∀ n ∈ a.unreadCount, ∀ m ∈ b.unreadCount, n = m
  typingUserIdList : ∀ users ∈ a.typingUserIdList, ∀ users' ∈ b.typingUserIdList, users = users'
  readMarker : a.readMarker.getD ∅ ∪ b.readMarker.getD ∅ = b.readMarker.getD ∅ ∪ a.readMarker.getD ∅

theorem compatible_iff (a b : RoomChangeEvent) :
    Compatible a b ↔ (∀ n ∈ a.unreadCount, ∀ m ∈ b.unreadCount, n = m) ∧
      (∀ users ∈ a.typingUserIdList, ∀ users' ∈ b.typingUserIdList, users = users') ∧
      a.readMarker.getD ∅ ∪ b.readMarker.getD ∅ = b.readMarker.getD ∅ ∪ a.readMarker.getD ∅ :=
  ⟨fun h => ⟨h.1, h.2, h.3⟩, fun h => ⟨h.1, h.2.1, h.2.2⟩⟩

instance (a b : RoomChangeEvent) : Decidable (Compatible a b) :=
  decidable_of_iff _ (compatible_iff a b).symm

theorem apply_followedBy (view : RoomView) (a b : RoomChangeEvent) :
    view.apply (a.followedBy b) = (view.apply a).apply b := by
  obtain ⟨unread, typing, markers⟩ := b
  cases unread <;> cases typing <;>
    simp [RoomView.apply, RoomChangeEvent.followedBy, Finmap.union_assoc]

theorem foldl_followedBy (a : RoomChangeEvent) (changes : List RoomChangeEvent) (view : RoomView) :
    view.apply (changes.foldl RoomChangeEvent.followedBy a)
      = changes.foldl RoomView.apply (view.apply a) := by
  induction changes generalizing a with
  | nil => rfl
  | cons change changes ih => rw [List.foldl_cons, ih, apply_followedBy, List.foldl_cons]

theorem apply_lastValues (view : RoomView) (changes : List RoomChangeEvent) :
    view.apply (lastValues changes) = changes.foldl RoomView.apply view := by
  have hnone : view.apply ⟨none, none, some ∅⟩ = view := by simp [RoomView.apply]
  rw [lastValues, foldl_followedBy, hnone]

/-- A change whose values the view has changes nothing. -/
theorem apply_eq_self_iff (view : RoomView) (change : RoomChangeEvent) :
    view.apply change = view ↔ view.Has change := by
  obtain ⟨unread, typing, markers⟩ := change
  obtain ⟨viewUnread, viewTyping, viewMarkers⟩ := view
  rw [RoomView.has_iff]
  cases unread <;> cases typing <;> cases markers <;> simp [RoomView.apply, eq_comm]

/-- An undisturbed replay keeps the view exactly if the last queued values are those of the
    view. -/
theorem foldl_queue_eq_iff (view : RoomView) (queue : List RoomChangeEvent) :
    queue.foldl RoomView.apply view = view ↔ view.Has (lastValues queue) := by
  rw [← apply_lastValues, apply_eq_self_iff]

/-- Compatible changes can be delivered in any order. -/
theorem apply_comm {a b : RoomChangeEvent} (h : Compatible a b) (view : RoomView) :
    (view.apply a).apply b = (view.apply b).apply a := by
  obtain ⟨unread, typing, markers⟩ := a
  obtain ⟨unread', typing', markers'⟩ := b
  obtain ⟨hunread, htyping, hmarkers⟩ := h
  have hunion := congrArg (fun m => m ∪ view.readMarkers) hmarkers
  simp only [Finmap.union_assoc] at hunion
  simp only [RoomView.apply, RoomView.mk.injEq]
  refine ⟨?_, ?_, hunion.symm⟩
  · cases unread <;> cases unread' <;> simp_all
  · cases typing <;> cases typing' <;> simp_all

theorem foldl_apply_comm {changes : List RoomChangeEvent} {d : RoomChangeEvent}
    (h : Compatible (lastValues changes) d) (view : RoomView) :
    changes.foldl RoomView.apply (view.apply d) = (changes.foldl RoomView.apply view).apply d := by
  rw [← apply_lastValues, ← apply_lastValues]
  exact (apply_comm h view).symm

/-! ## The typing list of a queue -/

theorem typing_foldl (a : RoomChangeEvent) (changes : List RoomChangeEvent) :
    (changes.foldl RoomChangeEvent.followedBy a).typingUserIdList
      = ((changes.filterMap RoomChangeEvent.typingUserIdList).getLast? <|> a.typingUserIdList) := by
  induction changes generalizing a with
  | nil => rfl
  | cons change changes ih =>
    rw [List.foldl_cons, ih]
    cases hc : change.typingUserIdList with
    | none => simp [RoomChangeEvent.followedBy, hc]
    | some users =>
      simp only [RoomChangeEvent.followedBy, hc, List.filterMap_cons_some hc, List.getLast?_cons]
      cases (changes.filterMap RoomChangeEvent.typingUserIdList).getLast? <;> rfl

theorem typing_lastValues (changes : List RoomChangeEvent) :
    (lastValues changes).typingUserIdList
      = (changes.filterMap RoomChangeEvent.typingUserIdList).getLast? := by
  rw [lastValues, typing_foldl]
  simp

theorem typing_trackRoomChange (queue : List RoomChangeEvent) (change : RoomChangeEvent)
    {users : List String}
    (h : (lastValues (trackRoomChange queue change)).typingUserIdList = some users) :
    (change.typingUserIdList <|> (lastValues queue).typingUserIdList) = some users := by
  have hqueue : ∀ {users}, (queue.tail.filterMap RoomChangeEvent.typingUserIdList).getLast?
      = some users → (queue.filterMap RoomChangeEvent.typingUserIdList).getLast? = some users := by
    intro users htail
    cases queue with
    | nil => exact htail
    | cons first rest =>
      rw [List.tail_cons] at htail
      rw [List.filterMap_cons]
      cases first.typingUserIdList with
      | none => exact htail
      | some _ => simp [List.getLast?_cons, htail]
  rw [typing_lastValues, trackRoomChange, List.filterMap_append] at h
  rw [typing_lastValues]
  cases hc : change.typingUserIdList with
  | some users' =>
    rw [List.filterMap_cons_some hc, List.filterMap_nil, List.getLast?_concat] at h
    exact h
  | none =>
    rw [List.filterMap_cons_none hc, List.filterMap_nil, List.append_nil] at h
    split at h
    · exact hqueue h
    · exact h

/-! ## Replays -/

structure ReplayState where
  room : RoomState
  /-- During a replay, the room as other paths have left it. -/
  expected : Option RoomView
  /-- What was expected at the end of each replay, and the view. -/
  replays : List (RoomView × RoomView)
deriving DecidableEq

def ReplayState.start : ReplayState := ⟨RoomState.start, none, []⟩

/-- A replay ends when the outbox is empty. -/
def ReplayState.settle (s : ReplayState) : ReplayState :=
  match s.expected with
  | none => s
  | some view =>
    if s.room.outbox = [] then
      { s with expected := none, replays := s.replays ++ [(view, s.room.view)] }
    else s

inductive ReplayStep where
  | base (a : Step)
  /-- The application receives the room, in a `RoomListResponse` or a `RoomCreatedEvent`. -/
  | roomReceived (unreadCount : Nat) (readMarker : ReadMarkers)
deriving DecidableEq

/-- What a step of another path delivers. -/
def ReplayStep.delivered : ReplayStep → Option RoomChangeEvent
  | .base .returnMarkAsRead => some ⟨some 0, none, none⟩
  | .base (.sendElsewhere readMarker) => some ⟨none, none, readMarker⟩
  | .roomReceived unreadCount readMarker => some ⟨some unreadCount, none, some readMarker⟩
  | _ => none

/-- The room after the step. -/
def ReplayStep.room (room : RoomState) : ReplayStep → Option RoomState
  | .base a => step room a
  | .roomReceived unreadCount readMarker =>
    some { room with view := room.view.apply ⟨some unreadCount, none, some readMarker⟩ }

/-- The step is the beginning of `exec_queued_room_changes`. -/
def ReplayStep.BeginsReplay (room : RoomState) : ReplayStep → Prop
  | .base (.proceed _ _) => room.jobs.head? = some .queuedRoomChanges ∧ room.outbox = []
  | _ => False

instance (room : RoomState) : DecidablePred (ReplayStep.BeginsReplay room)
  | .base (.proceed _ _) =>
    inferInstanceAs (Decidable (room.jobs.head? = some .queuedRoomChanges ∧ room.outbox = []))
  | .base (.exec _) | .base .send | .base (.markAsRead _) | .base .returnMarkAsRead
  | .base (.cacheReadMarkers _) | .base (.sendElsewhere _) | .roomReceived _ _ =>
    isFalse id

def replayStep (s : ReplayState) (a : ReplayStep) : Option ReplayState :=
  (a.room s.room).map fun room =>
    if a.BeginsReplay s.room then
      ReplayState.settle { s with room, expected := some s.room.view }
    else
      match a.delivered with
      | some change => { s with room, expected := s.expected.map fun view => view.apply change }
      | none => ReplayState.settle { s with room }

def replaySystem : System ReplayState ReplayStep where
  step := replayStep

/-- After every replay, the application had what was expected. -/
def ViewKept (s : ReplayState) : Prop := ∀ r ∈ s.replays, r.2 = r.1

instance : DecidablePred ViewKept := fun s =>
  inferInstanceAs (Decidable (∀ r ∈ s.replays, r.2 = r.1))

/-- A replay begins when the last queued values are those that the application has, and what is
    delivered during a replay is not contradicted by a change that is still to be sent. -/
structure ReplayAgrees (s : ReplayState) (a : ReplayStep) : Prop where
  queued : a.BeginsReplay s.room →
    s.room.view.Has { lastValues s.room.queue with typingUserIdList := none }
  pending : s.expected.isSome → ∀ change ∈ a.delivered, Compatible (lastValues s.room.outbox) change

instance (s : ReplayState) : DecidablePred (ReplayAgrees s) := fun a =>
  decidable_of_iff
    ((a.BeginsReplay s.room →
        s.room.view.Has { lastValues s.room.queue with typingUserIdList := none }) ∧
      (s.expected.isSome → ∀ change ∈ a.delivered, Compatible (lastValues s.room.outbox) change))
    ⟨fun h => ⟨h.1, h.2⟩, fun h => ⟨h.1, h.2⟩⟩

/-! ## Steps of the room -/

/-- What the room will be for the application when the outbox has been sent. -/
def RoomState.pendingView (room : RoomState) : RoomView :=
  room.outbox.foldl RoomView.apply room.view

/-- The typing list that is tracked last is the one of the application, or is about to be. -/
def TypingInView (room : RoomState) : Prop :=
  ∀ users, (lastValues room.queue).typingUserIdList = some users →
    room.pendingView.typingUserIdList = some users

theorem typing_sendIfNew {room : RoomState} (h : TypingInView room) (hout : room.outbox = [])
    (readMarkers : ReadMarkers) (proto : RoomChangeEvent) :
    TypingInView (RoomState.sendIfNew { room with readMarkers } proto) := by
  intro users husers
  simp only [RoomState.sendIfNew] at husers ⊢
  split at husers
  · next hnew =>
    rw [if_pos hnew]
    have hlast := typing_trackRoomChange room.queue proto husers
    simp only [RoomState.pendingView, List.foldl_cons, List.foldl_nil, RoomView.apply]
    cases hproto : proto.typingUserIdList with
    | some _ =>
      rw [hproto] at hlast
      exact hlast
    | none =>
      rw [hproto] at hlast
      have hview := h users hlast
      rw [RoomState.pendingView, hout] at hview
      exact hview
  · next hold =>
    rw [if_neg hold]
    exact h users husers

theorem typing_runJob {room : RoomState} (h : TypingInView room) (hout : room.outbox = [])
    (now numUnreadMessages : Nat) (job : Job) :
    TypingInView (runJob room now numUnreadMessages job) := by
  have houtcome := jobOutcome_runJob room now numUnreadMessages job
  generalize runJob room now numUnreadMessages job = t at houtcome ⊢
  cases houtcome with
  | queuedRoomChanges =>
    intro users husers
    cases husers
  | messageMarker sender ts m readMarkers =>
    intro users husers
    have hview := h users husers
    rw [RoomState.pendingView, hout] at hview
    exact hview
  | quiet | olderMark | cleared => exact h
  | sendIfNew _ proto readMarkers => exact typing_sendIfNew h hout readMarkers proto

/-- A delivery of another path changes the view alone. -/
theorem room_of_delivered {room room' : RoomState} {a : ReplayStep} {change : RoomChangeEvent}
    (hdelivered : a.delivered = some change) (h : a.room room = some room') :
    room'.queue = room.queue ∧ room'.outbox = room.outbox ∧
      room'.view = room.view.apply change ∧ change.typingUserIdList = none := by
  cases a with
  | base a =>
    cases a with
    | returnMarkAsRead =>
      obtain rfl := Option.some.inj hdelivered
      obtain ⟨-, rfl⟩ := step_returnMarkAsRead_eq_some h
      exact ⟨rfl, rfl, rfl, rfl⟩
    | sendElsewhere readMarker =>
      obtain rfl := Option.some.inj hdelivered
      obtain rfl := Option.some.inj h
      exact ⟨rfl, rfl, rfl, rfl⟩
    | _ => cases hdelivered
  | roomReceived unreadCount readMarker =>
    obtain rfl := Option.some.inj hdelivered
    obtain rfl := Option.some.inj h
    exact ⟨rfl, rfl, rfl, rfl⟩

theorem typing_room {room room' : RoomState} {a : ReplayStep} (hinv : TypingInView room)
    (h : a.room room = some room') : TypingInView room' := by
  cases hdelivered : a.delivered with
  | some change =>
    obtain ⟨hqueue, hout, hview, hnone⟩ := room_of_delivered hdelivered h
    intro users husers
    have hpending := hinv users (hqueue ▸ husers)
    have htyping : ∀ (changes : List RoomChangeEvent) (view : RoomView),
        (changes.foldl RoomView.apply (view.apply change)).typingUserIdList
          = (changes.foldl RoomView.apply view).typingUserIdList := by
      intro changes view
      rw [← apply_lastValues, ← apply_lastValues]
      simp [RoomView.apply, hnone]
    rw [RoomState.pendingView, hout, hview, htyping]
    exact hpending
  | none =>
    cases a with
    | roomReceived => cases hdelivered
    | base a =>
      have h : step room a = some room' := h
      cases a with
      | exec action =>
        obtain ⟨-, -, rfl⟩ := step_exec_eq_some h
        exact hinv
      | proceed now numUnreadMessages =>
        obtain ⟨job, jobs, -, hout, rfl⟩ := step_proceed_eq_some h
        have hrest : TypingInView { room with jobs } := hinv
        exact typing_runJob hrest hout now numUnreadMessages job
      | send =>
        obtain ⟨change, outbox, hout, rfl⟩ := step_send_eq_some h
        intro users husers
        have hpending := hinv users husers
        rw [RoomState.pendingView, hout] at hpending
        exact hpending
      | markAsRead now =>
        obtain rfl := Option.some.inj h
        exact hinv
      | cacheReadMarkers markers =>
        obtain rfl := Option.some.inj h
        exact hinv
      | returnMarkAsRead | sendElsewhere => cases hdelivered

/-- While changes are sent, no other step of the executor touches the queue or what the
    application will have in the end. -/
theorem pending_room {room room' : RoomState} {a : ReplayStep} (hdelivered : a.delivered = none)
    (hout : room.outbox ≠ []) (h : a.room room = some room') :
    room'.queue = room.queue ∧ room'.pendingView = room.pendingView := by
  cases a with
  | roomReceived => cases hdelivered
  | base a =>
    have h : step room a = some room' := h
    cases a with
    | exec action =>
      obtain ⟨-, hempty, -⟩ := step_exec_eq_some h
      exact absurd hempty hout
    | proceed now numUnreadMessages =>
      obtain ⟨-, -, -, hempty, -⟩ := step_proceed_eq_some h
      exact absurd hempty hout
    | send =>
      obtain ⟨change, outbox, hchange, rfl⟩ := step_send_eq_some h
      refine ⟨rfl, ?_⟩
      rw [RoomState.pendingView, RoomState.pendingView, hchange]
      rfl
    | markAsRead now =>
      obtain rfl := Option.some.inj h
      exact ⟨rfl, rfl⟩
    | cacheReadMarkers markers =>
      obtain rfl := Option.some.inj h
      exact ⟨rfl, rfl⟩
    | returnMarkAsRead | sendElsewhere => cases hdelivered

/-! ## The invariant -/

structure ReplayInv (s : ReplayState) : Prop where
  replays : ViewKept s
  typing : TypingInView s.room
  /-- What is still to be sent leads to the room as other paths have left it. -/
  running : ∀ view, s.expected = some view →
    s.room.queue = [] ∧ s.room.outbox ≠ [] ∧ s.room.pendingView = view

theorem replayInv_settle {s : ReplayState} (hreplays : ViewKept s)
    (htyping : TypingInView s.room) (hrunning : ∀ view, s.expected = some view →
      s.room.queue = [] ∧ s.room.pendingView = view) : ReplayInv s.settle := by
  unfold ReplayState.settle
  cases hexpected : s.expected with
  | none =>
    refine ⟨hreplays, htyping, fun view hview => ?_⟩
    rw [hexpected] at hview
    cases hview
  | some view =>
    obtain ⟨hqueue, hpending⟩ := hrunning view hexpected
    dsimp only
    split
    · next hout =>
      refine ⟨fun r hr => ?_, htyping, nofun⟩
      rcases List.mem_append.mp hr with hr | hr
      · exact hreplays r hr
      · rw [List.mem_singleton.mp hr]
        rw [RoomState.pendingView, hout] at hpending
        exact hpending
    · next hout =>
      refine ⟨hreplays, htyping, fun view' hview' => ?_⟩
      rw [hexpected, Option.some.injEq] at hview'
      exact ⟨hqueue, hout, hpending.trans hview'⟩

theorem replayInv_step {s t : ReplayState} {a : ReplayStep} (hinv : ReplayInv s)
    (hok : ReplayAgrees s a) (hstep : replaySystem.step s a = some t) : ReplayInv t := by
  obtain ⟨room, hroom, rfl⟩ := Option.map_eq_some_iff.mp hstep
  have htyping := typing_room hinv.typing hroom
  split
  · next hbegins =>
    refine replayInv_settle hinv.replays htyping fun view hview => ?_
    obtain rfl := Option.some.inj hview
    have hhas := hok.queued hbegins
    cases a with
    | roomReceived => exact hbegins.elim
    | base a =>
      cases a with
      | proceed now numUnreadMessages =>
        obtain ⟨hhead, -⟩ := hbegins
        obtain ⟨job, jobs, hjobs, hout, rfl⟩ := step_proceed_eq_some hroom
        rw [hjobs, List.head?_cons, Option.some.injEq] at hhead
        subst hhead
        refine ⟨rfl, ?_⟩
        have hview := hinv.typing
        rw [TypingInView, RoomState.pendingView, hout] at hview
        have hall : s.room.view.Has (lastValues s.room.queue) :=
          ⟨hhas.unreadCount, hview, hhas.readMarker⟩
        exact (foldl_queue_eq_iff s.room.view s.room.queue).mpr hall
      | _ => exact hbegins.elim
  · cases hdelivered : a.delivered with
    | some change =>
      obtain ⟨hqueue, hout, hview, -⟩ := room_of_delivered hdelivered hroom
      refine ⟨hinv.replays, htyping, fun view hexpected => ?_⟩
      obtain ⟨old, hold, rfl⟩ := Option.map_eq_some_iff.mp hexpected
      obtain ⟨hempty, hpending, hfold⟩ := hinv.running old hold
      have hcompatible := hok.pending (by rw [hold]; rfl) change hdelivered
      refine ⟨hqueue.trans hempty, hout ▸ hpending, ?_⟩
      rw [RoomState.pendingView, hout, hview, foldl_apply_comm hcompatible]
      exact congrArg (fun view => view.apply change) hfold
    | none =>
      refine replayInv_settle hinv.replays htyping fun view hexpected => ?_
      obtain ⟨hempty, hpending, hfold⟩ := hinv.running view hexpected
      obtain ⟨hqueue, hsame⟩ := pending_room hdelivered hpending hroom
      exact ⟨hqueue.trans hempty, hsame.trans hfold⟩

/-! ## Runs -/

/-- In every run in which each replay begins with current values, and nothing delivered during a
    replay is contradicted by it, the application has after each replay the values that it was
    given last by another path or had before. -/
theorem replays_keep_view (as : List ReplayStep) (t : ReplayState)
    (hok : replaySystem.Meets ReplayAgrees ReplayState.start as)
    (hrun : replaySystem.run ReplayState.start as = some t) : ViewKept t := by
  have hstart : ReplayInv ReplayState.start := ⟨nofun, nofun, nofun⟩
  have hinv : ReplayInv t :=
    System.inv_of_run _ (fun s a u hs ha hstep => replayInv_step hs ha hstep) hstart hok hrun
  exact hinv.replays

/-- A `FullyRead` event with the given clock and unread count, and the change it sends. -/
def unreadCountSent (now numUnreadMessages : Nat) : List ReplayStep :=
  [.base (.exec .fullyReadEvent), .base (.proceed now numUnreadMessages), .base .send]

/-- The room is discovered, and one change is replayed. -/
def replayOfOne (now : Nat) : List ReplayStep :=
  [.base (.exec .roomDiscovered), .base (.proceed now 0), .base .send]

/-- The replay of an unread count that the application has. -/
theorem replays_keep_view_of_current :
    ViewKept ⟨{ RoomState.start with view := ⟨some 3, none, ∅⟩ }, none,
      [(⟨some 3, none, ∅⟩, ⟨some 3, none, ∅⟩)]⟩ :=
  replays_keep_view (unreadCountSent 0 3 ++ replayOfOne 1) _ (by decide +kernel) (by decide +kernel)

/-- The room is marked as read before it is discovered: the replay brings the unread count 3
    back. -/
theorem stale_replay :
    ∃ t, replaySystem.run ReplayState.start (unreadCountSent 0 3 ++
        [.base (.markAsRead 1000), .base .returnMarkAsRead] ++ replayOfOne 2000) = some t ∧
      t.replays = [(⟨some 0, none, ∅⟩, ⟨some 3, none, ∅⟩)] ∧ ¬ ViewKept t :=
  ⟨⟨{ RoomState.start with markedAsReadTs := some 1000, view := ⟨some 3, none, ∅⟩ }, none,
      [(⟨some 0, none, ∅⟩, ⟨some 3, none, ∅⟩)]⟩, by decide +kernel, rfl, by decide +kernel⟩

end GoudaMatrix.Events
