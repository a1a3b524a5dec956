/-
  The de-duplication of room changes. `is_new_room_change` compares a change with the one
  tracked last, not with what the application has been told since.

  `stale_unread_count` is a room whose unread count is 3, marked as read, and after the timeout
  3 again: the second change is dropped while the application shows 0. `dropped_in_view` is
  what is needed for that not to happen (`ReturnsAgree`): `mark_as_read` returns while the
  change tracked last does not set an unread count other than 0, or has not been sent yet.
  Read markers need no condition, since a marker is only sent when it is newer than the cached
  one; nor does the typing list, which no other path sets.
-/
import GoudaMatrix.Events.Executor

namespace GoudaMatrix.Events

open GoudaMatrix.Lib GoudaMatrix.MemoryCache

/-- Whenever a change was dropped, the application had its values. -/
def DroppedInView (s : RoomState) : Prop := ∀ d ∈ s.dropped, d.2.Has d.1

instance : DecidablePred DroppedInView := fun s =>
  inferInstanceAs (Decidable (∀ d ∈ s.dropped, d.2.Has d.1))

/-- The response of `mark_as_read` does not contradict the change tracked last. -/
def ReturnsAgree (s : RoomState) : Step → Prop
  | .returnMarkAsRead => ∀ change ∈ s.queue.getLast?,
      (∀ n ∈ change.unreadCount, n = 0) ∨ change ∈ s.outbox
  | _ => True

instance (s : RoomState) : DecidablePred (ReturnsAgree s)
  | .returnMarkAsRead => inferInstanceAs (Decidable (∀ change ∈ s.queue.getLast?,
      (∀ n ∈ change.unreadCount, n = 0) ∨ change ∈ s.outbox))
  | .exec _ | .proceed _ _ | .send | .markAsRead _ | .cacheReadMarkers _ | .sendElsewhere _ =>
    isTrue trivial

/-! ## The invariant -/

/-- The view has the unread count and the typing list of the change. -/
def Agrees (view : RoomView) (change : RoomChangeEvent) : Prop :=
  (∀ n, change.unreadCount = some n → view.unreadCount = some n) ∧
    ∀ users, change.typingUserIdList = some users → view.typingUserIdList = some users

/-- The change sets neither the unread count nor the typing list. -/
def Silent (change : RoomChangeEvent) : Prop :=
  change.unreadCount = none ∧ change.typingUserIdList = none

structure ViewInv (s : RoomState) : Prop where
  dropped : DroppedInView s
  /-- The change tracked last is in the view, or it is the next one to be sent. -/
  tracked : ∀ change, s.queue.getLast? = some change →
    Agrees s.view change ∧ (∀ c ∈ s.outbox, Silent c) ∨ s.outbox = [change]
  markers : ∀ change m, s.queue.getLast? = some change → change.readMarker = some m →
    m ≠ ∅ ∧ Below m s.readMarkers

theorem viewInv_start : ViewInv RoomState.start := ⟨nofun, nofun, nofun⟩

theorem agrees_apply_self (view : RoomView) (change : RoomChangeEvent) :
    Agrees (view.apply change) change := by
  constructor
  · intro n h
    simp [RoomView.apply, h]
  · intro users h
    simp [RoomView.apply, h]

theorem Agrees.apply_silent {view : RoomView} {change other : RoomChangeEvent}
    (h : Agrees view change) (hs : Silent other) : Agrees (view.apply other) change := by
  obtain ⟨hunread, htyping⟩ := hs
  constructor
  · intro n hn
    simpa [RoomView.apply, hunread] using h.1 n hn
  · intro users hu
    simpa [RoomView.apply, htyping] using h.2 users hu

theorem getLast?_trackRoomChange (queue : List RoomChangeEvent) (change : RoomChangeEvent) :
    (trackRoomChange queue change).getLast? = some change := by
  unfold trackRoomChange
  exact List.getLast?_concat

/-- The read markers of the change that is tracked last are cached. -/
def TrackedCached (s : RoomState) : Prop :=
  ∀ change m, s.queue.getLast? = some change → change.readMarker = some m →
    m ≠ ∅ ∧ Below m s.readMarkers

/-- A change whose markers are newer than the cached ones is not the one that is tracked last. -/
theorem isNewRoomChange_of_raised {s : RoomState} (h : TrackedCached s)
    {proto : RoomChangeEvent} {m : ReadMarkers} (hm : proto.readMarker = some m) (hne : m ≠ ∅)
    (hraised : ∀ u ts, m.lookup u = some ts → ∀ old, s.readMarkers.lookup u = some old → old < ts) :
    isNewRoomChange s.queue proto = true := by
  unfold isNewRoomChange
  cases hlast : s.queue.getLast? with
  | none => rfl
  | some old =>
    refine decide_eq_true fun heq => hne (Finmap.ext_lookup fun u => ?_)
    obtain ⟨-, hcached⟩ := h old m hlast (heq ▸ hm)
    rw [Finmap.lookup_empty]
    cases hu : m.lookup u with
    | none => rfl
    | some ts =>
      obtain ⟨ts', hts', hle⟩ := hcached u ts hu
      have hlt := hraised u ts hu ts' hts'
      omega

/-! ## Jobs -/

/-- A change with read markers that have just been raised is never dropped; any other one is
    dropped only when it is the change tracked last. -/
theorem viewInv_sendIfNew {s : RoomState} {proto : RoomChangeEvent} {after : ReadMarkers}
    (h : ViewInv s) (hout : s.outbox = []) (hbelow : Below s.readMarkers after)
    (hnew : ∀ m, proto.readMarker = some m → m ≠ ∅ ∧ Below m after ∧
      ∀ u ts, m.lookup u = some ts → ∀ old, s.readMarkers.lookup u = some old → old < ts) :
    ViewInv (RoomState.sendIfNew { s with readMarkers := after } proto) := by
  unfold RoomState.sendIfNew
  split
  · refine ⟨h.dropped, fun change hc => ?_, fun change m hc hm => ?_⟩
    · rw [getLast?_trackRoomChange, Option.some.injEq] at hc
      exact Or.inr (congrArg (fun c => [c]) hc)
    · rw [getLast?_trackRoomChange, Option.some.injEq] at hc
      subst hc
      exact ⟨(hnew m hm).1, (hnew m hm).2.1⟩
  · next hold =>
    have hlast : s.queue.getLast? = some proto := by
      simp only [isNewRoomChange] at hold
      cases hq : s.queue.getLast? with
      | none => simp [hq] at hold
      | some old =>
        have heq : old = proto := by simpa [hq] using hold
        rw [heq]
    refine ⟨fun d hd => ?_, h.tracked, fun change m hc hm => ?_⟩
    · rcases List.mem_append.mp hd with hd | hd
      · exact h.dropped d hd
      rw [List.mem_singleton.mp hd]
      have hagree : Agrees s.view proto := by
        rcases h.tracked proto hlast with ⟨hagree, -⟩ | hpending
        · exact hagree
        · rw [hout] at hpending
          cases hpending
      refine ⟨fun n hn => hagree.1 n hn, fun users hu => hagree.2 users hu, fun m hm => ?_⟩
      -- the tracked markers are cached, so they cannot have been raised again
      obtain ⟨hne, -, hraised⟩ := hnew m hm
      exact absurd (isNewRoomChange_of_raised h.markers hm hne hraised) hold
    · obtain ⟨hne, hcached⟩ := h.markers change m hc hm
      exact ⟨hne, hcached.trans hbelow⟩

/-- Caching more markers and sending silent changes keeps the invariant. -/
theorem ViewInv.of_silent {s t : RoomState} (h : ViewInv s) (hout : s.outbox = [])
    (hqueue : t.queue = s.queue) (hview : t.view = s.view) (hdropped : t.dropped = s.dropped)
    (hbelow : Below s.readMarkers t.readMarkers) (hsilent : ∀ c ∈ t.outbox, Silent c) :
    ViewInv t where
  dropped := by
    unfold DroppedInView
    rw [hdropped]
    exact h.dropped
  tracked := by
    intro change hc
    rw [hqueue] at hc
    rcases h.tracked change hc with ⟨hagree, -⟩ | hpending
    · exact Or.inl ⟨hview ▸ hagree, hsilent⟩
    · rw [hout] at hpending
      cases hpending
  markers := by
    intro change m hc hm
    rw [hqueue] at hc
    exact ⟨(h.markers change m hc hm).1, (h.markers change m hc hm).2.trans hbelow⟩

theorem viewInv_runJob {s : RoomState} (h : ViewInv s) (hout : s.outbox = [])
    (now numUnreadMessages : Nat) (job : Job) : ViewInv (runJob s now numUnreadMessages job) := by
  have hnone : ∀ c ∈ s.outbox, Silent c := by
    rw [hout]
    exact nofun
  have houtcome := jobOutcome_runJob s now numUnreadMessages job
  generalize runJob s now numUnreadMessages job = t at houtcome ⊢
  cases houtcome with
  | queuedRoomChanges => exact ⟨h.dropped, nofun, nofun⟩
  | quiet _ readMarkers hbelow => exact h.of_silent hout rfl rfl rfl hbelow hnone
  | messageMarker sender ts m readMarkers hraised =>
    refine h.of_silent hout rfl rfl rfl hraised.below fun c hc => ?_
    rw [List.mem_singleton.mp hc]
    exact ⟨rfl, rfl⟩
  | olderMark | cleared => exact h.of_silent hout rfl rfl rfl (Below.refl _) hnone
  | sendIfNew _ proto readMarkers hraised hne =>
    refine viewInv_sendIfNew h hout hraised.below fun m hm => ⟨hne m hm, ?_⟩
    rw [hm] at hraised
    exact ⟨hraised.below_result, fun u ts hu => (hraised.raised u ts hu).2⟩

/-! ## Steps -/

theorem below_foldl_cacheReadMarker (entries : List (String × Nat)) (markers : ReadMarkers) :
    Below markers (entries.foldl (fun m e => (cacheReadMarker m e.1 e.2).2) markers) := by
  induction entries generalizing markers with
  | nil => exact Below.refl markers
  | cons e es ih => exact (below_cacheReadMarker markers e.1 e.2).trans (ih _)

theorem viewInv_step {s t : RoomState} {a : Step} (h : ViewInv s) (hok : ReturnsAgree s a)
    (hstep : executorSystem.step s a = some t) : ViewInv t := by
  have hstep : step s a = some t := hstep
  cases a with
  | exec action =>
    obtain ⟨-, -, rfl⟩ := step_exec_eq_some hstep
    exact ⟨h.dropped, h.tracked, h.markers⟩
  | proceed now numUnreadMessages =>
    obtain ⟨job, jobs, -, hout, rfl⟩ := step_proceed_eq_some hstep
    have hrest : ViewInv { s with jobs } := ⟨h.dropped, h.tracked, h.markers⟩
    exact viewInv_runJob hrest hout now numUnreadMessages job
  | send =>
    obtain ⟨change, outbox, hout, rfl⟩ := step_send_eq_some hstep
    refine ⟨h.dropped, fun last hlast => ?_, h.markers⟩
    rcases h.tracked last hlast with ⟨hagree, hsilent⟩ | hpending
    · rw [hout] at hsilent
      left
      exact ⟨hagree.apply_silent (hsilent change List.mem_cons_self),
        fun c hc => hsilent c (List.mem_cons_of_mem change hc)⟩
    · rw [hout, List.cons.injEq] at hpending
      obtain ⟨rfl, rfl⟩ := hpending
      exact Or.inl ⟨agrees_apply_self s.view change, nofun⟩
  | markAsRead now =>
    rw [step, Option.some.injEq] at hstep
    subst hstep
    exact ⟨h.dropped, h.tracked, h.markers⟩
  | returnMarkAsRead =>
    obtain ⟨-, rfl⟩ := step_returnMarkAsRead_eq_some hstep
    refine ⟨h.dropped, fun change hc => ?_, h.markers⟩
    rcases h.tracked change hc with ⟨hagree, hsilent⟩ | hpending
    · left
      refine ⟨⟨fun n hn => ?_, fun users hu => ?_⟩, hsilent⟩
      · rcases hok change hc with hzero | hmem
        · rw [hzero n hn]
          rfl
        · rw [(hsilent change hmem).1] at hn
          cases hn
      · simpa [RoomView.apply] using hagree.2 users hu
    · exact Or.inr hpending
  | cacheReadMarkers markers =>
    rw [step, Option.some.injEq] at hstep
    subst hstep
    refine ⟨h.dropped, h.tracked, fun change m hc hm => ?_⟩
    have hbelow := below_foldl_cacheReadMarker markers s.readMarkers
    exact ⟨(h.markers change m hc hm).1, (h.markers change m hc hm).2.trans hbelow⟩
  | sendElsewhere readMarker =>
    rw [step, Option.some.injEq] at hstep
    subst hstep
    refine ⟨h.dropped, fun change hc => ?_, h.markers⟩
    rcases h.tracked change hc with ⟨hagree, hsilent⟩ | hpending
    · exact Or.inl ⟨hagree.apply_silent ⟨rfl, rfl⟩, hsilent⟩
    · exact Or.inr hpending

/-! ## Runs -/

/-- In every run in which no response of `mark_as_read` contradicts the change tracked last, a
    dropped change is one whose values the application already has. -/
theorem dropped_in_view (as : List Step) (t : RoomState)
    (hok : executorSystem.Meets ReturnsAgree RoomState.start as)
    (hrun : executorSystem.run RoomState.start as = some t) : DroppedInView t := by
  have hinv : ViewInv t :=
    System.inv_of_run _ (fun s a t hs ha hstep => viewInv_step hs ha hstep) viewInv_start hok hrun
  exact hinv.dropped

/-- `FullyRead` with the given clock and unread count, and the change it sends. -/
def fullyRead (now numUnreadMessages : Nat) : List Step :=
  [.exec .fullyReadEvent, .proceed now numUnreadMessages, .send]

/-- The room is marked as read, which returns once a count of 0 has been sent; then this count is
    dropped. -/
theorem dropped_in_view_twice : DroppedInView
    { RoomState.start with
      queue := [⟨some 3, none, none⟩, ⟨some 0, none, none⟩]
      markedAsReadTs := some 1000
      view := ⟨some 0, none, ∅⟩
      dropped := [(⟨some 0, none, none⟩, ⟨some 0, none, ∅⟩)] } :=
  dropped_in_view (fullyRead 0 3 ++ [.markAsRead 1000] ++ fullyRead 5000 0
      ++ [.returnMarkAsRead, .exec .eventCacheGenericUpdate, .proceed 6000 0]) _
    (by decide +kernel) (by decide +kernel)

/-- The room is marked as read in between, and the count is 3 again after the timeout. -/
theorem stale_unread_count :
    ∃ t, executorSystem.run RoomState.start (fullyRead 0 3 ++ [.markAsRead 1000,
        .returnMarkAsRead, .exec .fullyReadEvent, .proceed 4000 3]) = some t ∧
      t.dropped = [(⟨some 3, none, none⟩, ⟨some 0, none, ∅⟩)] ∧ ¬ DroppedInView t :=
  ⟨{ RoomState.start with
     queue := [⟨some 3, none, none⟩]
     markedAsReadTs := some 1000
     view := ⟨some 0, none, ∅⟩
     dropped := [(⟨some 3, none, none⟩, ⟨some 0, none, ∅⟩)] },
    by decide +kernel, rfl, by decide +kernel⟩

end GoudaMatrix.Events
