/-
  `maybe_mark_room_as_unread` next to `mark_as_read`. The check of the timestamp and its clearing
  are two critical sections, and a request may cache another timestamp in between.

  `discarded_mark` is a request whose timestamp is cleared by an older message.
  `clears_older`: this cannot happen in a run whose requests, between the check and the clearing,
  cache only timestamps that are older than the message; and a request that does not is cleared
  if the executor takes the next step.
-/
import GoudaMatrix.Events.Executor

namespace GoudaMatrix.Events

open GoudaMatrix.Lib

/-! ## Clearings -/

/-- The executor, with the history of its clearings. -/
structure ClearState where
  room : RoomState
  /-- The timestamp of the message that has been compared last. -/
  checked : Option Nat
  /-- This timestamp and `marked_as_read_ts`, at every clearing. -/
  cleared : List (Option Nat × Option Nat)

def ClearState.start : ClearState := ⟨RoomState.start, none, []⟩

/-- The job that a step runs. -/
def jobOf (s : RoomState) : Step → Option Job
  | .proceed _ _ => s.jobs.head?
  | _ => none

def clearStep (s : ClearState) (a : Step) : Option ClearState :=
  (step s.room a).map fun room =>
    { room
      checked := match jobOf s.room a with
        | some (.maybeMarkRoomAsUnread eventTs) => some eventTs
        | _ => s.checked
      cleared := match jobOf s.room a with
        | some .markRoomAsUnread => s.cleared ++ [(s.checked, s.room.markedAsReadTs)]
        | _ => s.cleared }

def clearSystem : System ClearState Step where
  step := clearStep

/-- What was cleared was older than the message. -/
def OnlyOlder (s : ClearState) : Prop :=
  ∀ c ∈ s.cleared, ∃ eventTs ts, c = (some eventTs, some ts) ∧ ts < eventTs

/-- Between the check and the clearing, a request caches only what is older than the message. -/
def MarksOlder (s : ClearState) : Step → Prop
  | .markAsRead now =>
    .markRoomAsUnread ∈ s.room.jobs → ∀ eventTs ∈ s.checked, now < eventTs
  | _ => True

instance (s : ClearState) : DecidablePred (MarksOlder s)
  | .markAsRead now => inferInstanceAs (Decidable
      (.markRoomAsUnread ∈ s.room.jobs → ∀ eventTs ∈ s.checked, now < eventTs))
  | .exec _ | .proceed _ _ | .send | .returnMarkAsRead | .cacheReadMarkers _ | .sendElsewhere _ =>
    isTrue trivial

/-! ## The invariant -/

/-- The two halves of `maybe_mark_room_as_unread`. -/
def Job.isMarking : Job → Bool
  | .maybeMarkRoomAsUnread _ | .markRoomAsUnread => true
  | _ => false

structure ClearInv (s : ClearState) : Prop where
  older : OnlyOlder s
  alone : ∀ job ∈ s.room.jobs, job.isMarking = true → s.room.jobs = [job] ∧ s.room.outbox = []
  checked : .markRoomAsUnread ∈ s.room.jobs → ∃ eventTs ts,
    s.checked = some eventTs ∧ s.room.markedAsReadTs = some ts ∧ ts < eventTs

theorem clearInv_start : ClearInv ClearState.start := ⟨nofun, nofun, nofun⟩

/-- Without a marking job there is nothing to say but about the past. -/
theorem ClearInv.of_not_marking {s : ClearState} (holder : OnlyOlder s)
    (h : ∀ job ∈ s.room.jobs, job.isMarking = false) : ClearInv s where
  older := holder
  alone := by
    intro job hmem hmarking
    rw [h job hmem] at hmarking
    cases hmarking
  checked := by
    intro hmem
    cases h _ hmem

/-- The other jobs leave the list of jobs alone. -/
theorem jobs_runJob (s : RoomState) (now numUnreadMessages : Nat) {job : Job}
    (h : job.isMarking = false) : (runJob s now numUnreadMessages job).jobs = s.jobs := by
  have houtcome := jobOutcome_runJob s now numUnreadMessages job
  generalize runJob s now numUnreadMessages job = t at houtcome ⊢
  cases houtcome with
  | olderMark | cleared => cases h
  | queuedRoomChanges | quiet | messageMarker => rfl
  | sendIfNew =>
    unfold RoomState.sendIfNew
    split <;> rfl

theorem ClearInv.alone_head {s : ClearState} (h : ClearInv s) {job : Job} {jobs : List Job}
    (hjobs : s.room.jobs = job :: jobs) (hmarking : job.isMarking = true) : jobs = [] := by
  have hsingle := (h.alone job (by simp [hjobs]) hmarking).1
  rw [hjobs] at hsingle
  exact (List.cons.inj hsingle).2

/-- A marking job is the only one, so none stands behind another job. -/
theorem ClearInv.not_marking_behind {s : ClearState} (h : ClearInv s) {job : Job}
    {jobs : List Job} (hjobs : s.room.jobs = job :: jobs) :
    ∀ other ∈ jobs, other.isMarking = false := by
  intro other hmem
  by_contra hmarking
  have hsingle := (h.alone other (by simp [hjobs, hmem]) (by simpa using hmarking)).1
  rw [hjobs, List.cons.injEq] at hsingle
  rw [hsingle.2] at hmem
  cases hmem

theorem clearInv_exec {s t : ClearState} {action : Action} (h : ClearInv s)
    (hstep : clearStep s (.exec action) = some t) : ClearInv t := by
  obtain ⟨room, hroom, rfl⟩ := Option.map_eq_some_iff.mp hstep
  obtain ⟨-, hout, rfl⟩ := step_exec_eq_some hroom
  cases action with
  | roomMessageEvent ts =>
    refine ⟨h.older, fun job hmem _ => ?_, fun hmem => ?_⟩
    · rw [List.mem_singleton.mp hmem]
      exact ⟨rfl, hout⟩
    · cases List.mem_singleton.mp hmem
  | roomDiscovered | anyMessageLikeEvent | fullyReadEvent | joinedRoomUpdate
  | eventCacheGenericUpdate =>
    exact .of_not_marking h.older (by simp [Action.jobs, Job.isMarking])

theorem clearInv_proceed {s t : ClearState} {now numUnreadMessages : Nat} (h : ClearInv s)
    (hstep : clearStep s (.proceed now numUnreadMessages) = some t) : ClearInv t := by
  obtain ⟨room, hroom, rfl⟩ := Option.map_eq_some_iff.mp hstep
  obtain ⟨job, jobs, hjobs, hout, rfl⟩ := step_proceed_eq_some hroom
  have hhead : jobOf s.room (.proceed now numUnreadMessages) = some job := by
    simp [jobOf, hjobs]
  cases job with
  | maybeMarkRoomAsUnread eventTs =>
    obtain rfl := h.alone_head hjobs rfl
    simp only [hhead, runJob, maybeMarkRoomAsUnread]
    split
    · exact .of_not_marking h.older (List.forall_mem_nil _)
    · next ts hmarked =>
      split
      · exact .of_not_marking h.older (List.forall_mem_nil _)
      · next hnewer =>
        refine ⟨h.older, fun job hmem _ => ?_, fun _ => ?_⟩
        · rw [List.mem_singleton.mp hmem]
          exact ⟨rfl, hout⟩
        · exact ⟨eventTs, ts, rfl, hmarked, Nat.lt_of_not_le hnewer⟩
  | markRoomAsUnread =>
    obtain rfl := h.alone_head hjobs rfl
    obtain ⟨eventTs, ts, hchecked, hmarked, hlt⟩ := h.checked (by simp [hjobs])
    simp only [hhead, runJob]
    refine .of_not_marking (fun c hc => ?_) (List.forall_mem_nil _)
    rcases List.mem_append.mp hc with hc | hc
    · exact h.older c hc
    · rw [List.mem_singleton.mp hc, hchecked, hmarked]
      exact ⟨eventTs, ts, rfl, hlt⟩
  | queuedRoomChanges | anyMessageLikeEvent | updateRoomUnreadCount | joinedRoomUpdate =>
    simp only [hhead]
    refine .of_not_marking h.older fun other hmem => ?_
    rw [jobs_runJob _ _ _ rfl] at hmem
    exact h.not_marking_behind hjobs other hmem

theorem clearInv_step {s t : ClearState} {a : Step} (h : ClearInv s) (hok : MarksOlder s a)
    (hstep : clearSystem.step s a = some t) : ClearInv t := by
  cases a with
  | exec action => exact clearInv_exec h hstep
  | proceed now numUnreadMessages => exact clearInv_proceed h hstep
  | send =>
    obtain ⟨room, hroom, rfl⟩ := Option.map_eq_some_iff.mp hstep
    obtain ⟨change, outbox, hout, rfl⟩ := step_send_eq_some hroom
    refine .of_not_marking h.older fun job hmem => ?_
    by_contra hmarking
    have hnone := (h.alone job hmem (by simpa using hmarking)).2
    rw [hout] at hnone
    cases hnone
  | markAsRead now =>
    obtain rfl := Option.some.inj hstep
    refine ⟨h.older, h.alone, fun hmem => ?_⟩
    obtain ⟨eventTs, -, hchecked, -, -⟩ := h.checked hmem
    exact ⟨eventTs, now, hchecked, rfl, hok hmem eventTs hchecked⟩
  | returnMarkAsRead =>
    obtain ⟨room, hroom, rfl⟩ := Option.map_eq_some_iff.mp hstep
    obtain ⟨-, rfl⟩ := step_returnMarkAsRead_eq_some hroom
    exact ⟨h.older, h.alone, h.checked⟩
  | cacheReadMarkers | sendElsewhere =>
    obtain rfl := Option.some.inj hstep
    exact ⟨h.older, h.alone, h.checked⟩

/-! ## Runs -/

/-- A request that does not meet the condition is cleared by the next job. -/
theorem cleared_of_newer {s : ClearState} (h : ClearInv s) {now : Nat}
    (hnewer : ¬ MarksOlder s (.markAsRead now)) :
    ∃ t, clearSystem.run s [.markAsRead now, .proceed 0 0] = some t ∧ ¬ OnlyOlder t := by
  simp only [MarksOlder, Classical.not_imp, not_forall, Nat.not_lt] at hnewer
  obtain ⟨hmem, eventTs, hchecked, hle⟩ := hnewer
  obtain ⟨hjobs, hout⟩ := h.alone _ hmem rfl
  have hrun : clearSystem.run s [.markAsRead now, .proceed 0 0]
      = some ⟨{ s.room with markedAsReadTs := none, marking := s.room.marking + 1, jobs := [] },
        s.checked, s.cleared ++ [(s.checked, some now)]⟩ := by
    simp [System.run, clearSystem, clearStep, step, hjobs, hout, jobOf, runJob]
  refine ⟨_, hrun, fun holder => ?_⟩
  obtain ⟨eventTs', ts, heq, hlt⟩ := holder (s.checked, some now) (by simp)
  rw [hchecked, Prod.mk.injEq, Option.some.injEq, Option.some.injEq] at heq
  omega

/-- In every run whose requests meet the condition, what is cleared is older than the message; and
    the first request that does not meet it can be the one that is cleared. -/
theorem clears_older {as : List Step} {t : ClearState}
    (hok : clearSystem.Meets MarksOlder ClearState.start as)
    (hrun : clearSystem.run ClearState.start as = some t) :
    OnlyOlder t ∧ ∀ now, ¬ MarksOlder t (.markAsRead now) →
      ∃ u, clearSystem.run t [.markAsRead now, .proceed 0 0] = some u ∧ ¬ OnlyOlder u := by
  have hinv : ClearInv t :=
    System.inv_of_run _ (fun s a t hs ha hstep => clearInv_step hs ha hstep) clearInv_start hok hrun
  exact ⟨hinv.older, fun now hnewer => cleared_of_newer hinv hnewer⟩

/-- The room is marked as read at 1000, and a message of 2000 is checked. -/
def checkedMessage : List Step :=
  [.markAsRead 1000, .exec (.roomMessageEvent 2000), .proceed 0 0]

/-- Another request caches 1500 before the message clears the timestamp. -/
theorem clears_older_mark : OnlyOlder
    ⟨{ RoomState.start with marking := 2 }, some 2000, [(some 2000, some 1500)]⟩ :=
  (clears_older (by decide +kernel) (show clearSystem.run ClearState.start
    (checkedMessage ++ [.markAsRead 1500, .proceed 0 0]) = _ by rfl)).1

/-- The other request caches 3000, which is newer than the message. -/
theorem discarded_mark :
    ∃ t, clearSystem.run ClearState.start (checkedMessage ++ [.markAsRead 3000, .proceed 0 0])
        = some t ∧
      t.cleared = [(some 2000, some 3000)] ∧ t.room.markedAsReadTs = none ∧ ¬ OnlyOlder t := by
  refine ⟨⟨{ RoomState.start with marking := 2 }, some 2000, [(some 2000, some 3000)]⟩, rfl, rfl,
    rfl, fun holder => ?_⟩
  obtain ⟨eventTs, ts, heq, hlt⟩ := holder _ List.mem_cons_self
  rw [Prod.mk.injEq, Option.some.injEq, Option.some.injEq] at heq
  omega

end GoudaMatrix.Events
