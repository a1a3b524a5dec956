/-
  The order in which the application receives read markers, while a history fetch and the
  `EventExecutor` run side by side.

  Both tasks raise the cached markers and send a change of their own. The change is complete
  before the await of `send_event`, at which the other task can take its turn, so between the
  change and its arrival the other task may raise a marker and send it. `outdated_marker` is
  such a run. `received_in_order` is what is needed for that not to happen (`NotOvertaking`).
-/
import GoudaMatrix.Events.RoomChanges
import GoudaMatrix.MemoryCache.Retry

namespace GoudaMatrix.Events

open GoudaMatrix.Lib GoudaMatrix.MemoryCache

/-! ## Steps -/

/-- No user has an older marker in `b` than in `a`. -/
def NotNewer (a b : ReadMarkers) : Prop :=
  ∀ u ts, a.lookup u = some ts → ∀ ts', b.lookup u = some ts' → ts ≤ ts'

instance (a b : ReadMarkers) : Decidable (NotNewer a b) :=
  decidable_of_iff (∀ u ∈ a.keys, ∀ ts ∈ a.lookup u, ∀ ts' ∈ b.lookup u, ts ≤ ts')
    ⟨fun h u ts hu ts' hu' =>
      h u (Finmap.mem_keys.mpr (Finmap.mem_of_lookup_eq_some hu)) ts hu ts' hu',
      fun h u _ ts hu ts' hu' => h u ts hu ts' hu'⟩

/-- The change that `update_read_markers` sends. -/
def changedMarkers (current cached : ReadMarkers) : Option ReadMarkers :=
  if cached ≠ current then some cached else none

theorem updateReadMarkers_eq {f : MessagesFetcher} (h : f.sendReadMarkers = true)
    (cached : ReadMarkers) : (f.updateReadMarkers cached).readMarkers
        = f.readMarkers ++ (changedMarkers f.currentReadMarkers cached).toList ∧
      (f.updateReadMarkers cached).currentReadMarkers = cached := by
  unfold MessagesFetcher.updateReadMarkers changedMarkers
  by_cases hchanged : cached = f.currentReadMarkers
  · simp [h, hchanged]
  · simp [h, hchanged]

structure RaceState where
  room : RoomState
  /-- `current_read_markers` of the fetch. -/
  currentReadMarkers : ReadMarkers
  /-- The change that the fetch is sending. -/
  sending : Option ReadMarkers
  /-- The read markers that the application has received, one map for each change. -/
  received : List ReadMarkers
deriving DecidableEq

def RaceState.start : RaceState := ⟨RoomState.start, ∅, none, []⟩

/-- The steps of the executor and of `mark_as_read`, without the replay of queued changes. -/
def Step.isLive : Step → Bool
  | .exec .roomDiscovered | .cacheReadMarkers _ | .sendElsewhere _ => false
  | _ => true

inductive RaceStep where
  | executor (a : Step)
  /-- `run` copies the cached markers. -/
  | fetchStarts
  /-- `process_timeline_event` caches the markers of an event. -/
  | fetchEvent (markers : List (String × Nat))
  | updateReadMarkers
  /-- The application receives the change of the fetch. -/
  | fetchSends
deriving DecidableEq

/-- The read markers that a step of the executor delivers. -/
def deliveredMarkers (room : RoomState) : Step → List ReadMarkers
  | .send => (room.outbox.head?.bind RoomChangeEvent.readMarker).toList
  | _ => []

def raceStep (s : RaceState) : RaceStep → Option RaceState
  | .executor a =>
    if a.isLive then
      (step s.room a).map fun room =>
        { s with room, received := s.received ++ deliveredMarkers s.room a }
    else none
  | .fetchStarts =>
    if s.sending = none then some { s with currentReadMarkers := s.room.readMarkers } else none
  | .fetchEvent markers =>
    if s.sending = none then
      (step s.room (.cacheReadMarkers markers)).map fun room => { s with room }
    else none
  | .updateReadMarkers =>
    if s.sending = none then
      some { s with
        currentReadMarkers := s.room.readMarkers
        sending := changedMarkers s.currentReadMarkers s.room.readMarkers }
    else none
  | .fetchSends =>
    s.sending.map fun markers => { s with
      sending := none
      received := s.received ++ [markers] }

def raceSystem : System RaceState RaceStep where
  step := raceStep

/-- A change arrives while no older marker of one of its users waits in the other task. -/
def NotOvertaking (s : RaceState) : RaceStep → Prop
  | .executor a => ∀ m ∈ deliveredMarkers s.room a, ∀ waiting ∈ s.sending, NotNewer m waiting
  | .fetchSends => ∀ m ∈ s.sending, ∀ change ∈ s.room.outbox, ∀ waiting ∈ change.readMarker,
      NotNewer m waiting
  | _ => True

instance (s : RaceState) : DecidablePred (NotOvertaking s)
  | .executor a => inferInstanceAs (Decidable
      (∀ m ∈ deliveredMarkers s.room a, ∀ waiting ∈ s.sending, NotNewer m waiting))
  | .fetchSends => inferInstanceAs (Decidable (∀ m ∈ s.sending, ∀ change ∈ s.room.outbox,
      ∀ waiting ∈ change.readMarker, NotNewer m waiting))
  | .fetchStarts | .fetchEvent _ | .updateReadMarkers => isTrue trivial

/-! ## The markers of a change -/

/-- Every marker of `m` is the cached one. -/
def Current (m cached : ReadMarkers) : Prop :=
  ∀ u ts, m.lookup u = some ts → cached.lookup u = some ts

theorem Current.below {m cached : ReadMarkers} (h : Current m cached) : Below m cached :=
  fun u ts hu => ⟨ts, h u ts hu, Nat.le_refl ts⟩

theorem current_of_raised {before m cached : ReadMarkers} (h : Raised before m cached) :
    Current m cached :=
  fun u ts hu => (h.raised u ts hu).1

/-- What was received before is not newer than a change with cached markers. -/
theorem notNewer_of_current {r m cached : ReadMarkers} (hr : Below r cached)
    (hm : Current m cached) : NotNewer r m := by
  intro u ts hu ts' hu'
  obtain ⟨cachedTs, hcached, hle⟩ := hr u ts hu
  obtain rfl := Option.some.inj (hcached.symm.trans (hm u ts' hu'))
  exact hle

/-- What an executor step does to the cached markers and to the changes that are being sent. -/
structure LiveStep (room room' : RoomState) : Prop where
  below : Below room.readMarkers room'.readMarkers
  jobs : .queuedRoomChanges ∉ room.jobs → .queuedRoomChanges ∉ room'.jobs
  outbox : .queuedRoomChanges ∉ room.jobs →
    (∃ changes, room.outbox = changes ++ room'.outbox) ∨
      ∃ change, room'.outbox = [change] ∧
        ∀ m ∈ change.readMarker, Current m room'.readMarkers

theorem LiveStep.of_same {room room' : RoomState} (hmarkers : room'.readMarkers = room.readMarkers)
    (hjobs : ∀ job ∈ room'.jobs, job ∈ room.jobs ∨ job ≠ .queuedRoomChanges)
    (houtbox : room'.outbox = room.outbox) : LiveStep room room' where
  below := hmarkers ▸ Below.refl _
  jobs := by
    intro hroom hmem
    rcases hjobs _ hmem with hmem | hne
    · exact hroom hmem
    · exact hne rfl
  outbox := fun _ => .inl ⟨[], houtbox.symm⟩

theorem liveStep_sendIfNew {room : RoomState} {after : ReadMarkers} {proto : RoomChangeEvent}
    (hbelow : Below room.readMarkers after) (hnew : ∀ m ∈ proto.readMarker, Current m after) :
    LiveStep room (RoomState.sendIfNew { room with readMarkers := after } proto) := by
  unfold RoomState.sendIfNew
  split
  · exact ⟨hbelow, id, fun _ => .inr ⟨proto, rfl, hnew⟩⟩
  · exact ⟨hbelow, id, fun _ => .inl ⟨[], rfl⟩⟩

theorem liveStep_runJob {room : RoomState} {jobs : List Job} {job : Job}
    (hjobs : room.jobs = job :: jobs) (now numUnreadMessages : Nat) :
    LiveStep room (runJob { room with jobs } now numUnreadMessages job) := by
  have hsub : ∀ {room' : RoomState}, LiveStep { room with jobs } room' → LiveStep room room' := by
    intro room' h
    have hmem : .queuedRoomChanges ∉ room.jobs → .queuedRoomChanges ∉ jobs :=
      fun hroom hmem => hroom (hjobs ▸ List.mem_cons_of_mem job hmem)
    exact ⟨h.below, fun hroom => h.jobs (hmem hroom), fun hroom => h.outbox (hmem hroom)⟩
  have houtcome := jobOutcome_runJob { room with jobs } now numUnreadMessages job
  generalize runJob { room with jobs } now numUnreadMessages job = t at houtcome ⊢
  cases houtcome with
  | queuedRoomChanges =>
    have habsurd : .queuedRoomChanges ∉ room.jobs → False := fun h => h (by simp [hjobs])
    exact ⟨Below.refl _, fun h => (habsurd h).elim, fun h => (habsurd h).elim⟩
  | quiet _ readMarkers hbelow => exact hsub ⟨hbelow, id, fun _ => .inl ⟨[], rfl⟩⟩
  | messageMarker sender ts m readMarkers hraised =>
    refine hsub ⟨hraised.below, id, fun _ => .inr ⟨_, rfl, fun m' hm => ?_⟩⟩
    obtain rfl := Option.some.inj hm
    exact current_of_raised hraised
  | olderMark eventTs =>
    refine hsub (LiveStep.of_same rfl (fun job hmem => ?_) rfl)
    rcases List.mem_cons.mp hmem with rfl | hmem
    · exact .inr fun h => by cases h
    · exact .inl hmem
  | cleared => exact hsub (LiveStep.of_same rfl (fun job hmem => .inl hmem) rfl)
  | sendIfNew _ proto readMarkers hraised =>
    refine hsub (liveStep_sendIfNew hraised.below fun m hm => ?_)
    rw [Option.mem_def.mp hm] at hraised
    exact current_of_raised hraised

theorem liveStep_step {room room' : RoomState} {a : Step} (hlive : a.isLive = true)
    (h : step room a = some room') : LiveStep room room' := by
  cases a with
  | exec action =>
    obtain ⟨-, -, rfl⟩ := step_exec_eq_some h
    refine LiveStep.of_same rfl (fun job hmem => .inr ?_) rfl
    rintro rfl
    cases action <;> simp [Action.jobs, Step.isLive] at hmem hlive
  | proceed now numUnreadMessages =>
    obtain ⟨job, jobs, hjobs, -, rfl⟩ := step_proceed_eq_some h
    exact liveStep_runJob hjobs now numUnreadMessages
  | send =>
    obtain ⟨change, outbox, hout, rfl⟩ := step_send_eq_some h
    exact ⟨Below.refl _, id, fun _ => .inl ⟨[change], hout⟩⟩
  | markAsRead now =>
    obtain rfl := Option.some.inj h
    exact LiveStep.of_same rfl (fun job hmem => .inl hmem) rfl
  | returnMarkAsRead =>
    obtain ⟨-, rfl⟩ := step_returnMarkAsRead_eq_some h
    exact LiveStep.of_same rfl (fun job hmem => .inl hmem) rfl
  | cacheReadMarkers | sendElsewhere => cases hlive

/-! ## The invariant -/

/-- A change that waits to be received. -/
structure Waiting (s : RaceState) (m : ReadMarkers) : Prop where
  cached : Below m s.room.readMarkers
  ordered : ∀ r ∈ s.received, NotNewer r m

structure RaceInv (s : RaceState) : Prop where
  jobs : .queuedRoomChanges ∉ s.room.jobs
  single : s.room.outbox.length ≤ 1
  received : ∀ r ∈ s.received, Below r s.room.readMarkers
  sending : ∀ m ∈ s.sending, Waiting s m
  outbox : ∀ change ∈ s.room.outbox, ∀ m ∈ change.readMarker, Waiting s m
  ordered : s.received.Pairwise NotNewer

theorem raceInv_start : RaceInv RaceState.start :=
  ⟨nofun, Nat.zero_le 1, nofun, nofun, nofun, .nil⟩

/-- A change arrives that was not overtaken by another one. -/
theorem pairwise_deliver {s : RaceState} (h : RaceInv s) {ms : List ReadMarkers}
    (hsingle : ms.length ≤ 1) (hms : ∀ m ∈ ms, Waiting s m) :
    (s.received ++ ms).Pairwise NotNewer := by
  rw [List.pairwise_append]
  refine ⟨h.ordered, ?_, fun r hr m hm => (hms m hm).ordered r hr⟩
  cases ms with
  | nil => exact .nil
  | cons m ms =>
    obtain rfl : ms = [] := List.eq_nil_of_length_eq_zero (by simpa using hsingle)
    exact List.pairwise_singleton _ _

/-- A change still waits after others have arrived that are not newer. -/
theorem Waiting.later {s t : RaceState} {m : ReadMarkers} (h : Waiting s m) {ms : List ReadMarkers}
    (hbelow : Below s.room.readMarkers t.room.readMarkers)
    (hreceived : t.received = s.received ++ ms)
    (hms : ∀ r ∈ ms, NotNewer r m) : Waiting t m := by
  refine ⟨h.cached.trans hbelow, fun r hr => ?_⟩
  rw [hreceived] at hr
  rcases List.mem_append.mp hr with hr | hr
  · exact h.ordered r hr
  · exact hms r hr

/-- Without a new change. -/
theorem Waiting.later_of_same {s t : RaceState} {m : ReadMarkers} (h : Waiting s m)
    (hbelow : Below s.room.readMarkers t.room.readMarkers) (hreceived : t.received = s.received) :
    Waiting t m :=
  h.later hbelow (hreceived.trans (List.append_nil _).symm) fun _ hr => by cases hr

theorem waiting_of_delivered {s : RaceState} (h : RaceInv s) (a : Step) :
    ∀ m ∈ deliveredMarkers s.room a, Waiting s m := by
  intro m hm
  cases a with
  | send =>
    rw [deliveredMarkers, Option.mem_toList, Option.bind_eq_some_iff] at hm
    obtain ⟨change, hhead, hm⟩ := hm
    exact h.outbox change (List.mem_of_head? hhead) m hm
  | _ => cases hm

theorem length_deliveredMarkers (room : RoomState) (a : Step) :
    (deliveredMarkers room a).length ≤ 1 := by
  cases a with
  | send =>
    rw [deliveredMarkers]
    cases room.outbox.head?.bind RoomChangeEvent.readMarker <;> simp
  | _ => exact Nat.zero_le 1

/-- The outbox holds one change at most, so a step that leaves one in it has delivered nothing. -/
theorem deliveredMarkers_eq_nil {s : RaceState} (h : RaceInv s) {a : Step} {room : RoomState}
    (hroom : step s.room a = some room) {change : RoomChangeEvent}
    (hchange : change ∈ room.outbox) :
    deliveredMarkers s.room a = [] := by
  cases a with
  | send =>
    simp only [step] at hroom
    split at hroom
    · next first outbox hfirst =>
      obtain rfl := Option.some.inj hroom
      have hsingle := h.single
      rw [hfirst, List.length_cons] at hsingle
      obtain rfl : outbox = [] := List.eq_nil_of_length_eq_zero (by omega)
      cases hchange
    · cases hroom
  | _ => rfl

theorem raceInv_executor {s : RaceState} (h : RaceInv s) {a : Step} (hlive : a.isLive = true)
    {room : RoomState} (hroom : step s.room a = some room)
    (hok : ∀ m ∈ deliveredMarkers s.room a, ∀ waiting ∈ s.sending, NotNewer m waiting) :
    RaceInv { s with room, received := s.received ++ deliveredMarkers s.room a } := by
  have hlocal := liveStep_step hlive hroom
  have hdelivered := waiting_of_delivered h a
  have hall : ∀ r ∈ s.received ++ deliveredMarkers s.room a, Below r room.readMarkers := by
    intro r hr
    rcases List.mem_append.mp hr with hr | hr
    · exact (h.received r hr).trans hlocal.below
    · exact (hdelivered r hr).cached.trans hlocal.below
  refine ⟨hlocal.jobs h.jobs, ?_, hall, ?_, ?_,
    pairwise_deliver h (length_deliveredMarkers s.room a) hdelivered⟩
  · rcases hlocal.outbox h.jobs with ⟨changes, hout⟩ | ⟨change, hout, -⟩
    · have hsingle := h.single
      rw [hout, List.length_append] at hsingle
      exact (Nat.le_add_left _ _).trans hsingle
    · simp [hout]
  · exact fun m hm => (h.sending m hm).later hlocal.below rfl fun r hr => hok r hr m hm
  · intro change hchange m hm
    rcases hlocal.outbox h.jobs with ⟨changes, hout⟩ | ⟨change', hout, hcurrent⟩
    · have hold := h.outbox change (hout ▸ List.mem_append_right changes hchange) m hm
      refine hold.later hlocal.below rfl fun r hr => ?_
      rw [deliveredMarkers_eq_nil h hroom hchange] at hr
      cases hr
    · dsimp only at hchange
      rw [hout, List.mem_singleton] at hchange
      subst hchange
      exact ⟨(hcurrent m hm).below, fun r hr => notNewer_of_current (hall r hr) (hcurrent m hm)⟩

theorem raceInv_step {s t : RaceState} {a : RaceStep} (h : RaceInv s) (hok : NotOvertaking s a)
    (hstep : raceSystem.step s a = some t) : RaceInv t := by
  have hstep : raceStep s a = some t := hstep
  cases a with
  | executor a =>
    simp only [raceStep, Option.ite_none_right_eq_some, Option.map_eq_some_iff] at hstep
    obtain ⟨hlive, room, hroom, rfl⟩ := hstep
    exact raceInv_executor h hlive hroom hok
  | fetchStarts =>
    simp only [raceStep, Option.ite_none_right_eq_some, Option.some.injEq] at hstep
    obtain ⟨-, rfl⟩ := hstep
    exact ⟨h.jobs, h.single, h.received,
      fun m hm => (h.sending m hm).later_of_same (Below.refl _) rfl,
      fun c hc m hm => (h.outbox c hc m hm).later_of_same (Below.refl _) rfl, h.ordered⟩
  | fetchEvent markers =>
    simp only [raceStep, Option.ite_none_right_eq_some, step, Option.map_some,
      Option.some.injEq] at hstep
    obtain ⟨-, rfl⟩ := hstep
    have hbelow := below_foldl_cacheReadMarker markers s.room.readMarkers
    exact ⟨h.jobs, h.single, fun r hr => (h.received r hr).trans hbelow,
      fun m hm => (h.sending m hm).later_of_same hbelow rfl,
      fun c hc m hm => (h.outbox c hc m hm).later_of_same hbelow rfl, h.ordered⟩
  | updateReadMarkers =>
    simp only [raceStep, Option.ite_none_right_eq_some, Option.some.injEq] at hstep
    obtain ⟨-, rfl⟩ := hstep
    refine ⟨h.jobs, h.single, h.received, fun m hm => ?_,
      fun c hc m hm => (h.outbox c hc m hm).later_of_same (Below.refl _) rfl, h.ordered⟩
    have hm : changedMarkers s.currentReadMarkers s.room.readMarkers = some m := hm
    simp only [changedMarkers, Option.ite_none_right_eq_some, Option.some.injEq] at hm
    obtain ⟨-, rfl⟩ := hm
    exact ⟨Below.refl _, fun r hr => notNewer_of_current (h.received r hr) (fun _ _ hu => hu)⟩
  | fetchSends =>
    obtain ⟨m, hm, rfl⟩ := Option.map_eq_some_iff.mp hstep
    have hwaiting := h.sending m hm
    refine ⟨h.jobs, h.single, fun r hr => ?_, fun m h => (by cases h), fun c hc waiting hw => ?_,
      pairwise_deliver h (Nat.le_refl 1) (fun m' hm' => List.mem_singleton.mp hm' ▸ hwaiting)⟩
    · rcases List.mem_append.mp hr with hr | hr
      · exact h.received r hr
      · exact List.mem_singleton.mp hr ▸ hwaiting.cached
    · refine (h.outbox c hc waiting hw).later (Below.refl _) rfl fun r hr => ?_
      exact List.mem_singleton.mp hr ▸ hok m hm c hc waiting hw

/-! ## Runs -/

/-- In every run in which no change overtakes an older marker of one of its users, the markers
    that the application receives for a user never decrease. -/
theorem received_in_order (as : List RaceStep) (t : RaceState)
    (hok : raceSystem.Meets NotOvertaking RaceState.start as)
    (hrun : raceSystem.run RaceState.start as = some t) : t.received.Pairwise NotNewer := by
  have hinv : RaceInv t :=
    System.inv_of_run _ (fun s a u hs ha hstep => raceInv_step hs ha hstep) raceInv_start hok hrun
  exact hinv.ordered

/-- The fetch finds a marker of the user. -/
def markerFetched : List RaceStep :=
  [.fetchStarts, .fetchEvent [("@bob:x", 5)], .updateReadMarkers]

/-- A newer message of the user arrives and is sent. -/
def newerMessage : List RaceStep :=
  [.executor (.exec (.anyMessageLikeEvent "@bob:x" 7)), .executor (.proceed 0 0), .executor .send]

theorem received_in_order_of_waiting :
    [(Finmap.singleton "@bob:x" 5 : ReadMarkers), Finmap.singleton "@bob:x" 7].Pairwise NotNewer :=
  received_in_order (markerFetched ++ [.fetchSends] ++ newerMessage)
    ⟨{ RoomState.start with
        readMarkers := Finmap.singleton "@bob:x" 7
        view := ⟨none, none, Finmap.singleton "@bob:x" 7⟩ },
      Finmap.singleton "@bob:x" 5, none,
      [Finmap.singleton "@bob:x" 5, Finmap.singleton "@bob:x" 7]⟩
    (by decide +kernel) (by decide +kernel)

/-- The message is sent before the change of the fetch arrives: the marker goes from 7 to 5. -/
theorem outdated_marker :
    ∃ t, raceSystem.run RaceState.start (markerFetched ++ newerMessage ++ [.fetchSends]) = some t ∧
      t.received = [Finmap.singleton "@bob:x" 7, Finmap.singleton "@bob:x" 5] ∧
      ¬ t.received.Pairwise NotNewer :=
  ⟨⟨{ RoomState.start with
        readMarkers := Finmap.singleton "@bob:x" 7
        view := ⟨none, none, Finmap.singleton "@bob:x" 7⟩ },
      Finmap.singleton "@bob:x" 5, none,
      [Finmap.singleton "@bob:x" 7, Finmap.singleton "@bob:x" 5]⟩,
    by decide +kernel, rfl, by decide +kernel⟩

end GoudaMatrix.Events
