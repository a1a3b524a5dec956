/-
  Which raised read markers the application is told of.

  Five operations raise cached markers. A live message event and a `JoinedRoomUpdate` always send
  what they raise. A history fetch sends the cached markers behind each event that succeeds, so a
  marker that is raised by the event at which the fetch fails is not sent. `get_message` and the
  redecryption send no markers at all. `raised_markers_announced_iff` is the exact condition.
-/
import GoudaMatrix.Events.RoomChanges
import GoudaMatrix.MemoryCache.Fetching
import GoudaMatrix.MemoryCache.MarkerCalls
import GoudaMatrix.MemoryCache.RetryView

namespace GoudaMatrix.Events

open GoudaMatrix.Lib GoudaMatrix.Ruma GoudaMatrix.MemoryCache

/-! ## The markers of events -/

section Markers

variable {M : Type} (env : RoomEnv M)

/-- The markers that `process_timeline_event` caches for the event. -/
def eventMarkers (event : TimelineEvent) : ReadMarkers :=
  match readable event with
  | some event => CachedRoom.loadEventReadMarkers env event.header
  | none => ∅

def markersAfter (markers : ReadMarkers) (events : List TimelineEvent) : ReadMarkers :=
  events.foldl (fun markers event => cacheReadMarkers markers (eventMarkers env event)) markers

theorem lookup_cacheReadMarkers (markers new : ReadMarkers) (u : String) :
    (cacheReadMarkers markers new).lookup u = (new.lookup u).elim (markers.lookup u) fun value =>
      some (max ((markers.lookup u).getD 0) value) := by
  rw [cacheReadMarkers_eq_merge, lookup_mergeHashMapMax]
  cases new.lookup u <;> rfl

theorem below_cacheReadMarkers (markers new : ReadMarkers) :
    Below markers (cacheReadMarkers markers new) := by
  intro u ts hu
  rw [lookup_cacheReadMarkers, hu]
  cases new.lookup u with
  | none => exact ⟨ts, rfl, Nat.le_refl ts⟩
  | some value => exact ⟨max ts value, rfl, Nat.le_max_left ts value⟩

theorem cacheReadMarkers_of_below {markers new : ReadMarkers} (h : Below new markers) :
    cacheReadMarkers markers new = markers := by
  apply Finmap.ext_lookup
  intro u
  rw [lookup_cacheReadMarkers]
  cases hnew : new.lookup u with
  | none => rfl
  | some value =>
    obtain ⟨old, hold, hle⟩ := h u value hnew
    rw [hold, Option.elim_some, Option.getD_some, Nat.max_eq_left hle]

/-- Markers that are not below the cached ones raise one of them. -/
theorem exists_raisedTo_of_not_below {markers new : ReadMarkers} (h : ¬ Below new markers) :
    ∃ u ts, RaisedTo markers (cacheReadMarkers markers new) u ts := by
  simp only [Below, not_forall] at h
  obtain ⟨u, ts, hu, hnot⟩ := h
  have holder : ∀ old, markers.lookup u = some old → old < ts := by
    intro old hold
    by_contra hle
    exact hnot ⟨old, hold, by omega⟩
  refine ⟨u, ts, ?_, holder⟩
  rw [lookup_cacheReadMarkers, hu]
  cases hold : markers.lookup u with
  | none => simp
  | some old =>
    have hlt := holder old hold
    rw [Option.elim_some, Option.getD_some, Nat.max_eq_right (Nat.le_of_lt hlt)]

theorem readMarkers_perform (room : CachedRoom M) (effect : Effect) :
    (room.perform env effect).2.readMarkers = room.readMarkers := by
  cases effect <;> rfl

theorem readMarkers_processTimelineEvent (room : CachedRoom M) (event : TimelineEvent) :
    (room.processTimelineEvent env event).2.readMarkers
      = cacheReadMarkers room.readMarkers (eventMarkers env event) := by
  have hnone : cacheReadMarkers room.readMarkers ∅ = room.readMarkers :=
    cacheReadMarkers_of_below fun u ts hu => by
      rw [Finmap.lookup_empty] at hu
      cases hu
  rw [CachedRoom.processTimelineEvent_eq, readMarkers_perform]
  obtain ⟨kind, timestamp⟩ := event
  cases kind with
  | unableToDecrypt event sessionId => exact hnone.symm
  | decrypted event | plainText event =>
    cases event with
    | malformed => exact hnone.symm
    | ok event => rfl

theorem readMarkers_afterEvents (room : CachedRoom M) (events : List TimelineEvent) :
    (afterEvents env room events).readMarkers = markersAfter env room.readMarkers events := by
  induction events generalizing room with
  | nil => rfl
  | cons event events ih =>
    have htail := ih (room.processTimelineEvent env event).2
    rw [readMarkers_processTimelineEvent] at htail
    exact htail

theorem below_markersAfter (markers : ReadMarkers) (events : List TimelineEvent) :
    Below markers (markersAfter env markers events) := by
  induction events generalizing markers with
  | nil => exact Below.refl markers
  | cons event events ih => exact (below_cacheReadMarkers markers _).trans (ih _)

end Markers

theorem below_singleton (u : String) {ts ts' : Nat} (h : ts ≤ ts') :
    Below (Finmap.singleton u ts) (Finmap.singleton u ts') := by
  intro u' t ht
  obtain rfl : u' = u := by
    have hmem : u' ∈ (Finmap.singleton u ts : ReadMarkers) := Finmap.mem_of_lookup_eq_some ht
    exact Finmap.mem_singleton u' u ts |>.mp hmem
  obtain rfl := Option.some.inj (Finmap.lookup_singleton_eq.symm.trans ht)
  exact ⟨ts', Finmap.lookup_singleton_eq, h⟩

/-! ## Announcements -/

/-- The application has been sent the new marker of every user whose marker has been raised. -/
def MarkersSent (before after : ReadMarkers) (sent : List ReadMarkers) : Prop :=
  ∀ u ts, RaisedTo before after u ts → ∃ markers ∈ sent, markers.lookup u = some ts

theorem announced_refl (markers : ReadMarkers) (sent : List ReadMarkers) :
    MarkersSent markers markers sent := by
  rintro u ts ⟨hu, hnew⟩
  exact absurd (hnew ts hu) (Nat.lt_irrefl ts)

theorem announced_of_mem {after : ReadMarkers} {sent : List ReadMarkers} (before : ReadMarkers)
    (h : after ∈ sent) : MarkersSent before after sent := fun _ _ hraised => ⟨after, h, hraised.1⟩

/-- More markers are cached and nothing is sent: that is announced only if none is raised. -/
theorem announced_cacheReadMarkers_iff {before cached : ReadMarkers} {sent : List ReadMarkers}
    (hbelow : Below before cached) (hsent : ∀ m ∈ sent, Below m cached)
    (h : MarkersSent before cached sent) (new : ReadMarkers) :
    MarkersSent before (cacheReadMarkers cached new) sent ↔ Below new cached := by
  constructor
  · intro hannounced
    by_contra hnot
    obtain ⟨u, ts, hu, hnew⟩ := exists_raisedTo_of_not_below hnot
    have hraised : RaisedTo before (cacheReadMarkers cached new) u ts := by
      refine ⟨hu, fun old hold => ?_⟩
      obtain ⟨old', hold', hle⟩ := hbelow u old hold
      exact Nat.lt_of_le_of_lt hle (hnew old' hold')
    obtain ⟨m, hm, hlookup⟩ := hannounced u ts hraised
    obtain ⟨old, hold, hle⟩ := hsent m hm u ts hlookup
    have hlt := hnew old hold
    omega
  · intro hnew
    rw [cacheReadMarkers_of_below hnew]
    exact h

/-- Events are processed and nothing is sent. -/
theorem announced_markersAfter_iff {M : Type} (env : RoomEnv M) (markers : ReadMarkers)
    (events : List TimelineEvent) : MarkersSent markers (markersAfter env markers events) []
      ↔ ∀ event ∈ events, Below (eventMarkers env event) markers := by
  induction events with
  | nil => exact ⟨fun _ => List.forall_mem_nil _, fun _ => announced_refl markers []⟩
  | cons event events ih =>
    rw [List.forall_mem_cons, markersAfter, List.foldl_cons]
    by_cases hevent : Below (eventMarkers env event) markers
    · rw [cacheReadMarkers_of_below hevent]
      exact ih.trans ⟨fun h => ⟨hevent, h⟩, fun h => h.2⟩
    · refine iff_of_false (fun h => ?_) (fun h => hevent h.1)
      obtain ⟨u, ts, hu, hnew⟩ := exists_raisedTo_of_not_below hevent
      obtain ⟨ts', hu', hle⟩ := below_markersAfter env _ events u ts hu
      obtain ⟨m, hm, -⟩ := h u ts' ⟨hu', fun old hold => Nat.lt_of_lt_of_le (hnew old hold) hle⟩
      cases hm

/-! ## A fetch -/

section Fetch

variable {M E : Type} (env : RoomEnv M) (received : Nat → Bool)

/-- A fetch that has sent `count` messages sends those of the events `before` and then fails at
    `event`, whose processing fails or whose message meets a receiver that has been dropped. -/
structure FailsAt (limit count : Nat) (room : CachedRoom M) (before : List TimelineEvent)
    (event : TimelineEvent) : Prop where
  ok : MessagesFetcher.ProcessedOk env room before
  below : count + (messagesOf env room before).length < limit
  heard : ∀ n < (messagesOf env room before).length, received (count + n) = true
  fails : ((afterEvents env room before).processTimelineEvent env event).1.isOk = false ∨
    (messageOf env (afterEvents env room before) event).isSome = true ∧
      received (count + (messagesOf env room before).length) = false

/-- The event at which the fetch fails raises no marker. -/
def FailsQuietly (limit count : Nat) (room : CachedRoom M)
    (items : List (MessagesFetcher.FeedItem E)) : Prop :=
  ∀ before event behind, items = before.map .event ++ .event event :: behind →
    FailsAt env received limit count room before event →
    Below (eventMarkers env event) (markersAfter env room.readMarkers before)

/-- What has been sent covers all markers that have been raised since `before`. -/
structure UpToDate (before : ReadMarkers) (room : CachedRoom M) (f : MessagesFetcher) : Prop where
  sends : f.sendReadMarkers = true
  current : f.currentReadMarkers = room.readMarkers
  below : Below before room.readMarkers
  sent : ∀ m ∈ f.readMarkers, Below m room.readMarkers
  announced : MarkersSent before room.readMarkers f.readMarkers

theorem UpToDate.next {before : ReadMarkers} {room room' : CachedRoom M} {f f' : MessagesFetcher}
    (h : UpToDate before room f) (hbelow : Below room.readMarkers room'.readMarkers)
    (hsends : f'.sendReadMarkers = f.sendReadMarkers)
    (hcurrent : f'.currentReadMarkers = f.currentReadMarkers)
    (hsent : f'.readMarkers = f.readMarkers) :
    UpToDate before room' (f'.updateReadMarkers room'.readMarkers) := by
  have hall : ∀ m ∈ f'.readMarkers, Below m room'.readMarkers :=
    fun m hm => (h.sent m (hsent ▸ hm)).trans hbelow
  unfold MessagesFetcher.updateReadMarkers
  split
  · refine ⟨hsends.trans h.sends, rfl, h.below.trans hbelow, fun m hm => ?_, ?_⟩
    · rcases List.mem_append.mp hm with hm | hm
      · exact hall m hm
      · exact List.mem_singleton.mp hm ▸ Below.refl _
    · exact announced_of_mem before (List.mem_append_right _ List.mem_cons_self)
  · next hsame =>
    have hsame : room'.readMarkers = f'.currentReadMarkers := by
      simpa [hsends, h.sends] using hsame
    have hmarkers : room'.readMarkers = room.readMarkers :=
      hsame.trans (hcurrent.trans h.current)
    refine ⟨hsends.trans h.sends, hsame.symm, h.below.trans hbelow, hall, ?_⟩
    rw [hmarkers, hsent]
    exact h.announced

theorem sendAction_fields {f f' : MessagesFetcher} {action : Option CachedRoomAction}
    (h : f.sendAction received action = .ok f') :
    f'.sendReadMarkers = f.sendReadMarkers ∧ f'.currentReadMarkers = f.currentReadMarkers ∧
      f'.readMarkers = f.readMarkers ∧ f'.messageLimit = f.messageLimit ∧
      f'.retrievedMessages
        = f.retrievedMessages + (MessagesFetcher.messageOfAction action).toList.length ∧
      ∀ n < (MessagesFetcher.messageOfAction action).toList.length,
        received (f.retrievedMessages + n) = true := by
  rcases action with - | (message | reaction)
  · obtain rfl := Except.ok.inj h
    exact ⟨rfl, rfl, rfl, rfl, rfl, fun n hn => absurd hn (Nat.not_lt_zero n)⟩
  · simp only [MessagesFetcher.sendAction] at h
    split at h
    · next hreceived =>
      obtain rfl := Except.ok.inj h
      refine ⟨rfl, rfl, rfl, rfl, rfl, fun n hn => ?_⟩
      obtain rfl : n = 0 := by simpa [MessagesFetcher.messageOfAction] using hn
      exact hreceived
    · cases h
  · obtain rfl := Except.ok.inj h
    exact ⟨rfl, rfl, rfl, rfl, rfl, fun n hn => absurd hn (Nat.not_lt_zero n)⟩

theorem sendAction_error {f : MessagesFetcher} {action : Option CachedRoomAction}
    {e : MemoryCacheError} (h : f.sendAction received action = .error e) :
    (MessagesFetcher.messageOfAction action).isSome = true ∧
      received f.retrievedMessages = false := by
  rcases action with - | (message | reaction)
  · cases h
  · simp only [MessagesFetcher.sendAction] at h
    split at h
    · cases h
    · next hreceived => exact ⟨rfl, by simpa using hreceived⟩
  · cases h

theorem messageOf_eq_messageOfAction {room room' : CachedRoom M} {event : TimelineEvent}
    {action : Option CachedRoomAction}
    (h : room.processTimelineEvent env event = (.ok action, room')) :
    messageOf env room event = MessagesFetcher.messageOfAction action := by
  rw [messageOf, h]
  rcases action with - | (message | reaction) <;> rfl

/-- The first event fails: no other one is reached. -/
theorem failsQuietly_of_first {limit count : Nat} {room : CachedRoom M} {event : TimelineEvent}
    {items : List (MessagesFetcher.FeedItem E)} (hlimit : count < limit)
    (hfails : (room.processTimelineEvent env event).1.isOk = false ∨
      (messageOf env room event).isSome = true ∧ received count = false) :
    FailsQuietly env received limit count room (.event event :: items)
      ↔ Below (eventMarkers env event) room.readMarkers := by
  constructor
  · intro h
    exact h [] event items rfl ⟨trivial, hlimit, nofun, hfails⟩
  · intro hbelow before event' behind hitems hat
    cases before with
    | nil =>
      obtain ⟨hevent, -⟩ := List.cons.inj hitems
      obtain rfl := MessagesFetcher.FeedItem.event.inj hevent
      exact hbelow
    | cons first before =>
      obtain ⟨hevent, -⟩ := List.cons.inj hitems
      obtain rfl := MessagesFetcher.FeedItem.event.inj hevent
      rcases hfails with herror | ⟨hmessage, hdropped⟩
      · rw [hat.ok.1] at herror
        cases herror
      · have hone : 0 < (messagesOf env room (event :: before)).length := by
          obtain ⟨message, hmessage⟩ := Option.isSome_iff_exists.mp hmessage
          simp [messagesOf, hmessage]
        have hzero := hat.heard 0 hone
        rw [Nat.add_zero, hdropped] at hzero
        cases hzero

theorem messagesOf_cons_of_ok {room room' : CachedRoom M} {event : TimelineEvent}
    {action : Option CachedRoomAction}
    (hevent : room.processTimelineEvent env event = (.ok action, room'))
    (before : List TimelineEvent) : messagesOf env room (event :: before)
      = (MessagesFetcher.messageOfAction action).toList ++ messagesOf env room' before := by
  have hroom : (room.processTimelineEvent env event).2 = room' := by rw [hevent]
  rw [messagesOf, messageOf_eq_messageOfAction env hevent, hroom]

theorem afterEvents_cons_of_ok {room room' : CachedRoom M} {event : TimelineEvent}
    {action : Option CachedRoomAction}
    (hevent : room.processTimelineEvent env event = (.ok action, room'))
    (before : List TimelineEvent) :
    afterEvents env room (event :: before) = afterEvents env room' before := by
  rw [afterEvents, List.foldl_cons, hevent]
  rfl

/-- The fetch fails behind an event that succeeds. -/
theorem failsAt_cons_iff (limit : Nat) {count : Nat} {room room' : CachedRoom M}
    {event : TimelineEvent} {action : Option CachedRoomAction}
    (hevent : room.processTimelineEvent env event = (.ok action, room'))
    (hreceived : ∀ n < (MessagesFetcher.messageOfAction action).toList.length,
      received (count + n) = true) (before : List TimelineEvent) (event' : TimelineEvent) :
    FailsAt env received limit count room (event :: before) event'
      ↔ FailsAt env received limit
          (count + (MessagesFetcher.messageOfAction action).toList.length) room' before event' := by
  have hroom : (room.processTimelineEvent env event).2 = room' := by rw [hevent]
  constructor
  · rintro ⟨hok, hbelow, hall, hfails⟩
    rw [messagesOf_cons_of_ok env hevent, List.length_append] at hbelow hall hfails
    rw [afterEvents_cons_of_ok env hevent, ← Nat.add_assoc] at hfails
    refine ⟨hroom ▸ hok.2, by omega, fun n hn => ?_, hfails⟩
    rw [Nat.add_assoc]
    exact hall _ (by omega)
  · rintro ⟨hok, hbelow, hall, hfails⟩
    refine ⟨⟨by rw [hevent]; rfl, hroom.symm ▸ hok⟩, ?_, fun n hn => ?_, ?_⟩
    · rw [messagesOf_cons_of_ok env hevent, List.length_append]
      omega
    · rw [messagesOf_cons_of_ok env hevent, List.length_append] at hn
      by_cases hfirst : n < (MessagesFetcher.messageOfAction action).toList.length
      · exact hreceived n hfirst
      · have hlater := hall (n - (MessagesFetcher.messageOfAction action).toList.length) (by omega)
        rwa [Nat.add_assoc, Nat.add_sub_cancel' (by omega)] at hlater
    · rw [messagesOf_cons_of_ok env hevent, afterEvents_cons_of_ok env hevent, List.length_append,
        ← Nat.add_assoc]
      exact hfails

/-- The first event succeeds. -/
theorem failsQuietly_of_ok {limit count : Nat} {room room' : CachedRoom M} {event : TimelineEvent}
    {action : Option CachedRoomAction} {items : List (MessagesFetcher.FeedItem E)}
    (hevent : room.processTimelineEvent env event = (.ok action, room'))
    (hreceived : ∀ n < (MessagesFetcher.messageOfAction action).toList.length,
      received (count + n) = true) :
    FailsQuietly env received limit count room (.event event :: items)
      ↔ FailsQuietly env received limit
          (count + (MessagesFetcher.messageOfAction action).toList.length) room' items := by
  have hcached : ∀ before, markersAfter env room.readMarkers (event :: before)
      = markersAfter env room'.readMarkers before := by
    intro before
    have hmarkers : room'.readMarkers
        = cacheReadMarkers room.readMarkers (eventMarkers env event) := by
      rw [← readMarkers_processTimelineEvent, hevent]
    rw [hmarkers]
    rfl
  have hat := failsAt_cons_iff env received limit hevent hreceived
  constructor
  · intro h before event' behind hitems hfails
    rw [← hcached]
    exact h (event :: before) event' behind (by rw [hitems]; rfl) ((hat before event').mpr hfails)
  · intro h before event' behind hitems hfails
    cases before with
    | nil =>
      -- the event itself does not fail
      obtain ⟨hsame, -⟩ := List.cons.inj hitems
      obtain rfl := MessagesFetcher.FeedItem.event.inj hsame
      exfalso
      rcases hfails.fails with herror | ⟨hsome, hdropped⟩
      · rw [afterEvents, List.foldl_nil, hevent] at herror
        cases herror
      · rw [afterEvents, List.foldl_nil, messageOf_eq_messageOfAction env hevent] at hsome
        obtain ⟨message, hsome⟩ := Option.isSome_iff_exists.mp hsome
        have hzero := hreceived 0 (by simp [hsome])
        rw [messagesOf, List.length_nil, hzero] at hdropped
        cases hdropped
    | cons first before =>
      obtain ⟨hsame, hrest⟩ := List.cons.inj hitems
      obtain rfl := MessagesFetcher.FeedItem.event.inj hsame
      rw [hcached]
      exact h before event' behind hrest ((hat before event').mp hfails)

theorem failsQuietly_of_limit {limit count : Nat} (room : CachedRoom M)
    (items : List (MessagesFetcher.FeedItem E)) (h : ¬ count < limit) :
    FailsQuietly env received limit count room items := by
  intro before event behind _ hat
  have hbelow := hat.below
  omega

theorem failsQuietly_of_no_event {limit count : Nat} (room : CachedRoom M)
    {item : MessagesFetcher.FeedItem E} {items : List (MessagesFetcher.FeedItem E)}
    (h : ∀ event, item ≠ .event event) :
    FailsQuietly env received limit count room (item :: items) := by
  intro before event behind hitems
  cases before with
  | nil => exact absurd (List.cons.inj hitems).1 (h event)
  | cons first before => exact absurd (List.cons.inj hitems).1 (h first)

/-- A fetch has announced what it has raised exactly if it has not failed at an event that raised
    a marker. -/
theorem announced_fetchFeed_iff {before : ReadMarkers} {room : CachedRoom M} {f : MessagesFetcher}
    (h : UpToDate before room f) (items : List (MessagesFetcher.FeedItem E)) :
    MarkersSent before (MessagesFetcher.fetchFeed env received room f items).2.1.readMarkers
        (MessagesFetcher.fetchFeed env received room f items).2.2.readMarkers
      ↔ FailsQuietly env received f.messageLimit f.retrievedMessages room items := by
  induction items generalizing room f with
  | nil =>
    refine iff_of_true h.announced fun before event behind hitems => ?_
    cases before <;> cases hitems
  | cons item items ih =>
    by_cases hlimit : f.retrievedMessages < f.messageLimit
    · cases item with
      | endOfTimeline =>
        rw [MessagesFetcher.fetchFeed, if_pos hlimit]
        exact iff_of_true h.announced
          (failsQuietly_of_no_event env received room fun event heq => by cases heq)
      | failure e =>
        rw [MessagesFetcher.fetchFeed, if_pos hlimit]
        exact iff_of_true h.announced
          (failsQuietly_of_no_event env received room fun event heq => by cases heq)
      | event event =>
        rw [MessagesFetcher.fetchFeed_event env received hlimit]
        have hcached := readMarkers_processTimelineEvent env room event
        rcases hevent : room.processTimelineEvent env event with ⟨result, room'⟩
        rw [hevent] at hcached
        have hraised : MarkersSent before room'.readMarkers f.readMarkers
            ↔ Below (eventMarkers env event) room.readMarkers := by
          rw [show room'.readMarkers = _ from hcached]
          exact announced_cacheReadMarkers_iff h.below h.sent h.announced _
        cases result with
        | error e =>
          refine hraised.trans (failsQuietly_of_first env received hlimit (.inl ?_)).symm
          rw [hevent]
          rfl
        | ok action =>
          dsimp only
          cases hsend : f.sendAction received action with
          | error e =>
            obtain ⟨hmessage, hdropped⟩ := sendAction_error received hsend
            refine hraised.trans (failsQuietly_of_first env received hlimit
              (.inr ⟨?_, hdropped⟩)).symm
            rw [messageOf_eq_messageOfAction env hevent]
            exact hmessage
          | ok f' =>
            obtain ⟨hsends, hcurrent, hsent, hmessageLimit, hcount, hheard⟩ :=
              sendAction_fields received hsend
            have hbelow : Below room.readMarkers room'.readMarkers := by
              rw [show room'.readMarkers = _ from hcached]
              exact below_cacheReadMarkers _ _
            have hnext := ih (h.next hbelow hsends hcurrent hsent)
            rw [MessagesFetcher.updateReadMarkers_messageLimit,
              MessagesFetcher.updateReadMarkers_retrievedMessages, hmessageLimit, hcount] at hnext
            exact hnext.trans (failsQuietly_of_ok env received hevent hheard).symm
    · rw [MessagesFetcher.fetchFeed_of_limit env received room hlimit]
      exact iff_of_true h.announced (failsQuietly_of_limit env received room _ hlimit)

end Fetch

/-! ## The operations -/

/-- The operations that raise cached read markers. `getMessage` is a `get_message` whose event
    and relations have been loaded. -/
inductive MarkerOperation (E : Type) where
  | messageEvent (sender : String) (ts : Nat)
  | joinedRoomUpdate (ephemeral : List EphemeralEvent)
  | getRoomMessages (limit : Nat) (received : Nat → Bool) (answers : List (Except E Chunk))
  | getMessage (event : TimelineEvent) (relations : List TimelineEvent)
  | retryDecryption (events : Option (List String))

namespace MarkerOperation

variable {M E : Type} (env : RoomEnv M)

/-- The executor at an action, with the markers of the room. -/
def executorAt (queue : List RoomChangeEvent) (room : CachedRoom M) : RoomState :=
  { RoomState.start with queue, readMarkers := room.readMarkers }

/-- The cached read markers after the operation. -/
def markers (queue : List RoomChangeEvent) (room : CachedRoom M) : MarkerOperation E → ReadMarkers
  | messageEvent sender ts =>
    (execAnyMessageLikeEvent (executorAt queue room) sender ts).readMarkers
  | joinedRoomUpdate ephemeral =>
    (execJoinedRoomUpdate (executorAt queue room) ephemeral).readMarkers
  | getRoomMessages limit received answers =>
    (MessagesFetcher.run env received limit true room answers).room.readMarkers
  | getMessage event relations => (room.fetchMessage env event relations).2.readMarkers
  | retryDecryption events => (room.retryDecryption env events).2.1.readMarkers

/-- The read markers of the changes that the application is sent. -/
def sent (queue : List RoomChangeEvent) (room : CachedRoom M) :
    MarkerOperation E → List ReadMarkers
  | messageEvent sender ts =>
    (execAnyMessageLikeEvent (executorAt queue room) sender ts).outbox.filterMap (·.readMarker)
  | joinedRoomUpdate ephemeral =>
    (execJoinedRoomUpdate (executorAt queue room) ephemeral).outbox.filterMap (·.readMarker)
  | getRoomMessages limit received answers =>
    (MessagesFetcher.run env received limit true room answers).readMarkers
  -- the result is a message, and the redecryption sends message events
  | getMessage _ _ | retryDecryption _ => []

/-- No event is processed whose markers are newer than the cached ones and not sent. -/
def Quiet (room : CachedRoom M) : MarkerOperation E → Prop
  | messageEvent _ _ | joinedRoomUpdate _ => True
  | getRoomMessages limit received answers =>
    FailsQuietly env received limit 0 room (MessagesFetcher.feed answers)
  | getMessage event relations => ∀ e ∈ upToFirst startsUnknownPoll (relations ++ [event]),
      Below (eventMarkers env e) room.readMarkers
  | retryDecryption events => ∀ e ∈ upToFirst startsUnknownPoll
        ((room.getEventsForRedecryption env events).filterMap (CachedRoom.retried env)),
      Below (eventMarkers env e) room.readMarkers

end MarkerOperation

/-! ## The executor -/

theorem trackedCached_sendIfNew {s : RoomState} {proto : RoomChangeEvent} {after : ReadMarkers}
    (h : TrackedCached s) (hbelow : Below s.readMarkers after)
    (hnew : ∀ m, proto.readMarker = some m → m ≠ ∅ ∧ Below m after) :
    TrackedCached (RoomState.sendIfNew { s with readMarkers := after } proto) := by
  unfold RoomState.sendIfNew
  split
  · intro change m hlast hm
    rw [getLast?_trackRoomChange, Option.some.injEq] at hlast
    exact hnew m (hlast ▸ hm)
  · exact fun change m hlast hm => ⟨(h change m hlast hm).1, (h change m hlast hm).2.trans hbelow⟩

theorem raised_of_getReadMarker {cached m : ReadMarkers} {ephemeral : List EphemeralEvent}
    (h : (getReadMarker cached ephemeral).1 = some m) :
    m ≠ ∅ ∧ ∀ u ts, m.lookup u = some ts ↔
      RaisedTo cached (getReadMarker cached ephemeral).2 u ts := by
  refine ⟨getReadMarker_ne_empty h, fun u ts => ?_⟩
  have hlookup := lookup_getReadMarker cached ephemeral u ts
  rwa [h] at hlookup

theorem trackedCached_runJob {s : RoomState} (h : TrackedCached s) (now numUnreadMessages : Nat)
    (job : Job) : TrackedCached (runJob s now numUnreadMessages job) := by
  have hmono : ∀ {t : RoomState}, t.queue = s.queue → Below s.readMarkers t.readMarkers →
      TrackedCached t := by
    intro t hqueue hbelow change m hlast hm
    rw [hqueue] at hlast
    exact ⟨(h change m hlast hm).1, (h change m hlast hm).2.trans hbelow⟩
  have houtcome := jobOutcome_runJob s now numUnreadMessages job
  generalize runJob s now numUnreadMessages job = t at houtcome ⊢
  cases houtcome with
  | queuedRoomChanges =>
    intro change m hlast
    cases hlast
  | quiet _ readMarkers hbelow => exact hmono rfl hbelow
  | messageMarker sender ts m readMarkers hraised => exact hmono rfl hraised.below
  | olderMark | cleared => exact h
  | sendIfNew _ proto readMarkers hraised hne =>
    refine trackedCached_sendIfNew h hraised.below fun m hm => ⟨hne m hm, ?_⟩
    rw [hm] at hraised
    exact hraised.below_result

theorem trackedCached_step {s t : RoomState} {a : Step} (h : TrackedCached s)
    (hstep : executorSystem.step s a = some t) : TrackedCached t := by
  have hstep : step s a = some t := hstep
  cases a with
  | exec action =>
    obtain ⟨-, -, rfl⟩ := step_exec_eq_some hstep
    exact h
  | proceed now numUnreadMessages =>
    obtain ⟨job, jobs, -, -, rfl⟩ := step_proceed_eq_some hstep
    have hrest : TrackedCached { s with jobs } := h
    exact trackedCached_runJob hrest now numUnreadMessages job
  | send =>
    obtain ⟨change, outbox, -, rfl⟩ := step_send_eq_some hstep
    exact h
  | returnMarkAsRead =>
    obtain ⟨-, rfl⟩ := step_returnMarkAsRead_eq_some hstep
    exact h
  | markAsRead | sendElsewhere =>
    obtain rfl := Option.some.inj hstep
    exact h
  | cacheReadMarkers markers =>
    obtain rfl := Option.some.inj hstep
    have hbelow := below_foldl_cacheReadMarker markers s.readMarkers
    exact fun change m hlast hm => ⟨(h change m hlast hm).1, (h change m hlast hm).2.trans hbelow⟩

theorem announced_messageEvent (s : RoomState) (sender : String) (ts : Nat) :
    MarkersSent s.readMarkers (execAnyMessageLikeEvent s sender ts).readMarkers
      ((execAnyMessageLikeEvent s sender ts).outbox.filterMap (·.readMarker)) := by
  by_cases hnew : ∀ old, s.readMarkers.lookup sender = some old → old < ts
  · have hexec : execAnyMessageLikeEvent s sender ts
        = { s with
            readMarkers := s.readMarkers.insert sender ts
            outbox := [⟨none, none, some (Finmap.singleton sender ts)⟩] } := by
      rw [execAnyMessageLikeEvent, cacheReadMarker_of_newer hnew]
      rfl
    rw [hexec]
    rintro u ts' ⟨hu, hraised⟩
    refine ⟨Finmap.singleton sender ts, by simp, ?_⟩
    by_cases huser : u = sender
    · subst huser
      have hts : some ts = some ts' := (Finmap.lookup_insert s.readMarkers).symm.trans hu
      obtain rfl := Option.some.inj hts
      exact Finmap.lookup_singleton_eq
    · have hold := (Finmap.lookup_insert_of_ne _ huser).symm.trans hu
      exact absurd (hraised ts' hold) (Nat.lt_irrefl ts')
  · push Not at hnew
    obtain ⟨old, hold, hle⟩ := hnew
    rw [execAnyMessageLikeEvent, cacheReadMarker_of_older hold hle]
    exact announced_refl _ _

theorem announced_joinedRoomUpdate {s : RoomState} (h : TrackedCached s)
    (ephemeral : List EphemeralEvent) :
    MarkersSent s.readMarkers (execJoinedRoomUpdate s ephemeral).readMarkers
      ((execJoinedRoomUpdate s ephemeral).outbox.filterMap (·.readMarker)) := by
  have hreadMarkers : (execJoinedRoomUpdate s ephemeral).readMarkers
      = (getReadMarker s.readMarkers ephemeral).2 := by
    unfold execJoinedRoomUpdate RoomState.sendIfNew
    dsimp only
    split
    · rfl
    · split <;> rfl
  rw [hreadMarkers]
  cases hmarker : (getReadMarker s.readMarkers ephemeral).1 with
  | none =>
    intro u ts hraised
    exact absurd hraised ((getReadMarker_eq_none_iff _ _).mp hmarker u ts)
  | some m =>
    obtain ⟨hne, hlookup⟩ := raised_of_getReadMarker hmarker
    intro u ts hraised
    refine ⟨m, ?_, (hlookup u ts).mpr hraised⟩
    have hnew : isNewRoomChange s.queue ⟨none, getUserTypingList ephemeral, some m⟩ = true :=
      isNewRoomChange_of_raised h rfl hne fun u ts hu => ((hlookup u ts).mp hu).2
    unfold execJoinedRoomUpdate RoomState.sendIfNew
    simp [hmarker, hnew]

/-! ## The operations together -/

theorem finish_room {M E : Type} (received : Nat → Bool)
    (r : Option (Except (FetchError E) Unit) × CachedRoom M × MessagesFetcher) :
    (MessagesFetcher.finish received r).room = r.2.1 ∧
      (MessagesFetcher.finish received r).readMarkers = r.2.2.readMarkers := by
  rcases r with ⟨_ | _ | _, room, f⟩ <;> exact ⟨rfl, rfl⟩

/-- `get_message` processes its events up to the first one that fails. -/
theorem room_fetchMessage {M : Type} (env : RoomEnv M) (room : CachedRoom M) (event : TimelineEvent)
    (relations : List TimelineEvent) : (room.fetchMessage env event relations).2
      = afterEvents env room (upToFirst startsUnknownPoll (relations ++ [event])) := by
  induction relations generalizing room with
  | nil =>
    have hone : upToFirst startsUnknownPoll ([] ++ [event]) = [event] := by
      simp [upToFirst]
    rw [hone]
    show _ = (room.processTimelineEvent env event).2
    unfold CachedRoom.fetchMessage CachedRoom.processEvents
    dsimp only
    rcases room.processTimelineEvent env event with ⟨_ | _ | (_ | _), _⟩ <;> rfl
  | cons relation relations ih =>
    have hok := room.processTimelineEvent_isOk env relation
    have htail := ih (room.processTimelineEvent env relation).2
    rw [List.cons_append, upToFirst, afterEvents, List.foldl_cons]
    unfold CachedRoom.fetchMessage CachedRoom.processEvents
    generalize room.processTimelineEvent env relation = r at hok htail ⊢
    obtain ⟨result, room'⟩ := r
    cases result with
    | error e =>
      have hpoll : startsUnknownPoll relation = true := by
        simpa using hok.symm
      rw [if_pos hpoll]
      rfl
    | ok action =>
      have hpoll : startsUnknownPoll relation = false := by
        simpa using hok.symm
      rw [if_neg (by simp [hpoll])]
      refine Eq.trans ?_ htail
      unfold CachedRoom.fetchMessage
      dsimp only
      rcases room'.processEvents env relations with ⟨_ | _, _, _⟩ <;> rfl

/-- In every state of the executor and of the cached room, an operation has sent the new marker
    of every user whose cached marker it raised, exactly if it is quiet. -/
theorem raised_markers_announced_iff {M E : Type} (env : RoomEnv M) (as : List Step) (t : RoomState)
    (hrun : executorSystem.run RoomState.start as = some t) (room : CachedRoom M)
    (hroom : room.readMarkers = t.readMarkers) (op : MarkerOperation E) :
    MarkersSent room.readMarkers (op.markers env t.queue room) (op.sent env t.queue room)
      ↔ op.Quiet env room := by
  have htracked : TrackedCached (MarkerOperation.executorAt t.queue room) := by
    have hstart : TrackedCached RoomState.start := fun change m hlast => by cases hlast
    have ht := System.inv_of_any_run _
      (fun s a t hs hstep => trackedCached_step hs hstep) hstart hrun
    intro change m hlast hm
    have hcached := ht change m hlast hm
    rw [← hroom] at hcached
    exact hcached
  cases op with
  | messageEvent sender ts =>
    exact iff_of_true (announced_messageEvent _ sender ts) trivial
  | joinedRoomUpdate ephemeral =>
    exact iff_of_true (announced_joinedRoomUpdate htracked ephemeral) trivial
  | getRoomMessages limit received answers =>
    have hstart : UpToDate room.readMarkers room (MessagesFetcher.start limit true room) :=
      ⟨rfl, rfl, Below.refl _, List.forall_mem_nil _, announced_refl _ _⟩
    have hfetch := announced_fetchFeed_iff env received hstart (MessagesFetcher.feed answers)
    obtain ⟨hroom', hsent⟩ := finish_room received (MessagesFetcher.fetchFeed env received room
      (MessagesFetcher.start limit true room) (MessagesFetcher.feed answers))
    rw [MarkerOperation.markers, MarkerOperation.sent, MessagesFetcher.run_eq, hroom', hsent]
    exact hfetch
  | getMessage event relations =>
    rw [MarkerOperation.markers, MarkerOperation.sent, room_fetchMessage, readMarkers_afterEvents]
    exact announced_markersAfter_iff env _ _
  | retryDecryption events =>
    rw [MarkerOperation.markers, MarkerOperation.sent, CachedRoom.retryDecryption, retryEvents_eq,
      readMarkers_afterEvents]
    exact announced_markersAfter_iff env _ _

/-- A text message. -/
def textEvent (id sender : String) (ts : Nat) : TimelineEvent :=
  ⟨.plainText (.ok (.messageLike (.roomMessage (.original
    ⟨id, sender, ts, "!r", ⟨.text "Hello", none, none⟩⟩)))), some ts⟩

/-- A receipt is sent and tracked. -/
def receiptSent : List Step :=
  [.exec (.joinedRoomUpdate [.receipt [some [("@bob:x", some 10)]]]), .proceed 0 0, .send,
    .proceed 0 0, .send]

def afterReceipt : RoomState :=
  { RoomState.start with
    queue := [⟨some 0, none, none⟩, ⟨none, none, some (Finmap.singleton "@bob:x" 10)⟩]
    readMarkers := Finmap.singleton "@bob:x" 10
    view := ⟨some 0, none, Finmap.singleton "@bob:x" 10⟩ }

/-- A poll of an unknown kind. -/
def quizEvent (id sender : String) (ts : Nat) : TimelineEvent :=
  ⟨.plainText (.ok (.messageLike (.unstablePollStart (.original
    ⟨id, sender, ts, "!r", .new ⟨"Who?", .custom "m.quiz", 1, [⟨"a", "Ann"⟩]⟩⟩)))), some ts⟩

/-- A page with a newer message of the same user, and an older event at which the fetch fails. -/
def bobsPage : MarkerOperation Unit :=
  .getRoomMessages 10 (fun _ => true)
    [.ok ⟨[textEvent "$2" "@bob:x" 20, quizEvent "$1" "@bob:x" 15], true⟩]

theorem raised_markers_announced_of_page :
    MarkersSent (Finmap.singleton "@bob:x" 10) (Finmap.singleton "@bob:x" 20)
      [Finmap.singleton "@bob:x" 20] := by
  have hmarkers : bobsPage.markers (RoomEnv.bare "!r") afterReceipt.queue
      { CachedRoom.new () with readMarkers := afterReceipt.readMarkers }
        = Finmap.singleton "@bob:x" 20 := by decide +kernel
  have hsent : bobsPage.sent (RoomEnv.bare "!r") afterReceipt.queue
      { CachedRoom.new () with readMarkers := afterReceipt.readMarkers }
        = [Finmap.singleton "@bob:x" 20] := by decide +kernel
  have hannounced := raised_markers_announced_iff (RoomEnv.bare "!r") receiptSent afterReceipt
    (by decide +kernel) { CachedRoom.new () with readMarkers := afterReceipt.readMarkers } rfl
    bobsPage
  rw [hmarkers, hsent] at hannounced
  refine hannounced.mpr fun before event behind hitems hat => ?_
  cases before with
  | nil =>
    obtain rfl := MessagesFetcher.FeedItem.event.inj (List.cons.inj hitems).1
    exact absurd hat.fails (by decide +kernel)
  | cons first before =>
    obtain ⟨hfirst, hrest⟩ := List.cons.inj hitems
    obtain rfl := MessagesFetcher.FeedItem.event.inj hfirst
    cases before with
    | nil =>
      obtain rfl := MessagesFetcher.FeedItem.event.inj (List.cons.inj hrest).1
      have hpoll : eventMarkers (RoomEnv.bare "!r") (quizEvent "$1" "@bob:x" 15)
          = Finmap.singleton "@bob:x" 15 := by decide +kernel
      have hbefore : markersAfter (RoomEnv.bare "!r") afterReceipt.readMarkers
          [textEvent "$2" "@bob:x" 20] = Finmap.singleton "@bob:x" 20 := by decide +kernel
      rw [hpoll]
      exact hbefore ▸ below_singleton "@bob:x" (by decide)
    | cons second before =>
      have htail := (List.cons.inj hrest).2
      cases before with
      | nil => cases htail
      | cons third before => cases htail

/-- `get_message` raises the marker of the sender and sends nothing, so that a later receipt with
    this marker is taken for an old one. -/
theorem silent_get_message :
    let op : MarkerOperation Unit := .getMessage (textEvent "$1" "@bob:x" 20) []
    op.markers (RoomEnv.bare "!r") [] (CachedRoom.new ()) = Finmap.singleton "@bob:x" 20 ∧
      op.sent (RoomEnv.bare "!r") [] (CachedRoom.new ()) = [] ∧
      ¬ MarkersSent ∅ (op.markers (RoomEnv.bare "!r") [] (CachedRoom.new ()))
        (op.sent (RoomEnv.bare "!r") [] (CachedRoom.new ())) ∧
      (execJoinedRoomUpdate
        (MarkerOperation.executorAt [] { CachedRoom.new () with
          readMarkers := op.markers (RoomEnv.bare "!r") [] (CachedRoom.new ()) })
        [.receipt [some [("@bob:x", some 20)]]]).outbox = [] := by
  have hmarkers : (MarkerOperation.getMessage (E := Unit) (textEvent "$1" "@bob:x" 20) []).markers
      (RoomEnv.bare "!r") [] (CachedRoom.new ()) = Finmap.singleton "@bob:x" 20 := by
    decide +kernel
  refine ⟨hmarkers, rfl, fun hannounced => ?_, ?_⟩
  · rw [hmarkers] at hannounced
    obtain ⟨m, hm, -⟩ := hannounced "@bob:x" 20
      ⟨Finmap.lookup_singleton_eq, fun old hold => by rw [Finmap.lookup_empty] at hold; cases hold⟩
    cases hm
  · dsimp only
    rw [hmarkers]
    decide +kernel

end GoudaMatrix.Events
