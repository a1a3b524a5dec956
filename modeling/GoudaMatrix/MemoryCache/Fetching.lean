/-
  `MessagesFetcher::run` with its loader (`memory_cache.rs`).

  The loader answers one fetch after another; a run on finitely many answers may still wait for
  the next one, so that loaders that never reach an end are covered by their answers so far.
  `fetchUntilCompletion_eq_fetchFeed` puts the events of all chunks in one row, behind which the
  division into chunks is no longer visible. `run_sends_first_messages` is the contract of a fetch.
-/
import GoudaMatrix.MemoryCache.Totality
import GoudaMatrix.MemoryCache.View

namespace GoudaMatrix.MemoryCache

open GoudaMatrix.Lib GoudaMatrix.Ruma

/-- What `ChunkLoader::fetch` returns. -/
structure Chunk where
  events : List TimelineEvent
  reachedEnd : Bool

/-- An error of the loader, or of the cache. -/
inductive FetchError (E : Type) where
  | loader (error : E)
  | cache (error : MemoryCacheError)
deriving DecidableEq, Repr

namespace MessagesFetcher

variable {M E : Type} (env : RoomEnv M) (received : Nat → Bool)

/-! ## The loop over the chunks -/

/-- The loop of `fetch_until_completion`. `none` stands for a loop that waits for a chunk. -/
def fetchUntilCompletion : CachedRoom M → MessagesFetcher → List (Except E Chunk) →
    Option (Except (FetchError E) Unit) × CachedRoom M × MessagesFetcher
  | room, f, [] => (if f.retrievedMessages < f.messageLimit then none else some (.ok ()), room, f)
  | room, f, answer :: answers =>
    if f.retrievedMessages < f.messageLimit then
      match answer with
      | .error e => (some (.error (.loader e)), room, f)
      | .ok chunk =>
        match processEventChunk env received room f chunk.events with
        | (.error e, room, f) => (some (.error (.cache e)), room, f)
        | (.ok (), room, f) =>
          if chunk.reachedEnd then (some (.ok ()), room, f)
          else fetchUntilCompletion room f answers
    else (some (.ok ()), room, f)

/-- What a fetch has sent to the receiver and to the application. -/
structure FetchRun (M E : Type) where
  items : List (Except (FetchError E) Message)
  readMarkers : List ReadMarkers
  finished : Bool
  room : CachedRoom M

/-- What `run` does with the result of `fetch_until_completion`. The error is lost if the
    receiver has been dropped. -/
def finish : Option (Except (FetchError E) Unit) × CachedRoom M × MessagesFetcher → FetchRun M E
  | (none, room, f) => ⟨f.messages.map .ok, f.readMarkers, false, room⟩
  | (some (.ok ()), room, f) => ⟨f.messages.map .ok, f.readMarkers, true, room⟩
  | (some (.error e), room, f) =>
    ⟨f.messages.map .ok ++ (if received f.retrievedMessages then [.error e] else []),
      f.readMarkers, true, room⟩

/-- The fetcher at the start of `run`. -/
def start (limit : Nat) (sendReadMarkers : Bool) (room : CachedRoom M) : MessagesFetcher where
  messageLimit := limit
  retrievedMessages := 0
  sendReadMarkers := sendReadMarkers
  currentReadMarkers := if sendReadMarkers then room.readMarkers else ∅
  messages := []
  readMarkers := []

def run (limit : Nat) (sendReadMarkers : Bool) (room : CachedRoom M)
    (answers : List (Except E Chunk)) : FetchRun M E :=
  if limit = 0 then ⟨[], [], true, room⟩
  else
    finish received
      (fetchUntilCompletion env received room (start limit sendReadMarkers room) answers)

/-! ## All events in one row -/

inductive FeedItem (E : Type) where
  | event (event : TimelineEvent)
  | endOfTimeline
  | failure (error : E)

def answerItems : Except E Chunk → List (FeedItem E)
  | .error e => [.failure e]
  | .ok chunk => chunk.events.map .event ++ if chunk.reachedEnd then [.endOfTimeline] else []

/-- What the loader delivers, without the bounds of the chunks. -/
def feed (answers : List (Except E Chunk)) : List (FeedItem E) := answers.flatMap answerItems

/-- The fetch of events that come one by one. -/
def fetchFeed : CachedRoom M → MessagesFetcher → List (FeedItem E) →
    Option (Except (FetchError E) Unit) × CachedRoom M × MessagesFetcher
  | room, f, [] => (if f.retrievedMessages < f.messageLimit then none else some (.ok ()), room, f)
  | room, f, item :: items =>
    if f.retrievedMessages < f.messageLimit then
      match item with
      | .failure e => (some (.error (.loader e)), room, f)
      | .endOfTimeline => (some (.ok ()), room, f)
      | .event event =>
        match room.processTimelineEvent env event with
        | (.error e, room) => (some (.error (.cache e)), room, f)
        | (.ok action, room) =>
          match f.sendAction received action with
          | .error e => (some (.error (.cache e)), room, f)
          | .ok f => fetchFeed room (f.updateReadMarkers room.readMarkers) items
    else (some (.ok ()), room, f)

/-- At its limit the fetch is done, whatever would come next. -/
theorem fetchFeed_of_limit (room : CachedRoom M) {f : MessagesFetcher}
    (h : ¬ f.retrievedMessages < f.messageLimit) (items : List (FeedItem E)) :
    fetchFeed env received room f items = (some (.ok ()), room, f) := by
  cases items with
  | nil => rw [fetchFeed, if_neg h]
  | cons item items => cases item <;> rw [fetchFeed, if_neg h]

/-- What follows a chunk in the row. -/
def afterChunk (items : List (FeedItem E)) : Result Unit × CachedRoom M × MessagesFetcher →
    Option (Except (FetchError E) Unit) × CachedRoom M × MessagesFetcher
  | (.error e, room, f) => (some (.error (.cache e)), room, f)
  | (.ok (), room, f) => fetchFeed env received room f items

theorem sendAction_ok {f f' : MessagesFetcher} {action : Option CachedRoomAction}
    (h : f.sendAction received action = .ok f') :
    f'.messageLimit = f.messageLimit ∧ f'.retrievedMessages ≤ f.retrievedMessages + 1 := by
  unfold sendAction at h
  split at h
  · split at h
    · obtain rfl := Except.ok.inj h
      exact ⟨rfl, Nat.le_refl _⟩
    · cases h
  · obtain rfl := Except.ok.inj h
    exact ⟨rfl, Nat.le_succ _⟩

theorem fetchFeed_event {f : MessagesFetcher} (h : f.retrievedMessages < f.messageLimit)
    (room : CachedRoom M) (event : TimelineEvent) (items : List (FeedItem E)) :
    fetchFeed env received room f (.event event :: items)
      = match room.processTimelineEvent env event with
        | (.error e, room) => (some (.error (.cache e)), room, f)
        | (.ok action, room) =>
          match f.sendAction received action with
          | .error e => (some (.error (.cache e)), room, f)
          | .ok f => fetchFeed env received room (f.updateReadMarkers room.readMarkers) items := by
  rw [fetchFeed, if_pos h]

theorem fetchFeed_chunk (room : CachedRoom M) {f : MessagesFetcher}
    (h : f.retrievedMessages < f.messageLimit) (chunk : List TimelineEvent)
    (items : List (FeedItem E)) :
    fetchFeed env received room f (chunk.map .event ++ items)
      = afterChunk env received items (processEventChunk env received room f chunk) := by
  induction chunk generalizing room f with
  | nil => rfl
  | cons event chunk ih =>
    rw [List.map_cons, List.cons_append, fetchFeed_event env received h]
    unfold processEventChunk
    generalize room.processTimelineEvent env event = r
    obtain ⟨result, room'⟩ := r
    cases result with
    | error e => rfl
    | ok action =>
      dsimp only
      cases hsend : f.sendAction received action with
      | error e => rfl
      | ok f' =>
        obtain ⟨hlimit, hcount⟩ := sendAction_ok received hsend
        dsimp only
        by_cases hfull : (f'.updateReadMarkers room'.readMarkers).retrievedMessages
            = (f'.updateReadMarkers room'.readMarkers).messageLimit
        · have hnot : ¬ (f'.updateReadMarkers room'.readMarkers).retrievedMessages
              < (f'.updateReadMarkers room'.readMarkers).messageLimit := by omega
          rw [if_pos hfull]
          exact (fetchFeed_of_limit env received room' hnot _).trans
            (fetchFeed_of_limit env received room' hnot items).symm
        · rw [if_neg hfull]
          rw [updateReadMarkers_retrievedMessages, updateReadMarkers_messageLimit] at hfull
          refine ih room' ?_
          rw [updateReadMarkers_retrievedMessages, updateReadMarkers_messageLimit]
          omega

/-- The division into chunks makes no difference. -/
theorem fetchUntilCompletion_eq_fetchFeed (room : CachedRoom M) (f : MessagesFetcher)
    (answers : List (Except E Chunk)) :
    fetchUntilCompletion env received room f answers
      = fetchFeed env received room f (feed answers) := by
  induction answers generalizing room f with
  | nil => rfl
  | cons answer answers ih =>
    by_cases hlimit : f.retrievedMessages < f.messageLimit
    · cases answer with
      | error e =>
        rw [fetchUntilCompletion, if_pos hlimit, feed, List.flatMap_cons, answerItems,
          List.singleton_append, fetchFeed, if_pos hlimit]
      | ok chunk =>
        rw [fetchUntilCompletion, if_pos hlimit, feed, List.flatMap_cons, answerItems,
          List.append_assoc, fetchFeed_chunk env received room hlimit]
        generalize processEventChunk env received room f chunk.events = r
        obtain ⟨result, room', f'⟩ := r
        cases result with
        | error e => rfl
        | ok _ =>
          simp only [afterChunk]
          cases chunk.reachedEnd with
          | false =>
            rw [if_neg Bool.false_ne_true, if_neg Bool.false_ne_true, List.nil_append]
            exact ih room' f'
          | true =>
            rw [if_pos rfl, if_pos rfl, List.singleton_append]
            by_cases hlimit' : f'.retrievedMessages < f'.messageLimit
            · rw [fetchFeed, if_pos hlimit']
            · rw [fetchFeed_of_limit env received room' hlimit']
    · rw [fetchFeed_of_limit env received room hlimit]
      cases answer <;> rw [fetchUntilCompletion, if_neg hlimit]

/-! ## What is sent -/

/-- `f'` has sent the given messages after those of `f`. -/
structure Obtained (f f' : MessagesFetcher) (messages : List Message) : Prop where
  limit : f'.messageLimit = f.messageLimit
  count : f'.retrievedMessages = f.retrievedMessages + messages.length
  sent : f'.messages = f.messages ++ messages

theorem Obtained.refl (f : MessagesFetcher) : Obtained f f [] :=
  ⟨rfl, rfl, (List.append_nil _).symm⟩

theorem Obtained.trans {f f' f'' : MessagesFetcher} {xs ys : List Message} (h : Obtained f f' xs)
    (h' : Obtained f' f'' ys) : Obtained f f'' (xs ++ ys) where
  limit := h'.limit.trans h.limit
  count := by rw [h'.count, h.count, List.length_append, Nat.add_assoc]
  sent := by rw [h'.sent, h.sent, List.append_assoc]

/-- The message of an action. -/
def messageOfAction : Option CachedRoomAction → Option Message
  | some (.message message) => some message
  | _ => none

theorem obtained_updateReadMarkers (f : MessagesFetcher) (markers : ReadMarkers) :
    Obtained f (f.updateReadMarkers markers) [] := by
  unfold updateReadMarkers
  split
  · exact ⟨rfl, rfl, (List.append_nil _).symm⟩
  · exact Obtained.refl f

theorem obtained_sendAction {f f' : MessagesFetcher} {action : Option CachedRoomAction}
    (h : f.sendAction received action = .ok f') :
    Obtained f f' (messageOfAction action).toList := by
  unfold sendAction at h
  rcases action with - | (message | reaction)
  · obtain rfl := Except.ok.inj h
    exact Obtained.refl f
  · dsimp only at h
    split at h
    · obtain rfl := Except.ok.inj h
      exact ⟨rfl, rfl, rfl⟩
    · cases h
  · obtain rfl := Except.ok.inj h
    exact Obtained.refl f

/-- One event whose action is sent to a receiver that listens. -/
theorem fetchFeed_event_ok {room room' : CachedRoom M} {f : MessagesFetcher}
    (h : f.retrievedMessages < f.messageLimit) {event : TimelineEvent}
    {action : Option CachedRoomAction}
    (hevent : room.processTimelineEvent env event = (.ok action, room')) :
    ∃ f', Obtained f f' (messageOfAction action).toList ∧ ∀ items : List (FeedItem E),
      fetchFeed env listening room f (.event event :: items)
        = fetchFeed env listening room' f' items := by
  have hlistening : ∃ f', f.sendAction listening action = .ok f' := by
    rcases action with - | (message | reaction) <;> exact ⟨_, rfl⟩
  obtain ⟨f', hsend⟩ := hlistening
  have hobtained := obtained_sendAction listening hsend
  refine ⟨f'.updateReadMarkers room'.readMarkers, ?_, fun items => ?_⟩
  · have htrans := hobtained.trans (obtained_updateReadMarkers f' room'.readMarkers)
    rwa [List.append_nil] at htrans
  · rw [fetchFeed_event env listening h, hevent]
    dsimp only
    rw [hsend]

/-- All of the events are processed without an error. -/
def ProcessedOk : CachedRoom M → List TimelineEvent → Prop
  | _, [] => True
  | room, event :: events =>
    (room.processTimelineEvent env event).1.isOk = true ∧
      ProcessedOk (room.processTimelineEvent env event).2 events

theorem processedOk_cons {room : CachedRoom M} {event : TimelineEvent}
    {events : List TimelineEvent} (h : ProcessedOk env room (event :: events)) :
    ∃ action room', room.processTimelineEvent env event = (.ok action, room') ∧
      ProcessedOk env room' events ∧
      messagesOf env room (event :: events)
        = (messageOfAction action).toList ++ messagesOf env room' events := by
  obtain ⟨hevent, hevents⟩ := h
  rw [messagesOf, messageOf]
  generalize room.processTimelineEvent env event = r at hevent hevents
  obtain ⟨result, room'⟩ := r
  cases result with
  | error e => cases hevent
  | ok action =>
    refine ⟨action, room', rfl, hevents, ?_⟩
    rcases action with - | (message | reaction) <;> rfl

/-- Events that do not reach the limit are all processed. -/
theorem fetchFeed_below_limit (room : CachedRoom M) (f : MessagesFetcher)
    (events : List TimelineEvent) (hok : ProcessedOk env room events)
    (h : f.retrievedMessages + (messagesOf env room events).length < f.messageLimit) :
    ∃ f', Obtained f f' (messagesOf env room events) ∧ ∀ items : List (FeedItem E),
      fetchFeed env listening room f (events.map .event ++ items)
        = fetchFeed env listening (afterEvents env room events) f' items := by
  induction events generalizing room f with
  | nil => exact ⟨f, Obtained.refl f, fun _ => rfl⟩
  | cons event events ih =>
    obtain ⟨action, room', hevent, hevents, hmessages⟩ := processedOk_cons env hok
    rw [hmessages] at h ⊢
    rw [List.length_append] at h
    obtain ⟨f₁, hfirst, hstep⟩ :=
      fetchFeed_event_ok (E := E) env (f := f) (by omega) hevent
    have hcount := hfirst.count
    have hlimit := hfirst.limit
    obtain ⟨f', hrest, hrun⟩ := ih room' f₁ hevents (by omega)
    refine ⟨f', hfirst.trans hrest, fun items => ?_⟩
    have hafter : afterEvents env room (event :: events) = afterEvents env room' events := by
      rw [afterEvents, List.foldl_cons, hevent]
      rfl
    rw [List.map_cons, List.cons_append, hstep, hrun, hafter]

/-- `k` events have been processed for the first `n` messages, and none of them behind the last
    of these messages. -/
structure Needed (room : CachedRoom M) (events : List TimelineEvent) (n k : Nat) : Prop where
  le : k ≤ events.length
  messages : messagesOf env room (events.take k) = (messagesOf env room events).take n
  none_behind : ∀ j < k, (messagesOf env room (events.take j)).length < n

/-- Events that reach the limit are processed up to the one that reaches it. -/
theorem fetchFeed_to_limit (room : CachedRoom M) (f : MessagesFetcher)
    (events : List TimelineEvent) (hok : ProcessedOk env room events) (n : Nat)
    (hn : f.messageLimit = f.retrievedMessages + n)
    (h : n ≤ (messagesOf env room events).length) :
    ∃ k f', Needed env room events n k ∧
      Obtained f f' ((messagesOf env room events).take n) ∧ ∀ items : List (FeedItem E),
        fetchFeed env listening room f (events.map .event ++ items)
          = (some (.ok ()), afterEvents env room (events.take k), f') := by
  induction events generalizing room f n with
  | nil =>
    obtain rfl : n = 0 := Nat.le_zero.mp h
    exact ⟨0, f, ⟨Nat.le_refl 0, rfl, fun j hj => by omega⟩, Obtained.refl f,
      fun items => fetchFeed_of_limit env listening room (by omega) items⟩
  | cons event events ih =>
    cases n with
    | zero =>
      exact ⟨0, f, ⟨Nat.zero_le _, rfl, fun j hj => by omega⟩, Obtained.refl f,
        fun items => fetchFeed_of_limit env listening room (by omega) _⟩
    | succ n =>
      obtain ⟨action, room', hevent, hevents, hmessages⟩ := processedOk_cons env hok
      obtain ⟨f₁, hfirst, hstep⟩ :=
        fetchFeed_event_ok (E := E) env (f := f) (by omega) hevent
      have hcount := hfirst.count
      have hlimit := hfirst.limit
      have hone : (messageOfAction action).toList.length ≤ 1 := by
        cases messageOfAction action <;> simp
      rw [hmessages, List.length_append] at h
      obtain ⟨k, f', hneeded, hrest, hrun⟩ := ih room' f₁ hevents
        (n + 1 - (messageOfAction action).toList.length) (by omega) (by omega)
      have htake : ∀ j, messagesOf env room ((event :: events).take (j + 1))
          = (messageOfAction action).toList ++ messagesOf env room' (events.take j) := by
        intro j
        rw [List.take_succ_cons, messagesOf, messageOf, hevent]
        rcases action with - | (message | reaction) <;> rfl
      have hall : (messagesOf env room (event :: events)).take (n + 1)
          = (messageOfAction action).toList ++ (messagesOf env room' events).take
              (n + 1 - (messageOfAction action).toList.length) := by
        rw [hmessages, List.take_append, List.take_of_length_le (by omega)]
      refine ⟨k + 1, f', ⟨?_, ?_, fun j hj => ?_⟩, hall ▸ hfirst.trans hrest, fun items => ?_⟩
      · exact Nat.succ_le_succ hneeded.le
      · rw [htake, hneeded.messages, hall]
      · cases j with
        | zero => exact Nat.succ_pos n
        | succ j =>
          have hj := hneeded.none_behind j (by omega)
          rw [htake, List.length_append]
          omega
      · have hafter : afterEvents env room ((event :: events).take (k + 1))
            = afterEvents env room' (events.take k) := by
          rw [List.take_succ_cons, afterEvents, List.foldl_cons, hevent]
          rfl
        rw [List.map_cons, List.cons_append, hstep, hrun, hafter]

/-! ## The contract of a fetch -/

/-- The events of the chunks up to the first one that reaches the end. -/
def eventsUpToEnd : List Chunk → List TimelineEvent
  | [] => []
  | chunk :: chunks => chunk.events ++ if chunk.reachedEnd then [] else eventsUpToEnd chunks

def reachesEnd (chunks : List Chunk) : Bool := chunks.any (·.reachedEnd)

/-- The events up to the end, and what the loader delivers behind them. -/
theorem feed_chunks (chunks : List Chunk) (answers : List (Except E Chunk)) :
    ∃ items : List (FeedItem E),
      feed (chunks.map .ok ++ answers) = (eventsUpToEnd chunks).map .event ++ items ∧
      (if reachesEnd chunks then items.head? = some .endOfTimeline else items = feed answers) := by
  induction chunks with
  | nil => exact ⟨feed answers, rfl, rfl⟩
  | cons chunk chunks ih =>
    obtain ⟨items, hfeed, hitems⟩ := ih
    rw [List.map_cons, List.cons_append, feed, List.flatMap_cons, answerItems, eventsUpToEnd,
      reachesEnd, List.any_cons]
    cases chunk.reachedEnd with
    | false =>
      refine ⟨items, ?_, hitems⟩
      rw [if_neg Bool.false_ne_true, if_neg Bool.false_ne_true, List.append_nil, List.map_append,
        List.append_assoc, ← hfeed]
      rfl
    | true =>
      refine ⟨.endOfTimeline :: feed (chunks.map .ok ++ answers), ?_, rfl⟩
      rw [if_pos rfl, if_pos rfl, List.append_nil, List.append_assoc]
      rfl

theorem run_eq (limit : Nat) (sendReadMarkers : Bool) (room : CachedRoom M)
    (answers : List (Except E Chunk)) :
    run env received limit sendReadMarkers room answers
      = finish received (fetchFeed env received room (start limit sendReadMarkers room)
          (feed answers)) := by
  unfold run
  split
  · next hlimit =>
    have hfull : ¬ (start limit sendReadMarkers room).retrievedMessages
        < (start limit sendReadMarkers room).messageLimit := by simp [start, hlimit]
    rw [fetchFeed_of_limit env received room hfull]
    rfl
  · rw [fetchUntilCompletion_eq_fetchFeed]

/-- A fetch whose limit is reached among events that are processed. -/
theorem run_to_limit (limit : Nat) (sendReadMarkers : Bool) (room : CachedRoom M)
    {answers : List (Except E Chunk)} {events : List TimelineEvent} {items : List (FeedItem E)}
    (hfeed : feed answers = events.map .event ++ items) (hok : ProcessedOk env room events)
    (h : limit ≤ (messagesOf env room events).length) :
    (run env listening limit sendReadMarkers room answers).items
        = ((messagesOf env room events).take limit).map .ok ∧
      (run env listening limit sendReadMarkers room answers).finished = true ∧
      ∃ k, Needed env room events limit k ∧
        (run env listening limit sendReadMarkers room answers).room
          = afterEvents env room (events.take k) := by
  obtain ⟨k, f', hneeded, hobtained, hrun⟩ := fetchFeed_to_limit (E := E) env room
    (start limit sendReadMarkers room) events hok limit (Nat.zero_add limit).symm h
  rw [run_eq, hfeed, hrun]
  refine ⟨?_, rfl, k, hneeded, rfl⟩
  rw [finish, hobtained.sent]
  rfl

/-- A fetch that processes all of the events and is still below its limit. -/
theorem run_below_limit (limit : Nat) (sendReadMarkers : Bool) (room : CachedRoom M)
    {answers : List (Except E Chunk)} {events : List TimelineEvent} {items : List (FeedItem E)}
    (hfeed : feed answers = events.map .event ++ items) (hok : ProcessedOk env room events)
    (h : (messagesOf env room events).length < limit) :
    ∃ f', f'.messages = messagesOf env room events ∧ f'.retrievedMessages < f'.messageLimit ∧
      run env listening limit sendReadMarkers room answers
        = finish listening (fetchFeed env listening (afterEvents env room events) f' items) := by
  have hstart : (start limit sendReadMarkers room).retrievedMessages
      + (messagesOf env room events).length < (start limit sendReadMarkers room).messageLimit := by
    simpa [start] using h
  obtain ⟨f', hobtained, hrun⟩ := fetchFeed_below_limit (E := E) env room
    (start limit sendReadMarkers room) events hok hstart
  refine ⟨f', hobtained.sent, ?_, ?_⟩
  · rw [hobtained.count, hobtained.limit]
    exact hstart
  · rw [run_eq, hfeed, hrun]

/-- The answers of a loader that does not fail. -/
theorem run_chunks (limit : Nat) (sendReadMarkers : Bool) (room : CachedRoom M)
    {chunks : List Chunk} (hok : ProcessedOk env room (eventsUpToEnd chunks)) {sent : FetchRun M E}
    (hsent : run env listening limit sendReadMarkers room (chunks.map .ok) = sent) :
    sent.items = ((messagesOf env room (eventsUpToEnd chunks)).take limit).map .ok ∧
    (sent.finished = true ↔
      limit ≤ (messagesOf env room (eventsUpToEnd chunks)).length ∨ reachesEnd chunks = true) ∧
    ∃ k, sent.room = afterEvents env room ((eventsUpToEnd chunks).take k) ∧
      if limit ≤ (messagesOf env room (eventsUpToEnd chunks)).length then
        Needed env room (eventsUpToEnd chunks) limit k
      else k = (eventsUpToEnd chunks).length := by
  obtain ⟨items, hfeed, hitems⟩ := feed_chunks (E := E) chunks []
  rw [List.append_nil] at hfeed
  subst hsent
  by_cases hlimit : limit ≤ (messagesOf env room (eventsUpToEnd chunks)).length
  · obtain ⟨hsent, hdone, k, hneeded, hroom⟩ :=
      run_to_limit env limit sendReadMarkers room hfeed hok hlimit
    refine ⟨hsent, iff_of_true hdone (.inl hlimit), k, hroom, ?_⟩
    rwa [if_pos hlimit]
  · obtain ⟨f', hsent, hbelow, hrun⟩ :=
      run_below_limit env limit sendReadMarkers room hfeed hok (by omega)
    rw [hrun, List.take_of_length_le (by omega)]
    cases hend : reachesEnd chunks with
    | false =>
      rw [hend, if_neg Bool.false_ne_true] at hitems
      rw [hitems, feed, List.flatMap_nil, fetchFeed, if_pos hbelow]
      refine ⟨?_, iff_of_false Bool.false_ne_true (by simp [hlimit]), (eventsUpToEnd chunks).length,
        ?_,
        (if_neg hlimit).mpr rfl⟩
      · rw [finish, hsent]
      · rw [List.take_length]
        rfl
    | true =>
      rw [hend, if_pos rfl] at hitems
      obtain ⟨items', rfl⟩ := List.head?_eq_some_iff.mp hitems
      rw [fetchFeed, if_pos hbelow]
      refine ⟨?_, iff_of_true rfl (.inr rfl), (eventsUpToEnd chunks).length, ?_,
        (if_neg hlimit).mpr rfl⟩
      · rw [finish, hsent]
      · rw [List.take_length]
        rfl

/-- The loader fails before the limit and before the end. -/
theorem run_loader_error (limit : Nat) (sendReadMarkers : Bool) (room : CachedRoom M)
    {chunks : List Chunk} (error : E) (answers : List (Except E Chunk))
    (hok : ProcessedOk env room (eventsUpToEnd chunks)) (hend : reachesEnd chunks = false)
    (hlimit : (messagesOf env room (eventsUpToEnd chunks)).length < limit) {sent : FetchRun M E}
    (hsent : run env listening limit sendReadMarkers room
      (chunks.map .ok ++ .error error :: answers) = sent) :
    sent.items = (messagesOf env room (eventsUpToEnd chunks)).map .ok ++ [.error (.loader error)] ∧
      sent.finished = true := by
  obtain ⟨items, hfeed, hitems⟩ := feed_chunks chunks (.error error :: answers)
  rw [hend, if_neg Bool.false_ne_true] at hitems
  subst hsent
  obtain ⟨f', hsent, hbelow, hrun⟩ :=
    run_below_limit env limit sendReadMarkers room hfeed hok hlimit
  rw [hrun, hitems, feed, List.flatMap_cons, answerItems, List.singleton_append, fetchFeed,
    if_pos hbelow]
  refine ⟨?_, rfl⟩
  rw [finish, hsent]
  rfl

/-- An event fails before the limit. -/
theorem run_event_error (limit : Nat) (sendReadMarkers : Bool) (room : CachedRoom M)
    {chunks : List Chunk} (answers : List (Except E Chunk)) {before behind : List TimelineEvent}
    {event : TimelineEvent} {error : MemoryCacheError}
    (hevents : eventsUpToEnd chunks = before ++ event :: behind) (hok : ProcessedOk env room before)
    (herror : ((afterEvents env room before).processTimelineEvent env event).1 = .error error)
    (hlimit : (messagesOf env room before).length < limit) {sent : FetchRun M E}
    (hsent : run env listening limit sendReadMarkers room (chunks.map .ok ++ answers) = sent) :
    sent.items = (messagesOf env room before).map .ok ++ [.error (.cache error)] ∧
      sent.finished = true := by
  obtain ⟨items, hfeed, -⟩ := feed_chunks chunks answers
  rw [hevents, List.map_append, List.map_cons, List.append_assoc, List.cons_append] at hfeed
  subst hsent
  obtain ⟨f', hsent, hbelow, hrun⟩ :=
    run_below_limit env limit sendReadMarkers room hfeed hok hlimit
  rw [hrun, fetchFeed_event env listening hbelow]
  generalize (afterEvents env room before).processTimelineEvent env event = r at herror
  obtain ⟨result, room'⟩ := r
  obtain rfl : result = .error error := herror
  refine ⟨?_, rfl⟩
  dsimp only
  rw [finish, hsent]
  rfl

/-- A fetch sends the first messages that the events give, up to its limit, processes no event
    behind the one that gives the last of them, and is done at the limit or at the end of the
    timeline. The division into chunks does not matter. The first error of the loader or of an
    event is sent behind the messages obtained so far. -/
theorem run_sends_first_messages (limit : Nat) (sendReadMarkers : Bool) (room : CachedRoom M) :
    (∀ answers answers' : List (Except E Chunk), feed answers = feed answers' →
      run env listening limit sendReadMarkers room answers
        = run env listening limit sendReadMarkers room answers')
    ∧ (∀ chunks : List Chunk, ProcessedOk env room (eventsUpToEnd chunks) →
      let sent : FetchRun M E := run env listening limit sendReadMarkers room (chunks.map .ok)
      let messages := messagesOf env room (eventsUpToEnd chunks)
      sent.items = (messages.take limit).map .ok ∧
      (sent.finished = true ↔ limit ≤ messages.length ∨ reachesEnd chunks = true) ∧
      ∃ k, sent.room = afterEvents env room ((eventsUpToEnd chunks).take k) ∧
        if limit ≤ messages.length then Needed env room (eventsUpToEnd chunks) limit k
        else k = (eventsUpToEnd chunks).length)
    ∧ (∀ (chunks : List Chunk) (error : E) (answers : List (Except E Chunk)),
      ProcessedOk env room (eventsUpToEnd chunks) → reachesEnd chunks = false →
      (messagesOf env room (eventsUpToEnd chunks)).length < limit →
      let sent := run env listening limit sendReadMarkers room
        (chunks.map .ok ++ .error error :: answers)
      sent.items
          = (messagesOf env room (eventsUpToEnd chunks)).map .ok ++ [.error (.loader error)] ∧
        sent.finished = true)
    ∧ ∀ (chunks : List Chunk) (answers : List (Except E Chunk)) (before : List TimelineEvent)
        (event : TimelineEvent) (behind : List TimelineEvent) (error : MemoryCacheError),
      eventsUpToEnd chunks = before ++ event :: behind → ProcessedOk env room before →
      ((afterEvents env room before).processTimelineEvent env event).1 = .error error →
      (messagesOf env room before).length < limit →
      let sent := run env listening limit sendReadMarkers room (chunks.map .ok ++ answers)
      sent.items = (messagesOf env room before).map .ok ++ [.error (.cache error)] ∧
        sent.finished = true := by
  refine ⟨fun answers answers' h => ?_, fun chunks hok => ?_,
    fun chunks error answers hok hend hlimit => ?_,
    fun chunks answers before event behind error hevents hok herror hlimit => ?_⟩
  · rw [run_eq, run_eq, h]
  · exact run_chunks env limit sendReadMarkers room hok rfl
  · exact run_loader_error env limit sendReadMarkers room error answers hok hend hlimit rfl
  · exact run_event_error env limit sendReadMarkers room answers hevents hok herror hlimit rfl

/-- Three messages, the last one behind an empty chunk. -/
def historyChunks : List Chunk :=
  let text (id body : String) (ts : Nat) : TimelineEvent :=
    ⟨.plainText (.ok (.messageLike (.roomMessage (.original
      ⟨id, "@alice", ts, "!r", ⟨.text body, none, none⟩⟩)))), some ts⟩
  [⟨[text "$3" "Bye" 30, text "$2" "How are you?" 20], false⟩, ⟨[], false⟩,
    ⟨[text "$1" "Hello" 10], true⟩]

theorem run_sends_two_messages :
    (run (E := Unit) (RoomEnv.bare "!r") listening 2 false (CachedRoom.new ())
      (historyChunks.map .ok)).items.length = 2 := by
  have hrun := (run_sends_first_messages (E := Unit) (RoomEnv.bare "!r") 2 false
    (CachedRoom.new ())).2.1 historyChunks ⟨rfl, rfl, rfl, trivial⟩
  rw [hrun.1]
  decide +kernel

end MessagesFetcher

end GoudaMatrix.MemoryCache
