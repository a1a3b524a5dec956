/-
  Paging backwards through a room: `fetch_messages` with its `from_message_id`, the token of
  `resolve_event_for_pagination` and the `UnthreadedLoader` (`memory_cache.rs`).

  The homeserver is a parameter. `Serves` says that it pages through a timeline, the newest event
  first: a token stands for a position, a chunk is what follows it, of any length, and the token of
  an event is the position behind it.

  `pages_of_timeline`: the pages that are fetched one after another, each from the last message of
  the one before, are together the first messages of the timeline, whatever their limits are.
-/
import Mathlib.Algebra.GroupWithZero.Nat
import GoudaMatrix.MemoryCache.Fetching

namespace GoudaMatrix.MemoryCache

open GoudaMatrix.Lib GoudaMatrix.Ruma

/-- What the loader asks the SDK for. -/
structure MessagesApi (Token E : Type) where
  /-- `Room::messages` backwards from a token: the chunk and its `end`. -/
  messages : Option Token → Nat → Except E (List TimelineEvent × Option Token)
  /-- The `prev_batch_token` of `Room::event_with_context`. -/
  eventWithContext : String → Except E (Option Token)

structure UnthreadedLoader (Token : Type) where
  fromToken : Option Token

namespace UnthreadedLoader

variable {Token E : Type} (api : MessagesApi Token E)

def fetch (loader : UnthreadedLoader Token) (numEvents : Nat) :
    Except E (Chunk × UnthreadedLoader Token) :=
  match api.messages loader.fromToken numEvents with
  | .error e => .error e
  | .ok (chunk, fin) => .ok (⟨chunk, fin.isNone⟩, ⟨fin⟩)

/-- What the first calls of `fetch` return. -/
def answers (numEvents : Nat) : Nat → UnthreadedLoader Token → List (Except E Chunk)
  | 0, _ => []
  | n + 1, loader =>
    match loader.fetch api numEvents with
    | .error e => [.error e]
    | .ok (chunk, loader) => .ok chunk :: answers numEvents n loader

end UnthreadedLoader

section

variable {M Token E : Type} (env : RoomEnv M) (api : MessagesApi Token E)
  (calcChunkSize : Nat → Nat)

/-- `resolve_event_for_pagination`, for a fetch that starts at a message. -/
def resolveFromMessageId : Option String → Except E (Option Token)
  | some messageId => api.eventWithContext messageId
  | none => .ok none

/-- `fetch_messages` without a thread, up to the first `n` answers of the loader. -/
def fetchMessages (n : Nat) (room : CachedRoom M) (fromMessageId : Option String) (limit : Nat)
    (sendReadMarkers : Bool) : Except E (MessagesFetcher.FetchRun M E) :=
  match resolveFromMessageId api fromMessageId with
  | .error e => .error e
  | .ok token => .ok (MessagesFetcher.run env MessagesFetcher.listening limit sendReadMarkers room
      (UnthreadedLoader.answers api (calcChunkSize limit) n ⟨token⟩))

/-- The application fetches one page after another, each from the last message that it has. It stops
    without a result if a fetch fails or does not end. -/
def fetchPages (n : Nat) : CachedRoom M → Option String → List Nat → Option (List Message)
  | _, _, [] => some []
  | room, fromMessageId, limit :: limits =>
    match fetchMessages env api calcChunkSize n room fromMessageId limit true with
    | .error _ => none
    | .ok fetch =>
      if fetch.finished then
        (fetch.items.mapM Except.toOption).bind fun page =>
          (fetchPages n fetch.room ((page.getLast?.map Message.messageId).or fromMessageId)
            limits).map (page ++ ·)
      else none

end

/-- The homeserver pages through the timeline. -/
structure Serves {Token E : Type} (api : MessagesApi Token E) (timeline : List TimelineEvent)
    (position : Option Token → Nat) : Prop where
  start : position none = 0
  messages : ∀ token count, ∃ k fin,
    api.messages token count = .ok ((timeline.drop (position token)).take k, fin) ∧
      match fin with
      | none => timeline.length ≤ position token + k
      | some next => position (some next) = position token + k
  context : ∀ i event id, timeline[i]? = some event → event.eventId = some id →
    ∃ token, api.eventWithContext id = .ok (some token) ∧ position (some token) = i + 1

/-! ## The chunks of a fetch -/

section

variable {Token E : Type} {api : MessagesApi Token E} {timeline : List TimelineEvent}
  {position : Option Token → Nat}

/-- The answers of a loader are the events behind its token. -/
theorem answers_of_serves (h : Serves api timeline position) (numEvents n : Nat)
    (token : Option Token) :
    ∃ chunks k, UnthreadedLoader.answers api numEvents n ⟨token⟩ = chunks.map .ok ∧
      MessagesFetcher.eventsUpToEnd chunks = (timeline.drop (position token)).take k ∧
      (MessagesFetcher.reachesEnd chunks = true → timeline.length ≤ position token + k) := by
  induction n generalizing token with
  | zero => exact ⟨[], 0, rfl, rfl, fun hend => by cases hend⟩
  | succ n ih =>
    obtain ⟨k, fin, hmessages, hfin⟩ := h.messages token numEvents
    have hfetch : UnthreadedLoader.fetch api ⟨token⟩ numEvents
        = .ok (⟨(timeline.drop (position token)).take k, fin.isNone⟩, ⟨fin⟩) := by
      rw [UnthreadedLoader.fetch, hmessages]
    obtain ⟨chunks, j, hanswers, hevents, hend⟩ := ih fin
    refine ⟨⟨(timeline.drop (position token)).take k, fin.isNone⟩ :: chunks, ?_⟩
    cases fin with
    | none =>
      refine ⟨k, ?_, ?_, fun _ => hfin⟩
      · rw [UnthreadedLoader.answers, hfetch, List.map_cons, ← hanswers]
      · rw [MessagesFetcher.eventsUpToEnd]
        exact List.append_nil _
    | some next =>
      have hnext : position (some next) = position token + k := hfin
      refine ⟨k + j, ?_, ?_, fun hreaches => ?_⟩
      · rw [UnthreadedLoader.answers, hfetch, List.map_cons, ← hanswers]
      · rw [MessagesFetcher.eventsUpToEnd, List.take_add, List.drop_drop, ← hnext, ← hevents]
        rfl
      · have hrest : MessagesFetcher.reachesEnd chunks = true := by
          simpa [MessagesFetcher.reachesEnd] using hreaches
        have hlength := hend hrest
        omega

/-- A loader that makes progress reaches the end. -/
theorem reachesEnd_of_serves (h : Serves api timeline position)
    (hprogress : ∀ token count next chunk, api.messages token count = .ok (chunk, some next) →
      chunk ≠ []) (numEvents n : Nat) (token : Option Token)
    (hn : timeline.length - position token < n) :
    ∀ chunks, UnthreadedLoader.answers api numEvents n ⟨token⟩ = chunks.map .ok →
      MessagesFetcher.reachesEnd chunks = true := by
  induction n generalizing token with
  | zero => omega
  | succ n ih =>
    intro chunks hchunks
    obtain ⟨k, fin, hmessages, hfin⟩ := h.messages token numEvents
    rw [UnthreadedLoader.answers, UnthreadedLoader.fetch, hmessages] at hchunks
    cases chunks with
    | nil => cases hchunks
    | cons chunk chunks =>
      obtain ⟨hchunk, hrest⟩ := List.cons.inj hchunks
      obtain rfl := Except.ok.inj hchunk
      cases fin with
      | none => rfl
      | some next =>
        have hnext : position (some next) = position token + k := hfin
        have hnonempty := hprogress token numEvents next _ hmessages
        have hlength : 0 < ((timeline.drop (position token)).take k).length :=
          List.length_pos_of_ne_nil hnonempty
        rw [List.length_take, List.length_drop] at hlength
        have hreaches := ih (some next) (by omega) chunks hrest
        simpa [MessagesFetcher.reachesEnd] using hreaches

end

/-! ## One page -/

section

variable {M Token E : Type} (env : RoomEnv M) {api : MessagesApi Token E}
  {timeline : List TimelineEvent} {position : Option Token → Nat}

/-- Events that can be processed in every room. -/
theorem processedOk_of_known (room : CachedRoom M) {events : List TimelineEvent}
    (h : ∀ event ∈ events, startsUnknownPoll event = false) :
    MessagesFetcher.ProcessedOk env room events := by
  induction events generalizing room with
  | nil => trivial
  | cons event events ih =>
    refine ⟨?_, ih _ fun e he => h e (List.mem_cons_of_mem _ he)⟩
    rw [CachedRoom.processTimelineEvent_isOk, h event List.mem_cons_self]
    rfl

def Effect.givesMessage : Effect → Bool
  | .assembled _ | .undecryptable _ _ => true
  | _ => false

theorem isSome_messageOf (room : CachedRoom M) (event : TimelineEvent) :
    (messageOf env room event).isSome = (effectOf env event room.media).1.givesMessage := by
  rw [messageOf_eq]
  cases (effectOf env event room.media).1 <;> rfl

theorem givesMessage_roomMessage (original : OriginalEvent RoomMessageEventContent)
    (media media' : M) :
    (effectOfRoomMessage env (.original original) media).1.givesMessage
      = (effectOfRoomMessage env (.original original) media').1.givesMessage := by
  have hreplacement : ∀ messageId content,
      (effectOfReplacement messageId original content).givesMessage = false :=
        fun messageId content => by
    cases content <;> rfl
  simp only [effectOfRoomMessage]
  split
  · rw [hreplacement, hreplacement]
  · rfl

/-- Whether an event gives a message does not depend on the room. -/
theorem messageOf_isSome (room room' : CachedRoom M) (event : TimelineEvent) :
    (messageOf env room event).isSome = (messageOf env room' event).isSome := by
  rw [isSome_messageOf, isSome_messageOf]
  by_cases hmessage : ∃ original,
    readable event = some (.messageLike (.roomMessage (.original original)))
  · obtain ⟨original, hreadable⟩ := hmessage
    rw [effectOf_of_readable env hreadable, effectOf_of_readable env hreadable]
    exact givesMessage_roomMessage env original room.media room'.media
  · rw [(effectOf_static env (fun original h => hmessage ⟨original, h⟩) room.media room'.media).1]

/-- Events without messages give none in any room. -/
theorem messagesOf_eq_nil {room : CachedRoom M} (room' : CachedRoom M) {events : List TimelineEvent}
    (h : messagesOf env room events = []) : messagesOf env room' events = [] := by
  induction events generalizing room room' with
  | nil => rfl
  | cons event events ih =>
    rw [messagesOf, List.append_eq_nil_iff] at h ⊢
    refine ⟨?_, ih _ h.2⟩
    have hnone : (messageOf env room' event).isSome = false := by
      rw [messageOf_isSome env room' room]
      simpa using h.1
    simpa using hnone

/-- A page behind a position. -/
structure Page (room : CachedRoom M) (rest : List TimelineEvent) (limit : Nat)
    (fetch : MessagesFetcher.FetchRun M E) : Prop where
  items : fetch.items = ((messagesOf env room rest).take limit).map .ok
  /-- At its limit the fetch has processed no event behind the last message. -/
  full : limit ≤ (messagesOf env room rest).length →
    ∃ k, MessagesFetcher.Needed env room rest limit k ∧
      fetch.room = afterEvents env room (rest.take k)

theorem page_of_run (h : Serves api timeline position)
    (hknown : ∀ event ∈ timeline, startsUnknownPoll event = false) (room : CachedRoom M)
    (numEvents n limit : Nat) (sendReadMarkers : Bool) (token : Option Token)
    {fetch : MessagesFetcher.FetchRun M E}
    (hfetch : MessagesFetcher.run env MessagesFetcher.listening limit sendReadMarkers room
      (UnthreadedLoader.answers api numEvents n ⟨token⟩) = fetch)
        (hfinished : fetch.finished = true) :
    Page env room (timeline.drop (position token)) limit fetch := by
  obtain ⟨chunks, j, hanswers, hevents, hend⟩ := answers_of_serves h numEvents n token
  set rest := timeline.drop (position token) with hrest
  have hok : MessagesFetcher.ProcessedOk env room (MessagesFetcher.eventsUpToEnd chunks) := by
    refine processedOk_of_known env room fun event hmem => hknown event ?_
    rw [hevents] at hmem
    exact List.mem_of_mem_drop (List.mem_of_mem_take hmem)
  rw [hanswers] at hfetch
  obtain ⟨hitems, hfinishes, k, hroom, hneeded⟩ :=
    MessagesFetcher.run_chunks env limit sendReadMarkers room hok hfetch
  rw [hevents] at hitems hfinishes hroom hneeded
  have hsplit : messagesOf env room rest = messagesOf env room (rest.take j)
      ++ messagesOf env (afterEvents env room (rest.take j)) (rest.drop j) := by
    rw [← messagesOf_append, List.take_append_drop]
  rcases hfinishes.mp hfinished with hlimit | hreaches
  · -- the limit is reached among the events that have been loaded
    have htake : (messagesOf env room (rest.take j)).take limit
      = (messagesOf env room rest).take limit := by
      rw [hsplit, List.take_append_of_le_length hlimit]
    rw [if_pos hlimit] at hneeded
    have hk : (rest.take j).take k = rest.take k := by
      have hle := hneeded.le
      rw [List.length_take] at hle
      rw [List.take_take, Nat.min_eq_left (by omega)]
    refine ⟨by rw [hitems, htake], fun _ => ⟨k, ⟨?_, ?_, fun i hi => ?_⟩, by rw [hroom, hk]⟩⟩
    · have hle := hneeded.le
      rw [List.length_take] at hle
      omega
    · rw [← hk, hneeded.messages, htake]
    · have hbehind := hneeded.none_behind i hi
      have hle := hneeded.le
      rw [List.length_take] at hle
      rwa [List.take_take, Nat.min_eq_left (by omega)] at hbehind
  · have hall : rest.take j = rest := by
      have hlength := hend hreaches
      refine List.take_of_length_le ?_
      rw [hrest, List.length_drop]
      omega
    rw [hall] at hitems hneeded hroom
    exact ⟨hitems, fun hlimit => ⟨k, by rwa [if_pos hlimit] at hneeded, hroom⟩⟩

/-- The event that gives the last message of a full page is the last one that is processed. -/
theorem last_of_needed {room : CachedRoom M} {rest : List TimelineEvent} {limit k : Nat}
    (h : MessagesFetcher.Needed env room rest limit k) (hlimit : 0 < limit)
    (hle : limit ≤ (messagesOf env room rest).length) :
    ∃ i event message, k = i + 1 ∧ rest[i]? = some event ∧ event.eventId = some message.messageId ∧
      ((messagesOf env room rest).take limit).getLast? = some message := by
  have hlength : (messagesOf env room (rest.take k)).length = limit := by
    rw [h.messages, List.length_take]
    omega
  cases k with
  | zero =>
    rw [List.take_zero, messagesOf, List.length_nil] at hlength
    omega
  | succ i =>
    have hbound := h.le
    have hin : i < rest.length := by omega
    have hget : rest[i]? = some rest[i] := List.getElem?_eq_getElem hin
    have hshort := h.none_behind i (Nat.lt_succ_self i)
    have hlast : messagesOf env room (rest.take (i + 1)) = messagesOf env room (rest.take i)
        ++ (messageOf env (afterEvents env room (rest.take i)) rest[i]).toList := by
      rw [List.take_add_one, hget, messagesOf_append]
      exact congrArg _ (List.append_nil _)
    rw [hlast] at hlength
    cases hmessage : messageOf env (afterEvents env room (rest.take i)) rest[i] with
    | none =>
      rw [hmessage, Option.toList_none, List.append_nil] at hlength
      omega
    | some message =>
      refine ⟨i, _, message, rfl, hget, eventId_of_messageOf env hmessage, ?_⟩
      rw [← h.messages, hlast, hmessage]
      exact List.getLast?_concat ..

/-! ## Pages -/

/-- The next fetch starts at the position. -/
def StartsAt (api : MessagesApi Token E) (position : Option Token → Nat)
    (fromMessageId : Option String) (p : Nat) : Prop :=
  ∃ token, resolveFromMessageId api fromMessageId = .ok token ∧ position token = p

variable {calcChunkSize : Nat → Nat} {n : Nat}

/-- The pages of a request that succeeds. -/
theorem fetchPages_cons {room : CachedRoom M} {fromMessageId : Option String} {limit : Nat}
    {limits : List Nat} {messages : List Message}
    (h : fetchPages env api calcChunkSize n room fromMessageId (limit :: limits) = some messages) :
    ∃ fetch page messages', fetchMessages env api calcChunkSize n room fromMessageId limit true
      = .ok fetch ∧
      fetch.finished = true ∧ fetch.items.mapM Except.toOption = some page ∧
      fetchPages env api calcChunkSize n fetch.room
        ((page.getLast?.map Message.messageId).or fromMessageId) limits = some messages' ∧
      messages = page ++ messages' := by
  rw [fetchPages] at h
  split at h
  · cases h
  · next fetch hfetch =>
    rw [Option.ite_none_right_eq_some] at h
    obtain ⟨hfinished, hrest⟩ := h
    obtain ⟨page, hpage, hmap⟩ := Option.bind_eq_some_iff.mp hrest
    obtain ⟨messages', hmessages', rfl⟩ := Option.map_eq_some_iff.mp hmap
    exact ⟨fetch, page, messages', hfetch, hfinished, hpage, hmessages', rfl⟩

theorem mapM_toOption_ok (messages : List Message) :
    (messages.map (Except.ok (ε := FetchError E))).mapM Except.toOption = some messages := by
  induction messages with
  | nil => rfl
  | cons message messages ih => simp [List.mapM_cons, ih, Except.toOption]

/-- The fetch of a page is the run at the position. -/
theorem page_of_fetchMessages (h : Serves api timeline position)
    (hknown : ∀ event ∈ timeline, startsUnknownPoll event = false) {room : CachedRoom M}
    {fromMessageId : Option String} {p limit : Nat} (hstart : StartsAt api position fromMessageId p)
    {fetch : MessagesFetcher.FetchRun M E}
    (hfetch : fetchMessages env api calcChunkSize n room fromMessageId limit true = .ok fetch)
    (hfinished : fetch.finished = true) : Page env room (timeline.drop p) limit fetch := by
  obtain ⟨token, htoken, rfl⟩ := hstart
  rw [fetchMessages, htoken] at hfetch
  exact page_of_run env h hknown room _ n limit true token (Except.ok.inj hfetch) hfinished

/-- Behind the event that gives the last message there are none. -/
theorem last_of_messages {room : CachedRoom M} {rest : List TimelineEvent}
    (h : messagesOf env room rest ≠ []) :
    ∃ i event message, rest[i]? = some event ∧ event.eventId = some message.messageId ∧
      (messagesOf env room rest).getLast? = some message ∧
      ∃ room', messagesOf env room' (rest.drop (i + 1)) = [] := by
  induction rest generalizing room with
  | nil => exact absurd rfl h
  | cons event rest ih =>
    rw [messagesOf] at h ⊢
    by_cases hrest : messagesOf env (room.processTimelineEvent env event).2 rest = []
    · rw [hrest, List.append_nil] at h ⊢
      cases hmessage : messageOf env room event with
      | none => simp [hmessage] at h
      | some message =>
        exact ⟨0, event, message, rfl, eventId_of_messageOf env hmessage, rfl, _, hrest⟩
    · obtain ⟨i, event', message, hget, hid, hlast, hsilent⟩ := ih hrest
      refine ⟨i + 1, event', message, hget, hid, ?_, hsilent⟩
      rw [List.getLast?_append, hlast, Option.some_or]

/-- The next fetch starts behind the event of the message. -/
theorem startsAt_of_event (h : Serves api timeline position) {p i : Nat} {event : TimelineEvent}
    {id : String} (hget : (timeline.drop p)[i]? = some event) (hid : event.eventId = some id) :
    StartsAt api position (some id) (p + (i + 1)) := by
  rw [List.getElem?_drop] at hget
  obtain ⟨token, htoken, hposition⟩ := h.context (p + i) event id hget hid
  exact ⟨some token, htoken, hposition⟩

/-- Pages behind the last message are empty. -/
theorem fetchPages_behind (h : Serves api timeline position)
    (hknown : ∀ event ∈ timeline, startsUnknownPoll event = false) {p : Nat} {silent : CachedRoom M}
    (hsilent : messagesOf env silent (timeline.drop p) = []) {limits : List Nat}
    {room : CachedRoom M} {fromMessageId : Option String}
    (hstart : StartsAt api position fromMessageId p) {messages : List Message}
    (hpages : fetchPages env api calcChunkSize n room fromMessageId limits = some messages) :
    messages = [] := by
  induction limits generalizing room messages with
  | nil => exact (Option.some.inj hpages).symm
  | cons limit limits ih =>
    obtain ⟨fetch, page, messages', hfetch, hfinished, hpage, hrest, rfl⟩ :=
      fetchPages_cons env hpages
    have hitems := (page_of_fetchMessages env h hknown hstart hfetch hfinished).items
    rw [messagesOf_eq_nil env room hsilent, List.take_nil, List.map_nil] at hitems
    rw [hitems] at hpage
    obtain rfl : page = [] := (Option.some.inj hpage).symm
    rw [ih hrest, List.append_nil]

/-- The pages from a position on are the first messages behind it. -/
theorem fetchPages_eq (h : Serves api timeline position)
    (hknown : ∀ event ∈ timeline, startsUnknownPoll event = false) {limits : List Nat} {p : Nat}
    {room : CachedRoom M} {fromMessageId : Option String}
    (hstart : StartsAt api position fromMessageId p) {messages : List Message}
    (hpages : fetchPages env api calcChunkSize n room fromMessageId limits = some messages) :
    messages = (messagesOf env room (timeline.drop p)).take limits.sum := by
  induction limits generalizing room fromMessageId p messages with
  | nil =>
    rw [List.sum_nil, List.take_zero]
    exact (Option.some.inj hpages).symm
  | cons limit limits ih =>
    obtain ⟨fetch, page, messages', hfetch, hfinished, hpage, hrest, rfl⟩ :=
      fetchPages_cons env hpages
    have hone := page_of_fetchMessages env h hknown hstart hfetch hfinished
    rw [hone.items, mapM_toOption_ok] at hpage
    obtain rfl := Option.some.inj hpage
    rw [List.sum_cons]
    by_cases hfull : limit ≤ (messagesOf env room (timeline.drop p)).length
    · obtain ⟨k, hneeded, hroom⟩ := hone.full hfull
      -- the next page starts where this one has stopped
      have hnext : StartsAt api position ((((messagesOf env room (timeline.drop p)).take
          limit).getLast?.map Message.messageId).or fromMessageId) (p + k) := by
        rcases Nat.eq_zero_or_pos limit with rfl | hpos
        · have hk : k = 0 := by
            by_contra hne
            have := hneeded.none_behind 0 (by omega)
            omega
          subst hk
          simpa using hstart
        · obtain ⟨i, event, message, rfl, hget, hid, hlast⟩ := last_of_needed env hneeded hpos hfull
          rw [hlast, Option.map_some, Option.some_or]
          exact startsAt_of_event h hget hid
      have hmessages' := ih hnext hrest
      have hsplit : messagesOf env room (timeline.drop p)
          = (messagesOf env room (timeline.drop p)).take limit
            ++ messagesOf env fetch.room (timeline.drop (p + k)) := by
        rw [← hneeded.messages, hroom, ← List.drop_drop, ← messagesOf_append, List.take_append_drop]
      have hlength : ((messagesOf env room (timeline.drop p)).take limit).length = limit := by
        rw [List.length_take]
        omega
      rw [hmessages']
      calc (messagesOf env room (timeline.drop p)).take limit
            ++ (messagesOf env fetch.room (timeline.drop (p + k))).take limits.sum
          = ((messagesOf env room (timeline.drop p)).take limit
              ++ messagesOf env fetch.room (timeline.drop (p + k))).take (limit + limits.sum) := by
            rw [List.take_append, hlength, Nat.add_sub_cancel_left, List.take_take,
              Nat.min_eq_right (by omega)]
        _ = (messagesOf env room (timeline.drop p)).take (limit + limits.sum) := by rw [← hsplit]
    · -- a page below its limit is the last one that has messages
      have hall : (messagesOf env room (timeline.drop p)).take limit
          = messagesOf env room (timeline.drop p) := List.take_of_length_le (by omega)
      rw [hall] at hrest ⊢
      have hempty : messages' = [] := by
        by_cases hnone : messagesOf env room (timeline.drop p) = []
        · rw [hnone] at hrest
          exact fetchPages_behind env h hknown hnone hstart hrest
        · obtain ⟨i, event, message, hget, hid, hlast, room', hsilent⟩ := last_of_messages env hnone
          rw [hlast, Option.map_some, Option.some_or] at hrest
          rw [List.drop_drop] at hsilent
          exact fetchPages_behind env h hknown hsilent (startsAt_of_event h hget hid) hrest
      rw [hempty, List.append_nil, List.take_of_length_le (by omega)]

/-- With a server that makes progress, a fetch comes to its end. -/
theorem fetchMessages_finished (h : Serves api timeline position)
    (hknown : ∀ event ∈ timeline, startsUnknownPoll event = false)
    (hprogress : ∀ token count next chunk, api.messages token count = .ok (chunk, some next) →
      chunk ≠ []) (hn : timeline.length < n) {p : Nat} {fromMessageId : Option String}
    (hstart : StartsAt api position fromMessageId p) (calcChunkSize : Nat → Nat)
    (room : CachedRoom M) (limit : Nat) :
    ∃ fetch, fetchMessages env api calcChunkSize n room fromMessageId limit true = .ok fetch ∧
      fetch.finished = true := by
  obtain ⟨token, htoken, rfl⟩ := hstart
  obtain ⟨chunks, j, hanswers, hevents, -⟩ := answers_of_serves h (calcChunkSize limit) n token
  have hreaches := reachesEnd_of_serves h hprogress (calcChunkSize limit) n token (by omega) chunks
    hanswers
  have hok : MessagesFetcher.ProcessedOk env room (MessagesFetcher.eventsUpToEnd chunks) := by
    refine processedOk_of_known env room fun event hmem => hknown event ?_
    rw [hevents] at hmem
    exact List.mem_of_mem_drop (List.mem_of_mem_take hmem)
  obtain ⟨-, hfinishes, -⟩ := MessagesFetcher.run_chunks (E := E) env limit true room hok rfl
  refine ⟨_, ?_, hfinishes.mpr (.inr hreaches)⟩
  rw [fetchMessages, htoken, ← hanswers]

/-- With a server that makes progress, every page comes to its end. -/
theorem fetchPages_isSome (h : Serves api timeline position)
    (hknown : ∀ event ∈ timeline, startsUnknownPoll event = false)
    (hprogress : ∀ token count next chunk, api.messages token count = .ok (chunk, some next) →
      chunk ≠ []) (hn : timeline.length < n) {limits : List Nat} {p : Nat} {room : CachedRoom M}
    {fromMessageId : Option String} (hstart : StartsAt api position fromMessageId p) :
    (fetchPages env api calcChunkSize n room fromMessageId limits).isSome = true := by
  induction limits generalizing room fromMessageId p with
  | nil => rfl
  | cons limit limits ih =>
    obtain ⟨fetch, hfetch, hfinished⟩ :=
      fetchMessages_finished env h hknown hprogress hn hstart calcChunkSize room limit
    have hitems := (page_of_fetchMessages env h hknown hstart hfetch hfinished).items
    have hnext : ∃ p', StartsAt api position ((((messagesOf env room (timeline.drop p)).take
        limit).getLast?.map Message.messageId).or fromMessageId) p' := by
      cases hlast : ((messagesOf env room (timeline.drop p)).take limit).getLast? with
      | none => exact ⟨p, hstart⟩
      | some message =>
        have hmem := List.mem_of_mem_take (List.mem_of_getLast? hlast)
        obtain ⟨event, hevent, hid⟩ := eventId_of_mem_messagesOf env hmem
        obtain ⟨i, hget⟩ := List.mem_iff_getElem?.mp hevent
        exact ⟨_, startsAt_of_event h hget hid⟩
    obtain ⟨p', hnext⟩ := hnext
    have hrest : (fetchPages env api calcChunkSize n fetch.room _ limits).isSome = true := ih hnext
    obtain ⟨messages', hmessages'⟩ := Option.isSome_iff_exists.mp hrest
    rw [fetchPages, hfetch]
    dsimp only
    rw [if_pos hfinished, hitems, mapM_toOption_ok, Option.bind_some, hmessages']
    rfl

/-- The pages that are fetched one after another, each from the last message of the one before, are
    together the first messages that the timeline gives; and if the server makes progress, they are
    all fetched. -/
theorem pages_of_timeline (h : Serves api timeline position)
    (hknown : ∀ event ∈ timeline, startsUnknownPoll event = false) (room : CachedRoom M)
    (limits : List Nat) :
    (∀ messages, fetchPages env api calcChunkSize n room none limits = some messages →
      messages = (messagesOf env room timeline).take limits.sum) ∧
    ((∀ token count next chunk, api.messages token count = .ok (chunk, some next) → chunk ≠ []) →
      timeline.length < n →
      fetchPages env api calcChunkSize n room none limits
        = some ((messagesOf env room timeline).take limits.sum)) := by
  have hstart : StartsAt api position none 0 := ⟨none, rfl, h.start⟩
  have heq : ∀ messages, fetchPages env api calcChunkSize n room none limits = some messages →
      messages = (messagesOf env room timeline).take limits.sum :=
    fun messages hpages => fetchPages_eq env h hknown hstart hpages
  refine ⟨heq, fun hprogress hn => ?_⟩
  have hsome : (fetchPages env api calcChunkSize n room none limits).isSome = true :=
    fetchPages_isSome env h hknown hprogress hn hstart
  obtain ⟨messages, hmessages⟩ := Option.isSome_iff_exists.mp hsome
  rw [hmessages, ← heq messages hmessages]

end

/-- A homeserver whose tokens are positions, with at most two events in a chunk. -/
def pairServer (timeline : List TimelineEvent) : MessagesApi Nat Unit where
  messages token _ :=
    .ok ((timeline.drop (token.getD 0)).take 2,
      if timeline.length ≤ token.getD 0 + 2 then none else some (token.getD 0 + 2))
  eventWithContext id :=
    .ok ((timeline.findIdx? fun event => event.eventId = some id).map (· + 1))

/-- Three messages, and a reaction to the oldest one between the others. -/
def reactedHistory : List TimelineEvent :=
  let event (content : AnyMessageLikeEvent) : TimelineEvent :=
    ⟨.plainText (.ok (.messageLike content)), none⟩
  let text (id body : String) (ts : Nat) : TimelineEvent :=
    event (.roomMessage (.original ⟨id, "@alice", ts, "!r", ⟨.text body, none, none⟩⟩))
  [text "$4" "Bye" 40, event (.reaction (.original ⟨"$3", "@bob", 30, "!r", ⟨"$1", "+1"⟩⟩)),
    text "$2" "How are you?" 20, text "$1" "Hello" 10]

theorem serves_reactedHistory :
    Serves (pairServer reactedHistory) reactedHistory fun token => token.getD 0 where
  start := rfl
  messages token count := by
    refine ⟨2, _, rfl, ?_⟩
    by_cases hend : reactedHistory.length ≤ token.getD 0 + 2
    · rw [if_pos hend]
      exact hend
    · rw [if_neg hend]
      rfl
  context i event id hget hid := by
    match i with
    | 0 | 1 | 2 | 3 =>
      cases hget
      cases hid
      exact ⟨_, rfl, rfl⟩
    | i + 4 => cases hget

theorem pages_of_timeline_reacted :
    fetchPages (RoomEnv.bare "!r") (pairServer reactedHistory) (fun _ => 10) 5 (CachedRoom.new ())
        none [1, 2, 5]
      = some ((messagesOf (RoomEnv.bare "!r") (CachedRoom.new ()) reactedHistory).take 8) := by
  refine (pages_of_timeline (RoomEnv.bare "!r") serves_reactedHistory (by decide)
      (CachedRoom.new ())
    [1, 2, 5]).2 (fun token count next chunk hmessages hnil => ?_) (by decide)
  obtain ⟨hchunk, hnext⟩ := Prod.mk.inj (Except.ok.inj hmessages)
  rw [Option.ite_none_left_eq_some] at hnext
  have hlength : ((reactedHistory.drop (token.getD 0)).take 2).length = 0 := by
    rw [hchunk, hnil]
    rfl
  rw [List.length_take, List.length_drop] at hlength
  omega

end GoudaMatrix.MemoryCache
