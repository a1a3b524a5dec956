/-
  The way of the messages of a fetch to the application: `fetch_messages` spawns the fetcher
  (`memory_cache.rs`), which sends into a channel of `MESSAGES_CHANNEL_CAPACITY` slots, and
  `get_room_messages` (`client.rs`) takes them out of it, one by one, until the stream ends or
  yields an error.

  The fetcher and the request take their steps in any order. `messages_delivered`: the application
  receives what the fetcher sends, in order, and the response says whether it has received all of
  it.
-/
import GoudaMatrix.Lib.Channel
import GoudaMatrix.Lib.Trace
import GoudaMatrix.MemoryCache.Fetching

namespace GoudaMatrix.MemoryCache.MessageStream

open GoudaMatrix.Lib

def messagesChannelCapacity : Nat := 10

section

variable {Err Item : Type}

structure State (Err Item : Type) where
  /-- What the fetcher is still to send. -/
  unsent : List (Except Err Item)
  /-- The fetcher ends after the last of them, and its sender is dropped. -/
  ends : Bool
  channel : Channel (Except Err Item)
  /-- The items of the multipart response. -/
  received : List Item
  response : Option (Except Err Unit)
deriving DecidableEq

inductive Step where
  /-- The fetcher calls `send`, after its last call has returned. -/
  | send
  | enqueue
  /-- `stream.next()` of the request. -/
  | next
deriving DecidableEq

namespace State

def start (items : List (Except Err Item)) (ends : Bool) : State Err Item :=
  ⟨items, ends, .empty, [], none⟩

/-- The sender has been dropped and the buffer is empty. -/
def closed (s : State Err Item) : Bool := s.ends && s.unsent.isEmpty && s.channel.contents.isEmpty

/-- The loop of `get_room_messages`; an error drops the stream. -/
def next (s : State Err Item) : Option (State Err Item) :=
  match s.channel.receive with
  | some (.ok message, channel) => some { s with channel, received := s.received ++ [message] }
  | some (.error err, channel) => some { s with channel, response := some (.error err) }
  | none => if s.closed then some { s with response := some (.ok ()) } else none

def step (s : State Err Item) : Step → Option (State Err Item)
  | .send =>
    match s.unsent with
    | item :: unsent =>
      if s.channel.waiting = [] then some { s with unsent, channel := s.channel.offer item }
      else none
    | [] => none
  | .enqueue => (s.channel.enqueue messagesChannelCapacity).map fun channel => { s with channel }
  | .next => if s.response.isNone then s.next else none

end State

def streamSystem (Err Item : Type) : System (State Err Item) Step where
  step := State.step

/-! ## Steps -/

/-- What a fetcher sends: messages, and an error only at the end. -/
def Shaped (items : List (Except Err Item)) : Prop :=
  ∃ (messages : List Item) (error : Option Err),
    items = messages.map .ok ++ error.toList.map .error

/-- An error is the last item, behind all of the messages. -/
theorem error_last {items rest : List (Except Err Item)} (hshaped : Shaped items)
    {received : List Item} {e : Err} (h : received.map .ok ++ .error e :: rest = items) :
    rest = [] := by
  obtain ⟨messages, error, rfl⟩ := hshaped
  induction received generalizing messages with
  | nil =>
    cases messages with
    | cons message messages => cases h
    | nil =>
      cases error with
      | none => cases h
      | some e' => exact (List.cons.inj h).2
  | cons message received ih =>
    cases messages with
    | cons message' messages => exact ih messages (List.cons.inj h).2
    | nil => cases error <;> cases h

namespace State

/-- What the request has taken out of the stream. -/
def taken (s : State Err Item) : List (Except Err Item) :=
  s.received.map .ok ++ match s.response with
    | some (.error e) => [.error e]
    | some (.ok ()) | none => []

/-- Nothing is lost, and a success is told when everything has been received. -/
structure Inv (items : List (Except Err Item)) (ends : Bool) (s : State Err Item) : Prop where
  shaped : Shaped items
  ends : s.ends = ends
  items : s.taken ++ (s.channel.contents ++ s.unsent) = items
  succeeded : s.response = some (.ok ()) → s.channel.contents = [] ∧ s.unsent = []

variable {items : List (Except Err Item)} {ends : Bool} {s t : State Err Item} {a : Step}

theorem inv_next (h : s.Inv items ends) (hnone : s.response = none) (hnext : s.next = some t) :
    t.Inv items ends := by
  have hitems := h.items
  simp only [taken, hnone, List.append_nil] at hitems
  unfold next at hnext
  split at hnext
  · next message channel hreceive =>
    obtain rfl := Option.some.inj hnext
    refine ⟨h.shaped, h.ends, ?_, fun hok => by rw [hnone] at hok; cases hok⟩
    simp only [taken, hnone]
    rw [Channel.contents_receive hreceive] at hitems
    simpa using hitems
  · next err channel hreceive =>
    obtain rfl := Option.some.inj hnext
    refine ⟨h.shaped, h.ends, ?_, fun hok => by cases hok⟩
    simp only [taken]
    rw [Channel.contents_receive hreceive] at hitems
    simpa using hitems
  · rw [Option.ite_none_right_eq_some, Option.some.injEq] at hnext
    obtain ⟨hclosed, rfl⟩ := hnext
    refine ⟨h.shaped, h.ends, ?_, fun _ => ?_⟩
    · simpa only [taken, List.append_nil] using hitems
    · simp only [closed, Bool.and_eq_true, List.isEmpty_iff] at hclosed
      exact ⟨hclosed.2, hclosed.1.2⟩

theorem inv_step (h : s.Inv items ends) (hstep : s.step a = some t) : t.Inv items ends := by
  cases a with
  | send =>
    simp only [step] at hstep
    split at hstep
    · next item unsent hunsent =>
      rw [Option.ite_none_right_eq_some, Option.some.injEq] at hstep
      obtain ⟨-, rfl⟩ := hstep
      refine ⟨h.shaped, h.ends, ?_, fun hok => ?_⟩
      · have hitems := h.items
        rw [hunsent] at hitems
        simpa [taken] using hitems
      · have hempty := (h.succeeded hok).2
        rw [hunsent] at hempty
        cases hempty
    · cases hstep
  | enqueue =>
    obtain ⟨channel, hchannel, rfl⟩ := Option.map_eq_some_iff.mp hstep
    have hcontents := Channel.contents_enqueue hchannel
    exact ⟨h.shaped, h.ends, by simpa only [taken, hcontents] using h.items,
      by simpa only [hcontents] using h.succeeded⟩
  | next =>
    simp only [step, Option.isNone_iff_eq_none, Option.ite_none_right_eq_some] at hstep
    exact inv_next h hstep.1 hstep.2

theorem inv_start (hshaped : Shaped items) : (start items ends).Inv items ends :=
  ⟨hshaped, rfl, rfl, fun h => by cases h⟩

/-- How many steps are left until the response. -/
def work (s : State Err Item) : Nat :=
  match s.response with
  | some _ => 0
  | none => 1 + 3 * s.unsent.length + 2 * s.channel.waiting.length + s.channel.buffer.length

/-- A fetcher that ends leads to the response. -/
theorem exists_step (h : s.Inv items true) (hwork : s.work ≠ 0) :
    ∃ a t, s.step a = some t ∧ t.work < s.work := by
  have hends := h.ends
  obtain ⟨unsent, ends, channel, received, response⟩ := s
  obtain rfl : ends = true := hends
  cases response with
  | some result => exact absurd rfl hwork
  | none =>
    by_cases hcontents : channel.contents = []
    · obtain ⟨hbuffer, hwaiting⟩ := List.append_eq_nil_iff.mp hcontents
      cases unsent with
      | cons item unsent =>
        refine ⟨.send, _, if_pos hwaiting, ?_⟩
        simp only [work, Channel.offer, hbuffer, hwaiting, List.length_cons, List.nil_append,
          List.length_nil]
        omega
      | nil =>
        have hreceive : channel.receive = none := by rw [Channel.receive, hbuffer]
        refine ⟨.next, ⟨[], true, channel, received, some (.ok ())⟩, ?_, ?_⟩
        · simp [step, next, hreceive, closed, hcontents]
        · simp only [work]
          omega
    · rcases Channel.moves_of_contents (by decide : 0 < messagesChannelCapacity) hcontents with
        ⟨item, channel', hreceive⟩ | ⟨channel', henqueue⟩
      · have hbuffer := Channel.buffer_receive hreceive
        have hwaiting := (Channel.receive_cases hreceive).2
        cases item with
        | ok message =>
          refine ⟨.next, ⟨unsent, true, channel', received ++ [message], none⟩, ?_, ?_⟩
          · simp [step, next, hreceive]
          · simp only [work, hwaiting]
            omega
        | error err =>
          refine ⟨.next, ⟨unsent, true, channel', received, some (.error err)⟩, ?_, ?_⟩
          · simp [step, next, hreceive]
          · simp only [work]
            omega
      · have hwaiting := Channel.waiting_enqueue henqueue
        have hbuffer := Channel.buffer_length_enqueue henqueue
        refine ⟨.enqueue, ⟨unsent, true, channel', received, none⟩, ?_, ?_⟩
        · simp only [step, henqueue, Option.map_some]
        · simp only [work]
          omega

end State

theorem inv_of_step {items : List (Except Err Item)} {ends : Bool} (s : State Err Item) (a : Step)
    (t : State Err Item) (h : s.Inv items ends)
    (hstep : (streamSystem Err Item).step s a = some t) :
    t.Inv items ends := State.inv_step h hstep

/-- What a run of the fetcher and the request has delivered, and that it can be completed. -/
structure Delivers (items : List (Except Err Item)) (ends : Bool) (t : State Err Item) : Prop where
  /-- What the request has taken, what is in the channel and what is yet to be sent. -/
  received : t.taken ++ (t.channel.contents ++ t.unsent) = items
  /-- The response tells that everything has been received, or the error behind it. -/
  response : ∀ result, t.response = some result →
    items = t.received.map .ok ++ match result with
      | .ok () => []
      | .error e => [.error e]
  completes : ends = true → ∃ as u, (streamSystem Err Item).run t as = some u ∧
    u.response.isSome = true

theorem delivers {items : List (Except Err Item)} (hshaped : Shaped items) {ends : Bool}
    {as : List Step} {t : State Err Item}
    (hrun : (streamSystem Err Item).run (.start items ends) as = some t) :
    Delivers items ends t := by
  have hinv : t.Inv items ends :=
    (streamSystem Err Item).inv_of_any_run inv_of_step (State.inv_start hshaped) hrun
  refine ⟨hinv.items, fun result hresult => ?_, fun hends => ?_⟩
  · have hitems := hinv.items
    rw [State.taken, hresult] at hitems
    cases result with
    | ok _ =>
      obtain ⟨hcontents, hunsent⟩ := hinv.succeeded hresult
      rw [hcontents, hunsent] at hitems
      simpa using hitems.symm
    | error e =>
      have hsplit : t.received.map .ok ++ .error e :: (t.channel.contents ++ t.unsent) = items := by
        simpa using hitems
      rw [error_last hshaped hsplit] at hsplit
      exact hsplit.symm
  · subst hends
    have hmove : ∀ s : State Err Item, s.Inv items true → s.work ≠ 0 →
        ∃ a v, True ∧ (streamSystem Err Item).step s a = some v ∧ v.work < s.work := by
      intro s h hwork
      obtain ⟨a, v, hstep, hless⟩ := State.exists_step h hwork
      exact ⟨a, v, trivial, hstep, hless⟩
    obtain ⟨bs, u, -, hrun', hrest⟩ :=
      (streamSystem Err Item).exists_run_to_rest inv_of_step hmove hinv
    refine ⟨bs, u, hrun', ?_⟩
    cases hresponse : u.response with
    | some result => rfl
    | none => simp [State.work, hresponse] at hrest

end

/-! ## The messages of a fetch -/

section

variable {M E : Type} (env : RoomEnv M)

/-- A fetch sends messages, and an error only at the end. -/
theorem shaped_run (received : Nat → Bool) (limit : Nat) (sendReadMarkers : Bool)
    (room : CachedRoom M) (answers : List (Except E Chunk)) :
    Shaped (MessagesFetcher.run env received limit sendReadMarkers room answers).items := by
  unfold MessagesFetcher.run
  split
  · exact ⟨[], none, rfl⟩
  · generalize MessagesFetcher.fetchUntilCompletion env received room
      (MessagesFetcher.start limit sendReadMarkers room) answers = r
    obtain ⟨result, room', f⟩ := r
    match result with
    | none | some (.ok ()) => exact ⟨f.messages, none, (List.append_nil _).symm⟩
    | some (.error e) =>
      refine ⟨f.messages, if received f.retrievedMessages then some e else none, ?_⟩
      simp only [MessagesFetcher.finish]
      split <;> rfl

/-- A request for messages. Whatever the fetcher and the request do in turn, the application has
    received the first of what the fetcher sends, in order, and the rest is in the channel or yet to
    be sent. The response is a success when it has received all of it, and the error of the fetch
    when it has received all messages before the error. If the fetch ends, the request can be
    completed; if the loader does not fail and all events are processed, it delivers the first
    messages up to the limit. -/
theorem messages_delivered (limit : Nat) (sendReadMarkers : Bool) (room : CachedRoom M)
    (answers : List (Except E Chunk)) {as : List Step} {t : State (FetchError E) Message}
    (hrun :
      let fetch :=
        MessagesFetcher.run env MessagesFetcher.listening limit sendReadMarkers room answers
      (streamSystem (FetchError E) Message).run (.start fetch.items fetch.finished) as = some t) :
    let fetch :=
      MessagesFetcher.run env MessagesFetcher.listening limit sendReadMarkers room answers
    Delivers fetch.items fetch.finished t ∧
      ∀ chunks : List Chunk, answers = chunks.map .ok →
        MessagesFetcher.ProcessedOk env room (MessagesFetcher.eventsUpToEnd chunks) →
        ∀ result, t.response = some result → result = .ok () ∧
          t.received
            = (messagesOf env room (MessagesFetcher.eventsUpToEnd chunks)).take limit := by
  have hdelivers :=
    delivers (shaped_run env MessagesFetcher.listening limit sendReadMarkers room answers) hrun
  refine ⟨hdelivers, fun chunks hanswers hok result hresult => ?_⟩
  subst hanswers
  have hitems := hdelivers.response result hresult
  rw [(MessagesFetcher.run_chunks (E := E) env limit sendReadMarkers room hok rfl).1] at hitems
  cases result with
  | ok _ =>
    rw [List.append_nil] at hitems
    exact ⟨rfl, (List.map_injective_iff.mpr (fun _ _ h => Except.ok.inj h) hitems).symm⟩
  | error e =>
    have hmem : Except.error e ∈ ((messagesOf env room
        (MessagesFetcher.eventsUpToEnd chunks)).take limit).map .ok := by
      rw [hitems]
      exact List.mem_append_right _ List.mem_cons_self
    obtain ⟨message, -, heq⟩ := List.mem_map.mp hmem
    cases heq

end

/-- Two of three messages are asked for. -/
def twoMessages : MessagesFetcher.FetchRun Unit Unit :=
  MessagesFetcher.run (RoomEnv.bare "!r") MessagesFetcher.listening 2 false (CachedRoom.new ())
    (MessagesFetcher.historyChunks.map .ok)

theorem messages_delivered_two :
    ∃ t, (streamSystem (FetchError Unit) Message).run
      (.start twoMessages.items twoMessages.finished)
        [.send, .enqueue, .send, .next, .enqueue, .next, .next] = some t ∧
      t.response = some (.ok ()) ∧
      t.received = (messagesOf (RoomEnv.bare "!r") (CachedRoom.new ())
        (MessagesFetcher.eventsUpToEnd MessagesFetcher.historyChunks)).take 2 := by
  obtain ⟨t, hrun, hresponse⟩ : ∃ t, (streamSystem (FetchError Unit) Message).run
      (.start twoMessages.items twoMessages.finished)
      [.send, .enqueue, .send, .next, .enqueue, .next, .next] = some t ∧
        t.response = some (.ok ()) := ⟨_, rfl, rfl⟩
  have hdelivered := messages_delivered (RoomEnv.bare "!r") 2 false (CachedRoom.new ())
    (MessagesFetcher.historyChunks.map .ok) hrun
  exact ⟨t, hrun, hresponse, (hdelivered.2 MessagesFetcher.historyChunks rfl
    ⟨rfl, rfl, rfl, trivial⟩ _ hresponse).2⟩

end GoudaMatrix.MemoryCache.MessageStream
