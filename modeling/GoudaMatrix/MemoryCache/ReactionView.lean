/-
  The reactions that the application shows, beside the cached ones. Fetches, late decryptions, the
  live events and the requests to remove a reaction change the cache and tell the application. A
  fetched message is on its way for a while, and so is a removal that waits for the server.

  The application receives what is sent in the order in which it is sent. `reactions_follow` says
  which steps part it from the cache: a reaction is only fetched, a message arrives with reactions
  that are outdated, one of two equal reactions is redacted, a removal ends too late. A live
  reaction never does, and neither does one that is decrypted late. A message that is fetched again
  puts right what has been missed (`reactions_repaired`).
-/
import Mathlib.Data.Finset.Dedup
import Mathlib.Data.Finset.Insert
import GoudaMatrix.Lib.Run
import GoudaMatrix.Messages.Builder
import GoudaMatrix.MemoryCache.CachedReactions
import GoudaMatrix.MemoryCache.RetryView

namespace GoudaMatrix.MemoryCache

open GoudaMatrix.Lib GoudaMatrix.Ruma

/-! ## What the application shows -/

inductive Outgoing where
  | message (event : MessageEvent)
  | reactionRemoved (reaction : Reaction)
deriving DecidableEq

def RedactionOutput.outgoing : RedactionOutput → Outgoing
  | .messageChange event => .message (.changed event)
  | .reactionRemoved reaction => .reactionRemoved reaction

/-- The reactions to each message that is shown with its reactions, by its room and its id. -/
abbrev ReactionView := String → String → Option (Finset CachedReaction)

namespace ReactionView

variable (view : ReactionView)

def set (roomId messageId : String) (reactions : Option (Finset CachedReaction)) : ReactionView :=
  fun roomId' messageId' =>
    if roomId' = roomId ∧ messageId' = messageId then reactions else view roomId' messageId'

/-- A message without its content is shown without reactions. -/
def apply : Outgoing → ReactionView
  | .message (.received message) =>
    view.set message.roomId message.messageId
      (if CachedMessage.isRemoved message.content then none
        else some (message.reactions.map fun reaction => (keyOf reaction).reaction).toFinset)
  | .message (.changed change) =>
    if CachedMessage.isRemoved change.content then view.set change.roomId change.messageId none
    else view
  | .message (.removed remove) => view.set remove.roomId remove.messageId none
  | .message (.reactionCreated reaction) =>
    view.set reaction.roomId reaction.messageId ((view reaction.roomId reaction.messageId).map
      fun reactions => insert (keyOf reaction).reaction reactions)
  | .reactionRemoved reaction =>
    view.set reaction.roomId reaction.messageId ((view reaction.roomId reaction.messageId).map
      fun reactions => reactions.erase (keyOf reaction).reaction)

def applyAll (outgoing : List Outgoing) : ReactionView := outgoing.foldl apply view

/-- Whether a reaction is shown, if its message is. -/
def has (k : ReactionKey) : Option Bool :=
  (view k.roomId k.messageId).map fun reactions => decide (k.reaction ∈ reactions)

end ReactionView

namespace Outgoing

/-- What is sent is about the reaction. -/
def Concerns (k : ReactionKey) : Outgoing → Prop
  | .message (.received msg) => msg.roomId = k.roomId ∧ msg.messageId = k.messageId
  | .message (.changed change) => CachedMessage.isRemoved change.content = true ∧
      change.roomId = k.roomId ∧ change.messageId = k.messageId
  | .message (.removed remove) => remove.roomId = k.roomId ∧ remove.messageId = k.messageId
  | .message (.reactionCreated reaction) | .reactionRemoved reaction => keyOf reaction = k

/-- Whether the reaction is shown afterwards. -/
def shown (k : ReactionKey) (before : Option Bool) : Outgoing → Option Bool
  | .message (.received msg) =>
    if CachedMessage.isRemoved msg.content then none
    else some (decide (k.reaction ∈ msg.reactions.map fun reaction => (keyOf reaction).reaction))
  | .message (.changed _) | .message (.removed _) => none
  | .message (.reactionCreated _) => before.map fun _ => true
  | .reactionRemoved _ => before.map fun _ => false

end Outgoing

namespace ReactionView

variable {view : ReactionView} {k : ReactionKey}

theorem set_of_ne {roomId messageId : String} (reactions : Option (Finset CachedReaction))
    (h : ¬ (roomId = k.roomId ∧ messageId = k.messageId)) :
    (view.set roomId messageId reactions).has k = view.has k := by
  unfold has set
  rw [if_neg fun heq => h ⟨heq.1.symm, heq.2.symm⟩]

theorem has_set (reactions : Option (Finset CachedReaction)) :
    (view.set k.roomId k.messageId reactions).has k
      = reactions.map fun reactions => decide (k.reaction ∈ reactions) := by
  unfold has set
  rw [if_pos ⟨rfl, rfl⟩]

theorem has_apply_of_not (outgoing : Outgoing) (h : ¬ outgoing.Concerns k) :
    (view.apply outgoing).has k = view.has k := by
  -- a reaction to the same message leaves the others as they are
  have hother : ∀ (reaction : Reaction) (change : Finset CachedReaction → Finset CachedReaction),
      keyOf reaction ≠ k →
      (∀ other reactions, other ≠ (keyOf reaction).reaction →
        (other ∈ change reactions ↔ other ∈ reactions)) →
      (view.set reaction.roomId reaction.messageId
        ((view reaction.roomId reaction.messageId).map change)).has k = view.has k := by
    intro reaction change hne hchange
    by_cases hmessage : reaction.roomId = k.roomId ∧ reaction.messageId = k.messageId
    · have hreaction : k.reaction ≠ (keyOf reaction).reaction := by
        intro heq
        refine hne ?_
        obtain ⟨roomId, messageId, other⟩ := k
        obtain ⟨rfl, rfl⟩ := hmessage
        exact congrArg _ heq.symm
      obtain ⟨hroomId, hmessageId⟩ := hmessage
      rw [hroomId, hmessageId, has_set, Option.map_map]
      unfold has
      cases view k.roomId k.messageId with
      | none => rfl
      | some reactions => exact congrArg some (decide_eq_decide.mpr (hchange _ _ hreaction))
    · exact set_of_ne _ hmessage
  unfold apply
  split
  · exact set_of_ne _ h
  · split
    · next hremoved => exact set_of_ne _ fun heq => h ⟨hremoved, heq⟩
    · rfl
  · exact set_of_ne _ h
  · next reaction =>
    refine hother reaction _ h fun other reactions hne => ?_
    rw [Finset.mem_insert, or_iff_right hne]
  · next reaction =>
    refine hother reaction _ h fun other reactions hne => ?_
    rw [Finset.mem_erase, and_iff_right hne]

theorem has_apply_of_concerns (outgoing : Outgoing) (h : outgoing.Concerns k) :
    (view.apply outgoing).has k = outgoing.shown k (view.has k) := by
  have hself : ∀ (reaction : Reaction) (change : Finset CachedReaction → Finset CachedReaction),
      keyOf reaction = k →
      (view.set reaction.roomId reaction.messageId
        ((view reaction.roomId reaction.messageId).map change)).has k
        = (view k.roomId k.messageId).map fun reactions =>
          decide (k.reaction ∈ change reactions) := by
    rintro reaction change rfl
    rw [show reaction.roomId = (keyOf reaction).roomId from rfl,
      show reaction.messageId = (keyOf reaction).messageId from rfl, has_set, Option.map_map]
    rfl
  cases outgoing with
  | message event =>
    cases event with
    | received message =>
      obtain ⟨hroomId, hmessageId⟩ := h
      unfold apply Outgoing.shown
      dsimp only
      rw [hroomId, hmessageId, has_set]
      split
      · rfl
      · exact congrArg some (decide_eq_decide.mpr List.mem_toFinset)
    | changed change =>
      obtain ⟨hremoved, hroomId, hmessageId⟩ := h
      unfold apply
      dsimp only
      rw [if_pos hremoved, hroomId, hmessageId, has_set]
      rfl
    | removed remove =>
      obtain ⟨hroomId, hmessageId⟩ := h
      unfold apply
      dsimp only
      rw [hroomId, hmessageId, has_set]
      rfl
    | reactionCreated reaction =>
      refine (hself reaction _ h).trans ?_
      unfold Outgoing.shown has
      subst h
      cases view (keyOf reaction).roomId (keyOf reaction).messageId with
      | none => rfl
      | some reactions => exact congrArg some (decide_eq_true (Finset.mem_insert_self _ _))
  | reactionRemoved reaction =>
    refine (hself reaction _ h).trans ?_
    unfold Outgoing.shown has
    subst h
    cases view (keyOf reaction).roomId (keyOf reaction).messageId with
    | none => rfl
    | some reactions => exact congrArg some (decide_eq_false (Finset.notMem_erase _ _))

end ReactionView

/-! ## The system -/

/-- A request that has removed a reaction from the cache and waits for the server. -/
structure PendingRemoval where
  key : ReactionKey
  /-- What it sends once the server has answered. -/
  sent : List Reaction
  sent_key : ∀ reaction ∈ sent, keyOf reaction = key

structure ReactionState (M : Type) where
  rooms : CachedRooms M
  /-- The fetched messages that have not reached the application. -/
  arriving : List Message
  removing : List PendingRemoval
  view : ReactionView

inductive ReactionStep (M E : Type) where
  /-- An event is fetched; its message is passed on, unless it is only a relation. -/
  | fetch (roomId : String) (event : TimelineEvent) (passedOn : Bool)
  | arrive (index : Nat)
  /-- An event is decrypted late. -/
  | retry (roomId : String) (event : TimelineEvent)
  | reaction (roomId : String) (event : OriginalEvent ReactionEventContent)
  | message (roomId : String) (joined : Bool) (event : Events.LiveMessage)
      (room : Events.LiveRoom M)
  | poll (roomId : String) (event : OriginalEvent UnstablePollStartEventContent)
  | redaction (roomId : String) (event : RedactionEvent) (loaded : Option TimelineEvent)
  | remove (server : ReactionServer E) (request : Reaction)
  /-- The server has answered a request that removes a reaction. -/
  | removed (index : Nat)

section System

variable {M E : Type} (env : RoomEnv M) (media : M) (table : String → ReactionTable)

/-- What the live path sends for a message. -/
def liveMessage (roomId : String) (joined : Bool) (event : Events.LiveMessage)
    (room : Events.LiveRoom M) : List MessageEvent :=
  (Events.execRoomMessageEvent env.mediaManager roomId joined event room).1

namespace ReactionState

def start : ReactionState M := ⟨∅, [], [], fun _ _ => none⟩

variable (s : ReactionState M)

/-- The application receives what is sent. -/
def send (outgoing : List Outgoing) : ReactionState M :=
  { s with view := s.view.applyAll outgoing }

def fetch (roomId : String) (event : TimelineEvent) (passedOn : Bool) : ReactionState M :=
  { s with
    rooms := s.rooms.processed env media roomId event
    arriving := s.arriving ++ if passedOn then
        (messageOf (env.at roomId) (s.rooms.getOrCreateRoom media roomId) event).toList
      else [] }

def retry (roomId : String) (event : TimelineEvent) : ReactionState M :=
  { s with rooms := s.rooms.processed env media roomId event }.send
    ((sentFor (env.at roomId) (s.rooms.getOrCreateRoom media roomId) event).map .message)

def reaction (roomId : String) (event : OriginalEvent ReactionEventContent) : ReactionState M :=
  let (created, rooms) := execReactionEvent media s.rooms roomId event
  { s with rooms }.send [.message (.reactionCreated created)]

def redaction (roomId : String) (event : RedactionEvent) (loaded : Option TimelineEvent) :
    ReactionState M :=
  let (output, rooms) := s.rooms.execRoomRedactionEvent env media roomId event loaded
  { s with rooms }.send (output.toList.map RedactionOutput.outgoing)

def remove (server : ReactionServer E) (request : Reaction) : ReactionState M :=
  let outcome := removeReaction (fun roomId => env.at roomId) server s.rooms request
  { s with
    rooms := outcome.rooms
    removing := s.removing ++
      [{ key := ⟨request.roomId, request.messageId, ⟨server.userIdOf request, request.reaction⟩⟩
         sent := outcome.sent
         sent_key := fun _ => keyOf_of_mem_sent }] }

def step (s : ReactionState M) : ReactionStep M E → Option (ReactionState M)
  | .fetch roomId event passedOn =>
    if ∀ reaction ∈ reactionIn event, table roomId reaction.1 = reaction.2 then
      some (s.fetch env media roomId event passedOn)
    else none
  | .arrive index =>
    (s.arriving[index]?).map fun message =>
      { s with arriving := s.arriving.eraseIdx index }.send [.message (.received message)]
  | .retry roomId event =>
    if (∀ reaction ∈ reactionIn event, table roomId reaction.1 = reaction.2) ∧
        isUnableToDecrypt event = false then
      some (s.retry env media roomId event)
    else none
  | .reaction roomId event =>
    if table roomId event.eventId
        = ⟨event.content.eventId, ⟨event.sender, event.content.key⟩⟩ then
      some (s.reaction media roomId event)
    else none
  | .message roomId joined event room =>
    some (s.send ((liveMessage env roomId joined event room).map .message))
  | .poll roomId event =>
    some (s.send ((Messages.execNewUnstablePollStartEvent roomId event).map .message))
  | .redaction roomId event loaded => some (s.redaction env media roomId event loaded)
  | .remove server request => some (s.remove env server request)
  | .removed index =>
    (s.removing[index]?).map fun removal =>
      { s with removing := s.removing.eraseIdx index }.send
        (removal.sent.map Outgoing.reactionRemoved)

end ReactionState

/-- A reaction event is always the one of its id. -/
def reactionSystem : System (ReactionState M) (ReactionStep M E) where
  step := ReactionState.step env media table

end System

/-! ## Agreement -/

section Agreement

variable {M E : Type}

namespace ReactionState

section

variable (env : RoomEnv M) (k : ReactionKey) (s : ReactionState M)

/-- No removal of the reaction waits for the server. -/
def Settled : Prop := ∀ removal ∈ s.removing, removal.key ≠ k

/-- The reaction is shown exactly if it is cached, as far as its message is shown. -/
def Agrees : Prop :=
  s.Settled k → ∀ shown, s.view.has k = some shown → (shown = true ↔ s.rooms.Has k)

/-- The message has the reaction exactly if it is cached. -/
def UpToDate (message : Message) : Prop :=
  message.roomId = k.roomId → message.messageId = k.messageId →
    CachedMessage.isRemoved message.content = false →
      (k.reaction ∈ message.reactions.map (fun reaction => (keyOf reaction).reaction)
        ↔ s.rooms.Has k)

/-- A fetched reaction to a message that is shown must be shown already; a message that arrives must
    be up to date; a redacted reaction must not have a twin; and a removal that ends must find the
    cache as it has left it. -/
def KeepsTrack (s : ReactionState M) : ReactionStep M E → Prop
  | .fetch roomId event _ => ∀ reactionId placed, reactionIn event = some (reactionId, placed) →
      (⟨roomId, placed.messageId, placed.reaction⟩ : ReactionKey) = k → s.Settled k →
      s.view.has k ≠ some false
  | .arrive index => ∀ message, s.arriving[index]? = some message → s.Settled k →
      s.UpToDate k message
  | .message roomId joined event room => ∀ message,
      .received message ∈ liveMessage env roomId joined event room → s.Settled k →
      s.UpToDate k message
  | .poll roomId event => ∀ message,
      .received message ∈ Messages.execNewUnstablePollStartEvent roomId event → s.Settled k →
      s.UpToDate k message
  | .redaction roomId event loaded => ∀ reactionId,
      s.rooms.Redacts roomId event loaded k reactionId → s.Settled k → s.view.has k ≠ none →
      ∀ other, s.rooms.reaction k.roomId k.messageId other = some k.reaction → other = reactionId
  | .removed index => ∀ removal, s.removing[index]? = some removal → removal.key = k →
      (∀ other ∈ s.removing.eraseIdx index, other.key ≠ k) →
      ∀ shown, s.view.has k = some shown →
        ((shown = true ∧ removal.sent = []) ↔ s.rooms.Has k)
  | .retry _ _ | .reaction _ _ | .remove _ _ => True

end

variable {env : RoomEnv M} {media : M} {table : String → ReactionTable} {k : ReactionKey}
  {s t : ReactionState M}

/-! ### What is sent -/

theorem agrees_of_quiet (h : s.Agrees k) (hsettled : t.Settled k → s.Settled k)
    (hview : ∀ shown, t.view.has k = some shown → s.view.has k = some shown)
    (hrooms : t.rooms.Has k ↔ s.rooms.Has k) : t.Agrees k := by
  intro hk shown hshown
  rw [hrooms]
  exact h (hsettled hk) shown (hview shown hshown)

/-- A change or a removal of a message shows nothing of its reactions that was not shown. -/
theorem has_of_hides {view : ReactionView} {outgoing : Outgoing} {shown : Bool}
    (hhides : (∃ change, outgoing = .message (.changed change)) ∨
      ∃ remove, outgoing = .message (.removed remove))
    (h : (view.apply outgoing).has k = some shown) : view.has k = some shown := by
  by_cases hconcerns : outgoing.Concerns k
  · rw [ReactionView.has_apply_of_concerns _ hconcerns] at h
    obtain ⟨change, rfl⟩ | ⟨remove, rfl⟩ := hhides <;> cases h
  · rwa [ReactionView.has_apply_of_not _ hconcerns] at h

theorem has_of_all_hide {view : ReactionView} {events : List MessageEvent} {shown : Bool}
    (hhides : ∀ e ∈ events, (∃ change, e = .changed change) ∨ ∃ remove, e = .removed remove)
    (h : (view.applyAll (events.map .message)).has k = some shown) : view.has k = some shown := by
  induction events generalizing view with
  | nil => exact h
  | cons e events ih =>
    have hfirst : (view.apply (.message e)).has k = some shown :=
      ih (fun e he => hhides e (List.mem_cons_of_mem _ he)) h
    refine has_of_hides ?_ hfirst
    exact (hhides e List.mem_cons_self).imp (fun ⟨change, he⟩ => ⟨change, congrArg _ he⟩)
      fun ⟨remove, he⟩ => ⟨remove, congrArg _ he⟩

theorem agrees_received_self {message : Message} (hroomId : message.roomId = k.roomId)
    (hmessageId : message.messageId = k.messageId) :
    (s.Settled k → s.UpToDate k message)
      ↔ (s.send [.message (.received message)]).Agrees k := by
  have hhas : (s.view.apply (.message (.received message))).has k
      = if CachedMessage.isRemoved message.content then none
        else some (decide (k.reaction
          ∈ message.reactions.map fun reaction => (keyOf reaction).reaction)) :=
    ReactionView.has_apply_of_concerns (.message (.received message)) ⟨hroomId, hmessageId⟩
  constructor
  · intro hdate hk shown hshown
    have heq := hhas.symm.trans hshown
    cases hremoved : CachedMessage.isRemoved message.content with
    | true =>
      rw [hremoved] at heq
      cases heq
    | false =>
      rw [hremoved] at heq
      obtain rfl := Option.some.inj heq
      rw [decide_eq_true_iff]
      exact hdate hk hroomId hmessageId hremoved
  · intro hagrees hk _ _ hremoved
    rw [hremoved] at hhas
    have hiff := hagrees hk _ hhas
    rwa [decide_eq_true_iff] at hiff

theorem agrees_received (h : s.Agrees k) (message : Message) :
    (s.Settled k → s.UpToDate k message)
      ↔ (s.send [.message (.received message)]).Agrees k := by
  by_cases hconcerns : message.roomId = k.roomId ∧ message.messageId = k.messageId
  · exact agrees_received_self hconcerns.1 hconcerns.2
  · have hsame : (s.send [.message (.received message)]).Agrees k := by
      refine agrees_of_quiet h id (fun shown hshown => ?_) Iff.rfl
      exact (ReactionView.has_apply_of_not
        (.message (.received message)) hconcerns).symm.trans hshown
    exact iff_of_true (fun _ hroomId hmessageId => absurd ⟨hroomId, hmessageId⟩ hconcerns) hsame

/-- Events about a message that the live path sends. -/
theorem agrees_live (h : s.Agrees k) {events : List MessageEvent}
    (hevents : (∃ message, events = [.received message]) ∨
      ∀ e ∈ events, (∃ change, e = .changed change) ∨ ∃ remove, e = .removed remove) :
    (∀ message, .received message ∈ events → s.Settled k → s.UpToDate k message)
      ↔ (s.send (events.map .message)).Agrees k := by
  obtain ⟨message, rfl⟩ | hhides := hevents
  · refine Iff.trans ?_ (agrees_received h message)
    constructor
    · exact fun hdate => hdate message List.mem_cons_self
    · intro hdate other hother
      rw [List.mem_singleton] at hother
      cases hother
      exact hdate
  · refine iff_of_true (fun message hmem => ?_)
      (agrees_of_quiet h id (fun _ => has_of_all_hide hhides) Iff.rfl)
    obtain ⟨change, heq⟩ | ⟨remove, heq⟩ := hhides _ hmem <;> cases heq

theorem liveMessage_cases (roomId : String) (joined : Bool) (event : Events.LiveMessage)
    (room : Events.LiveRoom M) :
    (∃ message, liveMessage env roomId joined event room = [.received message]) ∨
      ∀ e ∈ liveMessage env roomId joined event room,
        (∃ change, e = .changed change) ∨ ∃ remove, e = .removed remove := by
  unfold liveMessage Events.execRoomMessageEvent
  cases joined with
  | false => exact .inr fun e he => absurd he List.not_mem_nil
  | true =>
    rw [if_pos rfl]
    split
    · unfold Events.processReplacementMessage
      dsimp only
      split
      · exact .inr fun e he => absurd he List.not_mem_nil
      · exact .inr fun e he => .inl ⟨_, List.mem_singleton.mp he⟩
    · exact .inl ⟨_, rfl⟩

theorem livePoll_cases (roomId : String) (event : OriginalEvent UnstablePollStartEventContent) :
    (∃ message, Messages.execNewUnstablePollStartEvent roomId event = [.received message]) ∨
      ∀ e ∈ Messages.execNewUnstablePollStartEvent roomId event,
        (∃ change, e = .changed change) ∨ ∃ remove, e = .removed remove := by
  unfold Messages.execNewUnstablePollStartEvent
  split
  · exact .inr fun e he => absurd he List.not_mem_nil
  · exact .inl ⟨_, rfl⟩

/-! ### The steps -/

theorem agrees_fetch (hs : s.rooms.Placed table) (h : s.Agrees k) {roomId : String}
    {event : TimelineEvent} {passedOn : Bool}
    (htable : ∀ reaction ∈ reactionIn event, table roomId reaction.1 = reaction.2) :
    KeepsTrack (E := E) env k s (.fetch roomId event passedOn)
      ↔ (s.fetch env media roomId event passedOn).Agrees k := by
  cases hreaction : reactionIn event with
  | none =>
    refine iff_of_true (fun reactionId placed heq => ?_)
      (agrees_of_quiet h id (fun _ => id) (CachedRooms.has_congr fun messageId reactionId =>
        CachedRooms.reaction_processed_of_none hreaction _ _ _))
    rw [hreaction] at heq
    cases heq
  | some reaction =>
    obtain ⟨reactionId, placed⟩ := reaction
    have hhas : CachedRooms.Has (s.rooms.processed env media roomId event) k ↔
        s.rooms.Has k ∨ k = ⟨roomId, placed.messageId, placed.reaction⟩ :=
      (CachedRooms.caches_processed hreaction).has_iff hs (htable _ hreaction)
    by_cases hk : (⟨roomId, placed.messageId, placed.reaction⟩ : ReactionKey) = k
    · have hcached : (s.fetch env media roomId event passedOn).rooms.Has k :=
        hhas.mpr (.inr hk.symm)
      constructor
      · intro hcond hsettled shown hshown
        refine iff_of_true ?_ hcached
        have hne := hcond reactionId placed hreaction hk hsettled
        cases shown with
        | true => rfl
        | false => exact absurd hshown hne
      · intro hagrees _ _ _ _ hsettled hshown
        exact absurd ((hagrees hsettled false hshown).mpr hcached) Bool.false_ne_true
    · refine iff_of_true (fun other placed' heq hk' => ?_)
        (agrees_of_quiet h id (fun _ => id) (hhas.trans (or_iff_left fun heq => hk heq.symm)))
      rw [hreaction] at heq
      cases heq
      exact absurd hk' hk

theorem agrees_reaction (hs : s.rooms.Placed table) (h : s.Agrees k) {roomId : String}
    {event : OriginalEvent ReactionEventContent}
    (htable : table roomId event.eventId
      = ⟨event.content.eventId, ⟨event.sender, event.content.key⟩⟩) :
    (s.reaction media roomId event).Agrees k := by
  have hhas : CachedRooms.Has (s.rooms.cacheReaction media roomId event) k ↔
      s.rooms.Has k ∨ k = ⟨roomId, event.content.eventId, ⟨event.sender, event.content.key⟩⟩ :=
    (CachedRooms.caches_cacheReaction roomId event).has_iff hs htable
  by_cases hk : keyOf (execReactionEvent media s.rooms roomId event).1 = k
  · intro _ shown hshown
    have hcached : (s.reaction media roomId event).rooms.Has k := hhas.mpr (.inr hk.symm)
    have hview : (s.view.has k).map (fun _ => true) = some shown :=
      (ReactionView.has_apply_of_concerns (.message (.reactionCreated _)) hk).symm.trans hshown
    obtain ⟨-, -, htrue⟩ := Option.map_eq_some_iff.mp hview
    exact iff_of_true htrue.symm hcached
  · refine agrees_of_quiet h id (fun shown hshown => ?_)
      (hhas.trans (or_iff_left fun heq => hk heq.symm))
    exact (ReactionView.has_apply_of_not (.message (.reactionCreated _)) hk).symm.trans hshown

/-- Nothing else is sent for an event that is decrypted late. -/
theorem hides_of_mem_sentFor {room : CachedRoom M} {event : TimelineEvent}
    (h : reactionIn event = none) :
    ∀ e ∈ sentFor env room event,
      (∃ change, e = .changed change) ∨ ∃ remove, e = .removed remove := by
  have hmessage : ∀ message, ∀ e ∈ processSuccessfulRedecryptedMessage env message,
      (∃ change, e = .changed change) ∨ ∃ remove, e = .removed remove := by
    intro message e he
    unfold processSuccessfulRedecryptedMessage at he
    split at he
    · exact .inr ⟨_, List.mem_singleton.mp he⟩
    · exact .inl ⟨_, List.mem_singleton.mp he⟩
  have heffect := reactionIn_eq env event room.media
  rw [h] at heffect
  rw [sentFor_eq]
  cases hcase : (effectOf env event room.media).1 with
  | reacted messageId reactionId reaction =>
    rw [hcase] at heffect
    cases heffect
  | failed => exact fun e he => absurd he List.not_mem_nil
  | assembled original => exact hmessage _
  | undecryptable encrypted sessionId => exact hmessage _
  | ignored | replaced | redacted | pollReplaced | pollAnswered | pollEnded =>
    intro e he
    obtain ⟨id, -, rfl⟩ := List.mem_map.mp he
    exact .inr ⟨_, rfl⟩

theorem sentFor_of_reaction {room : CachedRoom M} {event : TimelineEvent} {reactionId : String}
    {placed : PlacedReaction} (h : reactionIn event = some (reactionId, placed)) :
    sentFor env room event
      = [.removed ⟨env.roomId, reactionId⟩,
        .reactionCreated (ReactionKey.toReaction
          ⟨env.roomId, placed.messageId, placed.reaction⟩)] := by
  have heffect := reactionIn_eq env event room.media
  rw [h] at heffect
  rw [sentFor_eq]
  cases hcase : (effectOf env event room.media).1 with
  | reacted messageId id reaction =>
    rw [hcase] at heffect
    cases heffect
    rfl
  | ignored | failed | assembled | replaced | redacted | pollReplaced | pollAnswered | pollEnded
  | undecryptable =>
    rw [hcase] at heffect
    cases heffect

theorem agrees_retry (hs : s.rooms.Placed table) (h : s.Agrees k) {roomId : String}
    {event : TimelineEvent}
    (htable : ∀ reaction ∈ reactionIn event, table roomId reaction.1 = reaction.2) :
    (s.retry env media roomId event).Agrees k := by
  cases hreaction : reactionIn event with
  | none =>
    exact agrees_of_quiet h id (fun _ => has_of_all_hide (hides_of_mem_sentFor hreaction))
      (CachedRooms.has_congr fun _ _ => CachedRooms.reaction_processed_of_none hreaction _ _ _)
  | some reaction =>
    obtain ⟨reactionId, placed⟩ := reaction
    have hhas : CachedRooms.Has (s.rooms.processed env media roomId event) k ↔
        s.rooms.Has k ∨ k = ⟨roomId, placed.messageId, placed.reaction⟩ :=
      (CachedRooms.caches_processed hreaction).has_iff hs (htable _ hreaction)
    generalize hcreated : (⟨roomId, placed.messageId, placed.reaction⟩ : ReactionKey) = created
      at hhas
    have hview : (s.retry env media roomId event).view
        = (s.view.apply (.message (.removed ⟨roomId, reactionId⟩))).apply
          (.message (.reactionCreated created.toReaction)) := by
      subst hcreated
      unfold retry send ReactionView.applyAll
      dsimp only
      rw [sentFor_of_reaction hreaction]
      rfl
    by_cases hk : created = k
    · intro _ shown hshown
      rw [hview, ReactionView.has_apply_of_concerns
        (.message (.reactionCreated created.toReaction)) hk] at hshown
      obtain ⟨-, -, htrue⟩ := Option.map_eq_some_iff.mp hshown
      exact iff_of_true htrue.symm (hhas.mpr (.inr hk.symm))
    · refine agrees_of_quiet h id (fun shown hshown => ?_)
        (hhas.trans (or_iff_left fun heq => hk heq.symm))
      rw [hview, ReactionView.has_apply_of_not
        (.message (.reactionCreated created.toReaction)) hk] at hshown
      -- the placeholder of the reaction is removed first
      exact has_of_hides (.inr ⟨_, rfl⟩) hshown

/-- A redaction of one reaction is not one of another. -/
theorem redacts_unique {rooms : CachedRooms M} {roomId : String} {event : RedactionEvent}
    {loaded : Option TimelineEvent} {k' : ReactionKey} {reactionId reactionId' : String}
    (h : rooms.Redacts roomId event loaded k reactionId)
    (h' : rooms.Redacts roomId event loaded k' reactionId') :
    k = k' ∧ reactionId = reactionId' := by
  obtain rfl := Option.some.inj (h.loaded.symm.trans h'.loaded)
  obtain ⟨id, messageId, reaction⟩ := k
  obtain ⟨id', messageId', reaction'⟩ := k'
  obtain rfl : id = id' := h.roomId.symm.trans h'.roomId
  obtain rfl : messageId = messageId' := Option.some.inj (h.index.symm.trans h'.index)
  obtain rfl : reaction = reaction' := Option.some.inj (h.cached.symm.trans h'.cached)
  exact ⟨rfl, rfl⟩

theorem agrees_redaction (h : s.Agrees k) (roomId : String) (event : RedactionEvent)
    (loaded : Option TimelineEvent) :
    KeepsTrack (E := E) env k s (.redaction roomId event loaded)
      ↔ (s.redaction env media roomId event loaded).Agrees k := by
  obtain ⟨redacted, reactionId, hredacts, houtput, hcached⟩ | ⟨hnone, houtput, hcached⟩ :=
    s.rooms.execRoomRedactionEvent_cases env media roomId event loaded
  · have hview : (s.redaction env media roomId event loaded).view
        = s.view.apply (.reactionRemoved redacted.toReaction) := by
      unfold redaction send ReactionView.applyAll
      dsimp only
      rw [houtput]
      rfl
    have hhas : (s.redaction env media roomId event loaded).rooms.Has k ↔
        ∃ other, ¬ (k.roomId = redacted.roomId ∧ k.messageId = redacted.messageId
            ∧ other = reactionId) ∧
          s.rooms.reaction k.roomId k.messageId other = some k.reaction := by
      refine exists_congr fun other => ?_
      show CachedRooms.reaction (CachedRooms.execRoomRedactionEvent ..).2 _ _ _ = _ ↔ _
      rw [hcached]
      split
      · next heq => exact iff_of_false nofun fun h => h.1 heq
      · next hne => exact (and_iff_right hne).symm
    by_cases hk : redacted = k
    · subst hk
      have hshows : (s.redaction env media roomId event loaded).view.has redacted
          = (s.view.has redacted).map fun _ => false := by
        rw [hview]
        exact ReactionView.has_apply_of_concerns (.reactionRemoved _) rfl
      constructor
      · intro hcond hsettled shown hshown
        rw [hshows] at hshown
        obtain ⟨before, hbefore, rfl⟩ := Option.map_eq_some_iff.mp hshown
        refine iff_of_false Bool.false_ne_true fun hleft => ?_
        obtain ⟨other, hne, hother⟩ := hhas.mp hleft
        have hbefore' : s.view.has redacted ≠ none := by
          rw [hbefore]
          nofun
        exact hne ⟨rfl, rfl, hcond reactionId hredacts hsettled hbefore' other hother⟩
      · intro hagrees id hid hsettled hshown other hother
        obtain ⟨-, rfl⟩ := redacts_unique hredacts hid
        obtain ⟨before, hbefore⟩ := Option.ne_none_iff_exists'.mp hshown
        have hfalse : (s.redaction env media roomId event loaded).view.has redacted
            = some false := by
          rw [hshows, hbefore]
          rfl
        by_contra hne
        exact absurd ((hagrees hsettled false hfalse).mpr
          (hhas.mpr ⟨other, fun heq => hne heq.2.2, hother⟩)) Bool.false_ne_true
    · refine iff_of_true (fun id hid => absurd (redacts_unique hredacts hid).1 hk)
        (agrees_of_quiet h id (fun shown hshown => ?_) (hhas.trans (exists_congr fun other => ?_)))
      · rw [hview, ReactionView.has_apply_of_not
          (.reactionRemoved redacted.toReaction) hk] at hshown
        exact hshown
      · refine and_iff_right_of_imp fun hother heq => hk ?_
        obtain ⟨hroomId, hmessageId, rfl⟩ := heq
        rw [hroomId, hmessageId, hredacts.cached] at hother
        obtain ⟨id, messageId, reaction⟩ := k
        obtain rfl : id = redacted.roomId := hroomId
        obtain rfl : messageId = redacted.messageId := hmessageId
        exact congrArg (ReactionKey.mk redacted.roomId redacted.messageId)
          (Option.some.inj hother)
  · refine iff_of_true (fun id hid => absurd hid (hnone k id))
      (agrees_of_quiet h id (fun shown hshown => ?_)
        (CachedRooms.has_congr fun _ _ => hcached _ _ _))
    unfold redaction send at hshown
    dsimp only at hshown
    cases houtcome : (s.rooms.execRoomRedactionEvent env media roomId event loaded).1 with
    | none =>
      rw [houtcome] at hshown
      exact hshown
    | some output =>
      rw [houtcome] at hshown
      cases output with
      | messageChange change => exact has_of_hides (.inl ⟨_, rfl⟩) hshown
      | reactionRemoved reaction => exact absurd houtcome (houtput reaction)

theorem agrees_remove (h : s.Agrees k) (server : ReactionServer E) (request : Reaction) :
    (s.remove env server request).Agrees k := by
  intro hsettled shown hshown
  have hk : (⟨request.roomId, request.messageId, ⟨server.userIdOf request, request.reaction⟩⟩ :
      ReactionKey) ≠ k := hsettled _ (List.mem_append_right _ List.mem_cons_self)
  refine (h (fun removal hmem => ?_) shown hshown).trans (CachedRooms.has_removeReaction hk).symm
  exact hsettled removal (List.mem_append_left _ hmem)

/-- Removed reactions that are all the same one. -/
theorem has_applyAll_removed {view : ReactionView} {sent : List Reaction}
    (hsent : ∀ reaction ∈ sent, keyOf reaction = k) :
    (view.applyAll (sent.map .reactionRemoved)).has k
      = if sent = [] then view.has k else (view.has k).map fun _ => false := by
  induction sent generalizing view with
  | nil => rfl
  | cons reaction sent ih =>
    have hfirst : (view.apply (.reactionRemoved reaction)).has k
        = (view.has k).map fun _ => false :=
      ReactionView.has_apply_of_concerns _ (hsent reaction List.mem_cons_self)
    refine (ih fun other hmem => hsent other (List.mem_cons_of_mem _ hmem)).trans ?_
    rw [hfirst, if_neg (List.cons_ne_nil _ _), Option.map_map]
    split <;> rfl

theorem has_applyAll_removed_of_ne {view : ReactionView} {sent : List Reaction}
    (hsent : ∀ reaction ∈ sent, keyOf reaction ≠ k) :
    (view.applyAll (sent.map .reactionRemoved)).has k = view.has k := by
  induction sent generalizing view with
  | nil => rfl
  | cons reaction sent ih =>
    refine (ih fun other hmem => hsent other (List.mem_cons_of_mem _ hmem)).trans ?_
    exact ReactionView.has_apply_of_not _ (hsent reaction List.mem_cons_self)

theorem agrees_removed (h : s.Agrees k) {index : Nat} {removal : PendingRemoval}
    (hremoval : s.removing[index]? = some removal)
    (ht : { s with removing := s.removing.eraseIdx index }.send
      (removal.sent.map Outgoing.reactionRemoved) = t) :
    KeepsTrack (E := E) env k s (.removed index) ↔ t.Agrees k := by
  subst ht
  by_cases hk : removal.key = k
  · subst hk
    have hshows : (s.view.applyAll (removal.sent.map .reactionRemoved)).has removal.key
        = (s.view.has removal.key).map fun shown => shown && decide (removal.sent = []) := by
      rw [has_applyAll_removed removal.sent_key]
      by_cases hsent : removal.sent = []
      · simp [hsent]
      · simp [hsent]
    have hiff : ∀ shown, ((shown && decide (removal.sent = [])) = true ↔ s.rooms.Has removal.key)
        ↔ ((shown = true ∧ removal.sent = []) ↔ s.rooms.Has removal.key) := by
      intro shown
      rw [Bool.and_eq_true, decide_eq_true_iff]
    constructor
    · intro hcond hsettled shown hshown
      obtain ⟨before, hbefore, rfl⟩ := Option.map_eq_some_iff.mp (hshows.symm.trans hshown)
      exact (hiff before).mpr (hcond removal hremoval rfl hsettled before hbefore)
    · intro hagrees other hother _ hsettled shown hshown
      obtain rfl := Option.some.inj (hremoval.symm.trans hother)
      refine (hiff shown).mp (hagrees hsettled _ ?_)
      refine hshows.trans ?_
      rw [hshown]
      rfl
  · refine iff_of_true (fun other hother heq => ?_)
      (agrees_of_quiet h (fun hsettled other hmem => ?_) (fun shown hshown => ?_) Iff.rfl)
    · obtain rfl := Option.some.inj (hremoval.symm.trans hother)
      exact absurd heq hk
    · obtain ⟨i, hi⟩ := List.mem_iff_getElem?.mp hmem
      by_cases heq : i = index
      · subst heq
        obtain rfl := Option.some.inj (hremoval.symm.trans hi)
        exact hk
      · exact hsettled other (List.mem_eraseIdx_iff_getElem?.mpr ⟨i, heq, hi⟩)
    · rwa [send, has_applyAll_removed_of_ne fun reaction hmem => by
        rw [removal.sent_key reaction hmem]
        exact hk] at hshown

/-- A step parts the application from the cache exactly if it does not meet the condition. -/
theorem agrees_step (hs : s.rooms.Placed table) (h : s.Agrees k) {a : ReactionStep M E}
    (hstep : s.step env media table a = some t) : s.KeepsTrack env k a ↔ t.Agrees k := by
  cases a with
  | fetch roomId event passedOn =>
    obtain ⟨htable, ht⟩ := Option.ite_none_right_eq_some.mp hstep
    obtain rfl := Option.some.inj ht
    exact agrees_fetch hs h htable
  | arrive index =>
    obtain ⟨message, hmessage, rfl⟩ := Option.map_eq_some_iff.mp hstep
    refine Iff.trans ?_ (agrees_received (s := { s with arriving := s.arriving.eraseIdx index })
      h message)
    refine ⟨fun hcond => hcond message hmessage, fun hdate other hother => ?_⟩
    obtain rfl := Option.some.inj (hmessage.symm.trans hother)
    exact hdate
  | retry roomId event =>
    obtain ⟨⟨htable, -⟩, ht⟩ := Option.ite_none_right_eq_some.mp hstep
    obtain rfl := Option.some.inj ht
    exact iff_of_true trivial (agrees_retry hs h htable)
  | reaction roomId event =>
    obtain ⟨htable, ht⟩ := Option.ite_none_right_eq_some.mp hstep
    obtain rfl := Option.some.inj ht
    exact iff_of_true trivial (agrees_reaction hs h htable)
  | message roomId joined event room =>
    obtain rfl := Option.some.inj hstep
    exact agrees_live h (liveMessage_cases roomId joined event room)
  | poll roomId event =>
    obtain rfl := Option.some.inj hstep
    exact agrees_live h (livePoll_cases roomId event)
  | redaction roomId event loaded =>
    obtain rfl := Option.some.inj hstep
    exact agrees_redaction h roomId event loaded
  | remove server request =>
    obtain rfl := Option.some.inj hstep
    exact iff_of_true trivial (agrees_remove h server request)
  | removed index =>
    obtain ⟨removal, hremoval, ht⟩ := Option.map_eq_some_iff.mp hstep
    exact agrees_removed h hremoval ht

theorem placed_step (hs : s.rooms.Placed table) {a : ReactionStep M E}
    (hstep : s.step env media table a = some t) : t.rooms.Placed table := by
  have hprocessed : ∀ {roomId event},
      (∀ reaction ∈ reactionIn event, table roomId reaction.1 = reaction.2) →
        CachedRooms.Placed table (s.rooms.processed env media roomId event) := by
    intro roomId event htable
    cases hreaction : reactionIn event with
    | none =>
      refine hs.of_imp fun _ _ _ _ hcached => ?_
      rwa [CachedRooms.reaction_processed_of_none hreaction] at hcached
    | some reaction =>
      exact (CachedRooms.caches_processed hreaction).placed hs (htable _ hreaction)
  cases a with
  | fetch roomId event passedOn =>
    obtain ⟨htable, ht⟩ := Option.ite_none_right_eq_some.mp hstep
    obtain rfl := Option.some.inj ht
    exact hprocessed htable
  | retry roomId event =>
    obtain ⟨⟨htable, -⟩, ht⟩ := Option.ite_none_right_eq_some.mp hstep
    obtain rfl := Option.some.inj ht
    exact hprocessed htable
  | reaction roomId event =>
    obtain ⟨htable, ht⟩ := Option.ite_none_right_eq_some.mp hstep
    obtain rfl := Option.some.inj ht
    exact (CachedRooms.caches_cacheReaction roomId event).placed hs htable
  | redaction roomId event loaded =>
    obtain rfl := Option.some.inj hstep
    refine hs.of_imp fun id messageId reactionId reaction hafter => ?_
    obtain ⟨_, _, -, -, hcached⟩ | ⟨-, -, hcached⟩ :=
      s.rooms.execRoomRedactionEvent_cases env media roomId event loaded
    · have hleft := (hcached id messageId reactionId).symm.trans hafter
      split at hleft
      · cases hleft
      · exact hleft
    · exact (hcached id messageId reactionId).symm.trans hafter
  | remove server request =>
    obtain rfl := Option.some.inj hstep
    exact hs.of_imp fun _ _ _ _ => CachedRooms.reaction_of_removeReaction
  | arrive index | removed index =>
    obtain ⟨_, -, rfl⟩ := Option.map_eq_some_iff.mp hstep
    exact hs
  | message roomId joined event room | poll roomId event =>
    obtain rfl := Option.some.inj hstep
    exact hs

/-! ### A fetched message -/

/-- A message that is fetched and has its content lists the cached reactions. -/
theorem mem_messageOf {roomId : String} {event : TimelineEvent} {message : Message}
    (hmessage : messageOf (env.at roomId) (s.rooms.getOrCreateRoom media roomId) event
      = some message) (hdecrypted : isUnableToDecrypt event = false)
    (hremoved : CachedMessage.isRemoved message.content = false) (reaction : CachedReaction) :
    reaction ∈ message.reactions.map (fun reaction => (keyOf reaction).reaction)
      ↔ s.rooms.Has ⟨roomId, message.messageId, reaction⟩ := by
  rw [messageOf_eq] at hmessage
  cases heffect : (effectOf (env.at roomId) event
      (s.rooms.getOrCreateRoom media roomId).media).1 with
  | undecryptable encrypted sessionId =>
    exact absurd heffect (effectOf_ne_undecryptable _ hdecrypted _ encrypted sessionId)
  | assembled original =>
    rw [heffect] at hmessage
    obtain rfl := Option.some.inj hmessage
    rw [CachedMessage.buildFromOriginal_eq] at hremoved ⊢
    have horiginal : CachedMessage.isRemoved original.content = false := by
      cases hcontent : original.content with
      | none => rfl
      | some content =>
        cases content with
        | removed reason =>
          rw [hcontent] at hremoved
          cases hremoved
        | text | file | poll | membershipChange => rfl
    dsimp only
    rw [(fresh_of_assembled _ heffect).1, horiginal, List.nil_append]
    unfold CachedMessage.reactionList
    rw [if_neg Bool.false_ne_true, List.map_map]
    have hmem : reaction ∈ (((s.rooms.getOrCreateRoom media roomId).cachedAt
          original.messageId).reactions.values (env.at roomId).order)
        ↔ s.rooms.Has ⟨roomId, original.messageId, reaction⟩ := by
      rw [HashMap.mem_values]
      exact exists_congr fun reactionId => by rw [CachedRooms.reactions_getOrCreateRoom]
    rw [← hmem]
    exact iff_of_eq (congrArg _ (List.map_id _))
  | ignored | failed | replaced | redacted | reacted | pollReplaced | pollAnswered | pollEnded =>
    rw [heffect] at hmessage
    cases hmessage

end ReactionState

end Agreement

/-! ## Every run -/

section Runs

variable {M E : Type} {env : RoomEnv M} {media : M} {table : String → ReactionTable}
  {steps : List (ReactionStep M E)} {s : ReactionState M}

open ReactionState

theorem placed_start (table : String → ReactionTable) :
    (start : ReactionState M).rooms.Placed table := by
  intro roomId messageId reactionId reaction h
  cases h

/-- A reaction is shown exactly if it is cached, in every state in which no removal of it waits,
    exactly if every step meets the condition. -/
theorem reactions_follow (hrun : (reactionSystem env media table).run .start steps = some s)
    (k : ReactionKey) :
    ((reactionSystem env media table).Meets (KeepsTrack env k) .start steps
      ↔ ∀ n u, (reactionSystem env media table).run .start (steps.take n) = some u → u.Agrees k) ∧
    (s.Agrees k → (∀ removal ∈ s.removing, removal.key ≠ k) →
      ∀ reactions, s.view k.roomId k.messageId = some reactions →
        (k.reaction ∈ reactions
          ↔ ∃ reactionId, s.rooms.reaction k.roomId k.messageId reactionId = some k.reaction)) := by
  constructor
  · have hinv : ∀ (s : ReactionState M) (a : ReactionStep M E) t, s.rooms.Placed table →
        (reactionSystem env media table).step s a = some t → t.rooms.Placed table :=
      fun _ _ _ hs hstep => placed_step hs hstep
    have hstep : ∀ (s : ReactionState M) (a : ReactionStep M E) t, s.rooms.Placed table →
        s.Agrees k → (reactionSystem env media table).step s a = some t →
          (s.KeepsTrack env k a ↔ t.Agrees k) := fun _ _ _ hs h hstep => agrees_step hs h hstep
    refine (reactionSystem env media table).meets_iff_of_step hinv hstep
      (placed_start table) ?_ hrun
    intro _ shown hshown
    cases hshown
  · intro hagrees hsettled reactions hshown
    have hhas : s.view.has k = some (decide (k.reaction ∈ reactions)) := by
      unfold ReactionView.has
      rw [hshown]
      rfl
    have hiff := hagrees hsettled _ hhas
    rwa [decide_eq_true_iff] at hiff

/-! ### A reaction that is given again while its removal waits for the server -/

namespace ReactionExample

def hello : Events.LiveMessage :=
  ⟨"$hello", "@alice", 1, "!r", { msgtype := .text "Hello", relatesTo := none, mentions := none }⟩

def heart (reactionId : String) : OriginalEvent ReactionEventContent :=
  ⟨reactionId, "@bob", 2, "!r", { eventId := "$hello", key := "heart" }⟩

def key : ReactionKey := ⟨"!r", "$hello", ⟨"@bob", "heart"⟩⟩

def server : ReactionServer String where
  getMatrixRoom := fun _ => .ok ()
  userId := some "@bob"
  parse := fun _ => true
  redact := fun _ _ => .ok ()

def fetchedHello : TimelineEvent :=
  ⟨.plainText (.ok (.messageLike (.roomMessage (.original hello)))), none⟩

def helloWithHeart : Message :=
  { Message.new "!r" "$hello" "@alice" 1 with
    content := some (.text "Hello")
    reactions := [⟨"!r", "$hello", "heart", some "@bob"⟩] }

def system : System (ReactionState Unit) (ReactionStep Unit String) :=
  reactionSystem (.bare "!r") () fun _ _ => ⟨"$hello", ⟨"@bob", "heart"⟩⟩

def heartAgain : List (ReactionStep Unit String) :=
  [.message "!r" true hello ⟨(), none⟩, .reaction "!r" (heart "$heart"),
    .remove server ⟨"!r", "$hello", "heart", none⟩, .reaction "!r" (heart "$again"), .removed 0]

end ReactionExample

open ReactionExample in
/-- The heart that Bob has given again is cached but not shown. -/
theorem reactions_follow_again :
    ¬ system.Meets (KeepsTrack (.bare "!r") key) .start heartAgain := by
  have hend : (system.run .start heartAgain).map (fun s => (s.removing.length,
      (s.view "!r" "$hello").map Finset.card, s.rooms.reaction "!r" "$hello" "$again"))
        = some (0, some 0, some ⟨"@bob", "heart"⟩) := by decide
  obtain ⟨s, hrun, hs⟩ := Option.map_eq_some_iff.mp hend
  obtain ⟨hremoving, hview, hcached⟩ := by simpa only [Prod.mk.injEq] using hs
  obtain ⟨reactions, hshown, hcard⟩ := Option.map_eq_some_iff.mp hview
  have hsettled : ∀ removal ∈ s.removing, removal.key ≠ key := by
    rw [List.length_eq_zero_iff.mp hremoving]
    exact fun _ h => absurd h List.not_mem_nil
  have hfollow := reactions_follow hrun key
  intro hmeets
  have hagrees := hfollow.1.mp hmeets heartAgain.length s (by rw [List.take_length]; exact hrun)
  have hmem := (hfollow.2 hagrees hsettled reactions hshown).mpr ⟨"$again", hcached⟩
  rw [Finset.card_eq_zero.mp hcard] at hmem
  exact absurd hmem (Finset.notMem_empty _)

/-- A message that is fetched again puts right what has been missed of a reaction to it, unless this
    reaction is cached or removed while the message is on its way. -/
theorem reactions_repaired {roomId : String} {event : TimelineEvent} {message : Message}
    (hmessage : messageOf (env.at roomId) (s.rooms.getOrCreateRoom media roomId) event
      = some message) (hdecrypted : isUnableToDecrypt event = false)
    (hroomId : message.roomId = roomId)
    (hremoved : CachedMessage.isRemoved message.content = false)
    {t : ReactionState M} {index : Nat} (harrives : t.arriving[index]? = some message)
    (reaction : CachedReaction) :
    ∃ u reactions, (reactionSystem (E := E) env media table).step t (.arrive index) = some u ∧
      u.view roomId message.messageId = some reactions ∧
      ((reaction ∈ reactions ↔ u.rooms.Has ⟨roomId, message.messageId, reaction⟩) ↔
        (u.rooms.Has ⟨roomId, message.messageId, reaction⟩
          ↔ s.rooms.Has ⟨roomId, message.messageId, reaction⟩)) := by
  have hlists := mem_messageOf hmessage hdecrypted hremoved reaction
  refine ⟨_, (message.reactions.map fun reaction => (keyOf reaction).reaction).toFinset,
    Option.map_eq_some_iff.mpr ⟨message, harrives, rfl⟩, ?_, ?_⟩
  · show ReactionView.set _ message.roomId message.messageId _ roomId message.messageId = _
    unfold ReactionView.set
    rw [if_pos ⟨hroomId.symm, rfl⟩, hremoved]
    rfl
  · rw [List.mem_toFinset, hlists]
    exact Iff.comm

open ReactionExample in
theorem reactions_repaired_again :
    ∃ s t u reactions, system.run .start heartAgain = some s ∧
      system.step s (.fetch "!r" fetchedHello true) = some t ∧
      system.step t (.arrive 0) = some u ∧ u.view "!r" "$hello" = some reactions ∧
      (key.reaction ∈ reactions ↔ u.rooms.Has key) := by
  have hend : (system.run .start heartAgain).map (fun s => (s.arriving,
      messageOf ((RoomEnv.bare "!r").at "!r") (s.rooms.getOrCreateRoom () "!r") fetchedHello))
        = some ([], some helloWithHeart) := by decide
  obtain ⟨s, hrun, hs⟩ := Option.map_eq_some_iff.mp hend
  obtain ⟨harriving, hmessage⟩ := by simpa only [Prod.mk.injEq] using hs
  have hone : (s.fetch (.bare "!r") () "!r" fetchedHello true).arriving[0]?
      = some helloWithHeart := by
    unfold fetch
    dsimp only
    rw [harriving, if_pos rfl, hmessage]
    rfl
  obtain ⟨u, reactions, hu, hview, hshown⟩ := reactions_repaired (E := String) hmessage (by rfl)
    (by rfl) (by rfl) hone key.reaction
  refine ⟨s, _, u, reactions, hrun, rfl, hu, hview, hshown.mpr ?_⟩
  obtain ⟨_, -, rfl⟩ := Option.map_eq_some_iff.mp hu
  exact CachedRooms.has_congr fun _ _ => CachedRooms.reaction_processed_of_none (by rfl) _ _ _

end Runs

end GoudaMatrix.MemoryCache
