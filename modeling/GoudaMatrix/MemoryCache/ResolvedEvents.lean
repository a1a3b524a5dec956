/-
  What a run of `retry_decryption` that is alone leaves in `encrypted_events` (`memory_cache.rs`).

  `process_decrypted_event` removes the id of the event that it has read, and gives up before if the
  decrypted content cannot be read (`retryEvents_removes_iff`). `resolved_removed_iff`: exactly the
  selected events that have been decrypted are removed, if each of them can be read.
  `unreadable_stays` is one that cannot: every run decrypts it again, and sends its remove again.
-/
import GoudaMatrix.MemoryCache.Delivery

namespace GoudaMatrix.MemoryCache

open GoudaMatrix.Lib GoudaMatrix.Ruma

section Resolved

variable {M : Type} (env : RoomEnv M)

/-- `Room::decrypt_event` returns a decrypted event with the id. -/
def IsDecryptedAs (event : CachedEncryptedEvent) (id : String) : Prop :=
  ∃ raw timestamp, env.decryptEvent event.event = some ⟨.decrypted raw, timestamp⟩ ∧
    TimelineEvent.eventId ⟨.decrypted raw, timestamp⟩ = some id

/-- The content of the decrypted event can be read. -/
def IsReadAs (event : CachedEncryptedEvent) (id : String) : Prop :=
  ∃ e timestamp, env.decryptEvent event.event = some ⟨.decrypted (.ok e), timestamp⟩ ∧
    e.header.eventId = id

/-- A selected event has been decrypted. -/
structure Resolved (room : CachedRoom M) (events : Option (List String)) (id : String)
    (event : CachedEncryptedEvent) : Prop where
  cached : room.encryptedEvents.lookup id = some event
  selected : IsSelected events id
  decrypted : IsDecryptedAs env event id

/-- The events that have been decrypted are removed, so that no later run takes them, and the others
    remain. -/
structure ResolvedRemoved (room : CachedRoom M) (events : Option (List String))
    (after : CachedRoom M) : Prop where
  removed : ∀ id event, Resolved env room events id event → id ∉ after.encryptedEvents
  remain : ∀ id, (∀ event, ¬ Resolved env room events id event) →
    after.encryptedEvents.lookup id = room.encryptedEvents.lookup id
  notRetried : ∀ id event later, Resolved env room events id event →
    event ∉ after.getEventsForRedecryption env later

/-! ## One event, and all -/

variable {env}

theorem IsReadAs.isDecryptedAs {event : CachedEncryptedEvent} {id : String}
    (h : IsReadAs env event id) : IsDecryptedAs env event id := by
  obtain ⟨e, timestamp, hdecrypt, rfl⟩ := h
  exact ⟨.ok e, timestamp, hdecrypt, rfl⟩

variable (env) in
theorem retry_removes (room : CachedRoom M) (event : CachedEncryptedEvent) (id : String)
    (h : IsReadAs env event id) :
    (room.retryCachedEncryptedEvent env event).2.1.encryptedEvents.lookup id = none := by
  obtain ⟨e, timestamp, hdecrypt, rfl⟩ := h
  rw [retryCachedEncryptedEvent_eq env hdecrypt rfl rfl, Delivery.room_sendResult,
    Delivery.lookup_encryptedEvents_process]
  exact if_pos rfl

variable (env) in
theorem retry_keeps (room : CachedRoom M) (event : CachedEncryptedEvent) (id : String)
    (h : ¬ IsReadAs env event id) :
    (room.retryCachedEncryptedEvent env event).2.1.encryptedEvents.lookup id
      = room.encryptedEvents.lookup id := by
  rcases Delivery.retry_cases room event with
    hnone | ⟨decrypted, eventId, hdecrypt, hdecrypted, -, hresult⟩
  · rw [hnone]
  · rw [hresult, Delivery.room_sendResult, Delivery.lookup_encryptedEvents_process]
    obtain ⟨kind, timestamp⟩ := decrypted
    cases kind with
    | unableToDecrypt e sessionId => cases hdecrypted
    | plainText e => rfl
    | decrypted e =>
      cases e with
      | malformed eventId => rfl
      | ok e => exact if_neg fun heq => h ⟨e, timestamp, hdecrypt, heq.symm⟩

/-- A run to the end removes what has been read. -/
theorem retryEvents_removes_iff {room : CachedRoom M} {events : List CachedEncryptedEvent}
    (h : (CachedRoom.retryEvents env room events).1 = .ok ()) (id : String) :
    ((∃ event ∈ events, IsReadAs env event id) →
      (CachedRoom.retryEvents env room events).2.1.encryptedEvents.lookup id = none) ∧
    ((∀ event ∈ events, ¬ IsReadAs env event id) →
      (CachedRoom.retryEvents env room events).2.1.encryptedEvents.lookup id
        = room.encryptedEvents.lookup id) := by
  induction events generalizing room with
  | nil => exact ⟨fun ⟨event, hmem, _⟩ => (List.not_mem_nil hmem).elim, fun _ => rfl⟩
  | cons event events ih =>
    have hremoves := retry_removes env room event id
    have hkeeps := retry_keeps env room event id
    unfold CachedRoom.retryEvents at h ⊢
    generalize room.retryCachedEncryptedEvent env event = r at h hremoves hkeeps ⊢
    obtain ⟨result, room₁, sent⟩ := r
    cases result with
    | error e => cases h
    | ok u =>
      obtain ⟨hrest, hothers⟩ := ih h
      refine ⟨?_, fun hnone => ?_⟩
      · rintro ⟨e, hmem, hread⟩
        by_cases hlater : ∃ e ∈ events, IsReadAs env e id
        · exact hrest hlater
        · have hlast := hothers fun e he hread => hlater ⟨e, he, hread⟩
          refine hlast.trans (hremoves ?_)
          rcases List.mem_cons.mp hmem with rfl | hmem
          · exact hread
          · exact absurd ⟨e, hmem, hread⟩ hlater
      · obtain ⟨hfirst, hlater⟩ := List.forall_mem_cons.mp hnone
        exact (hothers hlater).trans (hkeeps hfirst)

/-! ## What remains -/

theorem retryDecryption_eq_ok {room : CachedRoom M} {events : Option (List String)}
    (h : ∀ event ∈ room.getEventsForRedecryption env events,
      CachedRoom.retriesUnknownPoll env event ≠ true) :
    (room.retryDecryption env events).1 = .ok () := by
  have hok := CachedRoom.retryEvents_isOk env room (room.getEventsForRedecryption env events)
  rw [List.all_eq_true.mpr fun event hmem => by simpa using h event hmem] at hok
  have hresult : (room.retryDecryption env events).1.isOk = true := hok
  cases hcase : (room.retryDecryption env events).1 with
  | error e =>
    rw [hcase] at hresult
    cases hresult
  | ok u => rfl

theorem retryDecryption_ne_ok {room : CachedRoom M} {events : Option (List String)}
    {event : CachedEncryptedEvent} (hmem : event ∈ room.getEventsForRedecryption env events)
    (hpoll : CachedRoom.retriesUnknownPoll env event = true) :
    (room.retryDecryption env events).1 ≠ .ok () := by
  intro hresult
  have hok := CachedRoom.retryEvents_isOk env room (room.getEventsForRedecryption env events)
  unfold CachedRoom.retryDecryption at hresult
  rw [hresult] at hok
  have hall := List.all_eq_true.mp hok.symm event hmem
  rw [hpoll] at hall
  cases hall

theorem not_retried {room after : CachedRoom M} {events : Option (List String)}
    (hkeys : ∀ id event, room.encryptedEvents.lookup id = some event → event.event.eventId = id)
    (hremoved : ∀ id event, Resolved env room events id event → id ∉ after.encryptedEvents)
    (hremain : ∀ id, (∀ event, ¬ Resolved env room events id event) →
      after.encryptedEvents.lookup id = room.encryptedEvents.lookup id)
    {id : String} {event : CachedEncryptedEvent} (h : Resolved env room events id event)
    (later : Option (List String)) : event ∉ after.getEventsForRedecryption env later := by
  intro hmem
  obtain ⟨id', hlookup, -⟩ := mem_getEventsForRedecryption.mp hmem
  have hcached : room.encryptedEvents.lookup id' = some event := by
    rw [← hremain id' fun e hresolved => hremoved id' e hresolved ?_]
    · exact hlookup
    · exact AList.lookup_isSome.mp (by rw [hlookup]; rfl)
  obtain rfl := (hkeys id' event hcached).symm.trans (hkeys id event h.cached)
  exact hremoved _ event h (AList.lookup_isSome.mp (by rw [hlookup]; rfl))

/-- What has been read is the cached event of the id. -/
theorem resolved_of_read {room : CachedRoom M} {events : Option (List String)}
    (hkeys : ∀ id event, room.encryptedEvents.lookup id = some event → event.event.eventId = id)
    (hdecrypt : ∀ event decrypted, env.decryptEvent event = some decrypted →
      ∀ id, decrypted.eventId = some id → id = event.eventId)
    {event : CachedEncryptedEvent} {id : String}
    (hmem : event ∈ room.getEventsForRedecryption env events) (hread : IsReadAs env event id) :
    Resolved env room events id event := by
  obtain ⟨id', hcached, hselected⟩ := mem_getEventsForRedecryption.mp hmem
  obtain ⟨raw, timestamp, hdecrypted, hid⟩ := hread.isDecryptedAs
  obtain rfl : id = id' := (hdecrypt _ _ hdecrypted id hid).trans (hkeys id' event hcached)
  exact ⟨hcached, hselected, hread.isDecryptedAs⟩

/-- When a run to the end removes exactly the selected events that have been decrypted. The SDK
    keeps the id of an event, and the cache has each under its own. -/
theorem resolved_removed_iff {room : CachedRoom M} (events : Option (List String))
    (hkeys : ∀ id event, room.encryptedEvents.lookup id = some event → event.event.eventId = id)
    (hdecrypt : ∀ event decrypted, env.decryptEvent event = some decrypted →
      ∀ id, decrypted.eventId = some id → id = event.eventId) :
    ((room.retryDecryption env events).1 = .ok () →
      ResolvedRemoved env room events (room.retryDecryption env events).2.1) ↔
      (∃ event ∈ room.getEventsForRedecryption env events,
        CachedRoom.retriesUnknownPoll env event = true) ∨
      ∀ id event, Resolved env room events id event → IsReadAs env event id := by
  by_cases hpoll : ∃ event ∈ room.getEventsForRedecryption env events,
      CachedRoom.retriesUnknownPoll env event = true
  · obtain ⟨event, hmem, hunknown⟩ := hpoll
    exact iff_of_true (fun hok => absurd hok (retryDecryption_ne_ok hmem hunknown))
      (.inl ⟨event, hmem, hunknown⟩)
  have hok : (room.retryDecryption env events).1 = .ok () :=
    retryDecryption_eq_ok fun event hmem hunknown => hpoll ⟨event, hmem, hunknown⟩
  have hlookup := retryEvents_removes_iff hok
  constructor
  · refine fun h => .inr fun id event hresolved => ?_
    by_contra hunread
    refine (h hok).removed id event hresolved ?_
    have hkept := (hlookup id).2 fun e hmem hread => ?_
    · rw [hresolved.cached] at hkept
      exact AList.lookup_isSome.mp (Option.isSome_iff_exists.mpr ⟨event, hkept⟩)
    · have hsame := (resolved_of_read hkeys hdecrypt hmem hread).cached
      obtain rfl := Option.some.inj (hresolved.cached.symm.trans hsame)
      exact hunread hread
  · rintro (h | hread) -
    · exact absurd h hpoll
    have hremoved : ∀ id event, Resolved env room events id event →
        id ∉ (room.retryDecryption env events).2.1.encryptedEvents := by
      intro id event hresolved
      have hmem : event ∈ room.getEventsForRedecryption env events :=
        mem_getEventsForRedecryption.mpr ⟨id, hresolved.cached, hresolved.selected⟩
      exact AList.lookup_eq_none.mp
        ((hlookup id).1 ⟨event, hmem, hread id event hresolved⟩)
    have hremain : ∀ id, (∀ event, ¬ Resolved env room events id event) →
        (room.retryDecryption env events).2.1.encryptedEvents.lookup id
          = room.encryptedEvents.lookup id := fun id hnone =>
      (hlookup id).2 fun event hmem hread =>
        hnone event (resolved_of_read hkeys hdecrypt hmem hread)
    exact ⟨hremoved, hremain, fun id event later hresolved =>
      not_retried hkeys hremoved hremain hresolved later⟩

end Resolved

/-! ## Events whose keys have come -/

def withKeys (keys : List (EncryptedEvent × TimelineEvent)) : RoomEnv Unit :=
  { RoomEnv.bare "!r" with
    decryptEvent := fun event => (keys.find? fun key => key.1 = event).map (·.2) }

/-- The events are cached. -/
def hiddenRoom (events : List EncryptedEvent) : CachedRoom Unit :=
  events.foldl (fun room event => room.cacheEncryptedEvent event.eventId ⟨event, none⟩) (.new ())

theorem mem_of_withKeys {keys : List (EncryptedEvent × TimelineEvent)} {event : EncryptedEvent}
    {decrypted : TimelineEvent} (h : (withKeys keys).decryptEvent event = some decrypted) :
    (event, decrypted) ∈ keys := by
  obtain ⟨key, hfind, rfl⟩ := Option.map_eq_some_iff.mp h
  have hkey := List.find?_some hfind
  obtain rfl : key.1 = event := by simpa using hkey
  exact List.mem_of_find?_eq_some hfind

theorem keys_of_entries {room : CachedRoom Unit}
    (h : ∀ entry ∈ room.encryptedEvents.entries, entry.2.event.eventId = entry.1) (id : String)
    (event : CachedEncryptedEvent) (hlookup : room.encryptedEvents.lookup id = some event) :
    event.event.eventId = id :=
  h ⟨id, event⟩ (AList.mem_lookup_iff.mp hlookup)

def encryptedHeart : EncryptedEvent := ⟨"$heart", "@bob:hs", 20, "…"⟩

def decryptedHeart : TimelineEvent :=
  ⟨.decrypted (.ok (.messageLike (.reaction (.original
    ⟨"$heart", "@bob:hs", 20, "!r", ⟨"$hello", "<3"⟩⟩)))), none⟩

/-- The keys of a message and of a reaction to it have come. -/
def helloKeys : List (EncryptedEvent × TimelineEvent) :=
  [(encryptedHello, decryptedHello), (encryptedHeart, decryptedHeart)]

/-- There is no key for one of the selected events, and one event is not selected. -/
theorem resolved_removed_hello :
    let room := hiddenRoom [encryptedHello, encryptedHeart, ⟨"$new", "@bob:hs", 30, "…"⟩,
      ⟨"$old", "@bob:hs", 5, "…"⟩]
    let selected := some ["$hello", "$heart", "$new"]
    ResolvedRemoved (withKeys helloKeys) room selected
      (room.retryDecryption (withKeys helloKeys) selected).2.1 := by
  have hids : ∀ key ∈ helloKeys, ∀ id ∈ key.2.eventId, id = key.1.eventId := by decide
  refine (resolved_removed_iff _ (keys_of_entries (by decide +kernel)) fun event decrypted h =>
    hids _ (mem_of_withKeys h)).mpr (.inr ?_) (by rfl)
  intro id event hresolved
  obtain ⟨raw, timestamp, hdecrypt, hid⟩ := hresolved.decrypted
  have hread : ∀ key ∈ helloKeys, ∀ raw timestamp, key.2 = ⟨.decrypted raw, timestamp⟩ →
      ∃ e, raw = .ok e := by
    simp [helloKeys, decryptedHello, decryptedHeart]
  obtain ⟨e, rfl⟩ := hread _ (mem_of_withKeys hdecrypt) raw timestamp rfl
  exact ⟨e, timestamp, hdecrypt, Option.some.inj hid⟩

/-! ## A message that cannot be read -/

/-- The decrypted content is no event that can be read. -/
def unreadableHello : TimelineEvent := ⟨.decrypted (.malformed (some "$hello")), none⟩

/-- The message is removed from the application, and stays among the events to decrypt: the next run
    removes it again. -/
theorem unreadable_stays :
    let env := withKeys [(encryptedHello, unreadableHello)]
    let room := hiddenRoom [encryptedHello]
    let first := room.retryDecryption env none
    ¬ (first.1 = .ok () → ResolvedRemoved env room none first.2.1) ∧
      first.2.2 = [.removed ⟨"!r", "$hello"⟩] ∧
      (first.2.1.retryDecryption env none).2.2 = [.removed ⟨"!r", "$hello"⟩] := by
  intro env room first
  have hafter : "$hello" ∈ first.2.1.encryptedEvents := by decide +kernel
  have hdecrypt : env.decryptEvent encryptedHello = some unreadableHello := by decide +kernel
  refine ⟨fun h => ?_, by rfl, by rfl⟩
  refine (h (by rfl)).removed "$hello" ⟨encryptedHello, none⟩ ⟨by rfl, nofun, ?_⟩ hafter
  exact ⟨.malformed (some "$hello"), none, hdecrypt, rfl⟩

end GoudaMatrix.MemoryCache
