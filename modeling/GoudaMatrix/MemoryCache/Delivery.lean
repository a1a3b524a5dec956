/-
  The events in `encrypted_events` and the placeholders that the application has received, over all
  fetches and redecryptions of a room (`memory_cache.rs`).

  An event is cached when it is processed. Its placeholder is delivered by the caller, if at all,
  and later: a fetch of messages waits for its bounded channel and stops when the receiver has been
  dropped, and the fetch of a single message answers a request, but drops what its relations give
  (`hidden_relation`). A redecryption can begin in between.
  `encrypted_events_delivered_iff`: in every state of a run, every event to decrypt has been
  delivered or is on its way, and what redecryptions take has been delivered, exactly if all steps
  meet `Delivers`; and then every change and every remove of a redecryption is about a delivered
  placeholder.

  A step processes one event of a fetch or of a redecryption, or delivers one message, so that all
  interleavings of these are runs. The functions of the source are runs of such steps
  (`fetchFeed_is_run`, `fetchMessage_is_run`, `retryDecryption_is_run`).
-/
import GoudaMatrix.MemoryCache.Fetching
import GoudaMatrix.MemoryCache.RetryRuns

namespace GoudaMatrix.MemoryCache

open GoudaMatrix.Lib GoudaMatrix.Ruma

/-! ## Steps -/

structure Delivery (M : Type) where
  room : CachedRoom M
  /-- The messages that fetches have and that have not been received. -/
  waiting : List Message
  /-- What redecryptions have taken from `encrypted_events`. -/
  taken : List CachedEncryptedEvent
  /-- The placeholders that the application has received. -/
  delivered : List String
  /-- What redecryptions have sent. -/
  sent : List MessageEvent

namespace Delivery

def start {M : Type} (media : M) : Delivery M := ⟨.new media, [], [], [], []⟩

inductive Step where
  /-- The next event of a fetch of messages. -/
  | listed (event : TimelineEvent)
  /-- A relation of a single message. -/
  | related (event : TimelineEvent)
  /-- The original of a single message. -/
  | requested (event : TimelineEvent)
  /-- A message gets out of the channel, or with the response, unless its receiver is gone. -/
  | arrive (index : Nat) (received : Bool)
  /-- A redecryption begins. -/
  | take (events : Option (List String))
  /-- The next event of a redecryption. -/
  | retry (event : CachedEncryptedEvent)

/-- The placeholders among the messages. -/
def placeholders (messages : List Message) : List String :=
  (messages.filter Message.isEncrypted).map Message.messageId

section Steps

variable {M : Type} (env : RoomEnv M) (d : Delivery M)

/-- The messages are received. -/
def receive (messages : List Message) : Delivery M :=
  { d with delivered := d.delivered ++ placeholders messages }

/-- The message of a result. -/
def resultMessages : Result (Option CachedRoomAction) → List Message
  | .ok (some (.message message)) => [message]
  | _ => []

/-- An event is processed, and its message is passed on or dropped. -/
def process (event : TimelineEvent) (passedOn : Bool) : Delivery M :=
  let result := d.room.processTimelineEvent env event
  { d with
    room := result.2
    waiting := d.waiting ++ if passedOn then resultMessages result.1 else [] }

def step : Step → Option (Delivery M)
  | .listed event | .requested event => some (d.process env event true)
  | .related event => some (d.process env event false)
  | .arrive index received =>
    (d.waiting[index]?).map fun message =>
      { d with waiting := d.waiting.eraseIdx index }.receive (if received then [message] else [])
  | .take events =>
    some { d with taken := d.taken ++ d.room.getEventsForRedecryption env events }
  | .retry event =>
    if event ∈ d.taken then
      let result := d.room.retryCachedEncryptedEvent env event
      some { d with room := result.2.1, sent := d.sent ++ result.2.2 }
    else none

end Steps

end Delivery

def deliveries {M : Type} (env : RoomEnv M) : System (Delivery M) Delivery.Step where
  step d a := d.step env a

/-! ## The condition -/

namespace Delivery

variable {M : Type} {env : RoomEnv M}

/-- The placeholder has been delivered or is on its way. -/
def Known (d : Delivery M) (id : String) : Prop := id ∈ d.delivered ∨ id ∈ placeholders d.waiting

instance (d : Delivery M) (id : String) : Decidable (d.Known id) :=
  inferInstanceAs (Decidable (_ ∨ _))

/-- Every event to decrypt is delivered as a placeholder, before a redecryption takes it. -/
structure AllDelivered (d : Delivery M) : Prop where
  cached : ∀ id ∈ d.room.encryptedEvents, d.Known id
  taken : ∀ e ∈ d.taken, e.event.eventId ∈ d.delivered

variable (env) in
/-- No relation hides an event that cannot be decrypted, no receiver is gone before the placeholder
    of an event that is still to be decrypted, and no redecryption takes an event before its
    placeholder has been received. -/
def Delivers (d : Delivery M) : Step → Prop
  | .listed _ | .requested _ | .retry _ => True
  | .related event => ∀ id ∈ placeholderOf event, d.Known id
  | .arrive index received => ∀ message ∈ d.waiting[index]?, received = true ∨
      ∀ id ∈ placeholders [message], id ∈ d.room.encryptedEvents →
        Known { d with waiting := d.waiting.eraseIdx index } id
  | .take events =>
    ∀ e ∈ d.room.getEventsForRedecryption env events, e.event.eventId ∈ d.delivered

instance (d : Delivery M) (a : Step) : Decidable (d.Delivers env a) := by
  cases a <;> unfold Delivers <;> infer_instance

/-! ## Processing an event -/

variable (env) in
theorem lookup_encryptedEvents_process (room : CachedRoom M) (event : TimelineEvent) (id : String) :
    (room.processTimelineEvent env event).2.encryptedEvents.lookup id
      = match event.kind with
        | .unableToDecrypt (.ok e) sessionId =>
          if id = e.eventId then some ⟨e, sessionId⟩ else room.encryptedEvents.lookup id
        | .decrypted (.ok e) =>
          if id = e.header.eventId then none else room.encryptedEvents.lookup id
        | _ => room.encryptedEvents.lookup id := by
  by_cases hutd : isUnableToDecrypt event = true
  · obtain ⟨kind, timestamp⟩ := event
    cases kind with
    | unableToDecrypt e sessionId =>
      cases e with
      | malformed id => rfl
      | ok e => exact HashMap.lookup_insert_cases room.encryptedEvents e.eventId id _
    | decrypted e => cases hutd
    | plainText e => cases hutd
  · have hdecrypted : isUnableToDecrypt event = false := by simpa using hutd
    rw [CachedRoom.processTimelineEvent_eq, CachedRoom.encryptedEvents_perform]
    · obtain ⟨kind, timestamp⟩ := event
      cases kind with
      | unableToDecrypt e sessionId => cases hdecrypted
      | plainText e => cases e <;> rfl
      | decrypted e =>
        cases e with
        | malformed id => rfl
        | ok e =>
          simp only [CachedRoom.prepare, CachedRoom.removeEncryptedEvent]
          split
          · next h =>
            subst h
            exact AList.lookup_erase _ _
          · next h => exact AList.lookup_erase_ne h
    · intro encrypted sessionId heffect
      exact effectOf_ne_undecryptable env hdecrypted _ encrypted sessionId heffect

theorem mem_encryptedEvents_process (room : CachedRoom M) (event : TimelineEvent) {id : String}
    (h : id ∈ (room.processTimelineEvent env event).2.encryptedEvents) :
    id ∈ placeholderOf event ∨ id ∈ room.encryptedEvents := by
  rw [← AList.lookup_isSome, lookup_encryptedEvents_process] at h
  rw [← AList.lookup_isSome]
  unfold placeholderOf
  split at h
  · next e sessionId hkind =>
    rw [hkind]
    split at h
    · next heq => exact .inl (List.mem_singleton.mpr heq)
    · exact .inr h
  · split at h
    · cases h
    · exact .inr h
  · exact .inr h

theorem mem_process_of_placeholder (room : CachedRoom M) {event : TimelineEvent} {id : String}
    (h : id ∈ placeholderOf event) :
    id ∈ (room.processTimelineEvent env event).2.encryptedEvents := by
  rw [← AList.lookup_isSome, lookup_encryptedEvents_process]
  unfold placeholderOf at h
  split at h
  · next e sessionId hkind =>
    rw [hkind]
    simp [List.mem_singleton.mp h]
  · cases h

/-- The result of an event that cannot be decrypted is its placeholder. -/
theorem resultMessages_of_placeholder (room : CachedRoom M) {event : TimelineEvent} {id : String}
    (h : id ∈ placeholderOf event) :
    placeholders (resultMessages (room.processTimelineEvent env event).1) = [id] := by
  obtain ⟨kind, timestamp⟩ := event
  cases kind with
  | unableToDecrypt e sessionId =>
    cases e with
    | malformed id => cases h
    | ok e =>
      rw [List.mem_singleton.mp h]
      rfl
  | decrypted e => cases h
  | plainText e => cases h

theorem placeholders_append (messages messages' : List Message) :
    placeholders (messages ++ messages') = placeholders messages ++ placeholders messages' := by
  simp [placeholders]

/-- What was known before an event still is, and its placeholder is if it is passed on. -/
theorem known_process {d : Delivery M} {event : TimelineEvent} {passedOn : Bool} {id : String} :
    (d.process env event passedOn).Known id ↔ d.Known id ∨
      passedOn = true ∧ id ∈ placeholders
        (resultMessages (d.room.processTimelineEvent env event).1) := by
  unfold Known process
  dsimp only
  rw [placeholders_append, List.mem_append, or_assoc]
  cases passedOn <;> simp [placeholders]

/-- Whether an event keeps the property is said by its placeholder. -/
theorem cached_process_iff {d : Delivery M} (h : d.AllDelivered) (event : TimelineEvent)
    (passedOn : Bool) : (d.process env event passedOn).AllDelivered ↔
      (passedOn = true ∨ ∀ id ∈ placeholderOf event, d.Known id) := by
  constructor
  · intro hall
    cases passedOn with
    | true => exact .inl rfl
    | false =>
      refine .inr fun id hid => ?_
      rcases known_process.mp (hall.cached id (mem_process_of_placeholder d.room hid)) with
        hknown | ⟨hfalse, -⟩
      · exact hknown
      · cases hfalse
  · intro hcond
    refine ⟨fun id hmem => known_process.mpr ?_, h.taken⟩
    rcases mem_encryptedEvents_process d.room event hmem with hplaceholder | hold
    · rcases hcond with hpassed | hknown
      · refine .inr ⟨hpassed, ?_⟩
        rw [resultMessages_of_placeholder d.room hplaceholder]
        exact List.mem_singleton_self id
      · exact .inl (hknown id hplaceholder)
    · exact .inl (h.cached id hold)

/-! ## Delivering a message -/

/-- A message that has been on its way, received or not. -/
def arrived (d : Delivery M) (index : Nat) (received : Bool) (message : Message) : Delivery M :=
  { d with waiting := d.waiting.eraseIdx index }.receive (if received then [message] else [])

/-- What was known still is, unless it was the placeholder that is lost. -/
theorem known_arrived {d : Delivery M} {index : Nat} {message : Message}
    (hmessage : d.waiting[index]? = some message) (received : Bool) {id : String}
    (h : d.Known id) : (d.arrived index received message).Known id ∨
      received = false ∧ id ∈ placeholders [message] := by
  rcases h with hdelivered | hwaiting
  · exact .inl (.inl (List.mem_append_left _ hdelivered))
  · obtain ⟨m, hm, rfl⟩ := List.mem_map.mp hwaiting
    obtain ⟨hm, hencrypted⟩ := List.mem_filter.mp hm
    have hself : m = message → m.messageId ∈ placeholders [message] := by
      rintro rfl
      exact List.mem_map.mpr ⟨m, List.mem_filter.mpr ⟨List.mem_singleton_self m, hencrypted⟩, rfl⟩
    obtain ⟨i, hi⟩ := List.mem_iff_getElem?.mp hm
    by_cases hindex : i = index
    · subst hindex
      obtain rfl := Option.some.inj (hmessage.symm.trans hi)
      cases received with
      | true => exact .inl (.inl (List.mem_append_right _ (hself rfl)))
      | false => exact .inr ⟨rfl, hself rfl⟩
    · refine .inl (.inr (List.mem_map.mpr ⟨m, List.mem_filter.mpr ⟨?_, hencrypted⟩, rfl⟩))
      exact List.mem_eraseIdx_iff_getElem?.mpr ⟨i, hindex, hi⟩

theorem arrived_iff {d : Delivery M} (h : d.AllDelivered) {index : Nat} {message : Message}
    (hmessage : d.waiting[index]? = some message) (received : Bool) :
    (received = true ∨ ∀ id ∈ placeholders [message], id ∈ d.room.encryptedEvents →
      Known { d with waiting := d.waiting.eraseIdx index } id)
      ↔ (d.arrived index received message).AllDelivered := by
  have htaken : ∀ e ∈ d.taken, e.event.eventId ∈ (d.arrived index received message).delivered :=
    fun e he => List.mem_append_left _ (h.taken e he)
  constructor
  · refine fun hcond => ⟨fun id hmem => ?_, htaken⟩
    rcases known_arrived hmessage received (h.cached id hmem) with hknown | ⟨rfl, hlost⟩
    · exact hknown
    · rcases hcond with hfalse | hother
      · cases hfalse
      · refine (hother id hlost hmem).imp_left fun hdelivered => ?_
        exact List.mem_append_left _ hdelivered
  · intro hall
    cases received with
    | true => exact .inl rfl
    | false =>
      refine .inr fun id _ hmem => (hall.cached id hmem).imp_left fun hdelivered => ?_
      simpa [arrived, receive, placeholders] using hdelivered

/-! ## Redecryption -/

/-- A redecryption that processes an event, with the room and what is sent. -/
theorem retry_cases (room : CachedRoom M) (event : CachedEncryptedEvent) :
    (room.retryCachedEncryptedEvent env event).2 = (room, []) ∨
      ∃ decrypted eventId, env.decryptEvent event.event = some decrypted ∧
        isUnableToDecrypt decrypted = false ∧ decrypted.eventId = some eventId ∧
        (room.retryCachedEncryptedEvent env event).2
          = (sendResult env eventId (room.processTimelineEvent env decrypted)).2 := by
  cases hdecrypt : env.decryptEvent event.event with
  | none =>
    left
    simp [CachedRoom.retryCachedEncryptedEvent, hdecrypt]
  | some decrypted =>
    by_cases hutd : isUnableToDecrypt decrypted = true
    · left
      simp [CachedRoom.retryCachedEncryptedEvent, hdecrypt, hutd]
    have hdecrypted : isUnableToDecrypt decrypted = false := by simpa using hutd
    cases hid : decrypted.eventId with
    | none =>
      left
      simp [CachedRoom.retryCachedEncryptedEvent, hdecrypt, hutd, hid]
    | some eventId =>
      exact .inr ⟨decrypted, eventId, rfl, hdecrypted, hid,
        congrArg Prod.snd (retryCachedEncryptedEvent_eq env hdecrypt hdecrypted hid room)⟩

theorem room_sendResult (eventId : String)
    (result : Result (Option CachedRoomAction) × CachedRoom M) :
    (sendResult env eventId result).2.1 = result.2 := by
  rcases result with ⟨_ | _ | _, _⟩ <;> rfl

theorem mem_encryptedEvents_retry (room : CachedRoom M) (event : CachedEncryptedEvent) {id : String}
    (h : id ∈ (room.retryCachedEncryptedEvent env event).2.1.encryptedEvents) :
    id ∈ room.encryptedEvents := by
  rcases retry_cases room event with hnone | ⟨decrypted, eventId, -, hdecrypted, -, hresult⟩
  · rwa [hnone] at h
  · rw [hresult, room_sendResult] at h
    rcases mem_encryptedEvents_process room decrypted h with hplaceholder | hold
    · obtain ⟨kind, timestamp⟩ := decrypted
      cases kind with
      | unableToDecrypt e sessionId => cases hdecrypted
      | decrypted e => cases hplaceholder
      | plainText e => cases hplaceholder
    · exact hold

theorem step_retry {d d' : Delivery M} {event : CachedEncryptedEvent}
    (hstep : (deliveries env).step d (.retry event) = some d') :
    event ∈ d.taken ∧ { d with
      room := (d.room.retryCachedEncryptedEvent env event).2.1
      sent := d.sent ++ (d.room.retryCachedEncryptedEvent env event).2.2 } = d' := by
  have hstep : d.step env (.retry event) = some d' := hstep
  simpa only [step, Option.ite_none_right_eq_some, Option.some.injEq] using hstep

/-- Each step that meets the condition, and no other, keeps every event to decrypt delivered. -/
theorem delivers_iff {d d' : Delivery M} (h : d.AllDelivered) {a : Step}
    (hstep : (deliveries env).step d a = some d') : d.Delivers env a ↔ d'.AllDelivered := by
  cases a with
  | listed event | requested event =>
    obtain rfl := Option.some.inj hstep
    exact iff_of_true trivial ((cached_process_iff h event true).mpr (.inl rfl))
  | related event =>
    obtain rfl := Option.some.inj hstep
    rw [cached_process_iff h event false]
    simp [Delivers]
  | arrive index received =>
    obtain ⟨message, hmessage, rfl⟩ := Option.map_eq_some_iff.mp hstep
    refine Iff.trans ⟨fun hcond => hcond message hmessage, fun hcond other hother => ?_⟩
      (arrived_iff h hmessage received)
    obtain rfl := Option.some.inj (hmessage.symm.trans hother)
    exact hcond
  | take events =>
    obtain rfl := Option.some.inj hstep
    constructor
    · exact fun hcond => ⟨h.cached, List.forall_mem_append.mpr ⟨h.taken, hcond⟩⟩
    · exact fun hall e he => hall.taken e (List.mem_append_right _ he)
  | retry event =>
    obtain ⟨-, rfl⟩ := step_retry hstep
    exact iff_of_true trivial
      ⟨fun id hmem => h.cached id (mem_encryptedEvents_retry d.room event hmem), h.taken⟩

/-! ## What is sent -/

/-- The changes and removes of redecryptions are about delivered placeholders. -/
def TargetsDelivered (d : Delivery M) : Prop :=
  ∀ event ∈ d.sent, isResolution event = true → ∃ id ∈ d.delivered, NamesMessage id event

structure Inv (d : Delivery M) : Prop where
  delivered : d.AllDelivered
  targets : d.TargetsDelivered

theorem allDelivered_start (media : M) : (start media).AllDelivered where
  cached := fun id h => by cases h
  taken := List.forall_mem_nil _

theorem inv_start (media : M) : (start media).Inv where
  delivered := allDelivered_start media
  targets := List.forall_mem_nil _

theorem targets_of_delivered {d d' : Delivery M} (h : d.TargetsDelivered) (hsent : d'.sent = d.sent)
    (hdelivered : ∀ id ∈ d.delivered, id ∈ d'.delivered) : d'.TargetsDelivered := by
  intro sent hmem hresolution
  rw [hsent] at hmem
  obtain ⟨id, hid, hnames⟩ := h sent hmem hresolution
  exact ⟨id, hdelivered id hid, hnames⟩

theorem names_of_pending {eventId : String} {events : List MessageEvent}
    (h : Pending eventId events) : ∀ event ∈ events, NamesMessage eventId event := by
  cases h with
  | nothing => exact List.forall_mem_nil _
  | change hid => exact List.forall_mem_singleton.mpr hid
  | remove hid => exact List.forall_mem_singleton.mpr hid
  | removeAndReaction hid reaction =>
    exact List.forall_mem_cons.mpr ⟨hid, List.forall_mem_singleton.mpr trivial⟩
  | reaction reaction => exact List.forall_mem_singleton.mpr trivial

theorem names_of_sendResult (room : CachedRoom M) {event : TimelineEvent} {eventId : String}
    (hdecrypted : isUnableToDecrypt event = false) (hid : event.eventId = some eventId) :
    ∀ sent ∈ (sendResult env eventId (room.processTimelineEvent env event)).2.2,
      NamesMessage eventId sent := by
  have hprocess := CachedRoom.processTimelineEvent_eq env room event
  cases hresult : room.processTimelineEvent env event with
  | mk result room' =>
    match result, hresult with
    | .error e, _ => exact List.forall_mem_nil _
    | .ok none, _ => exact List.forall_mem_singleton.mpr rfl
    | .ok (some action), hresult =>
      rw [hresult] at hprocess
      obtain rfl := id_of_perform env hid hdecrypted hprocess.symm
      exact names_of_pending (sending_action env action []).1

theorem targets_retry {d : Delivery M} (h : d.Inv)
    (hdecrypt : ∀ e event, env.decryptEvent e = some event →
      ∀ id, event.eventId = some id → id = e.eventId)
    {event : CachedEncryptedEvent} (htaken : event ∈ d.taken) :
    TargetsDelivered { d with
      room := (d.room.retryCachedEncryptedEvent env event).2.1
      sent := d.sent ++ (d.room.retryCachedEncryptedEvent env event).2.2 } := by
  intro sent hsent hresolution
  rcases List.mem_append.mp hsent with hsent | hsent
  · exact h.targets sent hsent hresolution
  rcases retry_cases d.room event with
    hnone | ⟨decrypted, eventId, hevent, hdecrypted, hid, hresult⟩
  · rw [hnone] at hsent
    cases hsent
  · rw [hresult] at hsent
    refine ⟨event.event.eventId, h.delivered.taken event htaken, ?_⟩
    rw [← hdecrypt event.event decrypted hevent eventId hid]
    exact names_of_sendResult d.room hdecrypted hid sent hsent

theorem inv_step (hdecrypt : ∀ e event, env.decryptEvent e = some event →
      ∀ id, event.eventId = some id → id = e.eventId)
    {d d' : Delivery M} (h : d.Inv) {a : Step} (hok : d.Delivers env a)
    (hstep : (deliveries env).step d a = some d') : d'.Inv := by
  refine ⟨(delivers_iff h.delivered hstep).mp hok, ?_⟩
  cases a with
  | listed event | requested event | related event | take events =>
    obtain rfl := Option.some.inj hstep
    exact targets_of_delivered h.targets rfl fun _ => id
  | arrive index received =>
    obtain ⟨message, -, rfl⟩ := Option.map_eq_some_iff.mp hstep
    exact targets_of_delivered h.targets rfl fun _ => List.mem_append_left _
  | retry event =>
    obtain ⟨htaken, rfl⟩ := step_retry hstep
    exact targets_retry h hdecrypt htaken

/-- Every event to decrypt is delivered before a redecryption takes it, in every state of a run,
    exactly if all steps of the run meet the condition; and then what redecryptions send is about
    delivered placeholders. -/
theorem encrypted_events_delivered_iff {M : Type} (env : RoomEnv M)
    (hdecrypt : ∀ e event, env.decryptEvent e = some event →
      ∀ id, event.eventId = some id → id = e.eventId)
    {media : M} {as : List Step} {d : Delivery M}
    (hrun : (deliveries env).run (start media) as = some d) :
    ((deliveries env).Meets (Delivers env) (start media) as ↔
      ∀ n d', (deliveries env).run (start media) (as.take n) = some d' → d'.AllDelivered) ∧
    ((deliveries env).Meets (Delivers env) (start media) as →
      ∀ n d', (deliveries env).run (start media) (as.take n) = some d' → d'.TargetsDelivered) := by
  refine ⟨?_, fun hok n d' hreached => ?_⟩
  · exact (deliveries env).meets_iff_of_step (fun _ _ _ _ _ => trivial)
      (fun s a t _ hs hstep => delivers_iff hs hstep) trivial (allDelivered_start media) hrun
  · have hinv : d'.Inv := (deliveries env).inv_of_run
      (fun s a t hs ha hstep => inv_step hdecrypt hs ha hstep) (inv_start media)
      ((deliveries env).meets_take hok n) hreached
    exact hinv.targets

/-- Keys that come late, for an edit of a message. -/
def editKeys : RoomEnv Unit :=
  { RoomEnv.bare "!r" with
    decryptEvent := fun encrypted =>
      if encrypted.eventId = "$edit" then
        some ⟨.decrypted (.ok (.messageLike (.roomMessage (.original ⟨"$edit", "@bob", 20, "!r",
          ⟨.text "* Lunch", some (.replacement "$lunch" ⟨.text "Lunch", none⟩), none⟩⟩)))), none⟩
      else none }

def encryptedEdit : CachedEncryptedEvent := ⟨⟨"$edit", "@bob", 20, "ciphertext"⟩, none⟩

def hiddenEdit : TimelineEvent := ⟨.unableToDecrypt (.ok encryptedEdit.event) none, none⟩

def editedLunch : TimelineEvent :=
  ⟨.plainText (.ok (.messageLike (.roomMessage (.original
    ⟨"$lunch", "@bob", 10, "!r", ⟨.text "Lnuch", none, none⟩⟩)))), none⟩

/-- The edit is fetched with the messages of the room, and its key comes when it has been
    received. -/
def listedEdit : List Step :=
  [.listed hiddenEdit, .listed editedLunch, .arrive 0 true, .take none, .retry encryptedEdit,
    .arrive 0 true]

theorem isSome_listedEdit : ((deliveries editKeys).run (start ()) listedEdit).isSome := by
  decide +kernel

theorem editKeys_keeps_id {e : EncryptedEvent} {event : TimelineEvent}
    (hevent : editKeys.decryptEvent e = some event) (id : String) (hid : event.eventId = some id) :
    id = e.eventId := by
  simp only [editKeys, Option.ite_none_right_eq_some, Option.some.injEq] at hevent
  obtain ⟨he, rfl⟩ := hevent
  exact (Option.some.inj hid).symm.trans he.symm

theorem encrypted_events_delivered_edit :
    ∃ d, (deliveries editKeys).run (start ()) listedEdit = some d ∧
      d.sent = [.removed ⟨"!r", "$edit"⟩] ∧ d.AllDelivered ∧ d.TargetsDelivered := by
  have hrun := (Option.some_get isSome_listedEdit).symm
  have hall := encrypted_events_delivered_iff editKeys (fun _ _ => editKeys_keeps_id) hrun
  have hmeets : (deliveries editKeys).Meets (Delivers editKeys) (start ()) listedEdit := by
    decide +kernel
  refine ⟨_, hrun, by decide +kernel, ?_, ?_⟩
  · exact hall.1.mp hmeets 6 _ hrun
  · exact hall.2 hmeets 6 _ hrun

/-- The message is fetched with its edit, whose placeholder is not delivered. -/
def relatedEdit : List Step := [.related hiddenEdit, .requested editedLunch, .arrive 0 true]

def relatedThenRetried : List Step := relatedEdit ++ [.take none, .retry encryptedEdit]

/-- The key comes while the placeholder waits for the channel. -/
def retriedEarly : List Step := [.listed hiddenEdit, .take none, .retry encryptedEdit]

theorem isSome_relatedEdit : ((deliveries editKeys).run (start ()) relatedEdit).isSome := by
  decide +kernel

/-- The application is told to remove the edit without having received it: it has only received the
    message, or the placeholder of the edit comes later. -/
theorem hidden_relation :
    (∃ d, (deliveries editKeys).run (start ()) relatedEdit = some d ∧
      d.room = ((CachedRoom.new ()).fetchMessage editKeys editedLunch [hiddenEdit]).2 ∧
      d.waiting = [] ∧ ¬ d.AllDelivered) ∧
    ∀ as ∈ [relatedThenRetried, retriedEarly],
      ∃ d, (deliveries editKeys).run (start ()) as = some d ∧
        d.sent = [.removed ⟨"!r", "$edit"⟩] ∧ ¬ d.TargetsDelivered := by
  refine ⟨⟨_, (Option.some_get isSome_relatedEdit).symm, rfl, by decide +kernel, fun hall => ?_⟩,
    fun as has => ?_⟩
  · have hmem : "$edit" ∈ (Option.get _ isSome_relatedEdit).room.encryptedEvents := by
      decide +kernel
    exact absurd (hall.cached "$edit" hmem) (by decide +kernel)
  · have hrun : ∀ as ∈ [relatedThenRetried, retriedEarly],
        ((deliveries editKeys).run (start ()) as).map (fun d => (d.sent, d.delivered))
          = some ([.removed ⟨"!r", "$edit"⟩], []) := by decide +kernel
    obtain ⟨d, hd, hpair⟩ := Option.map_eq_some_iff.mp (hrun as has)
    obtain ⟨hsent, hnone⟩ := Prod.mk.inj hpair
    refine ⟨d, hd, hsent, fun htargets => ?_⟩
    unfold TargetsDelivered at htargets
    rw [hsent] at htargets
    obtain ⟨id, hid, -⟩ := htargets _ (List.mem_singleton_self _) rfl
    rw [hnone] at hid
    cases hid

/-! ## The functions of the source -/

@[simp] theorem receive_nil (d : Delivery M) : d.receive [] = d := by
  simp [receive, placeholders]

theorem receive_receive (d : Delivery M) (messages messages' : List Message) :
    (d.receive messages).receive messages' = d.receive (messages ++ messages') := by
  simp [receive, placeholders]

theorem resultMessages_ok (action : Option CachedRoomAction) :
    resultMessages (.ok action) = (MessagesFetcher.messageOfAction action).toList := by
  rcases action with - | (message | reaction) <;> rfl

theorem length_resultMessages (result : Result (Option CachedRoomAction)) :
    resultMessages result = [] ∨ ∃ message, resultMessages result = [message] := by
  rcases result with - | (- | (message | reaction))
  · exact .inl rfl
  · exact .inl rfl
  · exact .inr ⟨message, rfl⟩
  · exact .inl rfl

/-- An event whose message is passed on, and the message gets to the application or not. -/
theorem passedOn_is_run (d : Delivery M) {event : TimelineEvent} {a : Step}
    (ha : d.step env a = some (d.process env event true)) (hok : d.Delivers env a)
    (isReceived : Bool) :
    ∃ arrivals, arrivals <+: [.arrive d.waiting.length isReceived] ∧
      (deliveries env).run d (a :: arrivals)
        = some ({ d with room := (d.room.processTimelineEvent env event).2 }.receive
          (if isReceived then resultMessages (d.room.processTimelineEvent env event).1 else [])) ∧
      (isReceived = true → (deliveries env).Meets (Delivers env) d (a :: arrivals)) := by
  have hfirst : (deliveries env).step d a = some (d.process env event true) := ha
  rcases length_resultMessages (d.room.processTimelineEvent env event).1 with
    hnone | ⟨message, hone⟩
  · refine ⟨[], List.nil_prefix, ?_, fun _ => ⟨hok, fun _ _ => trivial⟩⟩
    rw [System.run_cons, hfirst, hnone]
    simp [process, hnone]
  · have hwaiting : (d.process env event true).waiting = d.waiting ++ [message] := by
      simp [process, hone]
    have hlast : (d.process env event true).waiting[d.waiting.length]? = some message := by
      rw [hwaiting]
      exact List.getElem?_concat_length
    have herase : (d.process env event true).waiting.eraseIdx d.waiting.length = d.waiting := by
      rw [hwaiting, List.eraseIdx_append_of_length_le (Nat.le_refl _), Nat.sub_self]
      exact List.append_nil _
    have harrive : (deliveries env).step (d.process env event true)
        (.arrive d.waiting.length isReceived)
          = some ({ d with room := (d.room.processTimelineEvent env event).2 }.receive
            (if isReceived then [message] else [])) := by
      show ((d.process env event true).waiting[d.waiting.length]?).map _ = _
      rw [hlast, Option.map_some, herase]
      rfl
    refine ⟨_, List.prefix_refl _, ?_, fun hreceived =>
      ⟨hok, fun d' hstep => ⟨?_, fun _ _ => trivial⟩⟩⟩
    · rw [System.run_cons, hfirst, Option.bind_some, System.run_cons, harrive, hone]
      rfl
    · exact fun _ _ => .inl hreceived

/-- The steps of a fetch of messages lead to `room` and `f'`. If all messages are received, they
    meet the condition. -/
def IsFetch (env : RoomEnv M) (received : Nat → Bool) (d : Delivery M) (f f' : MessagesFetcher)
    (room : CachedRoom M) : Prop :=
  ∃ as new, f'.messages = f.messages ++ new ∧
    (deliveries env).run d as = some ({ d with room := room }.receive new) ∧
    ((∀ n, received n = true) → (deliveries env).Meets (Delivers env) d as)

theorem isFetch_refl (received : Nat → Bool) (d : Delivery M) (f : MessagesFetcher) :
    IsFetch env received d f f d.room :=
  ⟨[], [], (List.append_nil _).symm, by simp, fun _ => trivial⟩

/-- One event, after which the fetch goes on in `room` with `f₁`. -/
theorem isFetch_listed {received : Nat → Bool} {d : Delivery M} {f f' : MessagesFetcher}
    {room room' : CachedRoom M} {event : TimelineEvent} {result : Result (Option CachedRoomAction)}
    (hevent : d.room.processTimelineEvent env event = (result, room)) (isReceived : Bool)
    (hreceived : (∀ n, received n = true) → isReceived = true) (f₁ : MessagesFetcher)
    (hmessages : f₁.messages = f.messages ++ if isReceived then resultMessages result else [])
    (h : ∀ d₁ : Delivery M, d₁.room = room → IsFetch env received d₁ f₁ f' room') :
    IsFetch env received d f f' room' := by
  obtain ⟨arrivals, -, hfirst, hok⟩ :=
    passedOn_is_run d (a := .listed event) rfl trivial isReceived
  rw [hevent] at hfirst
  obtain ⟨as, new, hnew, hrun, hmeets⟩ :=
    h ({ d with room := room }.receive (if isReceived then resultMessages result else [])) rfl
  refine ⟨(.listed event :: arrivals) ++ as,
    (if isReceived then resultMessages result else []) ++ new, ?_, ?_, fun hall => ?_⟩
  · rw [hnew, hmessages, List.append_assoc]
  · rw [System.run_append, hfirst, Option.bind_some, hrun, ← receive_receive]
    rfl
  · exact (deliveries env).meets_append (hok (hreceived hall)) hfirst (hmeets hall)

/-- A fetch of messages takes steps, and only steps that meet the condition if all of its messages
    are received. -/
theorem fetchFeed_is_run {E : Type} (received : Nat → Bool) (d : Delivery M) (f : MessagesFetcher)
    (items : List (MessagesFetcher.FeedItem E)) :
    IsFetch env received d f
      (MessagesFetcher.fetchFeed env received d.room f items).2.2
      (MessagesFetcher.fetchFeed env received d.room f items).2.1 := by
  induction items generalizing d f with
  | nil => exact isFetch_refl received d f
  | cons item items ih =>
    by_cases hlimit : f.retrievedMessages < f.messageLimit
    · cases item with
      | failure e =>
        rw [MessagesFetcher.fetchFeed, if_pos hlimit]
        exact isFetch_refl received d f
      | endOfTimeline =>
        rw [MessagesFetcher.fetchFeed, if_pos hlimit]
        exact isFetch_refl received d f
      | event event =>
        rw [MessagesFetcher.fetchFeed_event env received hlimit]
        cases hevent : d.room.processTimelineEvent env event with
        | mk result room =>
          cases result with
          | error e =>
            refine isFetch_listed hevent true (fun _ => rfl) f (List.append_nil _).symm ?_
            rintro d₁ rfl
            exact isFetch_refl received d₁ f
          | ok action =>
            dsimp only
            cases hsend : f.sendAction received action with
            | error e =>
              refine isFetch_listed hevent false ?_ f (List.append_nil _).symm ?_
              · intro hall
                unfold MessagesFetcher.sendAction at hsend
                split at hsend
                · rw [if_pos (hall _)] at hsend
                  cases hsend
                · cases hsend
              · rintro d₁ rfl
                exact isFetch_refl received d₁ f
            | ok f₁ =>
              refine isFetch_listed hevent true (fun _ => rfl)
                (f₁.updateReadMarkers room.readMarkers) ?_ ?_
              · have hobtained := (MessagesFetcher.obtained_sendAction received hsend).trans
                  (MessagesFetcher.obtained_updateReadMarkers f₁ room.readMarkers)
                rw [hobtained.sent, List.append_nil, if_pos rfl, resultMessages_ok]
              · rintro d₁ rfl
                exact ih d₁ _
    · rw [MessagesFetcher.fetchFeed_of_limit env received d.room hlimit]
      exact isFetch_refl received d f

variable (env) in
theorem processEvents_is_run (d : Delivery M) (relations : List TimelineEvent) :
    ∃ as, as <+: relations.map .related ∧ (deliveries env).run d as
      = some { d with room := (d.room.processEvents env relations).2.1 } ∧
      ((d.room.processEvents env relations).1 = .ok () → as = relations.map .related) := by
  induction relations generalizing d with
  | nil => exact ⟨[], List.nil_prefix, rfl, fun _ => rfl⟩
  | cons relation relations ih =>
    have hstep : (deliveries env).step d (.related relation)
        = some { d with room := (d.room.processTimelineEvent env relation).2 } := by
      show some (d.process env relation false) = _
      simp [process]
    obtain ⟨as, hsteps, hrun, hall⟩ :=
      ih { d with room := (d.room.processTimelineEvent env relation).2 }
    unfold CachedRoom.processEvents
    cases hevent : d.room.processTimelineEvent env relation with
    | mk result room =>
      rw [hevent] at hstep hrun hall
      cases result with
      | error e =>
        refine ⟨[.related relation], ?_, ?_, fun h => by cases h⟩
        · exact List.prefix_append _ _
        · rw [System.run_cons, hstep]
          rfl
      | ok action =>
        refine ⟨.related relation :: as, ?_, ?_, fun h => ?_⟩
        · exact List.cons_prefix_cons.mpr ⟨rfl, hsteps⟩
        · rw [System.run_cons, hstep]
          exact hrun
        · rw [hall h]
          rfl

/-- A fetch of a single message takes the steps of its relations and of its original, up to the
    first error, and its result is received or not. -/
theorem fetchMessage_is_run (d : Delivery M) (event : TimelineEvent)
    (relations : List TimelineEvent)
    (received : Bool) :
    ∃ as, as <+: relations.map .related
          ++ [.requested event, .arrive d.waiting.length received] ∧
      (deliveries env).run d as
        = some ({ d with room := (d.room.fetchMessage env event relations).2 }.receive
            (if received then (d.room.fetchMessage env event relations).1.toOption.toList
              else [])) := by
  obtain ⟨as, hsteps, hrun, hall⟩ := processEvents_is_run env d relations
  unfold CachedRoom.fetchMessage
  rcases hrelations : d.room.processEvents env relations with ⟨_ | _, room, actions⟩
  · rw [hrelations] at hrun
    refine ⟨as, hsteps.trans (List.prefix_append _ _), ?_⟩
    simpa [Except.toOption] using hrun
  · rw [hrelations] at hrun hall
    have hstep : Delivery.step env { d with room := room } (.requested event)
        = some ({ d with room := room }.process env event true) := rfl
    obtain ⟨arrivals, harrivals, hlast, -⟩ := passedOn_is_run _ hstep trivial received
    refine ⟨as ++ .requested event :: arrivals, ?_, ?_⟩
    · rw [hall rfl]
      exact List.prefix_append_right_inj _ |>.mpr (List.cons_prefix_cons.mpr ⟨rfl, harrivals⟩)
    · rw [System.run_append, hrun, Option.bind_some, hlast]
      dsimp only
      rcases room.processTimelineEvent env event with ⟨_ | _ | _ | _, room'⟩ <;> rfl

variable (env) in
theorem retryEvents_is_run (d : Delivery M) (events : List CachedEncryptedEvent)
    (htaken : ∀ event ∈ events, event ∈ d.taken) :
    ∃ as, as <+: events.map .retry ∧ (deliveries env).run d as
      = some { d with
          room := (d.room.retryEvents env events).2.1
          sent := d.sent ++ (d.room.retryEvents env events).2.2 } := by
  induction events generalizing d with
  | nil => exact ⟨[], List.nil_prefix, by simp [CachedRoom.retryEvents]⟩
  | cons event events ih =>
    obtain ⟨hhead, htail⟩ := List.forall_mem_cons.mp htaken
    have hstep : (deliveries env).step d (.retry event) = some { d with
        room := (d.room.retryCachedEncryptedEvent env event).2.1
        sent := d.sent ++ (d.room.retryCachedEncryptedEvent env event).2.2 } := if_pos hhead
    unfold CachedRoom.retryEvents
    cases hretry : d.room.retryCachedEncryptedEvent env event with
    | mk result rest =>
      obtain ⟨room, sent⟩ := rest
      rw [hretry] at hstep
      obtain ⟨as, hsteps, hrun⟩ :=
        ih { d with room := room, sent := d.sent ++ sent } htail
      cases result with
      | error e =>
        refine ⟨[.retry event], List.prefix_append [_] _, ?_⟩
        rw [System.run_cons, hstep]
        rfl
      | ok _ =>
        refine ⟨.retry event :: as, List.cons_prefix_cons.mpr ⟨rfl, hsteps⟩, ?_⟩
        rw [System.run_cons, hstep, Option.bind_some, hrun]
        dsimp only
        rw [List.append_assoc]

/-- A redecryption takes its events, and retries them up to the first error. -/
theorem retryDecryption_is_run (d : Delivery M) (events : Option (List String)) :
    ∃ as, as <+: .take events :: (d.room.getEventsForRedecryption env events).map .retry ∧
      (deliveries env).run d as = some { d with
        room := (d.room.retryDecryption env events).2.1
        taken := d.taken ++ d.room.getEventsForRedecryption env events
        sent := d.sent ++ (d.room.retryDecryption env events).2.2 } := by
  obtain ⟨as, hsteps, hrun⟩ := retryEvents_is_run env
    { d with taken := d.taken ++ d.room.getEventsForRedecryption env events }
    (d.room.getEventsForRedecryption env events) fun event => List.mem_append_right _
  exact ⟨.take events :: as, List.cons_prefix_cons.mpr ⟨rfl, hsteps⟩, hrun⟩

end Delivery

end GoudaMatrix.MemoryCache
