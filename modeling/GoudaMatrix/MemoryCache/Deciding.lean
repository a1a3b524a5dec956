/-
  The events of a history that decide what is shown of a message.

  What is shown of an original is given by the last redaction, the newest edit, the newest edit of a
  poll, the answers to it and its ends, among all that the events before do to its id
  (`shownContent_effects`). Two histories show the same exactly if these agree (`sameShown_iff`):
  the redactions have one reason, the newest edits one content, the newest edits of a poll give one
  poll, which is ended in both or in neither, and the same answers count. The reactions are those of
  the reaction events (`reactionList_perm`).
-/
import GoudaMatrix.MemoryCache.Confluence
import GoudaMatrix.MemoryCache.RetryView

namespace GoudaMatrix.MemoryCache

open GoudaMatrix.Lib GoudaMatrix.Ruma GoudaMatrix.Polls RelationSet

/-! ## What a history does to a message -/

/-- The effects of the events, one after another. -/
def effectsFrom {M : Type} (env : RoomEnv M) : M → List TimelineEvent → List Effect
  | _, [] => []
  | media, event :: events =>
    let (effect, media) := effectOf env event media
    effect :: effectsFrom env media events

/-- The message that is edited, answered, ended or reacted to. -/
def Effect.message : Effect → Option String
  | .replaced id _ _ | .reacted id _ _ => some id
  | .pollReplaced id _ => some id
  | .pollAnswered id _ => some id
  | .pollEnded id _ => some id
  | _ => none

def Effect.redactionOf (id : String) : Effect → Option (OriginalEvent RoomRedactionEventContent)
  | .redacted id' redaction => if id = id' then some redaction else none
  | _ => none

section Deciding

variable (o : IterationOrder) (id : String) (effects : List Effect)

def relationsTo : List Effect := effects.filter fun effect => effect.message = some id

def lastRedaction : Option (OriginalEvent RoomRedactionEventContent) :=
  (effects.filterMap (Effect.redactionOf id)).getLast?

/-- The reason of the last redaction, or the one that the message has. -/
def reasonAfter (reason : Option String) : Option String :=
  match lastRedaction id effects with
  | some redaction => redaction.content.reason
  | none => reason

/-- The newest edit of a poll. -/
def newestPollEdit : Option (OriginalEvent UnstablePollStartEventContent) :=
  (sortByKey OriginalEvent.originServerTs
    ((Effect.cached effects).pollReplacementEvents.values o)).getLast?

/-- The poll after its newest edit. -/
def pollInForce (poll : MessageContentPoll) : MessageContentPoll :=
  match newestPollEdit o effects with
  | some edit => (replaceContent poll edit.content.pollStart).2
  | none => poll

def hasPollEnd : Bool := effects.any fun effect => effect.pollEnd.isSome

end Deciding

/-! ## Effects and the cache -/

theorem lastRedaction_concat (id : String) (effects : List Effect) (effect : Effect) :
    lastRedaction id (effects ++ [effect])
      = (effect.redactionOf id).or (lastRedaction id effects) := by
  unfold lastRedaction
  rw [List.filterMap_append, List.getLast?_append]
  cases hlast : effect.redactionOf id <;> simp [hlast]

theorem relationsTo_concat (id : String) (effects : List Effect) (effect : Effect) :
    relationsTo id (effects ++ [effect])
      = relationsTo id effects ++ if effect.message = some id then [effect] else [] := by
  unfold relationsTo
  rw [List.filter_append, List.filter_singleton, Bool.cond_decide]

/-- What the effects leave of a message, apart from its original. -/
theorem foldl_on (id : String) (effects : List Effect) :
    { effects.foldl (fun cached effect => effect.on id cached) CachedMessage.default with
        original := none }
      = { Effect.cached (relationsTo id effects) with redaction := lastRedaction id effects } := by
  induction effects using List.reverseRecOn with
  | nil => rfl
  | append_singleton effects effect ih =>
    rw [List.foldl_concat, relationsTo_concat, lastRedaction_concat]
    generalize effects.foldl (fun cached effect => effect.on id cached) CachedMessage.default
      = cached at ih ⊢
    obtain ⟨-, hreactions, hreplacements, hredaction, hreplaced, hanswered, hended⟩ :=
      CachedMessage.mk.inj ih
    have hon : ∀ effect : Effect, effect.message = some id →
        effect.on id (Effect.cached (relationsTo id effects))
          = Effect.cached (relationsTo id effects ++ [effect]) := by
      intro effect hmessage
      refine Effect.on_cached ?_ _
      cases effect <;> cases hmessage <;> rfl
    cases effect with
    | ignored | failed | undecryptable | assembled =>
      simp only [Effect.on, Effect.message, Effect.redactionOf, reduceCtorEq, if_false,
        List.append_nil, Option.none_or]
      first
      | exact ih
      | (split <;> exact ih)
    | redacted id' redaction =>
      simp only [Effect.on, Effect.message, Effect.redactionOf, reduceCtorEq, if_false,
        List.append_nil]
      split
      · simp only [Option.some_or, hreactions, hreplacements, hreplaced, hanswered, hended]
        rfl
      · exact ih
    | replaced id' | reacted id' | pollReplaced id' | pollAnswered id' | pollEnded id' =>
      simp only [Effect.message, Effect.redactionOf, Option.some.injEq, Option.none_or]
      by_cases hid : id' = id
      · subst hid
        rw [if_pos rfl, ← hon _ rfl]
        simp only [Effect.on, if_true, hreactions, hreplacements, hredaction, hreplaced, hanswered,
          hended]
        rfl
      · rw [if_neg hid, List.append_nil]
        simp only [Effect.on, if_neg (Ne.symm hid)]
        exact ih

section Room

variable {M : Type} {env : RoomEnv M}

theorem cachedAt_foldl (room : CachedRoom M) (events : List TimelineEvent) (id : String) :
    (afterEvents env room events).cachedAt id
      = (effectsFrom env room.media events).foldl (fun cached effect => effect.on id cached)
          (room.cachedAt id) := by
  induction events generalizing room with
  | nil => rfl
  | cons event events ih =>
    have hrest := ih (room.processTimelineEvent env event).2
    rw [CachedRoom.cachedAt_processTimelineEvent, CachedRoom.media_processTimelineEvent] at hrest
    exact hrest

variable (env) in
/-- What is cached about a message in a room that was empty, apart from its original. -/
theorem cachedAt_effects (media : M) (events : List TimelineEvent) (id : String) :
    { (afterEvents env (.new media) events).cachedAt id with original := none }
      = { Effect.cached (relationsTo id (effectsFrom env media events)) with
          redaction := lastRedaction id (effectsFrom env media events) } := by
  have hempty : (CachedRoom.new media).cachedAt id = CachedMessage.default := rfl
  rw [cachedAt_foldl, hempty]
  exact foldl_on id _

end Room

/-! ## What is shown -/

/-- Only a message that is neither removed nor a poll shows its edits. -/
def isEditable : Option Content → Bool
  | some (.removed _) | some (.poll _) => false
  | _ => true

/-- What is shown of an original after the effects. -/
def contentAfter (o : IterationOrder) (id : String) (effects : List Effect) :
    Option Content → Option Content
  | some (.removed reason) => some (.removed (reasonAfter id effects reason))
  | some (.poll poll) => some (.poll (shownPoll o (relationsTo id effects) poll))
  | content => (newestContent o (relationsTo id effects)).or content

section Shown

variable {M : Type} {env : RoomEnv M} {media : M} {events : List TimelineEvent} {id : String}

theorem newestContent_isSome (o : IterationOrder) (effects : List Effect) :
    (newestContent o effects).isSome = !(Effect.cached effects).replacements.entries.isEmpty := by
  unfold newestContent
  rw [Option.isSome_map, ← HashMap.isEmpty_values o]
  cases hlast : (sortByKey CachedReplacement.timestamp
      ((Effect.cached effects).replacements.values o)).getLast? with
  | none => rw [getLast?_sortByKey_eq_none.mp hlast]; rfl
  | some edit =>
    have hne := List.ne_nil_of_mem (getLast?_sortByKey hlast).1
    rw [List.isEmpty_eq_false_iff.mpr hne]
    rfl

variable (env media events id) in
theorem shownContent_effects (o : IterationOrder) (content : Option Content) :
    ((afterEvents env (.new media) events).cachedAt id).shownContent o content
      = contentAfter o id (effectsFrom env media events) content := by
  have hcached := cachedAt_effects env media events id
  have horiginal : ∀ cached : CachedMessage,
      cached.shownContent o content = { cached with original := none }.shownContent o content := by
    intro cached
    unfold CachedMessage.shownContent
    split <;> rfl
  rw [horiginal, hcached]
  match content with
  | some (.removed reason) => rfl
  | some (.poll poll) => rfl
  | none | some (.text _) | some (.file _ _) | some (.membershipChange _ _) =>
    simp only [CachedMessage.shownContent, contentAfter, newestContent]
    cases (sortByKey CachedReplacement.timestamp ((Effect.cached
      (relationsTo id (effectsFrom env media events))).replacements.values o)).getLast? <;> rfl

variable (env media events id) in
theorem showsEdit_effects (o : IterationOrder) (content : Option Content) :
    ((afterEvents env (.new media) events).cachedAt id).showsEdit content
      = (isEditable content
          && (newestContent o (relationsTo id (effectsFrom env media events))).isSome) := by
  have hreplacements := congrArg CachedMessage.replacements
    (cachedAt_effects env media events id)
  have hempty := congrArg (fun m : HashMap CachedReplacement => !m.entries.isEmpty) hreplacements
  rw [newestContent_isSome]
  match content with
  | some (.removed reason) => rfl
  | some (.poll poll) => rfl
  | none | some (.text _) | some (.file _ _) | some (.membershipChange _ _) => exact hempty

/-- An edit shows a text or a file. -/
theorem newestContent_ne_poll {o : IterationOrder} {poll : MessageContentPoll} :
    newestContent o (relationsTo id (effectsFrom env media events)) ≠ some (.poll poll) := by
  have hcontent : ∀ (events : List TimelineEvent) (media : M) messageId key edit,
      Effect.replaced messageId key edit ∈ effectsFrom env media events →
      edit.newContent ≠ .poll poll := by
    intro events
    induction events with
    | nil => intro media messageId key edit h; cases h
    | cons event events ih =>
      intro media messageId key edit h
      rcases List.mem_cons.mp h with h | h
      · have heffect : (effectOf env event media).1 = .replaced messageId key edit := h.symm
        obtain ⟨newContent, original, hreplaces, -, -⟩ := replaces_of_effectOf env heffect
        rw [effectOf_of_replaces env hreplaces] at heffect
        cases hgenerated : (Messages.generateMessageContent env.mediaManager env.roomId messageId
            newContent.msgtype media).1 with
        | none =>
          rw [hgenerated] at heffect
          cases heffect
        | some content =>
          rw [hgenerated] at heffect
          cases heffect
          rcases content_generateMessageContent hgenerated with ⟨text, rfl⟩ | ⟨path, name, rfl⟩
          · exact nofun
          · exact nofun
      · exact ih _ messageId key edit h
  intro h
  obtain ⟨edit, hlast, hedit⟩ := Option.map_eq_some_iff.mp h
  obtain ⟨key, hlookup⟩ := HashMap.mem_values.mp (getLast?_sortByKey hlast).1
  obtain ⟨effect, hmem, hentry⟩ := List.mem_filterMap.mp (HashMap.mem_of_lookup_ofEntries hlookup)
  have hmem := (List.mem_filter.mp hmem).1
  cases effect with
  | replaced messageId key' edit' =>
    cases hentry
    exact hcontent events media messageId key edit hmem hedit
  | ignored | failed | assembled | redacted | reacted | pollReplaced | pollAnswered | pollEnded
  | undecryptable => cases hentry

end Shown

/-! ## Comparing two histories -/

/-- The edits and ends of a poll are the same, and so are the answers that count. -/
structure SamePoll (o : IterationOrder) (poll : MessageContentPoll)
    (effects effects' : List Effect) : Prop where
  inForce : pollInForce o effects poll = pollInForce o effects' poll
  ended : hasPollEnd effects = hasPollEnd effects'
  answers : ∀ userId i, Counts (pollInForce o effects poll) (answersOf o effects) userId i ↔
    Counts (pollInForce o effects' poll) (answersOf o effects') userId i

/-- What decides on a removed message or a poll is the same. -/
structure SameDecision (o : IterationOrder) (id : String) (content : Option Content)
    (effects effects' : List Effect) : Prop where
  removed : ∀ reason, content = some (.removed reason) →
    reasonAfter id effects reason = reasonAfter id effects' reason
  poll : ∀ poll, content = some (.poll poll) →
    SamePoll o poll (relationsTo id effects) (relationsTo id effects')

/-- The newest edits have the same content too; the original is only shown without any. -/
structure SameShown (o : IterationOrder) (id : String) (content content' : Option Content)
    (effects effects' : List Effect) : Prop extends SameDecision o id content effects effects' where
  edits : isEditable content = true →
    newestContent o (relationsTo id effects) = newestContent o (relationsTo id effects')
  unedited : isEditable content = true → newestContent o (relationsTo id effects) = none →
    content = content'

/-- There is no edit in the first history, and the second one shows the content of the original. -/
structure SameUnedited (o : IterationOrder) (id : String) (content content' : Option Content)
    (effects effects' : List Effect) : Prop extends SameDecision o id content effects effects' where
  unedited : isEditable content = true → newestContent o (relationsTo id effects) = none
  content : isEditable content = true → content.isSome = true ∧
    content = (newestContent o (relationsTo id effects')).or content'

section Polls

variable {o : IterationOrder} {poll : MessageContentPoll} (effects effects' : List Effect)

theorem pollEnds_isEmpty :
    (Effect.cached effects).pollEndEvents.entries.isEmpty = !hasPollEnd effects := by
  unfold Effect.cached hasPollEnd
  dsimp only
  rw [HashMap.isEmpty_ofEntries]
  induction effects with
  | nil => rfl
  | cons effect effects ih =>
    rw [List.filterMap_cons, List.any_cons]
    cases effect.pollEnd with
    | none => simpa using ih
    | some entry => rfl

theorem applyPollReplacements_eq :
    (Effect.cached effects).applyPollReplacements o poll = pollInForce o effects poll := rfl

theorem fresh_pollInForce (hfresh : Fresh poll) :
    Fresh (pollInForce o effects poll) ∧
      (pollInForce o effects poll).completed = poll.completed := by
  unfold pollInForce
  split
  · exact ⟨fresh_replaceContent poll _, completed_replaceContent poll _⟩
  · exact ⟨hfresh, rfl⟩

/-- Two histories show the same poll exactly if what decides on it is the same. -/
theorem samePoll_iff (hfresh : Fresh poll) (hopen : poll.completed = false) :
    PollAlike (shownPoll o effects poll) (shownPoll o effects' poll) ↔
      SamePoll o poll effects effects' := by
  have hcompleted : ∀ effects : List Effect,
      (addAnswers (pollInForce o effects poll) (answersOf o effects)).completed = false := by
    intro effects
    rw [(addAnswers_sameButVoters _ _).completed, (fresh_pollInForce effects hfresh).2, hopen]
  have hshown : ∀ effects : List Effect, shownPoll o effects poll
      = (Effect.cached effects).applyPollEnds
          (addAnswers (pollInForce o effects poll) (answersOf o effects)) := by
    intro effects
    rw [shownPoll, applyPollReplacements_eq, applyPollResponses_eq]
  have hends : ∀ effects : List Effect,
      (shownPoll o effects poll).completed = hasPollEnd effects := by
    intro effects
    rw [hshown, CachedMessage.applyPollEnds, pollEnds_isEmpty]
    cases hasPollEnd effects with
    | false => exact hcompleted effects
    | true => rfl
  by_cases hended : hasPollEnd effects = hasPollEnd effects'
  · rw [hshown, hshown, pollAlike_applyPollEnds (by rw [pollEnds_isEmpty, pollEnds_isEmpty, hended])
        ((hcompleted effects).trans (hcompleted effects').symm),
      pollAlike_addAnswers (fresh_pollInForce effects hfresh).1
        (fresh_pollInForce effects' hfresh).1]
    exact ⟨fun h => ⟨h.1, hended, h.2⟩, fun h => ⟨h.inForce, h.answers⟩⟩
  · refine iff_of_false (fun h => hended ?_) fun h => hended h.ended
    rw [← hends, ← hends, h.same.completed]

end Polls

/-! ## Originals of one event -/

section Originals

variable {M : Type} {env : RoomEnv M} {event : TimelineEvent} {original original' : Message}

theorem isEditable_generateMessageContent (mediaManager : MediaManager M) (roomId eventId : String)
    (msgtype : MessageType) (media : M) :
    isEditable (Messages.generateMessageContent mediaManager roomId eventId msgtype media).1
      = true := by
  cases hcontent :
      (Messages.generateMessageContent mediaManager roomId eventId msgtype media).1 with
  | none => rfl
  | some content =>
    rcases content_generateMessageContent hcontent with ⟨text, rfl⟩ | ⟨path, name, rfl⟩ <;> rfl

/-- Only the content of a room message depends on the media. -/
theorem contents_of_assembled {media media' : M}
    (h : (effectOf env event media).1 = .assembled original)
    (h' : (effectOf env event media').1 = .assembled original') :
    original.content = original'.content ∨
      isEditable original.content = true ∧ isEditable original'.content = true := by
  by_cases hroom : ∃ message,
      readable event = some (.messageLike (.roomMessage (.original message)))
  · obtain ⟨message, hread⟩ := hroom
    by_cases hrelation : ∃ messageId newContent,
        message.content.relatesTo = some (.replacement messageId newContent)
    · obtain ⟨messageId, newContent, hrelation⟩ := hrelation
      rw [effectOf_of_replaces env ⟨hread, hrelation⟩] at h
      cases hcontent : (Messages.generateMessageContent env.mediaManager env.roomId messageId
          newContent.msgtype media).1 <;> rw [hcontent] at h <;> cases h
    · simp only [not_exists] at hrelation
      rw [effectOf_of_message env hread hrelation] at h h'
      cases h
      cases h'
      exact .inr ⟨isEditable_generateMessageContent .., isEditable_generateMessageContent ..⟩
  · rw [(effectOf_static env (fun message hread => hroom ⟨message, hread⟩) media media').1, h'] at h
    cases h
    exact .inl rfl

end Originals

section Comparing

variable {o : IterationOrder} {id : String} {content content' : Option Content}
  {effects effects' : List Effect}

theorem contentAfter_of_editable (h : isEditable content = true) (effects : List Effect) :
    contentAfter o id effects content = (newestContent o (relationsTo id effects)).or content := by
  match content with
  | some (.removed reason) | some (.poll poll) => cases h
  | none | some (.text _) | some (.file _ _) | some (.membershipChange _ _) => rfl

theorem contentAfter_ne_poll (h : isEditable content = true)
    (hnewest : ∀ poll, newestContent o (relationsTo id effects) ≠ some (.poll poll))
    (poll : MessageContentPoll) : contentAfter o id effects content ≠ some (.poll poll) := by
  rw [contentAfter_of_editable h]
  cases hcontent : newestContent o (relationsTo id effects) with
  | none =>
    rintro rfl
    cases h
  | some content => exact fun heq => hnewest poll (hcontent.trans heq)

/-- For what is no edit, the content decides. -/
theorem sameDecision_iff (heditable : isEditable content = false)
    (hfresh : ∀ poll, content = some (.poll poll) → Fresh poll ∧ poll.completed = false) :
    ContentAlike (contentAfter o id effects content) (contentAfter o id effects' content) ↔
      SameDecision o id content effects effects' := by
  match content with
  | some (.removed reason) =>
    constructor
    · intro h
      have hreason : some (Content.removed (reasonAfter id effects reason))
          = some (.removed (reasonAfter id effects' reason)) := h
      refine ⟨fun r hr => ?_, nofun⟩
      cases hr
      exact Content.removed.inj (Option.some.inj hreason)
    · exact fun h => congrArg (fun reason => some (Content.removed reason)) (h.removed reason rfl)
  | some (.poll poll) =>
    obtain ⟨hpoll, hopen⟩ := hfresh poll rfl
    have hiff := samePoll_iff (o := o) (relationsTo id effects) (relationsTo id effects') hpoll
      hopen
    constructor
    · intro h
      refine ⟨nofun, fun p hp => ?_⟩
      cases hp
      exact hiff.mp h
    · exact fun h => hiff.mpr (h.poll poll rfl)
  | none | some (.text _) | some (.file _ _) | some (.membershipChange _ _) => cases heditable

theorem sameDecision_of_editable (h : isEditable content = true) :
    SameDecision o id content effects effects' := by
  refine ⟨fun reason hcontent => ?_, fun poll hcontent => ?_⟩
  · rw [hcontent] at h
    cases h
  · rw [hcontent] at h
    cases h

/-- Two histories show the same content with the same flag. -/
theorem sameShown_iff
    (hsame : content = content' ∨ isEditable content = true ∧ isEditable content' = true)
    (hfresh : ∀ poll, content = some (.poll poll) → Fresh poll ∧ poll.completed = false)
    (hnewest : ∀ poll, newestContent o (relationsTo id effects) ≠ some (.poll poll)) :
    (ContentAlike (contentAfter o id effects content) (contentAfter o id effects' content') ∧
      (isEditable content && (newestContent o (relationsTo id effects)).isSome)
        = (isEditable content' && (newestContent o (relationsTo id effects')).isSome)) ↔
      SameShown o id content content' effects effects' := by
  cases heditable : isEditable content with
  | false =>
    have hno : ∀ p : Prop, isEditable content = true → p :=
      fun p h => absurd (heditable.symm.trans h) Bool.false_ne_true
    obtain rfl : content = content' := hsame.resolve_right fun h => hno False h.1
    rw [sameDecision_iff heditable hfresh, heditable]
    exact ⟨fun h => ⟨h.1, hno _, hno _⟩, fun h => ⟨h.toSameDecision, rfl⟩⟩
  | true =>
    have heditable' : isEditable content' = true := by
      rcases hsame with rfl | ⟨-, h⟩
      · exact heditable
      · exact h
    have hdecision : SameDecision o id content effects effects' :=
      sameDecision_of_editable heditable
    rw [contentAlike_text_or_file (contentAfter_ne_poll heditable hnewest),
      contentAfter_of_editable heditable, contentAfter_of_editable heditable', heditable',
      Bool.true_and, Bool.true_and]
    constructor
    · rintro ⟨hcontent, hedited⟩
      refine ⟨hdecision, fun _ => ?_, fun _ hnone => ?_⟩
      · cases hdirect : newestContent o (relationsTo id effects) with
        | none =>
          rw [hdirect] at hedited
          exact (Option.isSome_eq_false_iff.mp hedited.symm |> Option.isNone_iff_eq_none.mp).symm
        | some shown =>
          rw [hdirect] at hcontent hedited
          obtain ⟨shown', hshown'⟩ := Option.isSome_iff_exists.mp hedited.symm
          rw [hshown'] at hcontent ⊢
          exact hcontent
      · rw [hnone] at hcontent hedited
        rw [Option.isNone_iff_eq_none.mp (Option.isSome_eq_false_iff.mp hedited.symm)] at hcontent
        exact hcontent
    · intro h
      rw [← h.edits heditable]
      refine ⟨?_, rfl⟩
      cases hdirect : newestContent o (relationsTo id effects) with
      | none => exact h.unedited heditable hdirect
      | some shown => rfl

/-- The first history shows some content and no edit, and the second one the same content. -/
theorem sameUnedited_iff
    (hsame : content = content' ∨ isEditable content = true ∧ isEditable content' = true)
    (hfresh : ∀ poll, content = some (.poll poll) → Fresh poll ∧ poll.completed = false)
    (hnewest : ∀ poll, newestContent o (relationsTo id effects) ≠ some (.poll poll)) :
    ((contentAfter o id effects content).isSome = true ∧
      ContentAlike (contentAfter o id effects content) (contentAfter o id effects' content') ∧
      (isEditable content && (newestContent o (relationsTo id effects)).isSome) = false) ↔
      SameUnedited o id content content' effects effects' := by
  cases heditable : isEditable content with
  | false =>
    have hno : ∀ p : Prop, isEditable content = true → p :=
      fun p h => absurd (heditable.symm.trans h) Bool.false_ne_true
    obtain rfl : content = content' := hsame.resolve_right fun h => hno False h.1
    have hsome : (contentAfter o id effects content).isSome = true := by
      match content with
      | some (.removed reason) | some (.poll poll) => rfl
      | none | some (.text _) | some (.file _ _) | some (.membershipChange _ _) => cases heditable
    rw [sameDecision_iff heditable hfresh]
    exact ⟨fun h => ⟨h.2.1, hno _, hno _⟩, fun h => ⟨hsome, h.toSameDecision, rfl⟩⟩
  | true =>
    have heditable' : isEditable content' = true := by
      rcases hsame with rfl | ⟨-, h⟩
      · exact heditable
      · exact h
    have hdecision : SameDecision o id content effects effects' :=
      sameDecision_of_editable heditable
    rw [contentAlike_text_or_file (contentAfter_ne_poll heditable hnewest),
      contentAfter_of_editable heditable, contentAfter_of_editable heditable', Bool.true_and]
    constructor
    · rintro ⟨hsome, hcontent, hedited⟩
      have hnone := Option.isNone_iff_eq_none.mp (Option.isSome_eq_false_iff.mp hedited)
      rw [hnone, Option.none_or] at hsome hcontent
      exact ⟨hdecision, fun _ => hnone, fun _ => ⟨hsome, hcontent⟩⟩
    · intro h
      rw [h.unedited heditable, Option.none_or]
      exact ⟨(h.content heditable).1, (h.content heditable).2, rfl⟩

end Comparing

/-! ## Reactions -/

section Reactions

variable {M : Type} {env : RoomEnv M}

theorem reactionsTo_cons (event : TimelineEvent) (events : List TimelineEvent) (id : String) :
    reactionsTo env id (event :: events)
      = reactionsTo env id [event] ++ reactionsTo env id events :=
  reactionsTo_append id [event] events

theorem reactionsTo_eq (media : M) (events : List TimelineEvent) (id : String) :
    reactionsTo env id events
      = ((relationsTo id (effectsFrom env media events)).filterMap Effect.reaction).map
          fun entry => ⟨env.roomId, id, entry.2.emoji, some entry.2.userId⟩ := by
  induction events generalizing media with
  | nil => rfl
  | cons event events ih =>
    have hreaction := reactionOf_eq env event media
    have hcons : relationsTo id (effectsFrom env media (event :: events))
        = relationsTo id [(effectOf env event media).1]
            ++ relationsTo id (effectsFrom env (effectOf env event media).2 events) :=
      List.filter_append [(effectOf env event media).1] _
    rw [reactionsTo_cons, ih (effectOf env event media).2, hcons, List.filterMap_append,
      List.map_append]
    congr 1
    cases heffect : (effectOf env event media).1 with
    | reacted messageId reactionId reaction =>
      rw [heffect] at hreaction
      by_cases hid : messageId = id
      · subst hid
        simp [reactionsTo, hreaction, relationsTo, Effect.message, Effect.reaction]
      · simp [reactionsTo, hreaction, relationsTo, Effect.message, hid]
    | ignored | failed | assembled | redacted | replaced | pollReplaced | pollAnswered | pollEnded
    | undecryptable =>
      rw [heffect] at hreaction
      have hnone : reactionsTo env id [event] = [] := by simp [reactionsTo, hreaction]
      have hall : ∀ effect ∈ relationsTo id [(effectOf env event media).1],
          effect.reaction = none := by
        intro effect hmem
        rw [List.mem_singleton.mp (List.mem_of_mem_filter hmem), heffect]
        rfl
      rw [heffect] at hall
      rw [hnone, List.filterMap_eq_nil_iff.mpr hall]
      rfl

variable (env) in
/-- A reaction is cached under the id of its event. -/
theorem keys_reactions_sublist (media : M) (events : List TimelineEvent) (id : String) :
    (((relationsTo id (effectsFrom env media events)).filterMap Effect.reaction).map
      Prod.fst).Sublist (events.filterMap TimelineEvent.eventId) := by
  induction events generalizing media with
  | nil => exact List.Sublist.refl _
  | cons event events ih =>
    have hrest := ih (effectOf env event media).2
    have hskip : (((relationsTo id (effectsFrom env (effectOf env event media).2 events)).filterMap
        Effect.reaction).map Prod.fst).Sublist
          ((event :: events).filterMap TimelineEvent.eventId) := by
      rw [List.filterMap_cons]
      cases event.eventId with
      | none => exact hrest
      | some eventId => exact hrest.cons eventId
    rw [effectsFrom, relationsTo, List.filter_cons]
    split
    · rw [List.filterMap_cons]
      cases heffect : (effectOf env event media).1 with
      | reacted messageId reactionId reaction =>
        have hid := eventId_of_reacted env heffect
        rw [List.filterMap_cons_some hid]
        exact hrest.cons_cons reactionId
      | ignored | failed | assembled | redacted | replaced | pollReplaced | pollAnswered | pollEnded
      | undecryptable => exact hskip
    · exact hskip

/-- The cached reactions of a message are those of the events. -/
theorem reactionList_perm (media : M) {events : List TimelineEvent}
    (hids : (events.filterMap TimelineEvent.eventId).Nodup) (id : String) :
    (((afterEvents env (.new media) events).cachedAt id).reactionList env.order env.roomId id).Perm
      (reactionsTo env id events) := by
  have hreactions := congrArg CachedMessage.reactions
    (cachedAt_effects env media events id)
  have hcached : ((afterEvents env (.new media) events).cachedAt id).reactions
      = HashMap.ofEntries ((relationsTo id (effectsFrom env media events)).filterMap
          Effect.reaction) := hreactions
  have hkeys := (keys_reactions_sublist env media events id).nodup hids
  rw [reactionsTo_eq media]
  unfold CachedMessage.reactionList
  rw [hcached]
  have hperm := (HashMap.values_perm env.order _).trans (HashMap.entries_ofEntries_perm hkeys)
  exact (hperm.map _).trans (by rw [List.map_map]; rfl)

end Reactions

end GoudaMatrix.MemoryCache
