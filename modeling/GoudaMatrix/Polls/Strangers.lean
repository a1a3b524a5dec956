/-
  A poll without what strangers did to it. Neither `build_poll` nor `assemble_poll` looks at the
  sender of an edit or of an end, and neither compares the responses with the end.

  `unchanged_iff` says when this does not show: what is removed is the edits and ends of strangers,
  or the responses after the creator's first end, and the completed flag, the options and the tally
  stay the same exactly if strangers end only polls that are ended anyway, and if the options of the
  newest edit and the newest selections are those of the rest. `stranger_closes_poll` is a poll that
  a stranger ends.

  The history of a poll is a cached message with any events, and any relations in the store.
-/
import GoudaMatrix.Polls.Agreement

namespace GoudaMatrix.Polls

open GoudaMatrix.Lib GoudaMatrix.Ruma GoudaMatrix.MemoryCache

/-! ## Strangers and late responses -/

/-- The creator of a poll, and who may redact it. -/
structure PollRights where
  creator : String
  mayRedact : String → Bool

def PollRights.stranger (rights : PollRights) (userId : String) : Bool :=
  userId ≠ rights.creator && !rights.mayRedact userId

section Cached

variable (rights : PollRights) (cached : CachedMessage)

/-- The cached message without the edits and ends of strangers. -/
def withoutStrangers : CachedMessage :=
  { cached with
    pollReplacementEvents :=
      cached.pollReplacementEvents.retain fun _ event => !rights.stranger event.sender
    pollEndEvents := cached.pollEndEvents.retain fun _ event => !rights.stranger event.sender }

/-- The response is after the creator's first end. -/
def isLate (response : OriginalEvent UnstablePollResponseEventContent) : Bool :=
  cached.pollEndEvents.entries.any fun entry =>
    entry.2.sender = rights.creator && entry.2.originServerTs < response.originServerTs

/-- The cached message without the late responses. -/
def withoutLate : CachedMessage :=
  { cached with
    pollResponseEvents :=
      cached.pollResponseEvents.retain fun _ response => !isLate rights cached response }

end Cached

/-- What a relation is to `assemble_poll`, with its sender. -/
def pollRelation (relation : TimelineEvent) : Option (String × PollRelationBody) :=
  match relation.sender with
  | none => none
  | some sender =>
    match deserializePollStartContent relation with
    | .ok event => some (sender, .edit event.pollStart)
    | .error _ =>
      match deserializePollResponseContent relation with
      | .ok event => some (sender, .response event.answers)
      | .error _ =>
        match deserializePollEndContent relation with
        | .ok _ => some (sender, .ended)
        | .error _ => none

section Store

variable (rights : PollRights) (relations : List TimelineEvent)

/-- A stranger's edit or end. -/
def isStrange (relation : TimelineEvent) : Bool :=
  match pollRelation relation with
  | some (sender, .edit _) | some (sender, .ended) => rights.stranger sender
  | _ => false

def isEndOfCreator (relation : TimelineEvent) : Bool :=
  match pollRelation relation with
  | some (sender, .ended) => sender = rights.creator
  | _ => false

/-- A response after the creator's first end. -/
def isLateRelation (relation : TimelineEvent) : Bool :=
  match pollRelation relation with
  | some (_, .response _) =>
    relations.any fun other =>
      isEndOfCreator rights other && timestampKey other < timestampKey relation
  | _ => false

def relationsWithoutStrangers : List TimelineEvent :=
  relations.filter fun relation => !isStrange rights relation

def relationsWithoutLate : List TimelineEvent :=
  relations.filter fun relation => !isLateRelation rights relations relation

end Store

/-! ## The tally -/

/-- The same flag, options and voters. -/
structure SameTally (a b : MessageContentPoll) : Prop where
  completed : a.completed = b.completed
  options : a.options.map (fun option => (option.id, option.text))
    = b.options.map fun option => (option.id, option.text)
  voters : ∀ userId i, Voted a.options userId i ↔ Voted b.options userId i

def pollIn (message : Message) : Option MessageContentPoll :=
  match message.content with
  | some (.poll content) => some content
  | _ => none

/-- What `build_poll` makes of the start with a cached message. -/
def builtWith (o : IterationOrder) (start : PollStart) (cached : CachedMessage) :
    Option MessageContentPoll :=
  match assemblePollStart start.pollStart with
  | .error _ => none
  | .ok content =>
    let original := Message.new start.roomId start.eventId start.sender start.originServerTs
    pollIn (cached.buildPoll o original content)

/-- What `assemble_poll` makes of the start with the relations. -/
def assembledWith (start : PollStart) (relations : List TimelineEvent) :
    Option MessageContentPoll :=
  (assemblePoll start.event relations).toOption

/-- What counts for the tally. -/
structure InForce.SameTally (a b : InForce) : Prop where
  answers : a.1.answers = b.1.answers
  counts : ∀ userId i, a.Counts userId i ↔ b.Counts userId i

theorem sameTally_poll {a b : InForce} (ta tb : PollType) (ca cb : Bool) :
    SameTally (a.poll ta ca) (b.poll tb cb) ↔ ca = cb ∧ a.SameTally b := by
  constructor
  · rintro ⟨hcompleted, hoptions, hvoters⟩
    refine ⟨hcompleted, answers_eq_of_labels ?_, fun userId i => ?_⟩
    · rw [poll_labels, poll_labels] at hoptions
      exact hoptions
    · rw [← voted_poll a ta ca, ← voted_poll b tb cb]
      exact hvoters userId i
  · rintro ⟨rfl, hanswers, hcounts⟩
    refine ⟨rfl, ?_, fun userId i => ?_⟩
    · rw [poll_labels, poll_labels, hanswers]
    · rw [voted_poll, voted_poll]
      exact hcounts userId i

/-! ## The built poll -/

theorem replaceContent_content (old : MessageContentPoll) (block : UnstablePollStartContentBlock) :
    ∃ type, (replaceContent old block).2
      = { pollOf block type with completed := old.completed } := by
  unfold replaceContent
  cases tryIntoChat block.kind with
  | ok type => exact ⟨type, rfl⟩
  | error e => exact ⟨old.type, rfl⟩

theorem builtWith_eq (o : IterationOrder) (start : PollStart) {type : PollType}
    (htype : tryIntoChat start.pollStart.kind = .ok type) (cached : CachedMessage) :
    ∃ type', builtWith o start cached = some ((cacheInForce o start cached).poll type'
      (!cached.pollEndEvents.entries.isEmpty)) := by
  have hreplaced : ∃ type', cached.applyPollReplacements o (pollOf start.pollStart type)
      = pollOf (cacheInForce o start cached).1 type' := by
    unfold CachedMessage.applyPollReplacements cacheInForce
    dsimp only
    cases (sortByKey OriginalEvent.originServerTs
        (cached.pollReplacementEvents.values o)).getLast? with
    | none => exact ⟨type, rfl⟩
    | some event => exact replaceContent_content _ _
  obtain ⟨type', hreplaced⟩ := hreplaced
  refine ⟨type', ?_⟩
  unfold builtWith pollIn
  rw [assemblePollStart_eq htype]
  dsimp only
  rw [buildPoll_content o start cached hreplaced]

/-! ## The assembled poll -/

/-- An edit to a kind that is not known. -/
def IsUnknown (relation : TimelineEvent) : Prop :=
  ∃ sender block e, pollRelation relation = some (sender, .edit block) ∧
    tryIntoChat block.kind = .error e

def isEnd (relation : TimelineEvent) : Bool :=
  match pollRelation relation with
  | some (_, .ended) => true
  | _ => false

/-- `InForce.next` for any relation. -/
def InForce.apply (acc : InForce) (relation : TimelineEvent) : InForce :=
  match pollRelation relation with
  | some (_, .edit block) => (block, [])
  | some (sender, .response answers) => (acc.1, acc.2 ++ [(sender, answers)])
  | _ => acc

/-- After all relations, in the order of `assemble_poll`. -/
def relationsInForce (start : PollStart) (relations : List TimelineEvent) : InForce :=
  (sortByKey timestampKey relations).foldl InForce.apply (start.pollStart, [])

theorem applyRelation_eq (content : MessageContentPoll) (relation : TimelineEvent) :
    applyRelation content relation = match pollRelation relation with
      | none => .ok content
      | some (_, .edit block) =>
        match replaceContent content block with
        | (.ok (), content) => .ok content
        | (.error e, _) => .error e
      | some (sender, .response answers) => .ok (addAnswer content sender answers)
      | some (_, .ended) => .ok { content with completed := true } := by
  unfold applyRelation pollRelation
  cases relation.sender with
  | none => rfl
  | some sender =>
    dsimp only
    cases deserializePollStartContent relation with
    | ok event => rfl
    | error _ =>
      dsimp only
      cases deserializePollResponseContent relation with
      | ok event => rfl
      | error _ =>
        dsimp only
        cases deserializePollEndContent relation <;> rfl

theorem applyRelation_unknown (content : MessageContentPoll) {relation : TimelineEvent}
    (h : IsUnknown relation) : ∃ e, applyRelation content relation = .error e := by
  obtain ⟨sender, block, e, hrelation, hkind⟩ := h
  refine ⟨e, ?_⟩
  rw [applyRelation_eq, hrelation]
  dsimp only
  rw [replaceContent, hkind]

/-- An iteration of the loop, for an edit of a known kind or anything else. -/
theorem applyRelation_poll (acc : InForce) (type : PollType) (completed : Bool)
    {relation : TimelineEvent} (h : ¬ IsUnknown relation) :
    ∃ type', applyRelation (acc.poll type completed) relation
      = .ok ((acc.apply relation).poll type' (completed || isEnd relation)) := by
  rw [applyRelation_eq]
  unfold InForce.apply isEnd
  cases hrelation : pollRelation relation with
  | none => exact ⟨type, by simp⟩
  | some found =>
    obtain ⟨sender, body⟩ := found
    cases body with
    | edit block =>
      cases hkind : tryIntoChat block.kind with
      | error e => exact absurd ⟨sender, block, e, hrelation, hkind⟩ h
      | ok type' =>
        refine ⟨type', ?_⟩
        dsimp only
        rw [replaceContent_eq hkind, Bool.or_false]
        rfl
    | response answers =>
      refine ⟨type, ?_⟩
      simp only [InForce.poll, addAnswers_concat, Bool.or_false]
      rfl
    | ended =>
      refine ⟨type, ?_⟩
      simp only [Bool.or_true]
      rfl

/-- The loop fails exactly if there is an edit to an unknown kind. -/
theorem foldlM_applyRelation_cases (acc : InForce) (type : PollType) (completed : Bool)
    (relations : List TimelineEvent) :
    (∃ relation ∈ relations, IsUnknown relation) ∧
        (∃ e, relations.foldlM applyRelation (acc.poll type completed) = .error e) ∨
      (∀ relation ∈ relations, ¬ IsUnknown relation) ∧
        ∃ type', relations.foldlM applyRelation (acc.poll type completed)
          = .ok ((relations.foldl InForce.apply acc).poll type'
              (completed || relations.any isEnd)) := by
  induction relations generalizing acc type completed with
  | nil => exact .inr ⟨List.forall_mem_nil _, type, by simp; rfl⟩
  | cons relation relations ih =>
    rw [List.foldlM_cons]
    by_cases hunknown : IsUnknown relation
    · obtain ⟨e, he⟩ := applyRelation_unknown (acc.poll type completed) hunknown
      exact .inl ⟨⟨relation, List.mem_cons_self, hunknown⟩, e, by rw [he]; rfl⟩
    · obtain ⟨type', hstep⟩ := applyRelation_poll acc type completed hunknown
      rw [hstep]
      rcases ih (acc.apply relation) type' (completed || isEnd relation) with
        ⟨⟨other, hmem, hother⟩, hfails⟩ | ⟨hknown, type'', hrun⟩
      · exact .inl ⟨⟨other, List.mem_cons_of_mem _ hmem, hother⟩, hfails⟩
      · refine .inr ⟨List.forall_mem_cons.mpr ⟨hunknown, hknown⟩, type'', ?_⟩
        rw [List.any_cons, ← Bool.or_assoc]
        exact hrun

theorem assembledWith_cases (start : PollStart) {type : PollType}
    (htype : tryIntoChat start.pollStart.kind = .ok type) (relations : List TimelineEvent) :
    (∃ relation ∈ relations, IsUnknown relation) ∧ assembledWith start relations = none ∨
      (∀ relation ∈ relations, ¬ IsUnknown relation) ∧
        ∃ type', assembledWith start relations
          = some ((relationsInForce start relations).poll type' (relations.any isEnd)) := by
  have hany : (sortByKey timestampKey relations).any isEnd = relations.any isEnd :=
    (sortByKey_perm timestampKey relations).any_eq
  have hstart : assemblePoll start.event relations
      = (sortByKey timestampKey relations).foldlM applyRelation
          (InForce.poll (start.pollStart, []) type false) := by
    rw [assemblePoll_of_start, assemblePollStart_eq htype]
    rfl
  unfold assembledWith
  rw [hstart]
  rcases foldlM_applyRelation_cases (start.pollStart, []) type false
      (sortByKey timestampKey relations) with
    ⟨⟨relation, hmem, hunknown⟩, e, he⟩ | ⟨hknown, type', hrun⟩
  · exact .inl ⟨⟨relation, mem_sortByKey.mp hmem, hunknown⟩, by rw [he]; rfl⟩
  · refine .inr ⟨fun relation hmem => hknown relation (mem_sortByKey.mpr hmem), type', ?_⟩
    rw [hrun, hany]
    rfl

theorem assembledWith_of_unknown (start : PollStart) {type : PollType}
    (htype : tryIntoChat start.pollStart.kind = .ok type) {relations : List TimelineEvent}
    (h : ∃ relation ∈ relations, IsUnknown relation) : assembledWith start relations = none := by
  rcases assembledWith_cases start htype relations with ⟨-, hnone⟩ | ⟨hknown, -⟩
  · exact hnone
  · obtain ⟨relation, hmem, hrelation⟩ := h
    exact absurd hrelation (hknown relation hmem)

theorem assembledWith_of_known (start : PollStart) {type : PollType}
    (htype : tryIntoChat start.pollStart.kind = .ok type) {relations : List TimelineEvent}
    (h : ¬ ∃ relation ∈ relations, IsUnknown relation) :
    ∃ type', assembledWith start relations
      = some ((relationsInForce start relations).poll type' (relations.any isEnd)) := by
  rcases assembledWith_cases start htype relations with ⟨hunknown, -⟩ | ⟨-, hrun⟩
  · exact absurd hunknown h
  · exact hrun

/-! ## When nothing changes -/

def PollStart.rights (start : PollStart) (mayRedact : String → Bool) : PollRights :=
  ⟨start.sender, mayRedact⟩

/-- Strangers end the poll only if another has ended it, and the options and selections in force are
    those of the rest. -/
structure BuiltUnaffected (o : IterationOrder) (start : PollStart) (rights : PollRights)
    (cached : CachedMessage) : Prop where
  ends : (∃ key event, cached.pollEndEvents.lookup key = some event) →
    ∃ key event, cached.pollEndEvents.lookup key = some event ∧ rights.stranger event.sender = false
  strangers : (cacheInForce o start cached).SameTally
    (cacheInForce o start (withoutStrangers rights cached))
  late : (cacheInForce o start cached).SameTally (cacheInForce o start (withoutLate rights cached))

/-- The same of the store, and no edit is to an unknown kind. -/
structure AssembledUnaffected (start : PollStart) (rights : PollRights)
    (relations : List TimelineEvent) : Prop where
  known : ∀ relation ∈ relations, ¬ IsUnknown relation
  ends : (∃ relation ∈ relations, isEnd relation = true) →
    ∃ relation ∈ relations, isEnd relation = true ∧ isStrange rights relation = false
  strangers : (relationsInForce start relations).SameTally
    (relationsInForce start (relationsWithoutStrangers rights relations))
  late : (relationsInForce start relations).SameTally
    (relationsInForce start (relationsWithoutLate rights relations))

/-- The poll is the same with and without what is removed. -/
def Unchanged (poll withoutStrangers withoutLate : Option MessageContentPoll) : Prop :=
  Option.Rel SameTally poll withoutStrangers ∧ Option.Rel SameTally poll withoutLate

theorem isEmpty_withoutStrangers (rights : PollRights) (cached : CachedMessage) :
    cached.pollEndEvents.entries.isEmpty
        = (withoutStrangers rights cached).pollEndEvents.entries.isEmpty ↔
      ((∃ key event, cached.pollEndEvents.lookup key = some event) →
        ∃ key event, cached.pollEndEvents.lookup key = some event ∧
          rights.stranger event.sender = false) := by
  have hempty : ∀ {V : Type} (m : HashMap V),
      m.entries.isEmpty = false ↔ ∃ key v, m.lookup key = some v := by
    intro V m
    rw [List.isEmpty_eq_false_iff_exists_mem]
    constructor
    · rintro ⟨⟨key, v⟩, hmem⟩
      exact ⟨key, v, List.mem_dlookup m.nodupKeys hmem⟩
    · rintro ⟨key, v, h⟩
      exact ⟨⟨key, v⟩, List.of_mem_dlookup h⟩
  have hall := hempty cached.pollEndEvents
  have hrest := hempty (withoutStrangers rights cached).pollEndEvents
  simp only [withoutStrangers, HashMap.lookup_eq_some_retain, Bool.not_eq_true'] at hrest
  have hfewer : (withoutStrangers rights cached).pollEndEvents.entries.isEmpty = false →
      cached.pollEndEvents.entries.isEmpty = false := by
    rw [hall]
    intro h
    obtain ⟨key, event, hlookup, -⟩ := hrest.mp h
    exact ⟨key, event, hlookup⟩
  rw [← hall, ← hrest]
  constructor
  · exact fun h hends => h ▸ hends
  · intro h
    rw [Bool.eq_iff_iff, ← Bool.not_eq_false, ← Bool.not_eq_false, not_iff_not]
    exact ⟨h, hfewer⟩

theorem built_unchanged_iff (o : IterationOrder) (start : PollStart) {type : PollType}
    (htype : tryIntoChat start.pollStart.kind = .ok type) (rights : PollRights)
    (cached : CachedMessage) :
    Unchanged (builtWith o start cached) (builtWith o start (withoutStrangers rights cached))
        (builtWith o start (withoutLate rights cached)) ↔
      BuiltUnaffected o start rights cached := by
  obtain ⟨ta, ha⟩ := builtWith_eq o start htype cached
  obtain ⟨tb, hb⟩ := builtWith_eq o start htype (withoutStrangers rights cached)
  obtain ⟨tc, hc⟩ := builtWith_eq o start htype (withoutLate rights cached)
  have hends : (!cached.pollEndEvents.entries.isEmpty)
      = (!(withoutStrangers rights cached).pollEndEvents.entries.isEmpty) ↔ _ :=
    (Bool.not_inj_iff).trans (isEmpty_withoutStrangers rights cached)
  unfold Unchanged
  rw [ha, hb, hc, Option.rel_some_some, Option.rel_some_some, sameTally_poll, sameTally_poll, hends]
  constructor
  · rintro ⟨⟨hends, hstrangers⟩, -, hlate⟩
    exact ⟨hends, hstrangers, hlate⟩
  · rintro ⟨hends, hstrangers, hlate⟩
    exact ⟨⟨hends, hstrangers⟩, rfl, hlate⟩

/-- Only responses are late. -/
theorem not_late_of_isEnd (rights : PollRights) (relations : List TimelineEvent)
    {relation : TimelineEvent} (h : isEnd relation = true) :
    isLateRelation rights relations relation = false := by
  unfold isEnd at h
  unfold isLateRelation
  split at h
  · next hrelation => rw [hrelation]
  · cases h

theorem not_late_of_unknown (rights : PollRights) (relations : List TimelineEvent)
    {relation : TimelineEvent} (h : IsUnknown relation) :
    isLateRelation rights relations relation = false := by
  obtain ⟨sender, block, e, hrelation, -⟩ := h
  unfold isLateRelation
  rw [hrelation]

theorem any_isEnd_withoutLate (rights : PollRights) (relations : List TimelineEvent) :
    (relationsWithoutLate rights relations).any isEnd = relations.any isEnd := by
  rw [Bool.eq_iff_iff, List.any_eq_true, List.any_eq_true]
  constructor
  · rintro ⟨relation, hmem, hend⟩
    exact ⟨relation, (List.mem_filter.mp hmem).1, hend⟩
  · rintro ⟨relation, hmem, hend⟩
    refine ⟨relation, List.mem_filter.mpr ⟨hmem, ?_⟩, hend⟩
    rw [not_late_of_isEnd rights relations hend]
    rfl

theorem unknown_withoutLate (rights : PollRights) (relations : List TimelineEvent) :
    (∃ relation ∈ relationsWithoutLate rights relations, IsUnknown relation) ↔
      ∃ relation ∈ relations, IsUnknown relation := by
  constructor
  · rintro ⟨relation, hmem, hunknown⟩
    exact ⟨relation, (List.mem_filter.mp hmem).1, hunknown⟩
  · rintro ⟨relation, hmem, hunknown⟩
    refine ⟨relation, List.mem_filter.mpr ⟨hmem, ?_⟩, hunknown⟩
    rw [not_late_of_unknown rights relations hunknown]
    rfl

theorem any_isEnd_withoutStrangers (rights : PollRights) (relations : List TimelineEvent) :
    relations.any isEnd = (relationsWithoutStrangers rights relations).any isEnd ↔
      ((∃ relation ∈ relations, isEnd relation = true) →
        ∃ relation ∈ relations, isEnd relation = true ∧ isStrange rights relation = false) := by
  have hrest : (relationsWithoutStrangers rights relations).any isEnd = true ↔
      ∃ relation ∈ relations, isEnd relation = true ∧ isStrange rights relation = false := by
    simp only [relationsWithoutStrangers, List.any_eq_true, List.mem_filter, Bool.not_eq_true']
    exact ⟨fun ⟨r, ⟨hmem, hown⟩, hend⟩ => ⟨r, hmem, hend, hown⟩,
      fun ⟨r, hmem, hend, hown⟩ => ⟨r, ⟨hmem, hown⟩, hend⟩⟩
  rw [Bool.eq_iff_iff, hrest, List.any_eq_true]
  exact ⟨fun h => h.mp, fun h => ⟨h, fun ⟨r, hmem, hend, _⟩ => ⟨r, hmem, hend⟩⟩⟩

theorem assembled_unchanged_iff (start : PollStart) {type : PollType}
    (htype : tryIntoChat start.pollStart.kind = .ok type) (rights : PollRights)
    (relations : List TimelineEvent) :
    Unchanged (assembledWith start relations)
        (assembledWith start (relationsWithoutStrangers rights relations))
        (assembledWith start (relationsWithoutLate rights relations)) ↔
      (∃ relation ∈ relationsWithoutStrangers rights relations, IsUnknown relation) ∨
        AssembledUnaffected start rights relations := by
  unfold Unchanged
  by_cases hfull : ∃ relation ∈ relations, IsUnknown relation
  · have hlate := (unknown_withoutLate rights relations).mpr hfull
    rw [assembledWith_of_unknown start htype hfull, assembledWith_of_unknown start htype hlate]
    by_cases hown : ∃ relation ∈ relationsWithoutStrangers rights relations, IsUnknown relation
    · rw [assembledWith_of_unknown start htype hown]
      exact iff_of_true ⟨Option.rel_none_none, Option.rel_none_none⟩ (Or.inl hown)
    · obtain ⟨type', hown'⟩ := assembledWith_of_known start htype hown
      rw [hown']
      refine iff_of_false (fun h => by cases h.1) ?_
      rintro (hunknown | hunaffected)
      · exact hown hunknown
      · obtain ⟨relation, hmem, hrelation⟩ := hfull
        exact hunaffected.known relation hmem hrelation
  · have hown : ¬ ∃ relation ∈ relationsWithoutStrangers rights relations, IsUnknown relation :=
      fun ⟨relation, hmem, hrelation⟩ => hfull ⟨relation, (List.mem_filter.mp hmem).1, hrelation⟩
    have hlate := mt (unknown_withoutLate rights relations).mp hfull
    obtain ⟨ta, ha⟩ := assembledWith_of_known start htype hfull
    obtain ⟨tb, hb⟩ := assembledWith_of_known start htype hown
    obtain ⟨tc, hc⟩ := assembledWith_of_known start htype hlate
    rw [ha, hb, hc, Option.rel_some_some, Option.rel_some_some, sameTally_poll, sameTally_poll,
      any_isEnd_withoutStrangers, any_isEnd_withoutLate]
    constructor
    · rintro ⟨⟨hends, hstrangers⟩, -, hlate⟩
      exact .inr ⟨fun relation hmem hrelation => hfull ⟨relation, hmem, hrelation⟩, hends,
        hstrangers,
        hlate⟩
    · rintro (hunknown | ⟨-, hends, hstrangers, hlate⟩)
      · exact absurd hunknown hown
      · exact ⟨⟨hends, hstrangers⟩, rfl, hlate⟩

/-- When the completed flag, the options and the tally stay the same without what strangers have
    done and without the late responses, on both paths. -/
theorem unchanged_iff (o : IterationOrder) (mayRedact : String → Bool) (start : PollStart)
    (cached : CachedMessage) (relations : List TimelineEvent) :
    let rights := start.rights mayRedact
    (Unchanged (builtWith o start cached) (builtWith o start (withoutStrangers rights cached))
        (builtWith o start (withoutLate rights cached)) ↔
      (∃ name, start.pollStart.kind = .custom name) ∨ BuiltUnaffected o start rights cached) ∧
    (Unchanged (assembledWith start relations)
        (assembledWith start (relationsWithoutStrangers rights relations))
        (assembledWith start (relationsWithoutLate rights relations)) ↔
      (∃ name, start.pollStart.kind = .custom name) ∨
      (∃ relation ∈ relationsWithoutStrangers rights relations, IsUnknown relation) ∨
        AssembledUnaffected start rights relations) := by
  intro rights
  cases hkind : start.pollStart.kind with
  | custom name =>
    have htype : tryIntoChat start.pollStart.kind = .error .invalidPollType := by
      rw [hkind]
      rfl
    have hbuilt : ∀ cached, builtWith o start cached = none := by
      intro cached
      unfold builtWith assemblePollStart
      rw [htype]
    have hassembled : ∀ relations, assembledWith start relations = none := by
      intro relations
      unfold assembledWith
      rw [assemblePoll_error start htype]
      rfl
    unfold Unchanged
    simp only [hbuilt, hassembled]
    exact ⟨iff_of_true ⟨Option.rel_none_none, Option.rel_none_none⟩ (.inl ⟨name, rfl⟩),
      iff_of_true ⟨Option.rel_none_none, Option.rel_none_none⟩ (.inl ⟨name, rfl⟩)⟩
  | disclosed | undisclosed =>
    have htype : ∃ type, tryIntoChat start.pollStart.kind = .ok type := by
      rw [hkind]
      exact ⟨_, rfl⟩
    obtain ⟨type, htype⟩ := htype
    simp only [reduceCtorEq, exists_false, false_or]
    exact ⟨built_unchanged_iff o start htype rights cached,
      assembled_unchanged_iff start htype rights relations⟩

/-! ## A poll that a stranger ends -/

/-- Bob, who did not create the poll, ends it. -/
def endedByBob : PollRelation where
  eventId := "$end"
  sender := "@bob"
  originServerTs := 40
  roomId := "!room"
  body := .ended
  decrypted := true
  timestamp := some 40
  supported := nofun

theorem Unchanged.completed {poll withoutStrangers withoutLate : Option MessageContentPoll}
    (h : Unchanged poll withoutStrangers withoutLate) :
    poll.map MessageContentPoll.completed
      = withoutStrangers.map MessageContentPoll.completed := by
  cases h.1 with
  | none => rfl
  | some hsame => rw [Option.map_some, Option.map_some, hsame.completed]

/-- The poll is completed on both paths, and would not be without Bob. -/
theorem stranger_closes_poll :
    let rights := lunch.rights fun _ => false
    let cached := cacheAll "$poll" [yes 30, endedByBob]
    let relations := [yes 30, endedByBob].map fun r => r.event "$poll"
    ¬ Unchanged (builtWith .entries lunch cached)
        (builtWith .entries lunch (withoutStrangers rights cached))
        (builtWith .entries lunch (withoutLate rights cached)) ∧
      ¬ Unchanged (assembledWith lunch relations)
        (assembledWith lunch (relationsWithoutStrangers rights relations))
        (assembledWith lunch (relationsWithoutLate rights relations)) := by
  intro rights cached relations
  constructor
  · exact fun h => absurd h.completed (by decide +kernel)
  · exact fun h => absurd h.completed (by decide +kernel)

end GoudaMatrix.Polls
