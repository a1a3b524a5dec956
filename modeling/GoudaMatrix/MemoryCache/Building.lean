/-
  What `build_from_original` makes of an original, for every state of the cached message and every
  iteration order of its maps.

  `Built` says the result without the iteration order: what it leaves open is the order of the
  reactions and the choice among events with one timestamp. `buildFromOriginal_built`: every
  build is such a result, leaves the cached relations alone and stores the unmodified original, so
  that all builds of a run of them are results of the one state and reactions do not accumulate.
-/
import GoudaMatrix.MemoryCache.Confluence
import GoudaMatrix.MemoryCache.View

namespace GoudaMatrix.MemoryCache

open GoudaMatrix.Lib GoudaMatrix.Ruma GoudaMatrix.Polls

namespace CachedMessage

variable (cached : CachedMessage)

/-! ## The specification -/

/-- One reaction per cached reaction, with the ids of the message, in any order. -/
def ReactionsOf (original : Message) (reactions : List Reaction) : Prop :=
  reactions.Perm (cached.reactions.entries.map fun entry =>
    ⟨original.roomId, original.messageId, entry.2.emoji, some entry.2.userId⟩)

/-- The poll with a newest edit, then all responses by their timestamps, then the ends. -/
def Rebuilt (poll poll' : MessageContentPoll) : Prop :=
  ∃ (edited : MessageContentPoll)
    (responses : List (OriginalEvent UnstablePollResponseEventContent)),
    (cached.pollReplacementEvents.entries = [] ∧ edited = poll ∨
      ∃ edit, Newest OriginalEvent.originServerTs
          (fun edit => ∃ id, cached.pollReplacementEvents.lookup id = some edit) edit ∧
        edited = (replaceContent poll edit.content.pollStart).2) ∧
    responses.Perm (cached.pollResponseEvents.entries.map Sigma.snd) ∧
    (responses.Pairwise fun a b => a.originServerTs ≤ b.originServerTs) ∧
    poll' =
      { addAnswers edited (responses.map fun event => (event.sender, event.content.answers)) with
        completed := poll.completed || !cached.pollEndEvents.entries.isEmpty }

/-- A newest replacement of the content, if there is one. -/
def BuiltOther (original message : Message) : Prop :=
  ∃ reactions, cached.ReactionsOf original reactions ∧
    (cached.replacements.entries = [] ∧
        message = { original with reactions := original.reactions ++ reactions } ∨
      ∃ replacement, Newest CachedReplacement.timestamp
          (fun replacement => ∃ id, cached.replacements.lookup id = some replacement) replacement ∧
        message =
          { original with
            content := some replacement.newContent
            edited := true
            reactions := original.reactions ++ reactions })

/-- What may be shown of the original. -/
def Built (original message : Message) : Prop :=
  match original.content with
  | some (.removed reason) =>
    message =
      { original with
        content := some (.removed (match cached.redaction with
          | some redaction => redaction.content.reason
          | none => reason)) }
  | some (.poll poll) =>
    ∃ poll' reactions, cached.Rebuilt poll poll' ∧ cached.ReactionsOf original reactions ∧
      message =
        { original with
          content := some (.poll poll')
          reactions := original.reactions ++ reactions }
  | _ => cached.BuiltOther original message

/-- Events that are sorted by their timestamps differ in them. -/
structure NoTies : Prop where
  replacements : ∀ id id' v v', cached.replacements.lookup id = some v →
    cached.replacements.lookup id' = some v' → v.timestamp = v'.timestamp → v = v'
  pollReplacements : ∀ id id' v v', cached.pollReplacementEvents.lookup id = some v →
    cached.pollReplacementEvents.lookup id' = some v' → v.originServerTs = v'.originServerTs →
      v = v'
  pollResponses : ∀ id id' v v', cached.pollResponseEvents.lookup id = some v →
    cached.pollResponseEvents.lookup id' = some v' → v.originServerTs = v'.originServerTs → v = v'

/-! ## Every build is such a result -/

variable {cached}

theorem newest_of_getLast? {V : Type} {o : IterationOrder} {key : V → Nat} {m : HashMap V} {v : V}
    (h : (sortByKey key (m.values o)).getLast? = some v) :
    Newest key (fun v => ∃ id, m.lookup id = some v) v := by
  obtain ⟨hmem, hmax⟩ := getLast?_sortByKey h
  exact ⟨HashMap.mem_values.mp hmem, fun w hw => hmax w (HashMap.mem_values.mpr hw)⟩

theorem entries_of_getLast? {V : Type} {o : IterationOrder} {key : V → Nat} {m : HashMap V}
    (h : (sortByKey key (m.values o)).getLast? = none) : m.entries = [] := by
  have hvalues := getLast?_sortByKey_eq_none.mp h
  rw [← List.isEmpty_iff, ← HashMap.isEmpty_values o, hvalues]
  rfl

theorem reactionsOf_reactionList (o : IterationOrder) (cached : CachedMessage)
    (original : Message) :
    cached.ReactionsOf original (cached.reactionList o original.roomId original.messageId) := by
  have h := (HashMap.values_perm o cached.reactions).map fun reaction =>
    (⟨original.roomId, original.messageId, reaction.emoji, some reaction.userId⟩ : Reaction)
  rwa [List.map_map] at h

theorem rebuilt_apply (o : IterationOrder) (cached : CachedMessage) (poll : MessageContentPoll) :
    cached.Rebuilt poll (cached.applyPollEnds (cached.applyPollResponses o
      (cached.applyPollReplacements o poll))) := by
  have hcompleted : (cached.applyPollReplacements o poll).completed = poll.completed := by
    unfold applyPollReplacements
    simp only
    split
    · exact RelationSet.completed_replaceContent poll _
    · rfl
  refine ⟨cached.applyPollReplacements o poll,
    sortByKey OriginalEvent.originServerTs (cached.pollResponseEvents.values o), ?_,
    (sortByKey_perm _ _).trans (HashMap.values_perm o _), sortByKey_pairwise _ _, ?_⟩
  · unfold applyPollReplacements
    simp only
    split
    · next edit hlast => exact .inr ⟨edit, newest_of_getLast? hlast, rfl⟩
    · next hlast => exact .inl ⟨entries_of_getLast? hlast, rfl⟩
  · have hsame := (addAnswers_sameButVoters (cached.applyPollReplacements o poll)
      ((sortByKey OriginalEvent.originServerTs (cached.pollResponseEvents.values o)).map
        fun event => (event.sender, event.content.answers))).completed
    have hresponses : cached.applyPollResponses o (cached.applyPollReplacements o poll)
        = addAnswers (cached.applyPollReplacements o poll)
          ((sortByKey OriginalEvent.originServerTs (cached.pollResponseEvents.values o)).map
            fun event => (event.sender, event.content.answers)) := by
      simp only [applyPollResponses, addAnswers, List.foldl_map]
    rw [hresponses]
    unfold applyPollEnds
    split
    · next h => rw [h, Bool.not_true, Bool.or_false, ← hcompleted, ← hsame]
    · next h => simp [h]

theorem builtOther_buildOther (o : IterationOrder) (cached : CachedMessage) (original : Message) :
    cached.BuiltOther original (cached.buildOther o original) := by
  refine ⟨_, reactionsOf_reactionList o cached original, ?_⟩
  unfold buildOther applyReplacements
  split
  · next replacement hlast => exact .inr ⟨replacement, newest_of_getLast? hlast, rfl⟩
  · next hlast => exact .inl ⟨entries_of_getLast? hlast, rfl⟩

theorem built_buildFromOriginal (o : IterationOrder) (cached : CachedMessage)
    (original : Message) : cached.Built original (cached.buildFromOriginal o original).1 := by
  unfold Built
  split
  · next reason hcontent =>
    simp only [buildFromOriginal, hcontent, buildRemoved]
    cases cached.redaction <;> rfl
  · next poll hcontent =>
    simp only [buildFromOriginal, hcontent]
    exact ⟨_, _, rebuilt_apply o cached poll, reactionsOf_reactionList o cached original, rfl⟩
  · next hremoved hpoll =>
    have hbuild : (cached.buildFromOriginal o original).1 = cached.buildOther o original := by
      unfold buildFromOriginal
      split
      · next reason hcontent => exact (hremoved reason hcontent).elim
      · next poll hcontent => exact (hpoll poll hcontent).elim
      · rfl
    rw [hbuild]
    exact builtOther_buildOther o cached original

/-! ## Two results of one state -/

theorem Rebuilt.unique (h : cached.NoTies) {poll a b : MessageContentPoll}
    (ha : cached.Rebuilt poll a) (hb : cached.Rebuilt poll b) : a = b := by
  obtain ⟨edited, responses, hedit, hperm, hsorted, rfl⟩ := ha
  obtain ⟨edited', responses', hedit', hperm', hsorted', rfl⟩ := hb
  have hedited : edited = edited' := by
    rcases hedit with ⟨hnone, rfl⟩ | ⟨edit, ⟨⟨id, hlookup⟩, hmax⟩, rfl⟩
    · rcases hedit' with ⟨-, rfl⟩ | ⟨edit', ⟨⟨id', hlookup'⟩, -⟩, -⟩
      · rfl
      · rw [AList.lookup, hnone] at hlookup'
        cases hlookup'
    · rcases hedit' with ⟨hnone, -⟩ | ⟨edit', ⟨⟨id', hlookup'⟩, hmax'⟩, rfl⟩
      · rw [AList.lookup, hnone] at hlookup
        cases hlookup
      · rw [h.pollReplacements id id' edit edit' hlookup hlookup'
          (Nat.le_antisymm (hmax' edit ⟨id, hlookup⟩) (hmax edit' ⟨id', hlookup'⟩))]
  have hresponses : responses = responses' := by
    refine (hperm.trans hperm'.symm).eq_of_pairwise
      (fun e e' he he' hle hle' => ?_) hsorted hsorted'
    rw [hperm.mem_iff, ← (HashMap.values_perm .entries _).mem_iff, HashMap.mem_values] at he
    rw [hperm'.mem_iff, ← (HashMap.values_perm .entries _).mem_iff, HashMap.mem_values] at he'
    obtain ⟨id, he⟩ := he
    obtain ⟨id', he'⟩ := he'
    exact h.pollResponses id id' e e' he he' (Nat.le_antisymm hle hle')
  rw [hedited, hresponses]

theorem BuiltOther.reactions_perm {original a b : Message} (ha : cached.BuiltOther original a)
    (hb : cached.BuiltOther original b) : a.reactions.Perm b.reactions := by
  have hreactions : ∀ {message}, cached.BuiltOther original message →
      ∃ reactions, cached.ReactionsOf original reactions ∧
        message.reactions = original.reactions ++ reactions := by
    rintro message ⟨reactions, hperm, ⟨-, rfl⟩ | ⟨replacement, -, rfl⟩⟩
    · exact ⟨reactions, hperm, rfl⟩
    · exact ⟨reactions, hperm, rfl⟩
  obtain ⟨reactions, hperm, ha⟩ := hreactions ha
  obtain ⟨reactions', hperm', hb⟩ := hreactions hb
  rw [ha, hb]
  exact (hperm.trans hperm'.symm).append_left original.reactions

theorem BuiltOther.unique (h : cached.NoTies) {original a b : Message}
    (ha : cached.BuiltOther original a) (hb : cached.BuiltOther original b) :
    { a with reactions := b.reactions } = b := by
  obtain ⟨reactions, -, ⟨hnone, rfl⟩ | ⟨edit, ⟨⟨id, hlookup⟩, hmax⟩, rfl⟩⟩ := ha
  · obtain ⟨reactions', -, ⟨-, rfl⟩ | ⟨edit', ⟨⟨id', hlookup'⟩, -⟩, -⟩⟩ := hb
    · rfl
    · rw [AList.lookup, hnone] at hlookup'
      cases hlookup'
  · obtain ⟨reactions', -, ⟨hnone, -⟩ | ⟨edit', ⟨⟨id', hlookup'⟩, hmax'⟩, rfl⟩⟩ := hb
    · rw [AList.lookup, hnone] at hlookup
      cases hlookup
    · rw [h.replacements id id' edit edit' hlookup hlookup'
        (Nat.le_antisymm (hmax' edit ⟨id, hlookup⟩) (hmax edit' ⟨id', hlookup'⟩))]

/-- Two results for one original come from the same route. -/
theorem Built.same_route {original a b : Message} (ha : cached.Built original a)
    (hb : cached.Built original b) :
    a = b ∨ cached.BuiltOther original a ∧ cached.BuiltOther original b ∨
      ∃ poll polla pollb reactionsa reactionsb,
        (cached.Rebuilt poll polla ∧ cached.ReactionsOf original reactionsa ∧
          a = { original with
            content := some (.poll polla)
            reactions := original.reactions ++ reactionsa }) ∧
        cached.Rebuilt poll pollb ∧ cached.ReactionsOf original reactionsb ∧
          b = { original with
            content := some (.poll pollb)
            reactions := original.reactions ++ reactionsb } := by
  unfold Built at ha hb
  split at ha
  · next reason hcontent =>
    rw [hcontent] at hb
    exact .inl (ha.trans hb.symm)
  · next poll hcontent =>
    rw [hcontent] at hb
    obtain ⟨polla, reactionsa, ha⟩ := ha
    obtain ⟨pollb, reactionsb, hb⟩ := hb
    exact .inr (.inr ⟨poll, polla, pollb, reactionsa, reactionsb, ha, hb⟩)
  · next hremoved hpoll =>
    split at hb
    · next reason hcontent => exact (hremoved reason hcontent).elim
    · next poll hcontent => exact (hpoll poll hcontent).elim
    · exact .inr (.inl ⟨ha, hb⟩)

theorem Built.reactions_perm {original a b : Message} (ha : cached.Built original a)
    (hb : cached.Built original b) : a.reactions.Perm b.reactions := by
  rcases ha.same_route hb with rfl | ⟨ha, hb⟩
    | ⟨poll, polla, pollb, reactionsa, reactionsb, ⟨-, hperma, rfl⟩, -, hpermb, rfl⟩
  · exact List.Perm.refl _
  · exact ha.reactions_perm hb
  · exact (hperma.trans hpermb.symm).append_left original.reactions

theorem Built.unique (h : cached.NoTies) {original a b : Message} (ha : cached.Built original a)
    (hb : cached.Built original b) : { a with reactions := b.reactions } = b := by
  rcases ha.same_route hb with rfl | ⟨ha, hb⟩
    | ⟨poll, polla, pollb, reactionsa, reactionsb, ⟨hpolla, -, rfl⟩, hpollb, -, rfl⟩
  · rfl
  · exact ha.unique h hb
  · rw [hpolla.unique h hpollb]

/-! ## Repeated builds -/

/-- The messages of several builds from the same original, each with its iteration order. -/
def builds (original : Message) (cached : CachedMessage) : List IterationOrder → List Message
  | [] => []
  | o :: os =>
    (cached.buildFromOriginal o original).1 :: builds original
      (cached.buildFromOriginal o original).2 os

/-- A build changes only the original, which the result does not depend on. -/
theorem built_of_mem_builds (cached : CachedMessage) {original message : Message}
    {os : List IterationOrder} (h : message ∈ builds original cached os) :
    cached.Built original message := by
  induction os generalizing cached with
  | nil => cases h
  | cons o os ih =>
    rcases List.mem_cons.mp h with rfl | h
    · exact built_buildFromOriginal o cached original
    · exact ih { cached with original := some original } h

/-- The build, and what repeated builds agree in. -/
theorem buildFromOriginal_built (o : IterationOrder) (cached : CachedMessage)
    (original : Message) (os : List IterationOrder) :
    cached.Built original (cached.buildFromOriginal o original).1 ∧
    (cached.buildFromOriginal o original).2 = { cached with original := some original } ∧
    ∀ message ∈ builds original (cached.buildFromOriginal o original).2 os,
      cached.Built original message ∧
      message.reactions.Perm (cached.buildFromOriginal o original).1.reactions ∧
      (cached.NoTies →
        { message with reactions := (cached.buildFromOriginal o original).1.reactions }
          = (cached.buildFromOriginal o original).1) := by
  have hbuilt := built_buildFromOriginal o cached original
  refine ⟨hbuilt, rfl, fun message hmem => ?_⟩
  have hmessage : cached.Built original message :=
    built_of_mem_builds { cached with original := some original } hmem
  exact ⟨hmessage, hmessage.reactions_perm hbuilt, fun h => hmessage.unique h hbuilt⟩

end CachedMessage

/-- The build of `cache_and_build_message`, and what it leaves in the room. -/
theorem assembleMessage_built {M : Type} (env : RoomEnv M) (room : CachedRoom M)
    (original : Message) (id : String) :
    (room.cachedAt original.messageId).Built original (room.assembleMessage env original).1 ∧
    (room.assembleMessage env original).2.cachedAt id
      = if id = original.messageId then { room.cachedAt id with original := some original }
        else room.cachedAt id := by
  rw [CachedRoom.assembleMessage_message]
  exact ⟨CachedMessage.built_buildFromOriginal _ _ _,
    CachedRoom.cachedAt_assembleMessage env room id original⟩

end GoudaMatrix.MemoryCache
