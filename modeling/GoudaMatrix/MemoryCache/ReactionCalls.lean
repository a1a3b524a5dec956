/-
  Calls of `cache_reaction`, `remove_reaction_by_id` and `remove_reaction_by_emoji` that interleave.
  The messages and the index have a lock each. That of the index is taken for one access at a time;
  that of the messages is held while a call changes a message and then the index. Only the first
  lookup of `remove_reaction_by_id` is made without it.

  The invariant is that the maps will agree at the end of the section that is running.
  `indexes_agree`: whenever the messages are not locked, the maps agree, and a reaction is returned
  at most once for each time it was newly cached.
-/
import GoudaMatrix.Lib.Run
import GoudaMatrix.MemoryCache.Reactions

namespace GoudaMatrix.MemoryCache

open GoudaMatrix.Lib GoudaMatrix.Ruma

/-! ## Interleavings -/

/-- The other operations on the messages, each a single section of their lock. -/
inductive CacheOp where
  | replacement (originalMessageId replacementId : String) (cached : CachedReplacement)
  | redaction (event : OriginalEvent RoomRedactionEventContent) (redactedMessageId : String)
  | pollReplacement (messageId : String) (event : OriginalEvent UnstablePollStartEventContent)
  | pollResponse (messageId : String) (event : OriginalEvent UnstablePollResponseEventContent)
  | pollEnd (messageId : String) (event : OriginalEvent UnstablePollEndEventContent)
  | assemble (original : Message)

inductive Call where
  | cacheReaction (reactionId : String)
  | removeReactionById (reactionId : String)
  | removeReactionByEmoji (messageId userId emoji : String)
  | perform (op : CacheOp)

/-- Where a call is: before which access. -/
inductive Stage where
  | caching (reactionId : String)
  /-- The reaction is in its message, but not yet in the index. -/
  | indexing (reactionId : String)
  | finding (reactionId : String)
  | removing (reactionId messageId : String)
  | removingByEmoji (messageId userId emoji : String)
  /-- The reactions are not in their message any more, but still in the index. -/
  | cleaning (reactionIds : List String) (removed : Option ReactionMetadata)
  | performing (op : CacheOp)
  | returned (removed : Option ReactionMetadata)

def Call.first : Call → Stage
  | .cacheReaction reactionId => .caching reactionId
  | .removeReactionById reactionId => .finding reactionId
  | .removeReactionByEmoji messageId userId emoji => .removingByEmoji messageId userId emoji
  | .perform op => .performing op

/-- The call holds the lock of the messages. -/
def Stage.inside : Stage → Bool
  | .indexing _ | .cleaning _ _ => true
  | _ => false

/-- The next access takes the lock of the messages. -/
def Stage.waits : Stage → Bool
  | .caching _ | .removing _ _ | .removingByEmoji _ _ _ | .performing _ => true
  | _ => false

structure Calls (M : Type) where
  room : CachedRoom M
  /-- The call that holds the lock of the messages. -/
  holder : Option Nat
  stages : List Stage
  /-- The reactions that have been newly cached (history variable). -/
  fresh : List String

inductive CallAction where
  | start (call : Call)
  | access (i : Nat)

section Interleaving

variable {M : Type} (env : RoomEnv M) (reactions : ReactionTable)

def CacheOp.perform (room : CachedRoom M) : CacheOp → CachedRoom M
  | .replacement originalMessageId replacementId cached =>
    room.cacheReplacement originalMessageId replacementId cached
  | .redaction event redactedMessageId => room.cacheRedaction event redactedMessageId
  | .pollReplacement messageId event => room.cachePollReplacementEvent messageId event
  | .pollResponse messageId event => room.cachePollResponseEvent messageId event
  | .pollEnd messageId event => room.cachePollEndEvent messageId event
  | .assemble original => (room.assembleMessage env original).2

/-- The next access of a call: what it leaves of the room, and where the call is then. -/
def Stage.next (room : CachedRoom M) : Stage → Option (CachedRoom M × Stage)
  | .caching reactionId =>
    some (room.insertReaction (reactions reactionId).messageId reactionId
      (reactions reactionId).reaction, .indexing reactionId)
  | .indexing reactionId =>
    some (room.indexReaction (reactions reactionId).messageId reactionId, .returned none)
  | .finding reactionId =>
    match room.reactionIdToMessageId reactionId with
    | none => some (room, .returned none)
    | some messageId => some (room, .removing reactionId messageId)
  | .removing reactionId messageId =>
    match room.takeReaction messageId reactionId with
    | (none, room) => some (room, .returned none)
    | (some removed, room) =>
      some (room, .cleaning [reactionId] (some (.new removed reactionId messageId env.roomId)))
  | .removingByEmoji messageId userId emoji =>
    match room.takeReactions env messageId userId emoji with
    | (removed, room) =>
      some (room,
        .cleaning (removed.map Sigma.fst) (CachedRoom.firstMetadata env messageId removed))
  | .cleaning [] removed => some (room, .returned removed)
  | .cleaning (reactionId :: reactionIds) removed =>
    some (room.cleanupReaction reactionId, .cleaning reactionIds removed)
  | .performing op => some (op.perform env room, .returned none)
  | .returned _ => none

/-- The reaction that an access caches for the first time, or again after its removal. -/
def Stage.newlyCached (room : CachedRoom M) : Stage → List String
  | .caching reactionId =>
    if reactionId ∈ (room.cachedAt (reactions reactionId).messageId).reactions then []
    else [reactionId]
  | _ => []

/-- The calls after one access; a call that needs the lock of the messages waits for it. -/
def Calls.access (s : Calls M) (i : Nat) : Option (Calls M) :=
  match s.stages[i]? with
  | none => none
  | some stage =>
    if stage.waits && s.holder.isSome then none
    else
      match stage.next env reactions s.room with
      | none => none
      | some (room, next) =>
        some
          { room
            holder := if next.inside then some i else if stage.inside then none else s.holder
            stages := s.stages.set i next
            fresh := stage.newlyCached reactions s.room ++ s.fresh }

/-- The calls of one room. -/
def calls : System (Calls M) CallAction where
  step s
    | .start call => some { s with stages := s.stages ++ [call.first] }
    | .access i => s.access env reactions i

/-- A room that is new and has no calls. -/
def Calls.start (media : M) : Calls M := ⟨.new media, none, [], []⟩

/-! ## One access -/

/-- The room once the section is finished that a call is in. -/
def Stage.finish (room : CachedRoom M) : Stage → CachedRoom M
  | .indexing reactionId => room.indexReaction (reactions reactionId).messageId reactionId
  | .cleaning reactionIds _ => room.cleanupReactions reactionIds
  | _ => room

/-- The call has removed the reaction, and returns it or has returned it. -/
def Stage.gives (reactionId : String) : Stage → Bool
  | .cleaning _ (some removed) | .returned (some removed) => removed.reactionId = reactionId
  | _ => false

/-- The call has returned the reaction. -/
def Stage.returns (reactionId : String) : Stage → Bool
  | .returned (some removed) => removed.reactionId = reactionId
  | _ => false

/-- Whether the reaction is cached, as a number. -/
def cachedCount (room : CachedRoom M) (reactionId : String) : Nat :=
  if reactionId ∈ (room.cachedAt (reactions reactionId).messageId).reactions then 1 else 0

/-- What an access can do. -/
inductive Access (room : CachedRoom M) : Stage → CachedRoom M → Stage → Prop
  | insert (reactionId : String) :
    Access room (.caching reactionId)
      (room.insertReaction (reactions reactionId).messageId reactionId
        (reactions reactionId).reaction) (.indexing reactionId)
  | index (reactionId : String) :
    Access room (.indexing reactionId)
      (room.indexReaction (reactions reactionId).messageId reactionId) (.returned none)
  | notFound (reactionId : String) : Access room (.finding reactionId) room (.returned none)
  | found (reactionId messageId : String) :
    Access room (.finding reactionId) room (.removing reactionId messageId)
  | gone (reactionId messageId : String) :
    Access room (.removing reactionId messageId) room (.returned none)
  | take {reactionId messageId : String} {removed : CachedReaction} {room' : CachedRoom M}
      (h : room.takeReaction messageId reactionId = (some removed, room')) :
    Access room (.removing reactionId messageId) room'
      (.cleaning [reactionId] (some (.new removed reactionId messageId env.roomId)))
  | takeAll {messageId userId emoji : String}
      {removed : List (Sigma fun _ : String => CachedReaction)}
      {room' : CachedRoom M} (h : room.takeReactions env messageId userId emoji
        = (removed, room')) :
    Access room (.removingByEmoji messageId userId emoji) room'
      (.cleaning (removed.map Sigma.fst) (CachedRoom.firstMetadata env messageId removed))
  | cleanUp (reactionId : String) (reactionIds : List String) (removed : Option ReactionMetadata) :
    Access room (.cleaning (reactionId :: reactionIds) removed) (room.cleanupReaction reactionId)
      (.cleaning reactionIds removed)
  | finish (removed : Option ReactionMetadata) :
    Access room (.cleaning [] removed) room (.returned removed)
  | perform (op : CacheOp) : Access room (.performing op) (op.perform env room) (.returned none)

variable {env} {reactions} {room room' : CachedRoom M} {stage stage' : Stage}

theorem access_of_next (h : stage.next env reactions room = some (room', stage')) :
    Access env reactions room stage room' stage' := by
  cases stage with
  | caching reactionId =>
    cases h
    exact .insert reactionId
  | indexing reactionId =>
    cases h
    exact .index reactionId
  | finding reactionId =>
    simp only [Stage.next] at h
    cases hfound : room.reactionIdToMessageId reactionId with
    | none =>
      rw [hfound] at h
      cases h
      exact .notFound reactionId
    | some messageId =>
      rw [hfound] at h
      cases h
      exact .found reactionId messageId
  | removing reactionId messageId =>
    simp only [Stage.next] at h
    cases htaken : room.takeReaction messageId reactionId with
    | mk removed taken =>
      rw [htaken] at h
      cases removed with
      | none =>
        cases h
        rw [(room.takeReaction_eq_none htaken).2]
        exact .gone reactionId messageId
      | some removed =>
        cases h
        exact .take htaken
  | removingByEmoji messageId userId emoji =>
    simp only [Stage.next] at h
    cases htaken : room.takeReactions env messageId userId emoji with
    | mk removed taken =>
      rw [htaken] at h
      cases h
      exact .takeAll htaken
  | cleaning reactionIds removed =>
    cases reactionIds with
    | nil =>
      cases h
      exact .finish removed
    | cons reactionId reactionIds =>
      cases h
      exact .cleanUp reactionId reactionIds removed
  | performing op =>
    cases h
    exact .perform op
  | returned removed => cases h

variable (env) in
theorem perform_unchanged (op : CacheOp) (room : CachedRoom M) :
    (op.perform env room).reactionIdToMessage = room.reactionIdToMessage ∧
      ∀ id, ((op.perform env room).cachedAt id).reactions = (room.cachedAt id).reactions := by
  refine ⟨by cases op <;> rfl, fun id => ?_⟩
  cases op with
  | assemble original =>
    simp only [CacheOp.perform, CachedRoom.cachedAt_assembleMessage]
    split <;> rfl
  | replacement | redaction | pollReplacement | pollResponse | pollEnd =>
    simp only [CacheOp.perform, CachedRoom.cacheReplacement, CachedRoom.cacheRedaction,
      CachedRoom.cachePollReplacementEvent, CachedRoom.cachePollResponseEvent,
      CachedRoom.cachePollEndEvent, CachedRoom.cachedAt_modifyMessage]
    split <;> rfl

theorem count_insert (room : CachedRoom M) (newId reactionId : String) :
    0 + cachedCount reactions (room.insertReaction (reactions newId).messageId newId
        (reactions newId).reaction) reactionId
      ≤ 0 + cachedCount reactions room reactionId
        + ((Stage.caching newId).newlyCached reactions room).count reactionId := by
  unfold cachedCount Stage.newlyCached
  rw [reactions_insertReaction]
  by_cases hid : reactionId = newId
  · subst hid
    by_cases hcached : reactionId ∈ (room.cachedAt (reactions reactionId).messageId).reactions
    · simp [hcached]
    · simp [hcached]
  · have hmem : ∀ reaction, reactionId ∈ AList.insert newId reaction
        (room.cachedAt (reactions reactionId).messageId).reactions ↔
          reactionId ∈ (room.cachedAt (reactions reactionId).messageId).reactions :=
      fun reaction => by rw [AList.mem_insert, or_iff_right hid]
    split <;> simp [hmem]

theorem Removes.count {messageId : String} {removed : List String}
    (h : Removes room room' messageId removed) (hplaced : Placed reactions room)
    (reactionId : String) :
    cachedCount reactions room' reactionId + (if reactionId ∈ removed then 1 else 0)
      ≤ cachedCount reactions room reactionId := by
  unfold cachedCount
  simp only [h.mem_iff]
  by_cases hmem : reactionId ∈ removed
  · have hcached := h.cached reactionId hmem
    have hmessage := hplaced.messageId hcached
    simp [hmem, hmessage, hcached]
  · simp [hmem]

namespace Access

theorem placed (h : Access env reactions room stage room' stage')
    (hplaced : Placed reactions room) :
    Placed reactions room' := by
  cases h with
  | insert reactionId => exact hplaced.insertReaction reactionId
  | take htaken => exact (removes_takeReaction htaken).placed hplaced
  | takeAll htaken => exact (removes_takeReactions htaken).placed hplaced
  | perform op =>
    intro messageId reactionId reaction hlookup
    rw [(perform_unchanged env op room).2] at hlookup
    exact hplaced _ _ _ hlookup
  | index | notFound | found | gone | cleanUp | finish => exact hplaced

/-- The maps agree at the end of every section, if they agree at the end of the one before. -/
theorem agree (h : Access env reactions room stage room' stage') (hplaced : Placed reactions room)
    (hagree : (stage.finish reactions room).Agree) : (stage'.finish reactions room').Agree := by
  cases h with
  | insert reactionId => exact agree_cacheReaction hplaced hagree reactionId
  | take htaken => exact (removes_takeReaction htaken).agree hplaced hagree
  | takeAll htaken => exact (removes_takeReactions htaken).agree hplaced hagree
  | perform op =>
    obtain ⟨hindex, hreactions⟩ := perform_unchanged env op room
    intro reactionId messageId
    show AList.lookup reactionId (op.perform env room).reactionIdToMessage = some messageId ↔ _
    rw [hindex]
    show _ ↔ reactionId ∈ ((op.perform env room).cachedAt messageId).reactions
    rw [hreactions]
    exact hagree reactionId messageId
  | index | notFound | found | gone | cleanUp | finish => exact hagree

/-- Without the lock of the messages nothing is changed. -/
theorem outside (h : Access env reactions room stage room' stage') (hwaits : stage.waits = false)
    (hinside : stage.inside = false) : room' = room ∧ stage'.inside = false := by
  cases h with
  | notFound | found => exact ⟨rfl, rfl⟩
  | insert | gone | take | takeAll | perform => cases hwaits
  | index | cleanUp | finish => cases hinside

/-- A reaction that a call gives from now on was cached or has been newly cached before. -/
theorem count (h : Access env reactions room stage room' stage') (hplaced : Placed reactions room)
    (reactionId : String) :
    (if stage'.gives reactionId then 1 else 0) + cachedCount reactions room' reactionId
      ≤ (if stage.gives reactionId then 1 else 0) + cachedCount reactions room reactionId
        + (stage.newlyCached reactions room).count reactionId := by
  cases h with
  | insert newId => exact count_insert room newId reactionId
  | take htaken =>
    have hcount := (removes_takeReaction htaken).count hplaced reactionId
    simpa [Stage.gives, Stage.newlyCached, ReactionMetadata.new, Nat.add_comm, eq_comm] using hcount
  | @takeAll messageId userId emoji removed _ htaken =>
    have hcount := (removes_takeReactions htaken).count hplaced reactionId
    have hgives : (Stage.cleaning (removed.map Sigma.fst)
        (CachedRoom.firstMetadata env messageId removed)).gives reactionId = true →
          reactionId ∈ removed.map Sigma.fst := by
      cases removed with
      | nil => exact nofun
      | cons entry removed =>
        intro hfirst
        exact List.mem_map.mpr ⟨entry, List.mem_cons_self, of_decide_eq_true hfirst⟩
    show _ + cachedCount reactions room' reactionId ≤ 0 + cachedCount reactions room reactionId + 0
    split
    · next hfirst =>
      rw [if_pos (hgives hfirst)] at hcount
      omega
    · omega
  | perform op =>
    have hsame : cachedCount reactions (op.perform env room) reactionId
        = cachedCount reactions room reactionId := by
      unfold cachedCount
      rw [(perform_unchanged env op room).2]
    exact Nat.le_of_eq (congrArg (0 + ·) hsame)
  | cleanUp _ _ removed | finish removed => cases removed <;> exact Nat.le_refl _
  | index | notFound | found | gone => exact Nat.le_refl _

end Access

/-! ## Runs -/

theorem finish_of_outside (h : stage.inside = false) (room : CachedRoom M) :
    stage.finish reactions room = room := by
  cases stage with
  | indexing | cleaning => cases h
  | caching | finding | removing | removingByEmoji | performing | returned => rfl

theorem access_eq_some {s t : Calls M} {i : Nat} (h : s.access env reactions i = some t) :
    ∃ stage room stage', s.stages[i]? = some stage ∧ (stage.waits = true → s.holder = none) ∧
      Access env reactions s.room stage room stage' ∧
      t = { room
            holder := if stage'.inside then some i else if stage.inside then none else s.holder
            stages := s.stages.set i stage'
            fresh := stage.newlyCached reactions s.room ++ s.fresh } := by
  unfold Calls.access at h
  cases hstage : s.stages[i]? with
  | none => simp [hstage] at h
  | some stage =>
    simp only [hstage] at h
    split at h
    · cases h
    · next hlock =>
      cases hnext : stage.next env reactions s.room with
      | none => simp [hnext] at h
      | some result =>
        obtain ⟨room, stage'⟩ := result
        simp only [hnext, Option.some.injEq] at h
        refine ⟨stage, room, stage', rfl, fun hwaits => ?_, access_of_next hnext, h.symm⟩
        simpa [hwaits] using hlock

variable (reactions) in
/-- The room once the section is finished that is running. -/
def Calls.finished (s : Calls M) : CachedRoom M :=
  match s.holder with
  | none => s.room
  | some i => (s.stages[i]?).elim s.room fun stage => stage.finish reactions s.room

variable (reactions) in
structure Calls.Inv (s : Calls M) : Prop where
  placed : Placed reactions s.room
  agree : (s.finished reactions).Agree
  inside : ∀ {i stage}, s.stages[i]? = some stage → (stage.inside = true ↔ s.holder = some i)
  bound : ∀ i, s.holder = some i → i < s.stages.length
  count : ∀ reactionId, s.stages.countP (·.gives reactionId)
    + cachedCount reactions s.room reactionId ≤ s.fresh.count reactionId

theorem inv_start (media : M) : (Calls.start media).Inv reactions where
  placed := nofun
  agree := fun reactionId messageId => ⟨nofun, fun h => absurd h (AList.notMem_empty _)⟩
  inside := nofun
  bound := nofun
  count := fun reactionId => by simp [Calls.start, cachedCount, CachedRoom.new, CachedRoom.cachedAt,
    CachedMessage.default]

theorem Calls.Inv.startCall {s : Calls M} (h : s.Inv reactions) (call : Call) :
    ({ s with stages := s.stages ++ [call.first] } : Calls M).Inv reactions := by
  have hfirst : call.first.inside = false := by cases call <;> rfl
  have hgives : ∀ reactionId, call.first.gives reactionId = false := by
    intro reactionId
    cases call <;> rfl
  have hold : ∀ i, s.holder = some i → (s.stages ++ [call.first])[i]? = s.stages[i]? :=
    fun i hi => List.getElem?_append_left (h.bound i hi)
  refine ⟨h.placed, ?_, fun {i stage} hstage => ?_, fun i hi => ?_, fun reactionId => ?_⟩
  · have hfinished : ({ s with stages := s.stages ++ [call.first] } : Calls M).finished reactions
        = s.finished reactions := by
      unfold Calls.finished
      cases hholder : s.holder with
      | none => rfl
      | some i => simp only [hold i hholder]
    rw [hfinished]
    exact h.agree
  · rcases Nat.lt_trichotomy i s.stages.length with hlt | heq | hgt
    · rw [List.getElem?_append_left hlt] at hstage
      exact h.inside hstage
    · subst heq
      rw [List.getElem?_concat_length] at hstage
      obtain rfl := Option.some.inj hstage
      rw [hfirst]
      exact ⟨nofun, fun hholder => absurd (h.bound _ hholder) (Nat.lt_irrefl _)⟩
    · rw [List.getElem?_eq_none (by simp; omega)] at hstage
      cases hstage
  · have hlt := h.bound i hi
    simp only [List.length_append]
    omega
  · have hcount := h.count reactionId
    simpa [List.countP_append, hgives] using hcount

/-- The indexes agree once the section is finished that runs after the access. -/
theorem Calls.Inv.agree_access {s : Calls M} (h : s.Inv reactions) {i : Nat} {stage stage' : Stage}
    {room : CachedRoom M} (hstage : s.stages[i]? = some stage)
    (hfree : stage.waits = true → s.holder = none)
    (haccess : Access env reactions s.room stage room stage') (fresh : List String) :
    (Calls.finished reactions
      { room
        holder := if stage'.inside then some i else if stage.inside then none else s.holder
        stages := s.stages.set i stage'
        fresh }).Agree := by
  have hself : (s.stages.set i stage')[i]? = some stage' :=
    List.getElem?_set_self (List.getElem?_eq_some_iff.mp hstage).1
  have hothers : ∀ j, j ≠ i → (s.stages.set i stage')[j]? = s.stages[j]? :=
    fun j hj => List.getElem?_set_ne (Ne.symm hj)
  have hinside := h.inside hstage
  -- The call takes, holds or has returned the lock, or has nothing to do with it.
  by_cases houtside : stage.waits = false ∧ stage.inside = false
  · obtain ⟨rfl, hnext⟩ := haccess.outside houtside.1 houtside.2
    have hfinished : Calls.finished reactions
        ⟨s.room, s.holder, s.stages.set i stage', fresh⟩
          = s.finished reactions := by
      unfold Calls.finished
      cases hholder : s.holder with
      | none => rfl
      | some j =>
        have hj : j ≠ i := by
          rintro rfl
          exact absurd (hinside.mpr hholder) (by simp [houtside.2])
        simp only [hothers j hj]
    simp only [hnext, houtside.2, Bool.false_eq_true, if_false]
    rw [hfinished]
    exact h.agree
  · have hbefore : s.finished reactions = stage.finish reactions s.room := by
      unfold Calls.finished
      cases hin : stage.inside with
      | true => simp [hinside.mp hin, hstage]
      | false =>
        have hwaits : stage.waits = true := by simpa [hin] using houtside
        rw [hfree hwaits, finish_of_outside hin]
    have hagree := haccess.agree h.placed (hbefore ▸ h.agree)
    unfold Calls.finished
    cases hnext : stage'.inside with
    | true => simpa [hself] using hagree
    | false =>
      have hholder : (if stage.inside = true then none else s.holder) = none := by
        cases hin : stage.inside with
        | true => rfl
        | false => exact hfree (by simpa [hin] using houtside)
      rw [finish_of_outside hnext] at hagree
      simpa [hholder] using hagree

theorem Calls.Inv.access {s t : Calls M} (h : s.Inv reactions) {i : Nat}
    (hstep : s.access env reactions i = some t) : t.Inv reactions := by
  obtain ⟨stage, room, stage', hstage, hfree, haccess, rfl⟩ := access_eq_some hstep
  have hlt : i < s.stages.length := (List.getElem?_eq_some_iff.mp hstage).1
  refine ⟨haccess.placed h.placed, ?_, fun {j other} hother => ?_, fun j hj => ?_,
    fun reactionId => ?_⟩
  · exact h.agree_access hstage hfree haccess _
  · refine holder_set h.inside hstage (fun hnext => ?_) hother
    cases hin : stage.inside with
    | true => exact .inl rfl
    | false =>
      cases hwaits : stage.waits with
      | true => exact .inr (hfree hwaits)
      | false => simp [(haccess.outside hwaits hin).2] at hnext
  · rw [List.length_set]
    split at hj
    · obtain rfl := Option.some.inj hj
      exact hlt
    · split at hj
      · cases hj
      · exact h.bound j hj
  · have hcount := haccess.count h.placed reactionId
    have hold := h.count reactionId
    have hset := countP_set_add hstage stage' (·.gives reactionId)
    dsimp only
    rw [List.count_append]
    omega

theorem inv_of_run {s t : Calls M} {actions : List CallAction} (h : s.Inv reactions)
    (hrun : (calls env reactions).run s actions = some t) : t.Inv reactions := by
  refine (calls env reactions).inv_of_any_run (fun s action t hs hstep => ?_) h hrun
  cases action with
  | start call =>
    obtain rfl := Option.some.inj hstep
    exact hs.startCall call
  | access i => exact hs.access hstep

/-! ## A removal that runs alone -/

variable (env) in
/-- A removal by id returns a reaction exactly if it is cached. -/
theorem isSome_removeReactionById (hagree : room.Agree) (reactionId : String) :
    (room.removeReactionById env reactionId).1.isSome ↔
      ∃ messageId, reactionId ∈ (room.cachedAt messageId).reactions := by
  unfold CachedRoom.removeReactionById CachedRoom.reactionIdToMessageId
  cases hindex : room.reactionIdToMessage.lookup reactionId with
  | none =>
    refine ⟨nofun, fun ⟨messageId, hmem⟩ => ?_⟩
    rw [(hagree reactionId messageId).mpr hmem] at hindex
    cases hindex
  | some messageId =>
    have hmem := (hagree reactionId messageId).mp hindex
    dsimp only
    cases htaken : room.takeReaction messageId reactionId with
    | mk removed taken =>
      cases removed with
      | some removed => exact ⟨fun _ => ⟨messageId, hmem⟩, fun _ => rfl⟩
      | none =>
        have hnone := (room.takeReaction_eq_none htaken).1
        exact absurd hmem (AList.lookup_eq_none.mp hnone)

/-- An access of the call that was started last. -/
theorem run_access_last {holder : Option Nat} (hlock : (stage.waits && holder.isSome) = false)
    (hnext : stage.next env reactions room = some (room', stage')) (stages : List Stage)
    (fresh : List String) (actions : List CallAction) :
    (calls env reactions).run ⟨room, holder, stages ++ [stage], fresh⟩
        (.access stages.length :: actions)
      = (calls env reactions).run ⟨room',
          if stage'.inside then some stages.length else if stage.inside then none else holder,
          stages ++ [stage'], stage.newlyCached reactions room ++ fresh⟩ actions := by
  have haccess : Calls.access env reactions ⟨room, holder, stages ++ [stage], fresh⟩ stages.length
      = some ⟨room',
          if stage'.inside then some stages.length else if stage.inside then none else holder,
          stages ++ [stage'], stage.newlyCached reactions room ++ fresh⟩ := by
    unfold Calls.access
    simp [hlock, hnext]
  rw [System.run_cons]
  exact congrArg (fun s => s.bind fun t => (calls env reactions).run t actions) haccess

/-- The accesses of a removal by id, one after another, do what `remove_reaction_by_id` does. -/
theorem run_removeReactionById {s : Calls M} (hfree : s.holder = none) (reactionId : String) :
    ∃ n t, (calls env reactions).run s (.start (.removeReactionById reactionId)
        :: List.replicate n (.access s.stages.length)) = some t ∧
      t.stages[s.stages.length]?
        = some (.returned (s.room.removeReactionById env reactionId).1) ∧
      t.room = (s.room.removeReactionById env reactionId).2 := by
  obtain ⟨room, holder, stages, fresh⟩ := s
  obtain rfl : holder = none := hfree
  have hstart : ∀ n, (calls env reactions).run ⟨room, none, stages, fresh⟩
      (.start (.removeReactionById reactionId) :: List.replicate n (.access stages.length))
        = (calls env reactions).run ⟨room, none, stages ++ [.finding reactionId], fresh⟩
            (List.replicate n (.access stages.length)) := fun _ => rfl
  cases hindex : room.reactionIdToMessageId reactionId with
  | none =>
    have hresult : room.removeReactionById env reactionId = (none, room) := by
      simp only [CachedRoom.removeReactionById, hindex]
    have hfind : (Stage.finding reactionId).next env reactions room
        = some (room, .returned none) := by simp only [Stage.next, hindex]
    rw [hresult]
    exact ⟨1, _, (hstart 1).trans (run_access_last rfl hfind stages fresh []),
      List.getElem?_concat_length, rfl⟩
  | some messageId =>
    have hfind : (Stage.finding reactionId).next env reactions room
        = some (room, .removing reactionId messageId) := by simp only [Stage.next, hindex]
    cases htaken : room.takeReaction messageId reactionId with
    | mk removed taken =>
      cases removed with
      | none =>
        have hresult : room.removeReactionById env reactionId = (none, taken) := by
          simp only [CachedRoom.removeReactionById, hindex, htaken]
        have hgone : (Stage.removing reactionId messageId).next env reactions room
            = some (taken, .returned none) := by simp only [Stage.next, htaken]
        rw [hresult]
        exact ⟨2, _, (hstart 2).trans ((run_access_last rfl hfind stages fresh _).trans
          (run_access_last rfl hgone stages fresh [])), List.getElem?_concat_length, rfl⟩
      | some removed =>
        let metadata := ReactionMetadata.new removed reactionId messageId env.roomId
        have hresult : room.removeReactionById env reactionId
            = (some metadata, taken.cleanupReaction reactionId) := by
          simp only [CachedRoom.removeReactionById, hindex, htaken, metadata]
        have htake : (Stage.removing reactionId messageId).next env reactions room
            = some (taken, .cleaning [reactionId] (some metadata)) := by
          simp only [Stage.next, htaken, metadata]
        have hclean : (Stage.cleaning [reactionId] (some metadata)).next env reactions taken
            = some (taken.cleanupReaction reactionId, .cleaning [] (some metadata)) := rfl
        have hfinish : (Stage.cleaning [] (some metadata)).next env reactions
            (taken.cleanupReaction reactionId)
              = some (taken.cleanupReaction reactionId, .returned (some metadata)) := rfl
        rw [hresult]
        exact ⟨4, _, (hstart 4).trans ((run_access_last rfl hfind stages fresh _).trans
          ((run_access_last rfl htake stages fresh _).trans
            ((run_access_last rfl hclean stages fresh _).trans
              (run_access_last rfl hfinish stages fresh [])))), List.getElem?_concat_length, rfl⟩

variable (env reactions) in
/-- Whenever the messages are not locked, the maps agree, and a removal by id that runs alone
    returns a reaction exactly if it is cached. At any time a reaction has been returned at most
    once for each time it was newly cached. -/
theorem indexes_agree (media : M) {actions : List CallAction} {s : Calls M}
    (hrun : (calls env reactions).run (.start media) actions = some s) :
    (s.holder = none →
      (∀ reactionId messageId, s.room.reactionIdToMessage.lookup reactionId = some messageId ↔
        reactionId ∈ (s.room.cachedAt messageId).reactions) ∧
      ∀ reactionId, ∃ n t removed, (calls env reactions).run s
          (.start (.removeReactionById reactionId)
            :: List.replicate n (.access s.stages.length)) = some t ∧
        t.stages[s.stages.length]? = some (.returned removed) ∧
        (removed.isSome ↔ ∃ messageId, reactionId ∈ (s.room.cachedAt messageId).reactions)) ∧
    ∀ reactionId, s.stages.countP (·.returns reactionId) ≤ s.fresh.count reactionId := by
  have hinv := inv_of_run (inv_start media) hrun
  refine ⟨fun hfree => ?_, fun reactionId => ?_⟩
  · have hagree : s.room.Agree := by
      have := hinv.agree
      unfold Calls.finished at this
      rwa [hfree] at this
    refine ⟨hagree, fun reactionId => ?_⟩
    obtain ⟨n, t, hremove, hreturned, -⟩ := run_removeReactionById hfree reactionId
    exact ⟨n, t, _, hremove, hreturned, isSome_removeReactionById env hagree reactionId⟩
  · have hle : s.stages.countP (·.returns reactionId) ≤ s.stages.countP (·.gives reactionId) := by
      refine List.countP_mono_left fun stage _ hreturns => ?_
      cases stage with
      | returned removed => cases removed <;> exact hreturns
      | caching | indexing | finding | removing | removingByEmoji | cleaning | performing =>
        cases hreturns
    have hcount := hinv.count reactionId
    omega

end Interleaving

/-- A reaction is cached, and two removals find it before one of them removes it. -/
def raceOfRemovals : List CallAction :=
  [.start (.cacheReaction "$thumb"), .access 0, .access 0,
    .start (.removeReactionById "$thumb"), .start (.removeReactionById "$thumb"),
    .access 1, .access 2, .access 1, .access 1, .access 1, .access 2]

def thumbsUp : ReactionTable := fun _ => ⟨"$hello", ⟨"@alice:hs", "👍"⟩⟩

theorem isSome_race :
    ((calls (RoomEnv.bare "!r") thumbsUp).run (.start ()) raceOfRemovals).isSome := by
  decide +kernel

theorem indexes_agree_race :
    ∃ s, (calls (RoomEnv.bare "!r") thumbsUp).run (.start ()) raceOfRemovals = some s ∧
      s.room.reactionIdToMessage.lookup "$thumb" ≠ some "$hello" ∧
      s.stages.countP (·.returns "$thumb") ≤ s.fresh.count "$thumb" := by
  have hrun := (Option.some_get isSome_race).symm
  have hfree : (Option.get _ isSome_race).holder = none := by decide +kernel
  have hremoved : "$thumb" ∉ ((Option.get _ isSome_race).room.cachedAt "$hello").reactions := by
    decide +kernel
  obtain ⟨hagree, hcount⟩ := indexes_agree (RoomEnv.bare "!r") thumbsUp () hrun
  refine ⟨_, hrun, fun hindex => ?_, hcount "$thumb"⟩
  exact hremoved (((hagree hfree).1 "$thumb" "$hello").mp hindex)

end GoudaMatrix.MemoryCache
