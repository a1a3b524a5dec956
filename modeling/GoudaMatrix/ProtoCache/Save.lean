/-
  `save` against the rule it states: "the state of the data always corresponds historically to
  the same point in time or in the future of the stored sync token".

  `Traced` adds history variables to a cache with its save task: the user changes so far, and
  how many of them there were when the current token was set (`tokenAt`), when the running save
  took its users snapshot (`snapshotAt`), when the token in its info snapshot was set
  (`infoTokenAt`) and when the persisted token was set (`storedTokenAt`). They do not influence
  the run (`traced_run_erase`).

  The rule is `StoredUsersCoverToken`: the users file is the cache after some number `n` of the
  changes, and `n` is at least `storedTokenAt`.

  `save` takes its users snapshot before its info snapshot, so a user change and a sync token
  that both arrive between the two are split: the token is persisted, the change is not
  (`save_loses_change`). A token that is set in that window is harmless only while no user
  change has been applied since the users snapshot (`TokenKeepsSnapshot`); in every run whose
  tokens are set that way the rule holds in every state (`save_keeps_rule`).
-/
import GoudaMatrix.ProtoCache.Inner

namespace GoudaMatrix.ProtoCache

open GoudaMatrix.Lib

/-! ## History variables -/

structure Traced where
  task : CacheTask
  files : CacheFiles
  changes : List UserChange
  tokenAt : Nat
  snapshotAt : Nat
  infoTokenAt : Nat
  storedTokenAt : Nat
deriving DecidableEq, Repr

namespace Traced

def erase (s : Traced) : CacheTask × CacheFiles := (s.task, s.files)

def start (files : CacheFiles) : Traced := ⟨CacheTask.start files, files, [], 0, 0, 0, 0⟩

/-- The history variables after an action, with the new task and files. -/
def record (s : Traced) (task : CacheTask) (files : CacheFiles) : CacheAction → Traced
  | .changeUser c => { s with task, files, changes := s.changes ++ [c] }
  | .setSyncToken _ => { s with task, files, tokenAt := s.changes.length }
  | .beginSave => { s with task, files, snapshotAt := s.changes.length }
  | .beginInfoWrite => { s with task, files, infoTokenAt := s.tokenAt }
  | .endInfoWrite true => { s with task, files, storedTokenAt := s.infoTokenAt }
  | _ => { s with task, files }

theorem erase_record (s : Traced) (task : CacheTask) (files : CacheFiles) (a : CacheAction) :
    (s.record task files a).erase = (task, files) := by
  cases a with
  | endInfoWrite ok => cases ok <;> rfl
  | _ => rfl

end Traced

variable (updateIntoUser : UserChangeEvent → User → User)

/-- `cacheSystem` with the history variables. -/
def tracedSystem : System Traced CacheAction where
  step s a := (s.task.step updateIntoUser s.files a).map fun r => s.record r.1 r.2 a

/-- The history variables do not influence the run. -/
theorem traced_run_erase (s : Traced) (as : List CacheAction) :
    ((tracedSystem updateIntoUser).run s as).map Traced.erase =
      (cacheSystem updateIntoUser).run s.erase as := by
  refine System.run_of_project _ (cacheSystem updateIntoUser) Traced.erase (fun s a => ?_) s as
  show ((s.task.step updateIntoUser s.files a).map fun r => s.record r.1 r.2 a).map Traced.erase =
    s.task.step updateIntoUser s.files a
  rw [Option.map_map]
  cases s.task.step updateIntoUser s.files a with
  | none => rfl
  | some r => rw [Option.map_some, Function.comp_apply, Traced.erase_record]

/-! ## The rule and the condition -/

/-- The rule written in `save`, for a cache that started with `base`: when a token is persisted,
    the users file is the cache after `n` user changes, and every change that was applied
    before that token was set is among them. -/
def StoredUsersCoverToken (base : Option (List User)) (s : Traced) : Prop :=
  (s.files.info.bind Info.syncToken).isSome →
    ∃ n, s.storedTokenAt ≤ n ∧ n ≤ s.changes.length ∧
      s.files.users = replay updateIntoUser base (s.changes.take n)

/-- Between its users snapshot and its info snapshot. -/
def SaveStage.inWindow : SaveStage → Bool
  | .usersWrite _ => true
  | .infoNext => true
  | _ => false

/-- A token is set in the window of a save only while no user change has been applied since the
    users snapshot of that save. -/
def TokenKeepsSnapshot (s : Traced) : CacheAction → Prop
  | .setSyncToken _ => s.task.save.inWindow = true → s.changes.length = s.snapshotAt
  | _ => True

instance (s : Traced) : DecidablePred (TokenKeepsSnapshot s)
  | .setSyncToken _ =>
    inferInstanceAs (Decidable (s.task.save.inWindow = true → s.changes.length = s.snapshotAt))
  | .setUserStatus _ | .changeUser _ | .beginSave | .endUsersWrite _ | .beginInfoWrite
  | .endInfoWrite _ => isTrue trivial

/-! ## What the users file can hold -/

theorem applyChange_some (users : List User) (c : UserChange) :
    ∃ users', applyChange updateIntoUser (some users) c = some users' := by
  cases c with
  | cacheUser user =>
    simp only [applyChange, cacheUser]
    split <;> exact ⟨_, rfl⟩
  | updateUser event =>
    simp only [applyChange, updateUser]
    split <;> exact ⟨_, rfl⟩

/-- A cache that has users keeps having users. -/
theorem replay_some (users : List User) (changes : List UserChange) :
    ∃ users', replay updateIntoUser (some users) changes = some users' := by
  induction changes generalizing users with
  | nil => exact ⟨users, rfl⟩
  | cons c changes ih =>
    obtain ⟨users', h⟩ := applyChange_some updateIntoUser users c
    obtain ⟨users'', h'⟩ := ih users'
    exact ⟨users'', by rw [replay, List.foldl_cons, h]; exact h'⟩

/-- A cache without users never had any. -/
theorem replay_take_of_none {base : Option (List User)} {changes : List UserChange}
    (h : replay updateIntoUser base changes = none) (n : Nat) :
    replay updateIntoUser base (changes.take n) = none := by
  cases hn : replay updateIntoUser base (changes.take n) with
  | none => rfl
  | some users =>
    obtain ⟨users', h'⟩ := replay_some updateIntoUser users (changes.drop n)
    rw [replay] at hn h h'
    rw [← List.take_append_drop n changes, List.foldl_append, hn, h'] at h
    cases h

/-! ## The invariant -/

/-- The users file is the cache after the changes counted by the users snapshot. -/
def HoldsSnapshot (base : Option (List User)) (s : Traced) : Prop :=
  s.snapshotAt ≤ s.changes.length ∧
    s.files.users = replay updateIntoUser base (s.changes.take s.snapshotAt)

/-- What the stage of the save task says about the history variables. -/
def StageOk (base : Option (List User)) (s : Traced) : Prop :=
  match s.task.save with
  | .sleeping => True
  | .usersWrite users =>
    s.snapshotAt ≤ s.changes.length ∧
      some users = replay updateIntoUser base (s.changes.take s.snapshotAt) ∧
      s.tokenAt ≤ s.snapshotAt ∧ s.storedTokenAt ≤ s.snapshotAt
  | .infoNext => HoldsSnapshot updateIntoUser base s ∧ s.tokenAt ≤ s.snapshotAt
  | .infoWrite _ => HoldsSnapshot updateIntoUser base s ∧ s.infoTokenAt ≤ s.snapshotAt

structure SaveInv (base : Option (List User)) (s : Traced) : Prop where
  cached : s.task.cache.cachedUsers = replay updateIntoUser base s.changes
  token : s.tokenAt ≤ s.changes.length
  stored : ∃ n, s.storedTokenAt ≤ n ∧ n ≤ s.changes.length ∧
    s.files.users = replay updateIntoUser base (s.changes.take n)
  stage : StageOk updateIntoUser base s

theorem saveInv_start (files : CacheFiles) :
    SaveInv updateIntoUser files.users (Traced.start files) where
  cached := rfl
  token := Nat.le_refl 0
  stored := ⟨0, Nat.le_refl 0, Nat.le_refl 0, rfl⟩
  stage := trivial

section Steps
variable {updateIntoUser} {base : Option (List User)} {s : Traced}

theorem stageOk_setInfo (h : StageOk updateIntoUser base s) (info : Info) (tokenAt : Nat)
    (ht : s.task.save.inWindow = true → tokenAt ≤ s.snapshotAt) :
    StageOk updateIntoUser base { s with task := s.task.setInfo info, tokenAt } := by
  unfold StageOk at h ⊢
  dsimp only [CacheTask.setInfo]
  cases hs : s.task.save with
  | sleeping => trivial
  | usersWrite users =>
    rw [hs] at h ht
    exact ⟨h.1, h.2.1, ht rfl, h.2.2.2⟩
  | infoNext =>
    rw [hs] at h ht
    exact ⟨h.1, ht rfl⟩
  | infoWrite info =>
    rw [hs] at h
    exact h

theorem stageOk_changeUser (h : StageOk updateIntoUser base s) (users : Option (List User))
    (c : UserChange) :
    StageOk updateIntoUser base
      { s with task := s.task.setUsers users, changes := s.changes ++ [c] } := by
  have hlen : (s.changes ++ [c]).length = s.changes.length + 1 := by simp
  have htake : s.snapshotAt ≤ s.changes.length →
      (s.changes ++ [c]).take s.snapshotAt = s.changes.take s.snapshotAt :=
    List.take_append_of_le_length
  unfold StageOk at h ⊢
  dsimp only [CacheTask.setUsers, HoldsSnapshot] at h ⊢
  cases hs : s.task.save with
  | sleeping => trivial
  | usersWrite snapshot =>
    rw [hs] at h
    obtain ⟨hle, hsnap, htok, hstored⟩ := h
    dsimp only
    rw [htake hle]
    exact ⟨by omega, hsnap, htok, hstored⟩
  | infoNext =>
    rw [hs] at h
    obtain ⟨⟨hle, hfile⟩, htok⟩ := h
    dsimp only
    rw [htake hle]
    exact ⟨⟨by omega, hfile⟩, htok⟩
  | infoWrite info =>
    rw [hs] at h
    obtain ⟨⟨hle, hfile⟩, htok⟩ := h
    dsimp only
    rw [htake hle]
    exact ⟨⟨by omega, hfile⟩, htok⟩

/-- One step keeps the invariant, if it sets no token ahead of a running users snapshot. -/
theorem saveInv_step {a : CacheAction} {t : Traced} (h : SaveInv updateIntoUser base s)
    (hok : TokenKeepsSnapshot s a) (hstep : (tracedSystem updateIntoUser).step s a = some t) :
    SaveInv updateIntoUser base t := by
  obtain ⟨r, hr, rfl⟩ := Option.map_eq_some_iff.mp hstep
  have hinv := CacheTask.step_inv hr
  obtain ⟨task', files'⟩ := r
  dsimp only at hinv
  have hstage := h.stage
  obtain ⟨n, hn, hnlen, hfile⟩ := h.stored
  cases hinv with
  | setSyncToken token =>
    refine ⟨h.cached, Nat.le_refl _, h.stored, stageOk_setInfo hstage _ _ fun hw => ?_⟩
    exact Nat.le_of_eq (hok hw)
  | setUserStatus status =>
    refine ⟨h.cached, h.token, h.stored, stageOk_setInfo hstage _ _ fun hw => ?_⟩
    unfold StageOk at hstage
    cases hs : s.task.save with
    | sleeping => rw [hs] at hw; cases hw
    | usersWrite users => rw [hs] at hstage; exact hstage.2.2.1
    | infoNext => rw [hs] at hstage; exact hstage.2
    | infoWrite info => rw [hs] at hw; cases hw
  | changeUser c =>
    have hlen : (s.changes ++ [c]).length = s.changes.length + 1 := by simp
    refine ⟨?_, ?_, ⟨n, hn, ?_, ?_⟩, stageOk_changeUser hstage _ c⟩
    · dsimp only [Traced.record, CacheTask.setUsers]
      rw [replay_concat, h.cached]
    · have := h.token
      dsimp only [Traced.record]
      omega
    · dsimp only [Traced.record]
      omega
    · dsimp only [Traced.record]
      rw [List.take_append_of_le_length hnlen]
      exact hfile
  | beginSave users hs hu =>
    refine ⟨h.cached, h.token, h.stored, Nat.le_refl _, ?_, h.token, Nat.le_trans hn hnlen⟩
    dsimp only [Traced.record]
    rw [List.take_length, ← h.cached, hu]
  | skipUsers hs hu =>
    refine ⟨h.cached, h.token, h.stored, ⟨Nat.le_refl _, ?_⟩, h.token⟩
    dsimp only [Traced.record]
    rw [List.take_length, ← h.cached, hu, hfile]
    exact replay_take_of_none updateIntoUser (h.cached ▸ hu) n
  | usersWritten users hs =>
    unfold StageOk at hstage
    rw [hs] at hstage
    obtain ⟨hle, hsnap, htok, hstored⟩ := hstage
    exact ⟨h.cached, h.token, ⟨s.snapshotAt, hstored, hle, hsnap⟩, ⟨hle, hsnap⟩, htok⟩
  | usersFailed users hs => exact ⟨h.cached, h.token, h.stored, trivial⟩
  | beginInfoWrite hs =>
    unfold StageOk at hstage
    rw [hs] at hstage
    exact ⟨h.cached, h.token, h.stored, hstage.1, hstage.2⟩
  | infoWritten info hs =>
    unfold StageOk at hstage
    rw [hs] at hstage
    obtain ⟨⟨hle, hsnap⟩, htok⟩ := hstage
    exact ⟨h.cached, h.token, ⟨s.snapshotAt, htok, hle, hsnap⟩, trivial⟩
  | infoFailed info hs => exact ⟨h.cached, h.token, h.stored, trivial⟩

end Steps

/-! ## The rule along a run -/

/-- In every run that sets no token ahead of a running users snapshot, the files satisfy the
    rule of `save` in every state, whenever the process stops. -/
theorem save_keeps_rule (files : CacheFiles) (as : List CacheAction) (t : Traced)
    (hok : (tracedSystem updateIntoUser).Meets TokenKeepsSnapshot (Traced.start files) as)
    (hrun : (tracedSystem updateIntoUser).run (Traced.start files) as = some t) :
    StoredUsersCoverToken updateIntoUser files.users t := by
  have hinv : SaveInv updateIntoUser files.users t :=
    System.inv_of_run _ (fun s a t hs ha hstep => saveInv_step hs ha hstep)
      (saveInv_start updateIntoUser files) hok hrun
  exact fun _ => hinv.stored

/-- A save that starts after the token of the change was set. -/
def quietSave : List CacheAction :=
  [.changeUser (.cacheUser alice), .setSyncToken "s1", .beginSave, .endUsersWrite true,
    .beginInfoWrite, .endInfoWrite true]

theorem save_keeps_rule_quiet :
    ∃ t, (tracedSystem fun _ u => u).run (Traced.start ⟨none, none⟩) quietSave = some t ∧
      t.files = ⟨some [alice], some ⟨some "s1", none⟩⟩ ∧
      StoredUsersCoverToken (fun _ u => u) none t :=
  ⟨_, rfl, rfl, save_keeps_rule (fun _ u => u) ⟨none, none⟩ quietSave _ (by decide) rfl⟩

/-- A save between whose snapshots Bob is cached and the token of his event is set. -/
def splitSave : List CacheAction :=
  [.changeUser (.cacheUser alice), .beginSave, .changeUser (.cacheUser bob), .setSyncToken "s2",
    .endUsersWrite true, .beginInfoWrite, .endInfoWrite true]

/-- The token `s2` is persisted, Bob, who was cached before it was set, is not. -/
theorem save_loses_change :
    ∃ t, (tracedSystem fun _ u => u).run (Traced.start ⟨none, none⟩) splitSave = some t ∧
      t.files = ⟨some [alice], some ⟨some "s2", none⟩⟩ ∧
      t.changes = [.cacheUser alice, .cacheUser bob] ∧ t.storedTokenAt = 2 ∧
      ¬ StoredUsersCoverToken (fun _ u => u) none t := by
  refine ⟨_, rfl, rfl, rfl, rfl, fun h => ?_⟩
  obtain ⟨n, hn, hlen, husers⟩ := h rfl
  have h2 : n = 2 := Nat.le_antisymm hlen hn
  subst h2
  revert husers
  decide

end GoudaMatrix.ProtoCache
