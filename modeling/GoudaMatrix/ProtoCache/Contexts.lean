/-
  Several `SessionContext`s on one data root. `ProtoCache::new` spawns an endless save task that
  owns its cache, and nothing ends it: after `reset_session`, or after an `initialize` that
  failed and is repeated, the task of the replaced cache goes on and saves to the same files.

  `tasks` lists every cache ever created, in order; its index is the identity of the context.
  `written` is a history variable: the writes made since the current context became current,
  each with the cache whose data it stores.

  `replaced_cache_overwrites` is a login after which the replaced cache puts its own users and
  token over those of the current one. `current_owns_writes` is what is needed for that not to
  happen (`CurrentSaves`): no save of a cache that is not current begins, and no context is
  replaced while a save is under way.
-/
import GoudaMatrix.ProtoCache.Inner

namespace GoudaMatrix.ProtoCache

open GoudaMatrix.Lib

/-- A completed write to one of the two files, by the cache `owner`. -/
inductive Write where
  | users (owner : Nat) (content : List User)
  | info (owner : Nat) (content : Info)
deriving DecidableEq, Repr

def Write.owner : Write → Nat
  | .users owner _ => owner
  | .info owner _ => owner

structure Contexts where
  tasks : List CacheTask
  /-- The context stored in `MatrixClientInner`. -/
  current : Option Nat
  /-- The cache directory, `none` while it does not exist. -/
  dir : Option CacheFiles
  written : List Write
deriving DecidableEq, Repr

inductive ContextAction where
  /-- `SessionContext::new` reaches `ProtoCache::new`. -/
  | newCache
  /-- The context created last becomes current. -/
  | install
  /-- `remove_session_data`. -/
  | removeSessionData
  | cache (i : Nat) (a : CacheAction)
deriving DecidableEq, Repr

/-- What the write that this action completes stores, if it completes one. -/
def completedWrite (i : Nat) (task : CacheTask) : CacheAction → Option Write
  | .endUsersWrite true =>
    match task.save with
    | .usersWrite users => some (.users i users)
    | _ => none
  | .endInfoWrite true =>
    match task.save with
    | .infoWrite info => some (.info i info)
    | _ => none
  | _ => none

theorem completedWrite_owner {i : Nat} {task : CacheTask} {a : CacheAction} {w : Write}
    (h : completedWrite i task a = some w) : w.owner = i ∧ task.save ≠ .sleeping := by
  unfold completedWrite at h
  split at h
  · split at h
    · next hs => cases h; exact ⟨rfl, by rw [hs]; exact nofun⟩
    · cases h
  · split at h
    · next hs => cases h; exact ⟨rfl, by rw [hs]; exact nofun⟩
    · cases h
  · cases h

namespace Contexts

def start (dir : Option CacheFiles) : Contexts := ⟨[], none, dir, []⟩

def cacheStep (updateIntoUser : UserChangeEvent → User → User) (s : Contexts) (i : Nat)
    (a : CacheAction) : Option Contexts := do
  let task ← s.tasks[i]?
  let (task', files') ← task.step updateIntoUser (s.dir.getD ⟨none, none⟩) a
  let write := completedWrite i task a
  -- a write fails while the directory is missing
  if write.isSome && s.dir.isNone then none
  else some { s with
    tasks := s.tasks.set i task'
    dir := s.dir.map fun _ => files'
    written := s.written ++ write.toList }

def step (updateIntoUser : UserChangeEvent → User → User) (s : Contexts) :
    ContextAction → Option Contexts
  | .newCache =>
    -- initialize_directory
    let files := s.dir.getD ⟨none, none⟩
    some { s with tasks := s.tasks ++ [CacheTask.start files], dir := some files }
  | .install =>
    if s.tasks = [] then none
    else some { s with current := some (s.tasks.length - 1), written := [] }
  | .removeSessionData => some { s with dir := none }
  | .cache i a => s.cacheStep updateIntoUser i a

end Contexts

variable (updateIntoUser : UserChangeEvent → User → User)

def contextSystem : System Contexts ContextAction where
  step := Contexts.step updateIntoUser

/-- Every write since the current context became current stores the data of its cache. -/
def WritesAreCurrent (s : Contexts) : Prop := ∀ w ∈ s.written, s.current = some w.owner

instance : DecidablePred WritesAreCurrent := fun s =>
  inferInstanceAs (Decidable (∀ w ∈ s.written, s.current = some w.owner))

/-- The save interval of a cache fires only while its context is current, and a context is
    replaced only while no save is under way. -/
def CurrentSaves (s : Contexts) : ContextAction → Prop
  | .cache i .beginSave => s.current = some i
  | .install => ∀ task ∈ s.tasks, task.save = .sleeping
  | _ => True

instance (s : Contexts) : DecidablePred (CurrentSaves s)
  | .cache i a =>
    match a with
    | .beginSave => inferInstanceAs (Decidable (s.current = some i))
    | .setSyncToken _ | .setUserStatus _ | .changeUser _ | .endUsersWrite _ | .beginInfoWrite
    | .endInfoWrite _ => isTrue trivial
  | .install => inferInstanceAs (Decidable (∀ task ∈ s.tasks, task.save = .sleeping))
  | .newCache | .removeSessionData => isTrue trivial

/-! ## The invariant -/

structure OwnerInv (s : Contexts) : Prop where
  written : WritesAreCurrent s
  /-- A save that is under way belongs to the current context. -/
  busy : ∀ i task, s.tasks[i]? = some task → task.save ≠ .sleeping → s.current = some i

theorem ownerInv_start (dir : Option CacheFiles) : OwnerInv (Contexts.start dir) where
  written := fun w hw => absurd hw List.not_mem_nil
  busy := fun i task h => by simp [Contexts.start] at h

/-- A step leaves the save task asleep, or it was awake before, or the step is `beginSave`. -/
theorem step_wakes {task task' : CacheTask} {files files' : CacheFiles} {a : CacheAction}
    (h : CacheTask.Step updateIntoUser task files a task' files') (hs : task'.save ≠ .sleeping) :
    task.save ≠ .sleeping ∨ a = .beginSave := by
  cases h with
  | setSyncToken | setUserStatus | changeUser => exact Or.inl hs
  | beginSave | skipUsers => exact Or.inr rfl
  | usersWritten users hu => exact Or.inl (by rw [hu]; exact nofun)
  | beginInfoWrite hi => exact Or.inl (by rw [hi]; exact nofun)
  | usersFailed | infoWritten | infoFailed => exact absurd rfl hs

section Steps
variable {updateIntoUser}

theorem ownerInv_cacheStep {s t : Contexts} {i : Nat} {a : CacheAction} (h : OwnerInv s)
    (hok : CurrentSaves s (.cache i a)) (hstep : s.cacheStep updateIntoUser i a = some t) :
    OwnerInv t := by
  unfold Contexts.cacheStep at hstep
  simp only [Option.bind_eq_bind, Option.bind_eq_some_iff] at hstep
  obtain ⟨task, htask, ⟨task', files'⟩, hr, hstep⟩ := hstep
  dsimp only at hstep
  split at hstep
  · cases hstep
  cases hstep
  have hinv := CacheTask.step_inv hr
  refine ⟨fun w hw => ?_, fun j taskj hj hsave => ?_⟩
  · rcases List.mem_append.mp hw with hw | hw
    · exact h.written w hw
    · obtain ⟨how, hbusy⟩ := completedWrite_owner (Option.mem_toList.mp hw)
      rw [how]
      exact h.busy i task htask hbusy
  · dsimp only at hj ⊢
    by_cases hij : i = j
    · subst hij
      rw [List.getElem?_set_self (List.getElem?_eq_some_iff.mp htask).1, Option.some.injEq] at hj
      subst hj
      rcases step_wakes updateIntoUser hinv hsave with hbusy | rfl
      · exact h.busy i task htask hbusy
      · exact hok
    · rw [List.getElem?_set_ne hij] at hj
      exact h.busy j taskj hj hsave

theorem ownerInv_step {s t : Contexts} {a : ContextAction} (h : OwnerInv s)
    (hok : CurrentSaves s a) (hstep : (contextSystem updateIntoUser).step s a = some t) :
    OwnerInv t := by
  cases a with
  | newCache =>
    cases hstep
    refine ⟨h.written, fun i task hi hsave => ?_⟩
    dsimp only at hi ⊢
    rcases Nat.lt_or_ge i s.tasks.length with hlt | hge
    · rw [List.getElem?_append_left hlt] at hi
      exact h.busy i task hi hsave
    · rw [List.getElem?_append_right hge, List.getElem?_singleton] at hi
      split at hi
      · cases hi
        exact absurd rfl hsave
      · cases hi
  | install =>
    simp only [contextSystem, Contexts.step] at hstep
    split at hstep
    · cases hstep
    cases hstep
    exact ⟨fun w hw => absurd hw List.not_mem_nil,
      fun i task hi hsave => absurd (hok task (List.mem_of_getElem? hi)) hsave⟩
  | removeSessionData =>
    cases hstep
    exact ⟨h.written, h.busy⟩
  | cache i a => exact ownerInv_cacheStep h hok hstep

end Steps

/-! ## Runs -/

/-- In every run in which only caches of the current context save, and no context is replaced
    while a save is under way, every write stores the data of the current context. -/
theorem current_owns_writes (dir : Option CacheFiles) (as : List ContextAction) (t : Contexts)
    (hok : (contextSystem updateIntoUser).Meets CurrentSaves (Contexts.start dir) as)
    (hrun : (contextSystem updateIntoUser).run (Contexts.start dir) as = some t) :
    WritesAreCurrent t := by
  have hinv : OwnerInv t :=
    System.inv_of_run _ (fun s a t hs ha hstep => ownerInv_step hs ha hstep)
      (ownerInv_start dir) hok hrun
  exact hinv.written

/-- The four steps of a save of cache `i` that succeeds. -/
def saveOf (i : Nat) : List ContextAction :=
  [.cache i .beginSave, .cache i (.endUsersWrite true), .cache i .beginInfoWrite,
    .cache i (.endInfoWrite true)]

/-- A start with a cached user and token, and then a login, which resets the session. -/
def startThenLogin : List ContextAction :=
  [.newCache, .install, .cache 0 (.changeUser (.cacheUser alice)), .cache 0 (.setSyncToken "s1"),
    .removeSessionData, .newCache, .install, .cache 1 (.changeUser (.cacheUser bob)),
    .cache 1 (.setSyncToken "s2")]

/-- The state after the login, with what the replaced and the current cache hold. -/
def loggedIn (dir : CacheFiles) (written : List Write) : Contexts where
  tasks := [⟨⟨⟨some "s1", none⟩, some [alice]⟩, .sleeping⟩,
    ⟨⟨⟨some "s2", none⟩, some [bob]⟩, .sleeping⟩]
  current := some 1
  dir := some dir
  written := written

theorem current_owns_writes_after_login :
    WritesAreCurrent (loggedIn ⟨some [bob], some ⟨some "s2", none⟩⟩
      [.users 1 [bob], .info 1 ⟨some "s2", none⟩]) :=
  current_owns_writes (fun _ u => u) none (startThenLogin ++ saveOf 1) _ (by decide +kernel)
    (by decide +kernel)

/-- The save interval of the replaced cache fires after that of the current one. The files end
    up with the user and the token of the session that was reset. -/
theorem replaced_cache_overwrites :
    ∃ t, (contextSystem fun _ u => u).run (Contexts.start none)
        (startThenLogin ++ saveOf 1 ++ saveOf 0) = some t ∧
      t.current = some 1 ∧ t.dir = some ⟨some [alice], some ⟨some "s1", none⟩⟩ ∧
      ¬ WritesAreCurrent t :=
  ⟨loggedIn ⟨some [alice], some ⟨some "s1", none⟩⟩
      [.users 1 [bob], .info 1 ⟨some "s2", none⟩, .users 0 [alice], .info 0 ⟨some "s1", none⟩],
    by decide +kernel, rfl, rfl, by decide +kernel⟩

end GoudaMatrix.ProtoCache
