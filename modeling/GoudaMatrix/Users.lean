/-
  The users of the cache (`user.rs`): `get_user` answers with the cached user and synchronizes it in
  the background, where only a difference is sent as an event; the cache itself is written when a
  response or an event passes `on_response`.

  A run begins when the profile on the server has become constant, with anything in flight from
  before. `synced_user`: once a request and its synchronization have completed and the queue is
  empty, the cached user is the profile, if nothing that differs from the profile passes
  `on_response` without a change behind it that restores the profile, and no synchronization goes on
  without the avatar or the status (`KeepsProfile`). `older_response_overwrites` is a run of one
  request, whose response is sent after the event of its own synchronization, and one of a
  synchronization whose request for the status fails.
-/
import GoudaMatrix.ProtoCache.Inner

namespace GoudaMatrix.Users

open GoudaMatrix.Lib GoudaMatrix.ProtoCache

/-- What the adapter uses of the messages of `gouda_proto` about users. An event changes the fields
    that it sets. -/
structure UserProtos where
  /-- `UserChangeEvent::update_into_user`. -/
  updateIntoUser : UserChangeEvent → User → User
  /-- `UserChangeEventBuilder::compare_users`. -/
  compareUsers : (old new : User) → UserChangeEvent
  userId_update : ∀ event user, (updateIntoUser event user).userId = user.userId
  userId_compare : ∀ old new, old.userId = new.userId → (compareUsers old new).userId = new.userId
  update_again : ∀ event user,
    updateIntoUser event (updateIntoUser event user) = updateIntoUser event user
  /-- Fields that have been set to their values in `new` before do not matter. -/
  update_update : ∀ event event' user new, updateIntoUser event user = new →
    updateIntoUser event' new = new → updateIntoUser event (updateIntoUser event' user) = new

/-- The change of any user to the profile can be said by an event. -/
def UserProtos.Expresses (protos : UserProtos) (profile : User) : Prop :=
  ∀ user : User, user.userId = profile.userId →
    protos.updateIntoUser (protos.compareUsers user profile) user = profile

/-- `User::default()`. -/
def User.default : User := ⟨"", none, none, none⟩

/-- `get_user` of the cache. -/
def getUser (users : Option (List User)) (userId : String) : Option User :=
  users.bind fun users => users.find? fun user => user.userId == userId

/-! ## Requests and synchronizations -/

/-- What the requests of `fetch_user` come to. -/
structure UserAnswers where
  /-- The display name, or none in it, if the profile has come. -/
  profile : Option (Option String)
  /-- What the media manager says, which is also none if the download has failed. -/
  avatarPath : Option String
  /-- The presence, if it has come. -/
  status : Option UserStatus
deriving DecidableEq

/-- Only the profile is needed. -/
def fetchUser (userId : String) (answers : UserAnswers) : Option User :=
  answers.profile.map fun displayName =>
    { userId
      displayName
      avatarPath := answers.avatarPath
      status := answers.status }

/-- A call of `get_and_sync_user`: it waits for the server, or it has its answer, which is not sent
    yet. -/
inductive RequestPhase where
  | fetching
  | answered (user : User)
deriving DecidableEq

/-- Where the task of `sync_cached_user` is. -/
inductive SyncPhase where
  | fetching
  | fetched (user : User)
  | sending (event : UserChangeEvent)
  | completed
  | failed
deriving DecidableEq

structure SyncTask where
  /-- The request was issued when the profile was constant. -/
  late : Bool
  phase : SyncPhase
deriving DecidableEq

structure UserState where
  users : Option (List User)
  /-- The containers that are sent and have not passed `on_response`. -/
  queue : List UserChange
  requests : List RequestPhase
  syncs : List SyncTask
deriving DecidableEq

inductive UserStep where
  | request
  | requestFetched (i : Nat) (answers : UserAnswers)
  | respond (i : Nat)
  | syncFetched (i : Nat) (answers : UserAnswers)
  | compare (i : Nat)
  | sendChange (i : Nat)
  /-- An event of the server about any user. -/
  | incoming (event : UserChangeEvent)
  | onResponse
deriving DecidableEq

namespace UserState

variable (protos : UserProtos) (profile : User) (s : UserState)

def setSync (i : Nat) (task : SyncTask) (phase : SyncPhase) : UserState :=
  { s with syncs := s.syncs.set i { task with phase } }

/-- `get_and_sync_user`, up to the first await. -/
def getAndSyncUser : UserState :=
  match getUser s.users profile.userId with
  | some user =>
    { s with
      requests := s.requests ++ [.answered user]
      syncs := s.syncs ++ [⟨true, .fetching⟩] }
  | none => { s with requests := s.requests ++ [.fetching] }

/-- What the requests can come to: anything, if the profile was not constant yet; then the server
    answers with the profile, or not at all. The media manager has its own files of the avatar. -/
def CanAnswer (late : Bool) (answers : UserAnswers) : Prop :=
  late = true → (∀ displayName ∈ answers.profile, displayName = profile.displayName) ∧
    ∀ status ∈ answers.status, profile.status = some status

instance (late : Bool) (answers : UserAnswers) : Decidable (CanAnswer profile late answers) :=
  inferInstanceAs (Decidable (_ → (∀ _ ∈ _, _) ∧ ∀ _ ∈ _, _))

/-- The part of `sync_cached_user` between its awaits. -/
def compareCached (i : Nat) (task : SyncTask) (fetched : User) : UserState :=
  let cached := (getUser s.users profile.userId).getD User.default
  if cached = fetched then s.setSync i task .completed
  else s.setSync i task (.sending (protos.compareUsers cached fetched))

def step : UserStep → Option UserState
  | .request => some (s.getAndSyncUser profile)
  | .requestFetched i answers =>
    if s.requests[i]? = some .fetching then
      match fetchUser profile.userId answers with
      | some user => some { s with requests := s.requests.set i (.answered user) }
      | none => some { s with requests := s.requests.eraseIdx i }
    else none
  | .respond i =>
    match s.requests[i]? with
    | some (.answered user) =>
      some { s with requests := s.requests.eraseIdx i, queue := s.queue ++ [.cacheUser user] }
    | _ => none
  | .syncFetched i answers =>
    match s.syncs[i]? with
    | some ⟨late, .fetching⟩ =>
      if CanAnswer profile late answers then
        let fetched := fetchUser profile.userId answers
        some (s.setSync i ⟨late, .fetching⟩ ((fetched.map SyncPhase.fetched).getD .failed))
      else none
    | _ => none
  | .compare i =>
    match s.syncs[i]? with
    | some ⟨late, .fetched user⟩ =>
      some (s.compareCached protos profile i ⟨late, .fetched user⟩ user)
    | _ => none
  | .sendChange i =>
    match s.syncs[i]? with
    | some ⟨late, .sending event⟩ =>
      some { s.setSync i ⟨late, .sending event⟩ .completed with
        queue := s.queue ++ [.updateUser event] }
    | _ => none
  | .incoming event => some { s with queue := s.queue ++ [.updateUser event] }
  | .onResponse =>
    match s.queue with
    | [] => none
    | change :: queue =>
      some { s with users := applyChange protos.updateIntoUser s.users change, queue }

end UserState

/-- The user with the id of the profile, which the server has from now on. -/
def userSystem (protos : UserProtos) (profile : User) : System UserState UserStep where
  step s a := s.step protos profile a

/-! ## The condition -/

section Condition

variable (protos : UserProtos) (profile : User)

/-- A response of the user is the profile; an event of the user sets only what the profile has. -/
def FromProfile : UserChange → Prop
  | .cacheUser user => user.userId = profile.userId → user = profile
  | .updateUser event => event.userId = profile.userId →
      protos.updateIntoUser event profile = profile

/-- The change turns the user into the profile. -/
def Restores (user : User) : UserChange → Prop
  | .cacheUser answer => answer = profile
  | .updateUser event => event.userId = profile.userId ∧ protos.updateIntoUser event user = profile

/-- After its comparison a synchronization still has to send an event that restores the user; when
    it has completed, the user is the profile or is restored by a change in the queue. -/
def Restored (user : User) (queue : List UserChange) : SyncPhase → Prop
  | .fetching | .fetched _ | .failed => True
  | .sending event => Restores protos profile user (.updateUser event)
  | .completed => user = profile ∨ ∃ change ∈ queue, Restores protos profile user change

/-- With the profile come its avatar and its status. -/
def IsComplete (answers : UserAnswers) : Prop :=
  answers.profile.isSome → answers.avatarPath = profile.avatarPath ∧ answers.status = profile.status

instance (answers : UserAnswers) : Decidable (IsComplete profile answers) :=
  inferInstanceAs (Decidable (_ → _ ∧ _))

/-- What passes `on_response` agrees with the profile, or leaves a user that is restored, and a late
    synchronization goes on only with all that it asks for. -/
def KeepsProfile (s : UserState) : UserStep → Prop
  | .onResponse => ∀ change ∈ s.queue.head?, FromProfile protos profile change ∨
      ∀ user ∈ getUser (applyChange protos.updateIntoUser s.users change) profile.userId,
        ∀ task ∈ s.syncs, task.late = true → Restored protos profile user s.queue.tail task.phase
  | .syncFetched i answers =>
      ∀ task ∈ s.syncs[i]?, task.late = true → IsComplete profile answers
  | .request | .requestFetched _ _ | .respond _ | .compare _ | .sendChange _ | .incoming _ => True

instance (change : UserChange) : Decidable (FromProfile protos profile change) :=
  match change with
  | .cacheUser user => inferInstanceAs (Decidable (user.userId = profile.userId → user = profile))
  | .updateUser event => inferInstanceAs (Decidable (event.userId = profile.userId →
      protos.updateIntoUser event profile = profile))

instance (user : User) (change : UserChange) : Decidable (Restores protos profile user change) :=
  match change with
  | .cacheUser answer => inferInstanceAs (Decidable (answer = profile))
  | .updateUser event => inferInstanceAs (Decidable (event.userId = profile.userId ∧
      protos.updateIntoUser event user = profile))

instance (user : User) (queue : List UserChange) (phase : SyncPhase) :
    Decidable (Restored protos profile user queue phase) :=
  match phase with
  | .fetching | .fetched _ | .failed => isTrue trivial
  | .sending event => inferInstanceAs (Decidable (Restores protos profile user (.updateUser event)))
  | .completed => inferInstanceAs (Decidable (user = profile ∨ ∃ change ∈ queue,
      Restores protos profile user change))

instance (s : UserState) (a : UserStep) : Decidable (KeepsProfile protos profile s a) := by
  cases a <;> unfold KeepsProfile <;> infer_instance

end Condition

/-! ## The cached user -/

theorem getUser_modifyFirst {users users' : List User} {id : String} {f : User → User}
    (hf : ∀ user, user.userId = id → (f user).userId = id)
    (h : modifyFirst (fun user => user.userId == id) f users = some users') (userId : String) :
    getUser (some users') userId
      = if id = userId then (getUser (some users) userId).map f
        else getUser (some users) userId := by
  simp only [getUser, Option.bind_some]
  induction users generalizing users' with
  | nil => cases h
  | cons user users ih =>
    simp only [modifyFirst] at h
    split at h
    · next hid =>
      obtain rfl := Option.some.inj h
      have hid : user.userId = id := by simpa using hid
      rw [List.find?_cons, List.find?_cons, hf user hid, hid]
      by_cases hsame : id = userId
      · simp [hsame]
      · have hbeq : (id == userId) = false := by simpa using hsame
        rw [hbeq, if_neg hsame]
    · next hid =>
      obtain ⟨rest, hrest, rfl⟩ := Option.map_eq_some_iff.mp h
      rw [List.find?_cons, List.find?_cons, ih hrest]
      cases huser : user.userId == userId with
      | false => rfl
      | true =>
        have hne : id ≠ userId := by
          rintro rfl
          rw [huser] at hid
          exact hid rfl
        simp [hne]

theorem isSome_modifyFirst (users : List User) (id : String) (f : User → User) :
    (modifyFirst (fun user => user.userId == id) f users).isSome
      = (getUser (some users) id).isSome := by
  simp only [getUser, Option.bind_some, modifyFirst_isSome]

theorem getUser_cacheUser (users : Option (List User)) (user : User) (userId : String) :
    getUser (cacheUser users user) userId
      = if user.userId = userId then some user else getUser users userId := by
  have husers : getUser (some (users.getD [])) userId = getUser users userId := by
    cases users <;> rfl
  have hsome := isSome_modifyFirst (users.getD []) user.userId fun _ => user
  rw [← husers]
  unfold cacheUser
  dsimp only
  cases hreplaced : modifyFirst (fun p => p.userId == user.userId) (fun _ => user)
    (users.getD []) with
  | some replaced =>
    rw [hreplaced] at hsome
    dsimp only
    rw [getUser_modifyFirst (fun _ _ => rfl) hreplaced]
    split
    · next hid =>
      subst hid
      obtain ⟨old, hold⟩ := Option.isSome_iff_exists.mp hsome.symm
      rw [hold]
      rfl
    · rfl
  | none =>
    rw [hreplaced] at hsome
    have hnone : getUser (some (users.getD [])) user.userId = none := by simpa using hsome.symm
    simp only [getUser, Option.bind_some] at hnone ⊢
    rw [List.find?_append]
    by_cases hid : user.userId = userId
    · subst hid
      simp [hnone]
    · simp [hid]

theorem getUser_updateUser {updateIntoUser : UserChangeEvent → User → User}
    (hid : ∀ event user, (updateIntoUser event user).userId = user.userId)
    (users : Option (List User)) (event : UserChangeEvent) (userId : String) :
    getUser (updateUser updateIntoUser users event) userId
      = if event.userId = userId then (getUser users userId).map (updateIntoUser event)
        else getUser users userId := by
  cases users with
  | none => simp [updateUser, getUser]
  | some users =>
    unfold updateUser
    dsimp only
    split
    · next updated hupdated =>
      refine getUser_modifyFirst (fun user huser => ?_) hupdated userId
      rw [hid, huser]
    · next hnone =>
      split
      · next hsame =>
        subst hsame
        have hsome := isSome_modifyFirst users event.userId (updateIntoUser event)
        rw [hnone] at hsome
        have hnone : getUser (some users) event.userId = none := by simpa using hsome.symm
        rw [hnone]
        rfl
      · rfl

/-! ## The invariant -/

section Invariant

variable {protos : UserProtos} {profile : User}

/-- What a late synchronization has achieved. -/
def TaskInv (protos : UserProtos) (profile : User) (cached : User) (queue : List UserChange) :
    SyncPhase → Prop
  | .fetched user => user = profile
  | phase => Restored protos profile cached queue phase

def UserState.Inv (protos : UserProtos) (profile : User) (s : UserState) : Prop :=
  ∃ cached, getUser s.users profile.userId = some cached ∧
    ∀ task ∈ s.syncs, task.late = true → TaskInv protos profile cached s.queue task.phase

theorem userId_of_getUser {users : Option (List User)} {userId : String} {user : User}
    (h : getUser users userId = some user) : user.userId = userId := by
  obtain ⟨list, -, hfind⟩ := Option.bind_eq_some_iff.mp h
  simpa using List.find?_some hfind

/-- A queue that grows keeps what has been achieved. -/
theorem TaskInv.mono {cached : User} {queue queue' : List UserChange} {phase : SyncPhase}
    (h : TaskInv protos profile cached queue phase) (hsub : ∀ change ∈ queue, change ∈ queue') :
    TaskInv protos profile cached queue' phase := by
  cases phase with
  | fetching | failed | fetched | sending => exact h
  | completed =>
    refine Or.imp_right ?_ h
    rintro ⟨change, hmem, hrestores⟩
    exact ⟨change, hsub _ hmem, hrestores⟩

theorem Inv.queued {s : UserState} (h : s.Inv protos profile) {requests : List RequestPhase}
    {queue : List UserChange} (hsub : ∀ change ∈ s.queue, change ∈ queue) :
    ({ s with requests, queue } : UserState).Inv protos profile := by
  obtain ⟨cached, hcached, htasks⟩ := h
  exact ⟨cached, hcached, fun task hmem hlate => (htasks task hmem hlate).mono hsub⟩

theorem Inv.setSync {s : UserState} (h : s.Inv protos profile) {i : Nat} {task : SyncTask}
    {phase : SyncPhase} {queue : List UserChange} (hsub : ∀ change ∈ s.queue, change ∈ queue)
    (hphase : task.late = true → ∀ cached, getUser s.users profile.userId = some cached →
      TaskInv protos profile cached queue phase) :
    ({ s.setSync i task phase with queue } : UserState).Inv protos profile := by
  obtain ⟨cached, hcached, htasks⟩ := h
  refine ⟨cached, hcached, fun task' hmem hlate => ?_⟩
  rcases List.mem_or_eq_of_mem_set hmem with hmem | rfl
  · exact (htasks task' hmem hlate).mono hsub
  · exact hphase hlate cached hcached

/-- The cached user after a change. -/
def applied (protos : UserProtos) (profile cached : User) : UserChange → User
  | .cacheUser user => if user.userId = profile.userId then user else cached
  | .updateUser event =>
    if event.userId = profile.userId then protos.updateIntoUser event cached else cached

theorem getUser_applyChange {users : Option (List User)} {cached : User}
    (h : getUser users profile.userId = some cached) (change : UserChange) :
    getUser (applyChange protos.updateIntoUser users change) profile.userId
      = some (applied protos profile cached change) := by
  cases change with
  | cacheUser user =>
    simp only [applyChange, applied, getUser_cacheUser, h]
    split <;> rfl
  | updateUser event =>
    simp only [applyChange, applied, getUser_updateUser protos.userId_update, h]
    split <;> rfl

theorem applied_profile {change : UserChange} (h : FromProfile protos profile change) :
    applied protos profile profile change = profile := by
  cases change with
  | cacheUser user =>
    simp only [applied]
    split
    · next hid => exact h hid
    · rfl
  | updateUser event =>
    simp only [applied]
    split
    · next hid => exact h hid
    · rfl

/-- A change that agrees with the profile does not disturb one that restores it: what it sets are
    the values of the profile, which the other one leaves or sets. -/
theorem Restores.applied {cached : User} {change restoring : UserChange}
    (h : Restores protos profile cached restoring) (hchange : FromProfile protos profile change) :
    Restores protos profile (applied protos profile cached change) restoring := by
  cases restoring with
  | cacheUser answer => exact h
  | updateUser event =>
    refine ⟨h.1, ?_⟩
    cases change with
    | cacheUser user =>
      simp only [Users.applied]
      split
      · next hid =>
        rw [hchange hid]
        have hagain := protos.update_again event cached
        rwa [h.2] at hagain
      · exact h.2
    | updateUser event' =>
      simp only [Users.applied]
      split
      · next hid => exact protos.update_update event event' cached profile h.2 (hchange hid)
      · exact h.2

theorem applied_of_restores {cached : User} {change : UserChange}
    (h : Restores protos profile cached change) :
    applied protos profile cached change = profile := by
  cases change with
  | cacheUser answer =>
    obtain rfl : answer = profile := h
    exact if_pos rfl
  | updateUser event => exact (if_pos h.1).trans h.2

/-- A change that agrees with the profile keeps what has been achieved. -/
theorem Restored.applied {cached : User} {queue : List UserChange} {change : UserChange}
    {phase : SyncPhase} (h : Restored protos profile cached (change :: queue) phase)
    (hchange : FromProfile protos profile change) :
    Restored protos profile (applied protos profile cached change) queue phase := by
  cases phase with
  | fetching | failed | fetched => trivial
  | sending event =>
    have h : Restores protos profile cached (.updateUser event) := h
    exact h.applied hchange
  | completed =>
    rcases h with rfl | ⟨restoring, hmem, hrestores⟩
    · exact .inl (applied_profile hchange)
    · rcases List.mem_cons.mp hmem with rfl | hmem
      · exact .inl (applied_of_restores hrestores)
      · exact .inr ⟨restoring, hmem, hrestores.applied hchange⟩

theorem inv_onResponse {s : UserState} (h : s.Inv protos profile) {change : UserChange}
    {queue : List UserChange} (hqueue : s.queue = change :: queue)
    (hkeeps : FromProfile protos profile change ∨
      ∀ user ∈ getUser (applyChange protos.updateIntoUser s.users change) profile.userId,
        ∀ task ∈ s.syncs, task.late = true → Restored protos profile user queue task.phase) :
    ({ s with users := applyChange protos.updateIntoUser s.users change, queue } : UserState).Inv
      protos profile := by
  obtain ⟨cached, hcached, htasks⟩ := h
  have hafter : getUser (applyChange protos.updateIntoUser s.users change) profile.userId
      = some (applied protos profile cached change) := getUser_applyChange hcached change
  refine ⟨_, hafter, fun task hmem hlate => ?_⟩
  have htask := htasks task hmem hlate
  have hrestored : Restored protos profile cached s.queue task.phase →
      Restored protos profile (applied protos profile cached change) queue task.phase := by
    intro hrestored
    rcases hkeeps with hfrom | hkeeps
    · rw [hqueue] at hrestored
      exact hrestored.applied hfrom
    · exact hkeeps _ hafter task hmem hlate
  obtain ⟨late, phase⟩ := task
  cases phase with
  | fetched user => exact htask
  | fetching | failed | sending | completed => exact hrestored htask

/-- The fetched user is the profile, if all has come. -/
theorem fetchUser_complete {answers : UserAnswers} {user : User}
    (hanswers : UserState.CanAnswer profile true answers) (hcomplete : IsComplete profile answers)
    (h : fetchUser profile.userId answers = some user) : user = profile := by
  obtain ⟨displayName, hprofile, rfl⟩ := Option.map_eq_some_iff.mp h
  obtain ⟨havatar, hstatus⟩ := hcomplete (by rw [hprofile]; rfl)
  rw [havatar, hstatus, (hanswers rfl).1 displayName hprofile]

/-- The comparison with a fetched user, who is the profile if the synchronization is late. -/
theorem inv_compareCached (hexpresses : protos.Expresses profile) {s : UserState}
    (h : s.Inv protos profile) {i : Nat} {late : Bool} {user : User}
    (htask : s.syncs[i]? = some ⟨late, .fetched user⟩) :
    (s.compareCached protos profile i ⟨late, .fetched user⟩ user).Inv protos profile := by
  have hfetched : late = true → user = profile := by
    obtain ⟨cached, -, htasks⟩ := h
    exact fun hlate => htasks _ (List.mem_of_getElem? htask) hlate
  obtain ⟨cached, hcached, -⟩ := id h
  have hid := userId_of_getUser hcached
  simp only [UserState.compareCached, hcached, Option.getD_some]
  split
  · next heq =>
    refine Inv.setSync h (fun _ hmem => hmem) fun hlate cached' hcached' => ?_
    obtain rfl := Option.some.inj (hcached.symm.trans hcached')
    exact .inl (heq.trans (hfetched hlate))
  · refine Inv.setSync h (fun _ hmem => hmem) fun hlate cached' hcached' => ?_
    obtain rfl := Option.some.inj (hcached.symm.trans hcached')
    obtain rfl := hfetched hlate
    exact ⟨protos.userId_compare cached user hid, hexpresses cached hid⟩

theorem inv_step (hexpresses : protos.Expresses profile) {s t : UserState} {a : UserStep}
    (h : s.Inv protos profile) (hok : KeepsProfile protos profile s a)
    (hstep : (userSystem protos profile).step s a = some t) : t.Inv protos profile := by
  have hstep : s.step protos profile a = some t := hstep
  cases a with
  | request =>
    obtain rfl := Option.some.inj hstep
    obtain ⟨cached, hcached, htasks⟩ := h
    simp only [UserState.getAndSyncUser, hcached]
    refine ⟨cached, hcached, fun task hmem hlate => ?_⟩
    rcases List.mem_append.mp hmem with hmem | hmem
    · exact htasks task hmem hlate
    · rw [List.mem_singleton.mp hmem]
      trivial
  | requestFetched i answers =>
    simp only [UserState.step, Option.ite_none_right_eq_some] at hstep
    obtain ⟨-, hstep⟩ := hstep
    split at hstep <;> exact Option.some.inj hstep ▸ h
  | respond i =>
    simp only [UserState.step] at hstep
    split at hstep
    · obtain rfl := Option.some.inj hstep
      exact Inv.queued h fun _ => List.mem_append_left _
    · cases hstep
  | syncFetched i answers =>
    simp only [UserState.step] at hstep
    split at hstep
    · next late htask =>
      rw [Option.ite_none_right_eq_some, Option.some.injEq] at hstep
      obtain ⟨hanswers, rfl⟩ := hstep
      refine Inv.setSync h (fun _ hmem => hmem) fun hlate cached hcached => ?_
      obtain rfl : late = true := hlate
      have hcomplete : IsComplete profile answers := hok _ htask rfl
      cases hfetched : fetchUser profile.userId answers with
      | none => trivial
      | some user => exact fetchUser_complete hanswers hcomplete hfetched
    · cases hstep
  | compare i =>
    simp only [UserState.step] at hstep
    split at hstep
    · next late user htask =>
      obtain rfl := Option.some.inj hstep
      exact inv_compareCached hexpresses h htask
    · cases hstep
  | sendChange i =>
    simp only [UserState.step] at hstep
    split at hstep
    · next late event htask =>
      obtain rfl := Option.some.inj hstep
      refine Inv.setSync h (fun _ => List.mem_append_left _) fun hlate cached hcached => ?_
      obtain ⟨cached', hcached', htasks⟩ := h
      obtain rfl := Option.some.inj (hcached.symm.trans hcached')
      have hcompletes := htasks _ (List.mem_of_getElem? htask) hlate
      exact .inr ⟨.updateUser event, List.mem_append_right _ List.mem_cons_self, hcompletes⟩
    · cases hstep
  | incoming event =>
    obtain rfl := Option.some.inj hstep
    exact Inv.queued h fun _ => List.mem_append_left _
  | onResponse =>
    simp only [UserState.step] at hstep
    split at hstep
    · cases hstep
    · next change queue hqueue =>
      obtain rfl := Option.some.inj hstep
      simp only [KeepsProfile] at hok
      rw [hqueue] at hok
      exact inv_onResponse h hqueue (hok change rfl)

end Invariant

/-! ## Runs -/

/-- Once a late synchronization has completed and all containers have passed `on_response`, the
    cached user is the profile, in every run in which nothing that differs from the profile passes
    without a change behind it that restores the user, and late synchronizations get all that they
    ask for. At the start, anything can be in flight from before. -/
theorem synced_user (protos : UserProtos) (profile : User) (hexpresses : protos.Expresses profile)
    {start t : UserState} {as : List UserStep}
    (hcached : (getUser start.users profile.userId).isSome)
    (hearlier : ∀ task ∈ start.syncs, task.late = false)
    (hkeeps : (userSystem protos profile).Meets (KeepsProfile protos profile) start as)
    (hrun : (userSystem protos profile).run start as = some t)
    (hcompleted : ⟨true, .completed⟩ ∈ t.syncs) (hqueue : t.queue = []) :
    getUser t.users profile.userId = some profile := by
  have hstart : start.Inv protos profile := by
    obtain ⟨cached, hcached⟩ := Option.isSome_iff_exists.mp hcached
    refine ⟨cached, hcached, fun task hmem hlate => ?_⟩
    rw [hearlier task hmem] at hlate
    cases hlate
  obtain ⟨cached, hcached, htasks⟩ := (userSystem protos profile).inv_of_run
    (fun _ _ _ => inv_step hexpresses) hstart hkeeps hrun
  rcases htasks _ hcompleted rfl with rfl | ⟨event, hmem, -⟩
  · exact hcached
  · rw [hqueue] at hmem
    cases hmem

/-! ## One request -/

/-- Events whose fields are copied. -/
def plainProtos : UserProtos where
  updateIntoUser event user :=
    { user with
      displayName := event.displayName <|> user.displayName
      avatarPath := event.avatarPath <|> user.avatarPath
      status := event.status <|> user.status }
  compareUsers _ new := ⟨new.userId, new.displayName, new.avatarPath, new.status⟩
  userId_update _ _ := rfl
  userId_compare _ _ _ := rfl
  update_again := by
    rintro ⟨id, name, path, status⟩ user
    cases name <;> cases path <;> cases status <;> rfl
  update_update := by
    rintro ⟨id, name, path, status⟩ ⟨id', name', path', status'⟩ user new rfl h
    have hfield : ∀ {α : Type} (set set' old : Option α), (set' <|> (set <|> old)) = (set <|> old) →
        (set <|> (set' <|> old)) = (set <|> old) := by
      intro α set set' old hsame
      cases set with
      | none => exact hsame
      | some value => rfl
    simp only [User.mk.injEq, true_and] at h ⊢
    exact ⟨hfield _ _ _ h.1, hfield _ _ _ h.2.1, hfield _ _ _ h.2.2⟩

def bobBefore : User := ⟨"@bob:hs", some "Bob", some "bob.png", some ⟨1, none⟩⟩

def bobNow : User := ⟨"@bob:hs", some "Robert", some "bob.png", some ⟨1, none⟩⟩

def bobCached : UserState := ⟨some [bobBefore], [], [], []⟩

theorem expresses_bobNow : plainProtos.Expresses bobNow := by
  rintro ⟨id, name, path, status⟩ rfl
  rfl

def bobAnswers : UserAnswers := ⟨some (some "Robert"), some "bob.png", some ⟨1, none⟩⟩

/-- The old answer passes when the event of the synchronization is still to be sent. -/
def answerFirst : List UserStep :=
  [.request, .syncFetched 0 bobAnswers, .compare 0, .respond 0, .onResponse, .sendChange 0,
    .onResponse]

theorem synced_user_answerFirst :
    ∃ t, (userSystem plainProtos bobNow).run bobCached answerFirst = some t ∧
      getUser t.users "@bob:hs" = some bobNow := by
  have hkeeps : (userSystem plainProtos bobNow).Meets (KeepsProfile plainProtos bobNow) bobCached
      answerFirst := by
    decide +kernel
  exact ⟨_, rfl, synced_user plainProtos bobNow expresses_bobNow (by decide +kernel)
    (List.forall_mem_nil _) hkeeps rfl (by decide +kernel) rfl⟩

def statusFails : UserAnswers := ⟨some (some "Robert"), some "bob.png", none⟩

/-- Bob has also gone offline. -/
def bobAway : User := { bobNow with status := some ⟨2, none⟩ }

/-- The synchronization sends its event first; the answer, which was read from the cache before,
    writes the old user back. And a synchronization whose request for the status fails leaves the
    old status. -/
theorem older_response_overwrites :
    ((userSystem plainProtos bobNow).run bobCached
        [.request, .syncFetched 0 bobAnswers, .compare 0, .sendChange 0, .onResponse, .respond 0,
          .onResponse]).map
      (fun t => (t.syncs, t.queue, t.requests, getUser t.users "@bob:hs"))
      = some ([⟨true, .completed⟩], [], [], some bobBefore) ∧
    ((userSystem plainProtos bobAway).run bobCached
        [.request, .respond 0, .onResponse, .syncFetched 0 statusFails, .compare 0, .sendChange 0,
          .onResponse]).map
      (fun t => (t.syncs, t.queue, t.requests, getUser t.users "@bob:hs"))
      = some ([⟨true, .completed⟩], [], [], some bobNow) := by
  constructor <;> decide +kernel

end GoudaMatrix.Users
