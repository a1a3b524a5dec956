/-
  The de-duplication of user changes (`events.rs`), for one user. `is_new_user_change` compares a
  presence or a profile change with the one remembered last; the responses to `get_user` and the
  events of the background synchronization (`user.rs`) reach the application without being
  remembered.

  `stale_status` is a user who is online, whom the synchronization reports as offline, and who is
  online again: the second presence is dropped while the application shows the user offline.
  `dropped_user_in_view` is what is needed for that not to happen (`KeepsTracked`), and what goes
  wrong with the first message that does not meet it.

  What `get_user_avatar_path` returns is an input of the step that asks for it.
-/
import GoudaMatrix.Chat
import GoudaMatrix.Lib.Run

namespace GoudaMatrix.Events

open GoudaMatrix.Lib

/-! ## Changes and the view of the application -/

structure UserChange where
  displayname : Option String
  avatarUri : Option String
  status : Option UserStatus
deriving DecidableEq, Repr

/-- `UserChange::new_profile_change`. The new value of a change is `none` if it has been removed. -/
def UserChange.newProfileChange (displayname avatarUri : Option (Option String)) : UserChange :=
  ⟨displayname.map (·.getD ""), avatarUri.map (·.getD ""), none⟩

/-- The user as the application has them. -/
structure UserView where
  displayName : Option String
  avatarPath : Option String
  status : Option UserStatus
deriving DecidableEq, Repr

namespace UserView

def ofUser (user : User) : UserView := ⟨user.displayName, user.avatarPath, user.status⟩

/-- The application applies an event field by field. -/
def apply (view : UserView) (event : UserChangeEvent) : UserView where
  displayName := event.displayName <|> view.displayName
  avatarPath := event.avatarPath <|> view.avatarPath
  status := event.status <|> view.status

/-- The view has the values of the event, where an empty text is none. -/
structure Has (view : UserView) (event : UserChangeEvent) : Prop where
  displayName : ∀ name ∈ event.displayName, view.displayName.getD "" = name
  avatarPath : ∀ path ∈ event.avatarPath, view.avatarPath.getD "" = path
  status : ∀ status ∈ event.status, view.status = some status

theorem has_iff (view : UserView) (event : UserChangeEvent) :
    view.Has event ↔ (∀ name ∈ event.displayName, view.displayName.getD "" = name) ∧
      (∀ path ∈ event.avatarPath, view.avatarPath.getD "" = path) ∧
      ∀ status ∈ event.status, view.status = some status :=
  ⟨fun h => ⟨h.1, h.2, h.3⟩, fun h => ⟨h.1, h.2.1, h.2.2⟩⟩

instance (view : UserView) (event : UserChangeEvent) : Decidable (view.Has event) :=
  decidable_of_iff _ (view.has_iff event).symm

theorem has_apply_self (view : UserView) (event : UserChangeEvent) :
    (view.apply event).Has event := by
  refine ⟨fun name h => ?_, fun path h => ?_, fun status h => ?_⟩
  · simp [apply, Option.mem_def.mp h]
  · simp [apply, Option.mem_def.mp h]
  · simp [apply, Option.mem_def.mp h]

end UserView

/-! ## Steps -/

structure UserState where
  /-- The entry of `user_changes`, with the event as which the change has been sent. -/
  tracked : Option (UserChange × UserChangeEvent)
  /-- The event that the executor sends. -/
  pending : Option UserChangeEvent
  view : UserView
  /-- The events of the changes that were dropped, and the view at that moment. -/
  dropped : List (UserChangeEvent × UserView)
deriving DecidableEq, Repr

def UserState.start : UserState := ⟨none, none, ⟨none, none, none⟩, []⟩

inductive UserStep where
  | presence (status : UserStatus)
  /-- A profile change, with what `get_user_avatar_path` returns. -/
  | profile (displayname avatarUri : Option (Option String)) (avatarPath : Option String)
  /-- The executor has sent the pending event. -/
  | send
  /-- A `UserResponse`. -/
  | respond (user : User)
  /-- A `UserChangeEvent` of the background synchronization. -/
  | synchronize (event : UserChangeEvent)
deriving DecidableEq, Repr

section Steps

variable (userId : String)

def isNewUserChange (tracked : Option (UserChange × UserChangeEvent)) (change : UserChange) :
    Bool :=
  match tracked with
  | some old => old.1 ≠ change
  | none => true

/-- The end of `exec_presence_event` and of `process_profile_change`. -/
def UserState.sendIfNew (s : UserState) (c : UserChange × UserChangeEvent) : UserState :=
  if isNewUserChange s.tracked c.1 then { s with tracked := some c, pending := some c.2 }
  else { s with dropped := s.dropped ++ [(c.2, s.view)] }

/-- The change and the event of `exec_presence_event`. -/
def presenceChange (status : UserStatus) : UserChange × UserChangeEvent :=
  (⟨none, none, some status⟩, ⟨userId, none, none, some status⟩)

def execPresenceEvent (s : UserState) (status : UserStatus) : UserState :=
  s.sendIfNew (presenceChange userId status)

/-- The change and the event of `process_profile_change`. -/
def profileChange (displayname avatarUri : Option (Option String)) (avatarPath : Option String) :
    UserChange × UserChangeEvent :=
  let change := UserChange.newProfileChange displayname avatarUri
  (change, ⟨userId, change.displayname,
    if change.avatarUri.isSome then some (avatarPath.getD "") else none, none⟩)

def processProfileChange (s : UserState) (displayname avatarUri : Option (Option String))
    (avatarPath : Option String) : UserState :=
  s.sendIfNew (profileChange userId displayname avatarUri avatarPath)

/-- The executor takes its next action after it has sent the event. -/
def userStep (s : UserState) : UserStep → Option UserState
  | .presence status => if s.pending = none then some (execPresenceEvent userId s status) else none
  | .profile displayname avatarUri avatarPath =>
    if s.pending = none then
      some (processProfileChange userId s displayname avatarUri avatarPath)
    else none
  | .send =>
    match s.pending with
    | some event => some { s with pending := none, view := s.view.apply event }
    | none => none
  | .respond user => some { s with view := .ofUser user }
  | .synchronize event => some { s with view := s.view.apply event }

def userSystem : System UserState UserStep where
  step := userStep userId

end Steps

/-! ## The condition -/

/-- Whenever a change was dropped, the application had its values. -/
def UsersInView (s : UserState) : Prop := ∀ d ∈ s.dropped, d.2.Has d.1

instance : DecidablePred UsersInView := fun s =>
  inferInstanceAs (Decidable (∀ d ∈ s.dropped, d.2.Has d.1))

/-- The events say the same about the fields that both set. -/
structure SayTheSame (event old : UserChangeEvent) : Prop where
  displayName : ∀ name ∈ event.displayName, ∀ name' ∈ old.displayName, name = name'
  avatarPath : ∀ path ∈ event.avatarPath, ∀ path' ∈ old.avatarPath, path = path'
  status : ∀ status ∈ event.status, ∀ status' ∈ old.status, status = status'

instance (event old : UserChangeEvent) : Decidable (SayTheSame event old) :=
  decidable_of_iff ((∀ name ∈ event.displayName, ∀ name' ∈ old.displayName, name = name') ∧
    (∀ path ∈ event.avatarPath, ∀ path' ∈ old.avatarPath, path = path') ∧
    ∀ status ∈ event.status, ∀ status' ∈ old.status, status = status')
    ⟨fun h => ⟨h.1, h.2.1, h.2.2⟩, fun h => ⟨h.1, h.2, h.3⟩⟩

/-- While a remembered change has been sent, other messages say nothing else about its fields; and
    the avatar of a repeated profile change has the path that has been sent. -/
def KeepsTracked (s : UserState) : UserStep → Prop
  | .respond user => s.pending = none → ∀ c ∈ s.tracked, (UserView.ofUser user).Has c.2
  | .synchronize event => s.pending = none → ∀ c ∈ s.tracked, SayTheSame event c.2
  | .profile displayname avatarUri avatarPath => s.pending = none → ∀ c ∈ s.tracked,
      c.1 = UserChange.newProfileChange displayname avatarUri →
      ∀ path ∈ c.2.avatarPath, avatarPath.getD "" = path
  | _ => True

instance (s : UserState) : DecidablePred (KeepsTracked s)
  | .respond user => inferInstanceAs (Decidable (s.pending = none → ∀ c ∈ s.tracked,
      (UserView.ofUser user).Has c.2))
  | .synchronize event => inferInstanceAs (Decidable (s.pending = none → ∀ c ∈ s.tracked,
      SayTheSame event c.2))
  | .profile displayname avatarUri avatarPath => inferInstanceAs (Decidable (s.pending = none →
      ∀ c ∈ s.tracked, c.1 = UserChange.newProfileChange displayname avatarUri →
      ∀ path ∈ c.2.avatarPath, avatarPath.getD "" = path))
  | .presence _ | .send => isTrue trivial

/-! ## The invariant -/

section Invariant

variable {userId : String}

/-- A change as the executor makes them. -/
def Arrives (userId : String) (c : UserChange × UserChangeEvent) : Prop :=
  (∃ status, c = presenceChange userId status) ∨
    ∃ displayname avatarUri avatarPath, c = profileChange userId displayname avatarUri avatarPath

theorem Arrives.event {c : UserChange × UserChangeEvent} (h : Arrives userId c) :
    c.2 = ⟨userId, c.1.displayname, c.2.avatarPath, c.1.status⟩ ∧
      c.2.avatarPath.isSome = c.1.avatarUri.isSome := by
  rcases h with ⟨status, rfl⟩ | ⟨displayname, avatarUri, avatarPath, rfl⟩
  · exact ⟨rfl, rfl⟩
  · refine ⟨rfl, ?_⟩
    unfold profileChange
    cases avatarUri <;> rfl

/-- A change determines its event but for the path of the avatar. -/
theorem Arrives.event_eq {c c' : UserChange × UserChangeEvent} (h : Arrives userId c)
    (h' : Arrives userId c') (hchange : c.1 = c'.1)
    (hpath : ∀ path ∈ c.2.avatarPath, ∀ path' ∈ c'.2.avatarPath, path' = path) : c.2 = c'.2 := by
  obtain ⟨heq, hsome⟩ := h.event
  obtain ⟨heq', hsome'⟩ := h'.event
  have hpaths : c.2.avatarPath = c'.2.avatarPath := by
    rw [hchange, ← hsome'] at hsome
    cases hc : c.2.avatarPath with
    | none =>
      cases hc' : c'.2.avatarPath with
      | none => rfl
      | some path' => simp [hc, hc'] at hsome
    | some path =>
      cases hc' : c'.2.avatarPath with
      | none => simp [hc, hc'] at hsome
      | some path' => rw [hpath path hc path' hc']
  rw [heq, heq', hchange, hpaths]

structure UserInv (userId : String) (s : UserState) : Prop where
  dropped : UsersInView s
  arrived : ∀ c, s.tracked = some c → Arrives userId c
  /-- The remembered change is in the view, or it is the next event to be sent. -/
  sent : s.pending = none → ∀ c, s.tracked = some c → s.view.Has c.2
  pending : ∀ event, s.pending = some event → ∃ c, s.tracked = some c ∧ c.2 = event

theorem userInv_start : UserInv userId UserState.start where
  dropped := List.forall_mem_nil _
  arrived := fun _ h => by cases h
  sent := fun _ _ h => by cases h
  pending := fun _ h => by cases h

theorem userInv_sendIfNew {s : UserState} (h : UserInv userId s) (hidle : s.pending = none)
    {c : UserChange × UserChangeEvent} (hc : Arrives userId c)
    (hpath : ∀ old, s.tracked = some old → old.1 = c.1 →
      ∀ path ∈ old.2.avatarPath, ∀ path' ∈ c.2.avatarPath, path' = path) :
    UserInv userId (s.sendIfNew c) := by
  unfold UserState.sendIfNew
  split
  · refine ⟨h.dropped, ?_, (fun hidle => by cases hidle), ?_⟩
    · intro c' hc'
      exact Option.some.inj hc' ▸ hc
    · intro event hevent
      exact ⟨c, rfl, Option.some.inj hevent⟩
  · next hold =>
    refine ⟨fun d hd => ?_, h.arrived, h.sent, h.pending⟩
    rcases List.mem_append.mp hd with hd | hd
    · exact h.dropped d hd
    rw [List.mem_singleton.mp hd]
    unfold isNewUserChange at hold
    cases htracked : s.tracked with
    | none => simp [htracked] at hold
    | some old =>
      have hchange : old.1 = c.1 := by simpa [htracked] using hold
      have hevent : old.2 = c.2 :=
        (h.arrived old htracked).event_eq hc hchange (hpath old htracked hchange)
      exact hevent ▸ h.sent hidle old htracked

theorem has_apply_iff {view : UserView} {old : UserChangeEvent} (h : view.Has old)
    (event : UserChangeEvent) : (view.apply event).Has old ↔ SayTheSame event old := by
  constructor
  · intro hhas
    refine ⟨fun name hname name' hold => ?_, fun path hpath path' hold => ?_,
      fun status hstatus status' hold => ?_⟩
    · simpa [UserView.apply, Option.mem_def.mp hname] using hhas.displayName name' hold
    · simpa [UserView.apply, Option.mem_def.mp hpath] using hhas.avatarPath path' hold
    · simpa [UserView.apply, Option.mem_def.mp hstatus] using hhas.status status' hold
  · intro hagrees
    refine ⟨fun name hold => ?_, fun path hold => ?_, fun status hold => ?_⟩
    · cases hevent : event.displayName with
      | none => simpa [UserView.apply, hevent] using h.displayName name hold
      | some new => simpa [UserView.apply, hevent] using hagrees.displayName new hevent name hold
    · cases hevent : event.avatarPath with
      | none => simpa [UserView.apply, hevent] using h.avatarPath path hold
      | some new => simpa [UserView.apply, hevent] using hagrees.avatarPath new hevent path hold
    · cases hevent : event.status with
      | none => simpa [UserView.apply, hevent] using h.status status hold
      | some new => simpa [UserView.apply, hevent] using hagrees.status new hevent status hold

theorem userInv_step {s t : UserState} {a : UserStep} (h : UserInv userId s)
    (hok : KeepsTracked s a) (hstep : (userSystem userId).step s a = some t) :
    UserInv userId t := by
  have hstep : userStep userId s a = some t := hstep
  cases a with
  | presence status =>
    simp only [userStep, Option.ite_none_right_eq_some, Option.some.injEq] at hstep
    obtain ⟨hidle, rfl⟩ := hstep
    refine userInv_sendIfNew h hidle (.inl ⟨status, rfl⟩) fun old _ _ path _ path' hpath' => ?_
    -- a presence has no avatar
    cases hpath'
  | profile displayname avatarUri avatarPath =>
    simp only [userStep, Option.ite_none_right_eq_some, Option.some.injEq] at hstep
    obtain ⟨hidle, rfl⟩ := hstep
    refine userInv_sendIfNew h hidle (.inr ⟨displayname, avatarUri, avatarPath, rfl⟩)
      fun old htracked hchange path hpath path' hpath' => ?_
    have hsame := hok hidle old htracked hchange path hpath
    simp only [profileChange, Option.mem_def, Option.ite_none_right_eq_some,
      Option.some.injEq] at hpath'
    exact hpath'.2.symm.trans hsame
  | send =>
    simp only [userStep] at hstep
    split at hstep
    · next event hevent =>
      obtain rfl := Option.some.inj hstep
      refine ⟨h.dropped, h.arrived, fun _ c hc => ?_, fun _ hevent => by cases hevent⟩
      obtain ⟨c', hc', rfl⟩ := h.pending event hevent
      rw [hc] at hc'
      obtain rfl := Option.some.inj hc'
      exact UserView.has_apply_self s.view c.2
    · cases hstep
  | respond user =>
    obtain rfl := Option.some.inj hstep
    exact ⟨h.dropped, h.arrived, fun hidle c hc => hok hidle c hc, h.pending⟩
  | synchronize event =>
    obtain rfl := Option.some.inj hstep
    refine ⟨h.dropped, h.arrived, fun hidle c hc => ?_, h.pending⟩
    exact (has_apply_iff (h.sent hidle c hc) event).mpr (hok hidle c hc)

/-! ## Runs -/

/-- The change that is remembered arrives again and is dropped. -/
theorem dropped_again {s : UserState} (hidle : s.pending = none)
    {c : UserChange × UserChangeEvent} (htracked : s.tracked = some c) (hc : Arrives userId c)
    (hlacks : ¬ s.view.Has c.2) :
    ∃ a t, (userSystem userId).step s a = some t ∧ ¬ UsersInView t := by
  have hdrop : s.sendIfNew c = { s with dropped := s.dropped ++ [(c.2, s.view)] } := by
    simp [UserState.sendIfNew, isNewUserChange, htracked]
  have hmem : ¬ UsersInView (s.sendIfNew c) := by
    intro hview
    rw [hdrop] at hview
    exact hlacks (hview (c.2, s.view) (by simp))
  rcases hc with ⟨status, rfl⟩ | ⟨displayname, avatarUri, avatarPath, rfl⟩
  · exact ⟨.presence status, _, if_pos hidle, hmem⟩
  · exact ⟨.profile displayname avatarUri avatarPath, _, if_pos hidle, hmem⟩

/-- A message that does not meet the condition can be followed by a wrong drop, if it is not one. -/
theorem dropped_of_not_keeps {s : UserState} (h : UserInv userId s) {a : UserStep}
    (hlost : ¬ KeepsTracked s a) :
    ∃ as t, (userSystem userId).run s (a :: as) = some t ∧ ¬ UsersInView t := by
  have hnext : ∀ view, (userSystem userId).step s a = some { s with view } → s.pending = none →
      ∀ c, s.tracked = some c → ¬ view.Has c.2 →
      ∃ as t, (userSystem userId).run s (a :: as) = some t ∧ ¬ UsersInView t := by
    intro view hstep hidle c htracked hlacks
    have hagain : ∃ b t, (userSystem userId).step { s with view } b = some t ∧ ¬ UsersInView t :=
      dropped_again hidle htracked (h.arrived c htracked) hlacks
    obtain ⟨b, t, hb, ht⟩ := hagain
    exact ⟨[b], t, by simp [System.run_cons, hstep, hb], ht⟩
  cases a with
  | presence => exact (hlost trivial).elim
  | send => exact (hlost trivial).elim
  | respond user =>
    simp only [KeepsTracked, Option.mem_def, Classical.not_imp, not_forall] at hlost
    obtain ⟨hidle, c, htracked, hlacks⟩ := hlost
    exact hnext _ rfl hidle c htracked hlacks
  | synchronize event =>
    simp only [KeepsTracked, Option.mem_def, Classical.not_imp, not_forall] at hlost
    obtain ⟨hidle, c, htracked, hlacks⟩ := hlost
    refine hnext _ rfl hidle c htracked ?_
    rwa [has_apply_iff (h.sent hidle c htracked)]
  | profile displayname avatarUri avatarPath =>
    simp only [KeepsTracked, Option.mem_def, Classical.not_imp, not_forall] at hlost
    obtain ⟨hidle, c, htracked, hchange, path, hpath, hne⟩ := hlost
    -- the message itself is dropped, with another path
    have hdrop : s.sendIfNew (profileChange userId displayname avatarUri avatarPath)
        = { s with dropped := s.dropped
            ++ [((profileChange userId displayname avatarUri avatarPath).2, s.view)] } := by
      simp [UserState.sendIfNew, isNewUserChange, htracked, hchange, profileChange]
    refine ⟨[], _, by rw [System.run_cons]; exact congrArg (Option.bind · _) (if_pos hidle), ?_⟩
    intro hview
    rw [processProfileChange, hdrop] at hview
    have hhas := hview ((profileChange userId displayname avatarUri avatarPath).2, s.view) (by simp)
    have huri : (UserChange.newProfileChange displayname avatarUri).avatarUri.isSome = true := by
      rw [← hchange, ← ((h.arrived c htracked).event).2, hpath]
      rfl
    have hsent := (h.sent hidle c htracked).avatarPath path hpath
    have hnow := hhas.avatarPath (avatarPath.getD "") (by simp [profileChange, huri])
    exact hne (hnow.symm.trans hsent)

/-- In every run whose messages meet the condition, a dropped change is one whose values the
    application has; and the first message that does not meet it can lead to one that is not. -/
theorem dropped_user_in_view {as : List UserStep} {t : UserState}
    (hok : (userSystem userId).Meets KeepsTracked UserState.start as)
    (hrun : (userSystem userId).run UserState.start as = some t) :
    UsersInView t ∧ ∀ a, ¬ KeepsTracked t a →
      ∃ as u, (userSystem userId).run t (a :: as) = some u ∧ ¬ UsersInView u := by
  have hinv : UserInv userId t :=
    System.inv_of_run _ (fun s a t hs ha hstep => userInv_step hs ha hstep) userInv_start hok hrun
  exact ⟨hinv.dropped, fun a hlost => dropped_of_not_keeps hinv hlost⟩

end Invariant

/-! ## Two runs -/

def online : UserStatus := ⟨1, none⟩

def offline : UserStatus := ⟨0, none⟩

/-- The user is online, and the application is told so. -/
def comesOnline : List UserStep := [.presence online, .send]

/-- A response that agrees, and the same presence again. -/
theorem dropped_user_in_view_online : UsersInView
    ⟨some (presenceChange "@bob:hs" online), none, ⟨some "Bob", none, some online⟩,
      [((presenceChange "@bob:hs" online).2, ⟨some "Bob", none, some online⟩)]⟩ := by
  have hrun : (userSystem "@bob:hs").run UserState.start
      (comesOnline ++ [.respond ⟨"@bob:hs", some "Bob", none, some online⟩, .presence online])
        = some ⟨some (presenceChange "@bob:hs" online), none, ⟨some "Bob", none, some online⟩,
            [((presenceChange "@bob:hs" online).2, ⟨some "Bob", none, some online⟩)]⟩ := by
    decide +kernel
  exact (dropped_user_in_view (by decide +kernel) hrun).1

/-- The synchronization has found the user offline. -/
theorem stale_status :
    ∃ t, (userSystem "@bob:hs").run UserState.start
        (comesOnline ++ [.synchronize ⟨"@bob:hs", none, none, some offline⟩, .presence online])
        = some t ∧
      t.dropped = [((presenceChange "@bob:hs" online).2, ⟨none, none, some offline⟩)] ∧
      ¬ UsersInView t :=
  ⟨⟨some (presenceChange "@bob:hs" online), none, ⟨none, none, some offline⟩,
      [((presenceChange "@bob:hs" online).2, ⟨none, none, some offline⟩)]⟩,
    by decide +kernel, rfl, by decide +kernel⟩

end GoudaMatrix.Events
