/-
  Logins that overlap, and the sync loops of contexts that have been replaced. The task that
  `login_sso` spawns holds the context that was current when it started; until the user has finished
  in the browser the client of that context has no token, so that `is_logged_in` lets further logins
  pass, each of which wipes the session directory and installs another context. A sync loop holds
  its context to its end.

  `overtaken_sso_login` is an SSO login that finishes after a later password login: `LoggedIn`
  is sent for a context that is not the one in `MatrixClientInner`. `logins_are_current` is
  what is needed for that not to happen (`ActsAlone`): no login passes the check of
  `is_logged_in` while another one is under way; a sync loop refreshes, saves or reports only for
  the current context, with no login under way; and the current context does not lose its session
  file while its loop goes on.
-/
import GoudaMatrix.Login.Ownership

namespace GoudaMatrix.Login

open GoudaMatrix.Lib

/-- Every `LoggedIn` status was sent for the client of the current context, with its session in
    the auth file. -/
def LoginsAreCurrent (s : State) : Prop :=
  ∀ l ∈ s.logins, l.current = some l.ctx ∧ l.session ≠ none ∧ l.authFile = l.session

instance : DecidablePred LoginsAreCurrent := fun s => inferInstanceAs (Decidable
  (∀ l ∈ s.logins, l.current = some l.ctx ∧ l.session ≠ none ∧ l.authFile = l.session))

/-- A login between its check and its end; for `login_sso` the end of the spawned task. -/
def Request.LoggingIn (q : Request) : Prop :=
  q.kind ≠ .initialization ∧ q.stage ≠ .check ∧ q.stage ≠ .done

instance : DecidablePred Request.LoggingIn := fun q => inferInstanceAs
  (Decidable (q.kind ≠ .initialization ∧ q.stage ≠ .check ∧ q.stage ≠ .done))

/-- No login is under way. -/
def NoLogin (s : State) : Prop := ∀ q ∈ s.requests, ¬ q.LoggingIn

instance : DecidablePred NoLogin := fun s =>
  inferInstanceAs (Decidable (∀ q ∈ s.requests, ¬ q.LoggingIn))

/-- The session data has been removed, and the login ends without installing a context. -/
def Move.losesData : Move → Bool
  | .removeData deleted ok => deleted && !ok
  | .createContext ok => !ok
  | _ => false

/-- A login passes the check only while no other login is under way, and does not end without the
    session data while the current context syncs; a loop reports, refreshes and saves only for the
    current context while no login is under way, and does save. -/
def ActsAlone (s : State) : Action → Prop
  | .move r m => (m = .whoami .unauthorized → NoLogin s) ∧
      ∀ q ∈ s.requests[r]?, q.kind ≠ .initialization → m.losesData = true →
        ∀ l ∈ s.loops, s.current = some l.ctx → l.phase = .stopped
  | .loop i .synced =>
      ∀ l ∈ s.loops[i]?, l.networkWasUnavailable = true → s.current = some l.ctx ∧ NoLogin s
  | .loop i .refreshed | .loop i (.save true) =>
      ∀ l ∈ s.loops[i]?, s.current = some l.ctx ∧ NoLogin s
  | .loop i (.save false) => ∀ l ∈ s.loops[i]?, s.current ≠ some l.ctx
  | .loop _ .connectionError | .loop _ .failed | .request _ | .revoke _ => True

instance (s : State) (a : Action) : Decidable (ActsAlone s a) := by
  unfold ActsAlone
  split <;> infer_instance

/-! ## The invariant -/

/-- What a login at this stage relies on, when no other login comes in between. -/
def Holds (s : State) : Stage → Prop
  | .login c => s.current = some c
  | .save c tok => s.current = some c ∧ s.token c = some tok
  | .initialSync c | .verification c | .startSync c | .report c =>
    s.current = some c ∧ s.token c ≠ none ∧ s.authFile = s.token c
  | _ => True

/-- The session of the client is the one in the auth file. -/
def Stored (s : State) (c : Nat) : Prop := s.token c ≠ none ∧ s.authFile = s.token c

/-- The context for which a request is going to spawn a loop. -/
def State.target (s : State) : Stage → Option Nat
  | .capture => s.current
  | .report _ | .settle _ true => none
  | stage => stage.ctx

/-- The context that an `initialize` has restored. -/
def Stage.restored : Stage → Option Nat
  | .initialSync c | .verification c | .startSync c | .settle c true => some c
  | _ => none

/-- A login has removed the session data and has not installed its context yet. -/
def Request.Removed (q : Request) : Prop :=
  q.kind ≠ .initialization ∧ (q.stage = .createContext ∨ ∃ c, q.stage = .install c)

/-- The loop has its session in the auth file, or is about to save it. -/
def Kept (s : State) (c : Nat) : LoopPhase → Prop
  | .syncing => Stored s c
  | .saving tok => s.token c = some tok
  | .stopped => True

structure SsoInv (s : State) : Prop where
  bounds : Bounds s
  owned : Private s
  one : ∀ (j j' : Nat) (q q' : Request), s.requests[j]? = some q → q.LoggingIn →
    s.requests[j']? = some q' → q'.LoggingIn → j = j'
  started : ∀ q ∈ s.requests, q.LoggingIn → s.current ≠ none
  holds : ∀ q ∈ s.requests, q.kind ≠ .initialization → Holds s q.stage
  restored : s.current = none → ∀ q ∈ s.requests, q.kind = .initialization →
    ∀ c, q.stage.restored = some c → Stored s c
  /-- A context has at most one loop, which its request spawns. -/
  unlooped : ∀ q ∈ s.requests, ∀ c, s.target q.stage = some c → ∀ l ∈ s.loops, l.ctx ≠ c
  distinct : ∀ (i j : Nat) (l l' : SyncLoop), s.loops[i]? = some l → s.loops[j]? = some l' →
    l.ctx = l'.ctx → i = j
  saving : s.current = none → ∀ l ∈ s.loops, ∀ tok, l.phase ≠ .saving tok
  kept : ∀ l ∈ s.loops, s.current = some l.ctx →
    (∃ q ∈ s.requests, q.Removed) ∨ Kept s l.ctx l.phase
  logins : LoginsAreCurrent s

theorem ssoInv_start (stored valid : Bool) : SsoInv (State.start stored valid) where
  bounds := bounds_start stored valid
  owned := private_start stored valid
  one := by
    intro j j' q q' hq
    cases hq
  started := nofun
  holds := nofun
  restored := fun _ => nofun
  unlooped := nofun
  distinct := by
    intro i j l l' hl
    cases hl
  saving := fun _ => nofun
  kept := nofun
  logins := nofun

/-- `Holds` depends on the current context, its token and the auth file only. -/
theorem holds_congr (s t : State) {stage : Stage} (hcur : t.current = s.current)
    (hfile : t.authFile = s.authFile) (htok : ∀ c, s.current = some c → t.token c = s.token c)
    (h : Holds s stage) : Holds t stage := by
  cases stage with
  | login c => exact hcur.trans h
  | save c tok => exact ⟨hcur.trans h.1, (htok c h.1).trans h.2⟩
  | initialSync c | verification c | startSync c | report c =>
    refine ⟨hcur.trans h.1, ?_, ?_⟩
    · rw [htok c h.1]
      exact h.2.1
    · rw [hfile, htok c h.1]
      exact h.2.2
  | check | removeData | createContext | install | capture | restore | settle | done => trivial

/-- Without a current context a login relies on nothing. -/
theorem holds_of_none {s : State} {stage : Stage} (hcur : s.current = none) (t : State)
    (h : Holds s stage) : Holds t stage := by
  cases stage with
  | login c =>
    rw [Holds, hcur] at h
    cases h
  | save c tok =>
    rw [Holds, hcur] at h
    cases h.1
  | initialSync c | verification c | startSync c | report c =>
    rw [Holds, hcur] at h
    cases h.1
  | check | removeData | createContext | install | capture | restore | settle | done => trivial

/-! ## Moves -/

section Moves

variable {s t : State} {kind : Kind} {stage stage' : Stage} {m : Move}

/-- A login keeps what its stages rely on. -/
theorem Moves.holds (h : Moves s kind stage m t stage') (hk : kind ≠ .initialization)
    (hall : kind.Allows stage) (hlt : ∀ c, stage.ctx = some c → c < s.clients.length)
    (hs : Holds s stage) : Holds t stage' := by
  cases h with
  | created =>
    rw [if_neg hk]
    trivial
  | capture _ c hc => exact hc
  | login _ c =>
    refine ⟨hs, ?_⟩
    rw [State.token_issue, if_pos rfl, List.getElem?_eq_getElem (hlt c rfl)]
    rfl
  | saved _ c tok =>
    refine ⟨hs.1, ?_, hs.2.symm⟩
    exact fun hnone => Option.some_ne_none tok (hs.2.symm.trans hnone)
  | synced | verified => exact hs
  | startSync _ c =>
    rw [if_neg hk]
    have hreport : Holds s (.report c) := hs
    exact holds_congr s _ rfl rfl (fun d _ => s.token_startSync c d) hreport
  | syncNetwork | syncFailed | verifyFailed =>
    cases kind with
    | initialization => exact absurd rfl hk
    | usernamePassword | sso => trivial
  | notRestored | restored => exact absurd hall hk
  | whoamiEnds | whoamiFails | beginInitialization | initialized | removed | removeFailed
  | createFailed | install | loginFailed | restoreNetwork | saveFailed | report | settle
  | settleLoggedIn | lost => trivial

/-- What an `initialize` leaves unchanged. -/
theorem Moves.of_initialization (h : Moves s .initialization stage m t stage')
    (hall : Kind.initialization.Allows stage) {d : Nat} (hne : stage.ctx ≠ some d) :
    t.authFile = s.authFile ∧ t.token d = s.token d ∧
      (s.current ≠ none → t.current = s.current) := by
  generalize hkind : Kind.initialization = kind at h hall
  cases h with
  | created => exact ⟨rfl, s.token_append d, fun _ => rfl⟩
  | restored _ c =>
    refine ⟨rfl, ?_, fun _ => rfl⟩
    rw [State.token_modifyClient, if_neg]
    rintro rfl
    exact hne rfl
  | startSync _ c => exact ⟨rfl, s.token_startSync c d, fun _ => rfl⟩
  | settle _ c hc | settleLoggedIn _ c hc => exact ⟨rfl, rfl, fun hcurrent => absurd hc hcurrent⟩
  | removed | removeFailed | install | login | saved => exact absurd hkind.symm hall
  | _ => exact ⟨rfl, rfl, fun _ => rfl⟩

theorem Moves.loggingIn (h : Moves s kind stage m t stage')
    (hl : Request.LoggingIn ⟨kind, stage'⟩) :
    Request.LoggingIn ⟨kind, stage⟩ ∨ m = .whoami .unauthorized := by
  obtain ⟨hk, -, hdone⟩ := hl
  cases h with
  | whoamiEnds => exact absurd rfl hdone
  | whoamiFails => exact Or.inr rfl
  | beginInitialization | initialized => exact absurd rfl hk
  | _ => exact Or.inl ⟨hk, nofun, nofun⟩

theorem Moves.of_check (h : Moves s kind .check m t stage') : t = s := by
  cases h <;> rfl

/-- The server is asked about the token of the current context. -/
theorem Moves.of_unauthorized (h : Moves s kind stage (.whoami .unauthorized) t stage') :
    stage' = .done ∨ s.current ≠ none := by
  cases h with
  | whoamiEnds => exact Or.inl rfl
  | whoamiFails _ c _ hc => exact Or.inr (hc ▸ Option.some_ne_none c)

/-- Once there is a current context, there always is. -/
theorem Moves.current_none (h : Moves s kind stage m t stage') (hc : t.current = none) :
    s.current = none := by
  cases h with
  | install | settle | settleLoggedIn => cases hc
  | _ => exact hc

theorem logins_sendLoggedIn {c : Nat} (hl : LoginsAreCurrent s) (hcurrent : s.current = some c)
    (hstored : Stored s c) : LoginsAreCurrent (s.sendLoggedIn c) := by
  intro l hmem
  rcases List.mem_append.mp hmem with hmem | hmem
  · exact hl l hmem
  · cases List.mem_singleton.mp hmem
    exact ⟨hcurrent, hstored⟩

theorem Moves.logins (h : Moves s kind stage m t stage') (hk : kind.Allows stage)
    (hs : kind ≠ .initialization → Holds s stage)
    (hrestored : s.current = none → kind = .initialization → ∀ c, stage.restored = some c →
      Stored s c)
    (hl : LoginsAreCurrent s) : LoginsAreCurrent t := by
  cases h with
  | report _ c => exact logins_sendLoggedIn hl (hs hk).1 (hs hk).2
  | settleLoggedIn _ c hc =>
    refine logins_sendLoggedIn (s := { s with current := some c }) hl rfl ?_
    exact hrestored hc hk c rfl
  | _ => exact hl

/-- The context for which a loop will be spawned was that before, or has just been created. -/
theorem Moves.target_next (h : Moves s kind stage m t stage') {c : Nat}
    (hc : t.target stage' = some c) : s.target stage = some c ∨ c = s.clients.length := by
  cases h with
  | created =>
    right
    split at hc <;> exact (Option.some.inj hc).symm
  | startSync => split at hc <;> cases hc
  | syncNetwork | syncFailed | verifyFailed =>
    left
    cases kind <;> cases hc
    all_goals rfl
  | capture _ d hd => exact Or.inl (hd.trans hc)
  | loginFailed | restoreNetwork | saveFailed | removed | removeFailed | whoamiFails | whoamiEnds
  | beginInitialization | initialized | createFailed | report | settle | settleLoggedIn | lost =>
    cases hc
  | install | login | notRestored | restored | saved | synced | verified => exact Or.inl hc

theorem Moves.target_of_startSync {d : Nat} (h : Moves s kind (.startSync d) m t stage') :
    t.target stage' = none := by
  cases h
  split <;> rfl

/-- What an `initialize` has restored. -/
theorem Moves.restored_next (h : Moves s kind stage m t stage') (hk : kind = .initialization)
    (hall : kind.Allows stage) (hlt : ∀ c, stage.ctx = some c → c < s.clients.length) {c : Nat}
    (hs : ∀ c, stage.restored = some c → Stored s c) (hc : stage'.restored = some c) :
    Stored t c := by
  cases h with
  | restored _ d tok hf =>
    obtain rfl : d = c := Option.some.inj hc
    have htok : (s.modifyClient d fun client => { client with token := some tok }).token d
        = some tok := by
      rw [State.token_modifyClient, if_pos rfl, List.getElem?_eq_getElem (hlt d rfl)]
      rfl
    refine ⟨?_, hf.trans htok.symm⟩
    rw [htok]
    exact Option.some_ne_none tok
  | synced | verified => exact hs c hc
  | startSync _ d =>
    rw [if_pos hk] at hc
    have hstored := hs c hc
    unfold Stored at hstored ⊢
    rwa [s.token_startSync d c]
  | created => split at hc <;> cases hc
  | syncNetwork | syncFailed | verifyFailed =>
    cases kind <;> cases hc
  | saved => exact absurd hk hall
  | _ => cases hc

theorem kept_congr (s t : State) {d : Nat} {phase : LoopPhase} (hfile : t.authFile = s.authFile)
    (htoken : t.token d = s.token d) (h : Kept s d phase) : Kept t d phase := by
  cases phase with
  | syncing =>
    unfold Kept Stored at h ⊢
    rwa [hfile, htoken]
  | saving tok => exact htoken.trans h
  | stopped => trivial

/-- The current context keeps its session, unless a login removes its data. -/
theorem Moves.kept (h : Moves s kind stage m t stage') (hall : kind.Allows stage) {d : Nat}
    (hd : s.current = some d) (htarget : s.target stage ≠ some d)
    (hown : kind = .initialization → stage.ctx ≠ some d)
    (hholds : kind ≠ .initialization → Holds s stage) {phase : LoopPhase} (hk : Kept s d phase) :
    Kept t d phase ∨ kind ≠ .initialization ∧ (stage' = .createContext ∨ m.losesData = true) := by
  cases h with
  | removed => exact Or.inr ⟨hall, Or.inl rfl⟩
  | removeFailed _ deleted =>
    cases deleted with
    | false => exact Or.inl (kept_congr s _ rfl rfl hk)
    | true => exact Or.inr ⟨hall, Or.inr rfl⟩
  | created => exact Or.inl (kept_congr s _ rfl (s.token_append d) hk)
  | login _ c =>
    have hcurrent : s.current = some c := hholds hall
    exact absurd (hcurrent.symm.trans hd) htarget
  | saved _ c tok =>
    have hcurrent : s.current = some c := (hholds hall).1
    exact absurd (hcurrent.symm.trans hd) htarget
  | restored _ c tok hf =>
    refine Or.inl (kept_congr s _ rfl ?_ hk)
    rw [State.token_modifyClient, if_neg]
    rintro rfl
    exact htarget rfl
  | startSync _ c => exact Or.inl (kept_congr s _ rfl (s.token_startSync c d) hk)
  | _ => exact Or.inl hk

/-- After its data has been removed, a login installs its context, or ends without. -/
theorem Moves.removed_next (h : Moves s kind stage m t stage') (hk : kind ≠ .initialization)
    (hst : stage = .createContext ∨ ∃ c, stage = .install c) :
    m.losesData = true ∨ (∃ c, stage' = .install c) ∨
      ∃ c, stage = .install c ∧ t.current = some c := by
  cases h with
  | created => exact Or.inr (Or.inl ⟨_, if_neg hk⟩)
  | createFailed => exact Or.inl rfl
  | install _ c => exact Or.inr (Or.inr ⟨c, rfl, rfl⟩)
  | _ => rcases hst with hst | ⟨c, hst⟩ <;> cases hst

/-- A context becomes current when a login installs it or an `initialize` settles. -/
theorem Moves.current_cases (h : Moves s kind stage m t stage') {d : Nat}
    (hd : t.current = some d) :
    s.current = some d ∨ stage = .install d ∨
      s.current = none ∧ t.authFile = s.authFile ∧ t.token d = s.token d ∧
        ∃ loggedIn, stage = .settle d loggedIn := by
  cases h with
  | install _ c =>
    obtain rfl : c = d := Option.some.inj hd
    exact Or.inr (Or.inl rfl)
  | settle _ c hc =>
    obtain rfl : c = d := Option.some.inj hd
    exact Or.inr (Or.inr ⟨hc, rfl, rfl, false, rfl⟩)
  | settleLoggedIn _ c hc =>
    obtain rfl : c = d := Option.some.inj hd
    exact Or.inr (Or.inr ⟨hc, rfl, rfl, true, rfl⟩)
  | _ => exact Or.inl hd

end Moves

/-! ## Moves of other requests -/

section Others

variable {s u : State} {r j : Nat} {q q' : Request} {m : Move} {stage : Stage} {c : Nat}

theorem not_loggingIn {q : Request} (h : ¬ q.LoggingIn) :
    q.kind = .initialization ∨ q.stage = .check ∨ q.stage = .done := by
  by_contra hnot
  push Not at hnot
  exact h hnot

/-- Another request that moves during a login is an `initialize`, or changes nothing. -/
theorem other_move (h : SsoInv s) (hq : s.requests[r]? = some q)
    (hm : Moves s q.kind q.stage m u stage) (hne : j ≠ r) (hj : s.requests[j]? = some q')
    (hl : q'.LoggingIn) : u = s ∨ q.kind = .initialization ∧ u.current = s.current := by
  rcases not_loggingIn fun hlq => hne (h.one j r q' q hj hl hq hlq) with hinit | hst | hst
  · have hkinds := h.owned.kinds q (List.mem_of_getElem? hq)
    rw [hinit] at hm hkinds
    refine Or.inr ⟨hinit, ?_⟩
    cases hcur : s.current with
    | none => exact absurd hcur (h.started q' (List.mem_of_getElem? hj) hl)
    | some d =>
      have hother : q.stage.ctx ≠ some d :=
        fun hd => h.owned.current r q d hq ⟨hd, Or.inl hinit⟩ hcur
      exact ((hm.of_initialization hkinds hother).2.2 (hcur ▸ Option.some_ne_none d)).trans hcur
  · rw [hst] at hm
    exact Or.inl hm.of_check
  · rw [hst] at hm
    generalize q.kind = kind at hm
    cases hm

/-- What another request does not disturb what a login relies on. -/
theorem holds_other (h : SsoInv s) (hq : s.requests[r]? = some q)
    (hm : Moves s q.kind q.stage m u stage) (hne : j ≠ r) (hj : s.requests[j]? = some q')
    (hk : q'.kind ≠ .initialization) : Holds u q'.stage := by
  have hs := h.holds q' (List.mem_of_getElem? hj) hk
  by_cases hl : q'.LoggingIn
  · rcases other_move h hq hm hne hj hl with rfl | ⟨hinit, hcur⟩
    · exact hs
    · have hkinds := h.owned.kinds q (List.mem_of_getElem? hq)
      rw [hinit] at hm hkinds
      have hother : ∀ c, s.current = some c → u.authFile = s.authFile ∧ u.token c = s.token c := by
        intro c hc
        obtain ⟨hfile, htoken, -⟩ := hm.of_initialization hkinds (d := c)
          fun hd => h.owned.current r q c hq ⟨hd, Or.inl hinit⟩ hc
        exact ⟨hfile, htoken⟩
      cases hnone : s.current with
      | none => exact holds_of_none hnone u hs
      | some d => exact holds_congr s u hcur (hother d hnone).1 (fun c hc => (hother c hc).2) hs
  · rcases not_loggingIn hl with hinit | hst | hst
    · exact absurd hinit hk
    · rw [hst]
      trivial
    · rw [hst]
      trivial

theorem ctx_of_target {s : State} {stage : Stage} {c : Nat} (h : s.target stage = some c) :
    stage.ctx = some c ∨ stage = .capture ∧ s.current = some c := by
  cases stage with
  | capture => exact Or.inr ⟨rfl, h⟩
  | settle d loggedIn =>
    cases loggedIn with
    | false => exact Or.inl h
    | true => cases h
  | report => cases h
  | _ => exact Or.inl h

/-- No other request spawns the loop of a context for which this one is going to. -/
theorem target_ne_startSync (h : SsoInv s) {d : Nat} (hq : s.requests[r]? = some q)
    (hst : q.stage = .startSync d) (hne : j ≠ r) (hj : s.requests[j]? = some q')
    (hc : s.target q'.stage = some c) : d ≠ c := by
  rintro rfl
  have hmem := List.mem_of_getElem? hj
  have hctx : q.stage.ctx = some d := by rw [hst]; rfl
  by_cases hinit : q.kind = .initialization
  · rcases ctx_of_target hc with hc | ⟨-, hc⟩
    · exact hne (h.owned.alone r j q q' d hq ⟨hctx, Or.inl hinit⟩ hj hc)
    · exact h.owned.current r q d hq ⟨hctx, Or.inl hinit⟩ hc
  · have hlogin : q.LoggingIn := ⟨hinit, by rw [hst]; exact nofun, by rw [hst]; exact nofun⟩
    have hother : ¬ q'.LoggingIn := fun hl => hne (h.one j r q' q hj hl hq hlogin)
    rcases not_loggingIn hother with hinit' | hst' | hst'
    · have hnot : q'.stage ≠ .capture := by
        intro hcapture
        have hkinds := h.owned.kinds q' hmem
        rw [hcapture] at hkinds
        exact hkinds hinit'
      rcases ctx_of_target hc with hc | ⟨hcapture, -⟩
      · exact hne (h.owned.alone j r q' q d hj ⟨hc, Or.inl hinit'⟩ hq hctx).symm
      · exact hnot hcapture
    · rw [hst'] at hc
      cases hc
    · rw [hst'] at hc
      cases hc

end Others

/-! ## Moves of requests -/

section Requests

variable {s u : State} {r : Nat} {q : Request} {m : Move} {stage : Stage}

theorem getElem?_concat_cases {α : Type} {xs : List α} {x y : α} {i : Nat}
    (h : (xs ++ [x])[i]? = some y) : xs[i]? = some y ∨ i = xs.length ∧ y = x := by
  rcases Nat.lt_or_ge i xs.length with hlt | hge
  · rw [List.getElem?_append_left hlt] at h
    exact Or.inl h
  · rw [List.getElem?_append_right hge, List.getElem?_singleton] at h
    split at h
    · exact Or.inr ⟨by omega, (Option.some.inj h).symm⟩
    · cases h

theorem unlooped_move (h : SsoInv s) (hq : s.requests[r]? = some q)
    (hm : Moves s q.kind q.stage m u stage) :
    ∀ q' ∈ s.requests.set r ⟨q.kind, stage⟩, ∀ c, u.target q'.stage = some c →
      ∀ l ∈ u.loops, l.ctx ≠ c := by
  intro q' hq' c hc l hl
  obtain ⟨j, hj⟩ := List.mem_iff_getElem?.mp hq'
  rcases getElem?_set_cases hj with ⟨-, rfl⟩ | ⟨hne, hj⟩
  · rcases hm.loops_next hl with hl | ⟨d, hst, -⟩
    · rcases hm.target_next hc with hc | rfl
      · exact h.unlooped q (List.mem_of_getElem? hq) c hc l hl
      · exact Nat.ne_of_lt (h.bounds.loop l hl)
    · rw [hst] at hm
      have hnone : u.target stage = none := hm.target_of_startSync
      exact absurd (hnone.symm.trans hc) nofun
  · have hold : s.target q'.stage = some c := by
      rcases ctx_of_target hc with hctx | ⟨hst, hcur⟩
      · generalize q'.stage = st at hc hctx
        cases st with
        | capture => cases hctx
        | settle d loggedIn => cases loggedIn <;> exact hc
        | _ => exact hc
      · have hkinds := h.owned.kinds q' (List.mem_of_getElem? hj)
        rw [hst] at hkinds
        have hlogin : q'.LoggingIn := ⟨hkinds, by rw [hst]; exact nofun, by rw [hst]; exact nofun⟩
        rw [hst]
        rcases other_move h hq hm hne hj hlogin with rfl | ⟨-, hsame⟩
        · exact hcur
        · exact hsame.symm.trans hcur
    rcases hm.loops_next hl with hl | ⟨d, hst, rfl⟩
    · exact h.unlooped q' (List.mem_of_getElem? hj) c hold l hl
    · exact target_ne_startSync h hq hst hne hj hold

theorem distinct_move (h : SsoInv s) (hq : q ∈ s.requests)
    (hm : Moves s q.kind q.stage m u stage) (i j : Nat) (l l' : SyncLoop)
    (hi : u.loops[i]? = some l) (hj : u.loops[j]? = some l') (hctx : l.ctx = l'.ctx) : i = j := by
  have hnew := h.unlooped q hq
  generalize q.stage = st at hm hnew
  generalize q.kind = kind at hm
  cases hm with
  | startSync _ c =>
    have hother := hnew c rfl
    rcases getElem?_concat_cases hi with hi | ⟨rfl, rfl⟩
    · rcases getElem?_concat_cases hj with hj | ⟨rfl, rfl⟩
      · exact h.distinct i j l l' hi hj hctx
      · exact absurd hctx (hother l (List.mem_of_getElem? hi))
    · rcases getElem?_concat_cases hj with hj | ⟨rfl, rfl⟩
      · exact absurd hctx.symm (hother l' (List.mem_of_getElem? hj))
      · rfl
  | _ => exact h.distinct i j l l' hi hj hctx

theorem restored_move (h : SsoInv s) (hq : s.requests[r]? = some q)
    (hm : Moves s q.kind q.stage m u stage) (hnone : u.current = none) :
    ∀ q' ∈ s.requests.set r ⟨q.kind, stage⟩, q'.kind = .initialization →
      ∀ c, q'.stage.restored = some c → Stored u c := by
  intro q' hq' hk c hc
  have hnone := hm.current_none hnone
  have hmem := List.mem_of_getElem? hq
  obtain ⟨j, hj⟩ := List.mem_iff_getElem?.mp hq'
  rcases getElem?_set_cases hj with ⟨-, rfl⟩ | ⟨hne, hj⟩
  · exact hm.restored_next hk (h.owned.kinds q hmem) (h.bounds.stage q hmem)
      (h.restored hnone q hmem hk) hc
  · have hold := h.restored hnone q' (List.mem_of_getElem? hj) hk c hc
    rcases not_loggingIn fun hl => h.started q hmem hl hnone with hinit | hst | hst
    · have hctx : q'.stage.ctx = some c := by
        generalize q'.stage = st at hc
        cases st with
        | settle d loggedIn =>
          cases loggedIn with
          | false => cases hc
          | true => exact hc
        | initialSync | verification | startSync => exact hc
        | _ => cases hc
      have hkinds := h.owned.kinds q hmem
      rw [hinit] at hm hkinds
      obtain ⟨hfile, htoken, -⟩ := hm.of_initialization hkinds (d := c) fun hd =>
        hne (h.owned.alone r j q q' c hq ⟨hd, Or.inl hinit⟩ hj hctx)
      unfold Stored
      rw [hfile, htoken]
      exact hold
    · rw [hst] at hm
      rwa [hm.of_check]
    · rw [hst] at hm
      generalize q.kind = kind at hm
      cases hm

/-- The loop of the current context keeps its session. -/
theorem kept_move (h : SsoInv s) (hok : ActsAlone s (.move r m)) (hq : s.requests[r]? = some q)
    (hm : Moves s q.kind q.stage m u stage) (l : SyncLoop) (hl : l ∈ u.loops)
    (hcur : u.current = some l.ctx) :
    (∃ q' ∈ s.requests.set r ⟨q.kind, stage⟩, q'.Removed) ∨ Kept u l.ctx l.phase := by
  have hmem := List.mem_of_getElem? hq
  have hself : ⟨q.kind, stage⟩ ∈ s.requests.set r ⟨q.kind, stage⟩ :=
    List.mem_set (List.getElem?_eq_some_iff.mp hq).1 _
  have hown : ∀ d, s.current = some d → q.kind = .initialization → q.stage.ctx ≠ some d :=
    fun d hd hinit hctx => h.owned.current r q d hq ⟨hctx, Or.inl hinit⟩ hd
  rcases hm.loops_next hl with hl | ⟨d, hst, rfl⟩
  · have htarget : s.target q.stage ≠ some l.ctx := fun hc => h.unlooped q hmem _ hc l hl rfl
    rcases hm.current_cases hcur with hbefore | hst | ⟨hnone, hfile, htoken, loggedIn, hst⟩
    · have hlost : q.kind ≠ .initialization → m.losesData = true → Kept u l.ctx l.phase := by
        intro hk hloses
        rw [hok.2 q hq hk hloses l hl hbefore]
        trivial
      rcases h.kept l hl hbefore with ⟨q', hq', hremoved⟩ | hkept
      · obtain ⟨j, hj⟩ := List.mem_iff_getElem?.mp hq'
        by_cases hjr : j = r
        · subst hjr
          obtain rfl := Option.some.inj (hq.symm.trans hj)
          obtain ⟨hk, hst⟩ := hremoved
          rcases hm.removed_next hk hst with hloses | hnext | ⟨c, hst, hc⟩
          · exact Or.inr (hlost hk hloses)
          · exact Or.inl ⟨_, hself, hk, Or.inr hnext⟩
          · rw [hst] at htarget
            exact absurd (hc.symm.trans hcur) htarget
        · refine Or.inl ⟨q', List.mem_iff_getElem?.mpr ⟨j, ?_⟩, hremoved⟩
          exact (List.getElem?_set_ne (Ne.symm hjr)).trans hj
      · rcases hm.kept (h.owned.kinds q hmem) hbefore htarget (hown _ hbefore)
          (h.holds q hmem) hkept
          with hkept | ⟨hk, hst | hloses⟩
        · exact Or.inr hkept
        · exact Or.inl ⟨_, hself, hk, Or.inl hst⟩
        · exact Or.inr (hlost hk hloses)
    · rw [hst] at htarget
      exact absurd rfl htarget
    · cases loggedIn with
      | false =>
        rw [hst] at htarget
        exact absurd rfl htarget
      | true =>
        have hkinds := h.owned.kinds q hmem
        rw [hst] at hkinds
        have hstored : Stored s l.ctx := h.restored hnone q hmem hkinds l.ctx (by rw [hst]; rfl)
        refine Or.inr (kept_congr s u hfile htoken ?_)
        cases hphase : l.phase with
        | syncing => exact hstored
        | saving tok => exact absurd hphase (h.saving hnone l hl tok)
        | stopped => trivial
  · right
    have hctx : q.stage.ctx = some d := by rw [hst]; rfl
    have hholds := h.holds q hmem
    rw [hst] at hm hholds
    generalize hkind : q.kind = kind at hm
    cases hm
    have hinit : q.kind ≠ .initialization := fun hinit => hown d hcur hinit hctx
    refine kept_congr s _ rfl (s.token_startSync d d) ?_
    exact (hholds hinit).2

end Requests

/-! ## Steps -/

section Steps

variable {s t u : State} {r : Nat} {q : Request} {m : Move} {stage : Stage}

theorem ssoInv_move (h : SsoInv s) (hok : ActsAlone s (.move r m)) (hq : s.requests[r]? = some q)
    (hm : Moves s q.kind q.stage m u stage) :
    SsoInv { u with requests := s.requests.set r ⟨q.kind, stage⟩ } := by
  have hmem := List.mem_of_getElem? hq
  have hall := h.owned.kinds q hmem
  -- the moving request is the only one that is logging in
  have hsole : ∀ (j : Nat) (q' : Request), s.requests[j]? = some q' → q'.LoggingIn →
      Request.LoggingIn ⟨q.kind, stage⟩ → j = r := by
    intro j q' hj hl' hl
    rcases hm.loggingIn hl with hl | rfl
    · exact h.one j r q' q hj hl' hq hl
    · exact absurd hl' (hok.1 rfl q' (List.mem_of_getElem? hj))
  have hrestored := restored_move h hq hm
  have hunlooped := unlooped_move h hq hm
  have hdistinct := distinct_move h hmem hm
  refine ⟨bounds_move h.bounds hq hm, private_move h.bounds h.owned hq hm, ?_, ?_, ?_, hrestored,
    hunlooped, hdistinct, ?_, fun l hl hcur => ?_, ?_⟩
  · intro j j' q₁ q₂ hj hl hj' hl'
    rcases getElem?_set_cases hj with ⟨rfl, rfl⟩ | ⟨hne, hold⟩
    · rcases getElem?_set_cases hj' with ⟨rfl, rfl⟩ | ⟨hne', hold'⟩
      · rfl
      · exact (hsole j' q₂ hold' hl' hl).symm
    · rcases getElem?_set_cases hj' with ⟨rfl, rfl⟩ | ⟨hne', hold'⟩
      · exact hsole j q₁ hold hl hl'
      · exact h.one j j' q₁ q₂ hold hl hold' hl'
  · intro q' hq' hl hnone
    have hnone := hm.current_none hnone
    rcases mem_set_cases hq' with rfl | hq'
    · rcases hm.loggingIn hl with hl | rfl
      · exact h.started q hmem hl hnone
      · rcases hm.of_unauthorized with hdone | hcur
        · exact hl.2.2 hdone
        · exact hcur hnone
    · exact h.started q' hq' hl hnone
  · intro q' hq' hk
    obtain ⟨j, hj⟩ := List.mem_iff_getElem?.mp hq'
    rcases getElem?_set_cases hj with ⟨-, rfl⟩ | ⟨hne, hold⟩
    · have hholds := hm.holds hk hall (h.bounds.stage q hmem) (h.holds q hmem hk)
      exact holds_congr u _ rfl rfl (fun _ _ => rfl) hholds
    · exact holds_congr u _ rfl rfl (fun _ _ => rfl) (holds_other h hq hm hne hold hk)
  · intro hnone l hl tok
    rcases hm.loops_next hl with hl | ⟨c, -, rfl⟩
    · exact h.saving (hm.current_none hnone) l hl tok
    · exact nofun
  · exact (kept_move h hok hq hm l hl hcur).imp_right (kept_congr u _ rfl rfl)
  · exact hm.logins hall (h.holds q hmem)
      (fun hnone hk => h.restored hnone q hmem hk) h.logins

/-- A loop changes something only for the current context, while no login is under way. -/
theorem loop_cases {i c : Nat} {unavailable unavailable' : Bool} {phase phase' : LoopPhase}
    {m : LoopMove} (hok : ActsAlone s (.loop i m)) (hl : s.loops[i]? = some ⟨c, unavailable, phase⟩)
    (hm : LoopMoves s c unavailable phase m u unavailable' phase') :
    (u = s ∧ ∀ tok, phase' ≠ .saving tok) ∨ s.current = some c ∧ NoLogin s := by
  cases hm with
  | synced | connectionError | failed | saveFailed => exact Or.inl ⟨rfl, nofun⟩
  | back => exact Or.inr (hok _ hl rfl)
  | refreshed | saved => exact Or.inr (hok _ hl)

theorem kept_loop {i c : Nat} {unavailable unavailable' : Bool} {phase phase' : LoopPhase}
    {m : LoopMove} (h : SsoInv s) (hok : ActsAlone s (.loop i m))
    (hl : s.loops[i]? = some ⟨c, unavailable, phase⟩)
    (hm : LoopMoves s c unavailable phase m u unavailable' phase') (hcur : s.current = some c)
    (hkept : Kept s c phase) : Kept u c phase' := by
  cases hm with
  | synced | back | connectionError => exact hkept
  | failed => trivial
  | refreshed =>
    have hlt : c < s.clients.length := h.bounds.loop _ (List.mem_of_getElem? hl)
    show (s.issue c).token c = some s.issued
    rw [State.token_issue, if_pos rfl, List.getElem?_eq_getElem hlt]
    rfl
  | saved _ tok =>
    have htok : s.token c = some tok := hkept
    exact ⟨fun hnone => Option.some_ne_none tok (htok.symm.trans hnone), htok.symm⟩
  | saveFailed => exact absurd hcur (hok _ hl)

theorem ssoInv_loop {i c : Nat} {unavailable unavailable' : Bool} {phase phase' : LoopPhase}
    {m : LoopMove} (h : SsoInv s) (hok : ActsAlone s (.loop i m))
    (hl : s.loops[i]? = some ⟨c, unavailable, phase⟩)
    (hm : LoopMoves s c unavailable phase m u unavailable' phase')
    (hb : Bounds { u with loops := s.loops.set i ⟨c, unavailable', phase'⟩ })
    (ho : Private { u with loops := s.loops.set i ⟨c, unavailable', phase'⟩ }) :
    SsoInv { u with loops := s.loops.set i ⟨c, unavailable', phase'⟩ } := by
  obtain ⟨-, hcurrent, hrequests, -⟩ := hm.keeps
  have hmem := List.mem_of_getElem? hl
  have hnot : NoLogin s → ∀ q ∈ s.requests, ∀ t : State, q.kind ≠ .initialization →
    Holds t q.stage := by
    intro hno q hq t hk
    rcases not_loggingIn (hno q hq) with hinit | hst | hst
    · exact absurd hinit hk
    · rw [hst]
      trivial
    · rw [hst]
      trivial
  refine ⟨hb, ho, ?_, ?_, ?_, ?_, ?_, ?_, ?_, ?_, ?_⟩
  · exact hrequests ▸ h.one
  · dsimp only
    rw [hrequests, hcurrent]
    exact h.started
  · intro q hq hk
    rw [hrequests] at hq
    rcases loop_cases hok hl hm with ⟨rfl, -⟩ | ⟨-, hno⟩
    · exact holds_congr u _ rfl rfl (fun _ _ => rfl) (h.holds q hq hk)
    · exact hnot hno q hq _ hk
  · intro hnone q hq hk d hd
    have hnone : s.current = none := hcurrent.symm.trans hnone
    rw [hrequests] at hq
    rcases loop_cases hok hl hm with ⟨rfl, -⟩ | ⟨hc, -⟩
    · exact h.restored hnone q hq hk d hd
    · exact absurd (hc.symm.trans hnone) (Option.some_ne_none c)
  · intro q hq d hd l hl'
    rw [hrequests] at hq
    have hd : s.target q.stage = some d := by
      generalize q.stage = st at hd
      cases st with
      | capture => exact hcurrent.symm.trans hd
      | settle _ loggedIn => cases loggedIn <;> exact hd
      | _ => exact hd
    rcases mem_set_cases hl' with rfl | hl'
    · exact h.unlooped q hq d hd ⟨c, unavailable, phase⟩ hmem
    · exact h.unlooped q hq d hd l hl'
  · intro j j' l₁ l₂ hj hj' hctx
    rcases getElem?_set_cases hj with ⟨rfl, rfl⟩ | ⟨-, hold⟩
    · rcases getElem?_set_cases hj' with ⟨rfl, rfl⟩ | ⟨-, hold'⟩
      · rfl
      · exact h.distinct _ _ _ _ hl hold' hctx
    · rcases getElem?_set_cases hj' with ⟨rfl, rfl⟩ | ⟨-, hold'⟩
      · exact h.distinct _ _ _ _ hold hl hctx
      · exact h.distinct _ _ _ _ hold hold' hctx
  · intro hnone l hl' tok
    have hnone : s.current = none := hcurrent.symm.trans hnone
    rcases mem_set_cases hl' with rfl | hl'
    · rcases loop_cases hok hl hm with ⟨-, hphase⟩ | ⟨hc, -⟩
      · exact hphase tok
      · exact absurd (hc.symm.trans hnone) (Option.some_ne_none c)
    · exact h.saving hnone l hl' tok
  · intro l hl' hcur
    have hcur : s.current = some l.ctx := hcurrent.symm.trans hcur
    dsimp only
    rw [hrequests]
    obtain ⟨j, hj⟩ := List.mem_iff_getElem?.mp hl'
    rcases getElem?_set_cases hj with ⟨-, rfl⟩ | ⟨hne, hold⟩
    · refine (h.kept _ hmem hcur).imp_right fun hkept => ?_
      exact kept_congr u _ rfl rfl (kept_loop h hok hl hm hcur hkept)
    · rcases loop_cases hok hl hm with ⟨rfl, -⟩ | ⟨hc, -⟩
      · exact (h.kept l (List.mem_of_getElem? hold) hcur).imp_right (kept_congr u _ rfl rfl)
      · exact absurd (h.distinct j i l _ hold hl (Option.some.inj (hcur.symm.trans hc))) hne
  · cases hm with
    | back =>
      obtain ⟨hc, hno⟩ := hok _ hl rfl
      refine logins_sendLoggedIn h.logins hc ?_
      rcases h.kept _ hmem hc with ⟨q, hq, hk, hst⟩ | hstored
      · refine absurd ⟨hk, ?_, ?_⟩ (hno q hq)
        · rcases hst with hst | ⟨d, hst⟩ <;> rw [hst] <;> exact nofun
        · rcases hst with hst | ⟨d, hst⟩ <;> rw [hst] <;> exact nofun
      · exact hstored
    | synced | connectionError | failed | refreshed | saved | saveFailed => exact h.logins

theorem ssoInv_step {a : Action} (h : SsoInv s) (hok : ActsAlone s a)
    (hstep : loginSystem.step s a = some t) : SsoInv t := by
  have hstep : step s a = some t := hstep
  have hb := bounds_step h.bounds hstep
  have ho := private_step h.bounds h.owned hstep
  cases a with
  | request kind =>
    cases hstep
    -- the new request is not logging in yet
    have hold : ∀ (j : Nat) (q : Request), (s.requests ++ [⟨kind, .check⟩])[j]? = some q →
        s.requests[j]? = some q ∨ q = ⟨kind, .check⟩ :=
      fun j q hj => (getElem?_concat_cases hj).imp_right And.right
    have hmem : ∀ q ∈ s.requests ++ [⟨kind, .check⟩], q ∈ s.requests ∨ q = ⟨kind, .check⟩ :=
      fun q hq => (List.mem_append.mp hq).imp_right List.mem_singleton.mp
    refine ⟨hb, ho, fun j j' q q' hj hl hj' hl' => ?_, fun q hq hl => ?_, fun q hq hk => ?_,
      fun hnone q hq hk c hc => ?_, fun q hq c hc => ?_, h.distinct, h.saving, fun l hl hcur => ?_,
      h.logins⟩
    · rcases hold j q hj with hj | rfl
      · rcases hold j' q' hj' with hj' | rfl
        · exact h.one j j' q q' hj hl hj' hl'
        · exact absurd rfl hl'.2.1
      · exact absurd rfl hl.2.1
    · rcases hmem q hq with hq | rfl
      · exact h.started q hq hl
      · exact absurd rfl hl.2.1
    · rcases hmem q hq with hq | rfl
      · exact h.holds q hq hk
      · trivial
    · rcases hmem q hq with hq | rfl
      · exact h.restored hnone q hq hk c hc
      · cases hc
    · rcases hmem q hq with hq | rfl
      · exact h.unlooped q hq c hc
      · cases hc
    · refine (h.kept l hl hcur).imp_left ?_
      rintro ⟨q, hq, hremoved⟩
      exact ⟨q, List.mem_append_left _ hq, hremoved⟩
  | move r m =>
    obtain ⟨q, u, stage, hq, hm, rfl⟩ := step_move_inv hstep
    exact ssoInv_move h hok hq hm
  | loop i m =>
    obtain ⟨c, unavailable, phase, u, unavailable', phase', hl, hm, rfl⟩ := step_loop_inv hstep
    exact ssoInv_loop h hok hl hm hb ho
  | revoke tok =>
    cases hstep
    exact ⟨hb, ho, h.one, h.started, h.holds, h.restored, h.unlooped, h.distinct, h.saving, h.kept,
      h.logins⟩

end Steps

/-! ## Runs -/

/-- In every run in which the logins and the sync loops do not get in each other's way, `LoggedIn`
    is sent for the current context, and the auth file holds the session of its client. -/
theorem logins_are_current (stored valid : Bool) (as : List Action) (t : State)
    (hok : loginSystem.Meets ActsAlone (State.start stored valid) as)
    (hrun : loginSystem.run (State.start stored valid) as = some t) : LoginsAreCurrent t := by
  have hinv : SsoInv t :=
    System.inv_of_run _ (fun s a t hs ha hstep => ssoInv_step hs ha hstep)
      (ssoInv_start stored valid) hok hrun
  exact hinv.logins

/-- A first start without a stored session. -/
def initialization : List Action :=
  [.request .initialization, .move 0 .beginInitialization, .move 0 (.createContext true),
    .move 0 (.restore .noFile), .move 0 .settle]

/-- Request `r` passes the check and installs its context. -/
def beginLogin (r : Nat) (kind : Kind) : List Action :=
  [.request kind, .move r (.whoami .unauthorized), .move r (.removeData true true),
    .move r (.createContext true), .move r .install, .move r .capture]

/-- The rest of the login of request `r`, which succeeds. -/
def finishLogin (r : Nat) : List Action :=
  [.move r (.login true), .move r (.save true), .move r (.initialSync .ok),
    .move r (.verification true), .move r .startSync, .move r .report]

/-- The loop of the first login hears of a network outage and of a soft logout; then its token is
    revoked, and it still runs when another login replaces its context. -/
def replacedContext : List Action :=
  initialization ++ beginLogin 1 .sso ++ finishLogin 1 ++
    [.loop 0 .connectionError, .loop 0 .synced, .loop 0 .refreshed, .loop 0 (.save true),
      .loop 0 .connectionError, .revoke 2] ++
    beginLogin 2 .usernamePassword ++ [.loop 0 .connectionError] ++ finishLogin 2 ++
    [.loop 0 .failed, .loop 1 .connectionError, .loop 1 .synced]

theorem logins_are_current_replaced : LoginsAreCurrent
    { clients := [⟨none, false⟩, ⟨some 2, true⟩, ⟨some 3, true⟩], current := some 2
      authFile := some 3, accepted := [1, 3], issued := 4
      requests := [⟨.initialization, .done⟩, ⟨.sso, .done⟩, ⟨.usernamePassword, .done⟩]
      loops := [⟨1, true, .stopped⟩, ⟨2, false, .syncing⟩]
      logins := [⟨1, some 1, some 1, some 1⟩, ⟨1, some 1, some 1, some 1⟩,
        ⟨2, some 3, some 2, some 3⟩, ⟨2, some 3, some 2, some 3⟩] } :=
  logins_are_current false false replacedContext _ (by decide +kernel) (by decide +kernel)

/-- The loop of a context that has been replaced finds the network again. -/
def replacedLoop : List Action :=
  initialization ++ beginLogin 1 .usernamePassword ++ finishLogin 1 ++
    [.loop 0 .connectionError, .revoke 1] ++ beginLogin 2 .usernamePassword ++ finishLogin 2 ++
    [.loop 0 .synced]

/-- While an SSO login waits for the browser, a password login installs another context. The
    SSO login then completes for the context that has been replaced. Or the sync loop of a
    replaced context reports that the network is back. -/
theorem overtaken_sso_login :
    (∃ t, loginSystem.run (State.start false false) (initialization ++ beginLogin 1 .sso ++
        beginLogin 2 .usernamePassword ++ finishLogin 2 ++ finishLogin 1) = some t ∧
      t.logins = [⟨2, some 1, some 2, some 1⟩, ⟨1, some 2, some 2, some 2⟩] ∧
      ¬ LoginsAreCurrent t) ∧
    ∃ t, loginSystem.run (State.start false false) replacedLoop = some t ∧
      t.logins = [⟨1, some 1, some 1, some 1⟩, ⟨2, some 2, some 2, some 2⟩,
        ⟨1, some 1, some 2, some 2⟩] ∧
      ¬ LoginsAreCurrent t :=
  ⟨⟨{ clients := [⟨none, false⟩, ⟨some 2, true⟩, ⟨some 1, true⟩], current := some 2
      authFile := some 2, accepted := [1, 2], issued := 3
      requests := [⟨.initialization, .done⟩, ⟨.sso, .done⟩, ⟨.usernamePassword, .done⟩]
      loops := [⟨2, false, .syncing⟩, ⟨1, false, .syncing⟩]
      logins := [⟨2, some 1, some 2, some 1⟩, ⟨1, some 2, some 2, some 2⟩] },
    by decide +kernel, rfl, by decide +kernel⟩,
  ⟨{ clients := [⟨none, false⟩, ⟨some 1, true⟩, ⟨some 2, true⟩], current := some 2
     authFile := some 2, accepted := [2], issued := 3
     requests := [⟨.initialization, .done⟩, ⟨.usernamePassword, .done⟩, ⟨.usernamePassword, .done⟩]
     loops := [⟨1, false, .syncing⟩, ⟨2, false, .syncing⟩]
     logins := [⟨1, some 1, some 1, some 1⟩, ⟨2, some 2, some 2, some 2⟩,
       ⟨1, some 1, some 2, some 2⟩] },
    by decide +kernel, rfl, by decide +kernel⟩⟩

end GoudaMatrix.Login
