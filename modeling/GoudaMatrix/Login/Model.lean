/-
  Initialization and login (`client.rs`: `initialize`, `restore_session`, `is_logged_in`,
  `reset_session`, `login_username_password`, `login_sso`; `session.rs`: `Session::save`,
  `SyncProcess::sync`, `process_sync_result`, `refresh_access_token`).

  A request is a thread that moves through stages; between two moves of one request any other
  request can move. The task that `login_sso` spawns belongs to its request: the request is
  `done` when the task has ended, not when the login URL has been returned.

  A session is identified by its access token. `accepted` are the tokens for which `whoami`
  succeeds; a login adds a fresh one, and `revoke` models a token that the server stops
  accepting. Network and I/O failures are outcomes of the moves.

  The sync loop that `start_background_sync` spawns holds the context of its request as well, and
  goes on when another context has been installed: it saves a refreshed session to the same auth
  file, and reports that the network is back.

  `logins` is a history variable: for each `LoggedIn` status that a login, an `initialize` or a sync
  loop sends, the context that is logged in, the session of its client, and what `MatrixClientInner`
  and the auth file hold at that moment.
-/
import GoudaMatrix.Lib.Run
import Mathlib.Data.List.Basic

namespace GoudaMatrix.Login

open GoudaMatrix.Lib

abbrev Token := Nat

/-! ## State -/

/-- The client of a `SessionContext`. -/
structure Client where
  /-- The session of `matrix_auth()`. -/
  token : Option Token
  /-- `start_background_sync` has spawned its loop. -/
  syncing : Bool
deriving DecidableEq, Repr

inductive Kind where
  | initialization
  | usernamePassword
  | sso
deriving DecidableEq, Repr

/-- What a request does next; `ctx` is the `SessionContext` it works on. -/
inductive Stage where
  | check
  | removeData
  | createContext
  | install (ctx : Nat)
  | capture
  | login (ctx : Nat)
  | restore (ctx : Nat)
  | save (ctx : Nat) (token : Token)
  | initialSync (ctx : Nat)
  | verification (ctx : Nat)
  | startSync (ctx : Nat)
  | report (ctx : Nat)
  /-- `initialize` stores the client, and returns the status `LoggedIn` or another one. -/
  | settle (ctx : Nat) (loggedIn : Bool)
  | done
deriving DecidableEq, Repr

/-- The context a stage works on. -/
def Stage.ctx : Stage → Option Nat
  | .check | .removeData | .createContext | .capture | .done => none
  | .install c | .login c | .restore c | .save c _ | .initialSync c | .verification c
  | .startSync c | .report c | .settle c _ => some c

/-- The client of the context has its token, the background sync is still to be started. -/
def Stage.afterLogin : Stage → Bool
  | .save _ _ | .initialSync _ | .verification _ | .startSync _ => true
  | _ => false

structure Request where
  kind : Kind
  stage : Stage
deriving DecidableEq, Repr

inductive LoopPhase where
  | syncing
  /-- The token has been refreshed, and is to be saved. -/
  | saving (token : Token)
  | stopped
deriving DecidableEq, Repr

/-- The task that `start_background_sync` spawns. -/
structure SyncLoop where
  ctx : Nat
  networkWasUnavailable : Bool
  phase : LoopPhase
deriving DecidableEq, Repr

/-- A `LoggedIn` status, with what holds when it is sent. -/
structure LoggedIn where
  ctx : Nat
  session : Option Token
  current : Option Nat
  authFile : Option Token
deriving DecidableEq, Repr

structure State where
  clients : List Client
  /-- The context of `MatrixClientInner`, `none` before `initialize` succeeded. -/
  current : Option Nat
  authFile : Option Token
  accepted : List Token
  /-- The next token the server hands out. -/
  issued : Token
  requests : List Request
  loops : List SyncLoop
  logins : List LoggedIn
deriving DecidableEq, Repr

namespace State

/-- The session of the client of context `c`. -/
def token (s : State) (c : Nat) : Option Token := s.clients[c]?.bind Client.token

def syncing (s : State) (c : Nat) : Bool := (s.clients[c]?.map Client.syncing).getD false

/-- `whoami` succeeds for the client of context `c`. -/
def Accepted (s : State) (c : Nat) : Prop := ∃ tok ∈ s.token c, tok ∈ s.accepted

instance (s : State) (c : Nat) : Decidable (s.Accepted c) :=
  inferInstanceAs (Decidable (∃ tok ∈ s.token c, tok ∈ s.accepted))

def modifyClient (s : State) (c : Nat) (f : Client → Client) : State :=
  { s with clients := s.clients.modify c f }

theorem token_modifyClient (s : State) (c d : Nat) (f : Client → Client) :
    (s.modifyClient c f).token d
      = if c = d then s.clients[d]?.bind fun client => (f client).token else s.token d := by
  simp only [token, modifyClient, List.getElem?_modify]
  split <;> cases s.clients[d]? <;> rfl

theorem syncing_modifyClient (s : State) (c d : Nat) (f : Client → Client) :
    (s.modifyClient c f).syncing d
      = if c = d then (s.clients[d]?.map fun client => (f client).syncing).getD false
        else s.syncing d := by
  simp only [syncing, modifyClient, List.getElem?_modify]
  split <;> cases s.clients[d]? <;> rfl

def sendLoggedIn (s : State) (c : Nat) : State :=
  { s with logins := s.logins ++ [⟨c, s.token c, s.current, s.authFile⟩] }

/-- The server hands a token to the client of context `c`. -/
def issue (s : State) (c : Nat) : State :=
  { s.modifyClient c fun client => { client with token := some s.issued } with
    accepted := s.accepted ++ [s.issued], issued := s.issued + 1 }

theorem token_issue (s : State) (c d : Nat) :
    (s.issue c).token d
      = if c = d then s.clients[d]?.map fun _ => s.issued else s.token d := by
  refine (s.token_modifyClient c d fun client => { client with token := some s.issued }).trans ?_
  split <;> cases s.clients[d]? <;> rfl

theorem syncing_issue (s : State) (c d : Nat) : (s.issue c).syncing d = s.syncing d := by
  refine (s.syncing_modifyClient c d fun client => { client with token := some s.issued }).trans ?_
  unfold syncing
  split <;> rfl

def startSync (s : State) (c : Nat) : State :=
  { s.modifyClient c fun client => { client with syncing := true } with
    loops := s.loops ++ [⟨c, false, .syncing⟩] }

theorem token_startSync (s : State) (c d : Nat) : (s.startSync c).token d = s.token d := by
  refine (s.token_modifyClient c d fun client => { client with syncing := true }).trans ?_
  unfold token
  split <;> rfl

theorem syncing_startSync (s : State) (c d : Nat) :
    (s.startSync c).syncing d
      = if c = d then (s.clients[d]?.map fun _ => true).getD false else s.syncing d :=
  s.syncing_modifyClient c d fun client => { client with syncing := true }

/-- The new client of `SessionContext::new` has no session, the others are as before. -/
theorem token_append (s : State) (c : Nat) :
    ({ s with clients := s.clients ++ [⟨none, false⟩] } : State).token c = s.token c := by
  simp only [token]
  rcases Nat.lt_trichotomy c s.clients.length with h | h | h
  · rw [List.getElem?_append_left h]
  · subst h
    simp
  · rw [List.getElem?_eq_none (by simp; omega), List.getElem?_eq_none (by omega)]

theorem syncing_append (s : State) (c : Nat) :
    ({ s with clients := s.clients ++ [⟨none, false⟩] } : State).syncing c = s.syncing c := by
  simp only [syncing]
  rcases Nat.lt_trichotomy c s.clients.length with h | h | h
  · rw [List.getElem?_append_left h]
  · subst h
    simp
  · rw [List.getElem?_eq_none (by simp; omega), List.getElem?_eq_none (by omega)]

theorem token_lt {s : State} {c : Nat} {tok : Token} (h : s.token c = some tok) :
    c < s.clients.length := by
  obtain ⟨client, hc, -⟩ := Option.bind_eq_some_iff.mp h
  exact (List.getElem?_eq_some_iff.mp hc).1

/-- A start of the process. Token 0 is the session an earlier run may have stored. -/
def start (stored valid : Bool) : State where
  clients := []
  current := none
  authFile := if stored then some 0 else none
  accepted := if valid then [0] else []
  issued := 1
  requests := []
  loops := []
  logins := []

end State

/-! ## Moves -/

inductive WhoamiReply where
  | ok
  | unauthorized
  | error
deriving DecidableEq, Repr

inductive RestoreOutcome where
  | noFile
  | unreadable
  | networkError
  | otherError
  | restored
deriving DecidableEq, Repr

inductive SyncOutcome where
  | ok
  | networkError
  | otherError
deriving DecidableEq, Repr

inductive Move where
  | whoami (reply : WhoamiReply)
  | beginInitialization
  /-- `remove_session_data`; it can fail after it has deleted the session directory. -/
  | removeData (deleted ok : Bool)
  | createContext (ok : Bool)
  | install
  | capture
  | login (ok : Bool)
  | restore (outcome : RestoreOutcome)
  | save (ok : Bool)
  | initialSync (outcome : SyncOutcome)
  | verification (ok : Bool)
  | startSync
  | report
  | settle
deriving DecidableEq, Repr

/-- What a sync of the loop comes to. -/
inductive LoopMove where
  | synced
  | connectionError
  /-- A hard logout, a refresh that fails, or any other error. -/
  | failed
  /-- A soft logout, after which the access token is refreshed. -/
  | refreshed
  | save (ok : Bool)
deriving DecidableEq, Repr

inductive Action where
  | request (kind : Kind)
  | move (r : Nat) (m : Move)
  | loop (i : Nat) (m : LoopMove)
  | revoke (tok : Token)
deriving DecidableEq, Repr

/-- What a failed `session.sync` leads to. A login returns the error. `restore_session` returns
    a network error too, so that the client object is dropped; any other error makes
    `initialize` succeed with the status `LoggedOut`. -/
def syncFailed (kind : Kind) (ctx : Nat) (network : Bool) : Stage :=
  match kind with
  | .initialization => if network then .done else .settle ctx false
  | _ => .done

/-- The effect of a move on the shared state, and the next stage of the request. -/
def moveStep (s : State) (kind : Kind) : Stage → Move → Option (State × Stage)
  | .check, .whoami reply =>
    match kind, s.current with
    | .initialization, _ => none
    | _, none => some (s, .done)
    | _, some c =>
      match reply with
      | .ok => if s.Accepted c then some (s, .done) else none
      | .unauthorized => if s.Accepted c then none else some (s, .removeData)
      | .error => some (s, .done)
  | .check, .beginInitialization =>
    match kind, s.current with
    | .initialization, none => some (s, .createContext)
    | .initialization, some _ => some (s, .done)
    | _, _ => none
  | .removeData, .removeData deleted ok =>
    if ok && !deleted then none
    else some ({ s with authFile := if deleted then none else s.authFile },
      if ok then .createContext else .done)
  | .createContext, .createContext ok =>
    if ok then
      some ({ s with clients := s.clients ++ [⟨none, false⟩] },
        if kind = .initialization then .restore s.clients.length else .install s.clients.length)
    else some (s, .done)
  | .install c, .install => some ({ s with current := some c }, .capture)
  | .capture, .capture => s.current.map fun c => (s, .login c)
  | .login c, .login ok =>
    if ok then some (s.issue c, .save c s.issued) else some (s, .done)
  | .restore c, .restore outcome =>
    match outcome, s.authFile with
    | .noFile, none => some (s, .settle c false)
    | .unreadable, some _ => some (s, .settle c false)
    | .networkError, some _ => some (s, .done)
    | .otherError, some _ => some (s, .settle c false)
    | .restored, some tok =>
      some (s.modifyClient c fun client => { client with token := some tok }, .initialSync c)
    | _, _ => none
  | .save c tok, .save ok =>
    if ok then some ({ s with authFile := some tok }, .initialSync c) else some (s, .done)
  | .initialSync c, .initialSync outcome =>
    match outcome with
    | .ok => some (s, .verification c)
    | .networkError => some (s, syncFailed kind c true)
    | .otherError => some (s, syncFailed kind c false)
  -- the errors of send_verification_status_event are not network errors
  | .verification c, .verification ok =>
    some (s, if ok then .startSync c else syncFailed kind c false)
  | .startSync c, .startSync =>
    some (s.startSync c, if kind = .initialization then .settle c true else .report c)
  | .report c, .report => some (s.sendLoggedIn c, .done)
  -- inner.set fails when another initialize was faster
  | .settle c loggedIn, .settle =>
    if s.current = none then
      let t := { s with current := some c }
      some (if loggedIn then t.sendLoggedIn c else t, .done)
    else some (s, .done)
  | _, _ => none

/-- What a move can do, one constructor for each outcome. -/
inductive Moves (s : State) : Kind → Stage → Move → State → Stage → Prop
  | whoamiEnds (kind : Kind) (reply : WhoamiReply) (hk : kind ≠ .initialization) :
      Moves s kind .check (.whoami reply) s .done
  | whoamiFails (kind : Kind) (c : Nat) (hk : kind ≠ .initialization) (hc : s.current = some c)
      (hw : ¬ s.Accepted c) : Moves s kind .check (.whoami .unauthorized) s .removeData
  | beginInitialization (hc : s.current = none) :
      Moves s .initialization .check .beginInitialization s .createContext
  | initialized : Moves s .initialization .check .beginInitialization s .done
  | removed (kind : Kind) : Moves s kind .removeData (.removeData true true)
      { s with authFile := none } .createContext
  | removeFailed (kind : Kind) (deleted : Bool) :
      Moves s kind .removeData (.removeData deleted false)
        { s with authFile := if deleted then none else s.authFile } .done
  | created (kind : Kind) : Moves s kind .createContext (.createContext true)
      { s with clients := s.clients ++ [⟨none, false⟩] }
      (if kind = .initialization then .restore s.clients.length else .install s.clients.length)
  | createFailed (kind : Kind) : Moves s kind .createContext (.createContext false) s .done
  | install (kind : Kind) (c : Nat) :
      Moves s kind (.install c) .install { s with current := some c } .capture
  | capture (kind : Kind) (c : Nat) (hc : s.current = some c) :
      Moves s kind .capture .capture s (.login c)
  | login (kind : Kind) (c : Nat) :
      Moves s kind (.login c) (.login true) (s.issue c) (.save c s.issued)
  | loginFailed (kind : Kind) (c : Nat) : Moves s kind (.login c) (.login false) s .done
  | notRestored (kind : Kind) (c : Nat) (outcome : RestoreOutcome) :
      Moves s kind (.restore c) (.restore outcome) s (.settle c false)
  | restoreNetwork (kind : Kind) (c : Nat) :
      Moves s kind (.restore c) (.restore .networkError) s .done
  | restored (kind : Kind) (c : Nat) (tok : Token) (hf : s.authFile = some tok) :
      Moves s kind (.restore c) (.restore .restored)
        (s.modifyClient c fun client => { client with token := some tok }) (.initialSync c)
  | saved (kind : Kind) (c : Nat) (tok : Token) : Moves s kind (.save c tok) (.save true)
      { s with authFile := some tok } (.initialSync c)
  | saveFailed (kind : Kind) (c : Nat) (tok : Token) :
      Moves s kind (.save c tok) (.save false) s .done
  | synced (kind : Kind) (c : Nat) :
      Moves s kind (.initialSync c) (.initialSync .ok) s (.verification c)
  | syncNetwork (kind : Kind) (c : Nat) :
      Moves s kind (.initialSync c) (.initialSync .networkError) s (syncFailed kind c true)
  | syncFailed (kind : Kind) (c : Nat) :
      Moves s kind (.initialSync c) (.initialSync .otherError) s (syncFailed kind c false)
  | verified (kind : Kind) (c : Nat) :
      Moves s kind (.verification c) (.verification true) s (.startSync c)
  | verifyFailed (kind : Kind) (c : Nat) :
      Moves s kind (.verification c) (.verification false) s (syncFailed kind c false)
  | startSync (kind : Kind) (c : Nat) : Moves s kind (.startSync c) .startSync (s.startSync c)
      (if kind = .initialization then .settle c true else .report c)
  | report (kind : Kind) (c : Nat) : Moves s kind (.report c) .report (s.sendLoggedIn c) .done
  | settle (kind : Kind) (c : Nat) (hc : s.current = none) :
      Moves s kind (.settle c false) .settle { s with current := some c } .done
  | settleLoggedIn (kind : Kind) (c : Nat) (hc : s.current = none) :
      Moves s kind (.settle c true) .settle
        (State.sendLoggedIn { s with current := some c } c) .done
  | lost (kind : Kind) (c : Nat) (loggedIn : Bool) :
      Moves s kind (.settle c loggedIn) .settle s .done

theorem moveStep_inv {s t : State} {kind : Kind} {stage stage' : Stage} {m : Move}
    (h : moveStep s kind stage m = some (t, stage')) : Moves s kind stage m t stage' := by
  unfold moveStep at h
  split at h
  -- the arms in the order of `moveStep`
  · next reply =>
    by_cases hk : kind = .initialization
    · subst hk
      cases h
    cases hc : s.current with
    | none =>
      rw [hc] at h
      cases kind <;> cases h <;> first | exact absurd rfl hk | exact .whoamiEnds _ _ hk
    | some c =>
      rw [hc] at h
      cases reply with
      | ok => cases kind <;> grind [Moves.whoamiEnds]
      | unauthorized => cases kind <;> grind [Moves.whoamiFails]
      | error => cases kind <;> grind [Moves.whoamiEnds]
  · cases kind <;> cases hc : s.current <;> rw [hc] at h <;> cases h
    · exact .beginInitialization hc
    · exact .initialized
  · next deleted ok =>
    cases ok <;> cases deleted <;> cases h
    · exact .removeFailed kind false
    · exact .removeFailed kind true
    · exact .removed kind
  · next ok =>
    cases ok <;> cases h
    · exact .createFailed kind
    · exact .created kind
  · cases h
    exact .install kind _
  · obtain ⟨c, hc, h⟩ := Option.map_eq_some_iff.mp h
    cases h
    exact .capture kind c hc
  · next ok =>
    cases ok <;> cases h
    · exact .loginFailed kind _
    · exact .login kind _
  · next outcome =>
    cases hf : s.authFile <;> rw [hf] at h <;> cases outcome <;> cases h
    · exact .notRestored kind _ _
    · exact .notRestored kind _ _
    · exact .restoreNetwork kind _
    · exact .notRestored kind _ _
    · exact .restored kind _ _ hf
  · next ok =>
    cases ok <;> cases h
    · exact .saveFailed kind _ _
    · exact .saved kind _ _
  · next outcome =>
    cases outcome <;> cases h
    · exact .synced kind _
    · exact .syncNetwork kind _
    · exact .syncFailed kind _
  · next ok =>
    cases ok <;> cases h
    · exact .verifyFailed kind _
    · exact .verified kind _
  · cases h
    exact .startSync kind _
  · cases h
    exact .report kind _
  · next c loggedIn =>
    split at h
    · next hc =>
      cases loggedIn <;> cases h
      · exact .settle kind c hc
      · exact .settleLoggedIn kind c hc
    · cases h
      exact .lost kind c loggedIn
  · cases h

/-- The effect of a loop on the shared state, and the loop afterwards. -/
def loopStep (s : State) (l : SyncLoop) : LoopMove → Option (State × SyncLoop) :=
  match l.phase with
  | .syncing => fun
    | .synced =>
      some (if l.networkWasUnavailable then s.sendLoggedIn l.ctx else s,
        { l with networkWasUnavailable := false })
    | .connectionError => some (s, { l with networkWasUnavailable := true })
    | .failed => some (s, { l with phase := .stopped })
    | .refreshed => some (s.issue l.ctx, { l with phase := .saving s.issued })
    | .save _ => none
  -- an error when saving the session is logged
  | .saving tok => fun
    | .save ok =>
      some (if ok then { s with authFile := some tok } else s, { l with phase := .syncing })
    | .synced | .connectionError | .failed | .refreshed => none
  | .stopped => fun _ => none

/-- What a loop can do, one constructor for each outcome. -/
inductive LoopMoves (s : State) (c : Nat) :
    Bool → LoopPhase → LoopMove → State → Bool → LoopPhase → Prop
  | synced : LoopMoves s c false .syncing .synced s false .syncing
  | back : LoopMoves s c true .syncing .synced (s.sendLoggedIn c) false .syncing
  | connectionError (unavailable : Bool) :
      LoopMoves s c unavailable .syncing .connectionError s true .syncing
  | failed (unavailable : Bool) : LoopMoves s c unavailable .syncing .failed s unavailable .stopped
  | refreshed (unavailable : Bool) : LoopMoves s c unavailable .syncing .refreshed (s.issue c)
      unavailable (.saving s.issued)
  | saved (unavailable : Bool) (tok : Token) : LoopMoves s c unavailable (.saving tok) (.save true)
      { s with authFile := some tok } unavailable .syncing
  | saveFailed (unavailable : Bool) (tok : Token) :
      LoopMoves s c unavailable (.saving tok) (.save false) s unavailable .syncing

theorem loopStep_inv {s t : State} {l l' : SyncLoop} {m : LoopMove}
    (h : loopStep s l m = some (t, l')) : l'.ctx = l.ctx ∧
      LoopMoves s l.ctx l.networkWasUnavailable l.phase m t l'.networkWasUnavailable l'.phase := by
  obtain ⟨c, unavailable, phase⟩ := l
  cases phase with
  | syncing =>
    cases m with
    | synced =>
      cases unavailable <;> cases h
      · exact ⟨rfl, .synced⟩
      · exact ⟨rfl, .back⟩
    | connectionError =>
      cases h
      exact ⟨rfl, .connectionError _⟩
    | failed =>
      cases h
      exact ⟨rfl, .failed _⟩
    | refreshed =>
      cases h
      exact ⟨rfl, .refreshed _⟩
    | save => cases h
  | saving tok =>
    cases m with
    | save ok =>
      cases ok <;> cases h
      · exact ⟨rfl, .saveFailed _ _⟩
      · exact ⟨rfl, .saved _ _⟩
    | synced | connectionError | failed | refreshed => cases h
  | stopped => cases h

def step (s : State) : Action → Option State
  | .request kind => some { s with requests := s.requests ++ [⟨kind, .check⟩] }
  | .move r m => do
    let q ← s.requests[r]?
    let (t, stage) ← moveStep s q.kind q.stage m
    some { t with requests := s.requests.set r ⟨q.kind, stage⟩ }
  | .loop i m => do
    let l ← s.loops[i]?
    let (t, l') ← loopStep s l m
    some { t with loops := s.loops.set i l' }
  | .revoke tok => some { s with accepted := s.accepted.filter (· ≠ tok) }

def loginSystem : System State Action where
  step := step

/-- A move of request `r` in `s`, inverted. -/
theorem step_move_inv {s t : State} {r : Nat} {m : Move} (h : step s (.move r m) = some t) :
    ∃ q u stage, s.requests[r]? = some q ∧ Moves s q.kind q.stage m u stage ∧
      t = { u with requests := s.requests.set r ⟨q.kind, stage⟩ } := by
  simp only [step, Option.bind_eq_bind, Option.bind_eq_some_iff] at h
  obtain ⟨q, hq, ⟨u, stage⟩, hm, h⟩ := h
  cases h
  exact ⟨q, u, stage, hq, moveStep_inv hm, rfl⟩

/-- A move of loop `i` in `s`, inverted. -/
theorem step_loop_inv {s t : State} {i : Nat} {m : LoopMove} (h : step s (.loop i m) = some t) :
    ∃ c unavailable phase u unavailable' phase',
      s.loops[i]? = some ⟨c, unavailable, phase⟩ ∧
      LoopMoves s c unavailable phase m u unavailable' phase' ∧
      t = { u with loops := s.loops.set i ⟨c, unavailable', phase'⟩ } := by
  simp only [step, Option.bind_eq_bind, Option.bind_eq_some_iff] at h
  obtain ⟨⟨c, unavailable, phase⟩, hl, ⟨u, c', unavailable', phase'⟩, hm, h⟩ := h
  cases h
  obtain ⟨rfl, hmoves⟩ := loopStep_inv hm
  exact ⟨_, _, _, u, _, _, hl, hmoves, rfl⟩

end GoudaMatrix.Login
