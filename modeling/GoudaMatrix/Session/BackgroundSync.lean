/-
  The background synchronization (`session.rs`): `process_sync_result` and the loop around it.

  An iteration is what the homeserver makes of one round: the result of `sync_once`, and what
  becomes of the refresh of the access token, if there is one. The sleep of the retry is not a
  part of the model.

  `statuses_alternate`: what the application hears of the network, over any sequence of results.
  `keeps_running_iff`: a connection error of a sync is retried, but one of a refresh ends the loop
  (`refresh_disconnect_stops`), so that connection errors never end the synchronization exactly
  if no refresh meets one.
-/
import Mathlib.Data.List.Induction
import Mathlib.Data.List.TakeWhile

namespace GoudaMatrix.Session

/-! ## Errors -/

/-- `reqwest::Error`, by its predicates. -/
structure ReqwestError where
  isRequest : Bool
  isConnect : Bool
  isTimeout : Bool
deriving DecidableEq, Repr

structure UnknownTokenErrorData where
  softLogout : Bool
deriving DecidableEq, Repr

/-- The kind of an error that the homeserver answers with. -/
inductive ErrorKind where
  | unknownToken (data : UnknownTokenErrorData)
  | other (code : String)
deriving DecidableEq, Repr

/-- `matrix_sdk::HttpError`. -/
inductive HttpError where
  | reqwest (e : ReqwestError)
  | clientApi (kind : Option ErrorKind)
  | other (message : String)
deriving DecidableEq, Repr

/-- `matrix_sdk::Error`. -/
inductive SdkError where
  | http (e : HttpError)
  | other (message : String)
deriving DecidableEq, Repr

/-- `matrix_sdk::RefreshTokenError`. -/
inductive RefreshTokenError where
  | refreshTokenRequired
  | matrixAuth (e : HttpError)
  | oAuth (message : String)
deriving DecidableEq, Repr

/-- The errors of `error.rs` that end the loop. -/
inductive Error where
  | loggedOut
  | internalError (message : String)
  | matrixSdkError (e : SdkError)
  | matrixSdkRefreshTokenError (e : RefreshTokenError)
deriving DecidableEq, Repr

abbrev Result (α : Type) := Except Error α

def HttpError.isConnectionError : HttpError → Bool
  | .reqwest e => e.isRequest || e.isConnect || e.isTimeout
  | _ => false

/-- `is_connection_error` of `error.rs`. -/
def isConnectionError : SdkError → Bool
  | .http e => e.isConnectionError
  | _ => false

/-- `client_api_error_kind`. -/
def SdkError.clientApiErrorKind : SdkError → Option ErrorKind
  | .http (.clientApi kind) => kind
  | _ => none

def isTokenError (err : SdkError) : Option UnknownTokenErrorData :=
  match err.clientApiErrorKind with
  | some (.unknownToken data) => some data
  | _ => none

/-! ## The process -/

inductive StatusCode where
  | loggedIn
  | networkUnavailable
  | sessionInvalid
deriving DecidableEq, Repr

/-- What the process sends to the application. -/
inductive Sent where
  | statusUpdate (code : StatusCode)
  | error (err : Error)
deriving DecidableEq, Repr

/-- The tokens of a session. -/
structure MatrixSession where
  accessToken : String
  refreshToken : Option String
deriving DecidableEq, Repr

structure SyncProcess where
  userSession : MatrixSession
  /-- What the session file holds. -/
  file : MatrixSession
  networkWasUnavailable : Bool
  /-- What has been sent, oldest first. -/
  sent : List Sent
deriving DecidableEq, Repr

/-- One round of the loop. -/
structure Iteration where
  /-- The result of `sync_once`. -/
  result : Except SdkError Unit
  /-- The result of `refresh_access_token` of the client, if it is called. -/
  refresh : Except RefreshTokenError Unit
  /-- The session of the client after the refresh. -/
  session : Option MatrixSession
  /-- The session can be written to its file. -/
  saves : Bool

namespace SyncProcess

def new (session : MatrixSession) : SyncProcess := ⟨session, session, false, []⟩

def send (p : SyncProcess) (code : StatusCode) : SyncProcess :=
  { p with sent := p.sent ++ [.statusUpdate code] }

def handleConnectionError (p : SyncProcess) : Result Unit × SyncProcess :=
  let p := if p.networkWasUnavailable then p else p.send .networkUnavailable
  (.ok (), { p with networkWasUnavailable := true })

def refreshAccessToken (p : SyncProcess) (it : Iteration) : Result Unit × SyncProcess :=
  match it.refresh with
  | .error e => (.error (.matrixSdkRefreshTokenError e), p)
  | .ok _ =>
    match it.session with
    | none => (.error (.internalError "Unable to retrieve matrix auth session"), p)
    | some session =>
      -- an error when saving the session is logged
      (.ok (), { p with userSession := session, file := if it.saves then session else p.file })

def handleTokenError (p : SyncProcess) (data : UnknownTokenErrorData) (it : Iteration) :
    Result Unit × SyncProcess :=
  if data.softLogout then p.refreshAccessToken it
  else (.error .loggedOut, p.send .sessionInvalid)

def processSyncResult (p : SyncProcess) (it : Iteration) : Result Unit × SyncProcess :=
  match it.result with
  | .ok _ =>
    if p.networkWasUnavailable then
      (.ok (), ({ p with networkWasUnavailable := false } : SyncProcess).send .loggedIn)
    else (.ok (), p)
  | .error err =>
    if isConnectionError err then p.handleConnectionError
    else
      match isTokenError err with
      | some data => p.handleTokenError data it
      | none => (.error (.matrixSdkError err), p)

/-- The results of any iterations, one after another. -/
def processAll (p : SyncProcess) (its : List Iteration) : SyncProcess :=
  its.foldl (fun p it => (p.processSyncResult it).2) p

theorem processAll_concat (p : SyncProcess) (its : List Iteration) (it : Iteration) :
    p.processAll (its ++ [it]) = ((p.processAll its).processSyncResult it).2 := by
  rw [processAll, List.foldl_append]
  rfl

end SyncProcess

/-! ## The loop -/

/-- The task that `start_background_sync` spawns. -/
structure BackgroundSync where
  process : SyncProcess
  running : Bool
deriving DecidableEq, Repr

namespace BackgroundSync

def start (p : SyncProcess) : BackgroundSync := ⟨p, true⟩

/-- One round. A loop that has been left does nothing. -/
def step (s : BackgroundSync) (it : Iteration) : BackgroundSync :=
  if s.running then
    match s.process.processSyncResult it with
    | (.ok _, p) => ⟨p, true⟩
    | (.error .loggedOut, p) => ⟨p, false⟩
    | (.error err, p) => ⟨{ p with sent := p.sent ++ [.error err] }, false⟩
  else s

def run (s : BackgroundSync) (its : List Iteration) : BackgroundSync := its.foldl step s

end BackgroundSync

/-! ## Outcomes -/

inductive SyncOutcome where
  | success
  | connectionError
  | unknownToken (softLogout : Bool)
  | otherError (err : SdkError)
deriving DecidableEq, Repr

inductive RefreshOutcome where
  | success (session : MatrixSession)
  | connectionError
  | otherError (err : Error)
deriving DecidableEq, Repr

namespace Iteration

def outcome (it : Iteration) : SyncOutcome :=
  match it.result with
  | .ok _ => .success
  | .error err =>
    if isConnectionError err then .connectionError
    else
      match isTokenError err with
      | some data => .unknownToken data.softLogout
      | none => .otherError err

/-- A refresh fails with a connection error if its request does. -/
def refreshOutcome (it : Iteration) : RefreshOutcome :=
  match it.refresh with
  | .error (.matrixAuth e) =>
    if e.isConnectionError then .connectionError
    else .otherError (.matrixSdkRefreshTokenError (.matrixAuth e))
  | .error e => .otherError (.matrixSdkRefreshTokenError e)
  | .ok _ =>
    match it.session with
    | some session => .success session
    | none => .otherError (.internalError "Unable to retrieve matrix auth session")

/-- A refresh that fails with a connection error. -/
def RefreshDisconnects (it : Iteration) : Prop :=
  it.outcome = .unknownToken true ∧ it.refreshOutcome = .connectionError

/-- Every failure, of the sync or of the refresh, is a connection error, or the soft logout that
    the refresh is for. -/
def tolerable (it : Iteration) : Bool :=
  match it.outcome with
  | .success | .connectionError => true
  | .unknownToken false | .otherError _ => false
  | .unknownToken true =>
    match it.refreshOutcome with
    | .success _ | .connectionError => true
    | .otherError _ => false

instance (it : Iteration) : Decidable it.RefreshDisconnects := inferInstanceAs (Decidable (_ ∧ _))

end Iteration

/-- What becomes of a result, by its outcome. -/
theorem processSyncResult_eq (p : SyncProcess) (it : Iteration) :
    p.processSyncResult it = match it.outcome with
      | .success =>
        if p.networkWasUnavailable then
          (.ok (), ({ p with networkWasUnavailable := false } : SyncProcess).send .loggedIn)
        else (.ok (), p)
      | .connectionError => p.handleConnectionError
      | .unknownToken softLogout => p.handleTokenError ⟨softLogout⟩ it
      | .otherError err => (.error (.matrixSdkError err), p) := by
  unfold SyncProcess.processSyncResult Iteration.outcome
  cases it.result with
  | ok _ => rfl
  | error err =>
    dsimp only
    split
    · rfl
    · cases isTokenError err <;> rfl

/-- A refresh that fails is an error of the loop, whatever it fails with. -/
theorem refreshAccessToken_isOk (p : SyncProcess) (it : Iteration) :
    (p.refreshAccessToken it).1.toBool = true ↔
      ∃ session, it.refreshOutcome = .success session := by
  unfold SyncProcess.refreshAccessToken Iteration.refreshOutcome
  rcases it.refresh with ⟨_ | e | _⟩ | _
  · simp [Except.toBool]
  · cases hconnection : e.isConnectionError <;> simp [Except.toBool, hconnection]
  · simp [Except.toBool]
  · cases it.session <;> simp [Except.toBool]

/-! ## The status updates -/

/-- The status updates about the network. -/
def SyncProcess.network (p : SyncProcess) : List StatusCode :=
  p.sent.filterMap fun
    | .statusUpdate .loggedIn => some .loggedIn
    | .statusUpdate .networkUnavailable => some .networkUnavailable
    | _ => none

/-- The result of the iteration makes the process send these. -/
def SyncProcess.Sends (p : SyncProcess) (it : Iteration) (codes : List StatusCode) : Prop :=
  (p.processSyncResult it).2.network = p.network ++ codes

/-- What the result changes: the flag, and the updates that are sent. -/
def SyncProcess.codesFor (p : SyncProcess) (it : Iteration) : List StatusCode :=
  match it.outcome with
  | .success => if p.networkWasUnavailable then [.loggedIn] else []
  | .connectionError => if p.networkWasUnavailable then [] else [.networkUnavailable]
  | .unknownToken _ | .otherError _ => []

theorem network_send (p : SyncProcess) (sent : List Sent) :
    ({ p with sent := p.sent ++ sent } : SyncProcess).network
      = p.network ++ ({ p with sent } : SyncProcess).network :=
  List.filterMap_append

theorem refreshAccessToken_keeps (p : SyncProcess) (it : Iteration) :
    (p.refreshAccessToken it).2.sent = p.sent ∧
      (p.refreshAccessToken it).2.networkWasUnavailable = p.networkWasUnavailable := by
  unfold SyncProcess.refreshAccessToken
  split
  · exact ⟨rfl, rfl⟩
  · split <;> exact ⟨rfl, rfl⟩

/-- The updates of the network depend on its flag; only a hard logout sends another one. -/
theorem processSyncResult_sends (p : SyncProcess) (it : Iteration) :
    p.Sends it (p.codesFor it) ∧ ((p.processSyncResult it).2.networkWasUnavailable = true ↔
      it.outcome = .connectionError ∨ p.networkWasUnavailable = true ∧ it.outcome ≠ .success) := by
  unfold SyncProcess.Sends SyncProcess.codesFor
  rw [processSyncResult_eq]
  cases it.outcome with
  | success =>
    cases hflag : p.networkWasUnavailable with
    | false => simp [hflag]
    | true =>
      refine ⟨?_, by simp [SyncProcess.send]⟩
      exact network_send { p with networkWasUnavailable := false } [.statusUpdate .loggedIn]
  | connectionError =>
    unfold SyncProcess.handleConnectionError
    cases p.networkWasUnavailable with
    | false => exact ⟨network_send p [.statusUpdate .networkUnavailable], by simp⟩
    | true =>
      refine ⟨?_, by simp⟩
      simp [SyncProcess.network]
  | unknownToken softLogout =>
    unfold SyncProcess.handleTokenError
    cases softLogout with
    | false =>
      refine ⟨?_, by simp [SyncProcess.send]⟩
      exact network_send p [.statusUpdate .sessionInvalid]
    | true =>
      obtain ⟨hsent, hflag⟩ := refreshAccessToken_keeps p it
      refine ⟨?_, by simp [hflag]⟩
      simp [SyncProcess.network, hsent]
  | otherError err => simp

/-- There has been a connection error since the last success. -/
def Outage (its : List Iteration) : Prop :=
  ∃ before it after, its = before ++ it :: after ∧ it.outcome = .connectionError ∧
    ∀ it' ∈ after, it'.outcome ≠ .success

/-- The updates take turns, and the first one says that the network is unavailable. -/
def Alternates (codes : List StatusCode) : Prop :=
  ∀ i code, codes[i]? = some code → code = if i % 2 = 0 then .networkUnavailable else .loggedIn

theorem not_outage_nil : ¬ Outage [] := by
  rintro ⟨before, it, after, h, -⟩
  simp at h

theorem outage_concat (its : List Iteration) (it : Iteration) :
    Outage (its ++ [it]) ↔
      it.outcome = .connectionError ∨ Outage its ∧ it.outcome ≠ .success := by
  constructor
  · rintro ⟨before, failed, after, heq, hfailed, hafter⟩
    rcases List.eq_nil_or_concat after with rfl | ⟨rest, last, rfl⟩
    · obtain ⟨-, heq⟩ := List.append_inj' heq rfl
      obtain rfl := List.singleton_inj.mp heq
      exact .inl hfailed
    · rw [List.concat_eq_append, ← List.cons_append, ← List.append_assoc] at heq
      obtain ⟨rfl, hlast⟩ := List.append_inj' heq rfl
      obtain rfl := List.singleton_inj.mp hlast
      refine .inr ⟨⟨before, failed, rest, rfl, hfailed, fun it' hit' => ?_⟩, ?_⟩
      · exact hafter it' (by simp [hit'])
      · exact hafter it (by simp)
  · rintro (hfailed | ⟨⟨before, failed, after, rfl, hfailed, hafter⟩, hit⟩)
    · exact ⟨its, it, [], rfl, hfailed, List.forall_mem_nil _⟩
    · refine ⟨before, failed, after ++ [it], by simp, hfailed, fun it' hit' => ?_⟩
      rcases List.mem_append.mp hit' with hit' | hit'
      · exact hafter it' hit'
      · rw [List.mem_singleton.mp hit']
        exact hit

theorem alternates_concat {codes : List StatusCode} (h : Alternates codes) {code : StatusCode}
    (hcode : code = if codes.length % 2 = 0 then .networkUnavailable else .loggedIn) :
    Alternates (codes ++ [code]) := by
  intro i code' hi
  rw [List.getElem?_append] at hi
  split at hi
  · exact h i code' hi
  · rw [List.getElem?_singleton] at hi
    split at hi
    · have hlast : i = codes.length := by omega
      rw [hlast, ← Option.some.inj hi]
      exact hcode
    · cases hi

structure StatusInv (its : List Iteration) (p : SyncProcess) : Prop where
  outage : p.networkWasUnavailable = true ↔ Outage its
  alternates : Alternates p.network
  parity : p.network.length % 2 = if p.networkWasUnavailable then 1 else 0

theorem statusInv_start (session : MatrixSession) : StatusInv [] (SyncProcess.new session) where
  outage := iff_of_false Bool.false_ne_true not_outage_nil
  alternates := fun _ _ h => by cases h
  parity := rfl

theorem statusInv_step {its : List Iteration} {p : SyncProcess} (h : StatusInv its p)
    (it : Iteration) : StatusInv (its ++ [it]) (p.processSyncResult it).2 := by
  obtain ⟨hsends, hflag⟩ := processSyncResult_sends p it
  have hparity := h.parity
  unfold SyncProcess.Sends SyncProcess.codesFor at hsends
  refine ⟨?_, ?_, ?_⟩
  · rw [hflag, outage_concat, h.outage]
  · rw [hsends]
    cases houtcome : it.outcome with
    | unknownToken | otherError => simpa using h.alternates
    | success =>
      cases hunavailable : p.networkWasUnavailable with
      | false => simpa using h.alternates
      | true =>
        rw [hunavailable] at hparity
        exact alternates_concat h.alternates (by simp [hparity])
    | connectionError =>
      cases hunavailable : p.networkWasUnavailable with
      | true => simpa using h.alternates
      | false =>
        rw [hunavailable] at hparity
        exact alternates_concat h.alternates (by simp [hparity])
  · rw [hsends, List.length_append]
    cases houtcome : it.outcome <;> cases hunavailable : p.networkWasUnavailable <;>
      simp [houtcome, hunavailable] at hflag hparity ⊢ <;> simp [hflag] <;> omega

theorem statusInv_run (session : MatrixSession) (its : List Iteration) :
    StatusInv its ((SyncProcess.new session).processAll its) := by
  induction its using List.reverseRecOn with
  | nil => exact statusInv_start session
  | append_singleton its it ih =>
    rw [SyncProcess.processAll_concat]
    exact statusInv_step ih it

/-- Of updates that take turns, every other one is the first again. -/
theorem Alternates.last {codes : List StatusCode} (h : Alternates codes) :
    codes.getLast? = some .networkUnavailable ↔ codes.length % 2 = 1 := by
  rw [List.getLast?_eq_getElem?]
  cases hlast : codes[codes.length - 1]? with
  | none =>
    have hlen := List.getElem?_eq_none_iff.mp hlast
    have hzero : codes.length = 0 := by omega
    simp [hzero]
  | some code =>
    have hlen := (List.getElem?_eq_some_iff.mp hlast).1
    rw [Option.some.injEq, h _ _ hlast]
    split
    · exact iff_of_true rfl (by omega)
    · exact iff_of_false nofun (by omega)

/-- The flag says which update was the last. -/
theorem StatusInv.last {its : List Iteration} {p : SyncProcess} (h : StatusInv its p) :
    p.networkWasUnavailable = true ↔ p.network.getLast? = some .networkUnavailable := by
  have hparity := h.parity
  rw [h.alternates.last]
  cases hflag : p.networkWasUnavailable with
  | false => simp [hflag] at hparity ⊢; omega
  | true => simp [hflag] at hparity ⊢; exact hparity

/-- Whatever the results of the syncs are: the updates alternate and begin with
    `NetworkUnavailable`, a result sends `LoggedIn` exactly if it is a success and there has been a
    connection error since the last one, `NetworkUnavailable` exactly if it is a connection error
    and there has been none, and the flag says which of them was sent last. -/
theorem statuses_alternate (session : MatrixSession) (its : List Iteration) :
    let p := (SyncProcess.new session).processAll its
    Alternates p.network ∧
      (p.networkWasUnavailable = true ↔ p.network.getLast? = some .networkUnavailable) ∧
      ∀ it, (p.Sends it [] ∨ p.Sends it [.loggedIn] ∨ p.Sends it [.networkUnavailable]) ∧
        (p.Sends it [.loggedIn] ↔ it.outcome = .success ∧ Outage its) ∧
        (p.Sends it [.networkUnavailable] ↔ it.outcome = .connectionError ∧ ¬ Outage its) := by
  intro p
  have hinv : StatusInv its p := statusInv_run session its
  refine ⟨hinv.alternates, hinv.last, fun it => ?_⟩
  have hsends := (processSyncResult_sends p it).1
  have hcodes : ∀ codes, p.Sends it codes ↔ p.codesFor it = codes := by
    intro codes
    unfold SyncProcess.Sends at hsends ⊢
    rw [hsends, List.append_cancel_left_eq]
  rw [hcodes, hcodes, hcodes, ← hinv.outage]
  unfold SyncProcess.codesFor
  cases it.outcome <;> cases p.networkWasUnavailable <;> simp

/-! ## The end of the loop -/

/-- The loop goes on after the iteration. -/
def Iteration.continues (it : Iteration) : Bool :=
  match it.outcome with
  | .success | .connectionError => true
  | .unknownToken false | .otherError _ => false
  | .unknownToken true =>
    match it.refreshOutcome with
    | .success _ => true
    | .connectionError | .otherError _ => false

theorem processSyncResult_isOk (p : SyncProcess) (it : Iteration) :
    (p.processSyncResult it).1.toBool = it.continues := by
  rw [processSyncResult_eq]
  unfold Iteration.continues
  cases it.outcome with
  | success => cases p.networkWasUnavailable <;> rfl
  | connectionError => rfl
  | otherError err => rfl
  | unknownToken softLogout =>
    cases softLogout with
    | false => rfl
    | true =>
      have hrefresh := refreshAccessToken_isOk p it
      show (p.refreshAccessToken it).1.toBool = _
      rw [Bool.eq_iff_iff, hrefresh]
      cases it.refreshOutcome <;> simp

theorem running_step (s : BackgroundSync) (it : Iteration) :
    (s.step it).running = (s.running && it.continues) := by
  have hok := processSyncResult_isOk s.process it
  unfold BackgroundSync.step
  split
  · next hrunning =>
    rw [hrunning, Bool.true_and, ← hok]
    rcases hresult : s.process.processSyncResult it with ⟨_ | _, p⟩
    · split <;> simp_all [Except.toBool]
    · simp [Except.toBool]
  · next hrunning => simp [hrunning]

theorem running_run (p : SyncProcess) (its : List Iteration) :
    ((BackgroundSync.start p).run its).running = true ↔ ∀ it ∈ its, it.continues = true := by
  induction its using List.reverseRecOn with
  | nil => simp [BackgroundSync.run, BackgroundSync.start]
  | append_singleton its it ih =>
    have hrun : (BackgroundSync.start p).run (its ++ [it])
        = ((BackgroundSync.start p).run its).step it := by
      rw [BackgroundSync.run, List.foldl_append]
      rfl
    rw [hrun, running_step, Bool.and_eq_true, ih]
    simp [or_imp, forall_and]

theorem continues_iff (it : Iteration) :
    it.continues = true ↔ it.tolerable = true ∧ ¬ it.RefreshDisconnects := by
  unfold Iteration.continues Iteration.tolerable Iteration.RefreshDisconnects
  cases it.outcome with
  | unknownToken softLogout => cases softLogout <;> cases it.refreshOutcome <;> simp
  | success | connectionError | otherError => simp

/-- The loop runs as long as all failures are connection errors and soft logouts, exactly if up to
    the first other failure no refresh has met a connection error. -/
theorem keeps_running_iff (p : SyncProcess) (its : List Iteration) :
    (∀ n, (∀ it ∈ its.take n, it.tolerable = true) →
        ((BackgroundSync.start p).run (its.take n)).running = true) ↔
      ∀ it ∈ its.takeWhile Iteration.tolerable, ¬ it.RefreshDisconnects := by
  constructor
  · intro h it hit
    have htake : its.take (its.takeWhile Iteration.tolerable).length
        = its.takeWhile Iteration.tolerable :=
      (List.prefix_iff_eq_take.mp (List.takeWhile_prefix _)).symm
    have hrunning := h (its.takeWhile Iteration.tolerable).length (by
      rw [htake]
      exact fun it hit => List.mem_takeWhile_imp hit)
    rw [htake, running_run] at hrunning
    exact ((continues_iff it).mp (hrunning it hit)).2
  · intro h n htolerable
    have htaken : its.takeWhile Iteration.tolerable
        = its.take n ++ (its.drop n).takeWhile Iteration.tolerable := by
      conv_lhs => rw [← List.take_append_drop n its]
      exact List.takeWhile_append_of_pos htolerable
    rw [running_run]
    intro it hit
    refine (continues_iff it).mpr ⟨htolerable it hit, h it ?_⟩
    rw [htaken]
    exact List.mem_append_left _ hit

/-- The access token has expired, and the homeserver is gone when it is to be refreshed. -/
def expiredOffline : Iteration where
  result := .error (.http (.clientApi (some (.unknownToken ⟨true⟩))))
  refresh := .error (.matrixAuth (.reqwest ⟨false, true, false⟩))
  session := none
  saves := true

theorem refresh_disconnect_stops :
    expiredOffline.tolerable = true ∧
      ((BackgroundSync.start (SyncProcess.new ⟨"token", some "refresh"⟩)).run
        [expiredOffline]).running = false ∧
      ((BackgroundSync.start (SyncProcess.new ⟨"token", some "refresh"⟩)).run
        [expiredOffline]).process.sent
        = [.error (.matrixSdkRefreshTokenError (.matrixAuth (.reqwest ⟨false, true, false⟩)))] := by
  decide

end GoudaMatrix.Session
