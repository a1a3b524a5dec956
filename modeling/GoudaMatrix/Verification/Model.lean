/-
  Verification flows (`verification.rs`, `sas.rs`, and the requests of `client.rs` about them).

  `cross_signing_start` spawns a task for the flow and keeps a `VerificationManager` with the sender
  of its action channel. The task is in one of two loops (`wait_for_changes`, and `run` of the
  `SasVerificationManager`), each of which takes a change of its stream or an action, or it is in a
  call of the SDK. What a stream yields and what a call returns are inputs.

  A request first removes the managers of finished tasks and looks for its manager later, so other
  requests and tasks can move in between (`issue`, `serve`). The SDK gives a new id to every flow.

  `received` is what the application gets, events and responses.
-/
import GoudaMatrix.Lib.FirstMatch
import GoudaMatrix.Lib.Run
import Mathlib.Logic.Function.Basic

namespace GoudaMatrix.Verification

open GoudaMatrix.Lib

/-! ## Methods -/

inductive CrossSigningMethod where
  | sasString
  | sasSymbol
deriving DecidableEq

/-- `VerificationMethod` of ruma. -/
inductive VerificationMethod where
  | sasV1
  | other (name : String)
deriving DecidableEq

/-- `cross_signing_methods_from_matrix`. -/
def crossSigningMethodsFromMatrix (methods : List VerificationMethod) : List CrossSigningMethod :=
  methods.flatMap fun
    | .sasV1 => [.sasString, .sasSymbol]
    | .other _ => []

/-- `get_available_methods`. -/
def getAvailableMethods (ourMethods theirMethods : List VerificationMethod) :
    List CrossSigningMethod :=
  crossSigningMethodsFromMatrix (ourMethods.filter fun ours => theirMethods.contains ours)

/-- `cross_signing_methods_to_matrix`; `none` is a number that is no `CrossSigningMethod`. -/
def crossSigningMethodsToMatrix (methods : List (Option CrossSigningMethod)) :
    List VerificationMethod :=
  methods.foldl (fun result method =>
    match method with
    | some .sasString | some .sasSymbol =>
      if .sasV1 ∈ result then result else result ++ [.sasV1]
    | none => result) []

/-! ## What the application receives -/

inductive EndResult where
  | successful (success : Bool)
  | error (message : String)
deriving DecidableEq

structure VerificationEndEvent where
  verificationFlowId : Option String
  result : Option EndResult
deriving DecidableEq

structure VerificationSymbol where
  symbol : String
  description : Option String
deriving DecidableEq

inductive VerificationCode where
  | symbols (symbols : List VerificationSymbol)
  | stringCode (code : String)
deriving DecidableEq

/-- The events that a verification sends. -/
inductive Content where
  | crossSigningStartEvent (verificationFlowId : String)
      (availableMethods : List CrossSigningMethod)
  | crossSigningMethodSelectedEvent (verificationFlowId : String)
      (selectedMethod : CrossSigningMethod) (verificationCode : Option VerificationCode)
  | verificationEndEvent (event : VerificationEndEvent)
deriving DecidableEq

inductive Error where
  | verificationFlowNotFound
  | unsupportedCrossSigningMethod
  | noCrossSigningMethod
  /-- Of the session, of the user identity, or of the SDK. -/
  | other (message : String)
deriving DecidableEq

inductive Response where
  | crossSigningStartResponse (verificationFlowId : String)
  | empty
  | verificationEndEvent (event : VerificationEndEvent)
deriving DecidableEq

inductive Received where
  | event (content : Content)
  | response (result : Except Error Response)

/-- `send_verification_end_event`. -/
def verificationEnd (flowId : String) (success : Bool) : Content :=
  .verificationEndEvent ⟨some flowId, some (.successful success)⟩

/-- `send_verification_end_event_err`. -/
def verificationEndErr (flowId : String) (error : String) : Content :=
  .verificationEndEvent ⟨some flowId, some (.error error)⟩

/-! ## The task of a flow -/

inductive VerificationAction where
  | cancel
  | confirm
  | selectMethod (method : CrossSigningMethod)
deriving DecidableEq

inductive SdkVerification where
  | sasV1
  | other
deriving DecidableEq

inductive VerificationRequestState where
  | created
  | requested
  | ready (theirMethods ourMethods : List VerificationMethod)
  | transitioned (verification : SdkVerification)
  | done
  | cancelled

/-- A symbol and its description. -/
structure Emoji where
  symbol : String
  description : String

inductive SasState where
  | created
  | started
  | accepted
  | keysExchanged (emojis : Option (List Emoji)) (decimals : Nat × Nat × Nat)
  | confirmed
  | done
  | cancelled

/-- Where the task is. -/
inductive Phase where
  /-- The loop of `VerificationProcessor::wait_for_changes`. -/
  | waitForChanges
  /-- `sas.accept()`. -/
  | accepting
  /-- `start_sas()`. -/
  | startingSas
  /-- `cancel()` of the request: from `cancel`, or from `cancel_err` with its error. -/
  | cancelling (error : Option String)
  /-- The loop of `SasVerificationManager::run`. -/
  | sas
  /-- `confirm()` of the SAS verification. -/
  | confirming
  /-- `cancel()` of the SAS verification. -/
  | cancellingSas
  /-- The loops are left. -/
  | returning
  /-- `JoinHandle::is_finished`. -/
  | finished
deriving DecidableEq

def Phase.left : Phase → Bool
  | .returning | .finished => true
  | _ => false

/-- The next phase, and the events that are sent before it. -/
abbrev Outcome := Phase × List Content

namespace VerificationProcessor

variable (flowId : String)

def processStateChange : VerificationRequestState → Outcome
  | .created | .requested => (.waitForChanges, [])
  | .ready theirMethods ourMethods =>
    (.waitForChanges, [.crossSigningStartEvent flowId
      (getAvailableMethods ourMethods theirMethods)])
  | .transitioned .other =>
    (.cancelling "Verification request transitioned into an unsupported verification flow", [])
  | .transitioned .sasV1 => (.accepting, [])
  | .done => (.returning, [])
  | .cancelled => (.returning, [verificationEnd flowId false])

def processAction : Option VerificationAction → Outcome
  | none => (.returning, [])
  | some .cancel => (.cancelling none, [])
  | some (.selectMethod .sasString) | some (.selectMethod .sasSymbol) => (.startingSas, [])
  | some .confirm => (.waitForChanges, [])

/-- After `sas.accept()`. -/
def accepted : Except String Unit → Outcome
  | .error err => (.cancelling err, [])
  | .ok () => (.sas, [])

/-- After `start_sas()`, which returns a SAS verification or none. -/
def sasStarted : Except String Bool → Outcome
  | .error err => (.cancelling err, [])
  | .ok false => (.cancelling "Error starting SAS request", [])
  | .ok true => (.sas, [])

/-- The end of `cancel` and `cancel_err`. -/
def cancelled (error : Option String) (result : Except String Unit) : Outcome :=
  match error, result with
  | some err, _ => (.returning, [verificationEndErr flowId err])
  | none, .error err => (.returning, [verificationEndErr flowId err])
  | none, .ok () => (.returning, [verificationEnd flowId false])

end VerificationProcessor

namespace SasVerificationManager

variable (flowId : String)

/-- `present_sas`. -/
def presentSas (emojis : Option (List Emoji)) (decimals : Nat × Nat × Nat) : Content :=
  let method := if emojis.isSome then .sasSymbol else .sasString
  let verificationCode :=
    match emojis with
    | some emojis => .symbols (emojis.map fun emoji => ⟨emoji.symbol, some emoji.description⟩)
    | none => .stringCode
        (toString decimals.1 ++ " " ++ toString decimals.2.1 ++ " " ++ toString decimals.2.2)
  .crossSigningMethodSelectedEvent flowId method (some verificationCode)

def processStateChange : SasState → Outcome
  | .created | .started | .accepted | .confirmed => (.sas, [])
  | .keysExchanged emojis decimals => (.sas, [presentSas flowId emojis decimals])
  | .done => (.returning, [verificationEnd flowId true])
  | .cancelled => (.returning, [verificationEnd flowId false])

def processAction : Option VerificationAction → Outcome
  | none => (.returning, [])
  | some .cancel => (.cancellingSas, [])
  | some .confirm => (.confirming, [])
  | some (.selectMethod _) => (.sas, [])

/-- After `confirm()`. -/
def confirmed : Except String Unit → Outcome
  | .error err => (.returning, [verificationEndErr flowId err])
  | .ok () => (.sas, [])

/-- The end of `cancel`. -/
def cancelled : Except String Unit → Outcome
  | .error err => (.returning, [verificationEndErr flowId err])
  | .ok () => (.returning, [verificationEnd flowId false])

end SasVerificationManager

structure Task where
  /-- The channel of `action_tx` and `action_rx`. -/
  actions : List VerificationAction
  phase : Phase
deriving DecidableEq

inductive Input where
  /-- The stream of the request yields a state, or has ended. -/
  | requestChange (state : Option VerificationRequestState)
  | sasChange (state : Option SasState)
  /-- `action_rx.recv()`. -/
  | receive
  /-- `accept`, `confirm` or `cancel` returns. -/
  | returned (result : Except String Unit)
  | sasStarted (result : Except String Bool)
  | finish

namespace Task

variable (flowId : String)

/-- One of the loops has received an action, or has found that the sender is dropped. -/
def processAction (task : Task) (action : Option VerificationAction) : Option Outcome :=
  match task.phase with
  | .waitForChanges => some (VerificationProcessor.processAction action)
  | .sas => some (SasVerificationManager.processAction action)
  | _ => none

/-- What an input other than an action leads to; `none` if it cannot come now. -/
def outcome (task : Task) : Input → Option Outcome
  | .requestChange state =>
    match task.phase with
    | .waitForChanges =>
      match state with
      | some state => some (VerificationProcessor.processStateChange flowId state)
      | none => some (.returning, [])
    | _ => none
  | .sasChange state =>
    match task.phase with
    | .sas =>
      match state with
      | some state => some (SasVerificationManager.processStateChange flowId state)
      | none => some (.returning, [])
    | _ => none
  | .receive => none
  | .returned result =>
    match task.phase with
    | .accepting => some (VerificationProcessor.accepted result)
    | .cancelling error => some (VerificationProcessor.cancelled flowId error result)
    | .confirming => some (SasVerificationManager.confirmed flowId result)
    | .cancellingSas => some (SasVerificationManager.cancelled flowId result)
    | _ => none
  | .sasStarted result =>
    match task.phase with
    | .startingSas => some (VerificationProcessor.sasStarted result)
    | _ => none
  | .finish =>
    match task.phase with
    | .returning => some (.finished, [])
    | _ => none

/-- A step of the task; `held` says that the sender of its actions exists. -/
def step (held : Bool) (task : Task) : Input → Option (Task × List Content)
  | .receive =>
    match task.actions with
    | action :: actions => (task.processAction (some action)).map fun next =>
      (⟨actions, next.1⟩, next.2)
    | [] => if held then none else (task.processAction none).map fun next => (⟨[], next.1⟩, next.2)
  | input => (task.outcome flowId input).map fun next => (⟨task.actions, next.1⟩, next.2)

end Task

/-! ## The client -/

inductive Request where
  | crossSigningStart (supportedMethods : List (Option CrossSigningMethod))
  | crossSigningSelectMethod (verificationFlowId : String)
      (selectedMethod : Option CrossSigningMethod)
  | crossSigningConfirm (verificationFlowId : String)
  | abortVerification (verificationFlowId : String)
deriving DecidableEq

structure State where
  tasks : String → Option Task
  /-- The flow ids of `verification_requests`. -/
  verificationRequests : List String
  /-- The flow ids of the managers that `cross_signing_start` has made and not pushed yet. -/
  pushing : List String
  /-- Requests after their `cleanup_verifications`. -/
  requests : List Request
  received : List Received

/-- What the calls of the SDK in `cross_signing_start` return. -/
structure StartCalls where
  /-- The identity of our own user. -/
  identity : Except Error Unit
  /-- The flow id of the verification request. -/
  started : Except Error String

inductive Step where
  | issue (request : Request)
  /-- The rest of a request, up to the push of `cross_signing_start`, which alone makes `calls`. -/
  | serve (i : Nat) (calls : StartCalls)
  | push (i : Nat)
  | task (flowId : String) (input : Input)
  /-- `recovery_key_verification`. -/
  | recoveryKeyVerification (result : Except String Unit)

namespace State

def initial : State := ⟨fun _ => none, [], [], [], []⟩

/-- The managers that exist. -/
def managers (s : State) : List String := s.verificationRequests ++ s.pushing

def isActive (s : State) (flowId : String) : Bool :=
  (s.tasks flowId).any fun task => task.phase ≠ .finished

/-- `cleanup_verifications`. -/
def cleanupVerifications (s : State) : State :=
  { s with verificationRequests := s.verificationRequests.filter s.isActive }

def respond (s : State) (result : Except Error Response) : State :=
  { s with received := s.received ++ [.response result] }

/-- `action_tx.send`; what is sent to a finished task is never received. -/
def send (s : State) (flowId : String) (action : VerificationAction) : State :=
  { s with
    tasks := Function.update s.tasks flowId
      ((s.tasks flowId).map fun task => { task with actions := task.actions ++ [action] }) }

/-- `VerificationManager::from_verification_request`. -/
def fromVerificationRequest (s : State) (flowId : String) : State :=
  { s with
    tasks := Function.update s.tasks flowId (some ⟨[], .waitForChanges⟩)
    pushing := s.pushing ++ [flowId] }

def crossSigningStart (s : State) (supportedMethods : List (Option CrossSigningMethod))
    (calls : StartCalls) : Option State :=
  match calls.identity with
  | .error err => some (s.respond (.error err))
  | .ok () =>
    if crossSigningMethodsToMatrix supportedMethods = [] then
      some (s.respond (.error .noCrossSigningMethod))
    else
      match calls.started with
      | .error err => some (s.respond (.error err))
      | .ok flowId =>
        if (s.tasks flowId).isSome then none else some (s.fromVerificationRequest flowId)

def crossSigningSelectMethod (s : State) (flowId : String)
    (selectedMethod : Option CrossSigningMethod) : State :=
  if flowId ∈ s.verificationRequests then
    match selectedMethod with
    | some method => (s.send flowId (.selectMethod method)).respond (.ok .empty)
    | none => s.respond (.error .unsupportedCrossSigningMethod)
  else s.respond (.error .verificationFlowNotFound)

def crossSigningConfirm (s : State) (flowId : String) : State :=
  if flowId ∈ s.verificationRequests then (s.send flowId .confirm).respond (.ok .empty)
  else s.respond (.error .verificationFlowNotFound)

def abortVerification (s : State) (flowId : String) : State :=
  match s.verificationRequests.findIdx? fun p => p == flowId with
  | some index =>
    ({ s with verificationRequests := swapRemove s.verificationRequests index }.send flowId
      .cancel).respond (.ok (.verificationEndEvent ⟨some flowId, some (.successful false)⟩))
  | none => s.respond (.error .verificationFlowNotFound)

/-- A request after its `cleanup_verifications`. -/
def serve (s : State) (calls : StartCalls) : Request → Option State
  | .crossSigningStart supportedMethods => s.crossSigningStart supportedMethods calls
  | .crossSigningSelectMethod flowId method => some (s.crossSigningSelectMethod flowId method)
  | .crossSigningConfirm flowId => some (s.crossSigningConfirm flowId)
  | .abortVerification flowId => some (s.abortVerification flowId)

def recoveryKeyVerification (s : State) : Except String Unit → State
  | .ok () => s.respond (.ok (.verificationEndEvent ⟨none, some (.successful true)⟩))
  | .error message => s.respond (.error (.other message))

def moveTask (s : State) (flowId : String) (next : Task × List Content) : State :=
  { s with
    tasks := Function.update s.tasks flowId (some next.1)
    received := s.received ++ next.2.map .event }

def step (s : State) : Step → Option State
  | .issue request =>
    let s := s.cleanupVerifications
    some { s with requests := s.requests ++ [request] }
  | .serve i calls =>
    s.requests[i]?.bind fun request =>
      { s with requests := s.requests.eraseIdx i }.serve calls request
  | .push i =>
    s.pushing[i]?.map fun flowId =>
      { s with
        verificationRequests := s.verificationRequests ++ [flowId]
        pushing := s.pushing.eraseIdx i }.respond (.ok (.crossSigningStartResponse flowId))
  | .task flowId input =>
    (s.tasks flowId).bind fun task =>
      (task.step flowId (flowId ∈ s.managers) input).map (s.moveTask flowId)
  | .recoveryKeyVerification result => some (s.recoveryKeyVerification result)

end State

def verificationSystem : System State Step where
  step := State.step

end GoudaMatrix.Verification
