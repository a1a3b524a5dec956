/-
  What the parties of a verification do in any interleaving of requests and tasks.

  `taskMove_step` says once what a step of the client does to the task of one flow; the results are
  about the runs of `verificationSystem`:
  - `actions_answered`: a task takes the actions that requests have sent to it, each once and in
    order, until it leaves its loops, and every `start_sas()` and every `confirm()` answers one of
    them;
  - `protocol_followed`: what the application is told of a flow is accepted by the monitor
    `protocol`, which knows a success only after the SAS verification has begun;
  - `task_steps_bounded`: a task makes at most three steps for every state and action it is given.
-/
import GoudaMatrix.Lib.Trace
import GoudaMatrix.Verification.EndEvents

namespace GoudaMatrix.Verification

open GoudaMatrix.Lib

/-! ## What a step does to a flow -/

/-- The action that a request sends to the task of a flow. -/
def Request.action : Request → Option (String × VerificationAction)
  | .crossSigningStart _ => none
  | .crossSigningSelectMethod flowId method => method.map fun method =>
    (flowId, .selectMethod method)
  | .crossSigningConfirm flowId => some (flowId, .confirm)
  | .abortVerification flowId => some (flowId, .cancel)

namespace State

variable (flowId : String)

/-- The actions that are sent to the task. -/
def sent (s : State) : Step → List VerificationAction
  | .serve i _ =>
    match s.requests[i]?.bind Request.action with
    | some (id, action) => if id = flowId ∧ id ∈ s.verificationRequests then [action] else []
    | none => []
  | _ => []

/-- The actions that the task takes out of its channel. -/
def taken (s : State) : Step → List VerificationAction
  | .task id .receive =>
    if id = flowId then ((s.tasks flowId).bind fun task => task.actions.head?).toList else []
  | _ => []

/-- The actions in the channel. -/
def channel (s : State) : List VerificationAction := (s.tasks flowId).elim [] Task.actions

/-- The actions on their way to a task that takes them. -/
def pending (s : State) : List VerificationAction :=
  (s.tasks flowId).elim [] fun task => if task.phase.left then [] else task.actions

/-- The actions that a task has left behind with its loops, and those sent to it since. -/
def dropped (s : State) : List VerificationAction :=
  (s.tasks flowId).elim [] fun task => if task.phase.left then task.actions else []

/-- The move of the task itself, with what it sends. -/
def moved (s : State) : Step → Option (Task × List Content)
  | .task id input =>
    if id = flowId then
      (s.tasks flowId).bind fun task => task.step flowId (flowId ∈ s.managers) input
    else none
  | _ => none

end State

/-- What a step does to the task of a flow. -/
inductive TaskMove (flowId : String) (s t : State) (a : Step) : Prop
  | still (tasks : t.tasks flowId = s.tasks flowId) (sent : s.sent flowId a = [])
      (other : ∀ input, a ≠ .task flowId input)
  | started (fresh : s.tasks flowId = none) (new : t.tasks flowId = some ⟨[], .waitForChanges⟩)
      (sent : s.sent flowId a = []) (other : ∀ input, a ≠ .task flowId input)
  | sent (task : Task) (action : VerificationAction) (before : s.tasks flowId = some task)
      (after : t.tasks flowId = some { task with actions := task.actions ++ [action] })
      (sent : s.sent flowId a = [action]) (other : ∀ input, a ≠ .task flowId input)
  | moved (input : Input) (task : Task) (next : Task × List Content)
      (before : s.tasks flowId = some task)
      (step : task.step flowId (flowId ∈ s.managers) input = some next)
      (after : t.tasks flowId = some next.1) (self : a = .task flowId input)

namespace State

variable {s t : State} {flowId : String}

/-- A flow whose manager exists has a task. -/
theorem task_of_held (h : s.Inv) (hheld : flowId ∈ s.verificationRequests) :
    ∃ task, s.tasks flowId = some task := by
  cases htask : s.tasks flowId with
  | some task => exact ⟨task, rfl⟩
  | none =>
    have hinv := h.flow flowId
    have hmem : flowId ∈ s.managers := List.mem_append_left _ hheld
    simp [Flow.Inv, flow, htask, Task.progress, hmem] at hinv

theorem sent_serve {i : Nat} {calls : StartCalls} {request : Request}
    (hrequest : s.requests[i]? = some request) :
    s.sent flowId (.serve i calls) = match request.action with
      | some (id, action) => if id = flowId ∧ id ∈ s.verificationRequests then [action] else []
      | none => [] := by
  simp only [sent, hrequest, Option.bind_some]

/-- A request sends its action to the task of its flow if the manager is found. -/
theorem tasks_serve_action {calls : StartCalls} {request : Request} {id : String}
    {action : VerificationAction} (haction : request.action = some (id, action))
    (hserve : s.serve calls request = some t) :
    t.tasks = if id ∈ s.verificationRequests then (s.send id action).tasks else s.tasks := by
  cases request with
  | crossSigningStart methods => cases haction
  | crossSigningSelectMethod taskId method =>
    obtain ⟨selected, rfl, hpair⟩ := Option.map_eq_some_iff.mp haction
    cases hpair
    obtain rfl := Option.some.inj hserve
    unfold crossSigningSelectMethod
    split <;> rfl
  | crossSigningConfirm taskId =>
    cases haction
    obtain rfl := Option.some.inj hserve
    unfold crossSigningConfirm
    split <;> rfl
  | abortVerification taskId =>
    cases haction
    obtain rfl := Option.some.inj hserve
    by_cases hmem : id ∈ s.verificationRequests
    · obtain ⟨requests, -, habort⟩ := abortVerification_of_mem hmem
      rw [habort, if_pos hmem]
      rfl
    · rw [abortVerification_of_not_mem hmem, if_neg hmem]
      rfl

/-- A request without an action starts a flow, or leaves the tasks as they are. -/
theorem tasks_serve_none {calls : StartCalls} {request : Request} (haction : request.action = none)
    (hserve : s.serve calls request = some t) :
    t.tasks = s.tasks ∨ ∃ id, s.tasks id = none ∧
      t.tasks = Function.update s.tasks id (some ⟨[], .waitForChanges⟩) := by
  cases request with
  | crossSigningStart methods =>
    rcases crossSigningStart_cases hserve with ⟨err, rfl⟩ | ⟨id, hfresh, rfl⟩
    · exact .inl rfl
    · exact .inr ⟨id, hfresh, rfl⟩
  | crossSigningSelectMethod taskId method =>
    obtain rfl := Option.map_eq_none_iff.mp haction
    obtain rfl := Option.some.inj hserve
    unfold crossSigningSelectMethod
    split <;> exact .inl rfl
  | crossSigningConfirm taskId | abortVerification taskId => cases haction

theorem taskMove_serve (h : s.Inv) {i : Nat} {calls : StartCalls}
    (hstep : s.step (.serve i calls) = some t) : TaskMove flowId s t (.serve i calls) := by
  obtain ⟨request, hrequest, hserve⟩ := Option.bind_eq_some_iff.mp hstep
  have hother : ∀ input, Step.serve i calls ≠ .task flowId input := fun input heq => by cases heq
  have hsent : s.sent flowId (.serve i calls) = _ := sent_serve hrequest
  cases haction : request.action with
  | none =>
    simp only [haction] at hsent
    rcases tasks_serve_none haction hserve with htasks | ⟨id, hfresh, htasks⟩
    · exact .still (congrFun htasks flowId) hsent hother
    · by_cases hself : flowId = id
      · subst hself
        exact .started hfresh (by rw [htasks, Function.update_self]) hsent hother
      · refine .still ?_ hsent hother
        rw [htasks, Function.update_of_ne hself]
  | some pair =>
    obtain ⟨id, action⟩ := pair
    simp only [haction] at hsent
    have htasks := tasks_serve_action haction hserve
    by_cases hmem : id ∈ s.verificationRequests
    · by_cases hself : id = flowId
      · subst hself
        obtain ⟨task, htask⟩ := task_of_held h hmem
        refine .sent task action htask ?_ (by rw [hsent, if_pos ⟨rfl, hmem⟩]) hother
        rw [htasks, if_pos hmem]
        simp only [send, Function.update_self, htask, Option.map_some]
      · refine .still ?_ (by rw [hsent, if_neg fun hpair => hself hpair.1]) hother
        rw [htasks, if_pos hmem]
        simp only [send, Function.update_of_ne (Ne.symm hself)]
    · refine .still ?_ (by rw [hsent, if_neg fun hpair => hmem hpair.2]) hother
      rw [htasks, if_neg hmem]

/-- Every step moves the task of a flow in one of four ways. -/
theorem taskMove_step (h : s.Inv) {a : Step} (hstep : s.step a = some t) :
    TaskMove flowId s t a := by
  cases a with
  | issue request =>
    obtain rfl := Option.some.inj hstep
    exact .still rfl rfl fun input heq => by cases heq
  | serve i calls => exact taskMove_serve h hstep
  | push i =>
    obtain ⟨id, -, rfl⟩ := Option.map_eq_some_iff.mp hstep
    exact .still rfl rfl fun input heq => by cases heq
  | task id input =>
    obtain ⟨task, htask, hmove⟩ := Option.bind_eq_some_iff.mp hstep
    obtain ⟨next, hnext, rfl⟩ := Option.map_eq_some_iff.mp hmove
    by_cases hself : id = flowId
    · subst hself
      exact .moved input task next htask hnext (Function.update_self ..) rfl
    · refine .still (Function.update_of_ne (Ne.symm hself) ..) rfl fun other heq => ?_
      cases heq
      exact hself rfl
  | recoveryKeyVerification result =>
    obtain rfl := Option.some.inj hstep
    cases result <;> exact .still rfl rfl fun input heq => by cases heq

/-- The invariant of the managers holds before every step of a run. -/
theorem inv_of_step (s : State) (a : Step) (t : State) (h : s.Inv)
    (hstep : verificationSystem.step s a = some t) : t.Inv := inv_step h hstep

end State

/-! ## Steps of a task -/

namespace Task

variable {flowId : String} {held : Bool} {task : Task} {next : Task × List Content}

/-- The task takes the first action, or finds that no sender is left. -/
theorem step_receive (hstep : task.step flowId held .receive = some next) :
    task.processAction task.actions.head? = some (next.1.phase, next.2) ∧
      next.1.actions = task.actions.tail := by
  obtain ⟨actions, phase⟩ := task
  cases actions with
  | cons action actions =>
    obtain ⟨outcome, houtcome, rfl⟩ := Option.map_eq_some_iff.mp hstep
    exact ⟨houtcome, rfl⟩
  | nil =>
    simp only [step, Option.ite_none_left_eq_some] at hstep
    obtain ⟨outcome, houtcome, rfl⟩ := Option.map_eq_some_iff.mp hstep.2
    exact ⟨houtcome, rfl⟩

/-- Every other input leaves the channel as it is. -/
theorem step_outcome {input : Input} (hinput : input ≠ .receive)
    (hstep : task.step flowId held input = some next) :
    task.outcome flowId input = some (next.1.phase, next.2) ∧ next.1.actions = task.actions := by
  cases input with
  | receive => exact absurd rfl hinput
  | requestChange | sasChange | returned | sasStarted | finish =>
    obtain ⟨outcome, houtcome, rfl⟩ := Option.map_eq_some_iff.mp hstep
    exact ⟨houtcome, rfl⟩

end Task

/-! ## The channel of a flow -/

namespace State

variable {s t : State} {flowId : String}

theorem taken_of_other {a : Step} (hother : ∀ input, a ≠ .task flowId input) :
    s.taken flowId a = [] := by
  cases a with
  | task id input =>
    have hne : id ≠ flowId := fun heq => hother input (heq ▸ rfl)
    cases input <;> simp [taken, hne]
  | issue | serve | push | recoveryKeyVerification => rfl

theorem channel_of_task {task : Task} (htask : s.tasks flowId = some task) :
    s.channel flowId = task.actions := by
  rw [channel, htask]
  rfl

/-- What is in the channel is on its way, or has been dropped. -/
theorem pending_append_dropped (s : State) (flowId : String) :
    s.pending flowId ++ s.dropped flowId = s.channel flowId := by
  unfold pending dropped channel
  cases s.tasks flowId with
  | none => rfl
  | some task => cases hleft : task.phase.left <;> simp [hleft]

/-- A step takes actions from the front of the channel and adds those of requests at its end. -/
theorem taken_append_channel {a : Step} (hmove : TaskMove flowId s t a) :
    s.taken flowId a ++ t.channel flowId = s.channel flowId ++ s.sent flowId a := by
  cases hmove with
  | still htasks hsent hother =>
    rw [taken_of_other hother, hsent, channel, channel, htasks, List.nil_append, List.append_nil]
  | started hfresh hnew hsent hother =>
    rw [taken_of_other hother, hsent, channel, channel, hfresh, hnew]
    rfl
  | sent task action hbefore hafter hsent hother =>
    rw [taken_of_other hother, hsent, channel_of_task hbefore, channel_of_task hafter]
    rfl
  | moved input task next hbefore hstep hafter hself =>
    subst hself
    rw [channel_of_task hbefore, channel_of_task hafter]
    by_cases hinput : input = .receive
    · subst hinput
      have htaken : s.taken flowId (.task flowId .receive) = task.actions.head?.toList := by
        simp [taken, hbefore]
      rw [htaken, (Task.step_receive hstep).2]
      cases task.actions <;> simp [sent]
    · have htaken : s.taken flowId (.task flowId input) = [] := by
        cases input <;> first | rfl | exact absurd rfl hinput
      rw [htaken, (Task.step_outcome hinput hstep).2]
      simp [sent]

end State

/-! ## What a task does with an input -/

inductive SdkCall where
  | accept
  | startSas
  | cancel
  | confirm
  | cancelSas
deriving DecidableEq

/-- The call that the task is in. -/
@[simp] def Phase.call : Phase → Option SdkCall
  | .accepting => some .accept
  | .startingSas => some .startSas
  | .cancelling _ => some .cancel
  | .confirming => some .confirm
  | .cancellingSas => some .cancelSas
  | .waitForChanges | .sas | .returning | .finished => none

/-- The calls that only the user asks for. -/
@[simp] def SdkCall.byUser : SdkCall → Option SdkCall
  | .startSas => some .startSas
  | .confirm => some .confirm
  | .accept | .cancel | .cancelSas => none

/-- The call that an action asks for. -/
def VerificationAction.call : VerificationAction → Option SdkCall
  | .selectMethod _ => some .startSas
  | .confirm => some .confirm
  | .cancel => none

/-- What is seen of a flow. -/
inductive Sign where
  /-- `accept()` has succeeded, or `start_sas()` has returned a verification. -/
  | sasBegun
  /-- The SAS verification has something to compare. -/
  | keysExchanged (emojis : Option (List Emoji)) (decimals : Nat × Nat × Nat)
  | sent (content : Content)
  /-- The response of `abort_verification`. -/
  | aborted (event : VerificationEndEvent)

def Sign.content : Sign → Option Content
  | .sasBegun | .keysExchanged _ _ => none
  | .sent content => some content
  | .aborted event => some (.verificationEndEvent event)

/-- What is to be compared: the symbols if both devices have them, else three numbers. -/
def shortAuthString : Option (List Emoji) → Nat × Nat × Nat → CrossSigningMethod × VerificationCode
  | some emojis, _ =>
    (.sasSymbol, .symbols (emojis.map fun emoji => ⟨emoji.symbol, some emoji.description⟩))
  | none, (first, second, third) =>
    (.sasString, .stringCode (toString first ++ " " ++ toString second ++ " " ++ toString third))

inductive Stage where
  | requested
  /-- With what is to be compared and has not been shown yet. -/
  | verifying (code : Option (CrossSigningMethod × VerificationCode))
  | ended

/-- The order in which a task goes on: a success, and a code, only of a SAS verification, and the
    code is the one that it has just presented. -/
def taskProtocol : System Stage Sign where
  step
    | .requested, .sasBegun => some (.verifying none)
    | .requested, .sent (.crossSigningStartEvent _ _) => some .requested
    | .requested, .sent (.verificationEndEvent ⟨_, some (.successful true)⟩) => none
    | .requested, .sent (.verificationEndEvent _) => some .ended
    | .verifying _, .keysExchanged emojis decimals =>
      some (.verifying (some (shortAuthString emojis decimals)))
    | .verifying (some presented), .sent (.crossSigningMethodSelectedEvent _ method (some code)) =>
      if presented = (method, code) then some (.verifying none) else none
    | .verifying _, .sent (.verificationEndEvent _) => some .ended
    | _, _ => none

structure Monitor where
  stage : Stage
  aborted : Bool

/-- The task follows its protocol, and an abort is answered at most once, at any time. -/
def protocol : System Monitor Sign where
  step q sign :=
    match sign with
    | .aborted ⟨_, some (.successful false)⟩ =>
      if q.aborted then none else some { q with aborted := true }
    | .aborted _ => none
    | sign => (taskProtocol.step q.stage sign).map fun stage => { q with stage := stage }

/-- What the task shows does not abort the flow. -/
theorem protocol_run_of_task {stage stage' : Stage} {signs : List Sign}
    (h : taskProtocol.run stage signs = some stage') (aborted : Bool) :
    protocol.run ⟨stage, aborted⟩ signs = some ⟨stage', aborted⟩ := by
  induction signs generalizing stage with
  | nil =>
    rw [System.run_nil, Option.some.injEq] at h
    rw [System.run_nil, h]
  | cons sign signs ih =>
    obtain ⟨next, hnext, hrun⟩ := (taskProtocol.run_cons_eq_some).mp h
    refine (protocol.run_cons_eq_some).mpr ⟨⟨next, aborted⟩, ?_, ih hrun⟩
    cases sign with
    | aborted event => cases stage <;> cases hnext
    | sasBegun | keysExchanged | sent =>
      simp only [protocol, hnext, Option.map_some]

/-- The stage of a task that can still send. -/
@[simp] def Phase.stage : Phase → Option Stage
  | .waitForChanges | .accepting | .startingSas | .cancelling _ => some .requested
  | .sas | .confirming | .cancellingSas => some (.verifying none)
  | .returning | .finished => none

/-- How many steps the task can make before it needs a state or an action. -/
@[simp] def Phase.rank : Phase → Nat
  | .accepting | .startingSas => 4
  | .cancelling _ | .confirming | .cancellingSas => 3
  | .waitForChanges | .sas => 2
  | .returning => 1
  | .finished => 0

/-- The input lets the SAS verification begin. -/
def Phase.beginsSas (phase : Phase) : Input → Bool
  | .returned (.ok ()) => phase = .accepting
  | .sasStarted (.ok true) => phase = .startingSas
  | _ => false

/-- A state that a stream has yielded. -/
def Input.isState : Input → Bool
  | .requestChange state => state.isSome
  | .sasChange state => state.isSome
  | .receive | .returned _ | .sasStarted _ | .finish => false

def Content.flowId : Content → Option String
  | .crossSigningStartEvent flowId _ => some flowId
  | .crossSigningMethodSelectedEvent flowId _ _ => some flowId
  | .verificationEndEvent event => event.verificationFlowId

/-- What the stream of the SAS verification presents. -/
def Input.presented : Input → List Sign
  | .sasChange (some (.keysExchanged emojis decimals)) => [.keysExchanged emojis decimals]
  | _ => []

/-- The signs of an outcome. -/
def Phase.signs (phase : Phase) (input : Input) (contents : List Content) : List Sign :=
  (if phase.beginsSas input then [.sasBegun] else []) ++ input.presented ++ contents.map .sent

/-- The phase after an input: it costs a step, and a call of the user comes after an action. -/
@[simp] def Phase.Reaches (phase : Phase) (input : Input) (fed : Nat) (stage : Stage)
    (after : Phase) : Prop :=
  (∀ s ∈ after.stage, s = stage) ∧ after.rank + 1 ≤ phase.rank + 3 * fed ∧
    (after.call.bind SdkCall.byUser = none ∨ input = .receive)

/-- An outcome in a phase: whom it speaks about, how the monitor follows it and what comes next. -/
structure Follows (flowId : String) (phase : Phase) (input : Input) (fed : Nat) (next : Outcome) :
    Prop where
  about : ∀ content ∈ next.2, content.flowId = some flowId
  signs : ∃ stage ∈ phase.stage, ∃ stage',
    taskProtocol.run stage (phase.signs input next.2) = some stage' ∧
      phase.Reaches input fed stage' next.1

section

variable {flowId : String} {phase after : Phase} {input : Input} {fed : Nat} {stage stage' : Stage}

/-- Nothing is shown, and the stage is the same or the task leaves. -/
theorem follows_nil (hstage : phase.stage = some stage) (hsas : phase.beginsSas input = false)
    (hpresented : input.presented = []) (hafter : phase.Reaches input fed stage after) :
    Follows flowId phase input fed (after, []) :=
  ⟨by simp, stage, hstage, stage, by simp [Phase.signs, hsas, hpresented], hafter⟩

/-- The SAS verification begins. -/
theorem follows_sasBegun (hstage : phase.stage = some .requested)
    (hsas : phase.beginsSas input = true) (hpresented : input.presented = [])
    (hafter : phase.Reaches input fed (.verifying none) .sas) :
    Follows flowId phase input fed (.sas, []) :=
  ⟨by simp, .requested, hstage, .verifying none,
    by simp [Phase.signs, hsas, hpresented, taskProtocol, System.run], hafter⟩

/-- One content is sent, which the monitor accepts. -/
theorem follows_content {content : Content} (hstage : phase.stage = some stage)
    (hsas : phase.beginsSas input = false) (hpresented : input.presented = [])
    (habout : content.flowId = some flowId)
    (haccept : taskProtocol.step stage (.sent content) = some stage')
    (hafter : phase.Reaches input fed stage' after) :
    Follows flowId phase input fed (after, [content]) := by
  refine ⟨?_, stage, hstage, stage', ?_, hafter⟩
  · intro other hmem
    rw [List.mem_singleton.mp hmem]
    exact habout
  · simp [Phase.signs, hsas, hpresented, System.run, haccept]

/-- What the SAS verification presents is sent. -/
theorem follows_presentSas (flowId : String) (emojis : Option (List Emoji))
    (decimals : Nat × Nat × Nat) :
    Follows flowId .sas (.sasChange (some (.keysExchanged emojis decimals))) 1
      (.sas, [SasVerificationManager.presentSas flowId emojis decimals]) := by
  refine ⟨?_, .verifying none, rfl, .verifying none, ?_, by simp⟩
  · intro content hmem
    rw [List.mem_singleton.mp hmem]
    rfl
  · have hshown : SasVerificationManager.presentSas flowId emojis decimals
        = .crossSigningMethodSelectedEvent flowId (shortAuthString emojis decimals).1
          (some (shortAuthString emojis decimals).2) := by
      cases emojis <;> rfl
    rw [hshown]
    simp [Phase.signs, Phase.beginsSas, Input.presented, taskProtocol, System.run]

end

namespace Task

variable {flowId : String} {task : Task}

theorem follows_requestChange {state : Option VerificationRequestState} {next : Outcome}
    (h : task.outcome flowId (.requestChange state) = some next) :
    Follows flowId task.phase (.requestChange state) state.isSome.toNat next := by
  obtain ⟨actions, phase⟩ := task
  cases phase with
  | waitForChanges =>
    cases state with
    | none =>
      obtain rfl := Option.some.inj h
      exact follows_nil rfl rfl rfl (by simp)
    | some state =>
      obtain rfl := Option.some.inj h
      cases state with
      | created | requested => exact follows_nil rfl rfl rfl (by simp)
      | ready theirMethods ourMethods =>
        exact follows_content rfl rfl rfl rfl rfl (by simp)
      | transitioned verification =>
        cases verification <;> exact follows_nil rfl rfl rfl (by simp)
      | done => exact follows_nil rfl rfl rfl (by simp)
      | cancelled => exact follows_content rfl rfl rfl rfl rfl (by simp)
  | _ => cases h

theorem follows_sasChange {state : Option SasState} {next : Outcome}
    (h : task.outcome flowId (.sasChange state) = some next) :
    Follows flowId task.phase (.sasChange state) state.isSome.toNat next := by
  obtain ⟨actions, phase⟩ := task
  cases phase with
  | sas =>
    cases state with
    | none =>
      obtain rfl := Option.some.inj h
      exact follows_nil rfl rfl rfl (by simp)
    | some state =>
      obtain rfl := Option.some.inj h
      cases state with
      | created | started | accepted | confirmed =>
        exact follows_nil rfl rfl rfl (by simp)
      | keysExchanged emojis decimals => exact follows_presentSas flowId emojis decimals
      | done | cancelled => exact follows_content rfl rfl rfl rfl rfl (by simp)
  | _ => cases h

theorem follows_returned {result : Except String Unit} {next : Outcome}
    (h : task.outcome flowId (.returned result) = some next) :
    Follows flowId task.phase (.returned result) 0 next := by
  obtain ⟨actions, phase⟩ := task
  cases phase with
  | accepting =>
    obtain rfl := Option.some.inj h
    cases result with
    | error err => exact follows_nil rfl rfl rfl (by simp)
    | ok => exact follows_sasBegun rfl rfl rfl (by simp)
  | cancelling error =>
    obtain rfl := Option.some.inj h
    cases error <;> cases result <;>
      exact follows_content rfl rfl rfl rfl rfl (by simp)
  | confirming =>
    obtain rfl := Option.some.inj h
    cases result with
    | error err => exact follows_content rfl rfl rfl rfl rfl (by simp)
    | ok => exact follows_nil rfl rfl rfl (by simp)
  | cancellingSas =>
    obtain rfl := Option.some.inj h
    cases result <;> exact follows_content rfl rfl rfl rfl rfl (by simp)
  | _ => cases h

theorem follows_sasStarted {result : Except String Bool} {next : Outcome}
    (h : task.outcome flowId (.sasStarted result) = some next) :
    Follows flowId task.phase (.sasStarted result) 0 next := by
  obtain ⟨actions, phase⟩ := task
  cases phase with
  | startingSas =>
    obtain rfl := Option.some.inj h
    cases result with
    | error err => exact follows_nil rfl rfl rfl (by simp)
    | ok started =>
      cases started with
      | false => exact follows_nil rfl rfl rfl (by simp)
      | true => exact follows_sasBegun rfl rfl rfl (by simp)
  | _ => cases h

/-- An action leads to a call, or back to the loop. -/
theorem follows_processAction {action : Option VerificationAction} {next : Outcome}
    (h : task.processAction action = some next) :
    Follows flowId task.phase .receive action.isSome.toNat next := by
  obtain ⟨actions, phase⟩ := task
  cases phase with
  | waitForChanges =>
    obtain rfl := Option.some.inj h
    cases action with
    | none => exact follows_nil rfl rfl rfl (by simp)
    | some action =>
      cases action with
      | cancel | confirm => exact follows_nil rfl rfl rfl (by simp)
      | selectMethod method =>
        cases method <;> exact follows_nil rfl rfl rfl (by simp)
  | sas =>
    obtain rfl := Option.some.inj h
    cases action with
    | none => exact follows_nil rfl rfl rfl (by simp)
    | some action => cases action <;> exact follows_nil rfl rfl rfl (by simp)
  | _ => cases h

/-- What an input costs: a state or an action pays for three steps. -/
def fed (task : Task) : Input → Nat
  | .receive => min task.actions.length 1
  | input => input.isState.toNat

theorem follows_step {held : Bool} {input : Input} {next : Task × List Content}
    (hinput : input ≠ .finish) (hstep : task.step flowId held input = some next) :
    Follows flowId task.phase input (task.fed input) (next.1.phase, next.2) := by
  cases input with
  | receive =>
    have hfed : task.fed .receive = task.actions.head?.isSome.toNat := by
      cases h : task.actions <;> simp [fed, h]
    rw [hfed]
    exact follows_processAction (step_receive hstep).1
  | requestChange state =>
    exact follows_requestChange (step_outcome (by simp) hstep).1
  | sasChange state => exact follows_sasChange (step_outcome (by simp) hstep).1
  | returned result => exact follows_returned (step_outcome (by simp) hstep).1
  | sasStarted result => exact follows_sasStarted (step_outcome (by simp) hstep).1
  | finish => exact absurd rfl hinput

theorem step_finish {held : Bool} {next : Task × List Content}
    (hstep : task.step flowId held .finish = some next) :
    task.phase = .returning ∧ next = (⟨task.actions, .finished⟩, []) := by
  obtain ⟨actions, phase⟩ := task
  obtain ⟨outcome, houtcome, rfl⟩ := Option.map_eq_some_iff.mp hstep
  cases phase with
  | returning =>
    obtain rfl := Option.some.inj houtcome
    exact ⟨rfl, rfl⟩
  | _ => cases houtcome

end Task

/-! ## Runs -/

namespace State

variable (flowId : String)

/-- The call that the task of the flow begins. -/
def call (s : State) (a : Step) : Option SdkCall :=
  (s.moved flowId a).bind fun next => next.1.phase.call

/-- The calls of the user that the task begins. -/
def userCalls (s : State) (a : Step) : List SdkCall :=
  ((s.call flowId a).bind SdkCall.byUser).toList

/-- What the task of the flow shows. -/
def shown (s : State) : Step → List Sign
  | .task id input =>
    if id = flowId then
      (s.tasks flowId).elim [] fun task =>
        (task.step flowId (flowId ∈ s.managers) input).elim [] fun next =>
          task.phase.signs input next.2
    else []
  | _ => []

/-- The answer to an abort of the flow. -/
def answered (s : State) (a : Step) : List Sign :=
  match s.told flowId a with
  | some .abort => [.aborted ⟨some flowId, some (.successful false)⟩]
  | _ => []

/-- What is seen of the flow. -/
def signs (s : State) (a : Step) : List Sign := s.shown flowId a ++ s.answered flowId a

/-- The inputs that the task takes. -/
def inputs : State → Step → List Input
  | _, .task id input => if id = flowId then [input] else []
  | _, _ => []

/-- The states and actions that the flow is given. -/
def feed (s : State) : Step → List (Input ⊕ VerificationAction)
  | .task id input => if id = flowId ∧ input.isState then [.inl input] else []
  | a => (s.sent flowId a).map .inr

/-- What the application has been told about the flow, by events and by responses. -/
def events (s : State) : List Content :=
  s.received.filterMap fun
    | .event content => if content.flowId = some flowId then some content else none
    | .response (.ok (.verificationEndEvent event)) =>
      if event.verificationFlowId = some flowId then some (.verificationEndEvent event) else none
    | .response _ => none

variable {s t : State} {flowId}

theorem shown_of_other {a : Step} (hother : ∀ input, a ≠ .task flowId input) :
    s.shown flowId a = [] ∧ s.inputs flowId a = [] ∧ s.userCalls flowId a = [] := by
  have hmoved : s.moved flowId a = none ∧ s.shown flowId a = [] ∧ s.inputs flowId a = [] := by
    cases a with
    | task id input =>
      have hne : id ≠ flowId := fun heq => hother input (heq ▸ rfl)
      simp [moved, shown, inputs, hne]
    | issue | serve | push | recoveryKeyVerification => exact ⟨rfl, rfl, rfl⟩
  exact ⟨hmoved.2.1, hmoved.2.2, by simp [userCalls, call, hmoved.1]⟩

section

variable {input : Input} {task : Task} {next : Task × List Content}
  (hbefore : s.tasks flowId = some task)
  (hstep : task.step flowId (flowId ∈ s.managers) input = some next)
include hbefore hstep

theorem shown_of_task :
    s.shown flowId (.task flowId input) = task.phase.signs input next.2 := by
  simp only [shown, if_true, hbefore, Option.elim_some, hstep]

theorem userCalls_of_task :
    s.userCalls flowId (.task flowId input) = (next.1.phase.call.bind SdkCall.byUser).toList := by
  simp only [userCalls, call, moved, if_true, hbefore, Option.bind_some, hstep]

end

end State

theorem Task.call_of_action {task : Task} {action : Option VerificationAction} {next : Outcome}
    (h : task.processAction action = some next) :
    (next.1.call.bind SdkCall.byUser).toList.Sublist
      (action.toList.filterMap VerificationAction.call) := by
  obtain ⟨actions, phase⟩ := task
  cases phase with
  | waitForChanges | sas =>
    obtain rfl := Option.some.inj h
    cases action with
    | none => exact .slnil
    | some action =>
      cases action with
      | cancel => exact .slnil
      | confirm => simp [VerificationProcessor.processAction, SasVerificationManager.processAction,
          VerificationAction.call]
      | selectMethod method =>
        cases method <;> simp [VerificationProcessor.processAction,
          SasVerificationManager.processAction, VerificationAction.call]
  | _ => cases h

namespace State

variable {s t : State} {flowId : String}

/-- A call of the user answers the action that the task takes in the same step. -/
theorem userCalls_sublist {a : Step} (hmove : TaskMove flowId s t a) :
    (s.userCalls flowId a).Sublist ((s.taken flowId a).filterMap VerificationAction.call) := by
  cases hmove with
  | still _ _ hother | started _ _ _ hother | sent _ _ _ _ _ hother =>
    rw [(shown_of_other hother).2.2]
    exact List.nil_sublist _
  | moved input task next hbefore hstep hafter hself =>
    subst hself
    rw [userCalls_of_task hbefore hstep]
    by_cases hreceive : input = .receive
    · subst hreceive
      have htaken : s.taken flowId (.task flowId .receive) = task.actions.head?.toList := by
        simp [taken, hbefore]
      rw [htaken]
      exact Task.call_of_action (Task.step_receive hstep).1
    · have hnone : next.1.phase.call.bind SdkCall.byUser = none := by
        by_cases hfinish : input = .finish
        · subst hfinish
          rw [(Task.step_finish hstep).2]
          rfl
        · obtain ⟨stage, -, stage', -, -, -, hcall⟩ := (Task.follows_step hfinish hstep).signs
          exact hcall.resolve_right hreceive
      rw [hnone]
      exact List.nil_sublist _

/-- The stage of a flow; a flow that has no task yet will be requested. -/
def stage (s : State) (flowId : String) : Option Stage :=
  (s.tasks flowId).elim (some .requested) fun task => task.phase.stage

/-- The monitor follows what the task shows. -/
theorem shown_step {a : Step} (hmove : TaskMove flowId s t a) {q : Stage}
    (hq : ∀ stage ∈ s.stage flowId, stage = q) :
    ∃ q', taskProtocol.run q (s.shown flowId a) = some q' ∧
      ∀ stage ∈ t.stage flowId, stage = q' := by
  cases hmove with
  | still htasks hsent hother =>
    rw [(shown_of_other hother).1]
    exact ⟨q, rfl, by rwa [stage, htasks]⟩
  | started hfresh hnew hsent hother =>
    rw [(shown_of_other hother).1]
    refine ⟨q, rfl, ?_⟩
    simpa [stage, hfresh, hnew] using hq
  | sent task action hbefore hafter hsent hother =>
    rw [(shown_of_other hother).1]
    refine ⟨q, rfl, ?_⟩
    simpa [stage, hbefore, hafter] using hq
  | moved input task next hbefore hstep hafter hself =>
    subst hself
    rw [shown_of_task hbefore hstep]
    by_cases hfinish : input = .finish
    · subst hfinish
      obtain ⟨-, rfl⟩ := Task.step_finish hstep
      exact ⟨q, rfl, by simp [stage, hafter]⟩
    · obtain ⟨stage, hstage, stage', hrun, hreaches, -, -⟩ :=
        (Task.follows_step hfinish hstep).signs
      obtain rfl : stage = q := hq stage (by rwa [State.stage, hbefore])
      exact ⟨stage', hrun, by rwa [State.stage, hafter]⟩

/-- A flow that has been aborted has a task, and will not be aborted again. -/
def Refuses (s : State) (flowId : String) : Prop :=
  (s.flow flowId).held = false ∧ (s.flow flowId).progress ≠ .absent

theorem refuses_step (h : s.Inv) {a : Step} (hstep : s.step a = some t)
    (hrefuses : s.Refuses flowId) : t.Refuses flowId := by
  obtain ⟨hheld, hpresent⟩ := hrefuses
  unfold Refuses
  rcases flow_step h hstep flowId with ⟨-, hsame | hmove | hmove⟩ | ⟨event, -, hmove⟩
  · rw [hsame]
    exact ⟨hheld, hpresent⟩
  all_goals
    rcases Flow.step_cases hmove with ⟨-, habsent, -⟩ | ⟨-, hheld', -⟩ | ⟨reports, -, -, hnext⟩ |
      ⟨-, hended, hnext⟩
    · exact absurd habsent hpresent
    · rw [hheld] at hheld'
      cases hheld'
    · rw [hnext]
      exact ⟨hheld, nofun⟩
    · rw [hnext]
      exact ⟨rfl, nofun⟩

/-- An abort is answered if the flow was not aborted before. -/
theorem refuses_of_told (h : s.Inv) {a : Step} (hstep : s.step a = some t)
    (htold : s.told flowId a = some .abort) : ¬ s.Refuses flowId ∧ t.Refuses flowId := by
  rcases flow_step h hstep flowId with ⟨hnone, -⟩ | ⟨event, hevent, hmove⟩
  · rw [htold] at hnone
    cases hnone
  · obtain rfl := Option.some.inj (htold.symm.trans hevent)
    rcases Flow.step_cases hmove with ⟨heq, -⟩ | ⟨-, hheld, hnext⟩ | ⟨reports, heq, -⟩ | ⟨heq, -⟩
    · cases heq
    · have hpresent : (s.flow flowId).progress ≠ .absent := by
        intro habsent
        have hinv := h.flow flowId
        simp only [Flow.Inv, habsent, hheld] at hinv
        cases hinv.1
      refine ⟨fun hrefuses => ?_, ?_⟩
      · cases hheld.symm.trans hrefuses.1
      · rw [Refuses, hnext]
        exact ⟨rfl, hpresent⟩
    · cases heq
    · cases heq

/-- What the monitor knows of the flow. -/
structure Watched (s : State) (flowId : String) (q : Monitor) : Prop where
  stage : ∀ stage ∈ s.stage flowId, stage = q.stage
  aborted : q.aborted = true → s.Refuses flowId

/-- The monitor follows every step. -/
theorem protocol_step (h : s.Inv) {a : Step} (hstep : s.step a = some t) {q : Monitor}
    (hq : s.Watched flowId q) :
    ∃ q', protocol.run q (s.signs flowId a) = some q' ∧ t.Watched flowId q' := by
  obtain ⟨stage', hrun, hstage⟩ := shown_step (taskMove_step h hstep) hq.stage
  have hshown := protocol_run_of_task hrun q.aborted
  have hkept : q.aborted = true → t.Refuses flowId := fun haborted =>
    refuses_step h hstep (hq.aborted haborted)
  by_cases htold : s.told flowId a = some .abort
  · obtain ⟨hbefore, hafter⟩ := refuses_of_told h hstep htold
    have hfirst : q.aborted = false := by
      cases haborted : q.aborted with
      | false => rfl
      | true => exact absurd (hq.aborted haborted) hbefore
    have hanswered : s.answered flowId a = [.aborted ⟨some flowId, some (.successful false)⟩] := by
      rw [answered, htold]
    refine ⟨⟨stage', true⟩, ?_, hstage, fun _ => hafter⟩
    rw [signs, hanswered, protocol.run_append, hshown, hfirst]
    rfl
  · have hanswered : s.answered flowId a = [] := by
      unfold answered
      split
      · next habort => exact absurd habort htold
      · rfl
    refine ⟨⟨stage', q.aborted⟩, ?_, hstage, hkept⟩
    rw [signs, hanswered, List.append_nil]
    exact hshown

/-- How many steps the task of a flow can make; three for every action, and those of its phase. -/
def potential (s : State) (flowId : String) : Nat :=
  (s.tasks flowId).elim 2 fun task => 3 * task.actions.length + task.phase.rank

theorem feed_of_other {a : Step} (hother : ∀ input, a ≠ .task flowId input) :
    (s.feed flowId a).length = (s.sent flowId a).length := by
  cases a with
  | task id input =>
    have hne : id ≠ flowId := fun heq => hother input (heq ▸ rfl)
    simp [feed, sent, hne]
  | issue | serve | push | recoveryKeyVerification => simp [feed]

/-- A step of the task costs its potential, and what the flow is given raises it. -/
theorem potential_step {a : Step} (hmove : TaskMove flowId s t a) :
    (s.inputs flowId a).length + t.potential flowId
      ≤ s.potential flowId + 3 * (s.feed flowId a).length := by
  cases hmove with
  | still htasks hsent hother =>
    rw [(shown_of_other hother).2.1, feed_of_other hother, hsent, potential, potential, htasks]
    simp
  | started hfresh hnew hsent hother =>
    rw [(shown_of_other hother).2.1, feed_of_other hother, hsent, potential, potential, hfresh,
      hnew]
    simp
  | sent task action hbefore hafter hsent hother =>
    rw [(shown_of_other hother).2.1, feed_of_other hother, hsent, potential, potential, hbefore,
      hafter]
    simp only [Option.elim_some, List.length_append, List.length_singleton, List.length_nil]
    omega
  | moved input task next hbefore hstep hafter hself =>
    subst hself
    have hinputs : (s.inputs flowId (.task flowId input)).length = 1 := by simp [inputs]
    rw [hinputs, potential, potential, hbefore, hafter]
    simp only [Option.elim_some]
    by_cases hfinish : input = .finish
    · subst hfinish
      obtain ⟨hphase, rfl⟩ := Task.step_finish hstep
      simp only [hphase, Phase.rank]
      omega
    · obtain ⟨stage, -, stage', -, -, hrank, -⟩ := (Task.follows_step hfinish hstep).signs
      by_cases hreceive : input = .receive
      · subst hreceive
        rw [(Task.step_receive hstep).2, List.length_tail]
        simp only [Task.fed] at hrank
        omega
      · have hfed : task.fed input = (s.feed flowId (.task flowId input)).length := by
          have hstate : task.fed input = input.isState.toNat := by
            cases input <;> first | rfl | exact absurd rfl hreceive
          cases h : input.isState <;> simp [feed, hstate, h]
        rw [hfed] at hrank
        dsimp only at hrank
        rw [(Task.step_outcome hreceive hstep).2]
        omega

theorem events_append (s : State) (added : List Received) :
    ({ s with received := s.received ++ added } : State).events flowId
      = s.events flowId ++ ({ s with received := added } : State).events flowId :=
  List.filterMap_append

/-- A response that tells no end of the flow. -/
theorem events_respond (s : State) {result : Except Error Response}
    (h : (Received.response result).isEndOf flowId = false) :
    (s.respond result).events flowId = s.events flowId := by
  have hnone : ({ s with received := [.response result] } : State).events flowId = [] := by
    cases result with
    | error err => rfl
    | ok response =>
      cases response with
      | crossSigningStartResponse | empty => rfl
      | verificationEndEvent event =>
        have hother : ¬ event.verificationFlowId = some flowId := of_decide_eq_false h
        simp [events, hother]
  rw [respond, events_append, hnone]
  exact List.append_nil _

/-- A request adds the answer to an abort. -/
theorem events_serve {i : Nat} {calls : StartCalls} {request : Request}
    (hrequest : s.requests[i]? = some request)
    (hserve : ({ s with requests := s.requests.eraseIdx i } : State).serve calls request = some t) :
    t.events flowId
      = s.events flowId ++ (s.answered flowId (.serve i calls)).filterMap Sign.content := by
  have hunanswered : s.told flowId (.serve i calls) = none → t.events flowId = s.events flowId →
      t.events flowId
        = s.events flowId ++ (s.answered flowId (.serve i calls)).filterMap Sign.content := by
    intro htold hsame
    rw [answered, htold, hsame]
    exact (List.append_nil _).symm
  cases request with
  | crossSigningStart methods =>
    refine hunanswered (by simp [told, hrequest]) ?_
    rcases crossSigningStart_cases hserve with ⟨err, rfl⟩ | ⟨id, hfresh, rfl⟩
    · exact events_respond _ rfl
    · rfl
  | crossSigningSelectMethod id method =>
    obtain rfl := Option.some.inj hserve
    refine hunanswered (by simp [told, hrequest]) ?_
    unfold crossSigningSelectMethod
    split
    · cases method <;> exact events_respond _ rfl
    · exact events_respond _ rfl
  | crossSigningConfirm id =>
    obtain rfl := Option.some.inj hserve
    refine hunanswered (by simp [told, hrequest]) ?_
    unfold crossSigningConfirm
    split <;> exact events_respond _ rfl
  | abortVerification id =>
    obtain rfl := Option.some.inj hserve
    by_cases hmem : id ∈ s.verificationRequests
    · obtain ⟨requests, -, habort⟩ := abortVerification_of_mem
        (s := { s with requests := s.requests.eraseIdx i }) hmem
      rw [habort]
      by_cases hself : id = flowId
      · subst hself
        have htold : s.told id (.serve i calls) = some .abort := by simp [told, hrequest, hmem]
        rw [respond, events_append, answered, htold]
        simp [events, send, Sign.content]
      · rw [events_respond _ (by simpa [Received.isEndOf] using hself)]
        have htold : s.told flowId (.serve i calls) = none := by simp [told, hrequest, hself]
        rw [answered, htold]
        exact (List.append_nil _).symm
    · have habort := abortVerification_of_not_mem
        (s := { s with requests := s.requests.eraseIdx i }) hmem
      refine hunanswered ?_ ((congrArg (events flowId) habort).trans (events_respond _ rfl))
      have hcase : ¬(id = flowId ∧ flowId ∈ s.verificationRequests) := by
        rintro ⟨rfl, hmem'⟩
        exact hmem hmem'
      simp only [told, hrequest, if_neg hcase]

theorem content_signs (phase : Phase) (input : Input) (contents : List Content) :
    (phase.signs input contents).filterMap Sign.content = contents := by
  have hcontents : (contents.map Sign.sent).filterMap Sign.content = contents := by
    rw [List.filterMap_map]
    exact List.filterMap_some
  have hpresented : input.presented.filterMap Sign.content = [] := by
    unfold Input.presented
    split <;> rfl
  rw [Phase.signs, List.filterMap_append, List.filterMap_append, hcontents, hpresented]
  cases phase.beginsSas input <;> rfl

/-- A step of a task is no abort. -/
theorem told_task_ne_abort (s : State) (id flowId : String) (input : Input) :
    s.told flowId (.task id input) ≠ some .abort := by
  intro htold
  simp only [told, Option.ite_none_right_eq_some, Option.bind_eq_some_iff] at htold
  obtain ⟨-, task, -, hleaves⟩ := htold
  unfold Task.leaves at hleaves
  split at hleaves
  · cases hleaves
  · split at hleaves <;> cases hleaves

/-- What a task sends is about its own flow. -/
theorem about_of_step {id : String} {task : Task} {held : Bool} {input : Input}
    {next : Task × List Content} (hstep : task.step id held input = some next) :
    ∀ content ∈ next.2, content.flowId = some id := by
  by_cases hfinish : input = .finish
  · subst hfinish
    obtain ⟨-, rfl⟩ := Task.step_finish hstep
    simp
  · exact (Task.follows_step hfinish hstep).about

/-- The application is told of a flow what its task sends and what answers an abort. -/
theorem events_step {a : Step} (hstep : s.step a = some t) :
    t.events flowId = s.events flowId ++ (s.signs flowId a).filterMap Sign.content := by
  cases a with
  | issue request =>
    obtain rfl := Option.some.inj hstep
    exact (List.append_nil _).symm
  | serve i calls =>
    obtain ⟨request, hrequest, hserve⟩ := Option.bind_eq_some_iff.mp hstep
    exact events_serve hrequest hserve
  | push i =>
    obtain ⟨id, -, rfl⟩ := Option.map_eq_some_iff.mp hstep
    exact (events_respond _ rfl).trans (List.append_nil _).symm
  | recoveryKeyVerification result =>
    obtain rfl := Option.some.inj hstep
    cases result <;> exact (events_respond s rfl).trans (List.append_nil _).symm
  | task id input =>
    obtain ⟨task, htask, hmove⟩ := Option.bind_eq_some_iff.mp hstep
    obtain ⟨next, hnext, rfl⟩ := Option.map_eq_some_iff.mp hmove
    have habout := about_of_step hnext
    have hevents : (s.moveTask id next).events flowId = s.events flowId
        ++ next.2.filter fun content => content.flowId = some flowId := by
      simp only [events, moveTask, List.filterMap_append, List.filterMap_map]
      congr 1
      rw [← List.filterMap_eq_filter]
      refine List.filterMap_congr fun content _ => ?_
      simp [Option.guard]
    rw [hevents]
    congr 1
    have hanswered : s.answered flowId (.task id input) = [] := by
      unfold answered
      split
      · next habort => exact absurd habort (told_task_ne_abort s id flowId input)
      · rfl
    rw [signs, hanswered, List.append_nil]
    by_cases hself : id = flowId
    · subst hself
      rw [shown_of_task htask hnext, content_signs]
      exact List.filter_eq_self.mpr fun content hmem => by simpa using habout content hmem
    · have hnone : s.shown flowId (.task id input) = [] := by simp [shown, hself]
      rw [hnone]
      refine List.filter_eq_nil_iff.mpr fun content hmem => ?_
      simp [habout content hmem, hself]

end State

/-- In every run, the actions that a task has taken, then those on their way to it, then those that
    it has left behind, are the actions that requests have sent to it; and its `start_sas()` and
    `confirm()` calls answer the actions that it has taken, each one of its own, in their order. -/
theorem actions_answered {as : List Step} {t : State}
    (hrun : verificationSystem.run .initial as = some t) (flowId : String) :
    verificationSystem.trace (State.taken flowId) .initial as ++ t.pending flowId
          ++ t.dropped flowId
        = verificationSystem.trace (State.sent flowId) .initial as ∧
      (verificationSystem.trace (State.userCalls flowId) .initial as).Sublist
        ((verificationSystem.trace (State.taken flowId) .initial as).filterMap
          VerificationAction.call) := by
  have hfifo : ∀ s a t, s.Inv → verificationSystem.step s a = some t →
      s.taken flowId a ++ t.channel flowId = s.channel flowId ++ s.sent flowId a :=
    fun _ _ _ h hstep => State.taken_append_channel (State.taskMove_step h hstep)
  have hcalls : ∀ s a t, s.Inv → verificationSystem.step s a = some t →
      (s.userCalls flowId a).Sublist ((s.taken flowId a).filterMap VerificationAction.call) :=
    fun _ _ _ h hstep => State.userCalls_sublist (State.taskMove_step h hstep)
  refine ⟨?_, ?_⟩
  · rw [List.append_assoc, State.pending_append_dropped]
    exact verificationSystem.fifo_of_step State.inv_of_step hfifo State.inv_initial hrun
  · rw [← verificationSystem.trace_filterMap]
    exact verificationSystem.trace_sublist State.inv_of_step hcalls State.inv_initial hrun

/-- The last confirmation comes when the task has left its loops. -/
theorem actions_answered_succeed :
    let as := startFlow ++ succeed.take 10 ++ [.issue (.crossSigningConfirm "f"), .serve 0 noCalls]
    ∃ t, verificationSystem.run .initial as = some t ∧
      (verificationSystem.trace (State.taken "f") .initial as ++ t.pending "f" ++ t.dropped "f"
          = verificationSystem.trace (State.sent "f") .initial as ∧
        (verificationSystem.trace (State.userCalls "f") .initial as).Sublist
          ((verificationSystem.trace (State.taken "f") .initial as).filterMap
            VerificationAction.call)) ∧
      verificationSystem.trace (State.userCalls "f") .initial as = [.startSas, .confirm] ∧
      t.dropped "f" = [.confirm] :=
  ⟨_, rfl, actions_answered rfl "f", by decide +kernel⟩

/-- In every run, what the application is told of a flow follows `protocol`. -/
theorem protocol_followed {as : List Step} {t : State}
    (hrun : verificationSystem.run .initial as = some t) (flowId : String) :
    (protocol.run ⟨.requested, false⟩
        (verificationSystem.trace (State.signs flowId) .initial as)).isSome ∧
      (verificationSystem.trace (State.signs flowId) .initial as).filterMap Sign.content
        = t.events flowId := by
  have hlog : ∀ s a t, s.Inv → verificationSystem.step s a = some t →
      t.events flowId = s.events flowId ++ (s.signs flowId a).filterMap Sign.content :=
    fun s a t _ hstep => State.events_step hstep
  have hinitial : State.initial.Watched flowId ⟨.requested, false⟩ :=
    ⟨by simp [State.stage, State.initial], fun haborted => by cases haborted⟩
  obtain ⟨q, hq, -⟩ := verificationSystem.accepted_of_step State.inv_of_step protocol
    (fun s a t q h hwatched hstep => State.protocol_step h hstep hwatched)
    State.inv_initial hinitial hrun
  refine ⟨by rw [hq]; rfl, ?_⟩
  have hevents := verificationSystem.log_of_step State.inv_of_step hlog State.inv_initial hrun
  rw [hevents, verificationSystem.trace_filterMap]
  rfl

/-- A flow that is aborted once the code has been shown. -/
def abortVerifying : List Step :=
  startFlow ++ succeed.take 5 ++ [.issue (.abortVerification "f"), .serve 0 noCalls,
    .task "f" .receive, .task "f" (.returned (.ok ())), .task "f" .finish]

theorem protocol_followed_abortVerifying :
    ∃ t, verificationSystem.run .initial abortVerifying = some t ∧
      ((protocol.run ⟨.requested, false⟩
          (verificationSystem.trace (State.signs "f") .initial abortVerifying)).isSome ∧
        (verificationSystem.trace (State.signs "f") .initial abortVerifying).filterMap
          Sign.content = t.events "f") ∧
      t.events "f" = [.crossSigningStartEvent "f" [.sasString, .sasSymbol],
        .crossSigningMethodSelectedEvent "f" .sasString (some (.stringCode "1 2 3")),
        verificationEnd "f" false, verificationEnd "f" false] :=
  ⟨_, rfl, protocol_followed rfl "f", by decide +kernel⟩

/-- In every run, the task of a flow makes at most three steps for every state that its streams
    yield and every action that is sent to it, and two more. -/
theorem task_steps_bounded {as : List Step} {t : State}
    (hrun : verificationSystem.run .initial as = some t) (flowId : String) :
    (verificationSystem.trace (State.inputs flowId) .initial as).length
      ≤ 2 + 3 * (verificationSystem.trace (State.feed flowId) .initial as).length := by
  have hstep : ∀ s a t, s.Inv → verificationSystem.step s a = some t →
      (s.inputs flowId a).length + t.potential flowId
        ≤ s.potential flowId + 3 * (s.feed flowId a).length :=
    fun _ _ _ h hstep => State.potential_step (State.taskMove_step h hstep)
  have hbounded := verificationSystem.bounded_of_step State.inv_of_step hstep State.inv_initial hrun
  have hinitial : State.initial.potential flowId = 2 := rfl
  omega

theorem task_steps_bounded_succeed :
    ∃ t, verificationSystem.run .initial (startFlow ++ succeed) = some t ∧
      (verificationSystem.trace (State.inputs "f") .initial (startFlow ++ succeed)).length
        ≤ 2 + 3 * (verificationSystem.trace (State.feed "f") .initial
          (startFlow ++ succeed)).length :=
  ⟨_, rfl, task_steps_bounded rfl "f"⟩

end GoudaMatrix.Verification
