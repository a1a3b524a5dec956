/-
  How often the application is told that a verification flow has ended, by an event or by the
  response of `abort_verification`.

  `Flow` is what counts of a flow: whether its task runs, whether its manager exists, and the ends
  that the application has received. Every step of the client is a step of this machine for each
  flow, or leaves the flow as it is (`flow_step`).

  `ends_once_iff`: a run tells every end exactly once if and only if its steps meet `TellsOnce`:
  - a task whose manager exists does not leave its loops without an event,
  - a task whose manager is aborted leaves them only without one,
  - a flow is not aborted after its task has left the loops.
  `aborted_and_done` are two runs of which one tells the end twice and the other never.
-/
import GoudaMatrix.Verification.Model

namespace GoudaMatrix.Verification

open GoudaMatrix.Lib

/-! ## The ends of a flow -/

inductive Progress where
  | absent
  | running
  | ended
deriving DecidableEq

structure Flow where
  progress : Progress
  /-- The manager exists: the flow is not aborted, and not cleaned up. -/
  held : Bool
  ends : Nat

inductive FlowEvent where
  | start
  | abort
  /-- The task leaves its loops, and reports the end or not. -/
  | leave (reports : Bool)
  | cleanup

namespace Flow

def step (flow : Flow) : FlowEvent → Option Flow
  | .start => if flow.progress = .absent then some ⟨.running, true, flow.ends⟩ else none
  | .abort => if flow.held then some ⟨flow.progress, false, flow.ends + 1⟩ else none
  | .leave reports =>
    if flow.progress = .running then some ⟨.ended, flow.held, flow.ends + reports.toNat⟩ else none
  | .cleanup => if flow.progress = .ended ∧ flow.held then some ⟨.ended, false, flow.ends⟩ else none

/-- A running flow has been told to end if it is aborted. -/
def Inv (flow : Flow) : Prop :=
  match flow.progress with
  | .absent => flow.held = false ∧ flow.ends = 0
  | .running => flow.ends = (!flow.held).toNat
  | .ended => True

def EndsOnce (flow : Flow) : Prop := flow.progress = .ended → flow.ends = 1

/-- The events that keep `EndsOnce`. -/
def TellsOnce (flow : Flow) : FlowEvent → Prop
  | .abort => flow.progress ≠ .ended
  | .leave reports => reports = flow.held
  | .start | .cleanup => True

variable {flow next : Flow} {event : FlowEvent}

/-- What an event does to a flow, and when it can happen. -/
theorem step_cases (hstep : flow.step event = some next) :
    (event = .start ∧ flow.progress = .absent ∧ next = ⟨.running, true, flow.ends⟩) ∨
      (event = .abort ∧ flow.held = true ∧ next = ⟨flow.progress, false, flow.ends + 1⟩) ∨
      (∃ reports, event = .leave reports ∧ flow.progress = .running ∧
        next = ⟨.ended, flow.held, flow.ends + reports.toNat⟩) ∨
      (event = .cleanup ∧ flow.progress = .ended ∧ next = ⟨.ended, false, flow.ends⟩) := by
  cases event with
  | start =>
    simp only [step, Option.ite_none_right_eq_some, Option.some.injEq] at hstep
    exact .inl ⟨rfl, hstep.1, hstep.2.symm⟩
  | abort =>
    simp only [step, Option.ite_none_right_eq_some, Option.some.injEq] at hstep
    exact .inr (.inl ⟨rfl, hstep.1, hstep.2.symm⟩)
  | leave reports =>
    simp only [step, Option.ite_none_right_eq_some, Option.some.injEq] at hstep
    exact .inr (.inr (.inl ⟨reports, rfl, hstep.1, hstep.2.symm⟩))
  | cleanup =>
    simp only [step, Option.ite_none_right_eq_some, Option.some.injEq] at hstep
    exact .inr (.inr (.inr ⟨rfl, hstep.1.1, hstep.2.symm⟩))

theorem inv_step (h : flow.Inv) (hstep : flow.step event = some next) : next.Inv := by
  obtain ⟨progress, held, ends⟩ := flow
  rcases step_cases hstep with ⟨-, hprogress, rfl⟩ | ⟨-, hheld, rfl⟩ | ⟨reports, -, -, rfl⟩
    | ⟨-, -, rfl⟩
  · obtain rfl : progress = .absent := hprogress
    exact h.2
  · obtain rfl : held = true := hheld
    cases progress with
    | absent => cases h.1
    | running => exact congrArg (· + 1) h
    | ended => trivial
  · trivial
  · trivial

theorem tellsOnce_iff (h : flow.Inv) (honce : flow.EndsOnce) (hstep : flow.step event = some next) :
    flow.TellsOnce event ↔ next.EndsOnce := by
  obtain ⟨progress, held, ends⟩ := flow
  rcases step_cases hstep with ⟨rfl, -, rfl⟩ | ⟨rfl, -, rfl⟩ | ⟨reports, rfl, hprogress, rfl⟩
    | ⟨rfl, hprogress, rfl⟩
  · simp [TellsOnce, EndsOnce]
  · -- a flow that has ended has been told so, and the response tells it again
    cases progress with
    | absent => simp [TellsOnce, EndsOnce]
    | running => simp [TellsOnce, EndsOnce]
    | ended =>
      have hends : ends = 1 := honce rfl
      simp [TellsOnce, EndsOnce, hends]
  · obtain rfl : progress = .running := hprogress
    have hends : ends = (!held).toNat := h
    subst hends
    cases held <;> cases reports <;> simp [TellsOnce, EndsOnce]
  · obtain rfl : progress = .ended := hprogress
    exact ⟨fun _ => honce, fun _ => trivial⟩

end Flow

/-! ## The flows of the client -/

def Content.isEndOf (flowId : String) : Content → Bool
  | .verificationEndEvent event => event.verificationFlowId = some flowId
  | _ => false

def Received.isEndOf (flowId : String) : Received → Bool
  | .event content => content.isEndOf flowId
  | .response (.ok (.verificationEndEvent ended)) => ended.verificationFlowId = some flowId
  | .response _ => false

def Task.progress : Option Task → Progress
  | none => .absent
  | some task => if task.phase.left then .ended else .running

namespace State

variable (s : State)

/-- How many ends of the flow the application has received. -/
def ends (flowId : String) : Nat := s.received.countP fun received => received.isEndOf flowId

def flow (flowId : String) : Flow :=
  ⟨Task.progress (s.tasks flowId), decide (flowId ∈ s.managers), s.ends flowId⟩

/-- The end of every flow whose task has left its loops has been received once. -/
def EndsOnce : Prop :=
  ∀ flowId task, s.tasks flowId = some task → task.phase.left = true → s.ends flowId = 1

end State

/-! ## The branches at which a task leaves its loops -/

namespace Task

/-- The branches that send an end event. -/
def reportsEnd (task : Task) : Input → Bool
  | .requestChange (some .cancelled) => task.phase = .waitForChanges
  | .sasChange (some .done) | .sasChange (some .cancelled) => task.phase = .sas
  | .returned result =>
    match task.phase, result with
    | .cancelling _, _ | .cancellingSas, _ | .confirming, .error _ => true
    | _, _ => false
  | _ => false

/-- The branches that send none. -/
def leavesSilently (task : Task) : Input → Bool
  | .requestChange (some .done) | .requestChange none => task.phase = .waitForChanges
  | .sasChange none => task.phase = .sas
  | .receive => task.actions = [] ∧ (task.phase = .waitForChanges ∨ task.phase = .sas)
  | _ => false

end Task

/-- A step tells the end of a flow that nobody has told, or of no flow. -/
def TellsOnce (s : State) : Step → Prop
  | .task flowId input => ∀ task ∈ s.tasks flowId,
      (task.reportsEnd input = true → flowId ∈ s.managers) ∧
      (task.leavesSilently input = true → flowId ∉ s.managers)
  | .serve i _ =>
    match s.requests[i]? with
    | some (.abortVerification flowId) => flowId ∈ s.verificationRequests →
        ∀ task ∈ s.tasks flowId, task.phase.left = false
    | _ => True
  | _ => True

instance (s : State) (a : Step) : Decidable (TellsOnce s a) := by
  unfold TellsOnce
  split
  · infer_instance
  · split <;> infer_instance
  · infer_instance

/-! ## Steps of a task -/

/-- The outcome of an input in a phase, for the ends of all flows. -/
structure Tells (flowId : String) (reports silently : Bool) (next : Outcome) : Prop where
  left : next.1.left = (reports || silently)
  ends : ∀ other, next.2.countP (fun content => content.isEndOf other)
    = (reports && decide (other = flowId)).toNat

theorem tells_nil {flowId : String} {phase : Phase} {silently : Bool} (h : phase.left = silently) :
    Tells flowId false silently (phase, []) :=
  ⟨h, fun _ => rfl⟩

/-- One end event, with any result. -/
theorem tells_end (flowId : String) (result : EndResult) :
    Tells flowId true false (.returning, [.verificationEndEvent ⟨some flowId, some result⟩]) := by
  refine ⟨rfl, fun other => ?_⟩
  rw [List.countP_singleton]
  by_cases h : other = flowId
  · simp [Content.isEndOf, h]
  · simp [Content.isEndOf, h, Ne.symm h]

namespace Task

variable {flowId : String} {task : Task}

theorem tells_requestChange {state : Option VerificationRequestState} {next : Outcome}
    (h : task.outcome flowId (.requestChange state) = some next) :
    Tells flowId (task.reportsEnd (.requestChange state))
      (task.leavesSilently (.requestChange state)) next := by
  obtain ⟨actions, phase⟩ := task
  cases phase with
  | waitForChanges =>
    cases state with
    | none =>
      obtain rfl := Option.some.inj h
      exact tells_nil rfl
    | some state =>
      obtain rfl := Option.some.inj h
      cases state with
      | created | requested | done => exact tells_nil rfl
      | ready theirMethods ourMethods => exact ⟨rfl, fun _ => rfl⟩
      | transitioned verification => cases verification <;> exact tells_nil rfl
      | cancelled => exact tells_end flowId (.successful false)
  | _ => cases h

theorem tells_sasChange {state : Option SasState} {next : Outcome}
    (h : task.outcome flowId (.sasChange state) = some next) :
    Tells flowId (task.reportsEnd (.sasChange state)) (task.leavesSilently (.sasChange state))
      next := by
  obtain ⟨actions, phase⟩ := task
  cases phase with
  | sas =>
    cases state with
    | none =>
      obtain rfl := Option.some.inj h
      exact tells_nil rfl
    | some state =>
      obtain rfl := Option.some.inj h
      cases state with
      | created | started | accepted | confirmed => exact tells_nil rfl
      | keysExchanged emojis decimals => exact ⟨rfl, fun _ => rfl⟩
      | done => exact tells_end flowId (.successful true)
      | cancelled => exact tells_end flowId (.successful false)
  | _ => cases h

theorem tells_returned {result : Except String Unit} {next : Outcome}
    (h : task.outcome flowId (.returned result) = some next) :
    Tells flowId (task.reportsEnd (.returned result)) (task.leavesSilently (.returned result))
      next := by
  obtain ⟨actions, phase⟩ := task
  cases phase with
  | accepting =>
    obtain rfl := Option.some.inj h
    cases result <;> exact tells_nil rfl
  | cancelling error =>
    obtain rfl := Option.some.inj h
    cases error with
    | some err => exact tells_end flowId (.error err)
    | none =>
      cases result with
      | error err => exact tells_end flowId (.error err)
      | ok => exact tells_end flowId (.successful false)
  | confirming =>
    obtain rfl := Option.some.inj h
    cases result with
    | error err => exact tells_end flowId (.error err)
    | ok => exact tells_nil rfl
  | cancellingSas =>
    obtain rfl := Option.some.inj h
    cases result with
    | error err => exact tells_end flowId (.error err)
    | ok => exact tells_end flowId (.successful false)
  | _ => cases h

theorem tells_sasStarted {result : Except String Bool} {next : Outcome}
    (h : task.outcome flowId (.sasStarted result) = some next) : Tells flowId false false next := by
  obtain ⟨actions, phase⟩ := task
  cases phase with
  | startingSas =>
    obtain rfl := Option.some.inj h
    cases result with
    | error err => exact tells_nil rfl
    | ok started => cases started <;> exact tells_nil rfl
  | _ => cases h

/-- An action leads to a call of the SDK or back to the loop; a dropped sender leaves the loop. -/
theorem tells_processAction {action : Option VerificationAction} {next : Outcome}
    (h : task.processAction action = some next) :
    Tells flowId false action.isNone next := by
  obtain ⟨actions, phase⟩ := task
  cases phase with
  | waitForChanges =>
    obtain rfl := Option.some.inj h
    cases action with
    | none => exact tells_nil rfl
    | some action =>
      cases action with
      | cancel | confirm => exact tells_nil rfl
      | selectMethod method => cases method <;> exact tells_nil rfl
  | sas =>
    obtain rfl := Option.some.inj h
    cases action with
    | none => exact tells_nil rfl
    | some action => cases action <;> exact tells_nil rfl
  | _ => cases h

/-- Where an input other than the last one comes, the task is not yet leaving. -/
theorem running_of_outcome {input : Input} {next : Outcome}
    (h : task.outcome flowId input = some next) (hinput : input ≠ .finish) :
    task.phase.left = false := by
  obtain ⟨actions, phase⟩ := task
  cases hphase : phase.left with
  | false => rfl
  | true =>
    cases phase <;> cases hphase <;> cases input <;> first | exact absurd rfl hinput | cases h

theorem not_leavesSilently {input : Input} (h : task.reportsEnd input = true) :
    task.leavesSilently input = false := by
  cases input with
  | requestChange state =>
    cases state with
    | none => cases h
    | some state => cases state <;> first | rfl | cases h
  | sasChange state =>
    cases state with
    | none => cases h
    | some state => rfl
  | returned result => rfl
  | receive | sasStarted | finish => cases h

/-- An action is received in one of the loops. -/
theorem leavesSilently_receive {action : Option VerificationAction} {next : Outcome}
    (h : task.processAction action = some next) :
    task.phase.left = false ∧ task.leavesSilently .receive = decide (task.actions = []) := by
  obtain ⟨actions, phase⟩ := task
  cases phase with
  | waitForChanges | sas => exact ⟨rfl, by simp [leavesSilently]⟩
  | _ => cases h

/-- What a step of a task tells: nothing when it finishes, else what its branch says. -/
theorem tells_step {held : Bool} {input : Input} {next : Task × List Content}
    (h : task.step flowId held input = some next) :
    (task.phase.left = true ∧ next.1.phase.left = true ∧ next.2 = [] ∧ input = .finish) ∨
    (task.phase.left = false ∧
      Tells flowId (task.reportsEnd input) (task.leavesSilently input) (next.1.phase, next.2)) := by
  cases input with
  | requestChange state =>
    obtain ⟨next, hnext, rfl⟩ := Option.map_eq_some_iff.mp h
    exact .inr ⟨running_of_outcome hnext (by simp), tells_requestChange hnext⟩
  | sasChange state =>
    obtain ⟨next, hnext, rfl⟩ := Option.map_eq_some_iff.mp h
    exact .inr ⟨running_of_outcome hnext (by simp), tells_sasChange hnext⟩
  | returned result =>
    obtain ⟨next, hnext, rfl⟩ := Option.map_eq_some_iff.mp h
    exact .inr ⟨running_of_outcome hnext (by simp), tells_returned hnext⟩
  | sasStarted result =>
    obtain ⟨next, hnext, rfl⟩ := Option.map_eq_some_iff.mp h
    exact .inr ⟨running_of_outcome hnext (by simp), tells_sasStarted hnext⟩
  | finish =>
    obtain ⟨next, hnext, rfl⟩ := Option.map_eq_some_iff.mp h
    obtain ⟨actions, phase⟩ := task
    cases phase with
    | returning =>
      obtain rfl := Option.some.inj hnext
      exact .inl ⟨rfl, rfl, rfl, rfl⟩
    | _ => cases hnext
  | receive =>
    simp only [step] at h
    split at h
    · next action actions hactions =>
      obtain ⟨next, hnext, rfl⟩ := Option.map_eq_some_iff.mp h
      obtain ⟨hrunning, hsilently⟩ := leavesSilently_receive hnext
      refine .inr ⟨hrunning, ?_⟩
      rw [hsilently, hactions]
      exact tells_processAction hnext
    · next hactions =>
      split at h
      · cases h
      · obtain ⟨next, hnext, rfl⟩ := Option.map_eq_some_iff.mp h
        obtain ⟨hrunning, hsilently⟩ := leavesSilently_receive hnext
        refine .inr ⟨hrunning, ?_⟩
        rw [hsilently, hactions]
        exact tells_processAction hnext

end Task

/-! ## Steps of the client -/

/-- How the task leaves its loops with the input. -/
def Task.leaves (task : Task) (input : Input) : Option FlowEvent :=
  if task.reportsEnd input then some (.leave true)
  else if task.leavesSilently input then some (.leave false)
  else none

/-- The flow is aborted by the step, or its task leaves the loops. -/
def State.told (s : State) (flowId : String) : Step → Option FlowEvent
  | .task taskId input =>
    if taskId = flowId then (s.tasks flowId).bind fun task => task.leaves input else none
  | .serve i _ =>
    match s.requests[i]? with
    | some (.abortVerification id) =>
      if id = flowId ∧ flowId ∈ s.verificationRequests then some .abort else none
    | _ => none
  | _ => none

namespace State

variable {s : State}

theorem flow_respond (s : State) {result : Except Error Response} {flowId : String}
    (h : (Received.response result).isEndOf flowId = false) :
    (s.respond result).flow flowId = s.flow flowId := by
  have hends : (s.respond result).ends flowId = s.ends flowId := by
    simp [ends, respond, List.countP_append, h]
  simp only [flow, hends]
  rfl

theorem flow_send (s : State) (taskId flowId : String) (action : VerificationAction) :
    (s.send taskId action).flow flowId = s.flow flowId := by
  have hprogress : Task.progress ((s.send taskId action).tasks flowId)
      = Task.progress (s.tasks flowId) := by
    by_cases h : flowId = taskId
    · subst h
      simp only [send, Function.update_self]
      cases s.tasks flowId <;> rfl
    · simp only [send, Function.update_of_ne h]
  simp only [flow, hprogress]
  rfl

theorem progress_eq_absent {task : Option Task} : Task.progress task = .absent ↔ task = none := by
  cases task with
  | none => simp [Task.progress]
  | some task => cases h : task.phase.left <;> simp [Task.progress, h]

theorem progress_eq_ended {task : Option Task} :
    Task.progress task = .ended ↔ ∃ running, task = some running ∧ running.phase.left = true := by
  cases task with
  | none => simp [Task.progress]
  | some task => cases h : task.phase.left <;> simp [Task.progress, h]

/-- The managers are of different flows, and no flow has been told too much while it runs. -/
structure Inv (s : State) : Prop where
  nodup : s.managers.Nodup
  flow : ∀ flowId, (s.flow flowId).Inv

/-- The finished tasks lose their managers. -/
theorem flow_cleanup (h : s.Inv) (flowId : String) :
    s.cleanupVerifications.flow flowId = s.flow flowId ∨
      (s.flow flowId).step .cleanup = some (s.cleanupVerifications.flow flowId) := by
  have hmem : flowId ∈ s.cleanupVerifications.managers ↔
      flowId ∈ s.managers ∧ (flowId ∈ s.verificationRequests → s.isActive flowId = true) := by
    have hdisjoint : flowId ∈ s.verificationRequests → flowId ∉ s.pushing := fun hmem hmem' =>
      (List.nodup_append.mp h.nodup).2.2 flowId hmem flowId hmem' rfl
    simp only [managers, cleanupVerifications, List.mem_append, List.mem_filter]
    tauto
  by_cases hactive : flowId ∈ s.verificationRequests → s.isActive flowId = true
  · refine .inl ?_
    simp only [flow, hmem, and_iff_left hactive]
    rfl
  · refine .inr ?_
    obtain ⟨hrequest, hinactive⟩ := Classical.not_imp.mp hactive
    have hheld : flowId ∈ s.managers := List.mem_append_left _ hrequest
    have hended : (s.flow flowId).progress = .ended := by
      have hinv := h.flow flowId
      cases htask : s.tasks flowId with
      | none =>
        simp [Flow.Inv, flow, htask, Task.progress, hheld] at hinv
      | some task =>
        refine progress_eq_ended.mpr ⟨task, htask, ?_⟩
        have hfinished : task.phase = .finished := by simpa [isActive, htask] using hinactive
        rw [hfinished]
        rfl
    have hdropped : flowId ∉ s.cleanupVerifications.managers := fun hmem' =>
      hactive (hmem.mp hmem').2
    have hstill : Task.progress (s.cleanupVerifications.tasks flowId) = .ended := hended
    rw [Flow.step, if_pos ⟨hended, by simpa [flow] using hheld⟩]
    simp only [flow, hstill, hdropped, decide_false]
    rfl

theorem flow_fromVerificationRequest {taskId : String} (hfresh : s.tasks taskId = none)
    (flowId : String) :
    (s.fromVerificationRequest taskId).flow flowId = s.flow flowId ∨
      (s.flow flowId).step .start = some ((s.fromVerificationRequest taskId).flow flowId) := by
  by_cases hself : flowId = taskId
  · subst hself
    refine .inr ?_
    simp [Flow.step, flow, fromVerificationRequest, managers, hfresh, Task.progress, Phase.left,
      ends]
  · refine .inl ?_
    simp [flow, fromVerificationRequest, managers, hself, ends]

theorem perm_managers_push {i : Nat} {taskId : String} (hi : s.pushing[i]? = some taskId) :
    ((s.verificationRequests ++ [taskId]) ++ s.pushing.eraseIdx i).Perm s.managers := by
  obtain ⟨hlt, rfl⟩ := List.getElem?_eq_some_iff.mp hi
  rw [List.append_assoc]
  exact (List.getElem_cons_eraseIdx_perm hlt).append_left _

theorem flow_push {i : Nat} {taskId : String} (hi : s.pushing[i]? = some taskId) (flowId : String) :
    ({ s with
      verificationRequests := s.verificationRequests ++ [taskId]
      pushing := s.pushing.eraseIdx i } : State).flow flowId = s.flow flowId := by
  have hmem := (perm_managers_push hi).mem_iff (a := flowId)
  simp only [flow, managers, hmem]
  rfl

/-- The aborted manager is taken out of the list. -/
theorem abortVerification_of_mem {taskId : String} (hmem : taskId ∈ s.verificationRequests) :
    ∃ requests, (taskId :: requests).Perm s.verificationRequests ∧
      s.abortVerification taskId
        = ({ s with verificationRequests := requests }.send taskId .cancel).respond
          (.ok (.verificationEndEvent ⟨some taskId, some (.successful false)⟩)) := by
  have hany : (s.verificationRequests.findIdx? fun p => p == taskId).isSome := by
    simpa [List.findIdx?_isSome] using hmem
  obtain ⟨index, hindex⟩ := Option.isSome_iff_exists.mp hany
  obtain ⟨hlt, hget, -⟩ := List.findIdx?_eq_some_iff_getElem.mp hindex
  have hget : s.verificationRequests[index]? = some taskId := by
    rw [List.getElem?_eq_getElem hlt, eq_of_beq hget]
  refine ⟨swapRemove s.verificationRequests index, perm_swapRemove hget, ?_⟩
  simp only [abortVerification, hindex]

theorem flow_abort (hnodup : s.managers.Nodup) {taskId : String}
    (hmem : taskId ∈ s.verificationRequests) (flowId : String) :
    (flowId ≠ taskId ∧ (s.abortVerification taskId).flow flowId = s.flow flowId) ∨
    (flowId = taskId ∧
      (s.flow flowId).step .abort = some ((s.abortVerification taskId).flow flowId)) := by
  obtain ⟨requests, hperm, habort⟩ := abortVerification_of_mem hmem
  have hmanagers : (taskId :: (requests ++ s.pushing)).Perm s.managers :=
    hperm.append_right s.pushing
  have hmem' := hmanagers.mem_iff (a := flowId)
  rw [habort]
  by_cases hself : flowId = taskId
  · subst hself
    refine .inr ⟨rfl, ?_⟩
    have hheld : flowId ∈ s.managers := List.mem_append_left _ hmem
    have hdropped : flowId ∉ requests ++ s.pushing :=
      (List.nodup_cons.mp (hmanagers.nodup_iff.mpr hnodup)).1
    have hprogress := congrArg Flow.progress
      (flow_send { s with verificationRequests := requests } flowId flowId .cancel)
    simp only [flow] at hprogress
    simp only [Flow.step, flow, hheld, decide_true, if_true, respond, ends, List.countP_append,
      hprogress]
    simp [managers, send, hdropped, Received.isEndOf]
  · refine .inl ⟨hself, ?_⟩
    rw [flow_respond _ (by simpa [Received.isEndOf] using Ne.symm hself), flow_send]
    have hsame : flowId ∈ requests ++ s.pushing ↔ flowId ∈ s.managers := by
      rw [← hmem', List.mem_cons, or_iff_right hself]
    simp only [flow, managers] at hsame ⊢
    simp only [hsame]
    rfl

/-- The ends that a step of a task adds. -/
theorem ends_moveTask (taskId flowId : String) (next : Task × List Content) :
    (s.moveTask taskId next).ends flowId
      = s.ends flowId + next.2.countP fun content => content.isEndOf flowId := by
  simp only [ends, moveTask, List.countP_append, List.countP_map]
  rfl

theorem flow_moveTask {taskId : String} {task : Task} {held : Bool} {input : Input}
    {next : Task × List Content} (htask : s.tasks taskId = some task)
    (hstep : task.step taskId held input = some next) (flowId : String) :
    (s.told flowId (.task taskId input) = none ∧
      (s.moveTask taskId next).flow flowId = s.flow flowId) ∨
    ∃ event, s.told flowId (.task taskId input) = some event ∧
      (s.flow flowId).step event = some ((s.moveTask taskId next).flow flowId) := by
  have hflow : (s.moveTask taskId next).flow flowId
      = ⟨Task.progress ((s.moveTask taskId next).tasks flowId), decide (flowId ∈ s.managers),
        s.ends flowId + next.2.countP fun content => content.isEndOf flowId⟩ := by
    simp only [flow, ends_moveTask]
    rfl
  rw [hflow]
  by_cases hself : flowId = taskId
  · subst hself
    have htold : s.told flowId (.task flowId input) = task.leaves input := by
      simp [told, htask]
    have hafter : (s.moveTask flowId next).tasks flowId = some next.1 := Function.update_self ..
    rw [htold, hafter]
    rcases Task.tells_step hstep with ⟨hleft, hnext, hnone, rfl⟩ | ⟨hrunning, htells⟩
    · refine .inl ⟨rfl, ?_⟩
      simp [flow, htask, Task.progress, hleft, hnext, hnone]
    · have hprogress : (s.flow flowId).progress = .running := by
        simp [flow, htask, Task.progress, hrunning]
      have hleft := htells.left
      have hends := htells.ends flowId
      dsimp only at hleft hends
      rw [hends]
      cases hreports : task.reportsEnd input with
      | true =>
        refine .inr ⟨.leave true, by simp [Task.leaves, hreports], ?_⟩
        rw [Flow.step, if_pos hprogress]
        simp [Task.progress, hleft, hreports, flow]
      | false =>
        cases hsilently : task.leavesSilently input with
        | true =>
          refine .inr ⟨.leave false, by simp [Task.leaves, hreports, hsilently], ?_⟩
          rw [Flow.step, if_pos hprogress]
          simp [Task.progress, hleft, hreports, hsilently, flow]
        | false =>
          refine .inl ⟨by simp [Task.leaves, hreports, hsilently], ?_⟩
          simp [Task.progress, hleft, hreports, hsilently, flow, htask, hrunning]
  · refine .inl ⟨by simp [told, Ne.symm hself], ?_⟩
    have hafter : (s.moveTask taskId next).tasks flowId = s.tasks flowId :=
      Function.update_of_ne hself ..
    have hends : next.2.countP (fun content => content.isEndOf flowId) = 0 := by
      rcases Task.tells_step hstep with ⟨-, -, hnone, -⟩ | ⟨-, htells⟩
      · rw [hnone]
        rfl
      · have hends := htells.ends flowId
        simpa [hself] using hends
    rw [hafter, hends]
    rfl

end State

/-- A move about which the application is told nothing. -/
def Flow.Quiet (flow next : Flow) : Prop :=
  next = flow ∨ flow.step .start = some next ∨ flow.step .cleanup = some next

namespace State

variable {s t : State}

/-- `cross_signing_start` fails, or has a new flow. -/
theorem crossSigningStart_cases {supportedMethods : List (Option CrossSigningMethod)}
    {calls : StartCalls} (hserve : s.crossSigningStart supportedMethods calls = some t) :
    (∃ err, t = s.respond (.error err)) ∨
    ∃ taskId, s.tasks taskId = none ∧ t = s.fromVerificationRequest taskId := by
  unfold crossSigningStart at hserve
  split at hserve
  · exact .inl ⟨_, (Option.some.inj hserve).symm⟩
  · split at hserve
    · exact .inl ⟨_, (Option.some.inj hserve).symm⟩
    · split at hserve
      · exact .inl ⟨_, (Option.some.inj hserve).symm⟩
      · next taskId hstarted =>
        split at hserve
        · cases hserve
        · next hfresh =>
          exact .inr ⟨taskId, by simpa using hfresh, (Option.some.inj hserve).symm⟩

theorem flow_crossSigningSelectMethod (s : State) (taskId : String)
    (selectedMethod : Option CrossSigningMethod) (flowId : String) :
    (s.crossSigningSelectMethod taskId selectedMethod).flow flowId = s.flow flowId := by
  unfold crossSigningSelectMethod
  split
  · cases selectedMethod with
    | some method => exact (flow_respond _ rfl).trans (flow_send s taskId flowId _)
    | none => exact flow_respond s rfl
  · exact flow_respond s rfl

theorem flow_crossSigningConfirm (s : State) (taskId flowId : String) :
    (s.crossSigningConfirm taskId).flow flowId = s.flow flowId := by
  unfold crossSigningConfirm
  split
  · exact (flow_respond _ rfl).trans (flow_send s taskId flowId _)
  · exact flow_respond s rfl

theorem abortVerification_of_not_mem {taskId : String} (hmem : taskId ∉ s.verificationRequests) :
    s.abortVerification taskId = s.respond (.error .verificationFlowNotFound) := by
  have hnone : s.verificationRequests.findIdx? (fun p => p == taskId) = none := by
    rw [List.findIdx?_eq_none_iff]
    exact fun other hother => by simpa using fun heq : other = taskId => hmem (heq ▸ hother)
  simp only [abortVerification, hnone]

theorem managers_crossSigningSelectMethod (s : State) (taskId : String)
    (selectedMethod : Option CrossSigningMethod) :
    (s.crossSigningSelectMethod taskId selectedMethod).managers = s.managers := by
  unfold crossSigningSelectMethod
  split
  · cases selectedMethod <;> rfl
  · rfl

theorem managers_crossSigningConfirm (s : State) (taskId : String) :
    (s.crossSigningConfirm taskId).managers = s.managers := by
  unfold crossSigningConfirm
  split <;> rfl

theorem nodup_abort (hnodup : s.managers.Nodup) (taskId : String) :
    (s.abortVerification taskId).managers.Nodup := by
  by_cases hmem : taskId ∈ s.verificationRequests
  · obtain ⟨requests, hperm, habort⟩ := abortVerification_of_mem hmem
    have hmanagers : (taskId :: (requests ++ s.pushing)).Perm s.managers :=
      hperm.append_right s.pushing
    rw [habort]
    exact (List.nodup_cons.mp (hmanagers.nodup_iff.mpr hnodup)).2
  · rw [abortVerification_of_not_mem hmem]
    exact hnodup

/-- Every step is a step of the machine of each flow, and `told` says what the application
    learns. -/
theorem flow_step (h : s.Inv) {a : Step} (hstep : s.step a = some t) (flowId : String) :
    (s.told flowId a = none ∧ (s.flow flowId).Quiet (t.flow flowId)) ∨
    ∃ event, s.told flowId a = some event ∧ (s.flow flowId).step event = some (t.flow flowId) := by
  cases a with
  | issue request =>
    obtain rfl := Option.some.inj hstep
    exact .inl ⟨rfl, (flow_cleanup h flowId).imp_right .inr⟩
  | serve i calls =>
    obtain ⟨request, hrequest, hserve⟩ := Option.bind_eq_some_iff.mp hstep
    cases request with
    | crossSigningStart supportedMethods =>
      refine .inl ⟨by simp [told, hrequest], ?_⟩
      rcases crossSigningStart_cases hserve with ⟨err, rfl⟩ | ⟨taskId, hfresh, rfl⟩
      · exact .inl (flow_respond _ rfl)
      · exact (flow_fromVerificationRequest hfresh flowId).imp_right .inl
    | crossSigningSelectMethod taskId method =>
      obtain rfl := Option.some.inj hserve
      exact .inl ⟨by simp [told, hrequest], .inl (flow_crossSigningSelectMethod _ _ _ _)⟩
    | crossSigningConfirm taskId =>
      obtain rfl := Option.some.inj hserve
      exact .inl ⟨by simp [told, hrequest], .inl (flow_crossSigningConfirm _ _ _)⟩
    | abortVerification taskId =>
      obtain rfl := Option.some.inj hserve
      by_cases hmem : taskId ∈ s.verificationRequests
      · rcases flow_abort (s := { s with requests := s.requests.eraseIdx i }) h.nodup hmem
          flowId with
          ⟨hne, hsame⟩ | ⟨rfl, habort⟩
        · exact .inl ⟨by simp [told, hrequest, Ne.symm hne], .inl hsame⟩
        · exact .inr ⟨.abort, by simp [told, hrequest, hmem], habort⟩
      · have habort := abortVerification_of_not_mem
          (s := { s with requests := s.requests.eraseIdx i }) hmem
        rw [habort]
        refine .inl ⟨?_, .inl (flow_respond _ rfl)⟩
        have hcase : ¬(taskId = flowId ∧ flowId ∈ s.verificationRequests) := by
          rintro ⟨rfl, hmem'⟩
          exact hmem hmem'
        simp only [told, hrequest, if_neg hcase]
  | push i =>
    obtain ⟨taskId, hi, rfl⟩ := Option.map_eq_some_iff.mp hstep
    exact .inl ⟨rfl, .inl ((flow_respond _ rfl).trans (flow_push hi flowId))⟩
  | task taskId input =>
    obtain ⟨task, htask, hmove⟩ := Option.bind_eq_some_iff.mp hstep
    obtain ⟨next, hnext, rfl⟩ := Option.map_eq_some_iff.mp hmove
    exact (flow_moveTask htask hnext flowId).imp_left (And.imp_right .inl)
  | recoveryKeyVerification result =>
    obtain rfl := Option.some.inj hstep
    cases result <;> exact .inl ⟨rfl, .inl (flow_respond s rfl)⟩

theorem nodup_step (h : s.Inv) {a : Step} (hstep : s.step a = some t) : t.managers.Nodup := by
  cases a with
  | issue request =>
    obtain rfl := Option.some.inj hstep
    exact h.nodup.sublist (List.filter_sublist.append_right _)
  | serve i calls =>
    obtain ⟨request, hrequest, hserve⟩ := Option.bind_eq_some_iff.mp hstep
    cases request with
    | crossSigningStart supportedMethods =>
      rcases crossSigningStart_cases hserve with ⟨err, rfl⟩ | ⟨taskId, hfresh, rfl⟩
      · exact h.nodup
      · have habsent : (s.flow taskId).progress = .absent := progress_eq_absent.mpr hfresh
        have hinv := h.flow taskId
        simp only [Flow.Inv, habsent] at hinv
        have hnew : taskId ∉ s.managers := by simpa [flow] using hinv.1
        have hmanagers : (s.fromVerificationRequest taskId).managers = s.managers ++ [taskId] :=
          (List.append_assoc ..).symm
        have hnodup : (s.fromVerificationRequest taskId).managers.Nodup := by
          rw [hmanagers]
          exact (List.perm_append_singleton taskId s.managers).nodup_iff.mpr
            (List.nodup_cons.mpr ⟨hnew, h.nodup⟩)
        exact hnodup
    | crossSigningSelectMethod taskId method =>
      obtain rfl := Option.some.inj hserve
      rw [managers_crossSigningSelectMethod]
      exact h.nodup
    | crossSigningConfirm taskId =>
      obtain rfl := Option.some.inj hserve
      rw [managers_crossSigningConfirm]
      exact h.nodup
    | abortVerification taskId =>
      obtain rfl := Option.some.inj hserve
      exact nodup_abort (s := { s with requests := s.requests.eraseIdx i }) h.nodup taskId
  | push i =>
    obtain ⟨taskId, hi, rfl⟩ := Option.map_eq_some_iff.mp hstep
    exact (perm_managers_push hi).nodup_iff.mpr h.nodup
  | task taskId input =>
    obtain ⟨task, htask, hmove⟩ := Option.bind_eq_some_iff.mp hstep
    obtain ⟨next, hnext, rfl⟩ := Option.map_eq_some_iff.mp hmove
    exact h.nodup
  | recoveryKeyVerification result =>
    obtain rfl := Option.some.inj hstep
    cases result <;> exact h.nodup

theorem inv_step (h : s.Inv) {a : Step} (hstep : s.step a = some t) : t.Inv := by
  refine ⟨nodup_step h hstep, fun flowId => ?_⟩
  rcases flow_step h hstep flowId with ⟨-, hsame | hstart | hcleanup⟩ | ⟨event, -, hevent⟩
  · exact hsame ▸ h.flow flowId
  · exact Flow.inv_step (h.flow flowId) hstart
  · exact Flow.inv_step (h.flow flowId) hcleanup
  · exact Flow.inv_step (h.flow flowId) hevent

theorem endsOnce_iff : s.EndsOnce ↔ ∀ flowId, (s.flow flowId).EndsOnce := by
  refine forall_congr' fun flowId => ?_
  constructor
  · intro h hended
    obtain ⟨task, htask, hleft⟩ := progress_eq_ended.mp hended
    exact h task htask hleft
  · exact fun h task htask hleft => h (progress_eq_ended.mpr ⟨task, htask, hleft⟩)

theorem progress_ne_ended {task : Option Task} :
    Task.progress task ≠ .ended ↔ ∀ running ∈ task, running.phase.left = false := by
  rw [ne_eq, progress_eq_ended]
  simp

theorem tellsOnce_abort {i : Nat} {calls : StartCalls} {taskId : String}
    (hrequest : s.requests[i]? = some (.abortVerification taskId)) :
    TellsOnce s (.serve i calls) ↔
      ∀ flowId, ∀ event ∈ s.told flowId (.serve i calls), (s.flow flowId).TellsOnce event := by
  simp only [Verification.TellsOnce, told, hrequest]
  constructor
  · intro h flowId event hevent
    rw [Option.mem_def, Option.ite_none_right_eq_some, Option.some.injEq] at hevent
    obtain ⟨⟨rfl, hmem⟩, rfl⟩ := hevent
    exact progress_ne_ended.mpr (h hmem)
  · intro h hmem
    exact progress_ne_ended.mp (h taskId .abort (by simp [hmem]))

theorem tellsOnce_leaves (flow : Flow) (task : Task) (input : Input) :
    (∀ event ∈ task.leaves input, flow.TellsOnce event) ↔
      (task.reportsEnd input = true → flow.held = true) ∧
      (task.leavesSilently input = true → flow.held = false) := by
  cases hreports : task.reportsEnd input with
  | true =>
    simp only [Task.leaves, hreports, Task.not_leavesSilently hreports]
    simp [Flow.TellsOnce]
  | false =>
    cases hsilently : task.leavesSilently input with
    | true =>
      simp only [Task.leaves, hreports, hsilently]
      simp [Flow.TellsOnce]
    | false => simp [Task.leaves, hreports, hsilently]

theorem tellsOnce_task {taskId : String} {input : Input} {task : Task}
    (htask : s.tasks taskId = some task) :
    TellsOnce s (.task taskId input) ↔
      ∀ flowId, ∀ event ∈ s.told flowId (.task taskId input), (s.flow flowId).TellsOnce event := by
  have htold : s.told taskId (.task taskId input) = task.leaves input := by simp [told, htask]
  have hcondition : TellsOnce s (.task taskId input) ↔
      ∀ event ∈ task.leaves input, (s.flow taskId).TellsOnce event := by
    rw [tellsOnce_leaves]
    simp [Verification.TellsOnce, htask, flow]
  rw [hcondition]
  constructor
  · intro h flowId event hevent
    by_cases hself : taskId = flowId
    · subst hself
      exact h event (htold ▸ hevent)
    · simp [told, hself] at hevent
  · exact fun h event hevent => h taskId event (htold ▸ hevent)

/-- The condition says of each flow that what is told about it is to be told. -/
theorem tellsOnce_iff_told {a : Step} :
    TellsOnce s a ↔ ∀ flowId, ∀ event ∈ s.told flowId a, (s.flow flowId).TellsOnce event := by
  cases a with
  | issue | push | recoveryKeyVerification => simp [Verification.TellsOnce, told]
  | serve i calls =>
    cases hrequest : s.requests[i]? with
    | none => simp [Verification.TellsOnce, told, hrequest]
    | some request =>
      cases request with
      | crossSigningStart | crossSigningSelectMethod | crossSigningConfirm =>
        simp [Verification.TellsOnce, told, hrequest]
      | abortVerification taskId => exact tellsOnce_abort hrequest
  | task taskId input =>
    cases htask : s.tasks taskId with
    | none =>
      refine iff_of_true (fun task hmem => by simp [htask] at hmem) fun flowId event hevent => ?_
      by_cases hself : taskId = flowId
      · subst hself
        simp [told, htask] at hevent
      · simp [told, hself] at hevent
    | some task => exact tellsOnce_task htask

theorem tellsOnce_step (h : s.Inv) (honce : s.EndsOnce) {a : Step} (hstep : s.step a = some t) :
    TellsOnce s a ↔ t.EndsOnce := by
  rw [tellsOnce_iff_told, endsOnce_iff]
  have honce := endsOnce_iff.mp honce
  refine forall_congr' fun flowId => ?_
  rcases flow_step h hstep flowId with ⟨hnone, hquiet⟩ | ⟨event, htold, hevent⟩
  · rw [hnone]
    refine iff_of_true (fun event hevent => by cases hevent) ?_
    rcases hquiet with hsame | hstart | hcleanup
    · exact hsame ▸ honce flowId
    · exact (Flow.tellsOnce_iff (h.flow flowId) (honce flowId) hstart).mp trivial
    · exact (Flow.tellsOnce_iff (h.flow flowId) (honce flowId) hcleanup).mp trivial
  · rw [← Flow.tellsOnce_iff (h.flow flowId) (honce flowId) hevent, htold]
    simp

theorem inv_initial : initial.Inv := ⟨List.nodup_nil, fun _ => ⟨rfl, rfl⟩⟩

theorem endsOnce_initial : initial.EndsOnce := fun _ _ htask => by cases htask

end State

/-! ## Runs -/

/-- After every number of steps, the end of every flow whose task has left its loops has been
    received exactly once, if and only if every step tells the end of no flow that has been told,
    and no task leaves untold. -/
theorem ends_once_iff {as : List Step} {t : State}
    (hrun : verificationSystem.run .initial as = some t) :
    verificationSystem.Meets TellsOnce .initial as ↔
      ∀ n u, verificationSystem.run .initial (as.take n) = some u → u.EndsOnce :=
  verificationSystem.meets_iff_of_step (fun _ _ _ h => State.inv_step h)
    (fun _ _ _ h honce => State.tellsOnce_step h honce) State.inv_initial
    State.endsOnce_initial hrun

/-! ## Runs of one flow -/

def noCalls : StartCalls := ⟨.ok (), .error (.other "")⟩

/-- A flow "f" whose other device is ready. -/
def startFlow : List Step :=
  [.issue (.crossSigningStart [some .sasSymbol]), .serve 0 ⟨.ok (), .ok "f"⟩, .push 0,
    .task "f" (.requestChange (some (.ready [.sasV1] [.sasV1])))]

/-- The SAS verification succeeds. -/
def succeed : List Step :=
  [.issue (.crossSigningSelectMethod "f" (some .sasSymbol)), .serve 0 noCalls, .task "f" .receive,
    .task "f" (.sasStarted (.ok true)),
    .task "f" (.sasChange (some (.keysExchanged none (1, 2, 3)))),
    .issue (.crossSigningConfirm "f"), .serve 0 noCalls, .task "f" .receive,
    .task "f" (.returned (.ok ())), .task "f" (.sasChange (some .done)), .task "f" .finish]

theorem ends_once_iff_succeed :
    ∃ t, verificationSystem.run .initial (startFlow ++ succeed) = some t ∧
      (verificationSystem.Meets TellsOnce .initial (startFlow ++ succeed) ↔
        ∀ n u, verificationSystem.run .initial ((startFlow ++ succeed).take n) = some u →
          u.EndsOnce) ∧
      verificationSystem.Meets TellsOnce .initial (startFlow ++ succeed) :=
  ⟨_, rfl, ends_once_iff rfl, by decide +kernel⟩

/-- What has been received about "f", and whether its task is done. -/
def outcomeOf (as : List Step) : Option (Nat × Option Phase) :=
  (verificationSystem.run .initial as).map fun t => (t.ends "f", (t.tasks "f").map Task.phase)

/-- An aborted flow, whose task answers the action with an event, and a flow that is done while its
    task waits for changes of the request. -/
theorem aborted_and_done :
    outcomeOf (startFlow ++ [.issue (.abortVerification "f"), .serve 0 noCalls, .task "f" .receive,
      .task "f" (.returned (.ok ())), .task "f" .finish]) = some (2, some .finished) ∧
    outcomeOf (startFlow ++ [.task "f" (.requestChange (some .done)), .task "f" .finish])
      = some (0, some .finished) := by
  decide +kernel

end GoudaMatrix.Verification
