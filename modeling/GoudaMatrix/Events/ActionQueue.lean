/-
  The channel between the `EventManager` and its `EventExecutor` (`events.rs`).

  `send_action` counts an action and then sends it into a channel of `EVENT_CHANNEL_CAPACITY` slots;
  any number of handlers do so at the same time. The executor takes one action after another, counts
  it down and executes it. `queue_counter` is a `usize`, whose additions and subtractions wrap.

  `actions_executed_in_order`: what has been executed, is executed and is in the channel is what has
  been sent, in its order; the counter is the number of actions that are on their way, and it never
  wraps below zero. `actions_drain`: the executor can always execute all of them.
-/
import GoudaMatrix.Lib.Channel
import GoudaMatrix.Lib.Trace
import Mathlib.Data.List.Perm.Basic

namespace GoudaMatrix.Events.ActionQueue

open GoudaMatrix.Lib

def eventChannelCapacity : Nat := 100

def eventExecutorLaggingWarning : BitVec 64 := 50

/-- Where the loop of `EventExecutor::run` is. -/
inductive Executor (A : Type) where
  /-- `recv()`. -/
  | receiving
  /-- Before `update_queue_counter`. -/
  | received (action : A)
  /-- `exec_action`. -/
  | executing (action : A)
deriving DecidableEq

def Executor.action {A : Type} : Executor A → Option A
  | .receiving => none
  | .received action | .executing action => some action

structure State (A : Type) where
  /-- A `usize`. -/
  queueCounter : BitVec 64
  /-- The actions that `send_action` has counted and not sent yet. -/
  counted : List A
  channel : Channel A
  executor : Executor A
  executed : List A
  /-- The counts of which the executor has warned that it is lagging behind. -/
  warnings : List (BitVec 64)
deriving DecidableEq

inductive Step (A : Type) where
  /-- `send_action` counts its action. -/
  | count (action : A)
  /-- One of the counted actions is sent. -/
  | send (i : Nat)
  /-- The first sender that waits gets its slot. -/
  | enqueue
  | receive
  | updateQueueCounter
  /-- `exec_action` returns. -/
  | executed

namespace State

variable {A : Type}

def initial : State A := ⟨0, [], .empty, .receiving, [], []⟩

/-- `update_queue_counter`. -/
def updateQueueCounter (s : State A) : State A :=
  { s with
    queueCounter := s.queueCounter - 1
    warnings :=
      s.warnings ++ if s.queueCounter > eventExecutorLaggingWarning then [s.queueCounter] else [] }

def step (s : State A) : Step A → Option (State A)
  | .count action =>
    some { s with
      queueCounter := s.queueCounter + 1
      counted := s.counted ++ [action] }
  | .send i =>
    s.counted[i]?.map fun action =>
      { s with counted := s.counted.eraseIdx i, channel := s.channel.offer action }
  | .enqueue => (s.channel.enqueue eventChannelCapacity).map fun channel => { s with channel }
  | .receive =>
    match s.executor with
    | .receiving => s.channel.receive.map fun (action, channel) =>
        { s with channel, executor := .received action }
    | _ => none
  | .updateQueueCounter =>
    match s.executor with
    | .received action => some { s.updateQueueCounter with executor := .executing action }
    | _ => none
  | .executed =>
    match s.executor with
    | .executing action =>
      some { s with executor := .receiving, executed := s.executed ++ [action] }
    | _ => none

end State

def queueSystem (A : Type) : System (State A) (Step A) where
  step := State.step

/-! ## Steps -/

namespace State

variable {A : Type}

/-- The action of a step that `send_action` counts. -/
def counts : State A → Step A → List A
  | _, .count action => [action]
  | _, _ => []

/-- The action of a step that is sent. -/
def sent (s : State A) : Step A → List A
  | .send i => s.counted[i]?.toList
  | _ => []

/-- The actions that have been sent: executed, in execution, or in the channel. -/
def sentActions (s : State A) : List A :=
  s.executed ++ s.executor.action.toList ++ s.channel.contents

/-- How many actions have been counted and not been counted down. -/
def outstanding (s : State A) : Nat :=
  s.counted.length + s.channel.contents.length +
    match s.executor with
    | .received _ => 1
    | .receiving | .executing _ => 0

/-- The warning that a step is to give. -/
def lag (s : State A) : Step A → List (BitVec 64)
  | .updateQueueCounter =>
    if BitVec.ofNat 64 s.outstanding > eventExecutorLaggingWarning then
      [BitVec.ofNat 64 s.outstanding]
    else []
  | _ => []

structure Inv (s : State A) : Prop where
  counter : s.queueCounter = BitVec.ofNat 64 s.outstanding
  buffer : s.channel.buffer.length ≤ eventChannelCapacity

/-- What a step does, and when it can be taken. -/
inductive StepCases (s t : State A) : Step A → Prop
  | count (action : A)
      (after : t = { s with
        queueCounter := s.queueCounter + 1
        counted := s.counted ++ [action] }) : StepCases s t (.count action)
  | send (i : Nat) (action : A) (found : s.counted[i]? = some action)
      (after : t = { s with
        counted := s.counted.eraseIdx i, channel := s.channel.offer action }) :
      StepCases s t (.send i)
  | enqueue (channel : Channel A) (enqueued : s.channel.enqueue eventChannelCapacity = some channel)
      (after : t = { s with channel }) : StepCases s t .enqueue
  | receive (action : A) (channel : Channel A) (idle : s.executor = .receiving)
      (received : s.channel.receive = some (action, channel))
      (after : t = { s with channel, executor := .received action }) : StepCases s t .receive
  | updateQueueCounter (action : A) (received : s.executor = .received action)
      (after : t = { s.updateQueueCounter with executor := .executing action }) :
      StepCases s t .updateQueueCounter
  | executed (action : A) (executing : s.executor = .executing action)
      (after : t = { s with executor := .receiving, executed := s.executed ++ [action] }) :
      StepCases s t .executed

variable {s t : State A} {a : Step A}

theorem step_cases (hstep : s.step a = some t) : StepCases s t a := by
  cases a with
  | count action => exact .count action (Option.some.inj hstep).symm
  | send i =>
    obtain ⟨action, hfound, rfl⟩ := Option.map_eq_some_iff.mp hstep
    exact .send i action hfound rfl
  | enqueue =>
    obtain ⟨channel, hchannel, rfl⟩ := Option.map_eq_some_iff.mp hstep
    exact .enqueue channel hchannel rfl
  | receive =>
    simp only [step] at hstep
    split at hstep
    · next hidle =>
      obtain ⟨⟨action, channel⟩, hreceive, rfl⟩ := Option.map_eq_some_iff.mp hstep
      exact .receive action channel hidle hreceive rfl
    · cases hstep
  | updateQueueCounter =>
    simp only [step] at hstep
    split at hstep
    · next action hreceived =>
        exact .updateQueueCounter action hreceived (Option.some.inj hstep).symm
    · cases hstep
  | executed =>
    simp only [step] at hstep
    split at hstep
    · next action hexecuting => exact .executed action hexecuting (Option.some.inj hstep).symm
    · cases hstep

theorem inv_step (h : s.Inv) (hstep : s.step a = some t) : t.Inv := by
  have hcounter := h.counter
  cases step_cases hstep with
  | count action hafter =>
    subst hafter
    refine ⟨?_, h.buffer⟩
    have hmore : ({ s with
        queueCounter := s.queueCounter + 1
        counted := s.counted ++ [action] } : State A).outstanding = s.outstanding + 1 := by
      simp only [outstanding, List.length_append, List.length_singleton]
      omega
    rw [hmore, BitVec.ofNat_add]
    exact congrArg (· + 1) hcounter
  | send i action hfound hafter =>
    subst hafter
    refine ⟨hcounter.trans (congrArg _ ?_), h.buffer⟩
    have hlt := (List.getElem?_eq_some_iff.mp hfound).1
    simp only [outstanding, Channel.contents_offer, List.length_append, List.length_singleton,
      List.length_eraseIdx_of_lt hlt]
    omega
  | enqueue channel hchannel hafter =>
    subst hafter
    refine ⟨hcounter.trans (congrArg _ ?_), Channel.buffer_enqueue hchannel⟩
    simp only [outstanding, Channel.contents_enqueue hchannel]
  | receive action channel hidle hreceive hafter =>
    subst hafter
    refine ⟨hcounter.trans (congrArg _ ?_), ?_⟩
    · simp only [outstanding, hidle, Channel.contents_receive hreceive, List.length_cons]
      omega
    · have hbuffer := Channel.buffer_receive hreceive
      have hbound := h.buffer
      dsimp only
      omega
  | updateQueueCounter action hreceived hafter =>
    subst hafter
    refine ⟨?_, h.buffer⟩
    have hless : s.outstanding
        = ({ s.updateQueueCounter with
            executor := .executing action } : State A).outstanding + 1 := by
      simp only [outstanding, hreceived, State.updateQueueCounter]
    rw [hless, BitVec.ofNat_add] at hcounter
    exact (congrArg (· - 1) hcounter).trans (BitVec.add_sub_cancel _ _)
  | executed action hexecuting hafter =>
    subst hafter
    refine ⟨hcounter.trans (congrArg _ ?_), h.buffer⟩
    simp only [outstanding, hexecuting]

theorem inv_initial : (initial : State A).Inv := ⟨rfl, Nat.zero_le _⟩

/-- The actions that have been sent keep their order. -/
theorem sentActions_step (hstep : s.step a = some t) :
    t.sentActions = s.sentActions ++ s.sent a := by
  cases step_cases hstep with
  | count action hafter =>
    subst hafter
    exact (List.append_nil _).symm
  | send i action hfound hafter =>
    subst hafter
    rw [sent, hfound]
    simp [sentActions]
  | enqueue channel hchannel hafter =>
    subst hafter
    simp only [sentActions, sent, Channel.contents_enqueue hchannel, List.append_nil]
  | receive action channel hidle hreceive hafter =>
    subst hafter
    simp [sentActions, sent, hidle, Channel.contents_receive hreceive, Executor.action]
  | updateQueueCounter action hreceived hafter =>
    subst hafter
    simp [sentActions, sent, hreceived, State.updateQueueCounter, Executor.action]
  | executed action hexecuting hafter =>
    subst hafter
    simp [sentActions, sent, hexecuting, Executor.action]

/-- What has been counted is still to be sent, or has been sent. -/
theorem counted_step (hstep : s.step a = some t) :
    (t.counted ++ t.sentActions).Perm (s.counted ++ s.sentActions ++ s.counts a) := by
  have hsent := sentActions_step hstep
  cases step_cases hstep with
  | count action hafter =>
    subst hafter
    rw [hsent]
    simp only [sent, counts, List.append_nil, List.append_assoc]
    exact (List.perm_append_comm).append_left _
  | send i action hfound hafter =>
    subst hafter
    rw [hsent, sent, hfound]
    simp only [counts, List.append_nil, Option.toList_some]
    obtain ⟨hlt, rfl⟩ := List.getElem?_eq_some_iff.mp hfound
    rw [← List.append_assoc]
    refine List.perm_append_comm.trans ?_
    rw [List.singleton_append, ← List.cons_append]
    exact (List.getElem_cons_eraseIdx_perm hlt).append_right _
  | enqueue channel hchannel hafter | receive action channel hidle hreceive hafter
    | updateQueueCounter action hreceived hafter | executed action hexecuting hafter =>
    subst hafter
    rw [hsent]
    simp only [sent, counts, List.append_nil]
    exact .refl _

theorem warnings_step (h : s.Inv) (hstep : s.step a = some t) :
    t.warnings = s.warnings ++ s.lag a := by
  cases step_cases hstep with
  | updateQueueCounter action hreceived hafter =>
    subst hafter
    simp only [lag, State.updateQueueCounter, h.counter]
  | count action hafter | send i action hfound hafter | enqueue channel hchannel hafter
    | receive action channel hidle hreceive hafter | executed action hexecuting hafter =>
    subst hafter
    exact (List.append_nil _).symm

/-- How many steps are left for the actions that are on their way. -/
def work (s : State A) : Nat :=
  5 * s.counted.length + 4 * s.channel.waiting.length + 3 * s.channel.buffer.length +
    match s.executor with
    | .receiving => 0
    | .received _ => 2
    | .executing _ => 1

/-- The steps of `send_action`, of the channel and of the executor for the actions on their way. -/
def Internal (a : Step A) : Prop := ∀ action, a ≠ .count action

/-- An action on its way can be moved on. -/
theorem exists_step (s : State A) (hwork : s.work ≠ 0) :
    ∃ a t, Internal a ∧ s.step a = some t ∧ t.work < s.work := by
  obtain ⟨counter, counted, channel, executor, executed, warnings⟩ := s
  cases executor with
  | received action =>
    refine ⟨.updateQueueCounter, _, by simp [Internal], rfl, ?_⟩
    simp only [work, State.updateQueueCounter]
    omega
  | executing action =>
    refine ⟨.executed, _, by simp [Internal], rfl, ?_⟩
    simp only [work]
    omega
  | receiving =>
    cases counted with
    | cons action counted =>
      refine ⟨.send 0, _, by simp [Internal], rfl, ?_⟩
      simp only [work, Channel.offer, List.length_cons, List.length_append, List.length_nil,
        List.eraseIdx_cons_zero]
      omega
    | nil =>
      have hcontents : channel.contents ≠ [] := by
        intro hempty
        obtain ⟨hbuffer, hwaiting⟩ := List.append_eq_nil_iff.mp hempty
        simp [work, hbuffer, hwaiting] at hwork
      rcases Channel.moves_of_contents (by decide : 0 < eventChannelCapacity) hcontents with
        ⟨action, channel', hreceive⟩ | ⟨channel', henqueue⟩
      · have hbuffer := Channel.buffer_receive hreceive
        have hwaiting := (Channel.receive_cases hreceive).2
        refine ⟨.receive, _, by simp [Internal], by rw [step, hreceive]; rfl, ?_⟩
        simp only [work, hwaiting]
        omega
      · have hwaiting := Channel.waiting_enqueue henqueue
        obtain ⟨action, waiting, -, -, rfl⟩ := Channel.enqueue_cases henqueue
        refine ⟨.enqueue, _, by simp [Internal], by rw [step, henqueue]; rfl, ?_⟩
        simp only [work, List.length_append, List.length_singleton] at hwaiting ⊢
        omega

theorem counts_of_internal {s : State A} {a : Step A} (ha : Internal a) : s.counts a = [] := by
  cases a with
  | count action => exact absurd rfl (ha action)
  | _ => rfl

/-- Nothing is left on its way. -/
theorem drained_of_work {s : State A} (h : s.work = 0) :
    s.counted = [] ∧ s.channel.contents = [] ∧ s.outstanding = 0 ∧ s.sentActions = s.executed := by
  obtain ⟨counter, counted, ⟨waiting, buffer⟩, executor, executed, warnings⟩ := s
  cases executor with
  | receiving =>
    simp only [work, Nat.add_zero] at h
    obtain rfl := List.length_eq_zero_iff.mp (by omega : counted.length = 0)
    obtain rfl := List.length_eq_zero_iff.mp (by omega : waiting.length = 0)
    obtain rfl := List.length_eq_zero_iff.mp (by omega : buffer.length = 0)
    exact ⟨rfl, rfl, rfl, by simp [sentActions, Executor.action, Channel.contents]⟩
  | received | executing => simp [work] at h

end State

/-! ## Runs -/

variable {A : Type}

theorem inv_of_step (s : State A) (a : Step A) (t : State A) (h : s.Inv)
    (hstep : (queueSystem A).step s a = some t) : t.Inv := State.inv_step h hstep

/-- In every run, the actions executed, in execution and in the channel are the actions sent, in
    their order; each action that a handler has counted is among them or is still to be sent. The
    channel keeps its capacity, the counter is the number of actions that are counted and not
    counted down, and the executor warns of exactly the counts above the limit. -/
theorem actions_executed_in_order {as : List (Step A)} {t : State A}
    (hrun : (queueSystem A).run .initial as = some t) :
    t.executed ++ t.executor.action.toList ++ t.channel.contents
        = (queueSystem A).trace State.sent .initial as ∧
      (t.counted ++ (queueSystem A).trace State.sent .initial as).Perm
        ((queueSystem A).trace State.counts .initial as) ∧
      t.channel.buffer.length ≤ eventChannelCapacity ∧
      t.queueCounter = BitVec.ofNat 64 t.outstanding ∧
      t.warnings = (queueSystem A).trace State.lag .initial as := by
  have hinv : t.Inv := (queueSystem A).inv_of_any_run inv_of_step State.inv_initial hrun
  have hsent : t.sentActions = (queueSystem A).trace State.sent .initial as :=
    (queueSystem A).log_of_step inv_of_step (fun s a t _ h => State.sentActions_step h)
      State.inv_initial hrun
  have hpool : (t.counted ++ t.sentActions).Perm
      ((queueSystem A).trace State.counts .initial as) :=
    (queueSystem A).pool_of_step inv_of_step (fun s a t _ h => State.counted_step h)
      State.inv_initial hrun
  have hwarnings : t.warnings = (queueSystem A).trace State.lag .initial as :=
    (queueSystem A).log_of_step inv_of_step (fun s a t h hstep => State.warnings_step h hstep)
      State.inv_initial hrun
  exact ⟨hsent, hsent ▸ hpool, hinv.buffer, hinv.counter, hwarnings⟩

/-- From every state that a run reaches, the actions on their way can all be executed, without a new
    one: first those that have been sent, in their order, then those that were still to be sent. -/
theorem actions_drain {as : List (Step A)} {s : State A}
    (hrun : (queueSystem A).run .initial as = some s) :
    ∃ bs t rest, (∀ b ∈ bs, State.Internal b) ∧ (queueSystem A).run s bs = some t ∧
      t.counted = [] ∧ t.channel.contents = [] ∧ t.queueCounter = 0 ∧ rest.Perm s.counted ∧
      t.executed = s.executed ++ s.executor.action.toList ++ s.channel.contents ++ rest := by
  have hinv : s.Inv := (queueSystem A).inv_of_any_run inv_of_step State.inv_initial hrun
  obtain ⟨bs, t, hinternal, hrun', hrest⟩ := (queueSystem A).exists_run_to_rest inv_of_step
    (fun s _ hwork => State.exists_step s hwork) hinv
  obtain ⟨hcounted, hcontents, houtstanding, hexecuted⟩ := State.drained_of_work hrest
  have hinv' : t.Inv := (queueSystem A).inv_of_any_run inv_of_step hinv hrun'
  have hsent : t.sentActions = s.sentActions ++ (queueSystem A).trace State.sent s bs :=
    (queueSystem A).log_of_step inv_of_step (fun s a t _ h => State.sentActions_step h) hinv hrun'
  have hpool : (t.counted ++ t.sentActions).Perm
      (s.counted ++ s.sentActions ++ (queueSystem A).trace State.counts s bs) :=
    (queueSystem A).pool_of_step inv_of_step (fun s a t _ h => State.counted_step h) hinv hrun'
  have hnone : (queueSystem A).trace State.counts s bs = [] :=
    (queueSystem A).trace_eq_nil (fun b hb s => State.counts_of_internal (hinternal b hb)) s
  refine ⟨bs, t, (queueSystem A).trace State.sent s bs, hinternal, hrun', hcounted, hcontents, ?_,
    ?_, hexecuted.symm.trans hsent⟩
  · rw [hinv'.counter, houtstanding]
    rfl
  · rw [hcounted, hnone, hsent, List.nil_append, List.append_nil] at hpool
    exact (List.perm_append_left_iff _).mp (hpool.trans List.perm_append_comm)

/-- Two handlers, the second of which sends its action first. -/
def twoHandlers : List (Step String) :=
  [.count "name", .count "topic", .send 1, .enqueue, .receive, .updateQueueCounter, .send 0,
    .executed, .enqueue, .receive]

theorem actions_executed_in_order_two_handlers :
    ∃ t, (queueSystem String).run .initial twoHandlers = some t ∧
      (t.executed ++ t.executor.action.toList ++ t.channel.contents
          = (queueSystem String).trace State.sent .initial twoHandlers ∧
        (t.counted ++ (queueSystem String).trace State.sent .initial twoHandlers).Perm
          ((queueSystem String).trace State.counts .initial twoHandlers) ∧
        t.channel.buffer.length ≤ eventChannelCapacity ∧
        t.queueCounter = BitVec.ofNat 64 t.outstanding ∧
        t.warnings = (queueSystem String).trace State.lag .initial twoHandlers) ∧
      t.executed = ["topic"] ∧ t.queueCounter = 1 :=
  ⟨_, rfl, actions_executed_in_order rfl, by decide +kernel⟩

theorem actions_drain_two_handlers :
    ∃ s, (queueSystem String).run .initial twoHandlers = some s ∧
      ∃ bs t rest, (∀ b ∈ bs, State.Internal b) ∧ (queueSystem String).run s bs = some t ∧
        t.counted = [] ∧ t.channel.contents = [] ∧ t.queueCounter = 0 ∧ rest.Perm s.counted ∧
        t.executed = s.executed ++ s.executor.action.toList ++ s.channel.contents ++ rest := by
  obtain ⟨s, hrun⟩ : ∃ s, (queueSystem String).run .initial twoHandlers = some s := ⟨_, rfl⟩
  exact ⟨s, hrun, actions_drain hrun⟩

end GoudaMatrix.Events.ActionQueue
