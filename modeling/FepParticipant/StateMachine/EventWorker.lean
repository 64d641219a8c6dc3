import FepParticipant.Library.Reachability
import FepParticipant.StateMachine.SetState

/-! The state machine with its event queue, the event worker and one `PerformShutdown`,
in any interleaving with the events of other threads and of callbacks. -/
namespace FepParticipant.StateMachine
open Library

/-- The position of the event worker: between two handlers, in the handler of a dequeued event,
or behind the callbacks of its state change. -/
inductive WorkerPosition where
  | waiting
  | performing (event : StateTransition)
  | performed (result : Result)
  deriving DecidableEq

/-- The position of the thread that calls `PerformShutdown`. -/
inductive ShutdownPosition where
  | notCalled
  | ignoring
  | cleared
  | overruling
  | accepting
  | enqueueing (events : List StateTransition)
  | awaiting
  | done
  deriving DecidableEq

/-- A performed transition as it is remembered. -/
structure Transition where
  event : StateTransition
  considered : Bool
  answers : CallbackResults
  change : StateChange

structure RunningMachine where
  machine : Machine
  worker : WorkerPosition
  shutdown : ShutdownPosition
  transitions : List Transition

/-- An event is enqueued by some thread or callback, the worker goes on, or the thread in
`PerformShutdown` does. -/
inductive Action where
  | event (event : StateTransition)
  | dequeue
  | perform (answers : CallbackResults)
  | finish
  | performShutdown

/-- The events `PerformShutdown` enqueues for the state it finds. -/
def shutdownEvents : State → List StateTransition
  | .fsStartup | .fsIdle | .fsError => [.stShutdown]
  | .fsInitializing | .fsReady | .fsRunning => [.stStop,.stShutdown]
  | .fsShutdown => []

/-- Every callback returns `ERR_NOERROR`. -/
def quietAnswers : CallbackResults := ⟨[],[],.errNoError,[],.errNoError,.errNoError,[],""⟩

def handleNext (answers : CallbackResults) : List Action := [.dequeue,.perform answers,.finish]

namespace RunningMachine

/-- The machine after `FireupStateMachine`, with nothing enqueued yet. -/
def fireup (answers : CallbackResults) : RunningMachine :=
  ⟨(Machine.new.fireupStateMachine answers).1,.waiting,.notCalled,[]⟩

def enqueue (s : RunningMachine) (event : StateTransition) : RunningMachine :=
  {s with machine := s.machine.enqueueStateTransition event}

def dequeue (s : RunningMachine) (event : StateTransition) (queue : List StateTransition) :
    RunningMachine :=
  {s with machine := {s.machine with queue := queue}, worker := .performing event}

/-- `PerformStateTransition` ignores an event that is not valid. -/
def ignoreEvent (s : RunningMachine) : RunningMachine := {s with worker := .waiting}

/-- `PerformStateTransition` for an event that is valid. -/
def changeState (s : RunningMachine) (event : StateTransition) (newState : State)
    (answers : CallbackResults) : RunningMachine :=
  let change := s.machine.setState newState answers
  { s with
    machine := {s.machine with state := change.state}
    worker := .performed change.result
    transitions := s.transitions ++ [⟨event,s.machine.considerRequestResult,answers,change⟩] }

/-- The end of `SetState`. -/
def setStateReached (s : RunningMachine) : RunningMachine :=
  { s with
    machine := {s.machine with lastStateReached := s.machine.state}
    worker := .waiting }

/-- The end of the handler: a failed transition enqueues an `ErrorEvent`. -/
def finishHandler (s : RunningMachine) (result : Result) : RunningMachine :=
  if isFailed result then s.setStateReached.enqueue .stError else s.setStateReached

/-- `PerformShutdown` enqueues the next of its events. -/
def enqueueNext (s : RunningMachine) (event : StateTransition) (events : List StateTransition) :
    RunningMachine :=
  {s.enqueue event with shutdown := .enqueueing events}

/-- `PerformShutdown`; one step for each access to the members of the machine. -/
def performShutdown (s : RunningMachine) : Option RunningMachine :=
  match s.shutdown with
  | .notCalled => some {s with machine := {s.machine with ignoreEvents := true}, shutdown := .ignoring}
  | .ignoring =>
    -- the worker is joined, and with it the handler it is in, before the queue is cleared
    if s.worker = .waiting then
      some {s with machine := {s.machine with queue := []}, shutdown := .cleared} else none
  | .cleared => some {s with machine := {s.machine with considerRequestResult := false}, shutdown := .overruling}
  | .overruling => some {s with machine := {s.machine with ignoreEvents := false}, shutdown := .accepting}
  | .accepting => some {s with shutdown := .enqueueing (shutdownEvents s.machine.state)}
  | .enqueueing (event::events) => some (s.enqueueNext event events)
  | .enqueueing [] => some {s with shutdown := .awaiting}
  | .awaiting =>
    if s.machine.lastStateReached = .fsShutdown then
      some {s with machine := {s.machine with considerRequestResult := true}, shutdown := .done}
    else some (s.enqueue .stShutdown)
  | .done => none

def step (s : RunningMachine) : Action → Option RunningMachine
  | .event event => some (s.enqueue event)
  | .dequeue =>
    match s.worker, s.machine.queue with
    | .waiting, event::queue => some (s.dequeue event queue)
    | _, _ => none
  | .perform answers =>
    match s.worker with
    | .performing event =>
      match event.newState s.machine.state with
      | some newState => some (s.changeState event newState answers)
      | none => some s.ignoreEvent
    | _ => none
  | .finish =>
    match s.worker with
    | .performed result => some (s.finishHandler result)
    | _ => none
  | .performShutdown => s.performShutdown

/-- The ways the worker goes on. -/
inductive WorkerCase (s : RunningMachine) : Action → RunningMachine → Prop
  | dequeued {event : StateTransition} {queue : List StateTransition} (waiting : s.worker = .waiting)
      (head : s.machine.queue = event::queue) : WorkerCase s .dequeue (s.dequeue event queue)
  | ignored {event : StateTransition} {answers : CallbackResults} (performing : s.worker = .performing event)
      (invalid : event.newState s.machine.state = none) : WorkerCase s (.perform answers) s.ignoreEvent
  | changed {event : StateTransition} {newState : State} {answers : CallbackResults}
      (performing : s.worker = .performing event) (valid : event.newState s.machine.state = some newState) :
      WorkerCase s (.perform answers) (s.changeState event newState answers)
  | finished {result : Result} (performed : s.worker = .performed result) :
      WorkerCase s .finish (s.finishHandler result)

theorem step_cases {s t : RunningMachine} {action : Action} (h : s.step action = some t) :
    (∃ event, action = .event event ∧ t = s.enqueue event) ∨ WorkerCase s action t ∨
      action = .performShutdown ∧ s.performShutdown = some t := by
  cases action with
  | event event => exact .inl ⟨event,rfl,by simpa [step] using h.symm⟩
  | dequeue =>
    simp only [step] at h
    split at h
    · rename_i event queue hwaiting hhead
      cases h
      exact .inr (.inl (.dequeued hwaiting hhead))
    · cases h
  | perform answers =>
    simp only [step] at h
    split at h
    · rename_i event hperforming
      split at h
      · rename_i newState hvalid
        cases h
        exact .inr (.inl (.changed hperforming hvalid))
      · rename_i hinvalid
        cases h
        exact .inr (.inl (.ignored hperforming hinvalid))
    · cases h
  | finish =>
    simp only [step] at h
    split at h
    · rename_i result hperformed
      cases h
      exact .inr (.inl (.finished hperformed))
    · cases h
  | performShutdown => exact .inr (.inr ⟨rfl,h⟩)

section Frame

variable (s : RunningMachine) (event : StateTransition)

variable {s}

theorem enqueue_queue (h : s.machine.ignoreEvents = false) :
    (s.enqueue event).machine.queue = s.machine.queue ++ [event] := by
  simp [enqueue,Machine.enqueueStateTransition,h]

theorem mem_enqueue {other : StateTransition} (h : other ∈ s.machine.queue) :
    other ∈ (s.enqueue event).machine.queue := by
  simp only [enqueue,Machine.enqueueStateTransition]
  split
  · exact h
  · exact List.mem_append_left _ h

theorem performShutdown_frame {t : RunningMachine} (h : s.performShutdown = some t) :
    t.shutdown ≠ .notCalled ∧ t.machine.state = s.machine.state ∧ t.transitions = s.transitions ∧
      t.machine.initialStateChangeDone = s.machine.initialStateChangeDone ∧
      t.worker = s.worker ∧ t.machine.lastStateReached = s.machine.lastStateReached := by
  unfold performShutdown at h
  split at h
  case h_2 | h_8 => split at h <;> cases h <;> simp_all [enqueue,Machine.enqueueStateTransition]
  all_goals cases h
  all_goals simp [enqueueNext,enqueue,Machine.enqueueStateTransition]

theorem performShutdown_considers {t : RunningMachine} (h : s.performShutdown = some t)
    (hconsider : t.machine.considerRequestResult = true) :
    s.machine.considerRequestResult = true ∨ s.machine.lastStateReached = .fsShutdown := by
  unfold performShutdown at h
  split at h
  case h_8 =>
    split at h
    · exact .inr ‹_›
    · cases h
      exact .inl hconsider
  case h_3 => cases h; cases hconsider
  case h_2 => split at h <;> cases h; exact .inl hconsider
  all_goals cases h
  all_goals exact .inl hconsider

end Frame

end RunningMachine
end FepParticipant.StateMachine
