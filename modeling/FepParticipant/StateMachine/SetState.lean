import FepParticipant.Result
import FepParticipant.Incident

/-! The states of a participant, its state events, and the table `PerformStateTransition`
looks up; and `SetState`: the callbacks of one state change, their results and their order. -/
namespace FepParticipant.StateMachine

inductive State where
  | fsStartup
  | fsIdle
  | fsInitializing
  | fsReady
  | fsRunning
  | fsError
  | fsShutdown
  deriving DecidableEq

/-- `cState::ToString`. -/
def State.toString : State → String
  | .fsStartup => "FS_STARTUP"
  | .fsIdle => "FS_IDLE"
  | .fsInitializing => "FS_INITIALIZING"
  | .fsReady => "FS_READY"
  | .fsRunning => "FS_RUNNING"
  | .fsError => "FS_ERROR"
  | .fsShutdown => "FS_SHUTDOWN"

inductive StateTransition where
  | stStartupDone
  | stError
  | stRestart
  | stShutdown
  | stInitialize
  | stStop
  | stInitDone
  | stStart
  | stErrorFixed
  deriving DecidableEq

/-- The states the `ShutdownEvent` is ignored in, `FS_SHUTDOWN` itself apart. -/
def State.IsActive (state : State) : Prop := state = .fsInitializing ∨ state = .fsReady ∨ state = .fsRunning

instance (state : State) : Decidable state.IsActive := by
  unfold State.IsActive
  infer_instance

namespace StateTransition

/-- The state `PerformStateTransition` asks `SetState` for; an event that is not valid in the
current state has none. -/
def newState (state : State) : StateTransition → Option State
  | .stStartupDone => if state = .fsStartup then some .fsIdle else none
  | .stError => if state ≠ .fsStartup ∧ state ≠ .fsShutdown then some .fsError else none
  | .stRestart => if state = .fsIdle then some .fsStartup else none
  | .stShutdown => if state = .fsStartup ∨ state = .fsIdle ∨ state = .fsError then some .fsShutdown else none
  | .stInitialize => if state = .fsIdle then some .fsInitializing else none
  | .stStop => if state = .fsInitializing ∨ state = .fsReady ∨ state = .fsRunning then some .fsIdle else none
  | .stInitDone => if state = .fsInitializing then some .fsReady else none
  | .stStart => if state = .fsReady then some .fsRunning else none
  | .stErrorFixed => if state = .fsError then some .fsIdle else none

variable {event : StateTransition} {state new : State}

theorem newState_shutdown : newState .fsShutdown event = none := by
  cases event <;> rfl

theorem active_entered (h : newState state event = some new) (hnew : new.IsActive) :
    state.IsActive ∨ state = .fsIdle ∧ event = .stInitialize := by
  revert h hnew
  cases event <;> cases state <;> cases new <;> decide

def LeadsOut (event : StateTransition) : Prop := event = .stStop ∨ event = .stError

instance (event : StateTransition) : Decidable event.LeadsOut := by
  unfold LeadsOut
  infer_instance

theorem active_left (h : newState state event = some new) (hstate : state.IsActive)
    (hnew : ¬new.IsActive) : event.LeadsOut := by
  revert h hstate hnew
  cases event <;> cases state <;> cases new <;> decide

theorem LeadsOut.not_active (hout : event.LeadsOut) (h : newState state event = some new) : ¬new.IsActive := by
  revert h
  rcases hout with rfl | rfl <;> cases state <;> cases new <;> decide

theorem LeadsOut.valid (hout : event.LeadsOut) (hstate : state.IsActive) : newState state event ≠ none := by
  rcases hout with rfl | rfl <;> rcases hstate with rfl | rfl | rfl <;> decide

theorem newState_stError (hstartup : state ≠ .fsStartup) (hshutdown : state ≠ .fsShutdown) :
    newState state .stError = some .fsError := by
  simp [newState,hstartup,hshutdown]

end StateTransition

/-- What the callbacks of one state change return, in the order of notification, and the reported text. -/
structure CallbackResults where
  request : List Result
  exit : List Result
  internalExit : Result
  cleanUp : List Result
  internalCleanUp : Result
  internalEntry : Result
  entry : List Result
  errorDescription : String

/-- The parts of a state change; the assignment of the new state is one of them. -/
inductive Phase where
  | request
  | exit
  | internalExit
  | stateChange
  | cleanUp
  | internalCleanUp
  | internalEntry
  | entry
  deriving DecidableEq

structure Call where
  phase : Phase
  result : Result

/-- `NotifyListener`: every listener is called, the first failure is returned. -/
def notifyListener (results : List Result) : Result := results.foldl .or .errNoError

/-- The members `SetState` reads. -/
structure Machine where
  state : State
  queue : List StateTransition
  ignoreEvents : Bool
  considerRequestResult : Bool
  initialStateChangeDone : Bool
  lastStateReached : State

/-- What one call of `SetState` did. -/
structure StateChange where
  oldState : State
  newState : State
  executed : Bool
  calls : List Call
  result : Result
  incidents : List Incident

/-- The state of the machine after `SetState`. -/
def StateChange.state (change : StateChange) : State := if change.executed then change.newState else change.oldState

def notifications (phase : Phase) (results : List Result) : List Call := results.map (⟨phase,·⟩)

/-- There is no request callback for `FS_STARTUP`. -/
def hasRequestCallback (newState : State) : Bool := newState != .fsStartup

def callsCleanUp (oldState newState : State) : Bool :=
  (oldState == .fsIdle || oldState == .fsError) &&
    (newState == .fsStartup || newState == .fsShutdown)

def transitionFailed (state newState : State) (result : Result) (description : String) : Incident where
  code := .fsiGeneralCriticalFailure
  severity := .critical
  description := "An error occurred during state transition from old state: " ++ state.toString ++
    " to new state: " ++ newState.toString ++
    " (error code: " ++ toString result.getErrorCode ++ ") (error description: " ++ description ++ ")"
  origin := "StateMachine"

def stateRequestFailed (result : Result) : Incident where
  code := .fsiStmStateRqFailed
  severity := .info
  description := "pending state transition was stopped as at least one state request callback returned " ++
    "an error (error code: " ++ toString result.getErrorCode ++ ")"
  origin := "StateMachine"

def shutdownInStartup : Incident where
  code := .fsiGeneralCriticalFailure
  severity := .criticalLocal
  description := "Due to an error in FS_STARTUP a shutdown was requested. See other FEP Incidents for details."
  origin := "StateMachine"

namespace Machine

/-- The request listeners `SetState` asks. -/
def requests (machine : Machine) (newState : State) (answers : CallbackResults) : List Result :=
  if machine.initialStateChangeDone && hasRequestCallback newState then answers.request else []

/-- The results of the exit listeners, the clean up listeners and the registered entry listeners. -/
def exitResult (machine : Machine) (answers : CallbackResults) : Result :=
  if machine.initialStateChangeDone then (notifyListener answers.exit).or answers.internalExit
  else .errNoError

def cleanUpResult (machine : Machine) (newState : State) (answers : CallbackResults) : Result :=
  if callsCleanUp machine.state newState then (notifyListener answers.cleanUp).or answers.internalCleanUp
  else .errNoError

/-- The return value of an executed state change; the internal entry listener has no part in it. -/
def changeResult (machine : Machine) (newState : State) (answers : CallbackResults) : Result :=
  if isFailed (machine.exitResult answers) then machine.exitResult answers
  else if isFailed (machine.cleanUpResult newState answers) then machine.cleanUpResult newState answers
  else notifyListener answers.entry

def changeCalls (machine : Machine) (newState : State) (answers : CallbackResults) : List Call :=
  (if machine.initialStateChangeDone then
    notifications .exit answers.exit ++ [⟨.internalExit,answers.internalExit⟩] else []) ++
  [⟨.stateChange,.errNoError⟩] ++
  (if callsCleanUp machine.state newState then
    notifications .cleanUp answers.cleanUp ++ [⟨.internalCleanUp,answers.internalCleanUp⟩] else []) ++
  [⟨.internalEntry,answers.internalEntry⟩] ++ notifications .entry answers.entry

/-- The requests are granted or not considered, and `PerformShutdown` does not discard events. -/
def executes (machine : Machine) (newState : State) (answers : CallbackResults) : Bool :=
  !machine.ignoreEvents &&
    (isOk (notifyListener (machine.requests newState answers)) || !machine.considerRequestResult)

/-- `cStateMachine::SetState`, with the members it leaves alone left out of the result. -/
def setState (machine : Machine) (newState : State) (answers : CallbackResults) : StateChange :=
  let requests := machine.requests newState answers
  let requested := notifyListener requests
  let executed := machine.executes newState answers
  let result :=
    if machine.ignoreEvents then .errCancelled
    else if executed then machine.changeResult newState answers else requested
  let calls :=
    if machine.ignoreEvents then []
    else notifications .request requests ++
      if executed then machine.changeCalls newState answers else []
  let hack :=
    if !machine.ignoreEvents && machine.state == .fsStartup && newState == .fsShutdown then
      [shutdownInStartup] else []
  let overruled :=
    if !machine.ignoreEvents && isOk result && isFailed requested then [stateRequestFailed result] else []
  let failed :=
    if isFailed result then
      [transitionFailed (if executed then newState else machine.state) newState result
        (if machine.ignoreEvents then "" else answers.errorDescription)] else []
  ⟨machine.state,newState,executed,calls,result,hack ++ overruled ++ failed⟩

end Machine

theorem notifyListener_eq_ok_iff (results : List Result) :
    notifyListener results = .errNoError ↔ ∀ result ∈ results, result = .errNoError := by
  have hfold : ∀ first : Result, results.foldl .or first = .errNoError ↔
      first = .errNoError ∧ ∀ result ∈ results, result = .errNoError := by
    induction results with
    | nil => simp
    | cons result results ih =>
      intro first
      rw [List.foldl_cons,ih,Result.or_eq_errNoError_iff]
      simp [and_assoc]
  simp [notifyListener,hfold]

namespace Machine

variable {machine : Machine} {newState : State} {answers : CallbackResults}

@[simp] theorem setState_oldState : (machine.setState newState answers).oldState = machine.state := rfl

@[simp] theorem setState_newState : (machine.setState newState answers).newState = newState := rfl

@[simp] theorem setState_executed :
    (machine.setState newState answers).executed = machine.executes newState answers := rfl

theorem executes_iff : machine.executes newState answers = true ↔ machine.ignoreEvents = false ∧
      (isOk (notifyListener (machine.requests newState answers)) = true ∨ machine.considerRequestResult = false) := by
  simp only [executes,Bool.and_eq_true,Bool.or_eq_true,Bool.not_eq_true']

theorem setState_state : (machine.setState newState answers).state =
    if machine.executes newState answers then newState else machine.state := rfl

section
variable (h : machine.executes newState answers = false)
include h

private theorem refused_of_not_executes (hignore : machine.ignoreEvents = false) :
    notifyListener (machine.requests newState answers) ≠ .errNoError := by
  intro hok
  have hexecutes := executes_iff.mpr ⟨hignore,.inl ((isOk_iff _).mpr hok)⟩
  simp [h] at hexecutes

theorem setState_failed_of_not_executes : (machine.setState newState answers).result ≠ .errNoError := by
  cases hignore : machine.ignoreEvents with
  | true => simp [setState,hignore]
  | false => simpa [setState,hignore,h] using refused_of_not_executes h hignore

theorem setState_calls_of_not_executes : ∀ call ∈ (machine.setState newState answers).calls, call.phase = .request := by
  intro call hcall
  cases hignore : machine.ignoreEvents with
  | true => simp [setState,hignore] at hcall
  | false =>
    obtain ⟨result,-,rfl⟩ : ∃ result ∈ machine.requests newState answers,
        (⟨.request,result⟩ : Call) = call := by
      simpa [setState,hignore,h,notifications] using hcall
    rfl

end

theorem setState_result_of_executes (h : machine.executes newState answers = true) :
    (machine.setState newState answers).result = machine.changeResult newState answers := by
  obtain ⟨hignore,-⟩ := executes_iff.mp h
  simp [setState,hignore,h]

theorem setState_calls_of_executes (h : machine.executes newState answers = true) :
    (machine.setState newState answers).calls = notifications .request (machine.requests newState answers) ++
        machine.changeCalls newState answers := by
  obtain ⟨hignore,-⟩ := executes_iff.mp h
  simp [setState,hignore,h]

theorem exitResult_eq_ok_iff : machine.exitResult answers = .errNoError ↔ (machine.initialStateChangeDone = true →
      ∀ result ∈ answers.internalExit::answers.exit, result = .errNoError) := by
  cases hdone : machine.initialStateChangeDone with
  | false => simp [exitResult,hdone]
  | true => simp [exitResult,hdone,notifyListener_eq_ok_iff,and_comm]

theorem cleanUpResult_eq_ok_iff : machine.cleanUpResult newState answers = .errNoError ↔
    (callsCleanUp machine.state newState = true →
      ∀ result ∈ answers.internalCleanUp::answers.cleanUp, result = .errNoError) := by
  cases hcalls : callsCleanUp machine.state newState with
  | false => simp [cleanUpResult,hcalls]
  | true => simp [cleanUpResult,hcalls,notifyListener_eq_ok_iff,and_comm]

theorem changeResult_eq_ok_iff : machine.changeResult newState answers = .errNoError ↔
    machine.exitResult answers = .errNoError ∧ machine.cleanUpResult newState answers = .errNoError ∧
      notifyListener answers.entry = .errNoError := by
  unfold changeResult
  by_cases hexit : machine.exitResult answers = .errNoError
  · by_cases hcleanUp : machine.cleanUpResult newState answers = .errNoError <;> simp [hexit,hcleanUp]
  · simp [hexit]

end Machine

/-- The members of a state machine after its `Initialize`. -/
def Machine.new : Machine := ⟨.fsStartup,[],false,true,false,.fsStartup⟩

/-- `FireupStateMachine`. -/
def Machine.fireupStateMachine (machine : Machine) (answers : CallbackResults) : Machine × StateChange :=
  let machine := {machine with initialStateChangeDone := false, ignoreEvents := false}
  let change := machine.setState .fsStartup answers
  ({ machine with
      state := change.state, lastStateReached := change.state, initialStateChangeDone := true },change)

/-- `EnqueueStateTransition`; an ignored event is dropped. -/
def Machine.enqueueStateTransition (machine : Machine) (event : StateTransition) : Machine :=
  { machine with
    queue := if machine.ignoreEvents then machine.queue else machine.queue ++ [event] }

end FepParticipant.StateMachine
