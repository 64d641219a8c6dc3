import FepParticipant.Timing.TaskThread

/-! One execution of a job with the check of its runtime. -/
namespace FepParticipant.Scheduler
open Library
open Timing (TaskThread StepConfig HandleAnswers)

/-- What is done about a job that ran too long. -/
inductive TimeViolationStrategy where
  | tsUnknown
  | tsIgnoreRuntimeViolation
  | tsWarnAboutRuntimeViolation
  | tsSkipOutputPublish
  | tsSetStmToError
  deriving DecidableEq

structure JobRuntimeCheck where
  name : String
  timeViolationStrategy : TimeViolationStrategy
  maxRuntime : Int
  cancelled : Bool
  skipOutput : Bool

/-- What the steps of the job return, how long it took, and the answer of the state machine if asked. -/
structure JobAnswers where
  executeDataIn : Result
  execute : Result
  executionTime : Int
  setParticipantToErrorState : Result
  executeDataOut : Result

/-- The check after a call, what the call returned, and the incidents it invoked. -/
structure JobReport where
  check : JobRuntimeCheck
  result : Result
  incidents : List Incident

namespace JobRuntimeCheck
variable (check : JobRuntimeCheck)

def new (name : String) (timeViolationStrategy : TimeViolationStrategy) (maxRuntime : Int) : JobRuntimeCheck :=
  ⟨name,timeViolationStrategy,maxRuntime,false,false⟩

def stepIncident (step : String) (result : Result) : List Incident :=
  if isFailed result then
    [⟨.fsiGeneralWarning,.warning,"Job " ++ check.name ++ ": Execution of data " ++ step ++
      " step failed for this processing cycle.","JobRuntimeCheck"⟩]
  else []

def runtimeIncident (code : IncidentCode) (severity : SeverityLevel)
    (processDuration : Int) (consequence : String) : Incident :=
  ⟨code,severity,"Job " ++ check.name ++ ": Computation time (" ++ toString processDuration ++
    " us) exceeded configured maximum runtime." ++ consequence,"JobRuntimeCheck"⟩

def applyTimeViolationStrategy (processDuration : Int)
    (setParticipantToErrorState : Result) : JobReport :=
  match check.timeViolationStrategy with
  | .tsIgnoreRuntimeViolation => ⟨check,.errNoError,[]⟩
  | .tsWarnAboutRuntimeViolation =>
    ⟨check,.errNoError,[check.runtimeIncident .fsiGeneralWarning .warning processDuration ""]⟩
  | .tsSkipOutputPublish =>
    ⟨{check with skipOutput := true},.errNoError,
      [check.runtimeIncident .fsiGeneralCritical .critical processDuration
        (" CAUTION: defined output in data writer queues will not be published " ++
          "during this processing cycle!")]⟩
  | .tsSetStmToError =>
    let incidents := [check.runtimeIncident .fsiGeneralCritical .critical processDuration
      " FATAL: changing state to FS_ERROR - continuation of simulation not possible!"]
    if isFailed setParticipantToErrorState then ⟨check,setParticipantToErrorState,incidents⟩
    else ⟨{check with cancelled := true, skipOutput := true},.errCancelled,incidents⟩
  | .tsUnknown => ⟨check,.errNoError,[]⟩

def publishing : JobRuntimeCheck := {check with skipOutput := false}

/-- The steps of the job; a strategy that fails ends the execution before its output. -/
def runJob (answers : JobAnswers) : JobReport :=
  if check.cancelled then ⟨check,.errCancelled,[]⟩
  else
    let incidents := check.stepIncident "input" answers.executeDataIn ++
      check.stepIncident "processing" answers.execute
    let violated := if 0 < check.maxRuntime ∧ check.maxRuntime < answers.executionTime then
        check.publishing.applyTimeViolationStrategy answers.executionTime answers.setParticipantToErrorState
      else ⟨check.publishing,.errNoError,[]⟩
    if isFailed violated.result then {violated with incidents := incidents ++ violated.incidents}
    else
      ⟨violated.check,answers.execute,incidents ++ violated.incidents ++
        if ¬violated.check.skipOutput then check.stepIncident "output" answers.executeDataOut else []⟩

/-- The job succeeds, and does not run too long where that is an error. -/
def Succeeds (answers : JobAnswers) : Prop :=
  check.cancelled = false ∧ answers.execute = .errNoError ∧
    ¬(0 < check.maxRuntime ∧ check.maxRuntime < answers.executionTime ∧
      check.timeViolationStrategy = .tsSetStmToError)

instance (check : JobRuntimeCheck) (answers : JobAnswers) : Decidable (check.Succeeds answers) :=
  inferInstanceAs (Decidable (_ ∧ _ ∧ ¬_))

private theorem applyTimeViolationStrategy_ok (check : JobRuntimeCheck) (processDuration : Int) (answer : Result) :
    (check.applyTimeViolationStrategy processDuration answer).result = .errNoError ↔
      check.timeViolationStrategy ≠ .tsSetStmToError := by
  unfold applyTimeViolationStrategy
  cases hstrategy : check.timeViolationStrategy with
  | tsSetStmToError =>
    dsimp only
    split
    · rename_i hfailed
      simpa using hfailed
    · simp
  | _ => simp

theorem runJob_ok_iff (check : JobRuntimeCheck) (answers : JobAnswers) :
    (check.runJob answers).result = .errNoError ↔ check.Succeeds answers := by
  unfold runJob Succeeds
  by_cases hcancelled : check.cancelled = true
  · simp [hcancelled]
  · rw [if_neg hcancelled]
    by_cases hlong : 0 < check.maxRuntime ∧ check.maxRuntime < answers.executionTime
    · have hstrategy := applyTimeViolationStrategy_ok check.publishing
        answers.executionTime answers.setParticipantToErrorState
      rw [if_pos hlong]
      by_cases herror : check.timeViolationStrategy = .tsSetStmToError
      · have hresult := hstrategy.not.mpr (not_not.mpr herror)
        simp [hlong,hresult,herror]
      · have hresult := hstrategy.mpr herror
        simp [hresult,herror,hcancelled]
    · have hshort : ¬(0 < check.maxRuntime ∧ check.maxRuntime < answers.executionTime ∧
          check.timeViolationStrategy = .tsSetStmToError) := fun h => hlong ⟨h.1,h.2.1⟩
      simp [hlong,hshort,hcancelled]

end JobRuntimeCheck

inductive JobCall where
  | executeDataIn (time : Int)
  | execute (time : Int)
  | executeDataOut (time : Int)
  deriving DecidableEq

/-- `fep::JobConfiguration` as far as a step configuration is made of it. -/
structure JobConfiguration where
  cycleSimTimeUs : Int
  maxRuntimeRealTimeUs : Int
  runtimeViolationStrategy : TimeViolationStrategy

/-- The `static_cast` between the two strategies, which have the same enumerators. -/
def castStrategy : TimeViolationStrategy → Timing.TimeViolationStrategy
  | .tsUnknown => .unknown
  | .tsIgnoreRuntimeViolation => .ignoreRuntimeViolation
  | .tsWarnAboutRuntimeViolation => .warnAboutRuntimeViolation
  | .tsSkipOutputPublish => .skipOutputPublish
  | .tsSetStmToError => .setStmToError

def convertToStepConfig (config : JobConfiguration) : StepConfig :=
  ⟨config.cycleSimTimeUs,config.maxRuntimeRealTimeUs,0,castStrategy config.runtimeViolationStrategy,[],[]⟩

/-- The callback of every step listener; what the job returns is dropped. -/
def forwardCallToJob (time : Int) : List JobCall := [.executeDataIn time,.execute time,.executeDataOut time]

/-- The step listener `LockedStepScheduler::initialize` registers for a job. -/
def lockedStepJob {S : Type} [CountingSemaphore S] (answers : HandleAnswers) (name uuid : String)
    (config : JobConfiguration) : Option (TaskThread S) :=
  TaskThread.registerStepListener answers name uuid (convertToStepConfig config)

/-- One execution of a job: its measured duration, the calls made, and whether the error event
was raised. -/
structure JobExecution where
  duration : Int
  calls : List JobCall
  errorEvent : Bool
  deriving DecidableEq

def lockedStepExecutions {S : Type} (thread : TaskThread S) : List JobExecution :=
  thread.completed.map fun execution =>
    ⟨execution.usedTime,forwardCallToJob execution.simTime,execution.effects.contains .errorEvent⟩

namespace JobRuntimeCheck

/-- The middle part of `runJob`: the runtime of the job is compared with its maximum. -/
def checkRuntime (check : JobRuntimeCheck) (answers : JobAnswers) : JobReport :=
  if 0 < check.maxRuntime ∧ check.maxRuntime < answers.executionTime then
    check.publishing.applyTimeViolationStrategy answers.executionTime answers.setParticipantToErrorState
  else ⟨check.publishing,.errNoError,[]⟩

/-- The output of an execution is left out. -/
def withholds (check : JobRuntimeCheck) (answers : JobAnswers) : Bool :=
  isFailed (check.checkRuntime answers).result || (check.checkRuntime answers).check.skipOutput

theorem runJob_check (check : JobRuntimeCheck) (answers : JobAnswers) : (check.runJob answers).check =
    if check.cancelled then check else (check.checkRuntime answers).check := by
  unfold runJob
  by_cases hcancelled : check.cancelled = true
  · simp only [hcancelled,if_true]
  · simp only [hcancelled,if_false,Bool.false_eq_true]
    change JobReport.check (if isFailed (check.checkRuntime answers).result then _ else _) = _
    split
    · rfl
    · rfl

/-- What `runJob` does with the job, unless it is cancelled. -/
def execution (check : JobRuntimeCheck) (triggerTime : Int) (answers : JobAnswers) : Option JobExecution :=
  if check.cancelled then none
  else some {
    duration := answers.executionTime
    calls := [.executeDataIn triggerTime,.execute triggerTime] ++
      if check.withholds answers then [] else [.executeDataOut triggerTime]
    errorEvent := decide (0 < check.maxRuntime ∧ check.maxRuntime < answers.executionTime ∧
      check.timeViolationStrategy = .tsSetStmToError) }

/-- The executions of a job under the clock based scheduler, trigger after trigger. -/
def executions (check : JobRuntimeCheck) : List (Int × JobAnswers) → List JobExecution
  | [] => []
  | (triggerTime,answers)::triggers =>
    (check.execution triggerTime answers).toList ++ (check.runJob answers).check.executions triggers

end JobRuntimeCheck
end FepParticipant.Scheduler
