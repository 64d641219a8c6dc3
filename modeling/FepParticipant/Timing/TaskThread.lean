import FepParticipant.Library.Reachability
import FepParticipant.Timing.StepDataAccess

/-! The threads of a task: its worker, which validates the inputs and calls the callback at every tick that fires it,
and the one that brings the ticks. -/
namespace FepParticipant.Timing
open DataAccess Library CountingSemaphore

/-- Where `Task::ThreadFunc` stands; the working mutex is held from `locked` to `computing`. -/
inductive TaskPosition where
  | loopHead
  | waiting
  | behindBarrier
  | locked
  | timeRead (simTimeForThisStep : Int)
  | validating (simTimeForThisStep : Int)
  | computing (simTimeForThisStep : Int)
  | acknowledging (simTimeForThisStep usedTime : Int)
  | finished
  deriving DecidableEq

/-- Where `Task::simTimeProgress` stands after it has written the time of a tick that fires. -/
inductive TickPosition where
  | idle
  | isTaskWorking (currSimTime : Int)
  | applyTriggerViolation (currSimTime : Int)
  | notifyBarrier (currSimTime : Int)
  deriving DecidableEq

/-- How far `Task::destroy` has come since the last `Task::create`. -/
inductive TaskLifetime where
  | destroyed
  | created
  | shutdownNotified
  | barrierNotified
  deriving DecidableEq

/-- A finished execution of the callback: its measured time and what followed from it. -/
structure TaskExecution where
  simTime : Int
  usedTime : Int
  effects : List Effect

/-- A task with its threads, and of the current run: the times of the ticks that fired it, those of its calls, the
calls that returned, and each acknowledgement with its call's number. -/
structure TaskThread (S : Type) where
  task : Task S
  operational : Int
  dataAccess : StepDataAccess
  lifetime : TaskLifetime
  worker : TaskPosition
  tick : TickPosition
  fired : List Int
  executed : List Int
  completed : List TaskExecution
  acknowledged : List (Nat × TriggerAck)

/-- What the rest of the participant answers to a step of the worker thread. -/
structure ThreadAnswers where
  wait : StepDataAccess.Wait
  usedTime : Int
  transmitData : Result

inductive TaskAction where
  | create
  | destroy
  | simTimeProgress (timeProgressSum currSimTime : Int)
  | tickHandler
  | threadFunc (answers : ThreadAnswers)

namespace Task

variable {S : Type} [CountingSemaphore S]

def applyTimeViolationStrat (task : Task S) : Task S × Result × List Effect :=
  match task.timeViolationStrategy with
  | .ignoreRuntimeViolation | .unknown => (task,.errNoError,[])
  | .warnAboutRuntimeViolation => (task,.errNoError,[runtimeViolation .warning
      ("Step Listener \"" ++ task.name ++ "\" computation time exceeded configured maximum runtime.")])
  | .skipOutputPublish => (task,.errNoError,[runtimeViolation .criticalGlobal
      ("Step Listener \"" ++ task.name ++ "\" computation time exceeded configured maximum runtime. " ++
        "CAUTION: defined outputs will not be published this step!"),.setSkip])
  | .setStmToError =>
    ({task with threadShutdownSemaphore := notify task.threadShutdownSemaphore},.errCancelled,
      [runtimeViolation .criticalGlobal
        ("Step Listener \"" ++ task.name ++ "\" computation time exceeded configured maximum runtime. " ++
          "FATAL: changing state to FS_ERROR - continuation of simulation not possible!"),
        .setSkip,.errorEvent])

/-- The acknowledgement of a step, handed to `TransmitData` if the uuid has its 36 bytes. -/
def acknowledgement (task : Task S) (usedTime simTimeForThisStep : Int) : Option TriggerAck :=
  if task.uuid.utf8ByteSize ≠ 36 then none else some ⟨task.uuid,usedTime,simTimeForThisStep⟩

end Task

namespace TaskThread

variable {S : Type} [CountingSemaphore S]
variable (thread : TaskThread S)

def new (task : Task S) (operational : Int) (dataAccess : StepDataAccess) : TaskThread S where
  task := task
  operational := operational
  dataAccess := dataAccess
  lifetime := .destroyed
  worker := .finished
  tick := .idle
  fired := []
  executed := []
  completed := []
  acknowledged := []

def shutdown : Bool := isSet thread.task.threadShutdownSemaphore

/-- `Task::create` starts a worker thread, and with it a run. -/
def create (thread : TaskThread S) : Option (TaskThread S) :=
  if thread.lifetime = .destroyed then
    some { thread with
      task := thread.task.create, lifetime := .created, worker := .loopHead
      fired := [], executed := [], completed := [], acknowledged := [] }
  else none

/-- The steps of `Task::destroy`: both semaphores are notified, then the thread is joined. -/
def destroy : Option (TaskThread S) :=
  match thread.lifetime with
  | .destroyed => none
  | .created => some { thread with
      task := { thread.task with
        threadShutdownSemaphore := notify thread.task.threadShutdownSemaphore }
      lifetime := .shutdownNotified }
  | .shutdownNotified => some { thread with
      task := {thread.task with barrier := notify thread.task.barrier}
      lifetime := .barrierNotified }
  | .barrierNotified => if thread.worker = .finished then some {thread with lifetime := .destroyed} else none

/-- A tick writes the simulation time; the remainder by a cycle time of zero is undefined. -/
def simTimeProgress (timeProgressSum currSimTime : Int) : Option (TaskThread S) :=
  if thread.tick = .idle ∧ thread.task.cycle ≠ 0 then
    some { thread with
      task := {thread.task with currentSimulationTime := currSimTime}
      tick := if thread.task.fires timeProgressSum then .isTaskWorking currSimTime else .idle }
  else none

/-- What `SetSkip` leaves of the effects in the data access. -/
def skipFor (access : StepDataAccess) (effects : List Effect) : StepDataAccess :=
  if .setSkip ∈ effects then access.setSkip else access

/-- The rest of `simTimeProgress` for a tick that fires. -/
def tickHandler : Option (TaskThread S) :=
  match thread.tick with
  | .idle => none
  | .isTaskWorking time => some { thread with
      tick := if thread.task.working then .applyTriggerViolation time else .notifyBarrier time }
  | .applyTriggerViolation time => some { thread with
      task := thread.task.applyTriggerViolation.1
      dataAccess := skipFor thread.dataAccess thread.task.applyTriggerViolation.2
      tick := .notifyBarrier time }
  | .notifyBarrier time => some { thread with
      task := {thread.task with barrier := notify thread.task.barrier}
      tick := .idle
      fired := thread.fired ++ [time] }

def moveTo (position : TaskPosition) : TaskThread S := {thread with worker := position}

/-- The guard of the working mutex is released. -/
def unlockTo (position : TaskPosition) : TaskThread S :=
  {thread with task := {thread.task with working := false}, worker := position}

/-- `ValidateInputs`; only the shutdown semaphore cancels a wait. -/
def validate (simTime : Int) (wait : StepDataAccess.Wait) :
    Option (TaskThread S) :=
  if thread.dataAccess.waitCancelled simTime wait && !thread.shutdown then none
  else
    let validated := {thread with dataAccess := (thread.dataAccess.validateInputs simTime wait).1}
    if isOk (thread.dataAccess.validateInputs simTime wait).2.1 then
      some {validated with worker := .computing simTime, executed := thread.executed ++ [simTime]}
    else some (validated.unlockTo .loopHead)

/-- What follows the callback: the check of its runtime, and the release of the mutex. -/
def finish (simTime usedTime : Int) : TaskThread S :=
  let (task,result,effects) :=
    if thread.operational ≠ 0 ∧ thread.operational < usedTime then thread.task.applyTimeViolationStrat
    else (thread.task,.errNoError,[])
  { thread with
    task := {task with working := false}
    dataAccess := skipFor thread.dataAccess effects
    worker := if isOk result then .acknowledging simTime usedTime else .loopHead
    completed := thread.completed ++ [⟨simTime,usedTime,effects⟩] }

/-- `Task::sendAcknowledgement` for the last execution; a failure is an incident only. -/
def sendAcknowledgement (simTime usedTime : Int) : TaskThread S :=
  match thread.task.acknowledgement usedTime simTime with
  | none => thread.moveTo .loopHead
  | some ack => { thread with
      worker := .loopHead
      acknowledged := thread.acknowledged ++ [(thread.executed.length - 1,ack)] }

/-- One step of `Task::ThreadFunc`. -/
def threadFunc (answers : ThreadAnswers) : Option (TaskThread S) :=
  match thread.worker with
  | .loopHead => some (thread.moveTo (if thread.shutdown then .finished else .waiting))
  | .waiting => (tryWait thread.task.barrier).map fun barrier =>
      {thread with task := {thread.task with barrier := barrier}, worker := .behindBarrier}
  | .behindBarrier => some {thread with task := {thread.task with working := true}, worker := .locked}
  | .locked => some (thread.moveTo (.timeRead thread.task.currentSimulationTime))
  | .timeRead time => some (if thread.shutdown then thread.unlockTo .loopHead else thread.moveTo (.validating time))
  | .validating time => thread.validate time answers.wait
  | .computing time => some (thread.finish time answers.usedTime)
  | .acknowledging time usedTime => some (thread.sendAcknowledgement time usedTime)
  | .finished => none

def step : TaskAction → Option (TaskThread S)
  | .create => thread.create
  | .destroy => thread.destroy
  | .simTimeProgress sum time => thread.simTimeProgress sum time
  | .tickHandler => thread.tickHandler
  | .threadFunc answers => thread.threadFunc answers

/-- `Task::configure`. -/
def configure (answers : HandleAnswers) (thread : TaskThread S) (config : StepConfig) :
    TaskThread S × Result :=
  if config.cycleTimeSimUs ≤ 0 ∨ config.maxInputWaittimeUs < 0 ∨ config.maxRuntimeUs < 0 ∨
      config.runtimeViolationStrategy = .unknown then (thread,.errInvalidArg)
  else
    let cleared := {thread.dataAccess with cycle := config.cycleTimeSimUs, inputs := [], outputs := []}
    let inputs := configureEach (fun access entry => configureInput answers access entry.1 entry.2)
      cleared config.inputs
    let outputs := if isFailed inputs.2 then inputs
      else configureEach (fun access entry => configureOutput answers access entry.2) inputs.1 config.outputs
    ({ thread with
        task := { thread.task with
          cycle := config.cycleTimeSimUs
          timeViolationStrategy := config.runtimeViolationStrategy }
        operational := config.maxRuntimeUs
        dataAccess := outputs.1 },outputs.2)

/-- The task `RegisterStepListener` creates, if its configuration is accepted. -/
def registerStepListener (answers : HandleAnswers) (name uuid : String) (config : StepConfig) :
    Option (TaskThread S) :=
  let task : Task S := ⟨name,uuid,0,.unknown,CountingSemaphore.fresh,CountingSemaphore.fresh,0,false⟩
  let configured := configure answers (new task 0 .new) config
  if isOk configured.2 then some configured.1 else none

end TaskThread
end FepParticipant.Timing
