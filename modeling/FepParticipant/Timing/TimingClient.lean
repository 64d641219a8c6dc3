import FepParticipant.Incident
import FepParticipant.Library.CountingSemaphore
import FepParticipant.Timing.ScheduleMap

/-! The timing client: its tasks, which it runs at the ticks of the master, and the two messages of the lock step. -/
namespace FepParticipant.Timing
open Library

structure TriggerTick where
  currentTime : Int
  simTimeStep : Int
  deriving DecidableEq

/-- The acknowledgement a task sends after its step. -/
structure TriggerAck where
  uuidStr : String
  operationalTime : Int
  currSimTime : Int

inductive TimeViolationStrategy where
  | unknown
  | ignoreRuntimeViolation
  | warnAboutRuntimeViolation
  | skipOutputPublish
  | setStmToError
  deriving DecidableEq

/-- A task; `working` is whether its worker thread holds the working mutex. -/
structure Task (S : Type) where
  name : String
  uuid : String
  cycle : Int
  timeViolationStrategy : TimeViolationStrategy
  barrier : S
  threadShutdownSemaphore : S
  currentSimulationTime : Int
  working : Bool

namespace Task
open CountingSemaphore

variable {S : Type} [CountingSemaphore S]

def runtimeViolation (severity : SeverityLevel) (description : String) : Effect :=
  .invokeIncident ⟨.fsiStepListenerRuntimeViolation,severity,description,"StepListener"⟩

def applyTriggerViolation (task : Task S) : Task S × List Effect :=
  match task.timeViolationStrategy with
  | .ignoreRuntimeViolation | .unknown => (task,[])
  | .warnAboutRuntimeViolation => (task,[runtimeViolation .warning
      (task.name ++ ": Received trigger before previous step was finished.")])
  | .skipOutputPublish => (task,[runtimeViolation .criticalGlobal
      (task.name ++ ": Received trigger before previous step was finished. CAUTION: " ++
        "defined outputs will not be published this step!"),.setSkip])
  | .setStmToError =>
    ({task with threadShutdownSemaphore := notify task.threadShutdownSemaphore},
      [runtimeViolation .criticalGlobal
        (task.name ++ ": Received trigger before previous step was finished. FATAL: " ++
          "changing state to FS_ERROR - continuation of simulation not possible!"),
        .setSkip,.errorEvent])

def fires (task : Task S) (timeProgressSum : Int) : Bool := timeProgressSum.tmod task.cycle == 0

def simTimeProgress (task : Task S) (timeProgressSum currSimTime : Int) : Task S × List Effect :=
  let timed := {task with currentSimulationTime := currSimTime}
  if task.fires timeProgressSum then
    let reacted := if task.working then timed.applyTriggerViolation else (timed,[])
    ({reacted.1 with barrier := notify reacted.1.barrier},reacted.2)
  else (timed,[])

/-- `Task::create` for a new run; the worker thread starts idle. -/
def create (task : Task S) : Task S :=
  { task with
    threadShutdownSemaphore := CountingSemaphore.reset task.threadShutdownSemaphore
    barrier := CountingSemaphore.reset task.barrier
    working := false }

private theorem applyTriggerViolation_fst (task : Task S) :
    ∃ semaphore, task.applyTriggerViolation.1 = {task with threadShutdownSemaphore := semaphore} := by
  unfold applyTriggerViolation
  split
  · exact ⟨task.threadShutdownSemaphore,rfl⟩
  · exact ⟨task.threadShutdownSemaphore,rfl⟩
  · exact ⟨task.threadShutdownSemaphore,rfl⟩
  · exact ⟨task.threadShutdownSemaphore,rfl⟩
  · exact ⟨notify task.threadShutdownSemaphore,rfl⟩

/-- A tick changes the simulation time and the semaphores of a task, and posts the barrier
exactly if it fires the task. -/
theorem simTimeProgress_fst (task : Task S) (sum time : Int) : ∃ semaphore,
    (task.simTimeProgress sum time).1 = { task with
      currentSimulationTime := time
      threadShutdownSemaphore := semaphore
      barrier := if task.fires sum then notify task.barrier else task.barrier } := by
  simp only [simTimeProgress]
  by_cases hfires : task.fires sum
  · by_cases hworking : task.working
    · obtain ⟨semaphore,hviolation⟩ := applyTriggerViolation_fst {task with currentSimulationTime := time}
      refine ⟨semaphore,?_⟩
      simp only [hfires,if_true]
      rw [if_pos hworking,hviolation]
    · exact ⟨task.threadShutdownSemaphore,by simp [hfires,hworking]⟩
  · exact ⟨task.threadShutdownSemaphore,by simp [hfires]⟩

end Task

structure TimingClient (S : Type) where
  taskMap : List (Task S)
  currentSimulationTime : Int
  timeProgressSum : Int
  lastTriggerReceived : Int
  triggerWaitTimerPeriod : Int
  triggerWaitTimerRunning : Bool
  timingClientRunningFlag : Bool

namespace TimingClient

variable {S : Type} [CountingSemaphore S]

def start (client : TimingClient S) : TimingClient S :=
  { client with
    currentSimulationTime := 0
    timeProgressSum := 0
    taskMap := client.taskMap.map Task.create
    triggerWaitTimerRunning := if client.triggerWaitTimerPeriod ≠ 0 then true else client.triggerWaitTimerRunning
    timingClientRunningFlag := true }

/-- The schedule list a client answers to the master's `GetScheduleCommand`. -/
def fillScheduleList (client : TimingClient S) : List ScheduleConfig :=
  client.taskMap.map fun task => ⟨task.uuid,task.cycle⟩

def triggerSkip : Incident where
  code := .fsiTimingClientTriggerSkip
  severity := .criticalGlobal
  description := "Timing Client received a trigger out of order! Fatal Error!"
  origin := "TimingClient"

/-- A tick whose step does not lead from the last simulation time to its own. -/
def outOfOrder (client : TimingClient S) (trigger : TriggerTick) : Bool :=
  decide (0 < client.currentSimulationTime) && !client.taskMap.isEmpty &&
    wrap64 (client.currentSimulationTime + trigger.simTimeStep) != trigger.currentTime

/-- `TimingClient::Update` for a tick. -/
def update (client : TimingClient S) (trigger : TriggerTick) : TimingClient S × List Effect :=
  let client := {client with lastTriggerReceived := 0}
  if client.outOfOrder trigger then (client,[.invokeIncident triggerSkip,.errorEvent])
  else
    let sum := wrap64 (client.timeProgressSum + trigger.simTimeStep)
    let progressed := client.taskMap.map (·.simTimeProgress sum trigger.currentTime)
    ({ client with
        currentSimulationTime := trigger.currentTime
        timeProgressSum := sum
        taskMap := progressed.map Prod.fst },progressed.flatMap Prod.snd)

def firedTasks (client : TimingClient S) : List String :=
  (client.taskMap.filter (·.fires client.timeProgressSum)).map (·.uuid)

variable {client : TimingClient S} {trigger : TriggerTick}

theorem update_of_inOrder (h : client.outOfOrder trigger = false) :
    (client.update trigger).1.currentSimulationTime = trigger.currentTime ∧
    (client.update trigger).1.timeProgressSum = wrap64 (client.timeProgressSum + trigger.simTimeStep) := by
  have h' : outOfOrder {client with lastTriggerReceived := 0} trigger = false := h
  simp [update,h']

theorem fillScheduleList_update : (client.update trigger).1.fillScheduleList = client.fillScheduleList := by
  simp only [update]
  split
  · rfl
  · simp only [fillScheduleList,List.map_map]
    refine List.map_congr_left fun task _ => ?_
    obtain ⟨semaphore,h⟩ := task.simTimeProgress_fst
      (wrap64 (client.timeProgressSum + trigger.simTimeStep)) trigger.currentTime
    simp only [Function.comp_apply,h]

omit [CountingSemaphore S] in
theorem mem_firedTasks {uuid : String} : uuid ∈ client.firedTasks ↔
    ∃ config ∈ client.fillScheduleList, config.stepUuid = uuid ∧ config.cycleTimeUs ∣ client.timeProgressSum := by
  simp only [firedTasks,fillScheduleList,Task.fires,List.mem_map,List.mem_filter,beq_iff_eq]
  constructor
  · rintro ⟨task,⟨hmem,hfires⟩,rfl⟩
    exact ⟨⟨task.uuid,task.cycle⟩,⟨task,hmem,rfl⟩,rfl,Int.dvd_of_tmod_eq_zero hfires⟩
  · rintro ⟨_,⟨task,hmem,rfl⟩,rfl,hdvd⟩
    exact ⟨task,⟨hmem,Int.tmod_eq_zero_of_dvd hdvd⟩,rfl⟩

end TimingClient
end FepParticipant.Timing
