import FepParticipant.Scheduler.SchedulerService
import FepParticipant.Timing.TimingMaster

/-! The set-up of the locked step scheduler with its timing client and timing master, the set-up of the
external step trigger, and what is left behind where a step of them fails. -/
namespace FepParticipant.Timing
open Library

/-- What the task of a step listener calls. -/
inductive ScheduleFunc where
  | forwardCallToJob
  | user (callback : Nat)
  deriving DecidableEq

/-- An entry of the task map. -/
structure StepListener (S : Type) where
  task : Task S
  callback : ScheduleFunc
  callee : Nat

structure ListeningClient (S : Type) where
  taskMap : List (StepListener S)
  currentSimulationTime : Int
  timeProgressSum : Int
  triggerWaitTimerPeriod : Int
  triggerWaitTimerRunning : Bool
  timingClientRunningFlag : Bool
  systemTimeout : Int
  masterName : String

/-- What `configure` is answered: the outcome for the configuration file (no error without one), the properties, and
the results for the two signals and the data listener. -/
structure ClientAnswers where
  configurationFile : Result
  systemTimeout : Option Int
  masterName : Option String
  registerAckSignal : Result
  registerTickSignal : Result
  registerDataListener : Result

namespace ListeningClient

variable {S : Type} [CountingSemaphore S]
variable (client : ListeningClient S)

def new : ListeningClient S := ⟨[],0,0,0,false,false,0,""⟩

def names : List String := client.taskMap.map (·.task.name)

def newTask (name uuid : String) : TaskThread S :=
  .new ⟨name,uuid,0,.unknown,CountingSemaphore.fresh,CountingSemaphore.fresh,0,false⟩ 0 .new

/-- `RegisterStepListener`; neither the callback nor the callee is a null pointer. -/
def registerStepListener (answers : HandleAnswers) (name uuid : String)
    (config : StepConfig) (callback : ScheduleFunc) (callee : Nat) : ListeningClient S × Result :=
  if client.timingClientRunningFlag then (client,.errInvalidState)
  else if name ∈ client.names then (client,.errResourceInUse)
  else
    let (thread,result) := (newTask name uuid).configure answers config
    if isOk result then ({client with taskMap := client.taskMap ++ [⟨thread.task,callback,callee⟩]},result)
    else (client,result)

def unregisterStepListener (name : String) : ListeningClient S × Result :=
  if client.timingClientRunningFlag then (client,.errInvalidState)
  else if name ∈ client.names then
    ({client with taskMap := client.taskMap.filter (·.task.name ≠ name)},.errNoError)
  else (client,.errNotFound)

def watchTriggers : ListeningClient S :=
  if client.taskMap.isEmpty then client
  else {client with triggerWaitTimerPeriod := if 0 < client.systemTimeout then watchdogPeriod else 0}

def configure (answers : ClientAnswers) : ListeningClient S × Result :=
  if isFailed answers.configurationFile then (client,answers.configurationFile)
  else
    let client := { client with
      systemTimeout := match answers.systemTimeout with
        | some systemTimeout => wrap32 (wrap32 (systemTimeout * 1000) * 1000)
        | none => client.systemTimeout
      masterName := answers.masterName.getD client.masterName }
    -- no timing master configured
    if !client.taskMap.isEmpty && client.masterName == "" then (client,.errUnexpected)
    else if isFailed answers.registerAckSignal || isFailed answers.registerTickSignal ||
        isFailed answers.registerDataListener then (client.watchTriggers,.errUnexpected)
    else (client.watchTriggers,.errNoError)

/-- `TimingClient::reset`, apart from the signals. -/
def reset : ListeningClient S :=
  if client.taskMap.isEmpty then client else {client with triggerWaitTimerPeriod := 0}

def start : ListeningClient S × Result :=
  ({ client with
      currentSimulationTime := 0
      timeProgressSum := 0
      taskMap := client.taskMap.map fun listener => {listener with task := listener.task.create}
      triggerWaitTimerRunning := if client.triggerWaitTimerPeriod ≠ 0 then true else client.triggerWaitTimerRunning
      timingClientRunningFlag := true },.errNoError)

end ListeningClient
end FepParticipant.Timing
namespace FepParticipant.Scheduler
open Library List
open Timing (ListeningClient TimingMaster StepListener HandleAnswers ClientAnswers MasterProperties
  StartContext TaskThread ScheduleMap)

structure LockedStepScheduler (S : Type) where
  jobs : List ListedJob
  timingClient : ListeningClient S
  timingMaster : TimingMaster S

/-- What `initialize` is answered by all that it calls. -/
structure InitializeAnswers where
  handles : HandleAnswers
  uuid : String → String
  client : ClientAnswers
  master : MasterProperties
  userStepTrigger : Bool
  transmission : Result

namespace LockedStepScheduler

variable {S : Type} [CountingSemaphore S]

def new : LockedStepScheduler S := ⟨[],.new,.new⟩

/-- `rollback` does not look at the results. -/
def rollback (scheduler : LockedStepScheduler S) : LockedStepScheduler S :=
  { scheduler with
    timingClient := scheduler.jobs.foldl (fun client job => (client.unregisterStepListener job.name).1)
      scheduler.timingClient
    jobs := [] }

/-- The loop of `initialize` over the jobs. -/
def registerJobs (answers : InitializeAnswers) :
    LockedStepScheduler S → List ListedJob → LockedStepScheduler S × Result
  | scheduler, [] => (scheduler,.errNoError)
  | scheduler, job::jobs =>
    let (client,result) := scheduler.timingClient.registerStepListener answers.handles job.name
      (answers.uuid job.name) (convertToStepConfig job.config) .forwardCallToJob job.address
    if isOk result then
      registerJobs answers {scheduler with timingClient := client, jobs := scheduler.jobs ++ [job]} jobs
    else (scheduler.rollback,result)

/-- `LockedStepScheduler::initialize` for the jobs of the service; no result where the master reads a name that was
never set. -/
def initializeScheduler (scheduler : LockedStepScheduler S) (jobs : List ListedJob) (answers : InitializeAnswers) :
    Option (LockedStepScheduler S × Result) :=
  let (scheduler,result) := scheduler.registerJobs answers jobs
  if isFailed result then some (scheduler,result)
  else
    let (client,result) := scheduler.timingClient.configure answers.client
    if isFailed result then some ({scheduler with timingClient := client.reset},result)
    else
      (scheduler.timingMaster.configure answers.master answers.userStepTrigger answers.transmission).map
        fun (master,result,_) =>
          if isFailed result then
            ({scheduler with timingClient := client.reset, timingMaster := master.reset},result)
          else ({scheduler with timingClient := client, timingMaster := master},result)

def start (scheduler : LockedStepScheduler S) (context : StartContext) :
    Option (LockedStepScheduler S × Result) :=
  let (client,result) := scheduler.timingClient.start
  let scheduler := {scheduler with timingClient := client}
  if isOk result then
    (scheduler.timingMaster.start context).map fun (master,result,_) =>
      ({scheduler with timingMaster := master},result)
  else some (scheduler,result)

/-- `LockedStepScheduler::deinitialize`. -/
def deinitializeScheduler (scheduler : LockedStepScheduler S) : LockedStepScheduler S :=
  { scheduler with
    timingMaster := scheduler.timingMaster.reset
    timingClient := scheduler.timingClient.reset }.rollback

def isOf (jobs : List ListedJob) (listener : StepListener S) : Bool :=
  listener.callback == .forwardCallToJob && jobs.any (·.address == listener.callee)

def without (scheduler : LockedStepScheduler S) (jobs : List ListedJob) : LockedStepScheduler S :=
  { scheduler with
    jobs := []
    timingClient := { scheduler.timingClient with
      taskMap := scheduler.timingClient.taskMap.filter fun listener => !isOf jobs listener } }

/-- The job list is empty, no step listener of the jobs is registered, and setting up the same jobs is like the
first time. -/
structure NothingLeft (jobs : List ListedJob) (scheduler : LockedStepScheduler S) : Prop where
  jobs_nil : scheduler.jobs = []
  unregistered : ∀ listener ∈ scheduler.timingClient.taskMap, isOf jobs listener = false
  again : ∀ answers,
    scheduler.initializeScheduler jobs answers = (scheduler.without jobs).initializeScheduler jobs answers

def SetUpUndone (scheduler : LockedStepScheduler S) (jobs : List ListedJob) (answers : InitializeAnswers) : Prop :=
  ∀ after result, scheduler.initializeScheduler jobs answers = some (after,result) → isFailed result = true →
    NothingLeft jobs after

/-- A start that fails leaves neither the timing client nor the timing master started. -/
def StartUndone (scheduler : LockedStepScheduler S) (context : StartContext) : Prop :=
  ∀ after result, scheduler.start context = some (after,result) → isFailed result = true →
    after.timingClient.timingClientRunningFlag = false ∧ after.timingMaster.workerThread = none

/-- `Task::configure` accepts the configuration of the job. -/
def Accepted (job : ListedJob) : Prop :=
  0 < job.config.cycleSimTimeUs ∧ 0 ≤ job.config.maxRuntimeRealTimeUs ∧
    job.config.runtimeViolationStrategy ≠ .tsUnknown

def Registrable (scheduler : LockedStepScheduler S) (jobs : List ListedJob) : Prop :=
  jobs = [] ∨ scheduler.timingClient.timingClientRunningFlag = false ∧ (jobs.map ListedJob.name).Nodup ∧
    ∀ job ∈ jobs, job.name ∉ scheduler.timingClient.names ∧ Accepted job

def Configurable (scheduler : LockedStepScheduler S) (jobs : List ListedJob) (answers : InitializeAnswers) : Prop :=
  (answers.client.configurationFile = .errNoError ∧
    ((scheduler.timingClient.taskMap = [] ∧ jobs = []) ∨
      answers.client.masterName.getD scheduler.timingClient.masterName ≠ "") ∧
    answers.client.registerAckSignal = .errNoError ∧ answers.client.registerTickSignal = .errNoError ∧
    answers.client.registerDataListener = .errNoError) ∧
  ∀ configured ∈ scheduler.timingMaster.configure answers.master answers.userStepTrigger answers.transmission,
    configured.2.1 = .errNoError

/-- No step after the registration of the jobs fails, or there are none. Where the registration fails, any earlier
listener of the jobs can be taken away: the client does not run and its job is in the list. -/
def FailsCleanly (scheduler : LockedStepScheduler S) (jobs : List ListedJob) (answers : InitializeAnswers) : Prop :=
  (scheduler.Registrable jobs → scheduler.Configurable jobs answers ∨ (scheduler.jobs = [] ∧ jobs = [])) ∧
  (¬scheduler.Registrable jobs → ∀ listener ∈ scheduler.timingClient.taskMap, isOf jobs listener = true →
    scheduler.timingClient.timingClientRunningFlag = false ∧ listener.task.name ∈ scheduler.jobs.map ListedJob.name)

/-- The schedules fit into the schedule map, and the strategy takes the master as its listener. -/
def MasterStarts (master : TimingMaster S) (context : StartContext) : Prop :=
  master.isTimingMasterFlag = true → ∀ configs ∈ master.startConfigs context,
    ∀ configured ∈ ScheduleMap.configure context.maxScheduleSize master.scheduleMap.reset configs,
      configured.2 = true ∧ ∀ strategy ∈ master.stepTriggerStrategy,
        (strategy.registerStrategyTrigger configured.1.getCycleTime context.userRegisterTrigger).2 = .errNoError

end LockedStepScheduler

/-- The pointers and the handle of a `cExternalStepTriggerStrategy`, its signal as registered at the transmission
adapter and itself as registered at the data access. -/
structure ExternalTriggerSetUp where
  dataAccessPrivate : Bool
  transmissionAdapterPrivate : Bool
  stepTriggerInputSignalHandle : Option Nat
  signals : List Nat
  dataListeners : List Nat

/-- The results of the calls of `initialize`, and the handle of a signal that could be registered. -/
structure ExternalTriggerAnswers where
  registerSignal : Result
  handle : Nat
  registerDataListener : Result

namespace ExternalTriggerSetUp

def new : ExternalTriggerSetUp := ⟨false,false,none,[],[]⟩

/-- `cExternalStepTriggerStrategy::initialize` with what it is given: whether either pointer is set. -/
def initializeTrigger (strategy : ExternalTriggerSetUp) (dataAccessPrivate transmissionAdapterPrivate : Bool)
    (answers : ExternalTriggerAnswers) : ExternalTriggerSetUp × Result :=
  if !transmissionAdapterPrivate || !dataAccessPrivate then (strategy,.errInvalidArg)
  else
    let strategy := {strategy with dataAccessPrivate := true, transmissionAdapterPrivate := true}
    if isFailed answers.registerSignal then (strategy,answers.registerSignal)
    else
      let strategy := { strategy with
        stepTriggerInputSignalHandle := some answers.handle
        signals := strategy.signals ++ [answers.handle] }
      if isFailed answers.registerDataListener then (strategy,answers.registerDataListener)
      else ({strategy with dataListeners := strategy.dataListeners ++ [answers.handle]},.errNoError)

/-- `UnregisterDataListener` and `UnregisterSignal` of the handle are given their results. -/
def reset (strategy : ExternalTriggerSetUp) (unregisterDataListener unregisterSignal : Result) :
    ExternalTriggerSetUp × Result :=
  let cleared (strategy : ExternalTriggerSetUp) : ExternalTriggerSetUp :=
    {strategy with transmissionAdapterPrivate := false, dataAccessPrivate := false}
  -- the guard as it is written
  if !strategy.transmissionAdapterPrivate || strategy.dataAccessPrivate then (cleared strategy,.errInvalidArg)
  else if isFailed unregisterDataListener then (cleared strategy,unregisterDataListener)
  else
    let strategy := { strategy with
      dataListeners := strategy.dataListeners.filter (some · ≠ strategy.stepTriggerInputSignalHandle) }
    if isFailed unregisterSignal then (cleared strategy,unregisterSignal)
    else (cleared { strategy with
      signals := strategy.signals.filter (some · ≠ strategy.stepTriggerInputSignalHandle) },.errNoError)

/-- After a failed set-up, or one that is undone by `reset`, neither the data listener nor the signal is left. -/
def Undone (dataAccessPrivate transmissionAdapterPrivate : Bool) (answers : ExternalTriggerAnswers)
    (unregisterDataListener unregisterSignal : Result) : Prop :=
  let setUp := new.initializeTrigger dataAccessPrivate transmissionAdapterPrivate answers
  let after := if isFailed setUp.2 then setUp.1 else (setUp.1.reset unregisterDataListener unregisterSignal).1
  after.signals = [] ∧ after.dataListeners = []

end ExternalTriggerSetUp

namespace LockedStepScheduler

variable {S : Type} [CountingSemaphore S]

section Registration

variable {scheduler after : LockedStepScheduler S} {jobs : List ListedJob} {job : ListedJob}
  {answers : InitializeAnswers} {result : Result}
variable {client : ListeningClient S}

private theorem configure_job (handles : HandleAnswers) (uuid : String) (job : ListedJob) :
    (isOk ((ListeningClient.newTask (S := S) job.name uuid).configure handles
        (convertToStepConfig job.config)).2 = true ↔ Accepted job) ∧
    ((ListeningClient.newTask (S := S) job.name uuid).configure handles (convertToStepConfig job.config)).1.task.name =
      job.name := by
  have hstrategy : castStrategy job.config.runtimeViolationStrategy = .unknown ↔
      job.config.runtimeViolationStrategy = .tsUnknown := by
    cases job.config.runtimeViolationStrategy <;> simp [castStrategy]
  have haccepted : ¬((convertToStepConfig job.config).cycleTimeSimUs ≤ 0 ∨
      (convertToStepConfig job.config).maxInputWaittimeUs < 0 ∨ (convertToStepConfig job.config).maxRuntimeUs < 0 ∨
      (convertToStepConfig job.config).runtimeViolationStrategy = .unknown) ↔ Accepted job := by
    simp [convertToStepConfig,Accepted,hstrategy,not_or]
  unfold TaskThread.configure
  split
  · rename_i hrefused
    exact ⟨iff_of_false (by simp) fun haccept => haccepted.mpr haccept hrefused,rfl⟩
  · rename_i hnot
    exact ⟨iff_of_true rfl (haccepted.mp hnot),rfl⟩

theorem registerStepListener_cases (client : ListeningClient S) (handles : HandleAnswers) (uuid : String)
    (job : ListedJob) : (client.timingClientRunningFlag = false ∧ job.name ∉ client.names ∧ Accepted job ∧
      ∃ listener : StepListener S, listener.task.name = job.name ∧
        client.registerStepListener handles job.name uuid (convertToStepConfig job.config) .forwardCallToJob
          job.address = ({client with taskMap := client.taskMap ++ [listener]},.errNoError)) ∨
    (¬(client.timingClientRunningFlag = false ∧ job.name ∉ client.names ∧ Accepted job) ∧
      ∃ result, result ≠ .errNoError ∧
        client.registerStepListener handles job.name uuid (convertToStepConfig job.config) .forwardCallToJob
          job.address = (client,result)) := by
  obtain ⟨hok,hname⟩ := configure_job (S := S) handles uuid job
  unfold ListeningClient.registerStepListener
  by_cases hrunning : client.timingClientRunningFlag = true
  · exact .inr ⟨by simp [hrunning],.errInvalidState,by simp,by simp [hrunning]⟩
  rw [if_neg hrunning]
  by_cases hknown : job.name ∈ client.names
  · exact .inr ⟨by simp [hknown],.errResourceInUse,by simp,by simp [hknown]⟩
  rw [if_neg hknown]
  by_cases haccept : Accepted job
  · have hresult := hok.mpr haccept
    refine .inl ⟨by simpa using hrunning,hknown,haccept,⟨_,.forwardCallToJob,job.address⟩,hname,?_⟩
    dsimp only
    rw [if_pos hresult,(isOk_iff _).mp hresult]
  · have hresult := mt hok.mp haccept
    refine .inr ⟨fun hall => haccept hall.2.2,_,fun hnone => hresult ((isOk_iff _).mpr hnone),?_⟩
    dsimp only
    rw [if_neg hresult]

omit [CountingSemaphore S] in
theorem registrable_registered_iff (hrunning : scheduler.timingClient.timingClientRunningFlag = false)
    (hnew : job.name ∉ scheduler.timingClient.names) (haccept : Accepted job) {listener : StepListener S}
    (hname : listener.task.name = job.name) : Registrable { scheduler with
      timingClient := {scheduler.timingClient with taskMap := scheduler.timingClient.taskMap ++ [listener]}
      jobs := scheduler.jobs ++ [job] } jobs ↔ scheduler.Registrable (job::jobs) := by
  have hnames (name : String) : name ∈ (scheduler.timingClient.taskMap ++ [listener]).map (·.task.name) ↔
      name ∈ scheduler.timingClient.names ∨ name = job.name := by
    rw [map_append,mem_append,map_singleton,mem_singleton,hname]
    rfl
  constructor
  · rintro (rfl | ⟨-,hnodup,hall⟩)
    · exact .inr ⟨hrunning,nodup_singleton _,forall_mem_singleton.mpr ⟨hnew,haccept⟩⟩
    · have hapart (other : ListedJob) (hother : other ∈ jobs) :
          other.name ∉ scheduler.timingClient.names ∧ other.name ≠ job.name :=
        not_or.mp ((hnames other.name).not.mp (hall other hother).1)
      refine .inr ⟨hrunning,nodup_cons.mpr ⟨fun hmem => ?_,hnodup⟩,forall_mem_cons.mpr ⟨⟨hnew,haccept⟩,
        fun other hother => ⟨(hapart other hother).1,(hall other hother).2⟩⟩⟩
      obtain ⟨other,hother,hsame⟩ := mem_map.mp hmem
      exact (hapart other hother).2 hsame
  · intro h
    obtain ⟨-,hnodup,hall⟩ := h.resolve_left (cons_ne_nil _ _)
    obtain ⟨hfresh,hnodup⟩ := nodup_cons.mp hnodup
    refine .inr ⟨hrunning,hnodup,fun other hother => ?_⟩
    obtain ⟨hold,haccepted⟩ := hall other (mem_cons_of_mem _ hother)
    refine ⟨(hnames other.name).not.mpr (not_or.mpr ⟨hold,fun hsame => hfresh ?_⟩),haccepted⟩
    exact mem_map.mpr ⟨other,hother,hsame⟩

theorem registerJobs_of_registrable (h : scheduler.Registrable jobs) :
    ∃ listeners : List (StepListener S), (listeners = [] ↔ jobs = []) ∧
      (∀ listener ∈ listeners, listener.task.name ∈ jobs.map ListedJob.name) ∧
      scheduler.registerJobs answers jobs = ({ scheduler with
        jobs := scheduler.jobs ++ jobs
        timingClient := { scheduler.timingClient with
          taskMap := scheduler.timingClient.taskMap ++ listeners } },.errNoError) := by
  induction jobs generalizing scheduler with
  | nil => exact ⟨[],by simp,by simp,by simp [registerJobs]⟩
  | cons job jobs ih =>
    obtain ⟨hrunning,-,hall⟩ := h.resolve_left (cons_ne_nil _ _)
    obtain ⟨hnew,haccept⟩ := hall job (mem_cons_self ..)
    obtain ⟨-,-,-,listener,hname,hregister⟩ | ⟨hrefused,-⟩ :=
      registerStepListener_cases scheduler.timingClient answers.handles (answers.uuid job.name) job
    · rw [registerJobs,hregister]
      dsimp only
      rw [if_pos ((isOk_iff _).mpr rfl)]
      obtain ⟨listeners,-,hnames,hregistered⟩ := ih ((registrable_registered_iff hrunning hnew haccept hname).mpr h)
      refine ⟨listener::listeners,by simp,?_,?_⟩
      · rw [map_cons,forall_mem_cons,hname]
        exact ⟨mem_cons_self ..,fun other hother => mem_cons_of_mem _ (hnames other hother)⟩
      · rw [hregistered]
        simp only [append_assoc,singleton_append]
    · exact absurd ⟨hrunning,hnew,haccept⟩ hrefused

section
omit [CountingSemaphore S]

private theorem unregisterStepListener_stopped (h : client.timingClientRunningFlag = false)
    (name : String) : (client.unregisterStepListener name).1 =
      {client with taskMap := client.taskMap.filter (·.task.name ≠ name)} := by
  unfold ListeningClient.unregisterStepListener
  rw [if_neg (by simp [h])]
  split
  · rfl
  · rename_i hunknown
    rw [filter_eq_self.mpr]
    intro listener hlistener
    exact decide_eq_true fun hsame => hunknown (mem_map.mpr ⟨listener,hlistener,hsame⟩)

theorem unregisterAll_taskMap (client : ListeningClient S) :
    jobs.foldl (fun client job => (client.unregisterStepListener job.name).1) client = { client with
      taskMap := client.taskMap.filter fun listener =>
        client.timingClientRunningFlag || decide (listener.task.name ∉ jobs.map ListedJob.name) } := by
  induction jobs generalizing client with
  | nil => simp
  | cons job jobs ih =>
    rw [foldl_cons,ih]
    by_cases hrunning : client.timingClientRunningFlag = true
    · simp [ListeningClient.unregisterStepListener,hrunning]
    · have hstopped : client.timingClientRunningFlag = false := by simpa using hrunning
      rw [unregisterStepListener_stopped hstopped]
      simp only [hstopped,Bool.false_or,filter_filter]
      congr 1
      refine filter_congr fun listener _ => ?_
      rw [Bool.eq_iff_iff]
      simp [and_comm]

end

/-- The scheduler once a job was refused: the job list is empty, and the step listeners of the jobs in it are gone
unless the client runs. -/
def afterRefusal (scheduler : LockedStepScheduler S) : LockedStepScheduler S :=
  { scheduler with
    jobs := []
    timingClient := { scheduler.timingClient with
      taskMap := scheduler.timingClient.taskMap.filter fun listener =>
        scheduler.timingClient.timingClientRunningFlag ||
          decide (listener.task.name ∉ scheduler.jobs.map ListedJob.name) } }

theorem registerJobs_of_not_registrable (h : ¬scheduler.Registrable jobs) :
    ∃ result, result ≠ .errNoError ∧ scheduler.registerJobs answers jobs = (scheduler.afterRefusal,result) := by
  induction jobs generalizing scheduler with
  | nil => exact absurd (.inl rfl) h
  | cons job jobs ih =>
    obtain ⟨hrunning,hnew,haccept,listener,hname,hregister⟩ | ⟨-,result,hresult,hregister⟩ :=
      registerStepListener_cases scheduler.timingClient answers.handles (answers.uuid job.name) job
    · obtain ⟨result,hresult,hregistered⟩ :=
        ih fun hrest => h ((registrable_registered_iff hrunning hnew haccept hname).mp hrest)
      refine ⟨result,hresult,?_⟩
      rw [registerJobs,hregister]
      dsimp only
      rw [if_pos ((isOk_iff _).mpr rfl),hregistered]
      have hkept : (scheduler.timingClient.taskMap ++ [listener]).filter (fun listener =>
            decide (listener.task.name ∉ (scheduler.jobs ++ [job]).map ListedJob.name)) =
          scheduler.timingClient.taskMap.filter fun listener =>
            decide (listener.task.name ∉ scheduler.jobs.map ListedJob.name) := by
        have hgone : [listener].filter (fun listener =>
            decide (listener.task.name ∉ (scheduler.jobs ++ [job]).map ListedJob.name)) = [] := by
          simp [hname]
        rw [filter_append,hgone,append_nil]
        refine filter_congr fun other hother => ?_
        have hapart : other.task.name ≠ job.name := fun hsame => hnew (mem_map.mpr ⟨other,hother,hsame⟩)
        simp [hapart]
      simp only [afterRefusal,hrunning,Bool.false_or,hkept]
    · rw [registerJobs,hregister]
      dsimp only
      rw [if_neg (by simpa using hresult)]
      refine ⟨result,hresult,?_⟩
      rw [rollback,unregisterAll_taskMap,afterRefusal]

section
omit [CountingSemaphore S]

theorem configure_iff (client : ListeningClient S) (answers : ClientAnswers) :
    (client.configure answers).2 = .errNoError ↔ answers.configurationFile = .errNoError ∧
      (client.taskMap = [] ∨ answers.masterName.getD client.masterName ≠ "") ∧
      answers.registerAckSignal = .errNoError ∧ answers.registerTickSignal = .errNoError ∧
      answers.registerDataListener = .errNoError := by
  unfold ListeningClient.configure
  by_cases hfile : answers.configurationFile = .errNoError
  · rw [if_neg (by simp [hfile])]
    by_cases hmaster : client.taskMap = [] ∨ answers.masterName.getD client.masterName ≠ ""
    · rw [if_neg (by rcases hmaster with hmaster | hmaster <;> simp [hmaster])]
      by_cases hfailed : (isFailed answers.registerAckSignal || isFailed answers.registerTickSignal ||
          isFailed answers.registerDataListener) = true
      · rw [if_pos hfailed]
        refine iff_of_false (by simp) ?_
        rintro ⟨-,-,hack,htick,hlistener⟩
        simp [hack,htick,hlistener] at hfailed
      · rw [if_neg hfailed]
        simp only [Bool.or_eq_true,isFailed_iff,not_or,not_not] at hfailed
        exact iff_of_true rfl ⟨hfile,hmaster,hfailed.1.1,hfailed.1.2,hfailed.2⟩
    · rw [not_or,not_not] at hmaster
      rw [if_pos (by simp [hmaster])]
      refine iff_of_false (by simp) ?_
      rintro ⟨-,hnil | hname,-⟩
      · exact hmaster.1 hnil
      · exact hname hmaster.2
  · rw [if_pos (by simp [hfile])]
    simp [hfile]

theorem configure_kept (client : ListeningClient S) (answers : ClientAnswers) :
    (client.configure answers).1.taskMap = client.taskMap ∧
      (client.configure answers).1.timingClientRunningFlag = client.timingClientRunningFlag := by
  have hwatch (client : ListeningClient S) : client.watchTriggers.taskMap = client.taskMap ∧
      client.watchTriggers.timingClientRunningFlag = client.timingClientRunningFlag := by
    unfold ListeningClient.watchTriggers
    split
    · exact ⟨rfl,rfl⟩
    · exact ⟨rfl,rfl⟩
  unfold ListeningClient.configure
  split
  · exact ⟨rfl,rfl⟩
  · dsimp only
    split
    · exact ⟨rfl,rfl⟩
    · split
      · exact hwatch _
      · exact hwatch _

end

theorem nothingLeft_iff : NothingLeft jobs scheduler ↔
    scheduler.jobs = [] ∧ ∀ listener ∈ scheduler.timingClient.taskMap, isOf jobs listener = false := by
  constructor
  · exact fun h => ⟨h.jobs_nil,h.unregistered⟩
  · rintro ⟨hnil,hnone⟩
    refine ⟨hnil,hnone,fun answers => ?_⟩
    have hfilter : scheduler.timingClient.taskMap.filter (fun listener => !isOf jobs listener) =
        scheduler.timingClient.taskMap := by
      refine filter_eq_self.mpr fun listener hlistener => ?_
      rw [hnone listener hlistener]
      rfl
    have hsame : scheduler.without jobs = scheduler := by
      rw [without,hfilter,← hnil]
    rw [hsame]

/-- With all jobs registered a set-up fails if and only if something cannot be configured, and keeps every job in
the list. -/
theorem initializeScheduler_of_registrable (h : scheduler.Registrable jobs) : (scheduler.Configurable jobs answers ↔
      ∀ after result, scheduler.initializeScheduler jobs answers = some (after,result) → result = .errNoError) ∧
    ∀ after result, scheduler.initializeScheduler jobs answers = some (after,result) →
      after.jobs = scheduler.jobs ++ jobs := by
  obtain ⟨listeners,hnil,-,hregistered⟩ := registerJobs_of_registrable h
  have hclient := configure_iff { scheduler.timingClient with
    taskMap := scheduler.timingClient.taskMap ++ listeners } answers.client
  rw [append_eq_nil_iff,hnil] at hclient
  unfold initializeScheduler Configurable
  rw [hregistered,← hclient]
  dsimp only
  rw [if_neg (by simp)]
  generalize ListeningClient.configure _ answers.client = configured
  obtain ⟨client,result⟩ := configured
  by_cases hok : result = .errNoError
  · subst hok
    cases scheduler.timingMaster.configure answers.master answers.userStepTrigger answers.transmission with
    | none => simp
    | some configured =>
      obtain ⟨master,result,text⟩ := configured
      by_cases hresult : result = .errNoError
      · simp [hresult]
      · simp [hresult]
  · rw [if_pos (by simpa using hok)]
    simp [hok]

theorem setUpUndone_of_registrable (hregistrable : scheduler.Registrable jobs) :
    scheduler.SetUpUndone jobs answers ↔ scheduler.FailsCleanly jobs answers := by
  unfold SetUpUndone FailsCleanly
  obtain ⟨hconfigurable,hjobs⟩ := initializeScheduler_of_registrable hregistrable
  rw [hconfigurable]
  constructor
  · intro hundone
    refine ⟨fun _ => ?_,fun hnot => absurd hregistrable hnot⟩
    by_cases hfails : ∃ after result, scheduler.initializeScheduler jobs answers = some (after,result) ∧
        result ≠ .errNoError
    · obtain ⟨after,result,hafter,hresult⟩ := hfails
      have hnil := (hundone after result hafter (by simpa using hresult)).jobs_nil
      rw [hjobs after result hafter] at hnil
      exact .inr (append_eq_nil_iff.mp hnil)
    · left
      intro after result hafter
      by_contra hresult
      exact hfails ⟨after,result,hafter,hresult⟩
  · rintro ⟨hclean,-⟩ after result hafter hfailed
    rcases hclean hregistrable with hok | ⟨hnil,rfl⟩
    · rw [hok after result hafter] at hfailed
      cases hfailed
    · refine nothingLeft_iff.mpr ⟨?_,fun listener _ => by simp [isOf]⟩
      rw [hjobs after result hafter,hnil]
      rfl

theorem setUpUndone_of_not_registrable (hregistrable : ¬scheduler.Registrable jobs) :
    scheduler.SetUpUndone jobs answers ↔ scheduler.FailsCleanly jobs answers := by
  unfold SetUpUndone FailsCleanly
  obtain ⟨result,hresult,hregistered⟩ := registerJobs_of_not_registrable hregistrable
  have hafter : scheduler.initializeScheduler jobs answers = some (scheduler.afterRefusal,result) := by
    unfold initializeScheduler
    rw [hregistered]
    dsimp only
    rw [if_pos (by simpa using hresult)]
  rw [hafter]
  constructor
  · intro hundone
    refine ⟨fun h => absurd h hregistrable,fun _ listener hlistener hof => ?_⟩
    have hleft := (hundone _ _ rfl (by simpa using hresult)).unregistered listener
    by_contra hstays
    rw [hof] at hleft
    refine Bool.noConfusion (hleft (mem_filter.mpr ⟨hlistener,?_⟩))
    by_cases hrunning : scheduler.timingClient.timingClientRunningFlag = false
    · simpa [hrunning] using fun hmem => hstays ⟨hrunning,hmem⟩
    · simp [hrunning]
  · rintro ⟨-,hclean⟩ after result' hsame _
    cases hsame
    refine nothingLeft_iff.mpr ⟨rfl,fun listener hlistener => ?_⟩
    obtain ⟨hmem,hkept⟩ := mem_filter.mp hlistener
    by_contra hof
    obtain ⟨hrunning,hname⟩ := hclean hregistrable listener hmem (by simpa using hof)
    simp [hrunning,hname] at hkept

theorem setUpUndone_iff (scheduler : LockedStepScheduler S) (jobs : List ListedJob) (answers : InitializeAnswers) :
    scheduler.SetUpUndone jobs answers ↔ scheduler.FailsCleanly jobs answers := by
  by_cases hregistrable : scheduler.Registrable jobs
  · exact setUpUndone_of_registrable hregistrable
  · exact setUpUndone_of_not_registrable hregistrable

/-- The call to `deinitialize` leaves nothing of the jobs, if the client is stopped and their listeners were not there
before. -/
theorem deinitialize_undoes (hregistrable : scheduler.Registrable jobs)
    (hnone : ∀ listener ∈ scheduler.timingClient.taskMap, isOf jobs listener = false)
    (hset : scheduler.initializeScheduler jobs answers = some (after,.errNoError)) :
    NothingLeft jobs after.deinitializeScheduler := by
  rcases hregistrable with rfl | hregistrable
  · exact nothingLeft_iff.mpr ⟨rfl,fun listener _ => by simp [isOf]⟩
  obtain ⟨listeners,-,hnames,hregistered⟩ := registerJobs_of_registrable (.inr hregistrable)
  have hkept := configure_kept { scheduler.timingClient with
    taskMap := scheduler.timingClient.taskMap ++ listeners } answers.client
  have hafter : after.jobs = scheduler.jobs ++ jobs ∧
      after.timingClient.taskMap = scheduler.timingClient.taskMap ++ listeners ∧
      after.timingClient.timingClientRunningFlag = false := by
    unfold initializeScheduler at hset
    rw [hregistered] at hset
    dsimp only at hset
    rw [if_neg (by simp)] at hset
    generalize ListeningClient.configure _ answers.client = configured at hset hkept
    split at hset
    · rename_i hfailed
      rw [(Prod.mk.inj (Option.some.inj hset)).2] at hfailed
      cases hfailed
    · obtain ⟨⟨master,result,text⟩,-,hsame⟩ := Option.map_eq_some_iff.mp hset
      split at hsame
      · rename_i hfailed
        cases hsame
        cases hfailed
      · cases hsame
        exact ⟨rfl,hkept.1,hkept.2.trans hregistrable.1⟩
  obtain ⟨hjobs,htaskMap,hrunning⟩ := hafter
  have hreset : after.timingClient.reset.taskMap = after.timingClient.taskMap ∧
      after.timingClient.reset.timingClientRunningFlag = after.timingClient.timingClientRunningFlag := by
    unfold ListeningClient.reset
    split
    · exact ⟨rfl,rfl⟩
    · exact ⟨rfl,rfl⟩
  refine nothingLeft_iff.mpr ⟨rfl,fun listener hlistener => ?_⟩
  rw [deinitializeScheduler,rollback,unregisterAll_taskMap] at hlistener
  obtain ⟨hmem,hname⟩ := mem_filter.mp hlistener
  rw [hreset.1,htaskMap,mem_append] at hmem
  rcases hmem with hold | hnew
  · exact hnone listener hold
  · have hgone := hnames listener hnew
    simp [hreset.2,hrunning,hjobs,hgone] at hname

end Registration

section Start

variable {master : TimingMaster S} {context : StartContext}

omit [CountingSemaphore S] in
theorem masterStarts_iff :
    (∀ started ∈ master.start context, started.2.1 = .errNoError) ↔ MasterStarts master context := by
  unfold TimingMaster.start MasterStarts
  by_cases hmaster : master.isTimingMasterFlag = true
  · simp only [hmaster,Bool.not_true,Bool.false_eq_true,if_false,Option.bind_eq_bind,forall_const]
    cases master.startConfigs context with
    | none => simp
    | some configs =>
      simp only [Option.bind_some,Option.mem_some_iff,forall_eq']
      cases ScheduleMap.configure context.maxScheduleSize master.scheduleMap.reset configs with
      | none => simp
      | some configured =>
        obtain ⟨map,accepted⟩ := configured
        cases accepted with
        | false => simp
        | true =>
          cases master.stepTriggerStrategy with
          | none => simp
          | some strategy =>
            simp only [Bool.not_true,Bool.false_eq_true,if_false,Option.bind_some,Option.mem_some_iff,forall_eq',
              true_and]
            generalize strategy.registerStrategyTrigger map.getCycleTime context.userRegisterTrigger = outcome
            obtain ⟨registered,result⟩ := outcome
            by_cases hresult : result = .errNoError
            · subst hresult
              cases master.workerThread with
              | none => simp
              | some worker => simp
            · simp [hresult]
  · simp [hmaster]

theorem startUndone_iff (scheduler : LockedStepScheduler S) (context : StartContext) :
    scheduler.StartUndone context ↔ MasterStarts scheduler.timingMaster context := by
  rw [← masterStarts_iff]
  have hstart : scheduler.start context = (scheduler.timingMaster.start context).map fun started =>
      ({scheduler with timingClient := scheduler.timingClient.start.1, timingMaster := started.1},started.2.1) := rfl
  unfold StartUndone
  rw [hstart]
  constructor
  · intro hundone started hstarted
    by_contra hfailed
    have hclient := (hundone _ _ (by rw [Option.mem_def.mp hstarted]; rfl) (by simpa using hfailed)).1
    exact Bool.noConfusion hclient
  · intro hall after result hafter hfailed
    obtain ⟨started,hstarted,hsame⟩ := Option.map_eq_some_iff.mp hafter
    cases hsame
    rw [hall started hstarted] at hfailed
    cases hfailed

end Start

end LockedStepScheduler

namespace ExternalTriggerSetUp

private theorem undone_iff (dataAccessPrivate transmissionAdapterPrivate : Bool) (answers : ExternalTriggerAnswers)
    (unregisterDataListener unregisterSignal : Result) :
    Undone dataAccessPrivate transmissionAdapterPrivate answers unregisterDataListener unregisterSignal ↔
      dataAccessPrivate = false ∨ transmissionAdapterPrivate = false ∨ answers.registerSignal ≠ .errNoError := by
  unfold Undone initializeTrigger
  cases dataAccessPrivate with
  | false => simp [new,isFailed,isOk]
  | true =>
    cases transmissionAdapterPrivate with
    | false => simp [new,isFailed,isOk]
    | true =>
      by_cases hsignal : answers.registerSignal = .errNoError
      · by_cases hlistener : answers.registerDataListener = .errNoError
        · simp [new,reset,hsignal,hlistener]
        · simp [new,hsignal,hlistener]
      · simp [new,hsignal]

end ExternalTriggerSetUp

open LockedStepScheduler in
/-- A failed set-up of the scheduler leaves nothing if and only if it fails cleanly, a failed start if and only if
there is none, and the external trigger is undone if and only if its signal was not registered. -/
theorem set_up_undone (S : Type) [CountingSemaphore S] :
    (∀ (scheduler : LockedStepScheduler S) (jobs : List ListedJob) (answers : InitializeAnswers),
      scheduler.SetUpUndone jobs answers ↔ scheduler.FailsCleanly jobs answers) ∧
    (∀ (scheduler : LockedStepScheduler S) (context : StartContext),
      scheduler.StartUndone context ↔ MasterStarts scheduler.timingMaster context) ∧
    (∀ (dataAccessPrivate transmissionAdapterPrivate : Bool) (answers : ExternalTriggerAnswers)
      (unregisterDataListener unregisterSignal : Result),
      ExternalTriggerSetUp.Undone dataAccessPrivate transmissionAdapterPrivate answers unregisterDataListener
        unregisterSignal ↔
      dataAccessPrivate = false ∨ transmissionAdapterPrivate = false ∨ answers.registerSignal ≠ .errNoError) :=
  ⟨setUpUndone_iff,startUndone_iff,ExternalTriggerSetUp.undone_iff⟩

/-- A job with a cycle of 100 µs. -/
def plannedJob : ListedJob := ⟨1,"control",⟨100,0,.tsWarnAboutRuntimeViolation⟩⟩

/-- No timing master is named. -/
def noMaster : InitializeAnswers where
  handles := ⟨fun _ => .errNoError,fun _ => .errNoError⟩
  uuid := id
  client := ⟨.errNoError,none,some "",.errNoError,.errNoError,.errNoError⟩
  master := ⟨none,none,none,none⟩
  userStepTrigger := false
  transmission := .errNoError

def idleMaster : LockedStepScheduler Nat :=
  { LockedStepScheduler.new with
    timingMaster := { TimingMaster.new with
      isTimingMasterFlag := true
      stepTriggerStrategy := some (.new .afap) } }

/-- Without a timing master the listener of the job stays, without a schedule the client is left started, and the
external trigger keeps its signal and its data listener. -/
theorem set_up_left_behind : ¬LockedStepScheduler.SetUpUndone (S := Nat) .new [plannedJob] noMaster ∧
    ¬idleMaster.StartUndone ⟨100000,[],none,.errNoError⟩ ∧
    ¬ExternalTriggerSetUp.Undone true true ⟨.errNoError,1,.errNoError⟩ .errNoError .errNoError := by
  refine ⟨fun hundone => ?_,fun hundone => ?_,fun hundone => ?_⟩
  · have hleft := (hundone _ _ rfl rfl).jobs_nil
    cases hleft
  · have hleft := (hundone _ _ rfl rfl).1
    cases hleft
  · cases hundone.1

open LockedStepScheduler in
theorem deinitialize_undoes_planned : ∃ after : LockedStepScheduler Nat, after.jobs = [plannedJob] ∧
    NothingLeft [plannedJob] after.deinitializeScheduler := by
  have hregistrable : (LockedStepScheduler.new : LockedStepScheduler Nat).Registrable [plannedJob] := by
    refine .inr ⟨rfl,by decide,?_⟩
    simp [plannedJob,Accepted,LockedStepScheduler.new,ListeningClient.names,ListeningClient.new]
  exact ⟨_,rfl,deinitialize_undoes hregistrable nofun (rfl : LockedStepScheduler.initializeScheduler _ [plannedJob]
    {noMaster with client.masterName := some "Master"} = some (_,.errNoError))⟩

end FepParticipant.Scheduler
