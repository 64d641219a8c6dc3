import FepParticipant.Result
import FepParticipant.Timing.TimingClient

/-! The timing master: what its step trigger strategy has to wait for, its lifecycle calls, the messages it
takes, and the loop of its worker thread, cut at the points where other threads may run. -/
namespace FepParticipant.Timing
open Option

inductive TriggerMode where
  | afap
  | systemTime
  | userImplementation
  | externalClock
  deriving DecidableEq

namespace TriggerMode

def needToWaitForTrigger : TriggerMode → Bool
  | .afap => false
  | .systemTime | .userImplementation | .externalClock => true

def needToWaitForCompletition : TriggerMode → Bool
  | .afap | .systemTime => true
  | .userImplementation | .externalClock => false

def hasSupportDummyTimeTrigger : TriggerMode → Bool
  | .systemTime => true
  | .afap | .userImplementation | .externalClock => false

end TriggerMode

structure StepTriggerStrategy where
  mode : TriggerMode
  hasListener : Bool
  cycleTime : Int

namespace StepTriggerStrategy

def new (mode : TriggerMode) : StepTriggerStrategy := ⟨mode,false,0⟩

/-- `cBaseStepTriggerStrategy::RegisterStrategyTrigger` for an existing listener. -/
def registerBase (strategy : StepTriggerStrategy) (cycleTime : Int) : StepTriggerStrategy × Result :=
  if cycleTime ≤ 0 then (strategy,.errInvalidArg)
  else if strategy.hasListener then (strategy,.errUnexpected)
  else ({strategy with hasListener := true, cycleTime := cycleTime},.errNoError)

/-- `RegisterStrategyTrigger`; in user mode the user's trigger is asked as well. -/
def registerStrategyTrigger (strategy : StepTriggerStrategy) (cycleTime : Int)
    (userRegisterTrigger : Result) : StepTriggerStrategy × Result :=
  let (registered,result) := strategy.registerBase cycleTime
  match strategy.mode with
  | .userImplementation => (registered,if isOk result then userRegisterTrigger else result)
  | .afap | .systemTime | .externalClock => (registered,result)

end StepTriggerStrategy

open Library

/-- Where the worker stands. Each loop first asks whether to shut down; the inner one waits for the tick after a
completed schedule. -/
inductive WorkerPosition where
  | loopHead (needToWaitForStepComplete : Bool)
  | iteration (needToWaitForStepComplete : Bool)
  | innerHead
  | innerIteration
  | finished
  deriving DecidableEq

/-- What a step of the worker thread did to the schedule. -/
inductive WorkerEvent where
  | idle
  | executed (tick : Option TriggerTick)
  deriving DecidableEq

structure WorkerThread where
  mode : TriggerMode
  position : WorkerPosition
  deriving DecidableEq

structure TimingMaster (S : Type) where
  isTimingMasterFlag : Bool
  isInitialScheduleFlag : Bool
  scheduleMap : ScheduleMap
  currentTime : Int
  durationSinceLastTick : Int
  scheduleConfigs : ScheduleConfigs
  stepTriggerStrategy : Option StepTriggerStrategy
  workerThread : Option WorkerThread
  shutdownWorkerSemaphore : S
  completitionBarrier : S
  tickBarrier : S
  lastAcknowledgeReceivedTimestamp : Int
  acknowledgeWaitTimeout : Int
  acknowledgeWaitTimerPeriod : Int
  acknowledgeWaitTimerRunning : Bool

/-- The properties `configure` reads; a property that cannot be read is `none`. -/
structure MasterProperties where
  timingMasterParticipant : Option String
  elementName : Option String
  triggerMode : Option String
  clientTimeout : Option Int

/-- What `start` is given from outside the master. -/
structure StartContext where
  maxScheduleSize : Nat
  ownScheduleList : List ScheduleConfig
  minTriggerTime : Option Int
  userRegisterTrigger : Result

def watchdogPeriod : Int := 100 * 1000

namespace TimingMaster
open CountingSemaphore

variable {S : Type} [CountingSemaphore S]
variable (master : TimingMaster S)
variable (mode : TriggerMode)

def new : TimingMaster S where
  isTimingMasterFlag := false
  isInitialScheduleFlag := false
  scheduleMap := .new
  currentTime := -1
  durationSinceLastTick := 0
  scheduleConfigs := .empty
  stepTriggerStrategy := none
  workerThread := none
  shutdownWorkerSemaphore := fresh
  completitionBarrier := fresh
  tickBarrier := fresh
  lastAcknowledgeReceivedTimestamp := 0
  acknowledgeWaitTimeout := 1000000 * 10
  acknowledgeWaitTimerPeriod := 0
  acknowledgeWaitTimerRunning := false

/-- The acknowledgement timeout of the modes that wait for completion. -/
def configureAckTimeout (clientTimeout : Option Int) :
    TimingMaster S × Result × String :=
  match clientTimeout with
  | none => (master,.errNoError,"")
  | some timeout =>
    if 0 < timeout then
      ({ master with
          acknowledgeWaitTimeout := wrap32 (wrap32 (timeout * 1000) * 1000)
          acknowledgeWaitTimerPeriod := watchdogPeriod },.errNoError,"")
    else (master,.errInvalidArg,"Acknowledgement wait timeout is set to invalid value.")

def configureTriggerMode (props : MasterProperties)
    (userStepTrigger : Bool) : TimingMaster S × Result × String :=
  let use (mode : TriggerMode) := {master with stepTriggerStrategy := some (.new mode)}
  let triggerMode := props.triggerMode.getD ""
  if triggerMode = "" then (master,.errUnexpected,"TriggerMode is required, but it is unset or empty.")
  else if triggerMode = "AFAP" then configureAckTimeout (use .afap) props.clientTimeout
  else if triggerMode = "SYSTEM_TIME" then configureAckTimeout (use .systemTime) props.clientTimeout
  else if triggerMode = "USER_IMPLEMENTATION" then
    if userStepTrigger then (use .userImplementation,.errNoError,"")
    else (master,.errUnexpected,
      "TriggerMode was set to \"USER_IMPLEMENTATION\", but no trigger class was set.")
  else if triggerMode = "EXTERNAL_CLOCK" then (use .externalClock,.errNoError,"")
  else (master,.errUnexpected,"TriggerMode has invalid value.")

/-- `TimingMaster::configure`. `transmission` is the first failure of the command and the registrations, and `none`
reads a name that was never set. -/
def configure (props : MasterProperties) (userStepTrigger : Bool)
    (transmission : Result) : Option (TimingMaster S × Result × String) :=
  let master := {master with scheduleConfigs := .empty}
  match props.timingMasterParticipant, props.elementName with
  | none, _ => some (master,.errNoError,"")
  | some "", none => some ({master with isTimingMasterFlag := false},.errFailed,"")
  | some _, none => none
  | some participant, some element =>
    let flag := participant ≠ "" ∧ participant = element
    let master := {master with isTimingMasterFlag := flag}
    if flag then
      match master.configureTriggerMode props userStepTrigger with
      | (master,.errNoError,_) => some (master,transmission,"")
      | failed => some failed
    else some (master,.errNoError,"")

/-- `TimingMaster::reset` deletes the strategy and leaves both barriers as they are. -/
def reset : TimingMaster S :=
  if master.isTimingMasterFlag then
    { master with
      stepTriggerStrategy := none
      acknowledgeWaitTimerPeriod := 0
      lastAcknowledgeReceivedTimestamp := 0 }
  else master

/-- The configurations `start` works with; `none` asks a missing strategy. -/
def startConfigs (context : StartContext) : Option ScheduleConfigs :=
  let configs := master.scheduleConfigs.insertAll context.ownScheduleList
  match context.minTriggerTime with
  | none => some configs
  | some readout =>
    if 0 < readout then
      master.stepTriggerStrategy.map fun strategy =>
        if strategy.mode.hasSupportDummyTimeTrigger then configs.insert ⟨"",wrap32 (readout * 1000)⟩
        else configs
    else some configs

def scheduleMapTooBig : Incident where
  code := .fsiGeneralCriticalGlobalFailure
  severity := .criticalGlobal
  description := "ERROR: Schedule map will not be computed because the resulting lcm and gcd values of the given " ++
    "timing frequencies will be very large. Small frequencies should be rounded up or down."
  origin := "TimingMaster"

/-- What `start` has set once it tried to register with the strategy. -/
def prepareRun (configs : ScheduleConfigs) (map : ScheduleMap)
    (strategy registered : StepTriggerStrategy) : TimingMaster S :=
  { master with
    scheduleConfigs := configs
    scheduleMap := map
    stepTriggerStrategy := some registered
    currentTime := if strategy.mode.needToWaitForTrigger then -1 else 0
    isInitialScheduleFlag := true
    durationSinceLastTick := 0 }

def startWorker : TimingMaster S :=
  { master with
    workerThread := some ⟨mode,.loopHead false⟩
    acknowledgeWaitTimerRunning :=
      if master.acknowledgeWaitTimerPeriod ≠ 0 then true else master.acknowledgeWaitTimerRunning }

/-- `TimingMaster::start`; `none` is a missing strategy, a division by zero, or a second
worker thread over a running one. -/
def start (context : StartContext) :
    Option (TimingMaster S × Result × List Effect) :=
  if !master.isTimingMasterFlag then some (master,.errNoError,[])
  else do
    let configs ← master.startConfigs context
    let (map,accepted) ← ScheduleMap.configure context.maxScheduleSize master.scheduleMap.reset configs
    if !accepted then
      return ({master with scheduleConfigs := configs, scheduleMap := map},.errFailed,
        [.invokeIncident scheduleMapTooBig,.errorEvent])
    let strategy ← master.stepTriggerStrategy
    let (registered,result) := strategy.registerStrategyTrigger map.getCycleTime context.userRegisterTrigger
    let prepared := master.prepareRun configs map strategy registered
    if isOk result then
      if master.workerThread.isSome then none
      else return (prepared.startWorker strategy.mode,.errNoError,[])
    else return (prepared,result,[])

/-- Everything `start` can do: nothing, as not the master; refuse the schedule; fail to register; or start a run. -/
inductive StartCase (master : TimingMaster S) (context : StartContext) :
    TimingMaster S → Result → List Effect → Prop
  | notMaster : master.isTimingMasterFlag = false → StartCase master context master .errNoError []
  | refused {configs : ScheduleConfigs} {map : ScheduleMap} : master.isTimingMasterFlag = true →
      ScheduleMap.configure context.maxScheduleSize master.scheduleMap.reset configs = some (map,false) →
      StartCase master context {master with scheduleConfigs := configs, scheduleMap := map} .errFailed
        [.invokeIncident scheduleMapTooBig,.errorEvent]
  | notRegistered {configs : ScheduleConfigs} {map : ScheduleMap}
      {strategy registered : StepTriggerStrategy} {result : Result} : master.isTimingMasterFlag = true →
      ScheduleMap.configure context.maxScheduleSize master.scheduleMap.reset configs = some (map,true) →
      result ≠ .errNoError →
      StartCase master context (master.prepareRun configs map strategy registered) result []
  | started {configs : ScheduleConfigs} {map : ScheduleMap} {strategy registered : StepTriggerStrategy} :
      master.isTimingMasterFlag = true → master.startConfigs context = some configs →
      ScheduleMap.configure context.maxScheduleSize master.scheduleMap.reset configs = some (map,true) →
      master.stepTriggerStrategy = some strategy →
      strategy.registerStrategyTrigger map.getCycleTime context.userRegisterTrigger = (registered,.errNoError) →
      master.workerThread = none →
      StartCase master context
        ((master.prepareRun configs map strategy registered).startWorker strategy.mode) .errNoError []

omit [CountingSemaphore S] in
theorem start_cases {master master' : TimingMaster S} {context : StartContext} {result : Result}
    {effects : List Effect} (h : master.start context = some (master',result,effects)) :
    StartCase master context master' result effects := by
  unfold start at h
  split at h
  · rename_i hflag
    cases h
    exact .notMaster (by simpa using hflag)
  · rename_i hflag
    have hflag' : master.isTimingMasterFlag = true := by simpa using hflag
    simp only [bind_eq_bind,bind_eq_some_iff] at h
    obtain ⟨configs,hconfigs,⟨map,accepted⟩,hconfigure,h⟩ := h
    cases accepted with
    | false =>
      obtain ⟨rfl,rfl,rfl⟩ := h
      exact .refused hflag' hconfigure
    | true =>
      simp only [Bool.not_true,Bool.false_eq_true,if_false,bind_eq_some_iff] at h
      obtain ⟨strategy,hstrategy,h⟩ := h
      generalize hregister :
        strategy.registerStrategyTrigger map.getCycleTime context.userRegisterTrigger = outcome at h
      obtain ⟨registered,outcome⟩ := outcome
      by_cases hok : outcome = .errNoError
      · subst hok
        simp only [isOk_iff,if_true] at h
        split at h
        · cases h
        · rename_i hworker
          obtain ⟨rfl,rfl,rfl⟩ := h
          exact .started hflag' hconfigs hconfigure hstrategy hregister (by simpa using hworker)
      · simp only [isOk_iff,hok,if_false,pure_def,some.injEq,Prod.mk.injEq] at h
        obtain ⟨rfl,rfl,rfl⟩ := h
        exact .notRegistered hflag' hconfigure hok

/-- `TimingMaster::stop` up to the point where it waits for the worker thread. -/
def stop : TimingMaster S :=
  if master.isTimingMasterFlag then
    { master with
      acknowledgeWaitTimerRunning := false
      shutdownWorkerSemaphore :=
        if master.workerThread.isSome then notify master.shutdownWorkerSemaphore
        else master.shutdownWorkerSemaphore }
  else master

/-- The rest of `stop`, once the worker thread has finished. -/
def joinWorker : Option (TimingMaster S) :=
  match master.workerThread with
  | some ⟨_,.finished⟩ => some { master with
      workerThread := none
      shutdownWorkerSemaphore := CountingSemaphore.reset master.shutdownWorkerSemaphore }
  | _ => none

/-- `TimingMaster::Update` for an acknowledgement; it is matched by its uuid. -/
def updateAck (ack : TriggerAck) : Option (TimingMaster S) :=
  (master.scheduleMap.markStepForCurrentSchedule ack.uuidStr).map fun (map,marked) =>
    { master with
      lastAcknowledgeReceivedTimestamp := 0
      scheduleMap := map
      completitionBarrier := if marked then notify master.completitionBarrier else master.completitionBarrier }

/-- `TimingMaster::Update` for the schedule list of a client. -/
def updateSchedule (scheduleList : List ScheduleConfig) : TimingMaster S :=
  {master with scheduleConfigs := master.scheduleConfigs.insertAll scheduleList}

/-- `TimingMaster::InternalTrigger`. -/
def internalTrigger (triggerTime : Int) : TimingMaster S :=
  { master with
    currentTime := if master.currentTime < 0 then triggerTime else master.currentTime
    tickBarrier := notify master.tickBarrier }

/-- The tick `sendTickSignalToClients` transmits. -/
def tickToSend : TriggerTick := ⟨master.currentTime,master.durationSinceLastTick⟩

/-- The slot `DoNextSchedule` enters: the first one is not incremented to. -/
def nextScheduleMap : Option ScheduleMap :=
  if master.isInitialScheduleFlag then some master.scheduleMap
  else master.scheduleMap.incrementCurrentSchedule

/-- `DoNextSchedule`: the tick it sends, if any, and whether its completion is awaited. -/
def doNextSchedule :
    Option (TimingMaster S × Option TriggerTick × Bool) := do
  let map ← master.nextScheduleMap
  let hasStep ← map.isStepInCurrentSchedule
  let hasConfiguredStep ← map.isConfiguredStepInCurrentSchedule
  let duration := if hasStep then 0 else master.durationSinceLastTick
  return ({ master with
      isInitialScheduleFlag := false
      scheduleMap := map
      durationSinceLastTick := wrap64 (duration + map.getCycleTime)
      currentTime := wrap64 (master.currentTime + map.getCycleTime) },
    if hasStep then some master.tickToSend else none,
    hasStep && hasConfiguredStep)

/-- The master after `DoNextSchedule` has entered a slot. -/
def entered (map : ScheduleMap) (item : ScheduleItem) : TimingMaster S :=
  { master with
    isInitialScheduleFlag := false
    scheduleMap := map
    durationSinceLastTick := wrap64
      ((if item.isStepInCurrentSchedule then 0 else master.durationSinceLastTick) + map.getCycleTime)
    currentTime := wrap64 (master.currentTime + map.getCycleTime) }

section
omit [CountingSemaphore S]

theorem doNextSchedule_eq {master : TimingMaster S} {map : ScheduleMap} {item : ScheduleItem}
    (hmap : master.nextScheduleMap = some map) (hitem : map.currentItem = some item) :
    master.doNextSchedule = some (master.entered map item,
      if item.isStepInCurrentSchedule then some master.tickToSend else none,
      item.isStepInCurrentSchedule && item.hasConfiguredStep) := by
  simp only [doNextSchedule,hmap,ScheduleMap.isStepInCurrentSchedule,
    ScheduleMap.isConfiguredStepInCurrentSchedule,hitem,map_some,bind_eq_bind,
    bind_some,pure_def,ScheduleItem.isConfiguredStepInCurrentSchedule,entered]

theorem doNextSchedule_cases {master master' : TimingMaster S} {tick : Option TriggerTick} {need : Bool}
    (h : master.doNextSchedule = some (master',tick,need)) : ∃ map item,
      master.nextScheduleMap = some map ∧ map.currentItem = some item ∧
      master' = master.entered map item ∧
      tick = (if item.isStepInCurrentSchedule then some master.tickToSend else none) ∧
      need = (item.isStepInCurrentSchedule && item.hasConfiguredStep) := by
  cases hmap : master.nextScheduleMap with
  | none => simp [doNextSchedule,hmap] at h
  | some map =>
    cases hitem : map.currentItem with
    | none => simp [doNextSchedule,hmap,ScheduleMap.isStepInCurrentSchedule,hitem] at h
    | some item =>
      rw [doNextSchedule_eq hmap hitem,some_inj,Prod.mk.injEq,Prod.mk.injEq] at h
      exact ⟨map,item,rfl,hitem,h.1.symm,h.2.1.symm,h.2.2.symm⟩

end

def setPosition (position : WorkerPosition) :
    TimingMaster S :=
  {master with workerThread := some ⟨mode,position⟩}

/-- Run `DoNextSchedule` and go back to the head of the outer loop; the modes that only wait
for triggers drop its result. -/
def nextAndLoop : Option (TimingMaster S × WorkerEvent) :=
  master.doNextSchedule.map fun (master,tick,needToWait) =>
    (master.setPosition mode (.loopHead (mode.needToWaitForCompletition && needToWait)),.executed tick)

/-- Wait for the tick barrier, then run `DoNextSchedule`; a timeout goes on at `retry`. -/
def waitForTick (retry : WorkerPosition) :
    Option (TimingMaster S × WorkerEvent) :=
  match tryWait master.tickBarrier with
  | none => some (master.setPosition mode retry,.idle)
  | some barrier => {master with tickBarrier := barrier}.nextAndLoop mode

/-- Wait for an acknowledgement; once the schedule is complete, go on with `complete`. -/
def waitForCompletition
    (complete : TimingMaster S → Option (TimingMaster S × WorkerEvent)) :
    Option (TimingMaster S × WorkerEvent) :=
  match tryWait master.completitionBarrier with
  | none => some (master.setPosition mode (.loopHead true),.idle)
  | some barrier =>
    let master := {master with completitionBarrier := barrier}
    master.scheduleMap.isCurrentScheduleComplete.bind fun isComplete =>
      if isComplete then complete master else some (master.setPosition mode (.loopHead true),.idle)

/-- One step of `TimingMaster::ThreadFunc`. -/
def threadFunc : Option (TimingMaster S × WorkerEvent) :=
  match master.workerThread with
  | none => none
  | some ⟨mode,position⟩ =>
    match position with
    | .finished => none
    | .loopHead needToWait =>
      if isSet master.shutdownWorkerSemaphore then some (master.setPosition mode .finished,.idle)
      else some (master.setPosition mode (.iteration needToWait),.idle)
    | .innerHead =>
      if isSet master.shutdownWorkerSemaphore then some (master.setPosition mode (.loopHead true),.idle)
      else some (master.setPosition mode .innerIteration,.idle)
    | .innerIteration => master.waitForTick mode .innerHead
    | .iteration needToWait =>
      match mode with
      | .systemTime =>
        if needToWait then
          master.waitForCompletition mode fun master => some (master.setPosition mode .innerHead,.idle)
        else master.waitForTick mode (.loopHead false)
      | .afap =>
        if needToWait then master.waitForCompletition mode fun master => master.nextAndLoop mode
        else master.nextAndLoop mode
      | .userImplementation | .externalClock => master.waitForTick mode (.loopHead false)

/-- `TimingMaster::CheckAckTimeout`. -/
def checkAckTimeout : TimingMaster S × List Effect :=
  ({ master with
      lastAcknowledgeReceivedTimestamp := master.lastAcknowledgeReceivedTimestamp + watchdogPeriod },
    if master.acknowledgeWaitTimeout < master.lastAcknowledgeReceivedTimestamp then
      [.errorEvent,.invokeIncident
        ⟨.fsiTimingMasterAcknowledgementReceptionTimeout,.criticalGlobal,
          "Timing Master did not receive any acknowledgements during the configured timeout.",
          "TimingMaster"⟩]
    else [])

end TimingMaster
end FepParticipant.Timing
