import FepParticipant.Clock.ClockMaster
import FepParticipant.Library.MachineWord
import Mathlib.Data.List.Sort
import Mathlib.Algebra.Ring.Nat

/-! The timer queue of the clock based scheduler: absolute next instants, processed at each
event of a discrete main clock. A time that does not fit into 64 bits has no defined result, `none`. -/
namespace FepParticipant.Scheduler
open Clock Library List

/-- A queued timer; a period of zero makes it a one shot timer. -/
structure TimerInfo where
  timer : Nat
  nextInstant : Int
  period : Nat
  deriving DecidableEq

/-- What the queue asks of a timer's thread. -/
inductive TimerCall where
  | wakeUp (timer : Nat) (wakeupTime : Int)
  | reset (timer : Nat)
  deriving DecidableEq

def triggersIn (timer : Nat) (calls : List TimerCall) : List Int :=
  calls.filterMap fun
    | .wakeUp woken wakeupTime => if woken = timer then some wakeupTime else none
    | .reset _ => none

namespace TimerInfo

/-- The place of a triggered timer: after the timers that are due, before the first that is later than it. -/
def insertNext (current : Int) (info : TimerInfo) : List TimerInfo → List TimerInfo
  | [] => [info]
  | other::others =>
    if current < other.nextInstant ∧ info.nextInstant < other.nextInstant then info::other::others
    else other::insertNext current info others

theorem insertNext_perm (current : Int) (info : TimerInfo) (others : List TimerInfo) :
    (info.insertNext current others).Perm (info::others) := by
  induction others with
  | nil => rfl
  | cons other others ih =>
    rw [insertNext]
    split
    · rfl
    · exact (ih.cons other).trans (.swap ..)

/-- How often the timer can still be triggered at this time, and a bit more. -/
def work (current : Int) (info : TimerInfo) : Nat :=
  if info.nextInstant ≤ current then (current - info.nextInstant).toNat + 2
  else if info.nextInstant = 0 then 1 else 0

def waits (current : Int) (info : TimerInfo) : Prop := info.nextInstant ≠ 0 ∧ current < info.nextInstant

instance (current : Int) (info : TimerInfo) : Decidable (info.waits current) := inferInstanceAs (Decidable (_ ∧ _))

def advanced (info : TimerInfo) : TimerInfo := {info with nextInstant := info.nextInstant + info.period}

/-- The next instant of a triggered timer does not fit into a `timestamp_t`. -/
def Overflows (info : TimerInfo) : Prop := info.period ≠ 0 ∧ ¬Fits64 info.advanced.nextInstant

instance (info : TimerInfo) : Decidable info.Overflows := inferInstanceAs (Decidable (_ ∧ _))

/-- The queue after its first timer has been triggered. -/
def requeue (current : Int) (info : TimerInfo) (others : List TimerInfo) : List TimerInfo :=
  if info.period ≠ 0 then info.advanced.insertNext current others else others

theorem work_requeue {current : Int} {info : TimerInfo} (h : ¬info.waits current) (others : List TimerInfo) :
    ((info.requeue current others).map (work current)).sum < ((info::others).map (work current)).sum := by
  have hpos : 0 < info.work current := by
    simp only [waits,not_and_or,not_lt,ne_eq,not_not] at h
    unfold work
    split_ifs <;> omega
  unfold requeue
  split
  · rename_i hperiod
    rw [((insertNext_perm current info.advanced others).map _).sum_nat,map_cons,map_cons,
      sum_cons,sum_cons]
    have hless : info.advanced.work current < info.work current := by
      simp only [waits,not_and_or,not_lt,ne_eq,not_not] at h
      unfold work advanced
      dsimp only
      split_ifs <;> omega
    omega
  · simp only [map_cons,sum_cons]
    omega

end TimerInfo

/-- What processing the queue leaves: the timers woken up, the queue, and the time to wait. -/
structure Processed where
  calls : List TimerCall
  timers : List TimerInfo
  timeToWait : Int

/-- The loop over the sorted queue. The timers triggered have finished before the next turn. -/
def processLoop (current : Int) : List TimerInfo → Option Processed
  | [] => some ⟨[],[],-1⟩
  | info::others =>
    if info.waits current then
      if Fits64 (info.nextInstant - current) then some ⟨[],info::others,info.nextInstant - current⟩ else none
    else if info.Overflows then none
    else do
      let later ← processLoop current (info.requeue current others)
      return {later with calls := .wakeUp info.timer info.nextInstant::later.calls}
termination_by timers => (timers.map (TimerInfo.work current)).sum
decreasing_by exact TimerInfo.work_requeue ‹_› others

/-- The scheduler with the calls it has made so far. -/
structure TimerScheduler where
  timers : List TimerInfo
  startUpResetTime : Int
  started : Bool
  calls : List TimerCall
  deriving DecidableEq

namespace TimerScheduler
variable (scheduler : TimerScheduler)

def new : TimerScheduler := ⟨[],-1,false,[]⟩

def addTimer (time : Int) (timer period : Nat) (initialDelay : Int) : Option TimerScheduler :=
  if Fits64 (time + initialDelay) then
    some {scheduler with timers := scheduler.timers ++ [⟨timer,time + initialDelay,period⟩]}
  else none

/-- Timers are compared by their next instants. -/
def sort (timers : List TimerInfo) : List TimerInfo :=
  timers.insertionSort fun info other => info.nextInstant ≤ other.nextInstant

def processSchedulerQueueSynchron (current : Int) : Option TimerScheduler := do
  let processed ← processLoop current (sort scheduler.timers)
  return {scheduler with timers := processed.timers, calls := scheduler.calls ++ processed.calls}

/-- The first step after the reset is processed at start. -/
def start : Option TimerScheduler := do
  let processed ← if scheduler.startUpResetTime > -1 then
      scheduler.processSchedulerQueueSynchron scheduler.startUpResetTime
    else some scheduler
  return {processed with started := true}

def stop : TimerScheduler := {scheduler with started := false, startUpResetTime := -1}

/-- Every next instant moves with the clock; timers are reset unless the clock moves forward. -/
def timeResetBegin (oldTime newTime : Int) : Option TimerScheduler :=
  if Fits64 (if oldTime < newTime then newTime - oldTime else oldTime - newTime) ∧
      ∀ info ∈ scheduler.timers, Fits64 (info.nextInstant + (newTime - oldTime)) then
    some { scheduler with
      startUpResetTime := if ¬scheduler.started then newTime else scheduler.startUpResetTime
      timers := scheduler.timers.map fun info =>
        if oldTime < newTime then {info with nextInstant := info.nextInstant + (newTime - oldTime)}
        else {info with nextInstant := info.nextInstant - (oldTime - newTime)}
      calls := scheduler.calls ++
        if oldTime < newTime then [] else scheduler.timers.map fun info => .reset info.timer }
  else none

def processIfStarted (newTime : Int) : Option TimerScheduler :=
  if scheduler.started then scheduler.processSchedulerQueueSynchron newTime else some scheduler

def onEvent : ClockEvent → Option TimerScheduler
  | .timeResetBegin oldTime newTime => scheduler.timeResetBegin oldTime newTime
  | .timeResetEnd newTime => scheduler.processIfStarted newTime
  | .timeUpdating newTime => scheduler.processIfStarted newTime
  | .timeUpdateBegin _ _ => some scheduler
  | .timeUpdateEnd _ => some scheduler

def onEvents (events : List ClockEvent) : Option TimerScheduler := events.foldlM onEvent scheduler

def triggers (timer : Nat) : List Int := triggersIn timer scheduler.calls

end TimerScheduler

/-- A job with its delay and cycle. -/
structure Job where
  delay : Int
  cycle : Nat

/-- The clock service and the scheduler of a participant. -/
structure SchedulerSystem where
  clockService : LocalClockService
  scheduler : TimerScheduler
  deriving DecidableEq

namespace SchedulerSystem

def new : SchedulerSystem := ⟨LocalClockService.new,TimerScheduler.new⟩

/-- A new queue with one timer for each job, numbered in their order. -/
def initializeJobs (system : SchedulerSystem) (jobs : List Job) : Option SchedulerSystem := do
  let scheduler ← jobs.zipIdx.foldlM
    (fun scheduler job => scheduler.addTimer system.clockService.getTime job.2 job.1.cycle job.1.delay)
    TimerScheduler.new
  return {system with scheduler := scheduler}

def start (system : SchedulerSystem) : Option SchedulerSystem := do
  let (clockService,events) := system.clockService.start
  let scheduler ← system.scheduler.onEvents events
  return ⟨clockService,← scheduler.start⟩

def stop (system : SchedulerSystem) : SchedulerSystem := ⟨system.clockService.stop,system.scheduler.stop⟩

def call (system : SchedulerSystem) (clockCall : ClockCall) : Option SchedulerSystem := do
  let (clockService,events) := system.clockService.call clockCall
  return ⟨clockService,← system.scheduler.onEvents events⟩

def callAll (system : SchedulerSystem) (clockCalls : List ClockCall) : Option SchedulerSystem :=
  clockCalls.foldlM call system

/-- The jobs of a run, the calls on its clock, and those after its stop. -/
structure EarlierRun where
  jobs : List Job
  clockCalls : List ClockCall
  stoppedCalls : List ClockCall

/-- A run of these jobs up to now: they are initialized, the run is started and its clock is called. -/
def runTo (system : SchedulerSystem) (jobs : List Job) (clockCalls : List ClockCall) : Option SchedulerSystem := do
  (← (← system.initializeJobs jobs).start).callAll clockCalls

def runToStop (system : SchedulerSystem) (run : EarlierRun) : Option SchedulerSystem := do
  (← system.runTo run.jobs run.clockCalls).stop.callAll run.stoppedCalls

def afterRuns (runs : List EarlierRun) : Option SchedulerSystem := runs.foldlM runToStop new

end SchedulerSystem

end FepParticipant.Scheduler
